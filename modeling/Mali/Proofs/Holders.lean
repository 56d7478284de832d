import Mali.Proofs.Workings

/-!
# Who holds on to a buffer

A batch holds one reference to each buffer in its set, and remembers the buffer by its handle.  A submission context
holds one to its tiler heap, and one to the ring of each of its queues.  What is left of the count of a buffer is held
by users directly.

* `Machine.charges`: the buffers that batches and submission contexts hold a reference to, as often as they do.
* `Machine.Filed`: the set of a batch has the handles of the buffers that it used.
* `SameHolders`: batches and submission contexts hold on to what they did.
* `Machine.count_charges_of_batch`, `Machine.count_charges_of_submitter`: one of them holds on to something else.
* `FiledUnder.use`, `FiledUnder.chargesOf_use`: a batch uses a buffer.
-/

namespace Mali

open Op

variable {κ : Type}

/-! ## Charges -/

/-- The handles of the buffers, by number. -/
def Allocator.handles (a : Allocator) : List Nat := a.buffers.map (·.handle)

/-- What a batch holds on to: its uses, and its set. -/
def Batch.set (b : Batch) : List (UsageType × Nat) × List (Nat × UInt32) := (b.uses, b.buffers)

/-- What a submission context holds on to: its tiler heap, and the ring of each queue. -/
def Submitter.post (s : Submitter) : Option Nat × Option Nat × Option Nat :=
  (s.heap, s.vertex.map (·.ring), s.fragment.map (·.ring))

/-- The buffer that a batch took a reference to under a handle: the first one with this handle that it used. -/
def ownerOf (handles : List Nat) (uses : List (UsageType × Nat)) (handle : Nat) : Option Nat :=
  (uses.map (·.2)).find? fun x => handles[x]? == some handle

@[inherit_doc ownerOf]
def Batch.owner? (b : Batch) (a : Allocator) (handle : Nat) : Option Nat := ownerOf a.handles b.uses handle

/-- The buffers that a batch holds a reference to, one for each handle in its set. -/
def chargesOf (handles : List Nat) (set : List (UsageType × Nat) × List (Nat × UInt32)) : List Nat :=
  (set.2.map (·.1)).filterMap (ownerOf handles set.1)

/-- The buffers that a submission context holds a reference to: its tiler heap, and the rings of its queues. -/
def postedOf (post : Option Nat × Option Nat × Option Nat) : List Nat :=
  post.1.toList ++ (post.2.1.toList ++ post.2.2.toList)

theorem Submitter.rings_eq (s : Submitter) : s.queues.map (·.ring) = s.post.2.1.toList ++ s.post.2.2.toList := by
  rw [queues, List.map_append, post]
  cases s.vertex <;> cases s.fragment <;> rfl

/-- The buffers that batches and submission contexts hold a reference to, as often as they do. -/
def Machine.charges (m : Machine κ) : List Nat :=
  (m.batches.map Batch.set).flatMap (chargesOf m.allocator.handles) ++
    (m.submitters.map Submitter.post).flatMap postedOf

/-- The references to a buffer. -/
def Machine.refs (m : Machine κ) (x : Nat) : Int32 := ((m.allocator.buffers[x]?).map (·.refs)).getD 0

theorem Machine.refs_of_buffer {m : Machine κ} {x : Nat} {b : Buffer} (h : m.allocator.buffers[x]? = some b) :
    m.refs x = b.refs := by
  rw [refs, h]
  rfl

/-- The set of a batch has the handles of the buffers that it used, each of them once. -/
structure FiledUnder (handles : List Nat) (set : List (UsageType × Nat) × List (Nat × UInt32)) : Prop where
  known : ∀ u ∈ set.1, u.2 < handles.length
  nodup : (set.2.map (·.1)).Nodup
  listed : ∀ k, k ∈ set.2.map (·.1) ↔ ∃ u ∈ set.1, handles[u.2]? = some k

/-- So does the set of every batch. -/
def Machine.Filed (m : Machine κ) : Prop := ∀ b ∈ m.batches, FiledUnder m.allocator.handles b.set

section Filed

variable {handles more : List Nat} {set : List (UsageType × Nat) × List (Nat × UInt32)}

theorem ownerOf_append {uses : List (UsageType × Nat)} (h : ∀ u ∈ uses, u.2 < handles.length) (k : Nat) :
    ownerOf (handles ++ more) uses k = ownerOf handles uses k := by
  induction uses with
  | nil => rfl
  | cons u uses ih =>
    obtain ⟨hu, hrest⟩ := List.forall_mem_cons.mp h
    have ih := ih hrest
    unfold ownerOf at ih ⊢
    rw [List.map_cons, List.find?_cons, List.find?_cons, ih, List.getElem?_append_left hu]

/-- New buffers take none over. -/
theorem FiledUnder.chargesOf_append (h : FiledUnder handles set) :
    chargesOf (handles ++ more) set = chargesOf handles set :=
  List.filterMap_congr fun _ _ => ownerOf_append h.known _

theorem FiledUnder.append (h : FiledUnder handles set) : FiledUnder (handles ++ more) set where
  known u hu := Nat.lt_of_lt_of_le (h.known u hu) (by simp)
  nodup := h.nodup
  listed k := by
    rw [h.listed]
    refine exists_congr fun u => and_congr_right fun hu => ?_
    rw [List.getElem?_append_left (h.known u hu)]

theorem ownerOf_some {uses : List (UsageType × Nat)} {k x : Nat} (h : ownerOf handles uses k = some x) :
    handles[x]? = some k ∧ ∃ u ∈ uses, u.2 = x := by
  refine ⟨by simpa using List.find?_some h, ?_⟩
  obtain ⟨u, hu, rfl⟩ := List.mem_map.mp (List.mem_of_find?_eq_some h)
  exact ⟨u, hu, rfl⟩

/-- Every handle in the set has an owner. -/
theorem FiledUnder.exists_owner (h : FiledUnder handles set) {k : Nat} (hk : k ∈ set.2.map (·.1)) :
    ∃ x, ownerOf handles set.1 k = some x := by
  obtain ⟨u, hu, hhandle⟩ := (h.listed k).mp hk
  rw [← Option.isSome_iff_exists, ownerOf, List.find?_isSome]
  exact ⟨u.2, List.mem_map.mpr ⟨u, hu, rfl⟩, by simpa using hhandle⟩

end Filed

/-! ## The same holders -/

/-- Batches and submission contexts hold on to what they did, under the same handles. -/
structure SameHolders (m m' : Machine κ) : Prop where
  handles : ∃ new, m'.allocator.handles = m.allocator.handles ++ new
  batches : m'.batches.map Batch.set = m.batches.map Batch.set
  submitters : m'.submitters.map Submitter.post = m.submitters.map Submitter.post

namespace SameHolders

variable {m m₁ m' : Machine κ}

theorem of_handles (hh : m'.allocator.handles = m.allocator.handles) (hb : m'.batches = m.batches)
    (hs : m'.submitters = m.submitters) : SameHolders m m' :=
  ⟨⟨[], by rw [hh, List.append_nil]⟩, by rw [hb], by rw [hs]⟩

theorem trans (h : SameHolders m m₁) (h' : SameHolders m₁ m') : SameHolders m m' := by
  obtain ⟨new, hnew⟩ := h.handles
  obtain ⟨new', hnew'⟩ := h'.handles
  exact ⟨⟨new ++ new', by rw [hnew', hnew, List.append_assoc]⟩, h'.batches.trans h.batches,
    h'.submitters.trans h.submitters⟩

instance : Journey (SameHolders (κ := κ)) where
  refl _ := of_handles rfl rfl rfl
  trans := trans

instance : Inward (SameHolders (κ := κ)) where
  of_eq _ ha hs hb := of_handles (by rw [ha]) hb hs

theorem mem_sets (h : SameHolders m m') {b' : Batch} (hb' : b' ∈ m'.batches) : ∃ b ∈ m.batches, b.set = b'.set := by
  have hmem : b'.set ∈ m.batches.map Batch.set := h.batches ▸ List.mem_map_of_mem hb'
  exact List.mem_map.mp hmem

theorem filed (h : SameHolders m m') (hm : m.Filed) : m'.Filed := by
  obtain ⟨new, hnew⟩ := h.handles
  intro b' hb'
  obtain ⟨b, hb, hset⟩ := h.mem_sets hb'
  rw [hnew, ← hset]
  exact (hm b hb).append

theorem charges (h : SameHolders m m') (hm : m.Filed) : m'.charges = m.charges := by
  obtain ⟨new, hnew⟩ := h.handles
  rw [Machine.charges, h.batches, h.submitters, hnew, Machine.charges]
  congr 1
  refine List.flatMap_congr fun set hset => ?_
  obtain ⟨b, hb, rfl⟩ := List.mem_map.mp hset
  exact (hm b hb).chargesOf_append

end SameHolders

/-! ## Counting charges -/

/-- What is counted along a list, when one place of it changes. -/
theorem count_flatMap_modify {α : Type} {f : α → α} {g : α → List Nat} {l : List α} {i : Nat} {a : α}
    (h : l[i]? = some a) (x : Nat) :
    ((l.modify i f).flatMap g).count x + (g a).count x = (l.flatMap g).count x + (g (f a)).count x := by
  induction l generalizing i with
  | nil => cases h
  | cons b l ih =>
    cases i with
    | zero =>
      obtain rfl : b = a := Option.some.inj h
      simp only [List.modify_zero_cons, List.flatMap_cons, List.count_append]
      omega
    | succ i =>
      have := ih (i := i) h
      simp only [List.modify_succ_cons, List.flatMap_cons, List.count_append]
      omega

section Charges

variable {m : Machine κ} {id : Nat}

/-- One batch holds on to something else. -/
theorem Machine.count_charges_of_batch {b : Batch} {f : Batch → Batch} (hb : m.batches[id]? = some b) (x : Nat) :
    ({ m with batches := m.batches.modify id f } : Machine κ).charges.count x +
        (chargesOf m.allocator.handles b.set).count x =
      m.charges.count x + (chargesOf m.allocator.handles (f b).set).count x := by
  have hone := count_flatMap_modify (f := f) (g := chargesOf m.allocator.handles ∘ Batch.set) hb x
  rw [charges, charges, List.count_append, List.count_append, List.flatMap_map (f := Batch.set),
    List.flatMap_map (f := Batch.set)]
  simp only [Function.comp_def] at hone
  dsimp only
  omega

/-- One submission context holds on to something else. -/
theorem Machine.count_charges_of_submitter {s : Submitter} {f : Submitter → Submitter}
    (hs : m.submitters[id]? = some s) (x : Nat) :
    ({ m with submitters := m.submitters.modify id f } : Machine κ).charges.count x + (postedOf s.post).count x =
      m.charges.count x + (postedOf (f s).post).count x := by
  have hone := count_flatMap_modify (f := f) (g := postedOf ∘ Submitter.post) hs x
  rw [charges, charges, List.count_append, List.count_append, List.flatMap_map (f := Submitter.post),
    List.flatMap_map (f := Submitter.post)]
  simp only [Function.comp_def] at hone
  dsimp only
  omega

end Charges

/-! ## Using a buffer -/

theorem Batch.keys_addAccess (k : Nat) (access : UInt32) (set : List (Nat × UInt32)) :
    (addAccess k access set).map (·.1) =
      if k ∈ set.map (·.1) then set.map (·.1) else set.map (·.1) ++ [k] := by
  induction set with
  | nil => rfl
  | cons e rest ih =>
    obtain ⟨h, a⟩ := e
    unfold addAccess
    by_cases hk : h = k
    · simp [hk]
    · rw [if_neg hk, List.map_cons, ih]
      simp only [List.map_cons, List.mem_cons, Ne.symm hk, false_or]
      split <;> rfl

section Use

variable {handles : List Nat} {uses : List (UsageType × Nat)} {set : List (Nat × UInt32)} {t : UsageType} {x k : Nat}

theorem ownerOf_append_uses {k' y : Nat} (h : ownerOf handles uses k' = some y) :
    ownerOf handles (uses ++ [(t, x)]) k' = some y := by
  unfold ownerOf at h ⊢
  rw [List.map_append, List.find?_append, h]
  rfl

/-- The owner of a new handle is the buffer that brings it. -/
theorem FiledUnder.ownerOf_new (h : FiledUnder handles (uses, set)) (hx : handles[x]? = some k)
    (hk : k ∉ set.map (·.1)) : ownerOf handles (uses ++ [(t, x)]) k = some x := by
  have hnone : (uses.map (·.2)).find? (fun y => handles[y]? == some k) = none := by
    rw [List.find?_eq_none]
    intro y hy
    obtain ⟨u, hu, rfl⟩ := List.mem_map.mp hy
    simpa using fun hhandle => hk ((h.listed k).mpr ⟨u, hu, hhandle⟩)
  unfold ownerOf
  rw [List.map_append, List.find?_append, hnone]
  simp [hx]

theorem FiledUnder.use (h : FiledUnder handles (uses, set)) (hx : handles[x]? = some k) (access : UInt32) :
    FiledUnder handles (uses ++ [(t, x)], Batch.addAccess k access set) where
  known := by
    refine List.forall_mem_append.mpr ⟨h.known, List.forall_mem_singleton.mpr ?_⟩
    exact (List.getElem?_eq_some_iff.mp hx).1
  nodup := by
    rw [Batch.keys_addAccess]
    split
    · exact h.nodup
    · rename_i hk
      exact List.nodup_append_comm.mp (List.nodup_cons.mpr ⟨hk, h.nodup⟩)
  listed k' := by
    have hold : k' ∈ set.map (·.1) ↔ ∃ u ∈ uses, handles[u.2]? = some k' := h.listed k'
    have hboth : (∃ u ∈ uses ++ [(t, x)], handles[u.2]? = some k') ↔ k' ∈ set.map (·.1) ∨ k = k' := by
      simp only [List.mem_append, List.mem_singleton, or_and_right, exists_or, exists_eq_left, hx, hold,
        Option.some.injEq]
    rw [Batch.keys_addAccess, hboth]
    split
    · rename_i hk
      exact ⟨.inl, fun hor => hor.elim id fun heq => heq ▸ hk⟩
    · simp [eq_comm]

/-- A handle that is new to the set brings a reference to its buffer, and another one none. -/
theorem FiledUnder.chargesOf_use (h : FiledUnder handles (uses, set)) (hx : handles[x]? = some k) (access : UInt32) :
    chargesOf handles (uses ++ [(t, x)], Batch.addAccess k access set) =
      chargesOf handles (uses, set) ++ if k ∈ set.map (·.1) then [] else [x] := by
  have hold : (set.map (·.1)).filterMap (ownerOf handles (uses ++ [(t, x)])) = chargesOf handles (uses, set) := by
    refine List.filterMap_congr fun k' hk' => ?_
    obtain ⟨y, hy⟩ := h.exists_owner hk'
    rw [hy, ownerOf_append_uses hy]
  rw [chargesOf, Batch.keys_addAccess]
  split
  · rw [hold, List.append_nil]
  · rename_i hk
    rw [List.filterMap_append, hold]
    simp [h.ownerOf_new hx hk]

end Use

end Mali
