import Mali.Proofs.ContextObjects
import Mali.Proofs.Dues

/-!
# Accounting for every reference

Every reference to a buffer is held directly by a user, or by a batch, or by a submission context.  While an operation
is under way a reference may have been taken for a holder that does not have it yet, or be given back by one that still
has it, so what an operation does to the references that are held is told apart from what it does to their holders.

* `Machine.Accountable`: the count of a buffer is what users, batches and submission contexts hold of it.
* `Shifts`: references come and go while every holder stays as it is.
* `Honors`: an operation leaves every reference accounted for.
* `honors_startBatch`, `honors_use`, `honors_close`: what a batch does.
* `close_accountable`: a batch that is closed gives back what it held.
-/

namespace Mali

open Op

variable {κ : Type}

/-! ## Holders that change -/

section Holders

variable {m m' : Machine κ} {id : Nat}

theorem getBatch_ok {b : Batch} (h : (Batch.get id).exec m = (.ok b, m')) : m = m' ∧ m.batches[id]? = some b := by
  obtain ⟨_, hb, h⟩ := bind_getBatch_ok (f := pure) (by rw [bind_pure]; exact h)
  cases h
  exact ⟨rfl, hb⟩

theorem getSubmitter_ok {s : Submitter} (h : (Submitter.get id).exec m = (.ok s, m')) :
    m = m' ∧ m.submitters[id]? = some s := by
  obtain ⟨_, hs, h⟩ := bind_getSubmitter_ok (f := pure) (by rw [bind_pure]; exact h)
  cases h
  exact ⟨rfl, hs⟩

theorem SameHolders.batch {b : Batch} (h : SameHolders m m') (hb : m.batches[id]? = some b) :
    ∃ b', m'.batches[id]? = some b' ∧ b'.set = b.set := by
  have hset := congrArg (·[id]?) h.batches
  simp only [List.getElem?_map, hb, Option.map_some] at hset
  exact Option.map_eq_some_iff.mp hset

theorem SameHolders.submitter {s : Submitter} (h : SameHolders m m') (hs : m.submitters[id]? = some s) :
    ∃ s', m'.submitters[id]? = some s' ∧ s'.post = s.post := by
  have hpost := congrArg (·[id]?) h.submitters
  simp only [List.getElem?_map, hs, Option.map_some] at hpost
  exact Option.map_eq_some_iff.mp hpost

/-- What a submission context holds on to is charged. -/
theorem Machine.mem_charges_of_submitter {s : Submitter} {x : Nat} (hs : m.submitters[id]? = some s)
    (hx : x ∈ postedOf s.post) : x ∈ m.charges :=
  List.mem_append_right _ (List.mem_flatMap.mpr ⟨s.post, List.mem_map_of_mem (List.mem_of_getElem? hs), hx⟩)

theorem Machine.Filed.modify {b : Batch} {f : Batch → Batch} (h : m.Filed) (hb : m.batches[id]? = some b)
    (hnew : FiledUnder m.allocator.handles (f b).set) :
    ({ m with batches := m.batches.modify id f } : Machine κ).Filed := by
  intro c hc
  obtain ⟨j, hj⟩ := List.mem_iff_getElem?.mp hc
  have hj : (m.batches.modify id f)[j]? = some c := hj
  rw [getElem?_modify_of_some hb] at hj
  split at hj
  · cases hj
    exact hnew
  · exact h c (List.mem_of_getElem? hj)

/-- The accounts are about the device and the allocator only. -/
theorem Machine.Square.of_inside {owed : List Nat} (h : m.Square owed) (hd : m'.device = m.device)
    (ha : m'.allocator = m.allocator) : m'.Square owed := by
  have hprogress : m'.progress = m.progress := congrArg Device.progress hd
  have hstorage : m'.storage = m.storage := congrArg Allocator.storage ha
  have howns : m'.Owns = m.Owns := by
    unfold Machine.Owns
    rw [hd]
  have hwaiting : m'.waiting [] = m.waiting [] := funext fun x => by rw [Machine.waiting, hprogress, Machine.waiting]
  refine ⟨⟨⟨?_, ?_⟩, ?_, ?_, ?_⟩, ?_, ?_⟩
  · refine h.poised.device.imp (fun hs => ?_) fun hm => hm.of_progress hprogress
    rw [show (⟨m', [], none⟩ : Config κ).progress = m.progress from hprogress]
    exact hs
  · show m'.storage.Books (m'.waiting []) m'.Owns none
    rw [hstorage, hwaiting, howns]
    exact h.poised.books
  · rw [show (⟨m', [], none⟩ : Config κ).progress = m.progress from hprogress]
    exact h.poised.streams
  · intro x
    rw [show (⟨m', [], none⟩ : Config κ).waiting x = m.waiting [] x from congrFun hwaiting x]
    exact h.poised.waiting x
  · exact Lists.of_storage hstorage h.poised.listed
  · rw [hwaiting]
    exact h.room
  · intro x
    rw [Machine.refs_congr (congrArg Storage.accounts hstorage) x]
    exact h.refs x

end Holders

/-! ## Accounts -/

/-- Every reference is accounted for: the count of a buffer is what users hold of it directly, and what batches and
submission contexts hold of it, a batch by the handles in its set. -/
structure Machine.Accountable (m : Machine κ) (held : List Nat) : Prop where
  square : m.Square (held ++ m.charges)
  filed : m.Filed

namespace Machine.Accountable

variable {m : Machine κ} {owed held : List Nat} {id : Nat}

/-- A batch got or gave up what makes the difference. -/
theorem of_batch {b : Batch} {f : Batch → Batch} (h : m.Square owed) (hfiled : m.Filed)
    (hb : m.batches[id]? = some b) (hnew : FiledUnder m.allocator.handles (f b).set)
    (hcount : ∀ x, owed.count x + (chargesOf m.allocator.handles b.set).count x =
      held.count x + m.charges.count x + (chargesOf m.allocator.handles (f b).set).count x) :
    ({ m with batches := m.batches.modify id f } : Machine κ).Accountable held := by
  have hsame : ({ m with batches := m.batches.modify id f } : Machine κ).Square owed := h.of_inside rfl rfl
  refine ⟨hsame.congr fun x => ?_, hfiled.modify hb hnew⟩
  have hone := m.count_charges_of_batch (f := f) hb x
  have hall := hcount x
  rw [List.count_append]
  omega

/-- A submission context did. -/
theorem of_submitter {s : Submitter} {f : Submitter → Submitter} (h : m.Square owed) (hfiled : m.Filed)
    (hs : m.submitters[id]? = some s)
    (hcount : ∀ x, owed.count x + (postedOf s.post).count x =
      held.count x + m.charges.count x + (postedOf (f s).post).count x) :
    ({ m with submitters := m.submitters.modify id f } : Machine κ).Accountable held := by
  have hsame : ({ m with submitters := m.submitters.modify id f } : Machine κ).Square owed := h.of_inside rfl rfl
  refine ⟨hsame.congr fun x => ?_, hfiled⟩
  have hone := m.count_charges_of_submitter (f := f) hs x
  have hall := hcount x
  rw [List.count_append]
  omega

end Machine.Accountable

/-! ## References that come and go -/

/-- An operation changes the references that are held, and leaves every holder as it is. -/
structure Shifts (owed owed' : List Nat) (m m' : Machine κ) : Prop where
  reaches : Reaches m m'
  same : SameHolders m m'
  square : m'.Fits → m.Square owed → m'.Square owed'

namespace Shifts

variable {m m₁ m' : Machine κ} {owed owed₁ owed' held held' : List Nat}

theorem trans (h : Shifts owed owed₁ m m₁) (h' : Shifts owed₁ owed' m₁ m') : Shifts owed owed' m m' where
  reaches := h.reaches.trans h'.reaches
  same := h.same.trans h'.same
  square hfits hm := h'.square hfits (h.square (h'.reaches.fits hfits) hm)

theorem accountable (h : Shifts (held ++ m.charges) (held' ++ m.charges) m m') (hfits : m'.Fits)
    (hm : m.Accountable held) : m'.Accountable held' where
  square := by
    rw [h.same.charges hm.filed]
    exact h.square hfits hm.square
  filed := h.same.filed hm.filed

/-- The references are only counted. -/
theorem of_perm (hp : owed.Perm owed₁) (h : Shifts owed₁ owed' m m') : Shifts owed owed' m m' :=
  ⟨h.reaches, h.same, fun hfits hm => h.square hfits (hm.of_perm hp)⟩

theorem of_abides (h : Abides none m m') (owed : List Nat) : Shifts owed owed m m' :=
  ⟨h.reaches, h.unstirred.sameHolders, fun hfits hm => hm.of_abides h hfits⟩

variable [Kernel κ]

theorem of_reference {x : Nat} {u : Unit} (hmax : m.refs x ≠ Int32.maxValue)
    (he : (Buffer.reference x).exec m = (.ok u, m')) (owed : List Nat) : Shifts owed (x :: owed) m m' :=
  ⟨(keeps_reference x).ok he, (sameHolders_reference x).ok he, fun hfits hm => hm.reference hmax he hfits⟩

theorem of_unreference {x : Nat} {u : Unit} (he : (Buffer.unreference x).exec m = (.ok u, m')) (owed : List Nat) :
    Shifts (x :: owed) owed m m' :=
  ⟨(keeps_unreference reaches_free x).ok he, (sameHolders_unreference x).ok he, fun hfits hm =>
    (hm.unreference List.mem_cons_self he hfits).congr fun y => by rw [List.erase_cons_head]⟩

/-- A buffer that is created has its first reference. -/
theorem of_create {size : Int64} {flags : UInt32} {label : String} {r : Except Halt Nat}
    (he : (Allocator.create size flags label).exec m = (r, m')) (hr : Survives r) (owed : List Nat) :
    Shifts owed (r.toOption.toList ++ owed) m m' := by
  unfold Allocator.create at he
  rcases bind_survives he hr with ⟨f, h₁, rfl⟩ | ⟨_, m₁, h₁, he⟩
  · exact .of_abides ((keeps_requireAllocator m).survives h₁ trivial) owed
  have hm₁ : Abides none m m₁ := keeps_requireAllocator.ok h₁
  obtain ⟨_, m₂, h₂, he⟩ := (faultless_debug _ _).bind_survives he hr
  have hm₂ : Abides none m m₂ := hm₁.next ((keeps_debug _ _).ok h₂)
  refine (of_abides hm₂ owed).trans ?_
  split at he
  · cases he
    exact .of_abides (Journey.refl _) owed
  · rename_i hvalid
    have hflags := Allocator.not_shared_of_refusal? hvalid
    rcases bind_survives he hr with ⟨f, h₃, rfl⟩ | ⟨found, m₃, h₃, he⟩
    · exact .of_abides (proceeding_abides.hands_obtain hflags _ _ h₃ trivial) owed
    have hfound := proceeding_abides.hands_obtain hflags _ _ h₃ trivial
    cases found with
    | ok x =>
      obtain ⟨_, m₄, h₄, he⟩ := (faultless_handOut x).bind_survives he hr
      cases he
      have hfound : Abides (some x) m₂ m₃ := hfound
      exact ⟨hfound.reaches.trans ((keeps_handOut x).ok h₄),
        hfound.unstirred.sameHolders.trans ((sameHolders_handOut x).ok h₄),
        fun hfits hm => hm.handOut hfound h₄ hfits⟩
    | error f =>
      obtain ⟨_, m₄, h₄, he⟩ := (faultless_error _ _).bind_survives he hr
      cases he
      have hfound : Abides none m₂ m₃ := hfound
      exact .of_abides (hfound.next ((keeps_error _ _).ok h₄)) owed

theorem of_import (hdup : ∀ (k : κ) (fd d : Int), (Kernel.call k (.dup fd)).1.result = .ok d → 0 ≤ d) {fd : Int}
    {r : Except Halt Nat} (hspare : m.Spacious) (he : (Allocator.importBuffer fd).exec m = (r, m'))
    (hr : Survives r) (owed : List Nat) : Shifts owed (r.toOption.toList ++ owed) m m' :=
  ⟨(operating_reaches.importBuffer fd m).survives he hr, (sameHolders_importBuffer fd m).survives he hr,
    fun hfits hm => hm.importBuffer hdup hspare he hr hfits⟩

end Shifts

/-! ## Operations that leave every reference accounted for -/

/-- An operation leaves every reference accounted for, where users then hold others directly than before. -/
structure Honors (held held' : List Nat) (m m' : Machine κ) : Prop where
  reaches : Reaches m m'
  accountable : m'.Fits → m.Accountable held → m'.Accountable held'

namespace Honors

variable {m m₁ m' : Machine κ} {held held₁ held' : List Nat}

theorem next (h : Honors held held₁ m m₁) (h' : Honors held₁ held' m₁ m') : Honors held held' m m' where
  reaches := h.reaches.trans h'.reaches
  accountable hfits hm := h'.accountable hfits (h.accountable (h'.reaches.fits hfits) hm)

theorem of_shifts (h : ∀ owed, Shifts (held ++ owed) (held' ++ owed) m m') : Honors held held' m m' :=
  ⟨(h []).reaches, fun hfits hm => (h m.charges).accountable hfits hm⟩

/-- Holders change in what they do not hold. -/
theorem of_same (hd : m'.device = m.device) (ha : m'.allocator = m.allocator)
    (hb : m'.batches.map Batch.set = m.batches.map Batch.set)
    (hs : m'.submitters.map Submitter.post = m.submitters.map Submitter.post) : Honors held held m m' where
  reaches := OfDevice.of_device hd
  accountable _ hm := by
    have hsame : SameHolders m m' := ⟨⟨[], by rw [ha, List.append_nil]⟩, hb, hs⟩
    refine ⟨?_, hsame.filed hm.filed⟩
    rw [hsame.charges hm.filed]
    exact hm.square.of_inside hd ha

instance : Inward (Honors (κ := κ) held held) where
  refl m := of_same rfl rfl rfl rfl
  trans := next
  of_eq hd ha hs hb := of_same hd ha (by rw [hb]) (by rw [hs])

theorem of_abides (h : Abides none m m') : Honors held held m m' := of_shifts fun _ => .of_abides h _

end Honors

theorem honors_editBatch {held : List Nat} (id : Nat) {f : Batch → Batch} (hf : ∀ b, (f b).set = b.set) :
    Keeps (Honors (κ := κ) held held) (Batch.modify id f) :=
  fun m _ => .of_same rfl rfl (map_modify_eq Batch.set hf m.batches id) rfl

theorem honors_editSubmitter {held : List Nat} (id : Nat) {f : Submitter → Submitter} (hf : ∀ s, (f s).post = s.post) :
    Keeps (Honors (κ := κ) held held) (Submitter.modify id f) :=
  fun m _ => .of_same rfl rfl rfl (map_modify_eq Submitter.post hf m.submitters id)

section Kernel

variable [Kernel κ] {m m' : Machine κ} {held : List Nat}

omit [Kernel κ] in
theorem honors_of_abides {α : Type} {x : Op κ α} (h : Keeps (Abides none) x) : Keeps (Honors held held) x :=
  h.mono fun _ _ => .of_abides

/-! ## Batches -/

omit [Kernel κ] in
theorem honors_startBatch (submitter : Nat) : Keeps (Honors (κ := κ) held held) (Batch.start submitter) := by
  refine keeps_bind keeps_requireAllocator fun _ => keeps_bind keeps_allocator fun a => keeps_bind keeps_get fun _ =>
    keeps_bind (fun m _ => ⟨OfDevice.of_device rfl, fun _ hm => ?_⟩) fun _ => keeps_pure _
  have hempty : FiledUnder m.allocator.handles (Batch.set { submitter, needsSync := a.options.sync }) :=
    ⟨List.forall_mem_nil _, List.nodup_nil, fun k => by simp [Batch.set]⟩
  have hsame : ({ m with batches := m.batches ++ [{ submitter, needsSync := a.options.sync }] } : Machine κ).Square
      (held ++ m.charges) := hm.square.of_inside rfl rfl
  refine ⟨hsame.congr fun x => ?_, List.forall_mem_append.mpr ⟨hm.filed, List.forall_mem_singleton.mpr hempty⟩⟩
  simp [Machine.charges, Batch.set, chargesOf]

omit [Kernel κ] in
theorem Batch.contains_iff (b : Batch) (k : Nat) : b.contains k = true ↔ k ∈ b.set.2.map (·.1) := by
  rw [contains, List.lookup_isSome_iff, set, List.mem_map]
  exact exists_congr fun e => and_congr_right fun _ => beq_iff_eq.trans eq_comm

omit [Kernel κ] in
/-- A batch files a buffer that it uses, once a reference was taken for it if its handle is new. -/
theorem Machine.Square.file {owed : List Nat} {id x k : Nat} {t : UsageType} {access : UInt32} {c : Batch}
    {f : Batch → Batch} (h : m.Square owed) (hfiled : m.Filed) (hc : m.batches[id]? = some c)
    (hx : m.allocator.handles[x]? = some k)
    (hf : (f c).set = (c.uses ++ [(t, x)], Batch.addAccess k access c.buffers))
    (hcount : ∀ y, owed.count y =
      held.count y + m.charges.count y + (if k ∈ c.set.2.map (·.1) then [] else [x]).count y) :
    ({ m with batches := m.batches.modify id f } : Machine κ).Accountable held := by
  have hold : FiledUnder m.allocator.handles (c.uses, c.buffers) := hfiled c (List.mem_of_getElem? hc)
  refine .of_batch h hfiled hc (hf ▸ hold.use hx access) fun y => ?_
  have hall := hcount y
  rw [hf, hold.chargesOf_use hx, List.count_append]
  rw [Batch.set] at hall ⊢
  by_cases hk : k ∈ c.buffers.map (·.1)
  · rw [if_pos hk] at hall ⊢
    omega
  · rw [if_neg hk] at hall ⊢
    omega

omit [Kernel κ] in
theorem faultless_use (id x : Nat) (t : UsageType) : Faultless (Batch.use id x t : Op κ Unit) := by
  unfold Batch.use
  refine faultless_bind (faultless_getBatch id) fun c => faultless_bind (faultless_buffer x) fun b => ?_
  split
  · exact faultless_bind (faultless_reference x) fun _ => faultless_modifyBatch id _
  · exact faultless_modifyBatch id _

theorem honors_use (id x : Nat) (t : UsageType) (hspare : m.Spacious) :
    KeepsAt (Honors held held) (Batch.use id x t) m := by
  refine keepsAt_of_exec fun {r m'} he hr => ⟨(operating_reaches.toLending.use id x t m).survives he hr, ?_⟩
  intro hfits hm
  obtain ⟨_, rfl⟩ := (faultless_use id x t).value he hr
  unfold Batch.use at he
  obtain ⟨c, hc, he⟩ := bind_getBatch_ok he
  obtain ⟨b, hb, he⟩ := bind_buffer_ok he
  have hx : m.allocator.handles[x]? = some b.handle := by rw [Allocator.handles, List.getElem?_map, hb, Option.map_some]
  split at he
  · rename_i hnew
    obtain ⟨_, m₂, h₂, he⟩ := bind_ok he
    cases he
    have hshift := Shifts.of_reference (hspare.refs x) h₂ (held ++ m.charges)
    obtain ⟨c', hc', hset⟩ := hshift.same.batch hc
    obtain ⟨new, hnewHandles⟩ := hshift.same.handles
    have hx' : m₂.allocator.handles[x]? = some b.handle := by
      rw [hnewHandles, List.getElem?_append_left (List.getElem?_eq_some_iff.mp hx).1, hx]
    refine (hshift.square hfits hm.square).file (hshift.same.filed hm.filed) hc' hx' rfl fun y => ?_
    have hnotin : b.handle ∉ c'.set.2.map (·.1) := by
      rw [hset, ← Batch.contains_iff]
      simpa using hnew
    rw [if_neg hnotin, hshift.same.charges hm.filed, List.count_cons, List.count_append, List.count_singleton]
  · rename_i hold
    cases he
    have hin : b.handle ∈ c.set.2.map (·.1) := by
      rw [← Batch.contains_iff]
      simpa using hold
    refine hm.square.file hm.filed hc hx rfl fun y => ?_
    rw [if_pos hin, List.count_append, List.count_nil, Nat.add_zero]

/-! ### Closing -/

/-- The machine with a batch that holds nothing. -/
def Machine.emptyBatch (m : Machine κ) (id : Nat) : Machine κ :=
  { m with batches := m.batches.modify id fun b => { b with buffers := [], uses := [] } }

theorem faultless_dropReferences (es : List (Nat × UInt32)) :
    Faultless (Batch.dropReferences es : Op κ Unit) := by
  induction es with
  | nil => exact faultless_pure ()
  | cons e es ih =>
    refine faultless_bind faultless_allocator fun a => ?_
    dsimp only
    split
    · exact faultless_bind (faultless_unreference _) fun _ => ih
    · exact ih

/-- Each handle stands for the buffer that a reference was taken to, since that is not freed.  By induction on the
handles. -/
theorem dropReferences_shifts {handles owed : List Nat} {uses : List (UsageType × Nat)} {es : List (Nat × UInt32)}
    {m m' : Machine κ} (howner : ∀ k ∈ es.map (·.1), ∃ x, ownerOf handles uses k = some x)
    (hhandles : ∃ new, m.allocator.handles = handles ++ new)
    (he : (Batch.dropReferences es).exec m = (.ok (), m')) (hfits : m'.Fits)
    (hm : m.Square (chargesOf handles (uses, es) ++ owed)) : SameHolders m m' ∧ m'.Square owed := by
  induction es generalizing m with
  | nil =>
    cases he
    exact ⟨Journey.refl _, hm⟩
  | cons e es ih =>
    obtain ⟨k, access⟩ := e
    obtain ⟨⟨x, hx⟩, hrest⟩ := List.forall_mem_cons.mp howner
    have hcharges : chargesOf handles (uses, (k, access) :: es) = x :: chargesOf handles (uses, es) :=
      List.filterMap_cons_some hx
    rw [hcharges] at hm
    obtain ⟨b, hb, -, hlookup⟩ := hm.live List.mem_cons_self
    obtain ⟨new, hnew⟩ := hhandles
    have hhandle : b.handle = k := by
      have hk := (ownerOf_some hx).1
      have hget : m.allocator.handles[x]? = some b.handle := by
        rw [Allocator.handles, List.getElem?_map, hb, Option.map_some]
      rw [hnew, List.getElem?_append_left (List.getElem?_eq_some_iff.mp hk).1, hk] at hget
      exact (Option.some.inj hget).symm
    unfold Batch.dropReferences at he
    rw [exec_bind_of_ok (exec_allocator m), ← hhandle] at he
    simp only [hlookup] at he
    obtain ⟨_, m₁, h₁, he⟩ := bind_ok he
    have hshift := Shifts.of_unreference h₁ (chargesOf handles (uses, es) ++ owed)
    have hreach : Reaches m₁ m' := (lending_reaches.dropReferences es).ok he
    obtain ⟨more, hmore⟩ := hshift.same.handles
    obtain ⟨hsame, hsquare⟩ := ih hrest ⟨new ++ more, by rw [hmore, hnew, List.append_assoc]⟩ he
      (hshift.square (hreach.fits hfits) hm)
    exact ⟨hshift.same.trans hsame, hsquare⟩

omit [Kernel κ] in
theorem Machine.count_charges_emptyBatch {id : Nat} {c : Batch} (hc : m.batches[id]? = some c) (x : Nat) :
    (m.emptyBatch id).charges.count x + (chargesOf m.allocator.handles c.set).count x = m.charges.count x :=
  m.count_charges_of_batch hc x

omit [Kernel κ] in
/-- Once the references of a batch are given back it may be emptied. -/
theorem Machine.Square.emptyBatch {id : Nat} {c : Batch} (h : m.Square (held ++ (m.emptyBatch id).charges))
    (hfiled : m.Filed) (hc : m.batches[id]? = some c) : (m.emptyBatch id).Accountable held := by
  refine ⟨h.of_inside rfl rfl, hfiled.modify hc ?_⟩
  exact ⟨List.forall_mem_nil _, List.nodup_nil, fun k => by simp [Batch.set]⟩

/-- A batch that is closed gives back what it held, and then holds nothing. -/
theorem close_accountable {id : Nat} {c : Batch} {r : Except Halt Unit} (hc : m.batches[id]? = some c)
    (he : (Batch.close id).exec m = (r, m')) (hr : Survives r) (hfits : m'.Fits) (hm : m.Accountable held) :
    m'.Accountable held ∧ (∃ c', m'.batches[id]? = some c' ∧ c'.set = ([], [])) ∧
      ∀ x, m'.charges.count x + (chargesOf m.allocator.handles c.set).count x = m.charges.count x := by
  have hfiled := hm.filed c (List.mem_of_getElem? hc)
  unfold Batch.close at he
  obtain ⟨c₀, m₀, h₀, he⟩ := (faultless_getBatch id).bind_survives he hr
  obtain ⟨rfl, hc₀⟩ := getBatch_ok h₀
  obtain rfl : c₀ = c := Option.some.inj (hc₀.symm.trans hc)
  obtain ⟨_, m₁, h₁, he⟩ := (faultless_dropReferences _).bind_survives he hr
  obtain ⟨_, m₂, h₂, he⟩ := (faultless_modifyBatch id _).bind_survives he hr
  obtain rfl : m₁.emptyBatch id = m₂ := (Prod.mk.inj h₂).2
  have hend : Abides none (m₁.emptyBatch id) m' := (proceeding_abides.ensureHandleEvents _).survives he hr
  have hready : m.Square (chargesOf m.allocator.handles c₀.set ++ (held ++ (m.emptyBatch id).charges)) :=
    hm.square.congr fun x => by
      have hone := m.count_charges_emptyBatch hc x
      rw [List.count_append, List.count_append, List.count_append]
      omega
  obtain ⟨hsame, hsquare⟩ := dropReferences_shifts (fun k hk => hfiled.exists_owner hk)
    ⟨[], (List.append_nil _).symm⟩ h₁ (hend.reaches.fits hfits) hready
  obtain ⟨c₁, hc₁, hset⟩ := hsame.batch hc
  obtain ⟨new, hnew⟩ := hsame.handles
  have hleft (x : Nat) : (m₁.emptyBatch id).charges.count x + (chargesOf m.allocator.handles c₀.set).count x =
      m.charges.count x := by
    have hone := m₁.count_charges_emptyBatch hc₁ x
    rwa [hset, hnew, hfiled.chargesOf_append, hsame.charges hm.filed] at hone
  have hclosed : (m₁.emptyBatch id).Accountable held := by
    refine Machine.Square.emptyBatch (hsquare.congr fun x => ?_) (hsame.filed hm.filed) hc₁
    have hone := m.count_charges_emptyBatch hc x
    have hone' := hleft x
    rw [List.count_append, List.count_append]
    omega
  refine ⟨(Shifts.of_abides hend _).accountable hfits hclosed, ?_, fun x => ?_⟩
  · have hempty : (m₁.emptyBatch id).batches[id]? = some { c₁ with buffers := [], uses := [] } := by
      rw [Machine.emptyBatch, getElem?_modify_of_some hc₁, if_pos rfl]
    exact hend.unstirred.sameHolders.batch hempty
  · rw [hend.unstirred.sameHolders.charges hclosed.filed]
    exact hleft x

theorem honors_close (id : Nat) : Keeps (Honors (κ := κ) held held) (Batch.close id) := by
  refine fun m => keepsAt_of_exec fun {r m'} he hr => ⟨(operating_reaches.toLending.close id m).survives he hr, ?_⟩
  intro hfits hm
  obtain ⟨c, m₁, h₁, -⟩ := (faultless_getBatch id).bind_survives he hr
  exact (close_accountable (getBatch_ok h₁).2 he hr hfits hm).1

end Kernel

end Mali
