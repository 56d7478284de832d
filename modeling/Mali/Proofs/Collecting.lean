import Mali.Proofs.Progress
import Mali.Proofs.Usages

/-!
# Collecting dependencies

Collecting the dependencies of a batch records its uses on the buffers, and no use that was there
before is lost by that.  Of what a buffer was used for before, everything that the new use has to wait
for is in what is gathered; it is cleaned afterwards.

* `Machine.job?`: the slot and the number of the last work of a submission context.
* `Records`: uses are recorded on buffers.
* `Collects`: uses are recorded, and the earlier ones gathered, by induction on the usage types.
* `gather_ok`, `collect_ok`: what gathering and collecting do.
-/

namespace Mali

open Op

variable {κ : Type}

/-- The vertex or the fragment queue of a submission context. -/
def Submitter.queue? (s : Submitter) (fragment : Bool) : Option Queue :=
  if fragment then s.fragment else s.vertex

/-- The slot and the number of the last work on a queue of a submission context. -/
def Machine.job? (m : Machine κ) (id : Nat) (fragment : Bool) : Option (Nat × UInt64) := do
  let s ← m.submitters[id]?
  let q ← s.queue? fragment
  let t ← m.device.streams[q.stream]?
  return (t.slot, q.seqnum)

/-- The dependencies of the vertex or the fragment work of a batch. -/
def Batch.deps (b : Batch) (fragment : Bool) : List Usage :=
  if fragment then b.fragmentDeps else b.vertexDeps

/-- The same batch with other dependencies for its vertex or its fragment work. -/
def Batch.withDeps (b : Batch) (fragment : Bool) (deps : List Usage) : Batch :=
  if fragment then { b with fragmentDeps := deps } else { b with vertexDeps := deps }

@[simp] theorem Batch.withDeps_uses (b : Batch) (f : Bool) (deps : List Usage) :
    (b.withDeps f deps).uses = b.uses := by cases f <;> rfl

@[simp] theorem Batch.withDeps_submitted (b : Batch) (f : Bool) (deps : List Usage) :
    (b.withDeps f deps).submitted = b.submitted := by cases f <;> rfl

theorem Batch.deps_withDeps (b : Batch) (f g : Bool) (deps : List Usage) :
    (b.withDeps f deps).deps g = if g = f then deps else b.deps g := by
  cases f <;> cases g <;> rfl

/-! ## Recording -/

/-- Uses are recorded on buffers, all on queues below a bound, and nothing else that matters changes.
No use is lost. -/
structure Records (bound : Nat) (m m' : Machine κ) : Prop where
  device : m'.device = m.device
  submitters : m'.submitters = m.submitters
  storage : m'.storage = { m.storage with accounts := m'.storage.accounts }
  accounts : ∀ x, m'.storage.accounts[x]? =
    (m.storage.accounts[x]?).map fun a : Account => { a with usage := m'.usage x }
  grows : ∀ x, Usage.Grows (m.usage x) (m'.usage x)
  below : (∀ x, Usage.Below bound (m.usage x)) → ∀ x, Usage.Below bound (m'.usage x)

namespace Records

variable {bound : Nat} {m m₁ m₂ : Machine κ}

theorem of_eq (hd : m₁.device = m.device) (hs : m₁.submitters = m.submitters)
    (ha : m₁.allocator = m.allocator) : Records bound m m₁ := by
  have hstorage : m₁.storage = m.storage := by rw [Machine.storage, ha, Machine.storage]
  have husage (x : Nat) : m₁.usage x = m.usage x := by rw [Machine.usage, hstorage, Machine.usage]
  refine ⟨hd, hs, by rw [hstorage], fun x => ?_, fun x => ?_, fun h x => ?_⟩
  · rw [husage, hstorage, Machine.usage]
    cases m.storage.accounts[x]? <;> rfl
  · rw [husage]
    exact .refl _
  · rw [husage]
    exact h x

theorem trans (h : Records bound m m₁) (h' : Records bound m₁ m₂) : Records bound m m₂ where
  device := h'.device.trans h.device
  submitters := h'.submitters.trans h.submitters
  storage := by rw [h'.storage, h.storage]
  accounts x := by
    rw [h'.accounts, h.accounts]
    cases m.storage.accounts[x]? <;> rfl
  grows x := (h.grows x).trans (h'.grows x)
  below hb := h'.below (h.below hb)

theorem job (h : Records bound m m₁) (id : Nat) (f : Bool) : m₁.job? id f = m.job? id f := by
  rw [Machine.job?, h.submitters, h.device, Machine.job?]

theorem progress (h : Records bound m m₁) : m₁.progress = m.progress := by
  rw [Machine.progress, h.device, Machine.progress]

end Records

/-- A use is recorded on some buffers, and earlier ones are added to some dependencies. -/
structure Awaits (bound : Nat) (u : Usage) (xs : List Nat) (m m' : Machine κ)
    (deps deps' : List Usage) : Prop extends Records bound m m' where
  batches : m'.batches = m.batches
  growsDeps : Usage.Grows deps deps'
  belowDeps : (∀ x, Usage.Below bound (m.usage x)) → Usage.Below bound deps → Usage.Below bound deps'
  recorded : ∀ x ∈ xs, Usage.Covers (m'.usage x) u
  awaited : ∀ x ∈ xs, ∀ v, Usage.Covers (m.usage x) v → u.write = true ∨ v.write = true →
    Usage.Covers deps' v

theorem useBuffer_ok {bound x : Nat} {u : Usage} {m m' : Machine κ} {deps deps' : List Usage}
    (hu : u.queue.toNat < bound) (he : (Submitter.useBuffer deps x u).exec m = (.ok deps', m')) :
    Awaits bound u [x] m m' deps deps' := by
  unfold Submitter.useBuffer at he
  obtain ⟨b, hget, he⟩ := bind_buffer_ok he
  obtain ⟨_, m₁, h₁, he⟩ := bind_ok he
  cases he
  have hx := Machine.accounts_of_buffer hget
  have hedit : Edits x (fun a => { a with usage := Usage.record a.usage u }) m m' :=
    .of_modifyBuffer h₁ fun _ => rfl
  have husage : m.usage x = b.usage := Machine.usage_of_account hx
  have husage' : m'.usage x = Usage.record b.usage u := Machine.usage_of_account (hedit.account hx)
  have hother {y : Nat} (hy : y ≠ x) : m'.usage y = m.usage y := by
    rw [Machine.usage, hedit.account_of_ne hy, Machine.usage]
  have hrest : m'.device = m.device ∧ m'.submitters = m.submitters ∧ m'.batches = m.batches := by
    cases h₁
    exact ⟨rfl, rfl, rfl⟩
  refine ⟨⟨hrest.1, hrest.2.1, by rw [hedit.storage], fun y => ?_, fun y => ?_, fun h y => ?_⟩,
    hrest.2.2, Usage.grows_updateDeps _ _ _, fun h hd => Usage.below_updateDeps hd (husage ▸ h x) _,
    fun y hy => ?_, fun y hy v hv hw => ?_⟩
  · rcases eq_or_ne y x with rfl | hy
    · rw [hedit.account hx, hx, husage']
      rfl
    · rw [hedit.account_of_ne hy, hother hy, Machine.usage]
      cases m.storage.accounts[y]? <;> rfl
  · rcases eq_or_ne y x with rfl | hy
    · rw [husage, husage']
      exact Usage.grows_record _ _
    · rw [hother hy]
      exact .refl _
  · rcases eq_or_ne y x with rfl | hy
    · rw [husage']
      exact Usage.below_record (husage ▸ h y) hu
    · rw [hother hy]
      exact h y
  · rw [List.mem_singleton.mp hy, husage']
    exact Usage.covers_record _ _
  · rw [List.mem_singleton.mp hy, husage] at hv
    exact Usage.covers_updateDeps deps hv hw

/-- By induction on the buffers; what the later ones add does not undo what the earlier ones did. -/
theorem useBuffers_ok {bound : Nat} {u : Usage} (hu : u.queue.toNat < bound) :
    ∀ {xs : List Nat} {m m' : Machine κ} {deps deps' : List Usage},
      (Submitter.useBuffers deps u xs).exec m = (.ok deps', m') → Awaits bound u xs m m' deps deps'
  | [], m, m', deps, deps', he => by
    cases he
    exact ⟨.of_eq rfl rfl rfl, rfl, .refl _, fun _ h => h, fun _ h => absurd h List.not_mem_nil,
      fun _ h => absurd h List.not_mem_nil⟩
  | x :: xs, m, m', deps, deps', he => by
    obtain ⟨deps₁, m₁, h₁, he⟩ := bind_ok he
    have hx := useBuffer_ok hu h₁
    have hxs := useBuffers_ok hu he
    refine ⟨hx.toRecords.trans hxs.toRecords, hxs.batches.trans hx.batches,
      hx.growsDeps.trans hxs.growsDeps,
      fun hb hd => hxs.belowDeps (hx.below hb) (hx.belowDeps hb hd), fun y hy => ?_,
      fun y hy v hv hw => ?_⟩
    · rcases List.mem_cons.mp hy with rfl | hy
      · exact (hx.recorded y List.mem_cons_self).grow (hxs.grows y)
      · exact hxs.recorded y hy
    · rcases List.mem_cons.mp hy with rfl | hy
      · exact (hx.awaited y List.mem_cons_self v hv hw).grow hxs.growsDeps
      · exact hxs.awaited y hy v (hv.grow (hx.grows y)) hw

/-! ## Gathering -/

/-- Uses of a batch of some types are recorded, and the earlier uses gathered. -/
structure Collects (bound id batch : Nat) (ts : List UsageType) (b b' : Batch) (m m' : Machine κ) : Prop
    extends Records bound m m' where
  batches : m'.batches = m.batches.set batch b'
  uses : b'.uses = b.uses
  submitted : b'.submitted = b.submitted
  growsDeps : ∀ f, Usage.Grows (b.deps f) (b'.deps f)
  belowDeps : (∀ x, Usage.Below bound (m.usage x)) → (∀ f, Usage.Below bound (b.deps f)) →
    ∀ f, Usage.Below bound (b'.deps f)
  recorded : ∀ t ∈ ts, ∀ x, (t, x) ∈ b.uses → ∃ i n, m'.job? id t.isFragment = some (i, n) ∧
    Usage.Covers (m'.usage x) ⟨UInt32.ofNat i, t.writes, n⟩
  awaited : ∀ t ∈ ts, ∀ x, (t, x) ∈ b.uses → ∀ v, Usage.Covers (m.usage x) v →
    t.writes = true ∨ v.write = true → Usage.Covers (b'.deps t.isFragment) v

namespace Collects

variable {bound id batch : Nat} {ts us : List UsageType} {b b₁ b₂ : Batch} {m m₁ m₂ : Machine κ}

theorem refl (h : m.batches[batch]? = some b) : Collects bound id batch [] b b m m where
  toRecords := .of_eq rfl rfl rfl
  batches := by
    obtain ⟨hlt, rfl⟩ := List.getElem?_eq_some_iff.mp h
    exact (List.set_getElem_self hlt).symm
  uses := rfl
  submitted := rfl
  growsDeps _ := .refl _
  belowDeps _ h := h
  recorded _ h := absurd h List.not_mem_nil
  awaited _ h := absurd h List.not_mem_nil

theorem trans (h : Collects bound id batch ts b b₁ m m₁) (h' : Collects bound id batch us b₁ b₂ m₁ m₂) :
    Collects bound id batch (ts ++ us) b b₂ m m₂ where
  toRecords := h.toRecords.trans h'.toRecords
  batches := by rw [h'.batches, h.batches, List.set_set]
  uses := h'.uses.trans h.uses
  submitted := h'.submitted.trans h.submitted
  growsDeps f := (h.growsDeps f).trans (h'.growsDeps f)
  belowDeps hb hd := h'.belowDeps (h.below hb) (h.belowDeps hb hd)
  recorded t ht x hx := by
    rcases List.mem_append.mp ht with ht | ht
    · obtain ⟨i, n, hjob, hcovers⟩ := h.recorded t ht x hx
      exact ⟨i, n, (h'.job id _).trans hjob, hcovers.grow (h'.grows x)⟩
    · exact h'.recorded t ht x (by rwa [h.uses])
  awaited t ht x hx v hv hw := by
    rcases List.mem_append.mp ht with ht | ht
    · exact (h.awaited t ht x hx v hv hw).grow (h'.growsDeps _)
    · exact h'.awaited t ht x (by rwa [h.uses]) v (hv.grow (h.grows x)) hw

end Collects

/-- The use that a queue makes is on the slot of its stream. -/
theorem queueUsage_ok {q : Queue} {w : Bool} {u : Usage} {m m' : Machine κ}
    (he : (Submitter.queueUsage q w).exec m = (.ok u, m')) : m' = m ∧
      ∃ t : Stream, m.device.streams[q.stream]? = some t ∧ u = ⟨UInt32.ofNat t.slot, w, q.seqnum⟩ := by
  unfold Submitter.queueUsage Device.stream at he
  obtain ⟨t, m₁, h₁, he⟩ := bind_ok he
  obtain ⟨d, m₂, h₂, h₁⟩ := bind_ok h₁
  cases h₂
  cases ht : m.device.streams[q.stream]? with
  | none => simp [ht] at h₁
  | some t' =>
    rw [ht] at h₁
    cases h₁
    cases he
    exact ⟨rfl, t, rfl, rfl⟩

/-- The slots of sound streams fit the word for a queue. -/
theorem Progress.Sound.toNat_slot {p : Progress} (h : p.Sound) :
    ∀ i ∈ p.streams, (UInt32.ofNat i).toNat < p.bound := by
  intro i hi
  rw [h.streams, List.mem_range] at hi
  have hlt : i < 2 ^ 32 := by
    have := h.slots.bound_le
    unfold slotCount at this
    omega
  rwa [UInt32.toNat_ofNat_of_lt' hlt]

section

variable {bound : Nat}

/-- One usage type, on the queue that it is for. -/
theorem recordUse_ok {id batch : Nat} {t : UsageType} {b : Batch} {s : Submitter} {q : Queue}
    {u : Usage} {deps : List Usage} {m m₁ m₂ m' : Machine κ} (hb : m.batches[batch]? = some b)
    (hs : m.submitters[id]? = some s) (hq : s.queue? t.isFragment = some q)
    (hslots : ∀ i ∈ m.progress.streams, (UInt32.ofNat i).toNat < bound)
    (h₁ : (Submitter.queueUsage q t.writes).exec m = (.ok u, m₁))
    (h₂ : (Submitter.useBuffers (b.deps t.isFragment) u (b.used t)).exec m₁ = (.ok deps, m₂))
    (h₃ : (Batch.modify batch fun b => b.withDeps t.isFragment deps).exec m₂ = (.ok (), m')) :
    Collects bound id batch [t] b (b.withDeps t.isFragment deps) m m' := by
  obtain ⟨rfl, stream, hstream, rfl⟩ := queueUsage_ok h₁
  have hslot : stream.slot ∈ m₁.progress.streams :=
    List.mem_map_of_mem (List.mem_of_getElem? hstream)
  have hawaits := useBuffers_ok (hslots _ hslot) h₂
  have hrest : Records bound m₂ m' := by
    cases h₃
    exact .of_eq rfl rfl rfl
  have hbatches : m'.batches = m₁.batches.set batch (b.withDeps t.isFragment deps) := by
    have hb : m₂.batches[batch]? = some b := by rwa [hawaits.batches]
    cases h₃
    show m₂.batches.modify batch _ = _
    rw [List.modify_eq_set_getElem?, hb, hawaits.batches]
    rfl
  have hjob : m₁.job? id t.isFragment = some (stream.slot, q.seqnum) := by
    simp [Machine.job?, hs, hq, hstream]
  have husage (x : Nat) (v : Usage) (hv : Usage.Covers (m₂.usage x) v) : Usage.Covers (m'.usage x) v :=
    hv.grow (hrest.grows x)
  have hused {x : Nat} (hx : (t, x) ∈ b.uses) : x ∈ b.used t :=
    List.mem_map.mpr ⟨(t, x), List.mem_filter.mpr ⟨hx, by simp⟩, rfl⟩
  refine ⟨hawaits.toRecords.trans hrest, hbatches, b.withDeps_uses _ _, b.withDeps_submitted _ _,
    fun f => ?_, fun hm hd f => ?_, fun t' ht' x hx => ?_, fun t' ht' x hx v hv hw => ?_⟩
  · rw [Batch.deps_withDeps]
    split
    · subst_vars
      exact hawaits.growsDeps
    · exact .refl _
  · rw [Batch.deps_withDeps]
    split
    · exact hawaits.belowDeps hm (hd _)
    · exact hd f
  · obtain rfl := List.mem_singleton.mp ht'
    exact ⟨stream.slot, q.seqnum, ((hawaits.toRecords.trans hrest).job id _).trans hjob,
      husage x _ (hawaits.recorded x (hused hx))⟩
  · obtain rfl := List.mem_singleton.mp ht'
    rw [Batch.deps_withDeps, if_pos rfl]
    exact hawaits.awaited x (hused hx) v hv hw

/-- Recording the uses of the first type, on the queue that it is for, and then those of the others. -/
theorem recordUses_cons_ok {id batch : Nat} {t : UsageType} {ts : List UsageType} {b : Batch}
    {m m' : Machine κ} {u : Unit} (hb : m.batches[batch]? = some b)
    (he : (Submitter.recordUses id batch (t :: ts)).exec m = (.ok u, m')) :
    ∃ s q v deps m₁ m₂ m₃, m.submitters[id]? = some s ∧ s.queue? t.isFragment = some q ∧
      (Submitter.queueUsage q t.writes).exec m = (.ok v, m₁) ∧
      (Submitter.useBuffers (b.deps t.isFragment) v (b.used t)).exec m₁ = (.ok deps, m₂) ∧
      (Batch.modify batch fun b => b.withDeps t.isFragment deps).exec m₂ = (.ok (), m₃) ∧
      (Submitter.recordUses id batch ts).exec m₃ = (.ok u, m') := by
  unfold Submitter.recordUses at he
  obtain ⟨s, hs, he⟩ := bind_getSubmitter_ok he
  obtain ⟨b', hb', he⟩ := bind_getBatch_ok he
  rw [hb] at hb'
  cases hb'
  cases hf : t.isFragment with
  | true =>
    rw [if_pos hf] at he
    obtain ⟨q, hq, he⟩ := bind_require_ok he
    obtain ⟨v, m₁, h₁, he⟩ := bind_ok he
    obtain ⟨deps, m₂, h₂, he⟩ := bind_ok he
    obtain ⟨_, m₃, h₃, he⟩ := bind_ok he
    exact ⟨s, q, v, deps, m₁, m₂, m₃, hs, hq, h₁, h₂, h₃, he⟩
  | false =>
    rw [if_neg (by simp [hf])] at he
    obtain ⟨q, hq, he⟩ := bind_require_ok he
    obtain ⟨v, m₁, h₁, he⟩ := bind_ok he
    obtain ⟨deps, m₂, h₂, he⟩ := bind_ok he
    obtain ⟨_, m₃, h₃, he⟩ := bind_ok he
    exact ⟨s, q, v, deps, m₁, m₂, m₃, hs, hq, h₁, h₂, h₃, he⟩

theorem recordUses_ok {id batch : Nat} :
    ∀ {ts : List UsageType} {b : Batch} {m m' : Machine κ} {u : Unit},
      m.batches[batch]? = some b → (∀ i ∈ m.progress.streams, (UInt32.ofNat i).toNat < bound) →
      (Submitter.recordUses id batch ts).exec m = (.ok u, m') →
      ∃ b', Collects bound id batch ts b b' m m'
  | [], b, m, m', u, hb, _, he => by
    cases he
    exact ⟨b, .refl hb⟩
  | t :: ts, b, m, m', u, hb, hslots, he => by
    obtain ⟨s, q, v, deps, m₁, m₂, m₃, hs, hq, h₁, h₂, h₃, he⟩ := recordUses_cons_ok hb he
    have hone := recordUse_ok hb hs hq hslots h₁ h₂ h₃
    have hlt : batch < m.batches.length := (List.getElem?_eq_some_iff.mp hb).1
    obtain ⟨b', hmore⟩ := recordUses_ok (b := b.withDeps t.isFragment deps)
      (by rw [hone.batches, List.getElem?_set_self hlt]) (by rwa [hone.progress]) he
    exact ⟨b', hone.trans hmore⟩

/-- Recording the heap adds to the vertex dependencies only. -/
theorem recordHeap_ok {id batch : Nat} {b : Batch} {m m' : Machine κ} {u : Unit}
    (hb : m.batches[batch]? = some b)
    (hslots : ∀ i ∈ m.progress.streams, (UInt32.ofNat i).toNat < bound)
    (he : (Submitter.recordHeap id batch).exec m = (.ok u, m')) :
    ∃ b', Collects bound id batch [] b b' m m' := by
  unfold Submitter.recordHeap at he
  obtain ⟨s, hs, he⟩ := bind_getSubmitter_ok he
  split at he
  · cases he
    exact ⟨b, .refl hb⟩
  · rename_i heap hheap
    obtain ⟨b', hb', he⟩ := bind_getBatch_ok he
    rw [hb] at hb'
    cases hb'
    obtain ⟨q, hq, he⟩ := bind_require_ok he
    obtain ⟨v, m₁, h₁, he⟩ := bind_ok he
    obtain ⟨rfl, stream, hstream, rfl⟩ := queueUsage_ok h₁
    obtain ⟨deps, m₂, h₂, he⟩ := bind_ok he
    have hslot : stream.slot ∈ m₁.progress.streams :=
      List.mem_map_of_mem (List.mem_of_getElem? hstream)
    have hawaits := useBuffer_ok (hslots _ hslot) h₂
    have hrest : Records bound m₂ m' := by
      cases he
      exact .of_eq rfl rfl rfl
    refine ⟨b.withDeps false deps, hawaits.toRecords.trans hrest, ?_, b.withDeps_uses _ _,
      b.withDeps_submitted _ _, fun f => ?_, fun hm hd f => ?_, fun _ h => absurd h List.not_mem_nil,
      fun _ h => absurd h List.not_mem_nil⟩
    · have hb : m₂.batches[batch]? = some b := by rwa [hawaits.batches]
      cases he
      show m₂.batches.modify batch _ = _
      rw [List.modify_eq_set_getElem?, hb, hawaits.batches]
      rfl
    · rw [Batch.deps_withDeps]
      split
      · subst_vars
        exact hawaits.growsDeps
      · exact .refl _
    · rw [Batch.deps_withDeps]
      split
      · exact hawaits.belowDeps hm (hd false)
      · exact hd f

/-! ## All of it -/

/-- A batch is numbered, and its uses are recorded. -/
structure Gathers (bound id batch : Nat) (b b' : Batch) (m m' : Machine κ) : Prop where
  device : m'.device = m.device
  storage : m'.storage = { m.storage with accounts := m'.storage.accounts }
  accounts : ∀ x, m'.storage.accounts[x]? =
    (m.storage.accounts[x]?).map fun a : Account => { a with usage := m'.usage x }
  batches : m'.batches = m.batches.set batch b'
  submitted : b'.submitted = true
  grows : ∀ x, Usage.Grows (m.usage x) (m'.usage x)
  below : (∀ x, Usage.Below bound (m.usage x)) → ∀ x, Usage.Below bound (m'.usage x)
  recorded : ∀ t x, (t, x) ∈ b.uses → ∃ i n, m'.job? id t.isFragment = some (i, n) ∧
    Usage.Covers (m'.usage x) ⟨UInt32.ofNat i, t.writes, n⟩

theorem UsageType.mem_all (t : UsageType) : t ∈ UsageType.all := by
  cases t <;> simp [UsageType.all]

/-- A submission context whose queues have one more batch.  The fragment queue only has it if it has fragment work. -/
def Submitter.number (fragment : Bool) (s : Submitter) : Submitter := { s with
  vertex := s.vertex.map fun q => { q with seqnum := q.seqnum + 1 }
  fragment := if fragment then s.fragment.map fun q => { q with seqnum := q.seqnum + 1 } else s.fragment }

/-- A machine on which a batch is taken as submitted, and has its numbers. -/
def Machine.number (m : Machine κ) (id batch : Nat) (b : Batch) : Machine κ := { m with
  batches := m.batches.set batch { b with submitted := true }
  submitters := m.submitters.modify id (·.number b.hasFragment) }

theorem Machine.number_batch {m : Machine κ} {batch : Nat} {b : Batch} (id : Nat) (hb : m.batches[batch]? = some b) :
    (m.number id batch b).batches[batch]? = some { b with submitted := true } :=
  List.getElem?_set_self (List.getElem?_eq_some_iff.mp hb).1

/-- A batch gets its numbers, then its uses are recorded, and then that of the tiler heap. -/
theorem gather_recorded {id batch : Nat} {b : Batch} {m m' : Machine κ} {u : Unit}
    (hb : m.batches[batch]? = some b) (he : (Submitter.gather id batch).exec m = (.ok u, m')) :
    ∃ m₁, (Submitter.recordUses id batch UsageType.all).exec (m.number id batch b) = (.ok (), m₁) ∧
      (Submitter.recordHeap id batch).exec m₁ = (.ok (), m') := by
  unfold Submitter.gather at he
  obtain ⟨_, m₁, h₁, he⟩ := bind_ok he
  obtain ⟨_, m₂, h₂, he⟩ := bind_ok he
  obtain ⟨_, m₃, h₃, he⟩ := bind_ok he
  have hset : m.batches.modify batch (fun b => { b with submitted := true }) =
      m.batches.set batch { b with submitted := true } := by
    rw [List.modify_eq_set_getElem?, hb]
    rfl
  have hsame : m₂ = m.number id batch b := by
    unfold Submitter.numberBatch at h₂
    obtain ⟨b₁, hb₁, h₂⟩ := bind_getBatch_ok h₂
    cases h₁
    cases h₂
    have hget : (m.batches.modify batch fun b => { b with submitted := true })[batch]? = some b₁ := hb₁
    rw [getElem?_modify_of_some hb, if_pos rfl] at hget
    cases hget
    rw [Machine.number, ← hset]
    rfl
  exact ⟨m₃, hsame ▸ h₃, he⟩

theorem gather_ok {id batch : Nat} {b : Batch} {m m' : Machine κ} {u : Unit}
    (hb : m.batches[batch]? = some b)
    (hslots : ∀ i ∈ m.progress.streams, (UInt32.ofNat i).toNat < bound)
    (he : (Submitter.gather id batch).exec m = (.ok u, m')) :
    ∃ b', Gathers bound id batch b b' m m' ∧
      ((∀ x, Usage.Below bound (m.usage x)) → (∀ f, Usage.Below bound (b.deps f)) →
        ∀ f, Usage.Below bound (b'.deps f)) ∧
      ∀ t x, (t, x) ∈ b.uses → ∀ v, Usage.Covers (m.usage x) v → t.writes = true ∨ v.write = true →
        Usage.Covers (b'.deps t.isFragment) v := by
  obtain ⟨m₁, h₁, h₂⟩ := gather_recorded hb he
  have hbatch := Machine.number_batch id hb
  obtain ⟨b₁, huses⟩ := recordUses_ok hbatch hslots h₁
  have hbatch₁ : m₁.batches[batch]? = some b₁ := by
    rw [huses.batches, List.getElem?_set_self (List.getElem?_eq_some_iff.mp hbatch).1]
  obtain ⟨b', hheap⟩ := recordHeap_ok hbatch₁ (by rwa [huses.progress]) h₂
  have hall := huses.trans hheap
  rw [List.append_nil] at hall
  refine ⟨b', ⟨hall.device, hall.storage, hall.accounts, ?_, hall.submitted, hall.grows, hall.below, ?_⟩,
    hall.belowDeps, ?_⟩
  · rw [hall.batches]
    exact List.set_set ..
  · exact fun t x hx => hall.recorded t t.mem_all x hx
  · exact fun t x hx v hv hw => hall.awaited t t.mem_all x hx v hv hw

/-- Collecting is gathering followed by cleaning. -/
theorem collect_ok {id batch : Nat} {b : Batch} {m m' : Machine κ} {u : Unit}
    (hb : m.batches[batch]? = some b)
    (hslots : ∀ i ∈ m.progress.streams, (UInt32.ofNat i).toNat < bound)
    (he : (Submitter.collect id batch).exec m = (.ok u, m')) :
    ∃ m₁ b₁, (Submitter.gather id batch).exec m = (.ok (), m₁) ∧
      Gathers bound id batch b b₁ m m₁ ∧
      Gathers bound id batch b { b₁ with
        vertexDeps := Usage.clean m.device.slots m.device.bound b₁.vertexDeps
        fragmentDeps := Usage.clean m.device.slots m.device.bound b₁.fragmentDeps } m m' := by
  obtain ⟨_, m₁, h₁, he⟩ := bind_ok he
  obtain ⟨b₁, hg, -⟩ := gather_ok hb hslots h₁
  unfold Submitter.cleanDeps at he
  obtain ⟨d, m₂, h₂, he⟩ := bind_ok he
  cases h₂
  have hlt : batch < m.batches.length := (List.getElem?_eq_some_iff.mp hb).1
  have hb₁ : m₁.batches[batch]? = some b₁ := by rw [hg.batches, List.getElem?_set_self hlt]
  refine ⟨m₁, b₁, h₁, hg, ?_⟩
  have hrest : Records bound m₁ m' := by
    cases he
    exact .of_eq rfl rfl rfl
  have hbatches : m'.batches = m.batches.set batch { b₁ with
      vertexDeps := Usage.clean m.device.slots m.device.bound b₁.vertexDeps
      fragmentDeps := Usage.clean m.device.slots m.device.bound b₁.fragmentDeps } := by
    cases he
    show m₁.batches.modify batch _ = _
    rw [List.modify_eq_set_getElem?, hb₁, hg.batches, hg.device]
    exact List.set_set ..
  refine ⟨hrest.device.trans hg.device, by rw [hrest.storage, hg.storage], fun x => ?_, hbatches,
    hg.submitted, fun x => (hg.grows x).trans (hrest.grows x), fun h => hrest.below (hg.below h),
    fun t x hx => ?_⟩
  · rw [hrest.accounts, hg.accounts]
    cases m.storage.accounts[x]? <;> rfl
  · obtain ⟨i, n, hjob, hcovers⟩ := hg.recorded t x hx
    exact ⟨i, n, (hrest.job id _).trans hjob, hcovers.grow (hrest.grows x)⟩

/-- A queue is a 32-bit word, so nothing has to be known of the slots for the rest. -/
theorem gathers_of_collect {id batch : Nat} {b : Batch} {m m' : Machine κ} {u : Unit}
    (hb : m.batches[batch]? = some b) (he : (Submitter.collect id batch).exec m = (.ok u, m')) :
    ∃ b', Gathers (2 ^ 32) id batch b b' m m' := by
  obtain ⟨_, b₁, -, -, hg⟩ := collect_ok hb (fun i _ => (UInt32.ofNat i).toNat_lt) he
  exact ⟨_, hg⟩

end

end Mali
