import Mali.Proofs.AtomOrder
import Mali.Proofs.Fences

/-!
# Fences on atoms

On a job manager device the event slots stand for atom numbers.  A number is given out again once its atom
is done, while the numbers of jobs, which fences compare, only grow.  So a slot is shared by atoms one after
the other, and submitted with any syncobj each of them; what a fence waits for is the last atom that was
submitted through its syncobj.

Numbers of jobs are words.  Once a device has queued as many jobs as there are words they start again from
zero, while the slots have passed far greater numbers, and fences are lost.

* `FenceAction`, `outstanding`, `latest`: what was submitted, what of it is not done, and what a fence is for.
* `FenceState`: the part of a device that fences on atoms depend on, with what the operations do to it.
* `FenceRun`: executions in which every event is that of an atom that is not done.
* `Fenced`, `FenceRun.fenced`: what slots and syncobjs have come to.
* `FenceRun.update_open`: the fences after an update.
* `Willing`: a kernel that accepts every job, and what is lost there once the numbers start again.
-/

namespace Mali

open Op

variable {κ : Type}

/-! ## Histories -/

/-- What happens on a device, as far as fences on atoms are concerned. -/
inductive FenceAction where
  /-- An atom was submitted, through a syncobj or not. -/
  | submit (atom : Atom) (syncobj : Option Nat)
  /-- The event of an atom was handled. -/
  | finish (atom : Atom)

/-- The atoms of a history, newest first as the history is. -/
def atoms : List FenceAction → List Atom
  | [] => []
  | .submit atom _ :: acts => atom :: atoms acts
  | .finish _ :: acts => atoms acts

/-- The atoms whose event was not handled yet. -/
def outstanding : List FenceAction → List Atom
  | [] => []
  | .submit atom _ :: acts => atom :: outstanding acts
  | .finish atom :: acts => (outstanding acts).filter (· ≠ atom)

/-- The latest atom of a number that was submitted through a syncobj. -/
def latest (k : Nat) (number : UInt8) : List FenceAction → Option Atom
  | [] => none
  | .submit atom o :: acts =>
    if o = some k ∧ atom.number = number then some atom else latest k number acts
  | .finish _ :: acts => latest k number acts

theorem outstanding_subset {acts : List FenceAction} {a : Atom} (h : a ∈ outstanding acts) :
    a ∈ atoms acts := by
  induction acts with
  | nil => cases h
  | cons act acts ih =>
    cases act with
    | submit atom o =>
      rcases List.mem_cons.mp h with rfl | h
      · exact List.mem_cons_self
      · exact List.mem_cons_of_mem _ (ih h)
    | finish atom => exact ih (List.mem_filter.mp h).1

theorem latest_mem {acts : List FenceAction} {k : Nat} {number : UInt8} {a : Atom}
    (h : latest k number acts = some a) : a ∈ atoms acts ∧ a.number = number := by
  induction acts with
  | nil => cases h
  | cons act acts ih =>
    cases act with
    | submit atom o =>
      unfold latest at h
      split at h
      · rename_i hatom
        cases h
        exact ⟨List.mem_cons_self, hatom.2⟩
      · exact ⟨List.mem_cons_of_mem _ (ih h).1, (ih h).2⟩
    | finish atom => exact ih h

/-! ## Devices -/

/-- The part of a device that fences on atoms depend on. -/
structure FenceState where
  slots : SlotTable
  syncobjs : List Syncobj
  /-- The numbers of the atoms in flight. -/
  flying : List UInt8
  /-- The number of the next atom, and that of the next job. -/
  next : UInt8
  seq : UInt64

/-- The fence state of a machine. -/
def Machine.fenceState (m : Machine κ) : FenceState where
  slots := m.device.slots
  syncobjs := m.device.syncobjs
  flying := m.device.inFlight.map (·.1)
  next := m.device.atomNumber
  seq := m.device.jobSeq

namespace FenceState

/-- An atom is submitted. -/
def submit (s : FenceState) (o : Option Nat) : FenceState where
  slots := s.slots.put s.next.toNat ((s.slots.entry s.next.toNat).submit s.seq)
  syncobjs :=
    match o with
    | none => s.syncobjs
    | some k => s.syncobjs.modify k (·.updateFence (UInt32.ofNat s.next.toNat) s.seq)
  flying := s.flying ++ [s.next]
  next := s.next + 1
  seq := s.seq + 1

/-- An atom is done, and its job is reported. -/
def finish (s : FenceState) (number : UInt8) (seqnum : UInt64) : FenceState :=
  { s with
    slots := s.slots.put number.toNat ((s.slots.entry number.toNat).advance (seqnum + 1)).2
    flying := s.flying.filter (· ≠ number) }

/-- A syncobj is updated. -/
def update (s : FenceState) (k : Nat) : FenceState :=
  { s with syncobjs := s.syncobjs.modify k (·.prune s.slots) }

theorem entry_submit (s : FenceState) (o : Option Nat) (q : Nat) : (s.submit o).slots.entry q =
    if s.next.toNat = q then (s.slots.entry q).submit s.seq else s.slots.entry q := by
  show (s.slots.put s.next.toNat _).entry q = _
  rw [SlotTable.entry_put _ s.next.toNat_lt]
  split
  · rename_i hq
    rw [hq]
  · rfl

theorem last_submit (s : FenceState) (o : Option Nat) (q : Nat) :
    ((s.submit o).slots.entry q).last = (s.slots.entry q).last := by
  rw [entry_submit]
  split
  · rw [EventSlot.submit_last]
  · rfl

theorem entry_finish (s : FenceState) (number : UInt8) (seqnum : UInt64) (q : Nat) :
    (s.finish number seqnum).slots.entry q =
      if number.toNat = q then ((s.slots.entry q).advance (seqnum + 1)).2 else s.slots.entry q := by
  show (s.slots.put number.toNat _).entry q = _
  rw [SlotTable.entry_put _ number.toNat_lt]
  split
  · rename_i hq
    rw [hq]
  · rfl

end FenceState

/-- A device that no atom was submitted to, without syncobjs. -/
structure Blank (m : Machine κ) : Prop where
  slots : m.device.slots = Vector.replicate slotCount {}
  syncobjs : m.device.syncobjs = []
  flying : m.device.inFlight = []
  next : m.device.atomNumber = 0
  seq : m.device.jobSeq = 0

theorem SameDevice.fenceState {m m' : Machine κ} (h : SameDevice m m') : m'.fenceState = m.fenceState := by
  rw [Machine.fenceState, h, Machine.fenceState]

theorem updateSyncobj_fenceState {k : Nat} {m m' : Machine κ} {u : Unit}
    (he : (Device.updateSyncobj k).exec m = (.ok u, m')) : m'.fenceState = m.fenceState.update k := by
  rw [Machine.fenceState, updateSyncobj_device he]
  rfl

section Kernel

variable [Kernel κ]

theorem handleJobEvent_fenceState {e : JobEvent} {fine : Bool} {m m' : Machine κ}
    (he : (Device.handleJobEvent e).exec m = (.ok fine, m')) :
    m'.fenceState = m.fenceState.finish e.atom e.seqnum := by
  have hrest {m₁ : Machine κ} {fine' : Bool} (h₁ : SameDevice m m₁) (he : (do
      Device.retireAtom e.atom
      Device.advance e.atom.toNat (e.seqnum + 1)
      return fine' : Op κ Bool).exec m₁ = (.ok fine, m')) :
      m'.fenceState = m.fenceState.finish e.atom e.seqnum := by
    obtain ⟨_, m₂, hretire, he⟩ := bind_ok he
    obtain ⟨_, m₃, hadvance, he⟩ := bind_ok he
    cases he
    obtain ⟨t, ht⟩ := advance_device hadvance
    obtain ⟨t', ht'⟩ : ∃ t', m₂.device = { m₁.device.forgetAtom e.atom with handles := t' } := by
      unfold Device.retireAtom at hretire
      rw [exec_bind_of_ok (exec_device m₁)] at hretire
      split at hretire
      · cases hretire
      · cases hretire
        exact ⟨_, rfl⟩
    rw [Machine.fenceState, ht, Machine.progress, ht', h₁]
    simp only [Machine.fenceState, FenceState.finish, Device.forgetAtom, Device.progress, Int.toNat_natCast,
      List.filter_map]
    rfl
  unfold Device.handleJobEvent at he
  dsimp only at he
  split at he
  · obtain ⟨_, m₁, herror, he⟩ := bind_ok he
    exact hrest ((keeps_error _ _).ok herror) he
  · exact hrest (Journey.refl m) he

omit [Kernel κ] in
theorem markAtom_device {number : UInt8} {slot : JobSlot} {handles : List Int} {marked : HandleTable.Marked}
    {m m' : Machine κ} (he : (Device.markAtom number slot handles).exec m = (.ok marked, m')) :
    m'.device = { m.device with
      inFlight := m.device.inFlight ++ [(number, handles)]
      handles := marked.table } := by
  unfold Device.markAtom at he
  rw [exec_bind_of_ok (exec_device m)] at he
  dsimp only at he
  split at he
  · obtain ⟨_, m₁, hviolate, -⟩ := bind_ok he
    cases hviolate
  · obtain ⟨_, m₁, hset, he⟩ := bind_ok he
    cases hset
    split at he
    · cases he
    · cases he
      rfl

/-- A job that was accepted was sent with the next numbers, and an atom of its number was not in flight. -/
theorem submitJob_fenceState {va : UInt64} {requirements : UInt32} {o : Option Nat} {handles : List Int}
    {n : UInt8} {m m' : Machine κ}
    (he : (Device.submitJob va requirements o handles).exec m = (.ok n, m')) :
    m.fenceState.next ∉ m.fenceState.flying ∧ m'.fenceState = m.fenceState.submit o ∧
      ∃ atom, m'.sentAtom? = some atom ∧ atom.number = m.fenceState.next ∧
        atom.seqnum = m.fenceState.seq := by
  unfold Device.submitJob at he
  obtain ⟨_, m₁, hdebug, he⟩ := bind_ok he
  have h₁ : m₁.device = m.device := (keeps_debug (R := SameDevice) _ _).ok hdebug
  obtain ⟨⟨number, seqnum⟩, m₂, hnext, he⟩ := bind_ok he
  cases hnext
  obtain ⟨marked, m₃, hmark, he⟩ := bind_ok he
  obtain ⟨_, m₄, hsubmit, he⟩ := bind_ok he
  obtain ⟨_, m₅, hfence, he⟩ := bind_ok he
  obtain ⟨_, m₆, htrace, he⟩ := bind_ok he
  obtain ⟨answer, m₇, hanswer, he⟩ := bind_ok he
  have h₇ : SameDevice m₅ m₇ := Journey.trans (R := SameDevice) ((keeps_trace _ _).ok htrace)
    ((keeps_attempt (keeps_submitAtom _)).ok hanswer)
  have hlookup := (markAtom_ok hmark).1
  have h₃ := markAtom_device hmark
  obtain ⟨-, -, hsubmit⟩ := bind_slot_ok hsubmit
  cases hsubmit
  -- a job that was refused comes to a fault
  obtain ⟨rfl, u, rfl⟩ : m' = m₇ ∧ ∃ u, answer = .ok u := by
    cases answer with
    | ok u =>
      cases he
      exact ⟨rfl, u, rfl⟩
    | error f =>
      obtain ⟨_, _, -, he⟩ := bind_ok he
      cases he
  refine ⟨?_, ?_, _, submitAtom_ok (attempt_ok hanswer), ?_, ?_⟩
  · have hnone := lookup_eq_none_iff.mp hlookup
    have hnone : m₁.device.atomNumber ∉ m₁.device.inFlight.map (·.1) := hnone
    rwa [h₁] at hnone
  · have h₅ : m₅.fenceState = m.fenceState.submit o := by
      cases o with
      | none =>
        cases hfence
        simp only [Machine.fenceState, FenceState.submit, Machine.progress, h₃, h₁, List.map_append]
        rfl
      | some k =>
        have hslot : m₁.device.atomNumber.toUInt32 = UInt32.ofNat m₁.device.atomNumber.toNat := by
          rw [← UInt32.toNat_inj, toNat_ofNat_slot m₁.device.atomNumber.toNat_lt]
          exact UInt8.toNat_toUInt32 _
        rw [hslot] at hfence
        cases hfence
        simp only [Machine.fenceState, FenceState.submit, Machine.progress, h₃, h₁, List.map_append]
        rfl
    exact h₇.fenceState.trans h₅
  · show m₁.device.atomNumber = m.device.atomNumber
    rw [h₁]
  · show m₁.device.jobSeq = m.device.jobSeq
    rw [h₁]

/-- A job is queued if its number is free, its handles can be marked and the kernel accepts it. -/
theorem exec_submitJob (va : UInt64) (requirements : UInt32) (o : Option Nat) (handles : List Int)
    {m : Machine κ} {marked : HandleTable.Marked}
    (hfree : m.device.inFlight.lookup m.device.atomNumber = none)
    (hmarked : m.device.handles.markUsed handles (Device.jobSlot requirements) m.device.atomNumber =
      .ok marked)
    (haccept : ∀ (atom : Atom) (m₁ : Machine κ), m₁.device.generation = m.device.generation →
      ∃ m₂, (Interface.submitAtom atom).exec m₁ = (.ok (), m₂)) :
    ∃ m', (Device.submitJob va requirements o handles).exec m = (.ok m.device.atomNumber, m') := by
  unfold Device.submitJob
  obtain ⟨_, m₁, hdebug⟩ : ∃ u m₁, (debug "Device::Submit" : Op κ Unit).exec m = (.ok u, m₁) :=
    ⟨_, _, rfl⟩
  have h₁ : m₁.device = m.device := (keeps_debug (R := SameDevice) _ _).ok hdebug
  rw [exec_bind_of_ok hdebug]
  obtain ⟨m₂, hnext, h₂⟩ : ∃ m₂, (Device.nextAtom : Op κ _).exec m₁ =
        (.ok (m.device.atomNumber, m.device.jobSeq), m₂) ∧
      m₂.device = { m.device with atomNumber := m.device.atomNumber + 1, jobSeq := m.device.jobSeq + 1 } :=
    ⟨_, by rw [← h₁]; rfl, by rw [← h₁]⟩
  rw [exec_bind_of_ok hnext]
  obtain ⟨m₃, hmark⟩ : ∃ m₃, (Device.markAtom m.device.atomNumber (Device.jobSlot requirements)
      handles : Op κ _).exec m₂ = (.ok marked, m₃) := by
    unfold Device.markAtom
    rw [exec_bind_of_ok (exec_device m₂), h₂, hfree, if_neg (by simp), hmarked]
    exact ⟨_, rfl⟩
  have h₃ := markAtom_device hmark
  dsimp only
  rw [exec_bind_of_ok hmark]
  obtain ⟨m₄, hsubmit, h₄⟩ : ∃ m₄, (Device.submitSlot m.device.atomNumber.toNat m.device.jobSeq :
      Op κ Unit).exec m₃ = (.ok (), m₄) ∧ m₄.device.generation = m₃.device.generation := by
    unfold Device.submitSlot
    rw [exec_bind_of_ok (exec_slot m.device.atomNumber.toNat_lt m₃)]
    exact ⟨_, rfl, rfl⟩
  rw [exec_bind_of_ok hsubmit]
  obtain ⟨m₅, hfence, h₅⟩ : ∃ m₅, (Device.fenceSyncobj o m.device.atomNumber.toUInt32 m.device.jobSeq :
      Op κ Unit).exec m₄ = (.ok (), m₅) ∧ m₅.device.generation = m₄.device.generation := by
    cases o with
    | none => exact ⟨_, rfl, rfl⟩
    | some k => exact ⟨_, rfl, rfl⟩
  rw [exec_bind_of_ok hfence]
  obtain ⟨_, m₆, htrace⟩ := returns_trace "submitting atom"
    [("atom", toString m.device.atomNumber), ("seq", toString m.device.jobSeq),
      ("deps", s!"[{marked.after.fragment} {marked.after.vertex}]"),
      ("extres", toString marked.resources.length)] m₅
  have h₆ : m₆.device = m₅.device := (keeps_trace (R := SameDevice) _ _).ok htrace
  rw [exec_bind_of_ok htrace]
  obtain ⟨m₇, hsend⟩ := haccept (.ofMarked va m.device.jobSeq (Device.jobSlot requirements)
    m.device.atomNumber marked) m₆ (by rw [h₆, h₅, h₄, h₃, h₂])
  have hanswer : (attempt (Interface.submitAtom (.ofMarked va m.device.jobSeq
      (Device.jobSlot requirements) m.device.atomNumber marked))).exec m₆ = (.ok (.ok ()), m₇) := by
    rw [exec_attempt, hsend]
  rw [exec_bind_of_ok hanswer]
  exact ⟨_, rfl⟩

end Kernel

/-! ## Slots and syncobjs follow the history -/

/-- The numbers that a syncobj covers, by slot. -/
def covered (acts : List FenceAction) (k q : Nat) : Option UInt64 :=
  if q < slotCount then (latest k (UInt8.ofNat q) acts).map (·.seqnum) else none

/-- A slot has passed the atoms of its number that are done, and not the one that is not.  The fences of a
syncobj are for the latest atoms that were submitted through it. -/
structure Fenced (acts : List FenceAction) (s : FenceState) : Prop where
  seq : s.seq = UInt64.ofNat (atoms acts).length
  single : ((outstanding acts).map (·.number)).Nodup
  flying : ∀ a ∈ outstanding acts, a.number ∈ s.flying
  before : ∀ a ∈ atoms acts, a.seqnum < s.seq
  limited : ∀ q, (s.slots.entry q).last ≤ (s.slots.entry q).lastSubmit ∧
    (s.slots.entry q).lastSubmit ≤ s.seq
  submitted : ∀ a ∈ atoms acts, a.seqnum < (s.slots.entry a.number.toNat).lastSubmit
  waits : ∀ a ∈ outstanding acts, (s.slots.entry a.number.toNat).last ≤ a.seqnum
  passed : ∀ a ∈ atoms acts, a ∉ outstanding acts → a.seqnum < (s.slots.entry a.number.toNat).last
  tells : ∀ (k : Nat) (o : Syncobj), s.syncobjs[k]? = some o →
    o.Tells s.slots slotCount (covered acts k) false
  new : ∀ k, s.syncobjs.length ≤ k → ∀ number, latest k number acts = none

namespace Fenced

variable {acts : List FenceAction} {s : FenceState}

theorem start {m : Machine κ} (h : Blank m) : Fenced [] m.fenceState where
  seq := h.seq
  single := List.nodup_nil
  flying _ ha := absurd ha List.not_mem_nil
  before _ ha := absurd ha List.not_mem_nil
  limited q := by
    have hentry : m.fenceState.slots.entry q = {} := by
      show m.device.slots.entry q = {}
      rw [h.slots, SlotTable.entry_replicate]
    rw [hentry]
    exact ⟨UInt64.le_refl _, UInt64.le_iff_toNat_le.mpr (Nat.zero_le _)⟩
  submitted _ ha := absurd ha List.not_mem_nil
  waits _ ha := absurd ha List.not_mem_nil
  passed _ ha := absurd ha List.not_mem_nil
  tells k o ho := by
    have hnone : m.fenceState.syncobjs = [] := h.syncobjs
    rw [hnone] at ho
    cases ho
  new _ _ _ := rfl

/-- The number of the next job is no smaller than the number of jobs, as long as there are words left. -/
theorem toNat_seq (h : Fenced acts s) (hmax : (atoms acts).length < 2 ^ 64) :
    s.seq.toNat = (atoms acts).length := by
  rw [h.seq, UInt64.toNat_ofNat_of_lt' hmax]

/-- A syncobj without fences is made. -/
theorem create (h : Fenced acts s) {o : Syncobj} (ho : o.fences = []) :
    Fenced acts { s with syncobjs := s.syncobjs ++ [o] } :=
  { h with
    tells := fun k p hp => by
      rcases getElem?_concat_cases hp with ⟨rfl, rfl⟩ | ⟨-, hp⟩
      · refine (Syncobj.Tells.of_nil ho).congr fun q => ?_
        unfold covered
        rw [h.new _ (Nat.le_refl _)]
        exact ite_self _
      · exact h.tells k p hp
    new := fun k hk => h.new k (by
      rw [List.length_append, List.length_singleton] at hk
      omega) }

theorem update (h : Fenced acts s) (k : Nat) : Fenced acts (s.update k) :=
  { h with
    tells := fun j p hp => by
      rw [FenceState.update, List.getElem?_modify] at hp
      obtain ⟨o, ho, rfl⟩ := Option.map_eq_some_iff.mp hp
      split
      · exact (h.tells j o ho).prune fun _ _ => rfl
      · exact h.tells j o ho
    new := fun j hj => h.new j (by rwa [FenceState.update, List.length_modify] at hj) }

theorem covered_submit (acts : List FenceAction) (atom : Atom) (k q : Nat) :
    covered (.submit atom (some k) :: acts) k q =
      if q = atom.number.toNat then some atom.seqnum else covered acts k q := by
  unfold covered
  by_cases hq : q < slotCount
  · have hnumber : atom.number = UInt8.ofNat q ↔ q = atom.number.toNat := by
      rw [← UInt8.toNat_inj, UInt8.toNat_ofNat_of_lt' hq]
      exact eq_comm
    rw [if_pos hq, if_pos hq, latest]
    by_cases heq : q = atom.number.toNat
    · rw [if_pos ⟨rfl, hnumber.mpr heq⟩, if_pos heq]
      rfl
    · rw [if_neg fun h => heq (hnumber.mp h.2), if_neg heq]
  · have hlt : atom.number.toNat < slotCount := atom.number.toNat_lt
    rw [if_neg hq, if_neg hq, if_neg (by omega)]

theorem covered_submit_of_ne (acts : List FenceAction) (atom : Atom) {o : Option Nat} {k : Nat}
    (ho : o ≠ some k) (q : Nat) : covered (.submit atom o :: acts) k q = covered acts k q := by
  have hlatest (number : UInt8) : latest k number (.submit atom o :: acts) = latest k number acts :=
    if_neg fun h => ho h.1
  unfold covered
  rw [hlatest]

theorem covered_lt (h : Fenced acts s) {k q : Nat} {v : UInt64} (hv : covered acts k q = some v) :
    v < s.seq := by
  unfold covered at hv
  split at hv
  · obtain ⟨a, ha, rfl⟩ := Option.map_eq_some_iff.mp hv
    exact h.before a (latest_mem ha).1
  · cases hv

/-- A syncobj that an atom was submitted through covers the atom as well, and the others cover what they did. -/
theorem tells_submit (h : Fenced acts s) {atom : Atom} {o : Option Nat} (hnumber : atom.number = s.next)
    (hseq : atom.seqnum = s.seq) (ho : ∀ k ∈ o, k < s.syncobjs.length) (hmax : (atoms acts).length + 1 < 2 ^ 64)
    {k : Nat} {p : Syncobj} (hp : (s.submit o).syncobjs[k]? = some p) :
    p.Tells (s.submit o).slots slotCount (covered (.submit atom o :: acts) k) false := by
  have hlast (q : Nat) : (s.slots.entry q).last ≤ ((s.submit o).slots.entry q).last :=
    UInt64.le_of_eq (s.last_submit o q).symm
  have hsame {p : Syncobj} (hp : s.syncobjs[k]? = some p) (hne : o ≠ some k) :
      p.Tells (s.submit o).slots slotCount (covered (.submit atom o :: acts) k) false :=
    ((h.tells k p hp).mono le_rfl fun q _ => hlast q).congr fun q => covered_submit_of_ne acts atom hne q
  cases o with
  | none => exact hsame hp (Option.some_ne_none k).symm
  | some j =>
    obtain ⟨p₀, hp₀⟩ : ∃ p₀, s.syncobjs[j]? = some p₀ := ⟨_, List.getElem?_eq_getElem (ho j rfl)⟩
    rcases getElem?_modify_cases hp₀ hp with ⟨rfl, rfl⟩ | ⟨hne, hp⟩
    · have hend : s.seq < Device.endOfTime := UInt64.lt_iff_toNat_lt.mpr (by
        rw [h.toNat_seq (by omega)]
        exact Nat.lt_of_lt_of_le (Nat.lt_succ_self _) (Nat.le_sub_one_of_lt hmax))
      have hraised := (h.tells k p₀ hp₀).updateFence le_rfl s.next.toNat_lt hend (id : false = false → _)
      refine (hraised.mono le_rfl fun q _ => hlast q).congr fun q => ?_
      rw [covered_submit, hnumber, hseq]
      split
      · -- every number that is covered was given out before
        unfold Syncobj.later
        split
        · rfl
        · rename_i v hv
          rw [if_pos (h.covered_lt hv)]
      · rfl
    · exact hsame hp fun heq => hne (Option.some.inj heq).symm

/-- An atom is submitted with numbers that no atom in flight has. -/
theorem submit (h : Fenced acts s) {atom : Atom} {o : Option Nat} (hfree : s.next ∉ s.flying)
    (hnumber : atom.number = s.next) (hseq : atom.seqnum = s.seq) (ho : ∀ k ∈ o, k < s.syncobjs.length)
    (hmax : (atoms acts).length + 1 < 2 ^ 64) : Fenced (.submit atom o :: acts) (s.submit o) := by
  have hsize : s.seq.toNat = (atoms acts).length := h.toNat_seq (by omega)
  have hgrow : (s.seq + 1).toNat = s.seq.toNat + 1 := by
    rw [UInt64.toNat_add, hsize, UInt64.toNat_one]
    omega
  have hlt : s.seq < s.seq + 1 := UInt64.lt_iff_toNat_lt.mpr (by omega)
  have hlast (q : Nat) := s.last_submit o q
  have hlimit (q : Nat) : ((s.submit o).slots.entry q).lastSubmit =
      if s.next.toNat = q then s.seq + 1 else (s.slots.entry q).lastSubmit := by
    rw [FenceState.entry_submit]
    split
    · rw [EventSlot.submit, if_pos (UInt64.lt_of_le_of_lt (h.limited q).2 hlt)]
    · rfl
  constructor
  case seq =>
    show s.seq + 1 = UInt64.ofNat ((atoms acts).length + 1)
    rw [h.seq, UInt64.ofNat_add]
    rfl
  case single =>
    refine List.nodup_cons.mpr ⟨fun hmem => ?_, h.single⟩
    obtain ⟨a, ha, heq⟩ := List.mem_map.mp hmem
    have heq : a.number = s.next := heq.trans hnumber
    exact hfree (heq ▸ h.flying a ha)
  case flying =>
    intro a ha
    rcases List.mem_cons.mp ha with rfl | ha
    · exact List.mem_append_right _ (List.mem_singleton.mpr hnumber)
    · exact List.mem_append_left _ (h.flying a ha)
  case before =>
    intro a ha
    rcases List.mem_cons.mp ha with rfl | ha
    · rw [hseq]
      exact hlt
    · exact UInt64.lt_trans (h.before a ha) hlt
  case limited =>
    intro q
    obtain ⟨hle, hle'⟩ := h.limited q
    rw [hlast, hlimit]
    split
    · exact ⟨UInt64.le_trans hle (UInt64.le_trans hle' (UInt64.le_of_lt hlt)), UInt64.le_refl _⟩
    · exact ⟨hle, UInt64.le_trans hle' (UInt64.le_of_lt hlt)⟩
  case submitted =>
    intro a ha
    rw [hlimit]
    rcases List.mem_cons.mp ha with rfl | ha
    · rw [hnumber, if_pos rfl, hseq]
      exact hlt
    · split
      · exact UInt64.lt_trans (h.before a ha) hlt
      · exact h.submitted a ha
  case waits =>
    intro a ha
    rw [hlast]
    rcases List.mem_cons.mp ha with rfl | ha
    · rw [hseq]
      exact UInt64.le_trans (h.limited _).1 (h.limited _).2
    · exact h.waits a ha
  case passed =>
    intro a ha hdone
    rw [hlast]
    rcases List.mem_cons.mp ha with rfl | ha
    · exact absurd List.mem_cons_self hdone
    · exact h.passed a ha fun hopen => hdone (List.mem_cons_of_mem _ hopen)
  case tells => exact fun k p hp => h.tells_submit hnumber hseq ho hmax hp
  case new =>
    intro k hk number
    have hnew : s.syncobjs.length ≤ k := by
      cases o with
      | none => exact hk
      | some j => rwa [FenceState.submit, List.length_modify] at hk
    rw [latest, if_neg, h.new k hnew]
    rintro ⟨hok, -⟩
    exact Nat.not_lt_of_le hnew (ho k hok)

/-- A job that was submitted and that the slot has not passed is all that a report moves the slot over. -/
theorem last_advance {e : EventSlot} {n : UInt64} (hlast : e.last ≤ n) (hn : n < e.lastSubmit) :
    (e.advance (n + 1)).2.last = n + 1 := by
  have hlt := UInt64.lt_iff_toNat_lt.mp hn
  have hmax := e.lastSubmit.toNat_lt
  have hsucc : (n + 1).toNat = n.toNat + 1 := by
    rw [UInt64.toNat_add, UInt64.toNat_one]
    omega
  have hforward : ¬e.isBackward (n + 1) = true := by
    have := UInt64.le_iff_toNat_le.mp hlast
    rw [EventSlot.isBackward, decide_eq_true_eq, UInt64.lt_iff_toNat_lt]
    omega
  have hlimit : ¬e.lastSubmit < n + 1 := by
    rw [UInt64.lt_iff_toNat_lt]
    omega
  rw [EventSlot.advance, if_neg hforward]
  show e.limit (n + 1) = n + 1
  rw [EventSlot.limit, if_neg hlimit]

/-- The event of an atom that is not done is handled. -/
theorem finish (h : Fenced acts s) {atom : Atom} (hatom : atom ∈ outstanding acts) :
    Fenced (.finish atom :: acts) (s.finish atom.number atom.seqnum) := by
  have hmem : atom ∈ atoms acts := outstanding_subset hatom
  have hopen := h.waits atom hatom
  have hsubmitted := h.submitted atom hmem
  have hsucc : atom.seqnum < atom.seqnum + 1 := by
    have hlt := UInt64.lt_iff_toNat_lt.mp hsubmitted
    have hmax := (s.slots.entry atom.number.toNat).lastSubmit.toNat_lt
    rw [UInt64.lt_iff_toNat_lt, UInt64.toNat_add, UInt64.toNat_one]
    omega
  have hentry := s.entry_finish atom.number atom.seqnum
  have hlimit (q : Nat) : ((s.finish atom.number atom.seqnum).slots.entry q).lastSubmit =
      (s.slots.entry q).lastSubmit := by
    rw [hentry]
    split
    · rw [EventSlot.advance_lastSubmit]
    · rfl
  have hlast (q : Nat) : ((s.finish atom.number atom.seqnum).slots.entry q).last =
      if atom.number.toNat = q then atom.seqnum + 1 else (s.slots.entry q).last := by
    rw [hentry]
    split
    · subst_vars
      rw [last_advance hopen hsubmitted]
    · rfl
  have hgrow (q : Nat) : (s.slots.entry q).last ≤
      ((s.finish atom.number atom.seqnum).slots.entry q).last := by
    rw [hlast]
    split
    · subst_vars
      exact UInt64.le_trans hopen (UInt64.le_of_lt hsucc)
    · exact UInt64.le_refl _
  -- no other atom that is not done has the number
  have hother {a : Atom} (ha : a ∈ outstanding acts) (hne : a ≠ atom) : a.number ≠ atom.number :=
    fun heq => hne (List.inj_on_of_nodup_map h.single ha hatom heq)
  constructor
  case seq => exact h.seq
  case single => exact h.single.sublist (List.filter_sublist.map _)
  case flying =>
    intro a ha
    obtain ⟨ha, hne⟩ := List.mem_filter.mp ha
    refine List.mem_filter.mpr ⟨h.flying a ha, ?_⟩
    simpa using hother ha (by simpa using hne)
  case before => exact h.before
  case limited =>
    intro q
    rw [hlast, hlimit]
    refine ⟨?_, (h.limited q).2⟩
    split
    · subst_vars
      have hlt := UInt64.lt_iff_toNat_lt.mp hsubmitted
      have hmax := (s.slots.entry atom.number.toNat).lastSubmit.toNat_lt
      rw [UInt64.le_iff_toNat_le, UInt64.toNat_add, UInt64.toNat_one]
      omega
    · exact (h.limited q).1
  case submitted =>
    intro a ha
    rw [hlimit]
    exact h.submitted a ha
  case waits =>
    intro a ha
    obtain ⟨ha, hne⟩ := List.mem_filter.mp ha
    have hnumber := hother ha (by simpa using hne)
    rw [hlast, if_neg fun heq => hnumber (UInt8.toNat_inj.mp heq).symm]
    exact h.waits a ha
  case passed =>
    intro a ha hdone
    by_cases hopen : a ∈ outstanding acts
    · obtain rfl : a = atom := by
        by_contra hne
        exact hdone (List.mem_filter.mpr ⟨hopen, by simpa using hne⟩)
      rw [hlast, if_pos rfl]
      exact hsucc
    · exact UInt64.lt_of_lt_of_le (h.passed a ha hopen) (hgrow _)
  case tells =>
    intro k p hp
    exact ((h.tells k p hp).mono le_rfl fun q _ => hgrow q).congr fun _ => rfl
  case new => exact h.new

/-- A slot has not passed the latest atom of a number if and only if that is not done. -/
theorem open_iff (h : Fenced acts s) {k : Nat} {number : UInt8} {a : Atom}
    (ha : latest k number acts = some a) :
    (s.slots.entry number.toNat).last ≤ a.seqnum ↔ a ∈ outstanding acts := by
  obtain ⟨hmem, rfl⟩ := latest_mem ha
  refine ⟨fun hle => ?_, h.waits a⟩
  by_contra hdone
  exact UInt64.not_lt.mpr hle (h.passed a hmem hdone)

/-- The fences of a syncobj that was just pruned are for the latest atoms that are not done. -/
theorem mem_prune_iff (h : Fenced acts s) {k : Nat} {o : Syncobj} (ho : s.syncobjs[k]? = some o) (f : Fence) :
    f ∈ (o.prune s.slots).fences ↔ ∃ atom ∈ outstanding acts, latest k atom.number acts = some atom ∧
      f = ⟨atom.number.toUInt32, atom.seqnum⟩ := by
  have hcovered (q : Nat) (hq : slotCount ≤ q) : covered acts k q = none := if_neg (Nat.not_lt_of_le hq)
  have hslot (number : UInt8) : number.toUInt32.toNat = number.toNat := UInt8.toNat_toUInt32 number
  rw [(h.tells k o ho).mem_prune_iff le_rfl hcovered]
  constructor
  · rintro ⟨hvalue, hlast⟩
    unfold covered at hvalue
    split at hvalue
    · rename_i hlt
      obtain ⟨atom, hlatest, hseq⟩ := Option.map_eq_some_iff.mp hvalue
      have hnumber := (latest_mem hlatest).2
      have htoNat : atom.number.toNat = f.slot.toNat := by rw [hnumber, UInt8.toNat_ofNat_of_lt' hlt]
      rw [← hnumber] at hlatest
      rw [← htoNat, ← hseq] at hlast
      refine ⟨atom, (h.open_iff hlatest).mp hlast, hlatest, Syncobj.fence_ext ?_ hseq.symm⟩
      rw [← UInt32.toNat_inj, hslot, htoNat]
    · cases hvalue
  · rintro ⟨atom, hatom, hlatest, rfl⟩
    dsimp only
    rw [hslot]
    have hlt : atom.number.toNat < slotCount := atom.number.toNat_lt
    refine ⟨?_, (h.open_iff hlatest).mpr hatom⟩
    rw [covered, if_pos hlt, UInt8.ofNat_toNat, hlatest]
    rfl

end Fenced

/-! ## Runs -/

section Kernel

variable [Kernel κ]

/-- Executions that submit atoms and handle their events, with their history.  An event is that of an atom
that is not done, and repeats the numbers that the atom was sent with.  Syncobjs may be made and updated, and
in between anything may happen that leaves fences, slots and atoms alone. -/
inductive FenceRun (m₀ : Machine κ) : List FenceAction → Machine κ → Prop
  | start : FenceRun m₀ [] m₀
  | aside {acts : List FenceAction} {m m' : Machine κ} (hr : FenceRun m₀ acts m)
    (h : m'.fenceState = m.fenceState) : FenceRun m₀ acts m'
  | create {acts : List FenceAction} {m m' : Machine κ} {k : Nat} (hr : FenceRun m₀ acts m)
    (he : Device.createSyncobj.exec m = (.ok k, m')) : FenceRun m₀ acts m'
  | update {acts : List FenceAction} {m m' : Machine κ} {k : Nat} (hr : FenceRun m₀ acts m)
    (he : (Device.updateSyncobj k).exec m = (.ok (), m')) : FenceRun m₀ acts m'
  | submit {acts : List FenceAction} {m m' : Machine κ} {va : UInt64} {requirements : UInt32}
    {o : Option Nat} {handles : List Int} {n : UInt8} {atom : Atom} (hr : FenceRun m₀ acts m)
    (ho : ∀ k ∈ o, k < m.device.syncobjs.length)
    (he : (Device.submitJob va requirements o handles).exec m = (.ok n, m'))
    (hsent : m'.sentAtom? = some atom) : FenceRun m₀ (.submit atom o :: acts) m'
  | finish {acts : List FenceAction} {m m' : Machine κ} {e : JobEvent} {atom : Atom} {fine : Bool}
    (hr : FenceRun m₀ acts m) (hatom : atom ∈ outstanding acts) (hnumber : e.atom = atom.number)
    (hseq : e.seqnum = atom.seqnum) (he : (Device.handleJobEvent e).exec m = (.ok fine, m')) :
    FenceRun m₀ (.finish atom :: acts) m'

/-- While there are words left, every run keeps slots and syncobjs as the history says. -/
theorem FenceRun.fenced {m₀ m : Machine κ} {acts : List FenceAction} (hr : FenceRun m₀ acts m)
    (h₀ : Blank m₀) (hmax : (atoms acts).length < 2 ^ 64) : Fenced acts m.fenceState := by
  induction hr with
  | start => exact .start h₀
  | aside _ h ih =>
    rw [h]
    exact ih hmax
  | create _ he ih =>
    cases he
    exact (ih hmax).create rfl
  | update _ he ih =>
    rw [updateSyncobj_fenceState he]
    exact (ih hmax).update _
  | submit _ ho he hsent ih =>
    obtain ⟨hfree, hstate, atom, hatom, hnumber, hseq⟩ := submitJob_fenceState he
    cases hatom.symm.trans hsent
    rw [hstate]
    exact (ih (Nat.lt_of_succ_lt hmax)).submit hfree hnumber hseq ho hmax
  | finish _ hatom hnumber hseq he ih =>
    rw [handleJobEvent_fenceState he, hnumber, hseq]
    exact (ih hmax).finish hatom

/-- After an update a syncobj has at most one fence for each slot.  It has one on the slot of an atom number
exactly if the latest atom of the number that was submitted through the syncobj is not done, and the fence
waits for the job of that atom.  This holds as long as fewer jobs were submitted than there are words. -/
theorem FenceRun.update_open {m₀ m : Machine κ} {acts : List FenceAction} (h₀ : Blank m₀)
    (hr : FenceRun m₀ acts m) (hmax : (atoms acts).length < 2 ^ 64) {k : Nat}
    (hk : k < m.device.syncobjs.length) :
    ∃ m' o, (Device.updateSyncobj k).exec m = (.ok (), m') ∧ m'.device.syncobjs[k]? = some o ∧
      (o.fences.map (·.slot)).Nodup ∧
      (∀ number : UInt8, (∃ f ∈ o.fences, f.slot = number.toUInt32) ↔
        ∃ atom ∈ outstanding acts, latest k number acts = some atom) ∧
      ∀ f ∈ o.fences, ∃ atom ∈ outstanding acts, f = ⟨atom.number.toUInt32, atom.seqnum⟩ := by
  have hfenced := hr.fenced h₀ hmax
  obtain ⟨p, hp⟩ : ∃ p, m.device.syncobjs[k]? = some p := ⟨_, List.getElem?_eq_getElem hk⟩
  have htells := hfenced.tells k p hp
  have hmem := hfenced.mem_prune_iff hp
  obtain ⟨m', he⟩ := exec_updateSyncobj hp fun f hf => (htells.inside f hf).1
  refine ⟨m', p.prune m.device.slots, he, ?_, Syncobj.nodup_prune htells.single _, fun number => ?_,
    fun f hf => ?_⟩
  · rw [updateSyncobj_device he]
    exact (getElem?_modify_of_some hp k).trans (if_pos rfl)
  · constructor
    · rintro ⟨f, hf, hslot⟩
      obtain ⟨atom, hatom, hlatest, rfl⟩ := (hmem f).mp hf
      have hnumber : atom.number = number := by
        have hslot : atom.number.toUInt32 = number.toUInt32 := hslot
        rwa [← UInt32.toNat_inj, UInt8.toNat_toUInt32, UInt8.toNat_toUInt32, UInt8.toNat_inj] at hslot
      exact ⟨atom, hatom, hnumber ▸ hlatest⟩
    · rintro ⟨atom, hatom, hlatest⟩
      obtain ⟨-, rfl⟩ := latest_mem hlatest
      exact ⟨_, (hmem _).mpr ⟨atom, hatom, hlatest, rfl⟩, rfl⟩
  · obtain ⟨atom, hatom, -, rfl⟩ := (hmem f).mp hf
    exact ⟨atom, hatom, rfl⟩

end Kernel

/-- A kernel that accepts every job, and has nothing else to offer. -/
structure Willing

instance : Kernel Willing where
  call _ c := (match c with
    | .ioctl _ (.jobSubmit _) => { result := .ok () }
    | _ => { result := .error .nosys }, ⟨⟩)
  now _ := 0
  pageSize _ := 4096
  simulated _ := true

namespace Willing

-- a table of 256 slots is evaluated
set_option maxRecDepth 20000

/-- A job manager device of such a kernel. -/
def start : Machine Willing where
  kernel := ⟨⟩
  device := { generation := .jm }

theorem blank_start : Blank start := ⟨rfl, rfl, rfl, rfl, rfl⟩

/-- There is a syncobj. -/
def synced : Machine Willing := (Device.createSyncobj.exec start).2

theorem exec_synced : Device.createSyncobj.exec start = (.ok 0, synced) := rfl

/-- A job on an address, through the only syncobj. -/
def submit : Op Willing UInt8 := Device.submitJob 0x2000 0 (some 0) []

/-- Two jobs are in flight. -/
def first : Machine Willing := (submit.exec synced).2

@[inherit_doc first] def second : Machine Willing := (submit.exec first).2

/-- The second of them is done. -/
def third : Machine Willing := ((Device.handleJobEvent ⟨JobEvent.done, 1, 1⟩).exec second).2

/-- The atoms that were sent. -/
def atom (number : UInt8) (seqnum : UInt64) : Atom :=
  .ofMarked 0x2000 seqnum .vertex number { table := ⟨[]⟩, after := .both number, resources := [] }

/-- What happened, newest first. -/
def history : List FenceAction :=
  [.finish (atom 1 1), .submit (atom 1 1) (some 0), .submit (atom 0 0) (some 0)]

theorem length_third : third.device.syncobjs.length = 1 := by decide

theorem run_third : FenceRun start history third := by
  have hfirst : submit.exec synced = (.ok 0, first) := exec_of_value (by decide)
  have hsecond : submit.exec first = (.ok 1, second) := exec_of_value (by decide)
  have hthird : (Device.handleJobEvent ⟨JobEvent.done, 1, 1⟩).exec second = (.ok true, third) :=
    exec_of_value (by decide)
  refine .finish (.submit (.submit (.create .start exec_synced) ?_ hfirst ?_) ?_ hsecond ?_)
    List.mem_cons_self rfl rfl hthird
  · intro k hk
    cases hk
    decide
  · decide
  · intro k hk
    cases hk
    decide
  · decide

end Willing

/-- Two jobs were submitted through one syncobj, and the second of them is done.  An update leaves the fence of
the first. -/
theorem update_open_sample : Blank Willing.start ∧ FenceRun Willing.start Willing.history Willing.third ∧
    (atoms Willing.history).length < 2 ^ 64 ∧ 0 < Willing.third.device.syncobjs.length ∧
    ∃ m' o, (Device.updateSyncobj 0).exec Willing.third = (.ok (), m') ∧
      m'.device.syncobjs[0]? = some o ∧ (∃ f ∈ o.fences, f.slot = 0) ∧ ¬∃ f ∈ o.fences, f.slot = 1 := by
  have hmax : (atoms Willing.history).length < 2 ^ 64 := by decide
  have hlength : 0 < Willing.third.device.syncobjs.length := by
    rw [Willing.length_third]
    exact Nat.one_pos
  obtain ⟨m', o, he, ho, -, hfences, -⟩ :=
    FenceRun.update_open Willing.blank_start Willing.run_third hmax hlength
  refine ⟨Willing.blank_start, Willing.run_third, hmax, hlength, m', o, he, ho,
    (hfences 0).mpr ⟨Willing.atom 0 0, ?_, ?_⟩, fun h => ?_⟩
  · exact List.mem_filter.mpr ⟨List.mem_cons_of_mem _ List.mem_cons_self, by decide⟩
  · rfl
  · obtain ⟨atom, hatom, hlatest⟩ := (hfences 1).mp h
    cases hlatest
    exact absurd (List.mem_filter.mp hatom).2 (by decide)

/-! ## Out of words -/

namespace Willing

theorem exec_submitAtom (atom : Atom) {m : Machine Willing} (hm : m.device.generation = .jm) :
    ∃ m', (Interface.submitAtom atom).exec m = (.ok (), m') := by
  unfold Interface.submitAtom
  rw [exec_bind_of_ok (exec_device m), hm]
  exact ⟨_, rfl⟩

/-- So many jobs were submitted without a syncobj, and all of them are done. -/
structure Drained (n : Nat) (acts : List FenceAction) (m : Machine Willing) : Prop where
  run : FenceRun start acts m
  done : outstanding acts = []
  links : m.NoLinks
  generation : m.jobState.generation = .jm
  flights : m.jobState.flights = []
  next : m.fenceState.next = UInt8.ofNat n
  seq : m.fenceState.seq = UInt64.ofNat n
  syncobjs : m.fenceState.syncobjs = [{ id := 1 }]
  limited : (m.fenceState.slots.entry 0).last ≤ (m.fenceState.slots.entry 0).lastSubmit
  first : n = 0 → m.fenceState.slots.entry 0 = {}
  passed : 0 < n → 0 < (m.fenceState.slots.entry 0).last

theorem entry_start (q : Nat) : start.device.slots.entry q = {} := SlotTable.entry_replicate q

theorem drained_synced : Drained 0 [] synced where
  run := .create .start exec_synced
  done := rfl
  links q := by
    show (start.device.slots.entry q).links = []
    rw [entry_start]
  generation := rfl
  flights := rfl
  next := rfl
  seq := rfl
  syncobjs := rfl
  limited := by
    show (start.device.slots.entry 0).last ≤ (start.device.slots.entry 0).lastSubmit
    rw [entry_start]
    exact UInt64.le_refl _
  first _ := entry_start 0
  passed h := absurd h (Nat.lt_irrefl 0)

/-- A slot whose progress is behind its submissions is that after a job, too.  If it had passed anything, or
if this is its first job, it has passed something then. -/
theorem passed_finish {e : EventSlot} {n : UInt64} (h : e.last ≤ e.lastSubmit)
    (hlast : 0 < e.last ∨ e = {} ∧ n = 0) :
    ((e.submit n).advance (n + 1)).2.last ≤ ((e.submit n).advance (n + 1)).2.lastSubmit ∧
      0 < ((e.submit n).advance (n + 1)).2.last := by
  rcases hlast with hlast | ⟨rfl, rfl⟩
  · have hbehind : (e.submit n).last ≤ (e.submit n).lastSubmit := by
      rw [EventSlot.submit_last]
      exact UInt64.le_trans h (EventSlot.le_submit_lastSubmit e n)
    refine ⟨?_, UInt64.lt_of_lt_of_le ?_ (EventSlot.le_advance_last _ _ hbehind)⟩
    · rw [EventSlot.advance_lastSubmit, EventSlot.advance]
      split
      · exact hbehind
      · exact EventSlot.limit_le _ _
    · rwa [EventSlot.submit_last]
  · decide

/-- Another job is submitted and done. -/
theorem Drained.succ {n : Nat} {acts : List FenceAction} {m : Machine Willing} (h : Drained n acts m) :
    ∃ acts' m', Drained (n + 1) acts' m' := by
  have hflights : m.device.inFlight = [] := h.flights
  obtain ⟨m₁, hsubmit⟩ := exec_submitJob 0 0 none [] (m := m)
    (by rw [hflights]; rfl) rfl
    fun atom m₁ hm₁ => exec_submitAtom atom (hm₁.trans h.generation)
  obtain ⟨-, hstate₁, atom, hatom, hnumber, hseq⟩ := submitJob_fenceState hsubmit
  obtain ⟨marked, -, hmarked, hlinks₁, ⟨-, hjobs₁, -⟩ | ⟨f, -, hr, -⟩⟩ :=
    submitJob_cases h.links hsubmit trivial
  swap
  · cases hr
  cases hmarked
  have hrun₁ : FenceRun start (.submit atom none :: acts) m₁ :=
    h.run.submit (fun _ hk => absurd hk (Option.not_mem_none _)) hsubmit hatom
  -- the atom has no handles to release
  have hhandles : m₁.jobState.handles atom.number = [] := by
    have hnumber : atom.number = m.jobState.next := hnumber
    rw [hjobs₁, JobState.handles, JobState.submit, h.flights, hnumber]
    show (List.lookup m.jobState.next [(m.jobState.next, [])]).getD [] = []
    rw [List.lookup_cons_self]
    rfl
  obtain ⟨fine, m₂, hfinish, hlinks₂, hjobs₂⟩ := exec_handleJobEvent hlinks₁
    (e := ⟨JobEvent.done, atom.number, atom.seqnum⟩) (by rw [hhandles]; rfl)
  have hstate₂ := handleJobEvent_fenceState hfinish
  rw [hstate₁] at hstate₂
  have hentry : (m₂.fenceState.slots.entry 0) = if m.fenceState.next.toNat = 0 then
      (((m.fenceState.slots.entry 0).submit m.fenceState.seq).advance (m.fenceState.seq + 1)).2
      else m.fenceState.slots.entry 0 := by
    rw [hstate₂, FenceState.entry_finish, hnumber, hseq, FenceState.entry_submit]
    split <;> rfl
  have hstart (hn : n = 0) : m.fenceState.slots.entry 0 = {} ∧ m.fenceState.seq = 0 :=
    ⟨h.first hn, by rw [h.seq, hn]; rfl⟩
  have hlast : 0 < (m.fenceState.slots.entry 0).last ∨
      m.fenceState.slots.entry 0 = {} ∧ m.fenceState.seq = 0 :=
    (Nat.eq_zero_or_pos n).elim (fun hn => .inr (hstart hn)) fun hn => .inl (h.passed hn)
  refine ⟨.finish atom :: .submit atom none :: acts, m₂, {
    run := hrun₁.finish List.mem_cons_self rfl rfl hfinish
    done := by simp [outstanding, h.done]
    links := hlinks₂
    generation := by rw [hjobs₂, hjobs₁]; exact h.generation
    flights := ?_
    next := ?_
    seq := ?_
    syncobjs := by rw [hstate₂]; exact h.syncobjs
    limited := ?_
    first := fun hn => absurd hn (Nat.succ_ne_zero n)
    passed := fun _ => ?_ }⟩
  · have hnumber : atom.number = m.jobState.next := hnumber
    rw [hjobs₂, hjobs₁, JobState.retire, JobState.submit, h.flights, hnumber]
    simp
  · rw [hstate₂]
    show m.fenceState.next + 1 = _
    rw [h.next, UInt8.ofNat_add]
    rfl
  · rw [hstate₂]
    show m.fenceState.seq + 1 = _
    rw [h.seq, UInt64.ofNat_add]
    rfl
  · rw [hentry]
    split
    · exact (passed_finish h.limited hlast).1
    · exact h.limited
  · rw [hentry]
    split
    · exact (passed_finish h.limited hlast).2
    · rename_i hnext
      refine h.passed (Nat.pos_of_ne_zero fun hn => hnext ?_)
      rw [h.next, hn]
      rfl

/-- Any number of jobs can be submitted and done. -/
theorem exists_drained (n : Nat) : ∃ acts m, Drained n acts m := by
  induction n with
  | zero => exact ⟨[], synced, drained_synced⟩
  | succ n ih =>
    obtain ⟨acts, m, h⟩ := ih
    exact h.succ

/-- When the numbers of jobs have started again, a fence on the atom of number zero is lost with the next
update. -/
theorem Drained.lost {acts : List FenceAction} {m : Machine Willing} (h : Drained (2 ^ 64) acts m) :
    ∃ atom m', FenceRun start (.submit atom (some 0) :: acts) m' ∧ atom.number = 0 ∧
      m'.fenceState.syncobjs.length = 1 ∧
      ∀ m'', (Device.updateSyncobj 0).exec m' = (.ok (), m'') → m''.device.syncobjs = [{ id := 1 }] := by
  have hflights : m.device.inFlight = [] := h.flights
  have hsyncobjs : m.device.syncobjs = [{ id := 1 }] := h.syncobjs
  obtain ⟨m', hsubmit⟩ := exec_submitJob 0 0 (some 0) [] (m := m)
    (by rw [hflights]; rfl) rfl
    fun atom m₁ hm₁ => exec_submitAtom atom (hm₁.trans h.generation)
  obtain ⟨-, hstate, atom, hatom, hnumber, -⟩ := submitJob_fenceState hsubmit
  have hnext : m.fenceState.next = 0 := h.next
  have hseq : m.fenceState.seq = 0 := h.seq
  have hsyncobjs' : m'.fenceState.syncobjs = [{ id := 1, fences := [⟨0, 0⟩] }] := by
    rw [hstate, FenceState.submit, hnext, hseq, h.syncobjs]
    rfl
  refine ⟨atom, m', h.run.submit ?_ hsubmit hatom, hnumber.trans hnext, by rw [hsyncobjs']; rfl,
    fun m'' he => ?_⟩
  · intro k hk
    cases hk
    rw [hsyncobjs]
    exact Nat.one_pos
  -- the slot was far beyond the number before
  have hlast : 0 < (m'.fenceState.slots.entry 0).last := by
    rw [hstate, FenceState.last_submit]
    exact h.passed (by decide)
  have hsignalled : Syncobj.signalled m'.fenceState.slots ⟨0, 0⟩ = true := by
    rw [Syncobj.signalled_eq]
    exact decide_eq_true hlast
  have hstate'' := updateSyncobj_fenceState he
  show m''.fenceState.syncobjs = _
  rw [hstate'', FenceState.update, hsyncobjs']
  show [Syncobj.prune { id := 1, fences := [⟨0, 0⟩] } m'.fenceState.slots] = _
  rw [Syncobj.prune, List.filter_cons_of_neg (by rw [hsignalled]; decide), List.filter_nil]

end Willing

/-- The fences after an update are not exact in every run.  Once the numbers of jobs have started again, a
syncobj loses the fence of an atom that is not done. -/
theorem fence_lost_after_wrap : ¬∀ (m₀ m : Machine Willing) (acts : List FenceAction) (k : Nat),
    Blank m₀ → FenceRun m₀ acts m → k < m.device.syncobjs.length →
      ∃ m' o, (Device.updateSyncobj k).exec m = (.ok (), m') ∧ m'.device.syncobjs[k]? = some o ∧
        ∀ number : UInt8, (∃ f ∈ o.fences, f.slot = number.toUInt32) ↔
          ∃ atom ∈ outstanding acts, latest k number acts = some atom := by
  intro hexact
  obtain ⟨acts, m, hdrained⟩ := Willing.exists_drained (2 ^ 64)
  obtain ⟨atom, m', hrun, hnumber, hlength, hlost⟩ := hdrained.lost
  obtain ⟨m'', o, he, ho, hfences⟩ := hexact Willing.start m' _ 0 Willing.blank_start hrun
    (Nat.lt_of_lt_of_eq Nat.one_pos hlength.symm)
  rw [hlost m'' he] at ho
  cases ho
  obtain ⟨f, hf, -⟩ := (hfences 0).mpr ⟨atom, List.mem_cons_self, if_pos ⟨rfl, hnumber⟩⟩
  cases hf

end Mali
