import Mali.Device.Events
import Mali.Device.Job
import Mali.Proofs.Marks
import Mali.Proofs.Progress

/-!
# Atoms in flight

On a job manager device an atom is in flight from the moment its handles are marked until its event was
handled.  The use count of a handle is the number of times that atoms in flight list it.  This is what
makes sure that handling an event never releases more than was used, whatever the kernel reports.

A job manager device binds no stream, so no callback ever waits on one of its slots and nothing that is
released has to wait.  Event slots still count the work of each atom number.

* `Balanced`, `Balanced.accept`, `Balanced.refuse`, `Balanced.retire`: use counts are right.
* `JobState`, `Beside`: the part of a machine that atoms and buffers depend on, and what leaves it alone.
* `submitJob_cases`, `handleJobEvent_ok`: what submitting an atom and handling an event do.
* `exec_handleEvents`: handling events returns.
-/

namespace Mali

open Op

/-! ## Counting uses -/

/-- How often atoms in flight list a handle. -/
def flightCount (fs : List (UInt8 × List Int)) (k : Nat) : Nat := (fs.flatMap (·.2)).count (k : Int)

section flightCount

variable {fs : List (UInt8 × List Int)}

theorem flightCount_cons (f : UInt8 × List Int) (k : Nat) :
    flightCount (f :: fs) k = f.2.count (k : Int) + flightCount fs k := by
  rw [flightCount, List.flatMap_cons, List.count_append, ← flightCount]

theorem flightCount_append_singleton (f : UInt8 × List Int) (k : Nat) :
    flightCount (fs ++ [f]) k = flightCount fs k + f.2.count (k : Int) := by
  rw [flightCount, List.flatMap_append, List.count_append, ← flightCount, List.flatMap_singleton]

theorem flightCount_pos {k : Nat} {f : UInt8 × List Int} (hf : f ∈ fs) (hk : (k : Int) ∈ f.2) :
    0 < flightCount fs k :=
  List.count_pos_iff.mpr (List.mem_flatMap.mpr ⟨f, hf, hk⟩)

theorem lookup_eq_none_iff {n : UInt8} : fs.lookup n = none ↔ n ∉ fs.map (·.1) := by
  rw [List.lookup_eq_none_iff]
  constructor
  · intro h hn
    obtain ⟨f, hf, rfl⟩ := List.mem_map.mp hn
    exact absurd (h f hf) (by simp)
  · intro h f hf
    have : n ≠ f.1 := fun hn => h (hn ▸ List.mem_map_of_mem hf)
    simpa using this

/-- An atom with a number that no other has is all that goes when the number is forgotten. -/
theorem flightCount_filter {n : UInt8} (hnodup : (fs.map (·.1)).Nodup) (k : Nat) :
    flightCount (fs.filter (·.1 ≠ n)) k + ((fs.lookup n).getD []).count (k : Int) =
      flightCount fs k := by
  induction fs with
  | nil => rfl
  | cons f fs ih =>
    obtain ⟨a, hs⟩ := f
    rw [List.map_cons, List.nodup_cons] at hnodup
    rw [flightCount_cons]
    rcases eq_or_ne a n with rfl | hne
    · have hrest : fs.filter (·.1 ≠ a) = fs := by
        rw [List.filter_eq_self]
        intro f hf
        have : f.1 ≠ a := fun ha => hnodup.1 (List.mem_map.mpr ⟨f, hf, ha⟩)
        simpa using this
      rw [List.filter_cons_of_neg (by simp), hrest, List.lookup_cons_self, Option.getD_some]
      exact Nat.add_comm _ _
    · rw [List.filter_cons_of_pos (by simpa using hne), flightCount_cons, List.lookup_cons]
      rw [beq_false_of_ne hne.symm]
      have := ih hnodup.2
      simp only
      omega

end flightCount

/-! ## Balanced tables -/

/-- Every atom in flight has a number of its own, and handles that are in the table; and use counts are
the number of uses. -/
structure Balanced (t : HandleTable) (fs : List (UInt8 × List Int)) : Prop where
  numbers : (fs.map (·.1)).Nodup
  inside : ∀ f ∈ fs, ∀ i ∈ f.2, ∃ k : Nat, i = (k : Int) ∧ k < t.entries.length
  uses : ∀ (k : Nat) (e : Handle), t.entries[k]? = some e → e.useCount.toNat = flightCount fs k

/-- A table with an entry changed in place. -/
theorem HandleTable.length_of_map {t t' : HandleTable} {f : Nat → Handle → Handle}
    (h : ∀ k, t'.entries[k]? = (t.entries[k]?).map (f k)) : t'.entries.length = t.entries.length := by
  have hnone : ∀ k, t'.entries.length ≤ k ↔ t.entries.length ≤ k := by
    intro k
    rw [← List.getElem?_eq_none_iff, ← List.getElem?_eq_none_iff, h k, Option.map_eq_none_iff]
  exact Nat.le_antisymm ((hnone _).mpr (Nat.le_refl _)) ((hnone _).mp (Nat.le_refl _))

namespace Balanced

variable {t t' : HandleTable} {fs : List (UInt8 × List Int)} {n : UInt8} {hs : List Int}
  {slot : JobSlot} {marked : HandleTable.Marked}

theorem empty : Balanced {} [] := by
  refine ⟨List.nodup_nil, fun f hf => absurd hf List.not_mem_nil, fun k e he => ?_⟩
  rw [show ({} : HandleTable).entries = [] from rfl, List.getElem?_nil] at he
  cases he

/-- An atom with a new number takes off. -/
theorem accept (h : Balanced t fs) (hn : fs.lookup n = none)
    (hm : t.markUsed hs slot n = .ok marked) : Balanced marked.table (fs ++ [(n, hs)]) := by
  obtain ⟨hinside, hentries, hsum⟩ := HandleTable.markAll_ok hm
  have hlength := HandleTable.length_of_map hentries
  refine ⟨?_, fun f hf => ?_, fun k e he => ?_⟩
  · rw [List.map_append, List.nodup_append]
    refine ⟨h.numbers, List.nodup_singleton _, fun a ha b hb => ?_⟩
    obtain rfl := List.mem_singleton.mp hb
    exact fun hab => lookup_eq_none_iff.mp hn (hab ▸ ha)
  · rw [hlength]
    rcases List.mem_append.mp hf with hf | hf
    · exact h.inside f hf
    · obtain rfl := List.mem_singleton.mp hf
      exact hinside
  · rw [hentries k, Option.map_eq_some_iff] at he
    obtain ⟨e₀, he₀, rfl⟩ := he
    rw [flightCount_append_singleton, ← h.uses k e₀ he₀]
    exact Handle.toNat_mark_useCount (hsum k e₀ he₀)

/-- An atom, in flight or not, is done with its handles. -/
theorem retire (h : Balanced t fs) (n : UInt8) :
    ∃ t', t.release ((fs.lookup n).getD []) = .ok t' ∧ Balanced t' (fs.filter (·.1 ≠ n)) ∧
      ∀ k : Nat, t'.entries[k]? =
        (t.entries[k]?).map (·.unmark (((fs.lookup n).getD []).count (k : Int))) := by
  have hcount : ∀ (k : Nat) (e : Handle), t.entries[k]? = some e →
      flightCount (fs.filter (·.1 ≠ n)) k + ((fs.lookup n).getD []).count (k : Int) =
        e.useCount.toNat := fun k e he => by rw [flightCount_filter h.numbers, h.uses k e he]
  have hcovered : ∀ (k : Nat) (e : Handle), t.entries[k]? = some e →
      ((fs.lookup n).getD []).count (k : Int) ≤ e.useCount.toNat := fun k e he => by
    have := hcount k e he
    omega
  obtain ⟨t', hrelease, hentries⟩ := HandleTable.release_ok hcovered
  refine ⟨t', hrelease, ⟨?_, fun f hf => ?_, fun k e he => ?_⟩, hentries⟩
  · exact h.numbers.sublist (List.filter_sublist.map _)
  · rw [HandleTable.length_of_map hentries]
    exact h.inside f (List.mem_filter.mp hf).1
  · rw [hentries k, Option.map_eq_some_iff] at he
    obtain ⟨e₀, he₀, rfl⟩ := he
    have := hcount k e₀ he₀
    rw [Handle.toNat_unmark_useCount (by omega)]
    omega

/-- A flight that was just added is the one that its number finds, and forgetting the number undoes the
addition. -/
theorem lookup_append (hn : fs.lookup n = none) :
    (fs ++ [(n, hs)]).lookup n = some hs ∧ (fs ++ [(n, hs)]).filter (·.1 ≠ n) = fs := by
  constructor
  · rw [List.lookup_append, hn, Option.none_or, List.lookup_cons_self]
  · rw [List.filter_append, List.filter_cons_of_neg (by simp), List.filter_nil, List.append_nil,
      List.filter_eq_self]
    intro f hf
    have : f.1 ≠ n := fun ha => lookup_eq_none_iff.mp hn (List.mem_map.mpr ⟨f, hf, ha⟩)
    simpa using this

/-- An atom that the kernel refuses gives its handles back.  What it left on them stays. -/
theorem refuse (h : Balanced t fs) (hn : fs.lookup n = none)
    (hm : t.markUsed hs slot n = .ok marked) :
    ∃ t', marked.table.release hs = .ok t' ∧ Balanced t' fs ∧
      ∀ k : Nat, t'.entries[k]? = (t.entries[k]?).map fun e =>
        (e.mark slot n (hs.count (k : Int))).unmark (hs.count (k : Int)) := by
  obtain ⟨hlookup, hfilter⟩ : (fs ++ [(n, hs)]).lookup n = some hs ∧
      (fs ++ [(n, hs)]).filter (·.1 ≠ n) = fs := lookup_append hn
  obtain ⟨t', hrelease, hbalanced, hentries⟩ := (h.accept hn hm).retire n
  rw [hlookup, Option.getD_some] at hrelease hentries
  rw [hfilter] at hbalanced
  refine ⟨t', hrelease, hbalanced, fun k => ?_⟩
  rw [hentries k, (HandleTable.markAll_ok hm).2.1 k, Option.map_map]
  rfl

/-- A new entry takes the first free place, which no atom in flight uses. -/
theorem alloc (h : Balanced t fs) (va : UInt64) (fd : Int) (hfree : flightCount fs t.freeIndex = 0) :
    Balanced (t.alloc va fd).2 fs := by
  unfold HandleTable.alloc
  refine ⟨h.numbers, fun f hf i hi => ?_, fun k e he => ?_⟩
  · obtain ⟨k, rfl, hk⟩ := h.inside f hf i hi
    refine ⟨k, rfl, ?_⟩
    dsimp only
    split
    · rwa [List.length_set]
    · rw [List.length_append]
      exact Nat.lt_add_right _ hk
  · dsimp only at he
    rcases eq_or_ne t.freeIndex k with rfl | hk
    · have hnew : e.useCount = 0 := by
        split at he
        · rename_i hlt
          rw [List.getElem?_set_self hlt] at he
          cases he
          rfl
        · rename_i hge
          rw [List.getElem?_append_right (Nat.le_of_not_lt hge)] at he
          rw [List.mem_singleton.mp (List.mem_of_getElem? he)]
      rw [hnew, hfree]
      rfl
    · refine h.uses k e ?_
      split at he
      · rwa [List.getElem?_set_ne hk] at he
      · rename_i hge
        have hend : t.freeIndex = t.entries.length :=
          Nat.le_antisymm List.findIdx_le_length (Nat.le_of_not_lt hge)
        have hlt : k < t.entries.length := by
          have := (List.getElem?_eq_some_iff.mp he).1
          rw [List.length_append, List.length_singleton] at this
          omega
        rwa [List.getElem?_append_left hlt] at he

end Balanced

/-! ## What atoms and buffers depend on -/

variable {κ : Type}

/-- The part of a job manager device that atoms and buffers depend on. -/
structure JobState where
  generation : Generation
  bound : Nat
  table : HandleTable
  /-- The atoms in flight with their handles. -/
  flights : List (UInt8 × List Int)
  /-- The number of the next atom. -/
  next : UInt8
  storage : Storage

/-- The job state of a machine. -/
def Machine.jobState (m : Machine κ) : JobState where
  generation := m.device.generation
  bound := m.device.bound
  table := m.device.handles
  flights := m.device.inFlight
  next := m.device.atomNumber
  storage := m.storage

/-- No callback waits on a slot. -/
def Machine.NoLinks (m : Machine κ) : Prop := ∀ i, (m.progress.slots.entry i).links = []

/-- Without links, nothing happens to the job state, and no link appears. -/
def Beside (m m' : Machine κ) : Prop := m.NoLinks → m'.NoLinks ∧ m'.jobState = m.jobState

namespace Beside

theorem refl (m : Machine κ) : Beside m m := fun h => ⟨h, rfl⟩

theorem trans {m₁ m₂ m₃ : Machine κ} (h₁ : Beside m₁ m₂) (h₂ : Beside m₂ m₃) : Beside m₁ m₃ := by
  intro h
  obtain ⟨hl, hs⟩ := h₁ h
  obtain ⟨hl', hs'⟩ := h₂ hl
  exact ⟨hl', hs'.trans hs⟩

/-- A change that touches neither the device nor the allocator. -/
theorem of_eq {m m' : Machine κ} (hd : m'.device = m.device) (ha : m'.allocator = m.allocator) :
    Beside m m' := by
  intro h
  refine ⟨?_, ?_⟩
  · rwa [Machine.NoLinks, Machine.progress, hd]
  · simp only [Machine.jobState, Machine.storage, hd, ha]

instance : Inward (Beside (κ := κ)) where
  refl := refl
  trans := trans
  of_eq hd ha _ _ := of_eq hd ha

end Beside

@[grind ←] theorem beside_fenceSyncobj (o : Option Nat) (slot : UInt32) (value : UInt64) :
    Keeps (Beside (κ := κ)) (Device.fenceSyncobj o slot value) := by
  cases o with
  | none => exact keeps_pure ()
  | some id => exact keeps_modify fun m h => ⟨h, rfl⟩

/-! ### Slots without links -/

theorem exec_slot {i : Nat} (hi : i < slotCount) (m : Machine κ) :
    (Device.slot i).exec m = (.ok (m.progress.slots.entry i), m) := by
  have hget : m.device.slots.get? (i : Int) = some (m.progress.slots.entry i) := by
    rw [SlotTable.get?_natCast, SlotTable.entry]
    show m.device.slots[i]? = some (m.device.slots[i]?.getD {})
    rw [Vector.getElem?_eq_getElem hi, Option.getD_some]
  unfold Device.slot
  rw [exec_bind_of_ok (exec_device m), hget, exec_require_some]

@[grind ←] theorem faultless_submitSlot (index : Int) (seqnum : UInt64) :
    Faultless (Device.submitSlot index seqnum : Op κ Unit) := by
  unfold Device.submitSlot Device.slot Device.setSlot
  grind

theorem beside_setSlot {i : Nat} {s : EventSlot} (hs : s.links = []) :
    Keeps (Beside (κ := κ)) (Device.setSlot i s) := by
  refine keeps_modify fun m hm => ⟨fun j => ?_, rfl⟩
  show ((m.progress.slots.put i s).entry j).links = []
  by_cases hi : i < slotCount
  · rw [SlotTable.entry_put _ hi]
    split
    · exact hs
    · exact hm j
  · rw [SlotTable.put, Vector.setIfInBounds_eq_of_size_le (Nat.le_of_not_lt hi)]
    exact hm j

@[grind ←] theorem beside_submitSlot (index : Int) (seqnum : UInt64) :
    Keeps (Beside (κ := κ)) (Device.submitSlot index seqnum) := by
  intro m hs hm
  obtain ⟨u, he⟩ := (show Faultless _ from (faultless_submitSlot index seqnum)).ok hs
  rw [Device.submitSlot] at he
  obtain ⟨-, -, hset⟩ := bind_slot_ok he
  refine (beside_setSlot ?_).ok hset hm
  rw [EventSlot.submit]
  split
  · exact hm _
  · exact hm _

theorem EventSlot.advance_of_links {s : EventSlot} (h : s.links = []) (n : UInt64) :
    (s.advance n).1 = [] ∧ (s.advance n).2.links = [] := by
  unfold EventSlot.advance
  split
  · exact ⟨rfl, h⟩
  · simp [EventSlot.take, h]

/-- A slot without links whose progress is limited keeps its rule. -/
theorem EventSlot.check_advance {s : EventSlot} (h : s.links = []) {n : UInt64}
    (hn : ¬s.isBackward n = true) : (s.advance n).2.check = none := by
  unfold EventSlot.advance
  rw [if_neg hn]
  have hle : ¬s.lastSubmit < s.limit n := by
    unfold EventSlot.limit
    split
    · exact UInt64.lt_irrefl _
    · assumption
  simp [EventSlot.take, h, EventSlot.check, hle, EventSlot.firstDisorder]

@[grind ←] theorem returns_traceReady (index : Int) (seqnum : UInt64) (ready : List Callback) :
    Returns (Device.traceReady index seqnum ready : Op κ Unit) := by
  unfold Device.traceReady
  grind

/-- A report takes callbacks off a slot that keeps its rule. -/
theorem exec_advanceSlot_of_check {m : Machine κ} {i : Nat} (hi : i < slotCount) (n : UInt64)
    (hcheck : ¬(m.progress.slots.entry i).isBackward n = true →
      ((m.progress.slots.entry i).advance n).2.check = none) :
    ∃ m', (Device.advanceSlot i n).exec m = (.ok ((m.progress.slots.entry i).advance n).1, m') ∧ Beside m m' := by
  unfold Device.advanceSlot
  rw [exec_bind_of_ok (exec_slot hi m)]
  dsimp only
  split
  · rename_i hback
    obtain ⟨_, m', he⟩ := returns_trace "sequence number went backward" _ m
    rw [exec_bind_of_ok he, EventSlot.advance, if_pos hback]
    exact ⟨m', rfl, (keeps_trace _ _).ok he⟩
  · rename_i hn
    obtain ⟨m₁, hset⟩ : ∃ m₁, (Device.setSlot i ((m.progress.slots.entry i).advance n).2).exec m =
      (.ok (), m₁) := ⟨_, rfl⟩
    obtain ⟨_, m₂, htrace⟩ := returns_traceReady i ((m.progress.slots.entry i).limit n)
      ((m.progress.slots.entry i).advance n).1 m₁
    have hrule : (checkRule fun _ => ((m.progress.slots.entry i).advance n).2.check).exec m₂ =
        (.ok (), m₂) := exec_checkRule (hcheck hn)
    rw [Int.toNat_natCast, exec_bind_of_ok hset, exec_bind_of_ok htrace, exec_bind_of_ok hrule]
    refine ⟨m₂, rfl, fun hm => ?_⟩
    have hlinks := (EventSlot.advance_of_links (hm i) n).2
    exact (((beside_setSlot hlinks).ok hset).trans ((keeps_traceReady _ _ _).ok htrace)) hm

/-- A report on a slot without links takes no callback. -/
theorem exec_advanceSlot {m : Machine κ} (hm : m.NoLinks) {i : Nat} (hi : i < slotCount) (n : UInt64) :
    ∃ m', (Device.advanceSlot i n).exec m = (.ok [], m') ∧ Beside m m' := by
  obtain ⟨m', he, hbeside⟩ := exec_advanceSlot_of_check hi n fun hn => EventSlot.check_advance (hm i) hn
  rw [(EventSlot.advance_of_links (hm i) n).1] at he
  exact ⟨m', he, hbeside⟩

theorem exec_advance {m : Machine κ} [Kernel κ] (hm : m.NoLinks) (atom : UInt8) (n : UInt64) :
    ∃ m', (Device.advance atom.toNat n).exec m = (.ok (), m') ∧ Beside m m' := by
  obtain ⟨m', he, hbeside⟩ := exec_advanceSlot hm (i := atom.toNat) atom.toNat_lt n
  refine ⟨m', ?_, hbeside⟩
  rw [Device.advance, exec_bind_of_ok he]
  rfl

/-! ## Events -/

/-- The handles of an atom in flight. -/
def JobState.handles (s : JobState) (atom : UInt8) : List Int := (s.flights.lookup atom).getD []

/-- An atom is no longer in flight, and its handles in the table are released. -/
def JobState.retire (s : JobState) (atom : UInt8) (t : HandleTable) : JobState :=
  { s with table := t, flights := s.flights.filter (·.1 ≠ atom) }

theorem exec_retireAtom {m : Machine κ} {atom : UInt8} {t : HandleTable}
    (ht : m.jobState.table.release (m.jobState.handles atom) = .ok t) :
    ∃ m', (Device.retireAtom atom).exec m = (.ok (), m') ∧ m'.progress = m.progress ∧
      m'.jobState = m.jobState.retire atom t := by
  unfold Device.retireAtom
  rw [exec_bind_of_ok (exec_device m)]
  have hrelease : m.device.handles.release (m.device.atomHandles atom) = .ok t := ht
  rw [hrelease]
  exact ⟨_, rfl, rfl, rfl⟩

/-- An atom is retired only if its handles can be released. -/
theorem retireAtom_ok {m m' : Machine κ} {atom : UInt8} {u : Unit}
    (he : (Device.retireAtom atom).exec m = (.ok u, m')) :
    ∃ t, m.jobState.table.release (m.jobState.handles atom) = .ok t := by
  unfold Device.retireAtom at he
  rw [exec_bind_of_ok (exec_device m)] at he
  split at he
  · cases he
  · rename_i t ht
    exact ⟨t, ht⟩

section Kernel

variable [Kernel κ]

/-- Handling an event returns if the handles of its atom can be released, and retires the atom. -/
theorem exec_handleJobEvent {m : Machine κ} (hm : m.NoLinks) {e : JobEvent} {t : HandleTable}
    (ht : m.jobState.table.release (m.jobState.handles e.atom) = .ok t) :
    ∃ fine m', (Device.handleJobEvent e).exec m = (.ok fine, m') ∧ m'.NoLinks ∧
      m'.jobState = m.jobState.retire e.atom t := by
  have hrest : ∀ m₁ : Machine κ, Beside m m₁ → ∃ m', (do
      Device.retireAtom e.atom
      Device.advance e.atom.toNat (e.seqnum + 1)
      return decide (e.code = JobEvent.done) : Op κ Bool).exec m₁ =
        (.ok (decide (e.code = JobEvent.done)), m') ∧ m'.NoLinks ∧
          m'.jobState = m.jobState.retire e.atom t := by
    intro m₁ h₁
    obtain ⟨hlinks₁, hstate₁⟩ := h₁ hm
    obtain ⟨m₂, hretire, hprogress, hstate₂⟩ := exec_retireAtom (hstate₁ ▸ ht)
    have hlinks₂ : m₂.NoLinks := by rwa [Machine.NoLinks, hprogress]
    obtain ⟨m₃, hadvance, hbeside⟩ := exec_advance hlinks₂ e.atom (e.seqnum + 1)
    obtain ⟨hlinks₃, hstate₃⟩ := hbeside hlinks₂
    refine ⟨m₃, ?_, hlinks₃, ?_⟩
    · rw [exec_bind_of_ok hretire, exec_bind_of_ok hadvance]
      rfl
    · rw [hstate₃, hstate₂, hstate₁]
  unfold Device.handleJobEvent
  dsimp only
  split
  · obtain ⟨_, m₁, herror⟩ := returns_error "atom reported an event"
      [("atom", toString e.atom), ("event", toString e.code)] m
    obtain ⟨m', he, h⟩ := hrest m₁ ((keeps_error _ _).ok herror)
    rw [exec_bind_of_ok herror]
    exact ⟨_, m', he, h⟩
  · obtain ⟨m', he, h⟩ := hrest m (.refl m)
    exact ⟨_, m', he, h⟩

/-- The handles of the atom of an event that was handled could be released. -/
theorem handleJobEvent_ok {m m' : Machine κ} (hm : m.NoLinks) {e : JobEvent} {fine : Bool}
    (he : (Device.handleJobEvent e).exec m = (.ok fine, m')) :
    ∃ t, m.jobState.table.release (m.jobState.handles e.atom) = .ok t ∧ m'.NoLinks ∧
      m'.jobState = m.jobState.retire e.atom t := by
  have hrelease : ∃ t, m.jobState.table.release (m.jobState.handles e.atom) = .ok t := by
    have hrest : ∀ m₁ : Machine κ, Beside m m₁ → ∀ {fine' : Bool}, (do
        Device.retireAtom e.atom
        Device.advance e.atom.toNat (e.seqnum + 1)
        return fine' : Op κ Bool).exec m₁ = (.ok fine, m') →
          ∃ t, m.jobState.table.release (m.jobState.handles e.atom) = .ok t := by
      intro m₁ h₁ fine' he
      obtain ⟨_, m₂, hretire, -⟩ := bind_ok he
      have hstate := (h₁ hm).2
      exact hstate ▸ retireAtom_ok hretire
    unfold Device.handleJobEvent at he
    dsimp only at he
    split at he
    · obtain ⟨_, m₁, herror, he⟩ := bind_ok he
      exact hrest m₁ ((keeps_error _ _).ok herror) he
    · exact hrest m (.refl m) he
  obtain ⟨t, ht⟩ := hrelease
  obtain ⟨fine', m₁, he', hlinks, hstate⟩ := exec_handleJobEvent hm ht
  rw [he'] at he
  cases he
  exact ⟨t, ht, hlinks, hstate⟩

/-! ## Passes over the events -/

@[grind ←] theorem returns_readRecord (size : Nat) :
    Returns (Device.readRecord size : Op κ (Except Bool (List UInt8))) := by
  unfold Device.readRecord
  grind

/-- What a pass over the events does: events are handled, with nothing that matters in between. -/
inductive Handles : Machine κ → List JobEvent → Machine κ → Prop
  | nil (m : Machine κ) : Handles m [] m
  | beside {m m₁ m' : Machine κ} {es : List JobEvent} (h : Beside m m₁) (hr : Handles m₁ es m') :
    Handles m es m'
  | event {m m₁ m' : Machine κ} {e : JobEvent} {es : List JobEvent} {fine : Bool}
    (he : (Device.handleJobEvent e).exec m = (.ok fine, m₁)) (hr : Handles m₁ es m') :
    Handles m (e :: es) m'

/-- By induction on the fuel. -/
theorem handleJobEvents_ok {fuel : Nat} {fine ok : Bool} {m m' : Machine κ}
    (he : (Device.handleJobEvents fuel fine).exec m = (.ok ok, m')) : ∃ es, Handles m es m' := by
  induction fuel generalizing fine m with
  | zero =>
    cases he
    exact ⟨[], .nil _⟩
  | succ fuel ih =>
    unfold Device.handleJobEvents at he
    obtain ⟨r, m₁, hread, he⟩ := bind_ok he
    have hbeside := (keeps_readRecord (R := Beside) _).ok hread
    split at he
    · cases he
      exact ⟨[], .beside hbeside (.nil _)⟩
    · cases he
      exact ⟨[], .beside hbeside (.nil _)⟩
    · obtain ⟨fine', m₂, hevent, he⟩ := bind_ok he
      obtain ⟨es, hes⟩ := ih he
      exact ⟨_, .beside hbeside (.event hevent hes)⟩

theorem handleEvents_handles {m m' : Machine κ} (hm : m.device.generation ≠ .csf) {ok : Bool}
    (he : Device.handleEvents.exec m = (.ok ok, m')) : ∃ es, Handles m es m' := by
  unfold Device.handleEvents at he
  rw [exec_bind_of_ok (exec_device m)] at he
  cases hg : m.device.generation with
  | csf => exact absurd hg hm
  | old =>
    rw [hg] at he
    exact handleJobEvents_ok he
  | jm =>
    rw [hg] at he
    exact handleJobEvents_ok he

/-- Passes return as long as use counts are right, whatever the kernel reports.  By induction on the
fuel: use counts are right again after each event. -/
theorem exec_handleJobEvents {fuel : Nat} {fine : Bool} {m : Machine κ} (hm : m.NoLinks)
    (hb : Balanced m.jobState.table m.jobState.flights) :
    ∃ ok m', (Device.handleJobEvents fuel fine).exec m = (.ok ok, m') := by
  induction fuel generalizing fine m with
  | zero => exact ⟨fine, m, rfl⟩
  | succ fuel ih =>
    unfold Device.handleJobEvents
    obtain ⟨r, m₁, hread⟩ := returns_readRecord JobEvent.size m
    obtain ⟨hlinks₁, hstate₁⟩ := (keeps_readRecord (R := Beside) _).ok hread hm
    rw [exec_bind_of_ok hread]
    match r with
    | .error true => exact ⟨fine, m₁, rfl⟩
    | .error false => exact ⟨false, m₁, rfl⟩
    | .ok bytes =>
      rw [← hstate₁] at hb
      obtain ⟨t, ht, hbalanced, -⟩ := hb.retire (JobEvent.decode bytes).atom
      obtain ⟨fine', m₂, hevent, hlinks₂, hstate₂⟩ := exec_handleJobEvent hlinks₁ ht
      dsimp only
      rw [exec_bind_of_ok hevent]
      refine ih hlinks₂ ?_
      rw [hstate₂]
      exact hbalanced

theorem exec_handleEvents {m : Machine κ} (hg : m.device.generation ≠ .csf) (hm : m.NoLinks)
    (hb : Balanced m.jobState.table m.jobState.flights) :
    ∃ ok m', Device.handleEvents.exec m = (.ok ok, m') := by
  unfold Device.handleEvents
  rw [exec_bind_of_ok (exec_device m)]
  cases hgen : m.device.generation with
  | csf => exact absurd hgen hg
  | old => exact exec_handleJobEvents hm hb
  | jm => exact exec_handleJobEvents hm hb

/-! ## Submitting -/

/-- The atom that a system call queues. -/
def Syscall.atom? : Syscall → Option Atom
  | .ioctl _ (.jobSubmit atom) => some atom
  | .ioctl _ (.old _ (.jobSubmit atom)) => some atom
  | _ => none

/-- The last atom that the kernel was asked to queue. -/
def Machine.sentAtom? (m : Machine κ) : Option Atom := m.calls.findSome? (·.call.atom?)

/-- An atom takes off, or is refused: the table with its marks, and who is in flight afterwards. -/
def JobState.submit (s : JobState) (t : HandleTable) (fs : List (UInt8 × List Int)) : JobState :=
  { s with table := t, flights := fs, next := s.next + 1 }

@[grind ←] theorem keeps_submitAtom {R : Machine κ → Machine κ → Prop} [Tolerant R] (atom : Atom) :
    Keeps R (Interface.submitAtom atom) := by
  unfold Interface.submitAtom Interface.unsupported
  grind

/-- An atom that was accepted was sent. -/
theorem submitAtom_ok {m m' : Machine κ} {atom : Atom} {u : Unit}
    (he : (Interface.submitAtom atom).exec m = (.ok u, m')) : m'.sentAtom? = some atom := by
  have hrequest : ∀ {name : String} {r : Ioctl} {reply : r.Reply} {m₁ : Machine κ},
      (∀ fd, (Syscall.ioctl fd r).atom? = some atom) →
        (Interface.request name r).exec m = (.ok reply, m₁) → m₁.sentAtom? = some atom := by
    intro name r reply m' hr he
    unfold Interface.request at he
    rw [exec_bind_of_ok (exec_device m)] at he
    obtain ⟨answer, m₁, hcall, he⟩ := bind_ok he
    split at he
    · cases he
      rw [exec_call] at hcall
      obtain ⟨-, rfl⟩ := Prod.mk.inj hcall
      rw [Machine.sentAtom?, List.findSome?_cons, hr]
    · obtain ⟨_, m₂, -, he⟩ := bind_ok he
      cases he
  unfold Interface.submitAtom at he
  rw [exec_bind_of_ok (exec_device m)] at he
  split at he
  · unfold Interface.oldRequest at he
    obtain ⟨reply, m₁, hreply, he⟩ := bind_ok he
    split at he
    · cases he
      exact hrequest (fun _ => rfl) hreply
    · obtain ⟨_, m₂, -, he⟩ := bind_ok he
      cases he
  · exact hrequest (fun _ => rfl) he
  · cases he

omit [Kernel κ] in
theorem markAtom_ok {m m' : Machine κ} {number : UInt8} {slot : JobSlot} {handles : List Int}
    {marked : HandleTable.Marked}
    (he : (Device.markAtom number slot handles).exec m = (.ok marked, m')) :
    m.jobState.flights.lookup number = none ∧
      m.jobState.table.markUsed handles slot number = .ok marked ∧
      m'.progress = m.progress ∧
      m'.jobState = { m.jobState with
        table := marked.table, flights := m.jobState.flights ++ [(number, handles)] } := by
  unfold Device.markAtom at he
  rw [exec_bind_of_ok (exec_device m)] at he
  dsimp only at he
  cases hlookup : m.device.inFlight.lookup number with
  | some handles' =>
    rw [hlookup, if_pos (by rfl), exec_bind, exec_violate] at he
    cases he
  | none =>
    rw [hlookup, if_neg (by simp)] at he
    obtain ⟨_, m₁, hset, he⟩ := bind_ok he
    cases hset
    cases hmarked : m.device.handles.markUsed handles slot number with
    | error c =>
      rw [hmarked] at he
      cases he
    | ok marked' =>
      rw [hmarked] at he
      cases he
      exact ⟨hlookup, hmarked, rfl, rfl⟩

omit [Kernel κ] in
theorem faultless_retireAtom (atom : UInt8) : Faultless (Device.retireAtom atom : Op κ Unit) := by
  unfold Device.retireAtom
  grind

omit [Kernel κ] in
theorem faultless_nextAtom : Faultless (Device.nextAtom : Op κ (UInt8 × UInt64)) := by
  unfold Device.nextAtom
  grind

omit [Kernel κ] in
theorem faultless_markAtom (number : UInt8) (slot : JobSlot) (handles : List Int) :
    Faultless (Device.markAtom number slot handles : Op κ HandleTable.Marked) := by
  unfold Device.markAtom Device.setHandles
  grind

omit [Kernel κ] in
theorem faultless_fenceSyncobj (o : Option Nat) (slot : UInt32) (value : UInt64) :
    Faultless (Device.fenceSyncobj o slot value : Op κ Unit) := by
  cases o with
  | none => exact faultless_pure ()
  | some id => exact faultless_modifyDevice _

/-- Submitting an atom marks its handles.  If the kernel accepts the atom it stays in flight, and if the
kernel refuses it the handles are released again.  Anything else stops for good. -/
theorem submitJob_cases {m m' : Machine κ} {va : UInt64} {requirements : UInt32} {o : Option Nat}
    {handles : List Int} {r : Except Halt UInt8} (hm : m.NoLinks)
    (he : (Device.submitJob va requirements o handles).exec m = (r, m')) (hr : Survives r) :
    ∃ marked, m.jobState.flights.lookup m.jobState.next = none ∧
      m.jobState.table.markUsed handles (Device.jobSlot requirements) m.jobState.next = .ok marked ∧
      m'.NoLinks ∧
      ((r = .ok m.jobState.next ∧
          m'.jobState = m.jobState.submit marked.table
            (m.jobState.flights ++ [(m.jobState.next, handles)]) ∧
          ∃ seqnum, m'.sentAtom? = some (.ofMarked va seqnum (Device.jobSlot requirements)
            m.jobState.next marked)) ∨
        ∃ f t, r = .error (.fault f) ∧ marked.table.release handles = .ok t ∧
          m'.jobState = m.jobState.submit t m.jobState.flights) := by
  unfold Device.submitJob at he
  obtain ⟨_, m₁, hdebug, he⟩ := (faultless_debug _ _).bind_survives he hr
  obtain ⟨hlinks₁, hstate₁⟩ := (keeps_debug (R := Beside) _ _).ok hdebug hm
  obtain ⟨⟨number, seqnum⟩, m₂, hnext, he⟩ := faultless_nextAtom.bind_survives he hr
  cases hnext
  obtain ⟨marked, m₃, hmark, he⟩ := (faultless_markAtom _ _ _).bind_survives he hr
  obtain ⟨hlookup₂, hmarked₂, hprogress, hstate₃⟩ := markAtom_ok hmark
  have hlookup : m.jobState.flights.lookup m.jobState.next = none := by
    rw [← hstate₁]
    exact hlookup₂
  have hmarked : m.jobState.table.markUsed handles (Device.jobSlot requirements) m.jobState.next =
      .ok marked := by
    rw [← hstate₁]
    exact hmarked₂
  have hnumber : m₁.device.atomNumber = m.jobState.next := congrArg JobState.next hstate₁
  have hlinks₃ : m₃.NoLinks := by rwa [Machine.NoLinks, hprogress]
  obtain ⟨_, m₄, hsubmit, he⟩ := (faultless_submitSlot _ _).bind_survives he hr
  obtain ⟨_, m₅, hfence, he⟩ := (faultless_fenceSyncobj _ _ _).bind_survives he hr
  obtain ⟨_, m₆, htrace, he⟩ := (faultless_trace _ _).bind_survives he hr
  obtain ⟨answer, m₇, hanswer, he⟩ := (faultless_attempt _).bind_survives he hr
  have hbeside : Beside m₃ m₇ := (((beside_submitSlot _ _).ok hsubmit).trans
    ((beside_fenceSyncobj _ _ _).ok hfence)).trans
    (((keeps_trace (R := Beside) _ _).ok htrace).trans ((keeps_attempt (keeps_submitAtom _)).ok hanswer))
  obtain ⟨hlinks₇, hstate₇⟩ := hbeside hlinks₃
  have hstate : m₇.jobState = m.jobState.submit marked.table
      (m.jobState.flights ++ [(m.jobState.next, handles)]) := by
    rw [hstate₇, hstate₃, ← hstate₁]
    rfl
  refine ⟨marked, hlookup, hmarked, ?_⟩
  cases answer with
  | ok u =>
    cases he
    rw [hnumber] at hanswer ⊢
    exact ⟨hlinks₇, .inl ⟨rfl, hstate, _, submitAtom_ok (attempt_ok hanswer)⟩⟩
  | error f =>
    obtain ⟨_, m₈, hretire, he⟩ := (faultless_retireAtom _).bind_survives he hr
    cases he
    obtain ⟨t, ht⟩ := retireAtom_ok hretire
    obtain ⟨m₉, hretire', hprogress', hstate'⟩ := exec_retireAtom ht
    rw [hretire'] at hretire
    cases hretire
    obtain ⟨hfind, hforget⟩ : (m.jobState.flights ++ [(m.jobState.next, handles)]).lookup
          m.jobState.next = some handles ∧
        (m.jobState.flights ++ [(m.jobState.next, handles)]).filter (·.1 ≠ m.jobState.next) =
          m.jobState.flights := Balanced.lookup_append hlookup
    rw [hnumber, hstate, JobState.handles, JobState.submit, hfind, Option.getD_some] at ht
    refine ⟨by rwa [Machine.NoLinks, hprogress'], .inr ⟨f, t, rfl, ht, ?_⟩⟩
    rw [hstate', hstate, hnumber, JobState.retire, JobState.submit, hforget]
    rfl

end Kernel

end Mali
