import Mali.Kernel.Bench
import Mali.Proofs.Atoms

/-!
# The order of atoms

Atoms that share a buffer have to run one after the other.  The device keeps, for each handle and each
job slot, the number of the last atom that was submitted there with it.  A new atom waits for the newest
of these numbers among its handles that are in use.

Numbers are bytes, and a refused atom leaves its number behind.  A number therefore stands for the last
atom that was given it, whether the kernel accepted that atom or not, and on whatever slot it ran.  The
atom waited for is never too old.  It is one that the kernel accepted, and on the right slot, if the
last atoms recorded on the handles are still the ones their numbers stand for, and none was refused.

* `Job`, `JobAction`, `jobs`, `flying`, `lastUser`: the history of a device.
* `JobRun`: executions that submit atoms, give out handles and handle events.
* `Tracks`, `JobRun.tracks`: the device follows the history.
* `JobRun.waits_for`: the atom that a new one waits for.
-/

namespace Mali

open Op

/-! ## Histories -/

/-- A job chain that was submitted. -/
structure Job where
  /-- How many were submitted before it. -/
  index : Nat
  slot : JobSlot
  handles : List Int
  /-- Whether the kernel accepted it. -/
  accepted : Bool
  deriving DecidableEq

/-- The atom number of a job. -/
def Job.number (j : Job) : UInt8 := UInt8.ofNat j.index

/-- What happens on a device, as far as atoms are concerned. -/
inductive JobAction where
  | submit (job : Job)
  /-- An event of an atom is handled. -/
  | retire (atom : UInt8)
  deriving DecidableEq

/-- The jobs of a history, newest first as the history is. -/
def jobs : List JobAction → List Job
  | [] => []
  | .submit job :: acts => job :: jobs acts
  | .retire _ :: acts => jobs acts

/-- The jobs that the kernel accepted and no event of which was handled. -/
def flying : List JobAction → List Job
  | [] => []
  | .submit job :: acts => if job.accepted then job :: flying acts else flying acts
  | .retire atom :: acts => (flying acts).filter (·.number ≠ atom)

/-- The last job on a slot that uses a handle. -/
def lastUser (js : List Job) (s : JobSlot) (k : Nat) : Option Job :=
  js.find? fun j => j.slot = s ∧ (k : Int) ∈ j.handles

/-- The number recorded on a handle for a slot. -/
def lastNumber (js : List Job) (s : JobSlot) (k : Nat) : UInt8 :=
  ((lastUser js s k).map Job.number).getD 0

/-- What is recorded on a handle for a slot is a job that the kernel accepted and that its number still
stands for.  Where no job was, the number recorded is that of the first job of all. -/
def Current (js : List Job) (s : JobSlot) (k : Nat) : Prop :=
  match lastUser js s k with
  | some last => last.accepted = true ∧ js.length < last.index + 256
  | none => js.length < 256

theorem flying_subset {acts : List JobAction} {j : Job} (h : j ∈ flying acts) :
    j ∈ jobs acts ∧ j.accepted = true := by
  induction acts with
  | nil => cases h
  | cons a acts ih =>
    cases a with
    | submit job =>
      unfold flying at h
      split at h
      · rename_i haccepted
        rcases List.mem_cons.mp h with rfl | h
        · exact ⟨List.mem_cons_self, haccepted⟩
        · exact ⟨List.mem_cons_of_mem _ (ih h).1, (ih h).2⟩
      · exact ⟨List.mem_cons_of_mem _ (ih h).1, (ih h).2⟩
    | retire atom => exact ih (List.mem_filter.mp h).1

theorem lastUser_cons (job : Job) (js : List Job) (s : JobSlot) (k : Nat) :
    lastUser (job :: js) s k =
      if job.slot = s ∧ (k : Int) ∈ job.handles then some job else lastUser js s k := by
  unfold lastUser
  rw [List.find?_cons]
  by_cases h : job.slot = s ∧ (k : Int) ∈ job.handles
  · simp [h]
  · rw [if_neg h]
    simp [h]

theorem lastNumber_cons (job : Job) (js : List Job) (s : JobSlot) (k : Nat) :
    lastNumber (job :: js) s k =
      if job.slot = s ∧ (k : Int) ∈ job.handles then job.number else lastNumber js s k := by
  rw [lastNumber, lastUser_cons]
  split
  · rfl
  · rfl

theorem lastUser_eq_some {js : List Job} {s : JobSlot} {k : Nat} {j : Job}
    (h : lastUser js s k = some j) : j ∈ js ∧ j.slot = s ∧ (k : Int) ∈ j.handles := by
  have := List.find?_some h
  exact ⟨List.mem_of_find?_eq_some h, by simpa using this⟩

/-- The jobs of a history are numbered in the order they were submitted. -/
inductive Numbered : List Job → Prop
  | nil : Numbered []
  | cons {job : Job} {js : List Job} (h : Numbered js) (hjob : job.index = js.length) :
    Numbered (job :: js)

namespace Numbered

variable {js : List Job}

theorem lt (h : Numbered js) {j : Job} (hj : j ∈ js) : j.index < js.length := by
  induction h with
  | nil => cases hj
  | cons _ hjob ih =>
    rw [List.length_cons]
    rcases List.mem_cons.mp hj with rfl | hj
    · omega
    · have := ih hj
      omega

theorem exists_index (h : Numbered js) {n : Nat} (hn : n < js.length) : ∃ j ∈ js, j.index = n := by
  induction h with
  | nil => exact absurd hn (Nat.not_lt_zero n)
  | @cons job js _ hjob ih =>
    rw [List.length_cons] at hn
    rcases Nat.lt_or_ge n js.length with hlt | hge
    · obtain ⟨j, hj, hindex⟩ := ih hlt
      exact ⟨j, List.mem_cons_of_mem _ hj, hindex⟩
    · exact ⟨job, List.mem_cons_self, by omega⟩

theorem eq_of_index (h : Numbered js) {a b : Job} (ha : a ∈ js) (hb : b ∈ js)
    (hab : a.index = b.index) : a = b := by
  induction h with
  | nil => cases ha
  | cons h hjob ih =>
    rcases List.mem_cons.mp ha with rfl | ha' <;> rcases List.mem_cons.mp hb with rfl | hb'
    · rfl
    · have := h.lt hb'
      omega
    · have := h.lt ha'
      omega
    · exact ih ha' hb'

/-- The last user of a handle is no older than any other one. -/
theorem le_lastUser (h : Numbered js) {s : JobSlot} {k : Nat} {j : Job} (hj : j ∈ js)
    (hslot : j.slot = s) (hk : (k : Int) ∈ j.handles) :
    ∃ last, lastUser js s k = some last ∧ j.index ≤ last.index := by
  induction h with
  | nil => cases hj
  | @cons job js h hjob ih =>
    rw [lastUser_cons]
    split
    · refine ⟨job, rfl, ?_⟩
      rcases List.mem_cons.mp hj with rfl | hj
      · exact Nat.le_refl _
      · have := h.lt hj
        omega
    · rename_i hother
      rcases List.mem_cons.mp hj with rfl | hj
      · exact absurd ⟨hslot, hk⟩ hother
      · exact ih hj

end Numbered

/-! ## The device follows the history -/

variable {κ : Type}

/-- A device without handles or atoms, and without callbacks. -/
structure Unused (m : Machine κ) : Prop where
  links : m.NoLinks
  table : m.jobState.table = {}
  flights : m.jobState.flights = []
  next : m.jobState.next = 0

/-- What a device keeps is what its history says. -/
structure Tracks (acts : List JobAction) (s : JobState) : Prop where
  numbered : Numbered (jobs acts)
  next : s.next = UInt8.ofNat (jobs acts).length
  flights : s.flights = (flying acts).reverse.map fun j => (j.number, j.handles)
  balanced : Balanced s.table s.flights
  live : ∀ e ∈ s.table.entries, e.fd ≠ freedFd
  inside : ∀ j ∈ jobs acts, ∀ i ∈ j.handles, ∃ k : Nat, i = (k : Int) ∧ k < s.table.entries.length
  access : ∀ (k : Nat) (e : Handle), s.table.entries[k]? = some e →
    ∀ slot, e.lastAccess.get slot = lastNumber (jobs acts) slot k
  recent : ∀ j ∈ flying acts, (jobs acts).length ≤ j.index + 256

namespace Tracks

variable {acts : List JobAction} {s : JobState}

/-- The number of an atom in flight is not given out again. -/
theorem lt_index_add (h : Tracks acts s) (hlookup : s.flights.lookup s.next = none) {j : Job}
    (hj : j ∈ flying acts) : (jobs acts).length < j.index + 256 := by
  refine Nat.lt_of_le_of_ne (h.recent j hj) fun heq => ?_
  refine lookup_eq_none_iff.mp hlookup ?_
  rw [h.flights, h.next, heq, List.map_map]
  refine List.mem_map.mpr ⟨j, List.mem_reverse.mpr hj, ?_⟩
  show UInt8.ofNat j.index = UInt8.ofNat (j.index + 256)
  rw [UInt8.ofNat_add]
  exact (UInt8.add_zero _).symm

theorem start {m : Machine κ} (h : Unused m) : Tracks [] m.jobState where
  numbered := .nil
  next := h.next
  flights := h.flights
  balanced := by
    rw [h.table, h.flights]
    exact .empty
  live e he := by
    rw [h.table] at he
    exact absurd he List.not_mem_nil
  inside _ hj := absurd hj List.not_mem_nil
  access k e he := by
    rw [h.table] at he
    exact absurd he (by simp)
  recent _ hj := absurd hj List.not_mem_nil

/-- A new entry is at the end, and no job uses it. -/
theorem alloc (h : Tracks acts s) (va : UInt64) {fd : Int} (hfd : fd ≠ freedFd) :
    Tracks acts { s with table := (s.table.alloc va fd).2 } := by
  have hend : s.table.freeIndex = s.table.entries.length := by
    unfold HandleTable.freeIndex
    rw [List.findIdx_eq_length]
    intro e he
    have := h.live e he
    simpa [HandleTable.isFreed] using this
  have hentries : (s.table.alloc va fd).2.entries = s.table.entries ++ [({ va, fd } : Handle)] := by
    show (if s.table.freeIndex < s.table.entries.length then _ else _) = _
    rw [hend, if_neg (Nat.lt_irrefl _)]
  have hunused : ∀ j ∈ jobs acts, ((s.table.entries.length : Nat) : Int) ∉ j.handles := by
    intro j hj hi
    obtain ⟨k, hk, hlt⟩ := h.inside j hj _ hi
    omega
  have hbalanced : Balanced (s.table.alloc va fd).2 s.flights := by
    refine h.balanced.alloc va fd (Nat.eq_zero_of_not_pos fun hpos => ?_)
    obtain ⟨f, hf, hi⟩ := List.mem_flatMap.mp (List.count_pos_iff.mp hpos)
    obtain ⟨k, hk, hlt⟩ := h.balanced.inside f hf _ hi
    omega
  refine ⟨h.numbered, h.next, h.flights, hbalanced, fun e he => ?_, fun j hj i hi => ?_,
    fun k e he slot => ?_, h.recent⟩
  · rw [hentries] at he
    rcases List.mem_append.mp he with he | he
    · exact h.live e he
    · obtain rfl := List.mem_singleton.mp he
      exact hfd
  · obtain ⟨k, hk, hlt⟩ := h.inside j hj i hi
    refine ⟨k, hk, ?_⟩
    rw [hentries, List.length_append]
    exact Nat.lt_add_right _ hlt
  · rw [hentries] at he
    rcases getElem?_concat_cases he with ⟨rfl, rfl⟩ | ⟨-, he⟩
    · have hnone : lastUser (jobs acts) slot s.table.entries.length = none := by
        rw [lastUser, List.find?_eq_none]
        intro j hj
        have := hunused j hj
        simp [this]
      rw [lastNumber, hnone]
      exact PerSlot.get_both 0 slot
    · exact h.access k e he slot

/-- A job is submitted: its handles are marked, and counted back if it is refused. -/
theorem submit (h : Tracks acts s) (hlookup : s.flights.lookup s.next = none) {job : Job}
    (hindex : job.index = (jobs acts).length) {marked : HandleTable.Marked}
    (hmarked : s.table.markUsed job.handles job.slot s.next = .ok marked) {t : HandleTable}
    {fs : List (UInt8 × List Int)} (hbalanced : Balanced t fs) {c : Nat → Nat}
    (hentries : ∀ k : Nat, t.entries[k]? = (s.table.entries[k]?).map fun e =>
      (e.mark job.slot s.next (job.handles.count (k : Int))).unmark (c k))
    (hfs : fs = (flying (.submit job :: acts)).reverse.map fun j => (j.number, j.handles)) :
    Tracks (.submit job :: acts) (s.submit t fs) := by
  have hlength : t.entries.length = s.table.entries.length :=
    HandleTable.length_of_map (f := fun k e =>
      (e.mark job.slot s.next (job.handles.count (k : Int))).unmark (c k)) hentries
  have hnumber : job.number = s.next := by rw [h.next, Job.number, hindex]
  refine ⟨h.numbered.cons hindex, ?_, hfs, hbalanced, fun e he => ?_, fun j hj i hi => ?_,
    fun k e he slot => ?_, fun j hj => ?_⟩
  · show s.next + 1 = UInt8.ofNat ((jobs acts).length + 1)
    rw [h.next, UInt8.ofNat_add]
    rfl
  · obtain ⟨k, hk⟩ := List.mem_iff_getElem?.mp he
    rw [JobState.submit, hentries k, Option.map_eq_some_iff] at hk
    obtain ⟨e₀, he₀, rfl⟩ := hk
    rw [Handle.unmark_fd, Handle.mark_fd]
    exact h.live e₀ (List.mem_of_getElem? he₀)
  · show ∃ k : Nat, i = (k : Int) ∧ k < t.entries.length
    rw [hlength]
    rcases List.mem_cons.mp hj with rfl | hj
    · exact (HandleTable.markAll_ok hmarked).1 i hi
    · exact h.inside j hj i hi
  · rw [JobState.submit, hentries k, Option.map_eq_some_iff] at he
    obtain ⟨e₀, he₀, rfl⟩ := he
    rw [Handle.unmark_lastAccess, Handle.mark_lastAccess, h.access k e₀ he₀ slot]
    rw [show jobs (.submit job :: acts) = job :: jobs acts from rfl, lastNumber_cons, hnumber]
    refine if_congr ?_ rfl rfl
    rw [← Nat.pos_iff_ne_zero, List.count_pos_iff]
    exact and_comm
  · show (jobs acts).length + 1 ≤ j.index + 256
    have hold : j ∈ flying acts → (jobs acts).length + 1 ≤ j.index + 256 :=
      fun hj => h.lt_index_add hlookup hj
    unfold flying at hj
    split at hj
    · rcases List.mem_cons.mp hj with rfl | hj
      · omega
      · exact hold hj
    · exact hold hj

theorem accept (h : Tracks acts s) (hlookup : s.flights.lookup s.next = none) {slot : JobSlot}
    {handles : List Int} {marked : HandleTable.Marked}
    (hmarked : s.table.markUsed handles slot s.next = .ok marked) :
    Tracks (.submit ⟨(jobs acts).length, slot, handles, true⟩ :: acts)
      (s.submit marked.table (s.flights ++ [(s.next, handles)])) := by
  refine h.submit hlookup rfl hmarked (h.balanced.accept hlookup hmarked) (c := fun _ => 0)
    (fun k => ?_) ?_
  · rw [(HandleTable.markAll_ok hmarked).2.1 k]
    simp only [Handle.unmark_zero]
  · rw [flying, if_pos rfl, List.reverse_cons, List.map_append, ← h.flights, h.next]
    rfl

theorem refuse (h : Tracks acts s) (hlookup : s.flights.lookup s.next = none) {slot : JobSlot}
    {handles : List Int} {marked : HandleTable.Marked}
    (hmarked : s.table.markUsed handles slot s.next = .ok marked) {t : HandleTable}
    (ht : marked.table.release handles = .ok t) :
    Tracks (.submit ⟨(jobs acts).length, slot, handles, false⟩ :: acts) (s.submit t s.flights) := by
  obtain ⟨t', hrelease, hbalanced, hentries⟩ := h.balanced.refuse hlookup hmarked
  rw [hrelease] at ht
  cases ht
  refine h.submit hlookup rfl hmarked hbalanced hentries ?_
  rw [flying, if_neg (by simp), h.flights]

theorem retire (h : Tracks acts s) {atom : UInt8} {t : HandleTable}
    (ht : s.table.release (s.handles atom) = .ok t) :
    Tracks (.retire atom :: acts) (s.retire atom t) := by
  obtain ⟨t', hrelease, hbalanced, hentries⟩ := h.balanced.retire atom
  rw [JobState.handles, hrelease] at ht
  cases ht
  have hlength := HandleTable.length_of_map hentries
  refine ⟨h.numbered, h.next, ?_, hbalanced, fun e he => ?_, fun j hj i hi => ?_,
    fun k e he slot => ?_, fun j hj => h.recent j (List.mem_filter.mp hj).1⟩
  · show s.flights.filter (·.1 ≠ atom) = _
    rw [h.flights, List.filter_map, flying, ← List.filter_reverse]
    rfl
  · obtain ⟨k, hk⟩ := List.mem_iff_getElem?.mp he
    rw [JobState.retire, hentries k, Option.map_eq_some_iff] at hk
    obtain ⟨e₀, he₀, rfl⟩ := hk
    exact h.live e₀ (List.mem_of_getElem? he₀)
  · show ∃ k : Nat, i = (k : Int) ∧ k < t.entries.length
    rw [hlength]
    exact h.inside j hj i hi
  · rw [JobState.retire, hentries k, Option.map_eq_some_iff] at he
    obtain ⟨e₀, he₀, rfl⟩ := he
    exact h.access k e₀ he₀ slot

end Tracks

/-! ## Runs -/

variable [Kernel κ]

/-- Executions that give out handles, submit atoms and handle events, with their history.  In between
anything may happen that leaves atoms and buffers alone. -/
inductive JobRun (m₀ : Machine κ) : List JobAction → Machine κ → Prop
  | start : JobRun m₀ [] m₀
  | beside {acts : List JobAction} {m m' : Machine κ} (hr : JobRun m₀ acts m) (h : Beside m m') :
    JobRun m₀ acts m'
  | alloc {acts : List JobAction} {m m' : Machine κ} {va : UInt64} {fd : Int} {k : Nat}
    (hr : JobRun m₀ acts m) (hfd : fd ≠ freedFd)
    (he : (Device.allocHandle va fd).exec m = (.ok k, m')) : JobRun m₀ acts m'
  | accepted {acts : List JobAction} {m m' : Machine κ} {va : UInt64} {requirements : UInt32}
    {o : Option Nat} {handles : List Int} {n : UInt8} (hr : JobRun m₀ acts m)
    (he : (Device.submitJob va requirements o handles).exec m = (.ok n, m')) :
    JobRun m₀
      (.submit ⟨(jobs acts).length, Device.jobSlot requirements, handles, true⟩ :: acts) m'
  | refused {acts : List JobAction} {m m' : Machine κ} {va : UInt64} {requirements : UInt32}
    {o : Option Nat} {handles : List Int} {f : Fault} (hr : JobRun m₀ acts m)
    (he : (Device.submitJob va requirements o handles).exec m = (.error (.fault f), m')) :
    JobRun m₀
      (.submit ⟨(jobs acts).length, Device.jobSlot requirements, handles, false⟩ :: acts) m'
  | event {acts : List JobAction} {m m' : Machine κ} {e : JobEvent} {fine : Bool}
    (hr : JobRun m₀ acts m) (he : (Device.handleJobEvent e).exec m = (.ok fine, m')) :
    JobRun m₀ (.retire e.atom :: acts) m'

theorem JobRun.handles {m₀ m m' : Machine κ} {acts : List JobAction} {es : List JobEvent}
    (hr : JobRun m₀ acts m) (h : Handles m es m') :
    JobRun m₀ ((es.map fun e => .retire e.atom).reverse ++ acts) m' := by
  induction h generalizing acts with
  | nil => exact hr
  | beside h _ ih => exact ih (.beside hr h)
  | event he _ ih =>
    rw [List.map_cons, List.reverse_cons, List.append_assoc]
    exact ih (.event hr he)

/-- A pass over the events of a job manager device goes on with a run. -/
theorem JobRun.handleEvents {m₀ m m' : Machine κ} {acts : List JobAction} {ok : Bool}
    (hr : JobRun m₀ acts m) (hm : m.device.generation ≠ .csf)
    (he : Device.handleEvents.exec m = (.ok ok, m')) :
    ∃ es : List JobEvent, JobRun m₀ ((es.map fun e => .retire e.atom).reverse ++ acts) m' := by
  obtain ⟨es, hes⟩ := handleEvents_handles hm he
  exact ⟨es, hr.handles hes⟩

theorem JobRun.tracks {m₀ m : Machine κ} {acts : List JobAction} (hr : JobRun m₀ acts m)
    (h₀ : Unused m₀) : m.NoLinks ∧ Tracks acts m.jobState := by
  induction hr with
  | start => exact ⟨h₀.links, .start h₀⟩
  | beside _ h ih =>
    obtain ⟨hlinks, hstate⟩ := h ih.1
    exact ⟨hlinks, hstate ▸ ih.2⟩
  | alloc _ hfd he ih =>
    obtain ⟨-, rfl⟩ := allocHandle_ok he
    exact ⟨ih.1, ih.2.alloc _ hfd⟩
  | accepted _ he ih =>
    obtain ⟨marked, hlookup, hmarked, hlinks, ⟨-, hstate, -⟩ | ⟨f, t, hfault, -⟩⟩ :=
      submitJob_cases ih.1 he (survives_ok _)
    · exact ⟨hlinks, hstate ▸ ih.2.accept hlookup hmarked⟩
    · cases hfault
  | refused _ he ih =>
    obtain ⟨marked, hlookup, hmarked, hlinks, ⟨hvalue, -⟩ | ⟨f, t, -, ht, hstate⟩⟩ :=
      submitJob_cases ih.1 he (survives_fault _)
    · cases hvalue
    · exact ⟨hlinks, hstate ▸ ih.2.refuse hlookup hmarked ht⟩
  | event _ he ih =>
    obtain ⟨t, ht, hlinks, hstate⟩ := handleJobEvent_ok ih.1 he
    exact ⟨hlinks, hstate ▸ ih.2.retire ht⟩

/-! ## What an atom waits for -/

/-- The dependency of an atom on a job slot. -/
def Atom.dependency (a : Atom) : JobSlot → Dependency
  | .fragment => a.dependency0
  | .vertex => a.dependency1

theorem Atom.dependency_ofMarked (va seqnum : UInt64) (slot : JobSlot) (number : UInt8)
    (m : HandleTable.Marked) (s : JobSlot) :
    (ofMarked va seqnum slot number m).dependency s = dependencyOn number (m.after.get s) := by
  cases s <;> rfl

/-- The number of an earlier job, counted up from that of a new one. -/
theorem toNat_ofNat_sub {last k : Nat} (hlt : last < k) (hk : k < last + 256) :
    (UInt8.ofNat last - UInt8.ofNat k).toNat = 256 + last - k := by
  rw [UInt8.toNat_sub, UInt8.toNat_ofNat', UInt8.toNat_ofNat']
  omega

/-- Whatever is above the number of a new job is the number of a job that was submitted shortly before. -/
theorem eq_ofNat_of_sub {n : UInt8} {k : Nat} (hk : 256 ≤ k + (n - UInt8.ofNat k).toNat) :
    n = UInt8.ofNat (k + (n - UInt8.ofNat k).toNat - 256) := by
  rw [← UInt8.toNat_inj, UInt8.toNat_ofNat']
  rw [UInt8.toNat_sub, UInt8.toNat_ofNat'] at hk ⊢
  have := n.toNat_lt
  omega

namespace Tracks

variable {acts : List JobAction} {s : JobState} {hs : List Int} {slot : JobSlot}
  {marked : HandleTable.Marked} {job : Job} {k : Nat}

omit [Kernel κ] in
/-- A handle is in use exactly if a job in flight lists it. -/
theorem useCount_ne_zero (h : Tracks acts s) {e : Handle} (he : s.table.entries[k]? = some e) :
    e.useCount ≠ 0 ↔ ∃ j ∈ flying acts, (k : Int) ∈ j.handles := by
  have hzero : e.useCount = 0 ↔ flightCount s.flights k = 0 := by
    rw [← h.balanced.uses k e he, ← UInt8.toNat_inj]
    rfl
  rw [Ne, hzero, ← Ne, ← Nat.pos_iff_ne_zero, flightCount, List.count_pos_iff, List.mem_flatMap]
  rw [h.flights]
  constructor
  · rintro ⟨f, hf, hk⟩
    obtain ⟨j, hj, rfl⟩ := List.mem_map.mp hf
    exact ⟨j, List.mem_reverse.mp hj, hk⟩
  · rintro ⟨j, hj, hk⟩
    exact ⟨_, List.mem_map.mpr ⟨j, List.mem_reverse.mpr hj, rfl⟩, hk⟩

/-- What a new job waits for is no older than a job in flight that shares a handle with it. -/
theorem le_after (h : Tracks acts s) (hlookup : s.flights.lookup s.next = none)
    (hmarked : s.table.markUsed hs slot s.next = .ok marked) (hjob : job ∈ flying acts)
    (hshared : (k : Int) ∈ job.handles) (hused : (k : Int) ∈ hs) :
    256 + job.index - (jobs acts).length ≤
      (marked.after.get job.slot - UInt8.ofNat (jobs acts).length).toNat := by
  obtain ⟨hmem, -⟩ := flying_subset hjob
  obtain ⟨last, hlast, hle⟩ := h.numbered.le_lastUser hmem rfl hshared
  have hlt := h.numbered.lt (lastUser_eq_some hlast).1
  have hrecent := h.lt_index_add hlookup hjob
  obtain ⟨k', hk', hlength⟩ := h.inside job hmem _ hshared
  obtain rfl := Int.ofNat_inj.mp hk'
  have he : s.table.entries[k]? = some s.table.entries[k] := List.getElem?_eq_getElem hlength
  have hinuse := (h.useCount_ne_zero he).mpr ⟨job, hjob, hshared⟩
  have := (HandleTable.le_after_markAll hmarked job.slot).2 k _ hused he hinuse
  rw [h.access k _ he, lastNumber, hlast, h.next] at this
  rw [Option.map_some, Option.getD_some, Job.number, toNat_ofNat_sub hlt (by omega)] at this
  omega

/-- What a new job waits for, if anything, is recorded on a handle that is in use or listed again. -/
theorem after_eq (h : Tracks acts s) (hmarked : s.table.markUsed hs slot s.next = .ok marked)
    (sl : JobSlot) : marked.after.get sl = s.next ∨ ∃ i : Nat, (i : Int) ∈ hs ∧
      ((∃ j ∈ flying acts, (i : Int) ∈ j.handles) ∨ 1 < hs.count (i : Int)) ∧
        marked.after.get sl = lastNumber (jobs acts) sl i := by
  rcases HandleTable.after_markAll hmarked sl with hbefore | hself | ⟨i, e, hi, he, hused, hafter⟩
  · left
    rw [hbefore]
    exact PerSlot.get_both s.next sl
  · exact .inl hself
  · right
    refine ⟨i, hi, ?_, by rw [hafter, h.access i e he sl]⟩
    rcases hused with hused | hused
    · exact .inl ((h.useCount_ne_zero he).mp hused)
    · exact .inr hused

/-- The job that a new one waits for, on the slot of one in flight that shares a handle with it. -/
theorem exists_target (h : Tracks acts s) (hlookup : s.flights.lookup s.next = none)
    (hmarked : s.table.markUsed hs slot s.next = .ok marked) (hjob : job ∈ flying acts)
    (hshared : (k : Int) ∈ job.handles) (hused : (k : Int) ∈ hs) :
    ∃ target ∈ jobs acts, job.index ≤ target.index ∧ (jobs acts).length < target.index + 256 ∧
      marked.after.get job.slot = target.number ∧ target.number ≠ s.next := by
  have hle := h.le_after hlookup hmarked hjob hshared hused
  have hrecent := h.lt_index_add hlookup hjob
  have hlt := h.numbered.lt (flying_subset hjob).1
  have hbyte := (marked.after.get job.slot - UInt8.ofNat (jobs acts).length).toNat_lt
  have hnumber := eq_ofNat_of_sub (n := marked.after.get job.slot) (k := (jobs acts).length) (by omega)
  obtain ⟨target, htarget, hindex⟩ := h.numbered.exists_index
    (n := (jobs acts).length + (marked.after.get job.slot - UInt8.ofNat (jobs acts).length).toNat - 256)
    (by omega)
  refine ⟨target, htarget, by omega, by omega, ?_, fun hsame => ?_⟩
  · rw [Job.number, hindex]
    exact hnumber
  · have : marked.after.get job.slot = UInt8.ofNat (jobs acts).length := by
      rw [hnumber, ← hindex, ← h.next]
      exact hsame
    rw [this, UInt8.sub_self] at hle
    have hzero : (0 : UInt8).toNat = 0 := rfl
    omega

/-- Two jobs with one number are one if both are recent. -/
theorem eq_of_number (h : Tracks acts s) {a b : Job} (ha : a ∈ jobs acts) (hb : b ∈ jobs acts)
    (hrecent : (jobs acts).length < a.index + 256) (hrecent' : (jobs acts).length < b.index + 256)
    (hab : a.number = b.number) : a = b := by
  refine h.numbered.eq_of_index ha hb ?_
  have hlt := h.numbered.lt ha
  have hlt' := h.numbered.lt hb
  rw [Job.number, Job.number, ← UInt8.toNat_inj, UInt8.toNat_ofNat', UInt8.toNat_ofNat'] at hab
  omega

/-- If the handles in use are current on the slot of a job in flight, what a new job waits for there is
a job on the slot that the kernel accepted. -/
theorem accepted_of_current (h : Tracks acts s)
    (hmarked : s.table.markUsed hs slot s.next = .ok marked) (hjob : job ∈ flying acts)
    (hcurrent : ∀ i : Nat, (i : Int) ∈ hs →
      (∃ j ∈ flying acts, (i : Int) ∈ j.handles) ∨ 1 < hs.count (i : Int) →
        Current (jobs acts) job.slot i)
    {target : Job} (htarget : target ∈ jobs acts) (hle : job.index ≤ target.index)
    (hrecent : (jobs acts).length < target.index + 256)
    (hafter : marked.after.get job.slot = target.number) (hne : target.number ≠ s.next) :
    target.accepted = true ∧ target.slot = job.slot := by
  rcases h.after_eq hmarked job.slot with hself | ⟨i, hi, hused, hlast⟩
  · exact absurd (hafter.symm.trans hself) hne
  have hi := hcurrent i hi hused
  unfold Current at hi
  rw [hafter, lastNumber] at hlast
  cases hfind : lastUser (jobs acts) job.slot i with
  | some last =>
    rw [hfind] at hi hlast
    obtain ⟨hmem, hslot, -⟩ := lastUser_eq_some hfind
    obtain rfl := h.eq_of_number htarget hmem hrecent hi.2 hlast
    exact ⟨hi.1, hslot⟩
  | none =>
    -- the number of the first job is recorded, so that is the job in flight
    rw [hfind] at hi hlast
    obtain ⟨hmem, haccepted⟩ := flying_subset hjob
    have hlt := h.numbered.lt htarget
    have hzero : target.index = 0 := by
      rw [Job.number, ← UInt8.toNat_inj, UInt8.toNat_ofNat'] at hlast
      have hnone : ((Option.map Job.number none).getD 0 : UInt8).toNat = 0 := rfl
      omega
    obtain rfl := h.numbered.eq_of_index htarget hmem (by omega)
    exact ⟨haccepted, rfl⟩

end Tracks

/-- An atom that shares a handle with one in flight is sent with a dependency on the slot of that one.
The dependency is on an atom submitted no earlier whose number was not given out again since.  That
atom is one that the kernel accepted on the slot, if what is recorded there on the handles in use is
current. -/
theorem JobRun.waits_for {m₀ m m' : Machine κ} {acts : List JobAction} (h₀ : Unused m₀)
    (hr : JobRun m₀ acts m) {va : UInt64} {requirements : UInt32} {o : Option Nat} {handles : List Int}
    {n : UInt8} (he : (Device.submitJob va requirements o handles).exec m = (.ok n, m')) {job : Job}
    (hjob : job ∈ flying acts) {k : Nat} (hshared : (k : Int) ∈ job.handles)
    (hused : (k : Int) ∈ handles) :
    ∃ atom, m'.sentAtom? = some atom ∧ atom.number = n ∧ n = UInt8.ofNat (jobs acts).length ∧
      ∃ target ∈ jobs acts, job.index ≤ target.index ∧ (jobs acts).length < target.index + 256 ∧
        atom.dependency job.slot = { atom := target.number, type := Atom.orderDependency } ∧
        ((∀ i : Nat, (i : Int) ∈ handles →
            (∃ j ∈ flying acts, (i : Int) ∈ j.handles) ∨ 1 < handles.count (i : Int) →
              Current (jobs acts) job.slot i) →
          target.accepted = true ∧ target.slot = job.slot) := by
  obtain ⟨hlinks, htracks⟩ := hr.tracks h₀
  obtain ⟨marked, hlookup, hmarked, -, ⟨hn, -, seqnum, hsent⟩ | ⟨f, t, hfault, -⟩⟩ :=
    submitJob_cases hlinks he (survives_ok _)
  · obtain rfl := Except.ok.inj hn
    obtain ⟨target, htarget, hle, hrecent, hafter, hne⟩ :=
      htracks.exists_target hlookup hmarked hjob hshared hused
    refine ⟨_, hsent, rfl, htracks.next, target, htarget, hle, hrecent, ?_, fun hcurrent =>
      htracks.accepted_of_current hmarked hjob hcurrent htarget hle hrecent hafter hne⟩
    rw [Atom.dependency_ofMarked, hafter, Atom.dependencyOn, if_neg hne]
  · cases hfault

namespace JobSample

-- a table of 256 slots is evaluated
set_option maxRecDepth 20000

/-- A job manager device on a bench that refuses the second atom. -/
def start : Machine Bench where
  kernel :=
    { model := .scripted { generation := .jm }
      plans := [(.command .jobSubmit, { answer := .nomem, skip := 1, count := 1 })] }
  device := { generation := .jm }

theorem unused_start : Unused start := by
  refine ⟨fun i => ?_, rfl, rfl, rfl⟩
  show (SlotTable.entry (Vector.replicate slotCount {}) i).links = []
  rw [SlotTable.entry_replicate]

/-- There is a handle. -/
def held : Machine Bench := ((Device.allocHandle 0x1000 noFd).exec start).2

/-- A vertex job on an address, with the only handle. -/
def submit : Op Bench UInt8 := Device.submitJob 0x2000 0 none [0]

/-- A first job is in flight. -/
def first : Machine Bench := (submit.exec held).2

/-- The next job was refused. -/
def second : Machine Bench := (submit.exec first).2

/-- Another one is in flight. -/
def third : Machine Bench := (submit.exec second).2

/-- The job that was accepted first. -/
def job : Job := ⟨0, .vertex, [0], true⟩

/-- The job that was refused. -/
def refusedJob : Job := ⟨1, .vertex, [0], false⟩

theorem run_second : JobRun start [.submit refusedJob, .submit job] second := by
  have halloc : (Device.allocHandle 0x1000 noFd).exec start = (.ok 0, held) :=
    exec_of_value (by decide)
  have haccepted : submit.exec held = (.ok 0, first) := exec_of_value (by decide +kernel)
  have hrefused : submit.exec first =
      (.error (.fault (.during (.request "JOB_SUBMIT") (.ofErrno .nomem))), second) :=
    exec_of_error (by decide +kernel)
  have hheld : JobRun start [] held := .alloc .start (by decide) halloc
  have hfirst : JobRun start [.submit job] first := .accepted hheld haccepted
  exact .refused hfirst hrefused

theorem exec_third : submit.exec second = (.ok 2, third) := exec_of_value (by decide +kernel)

theorem sent_third : third.sentAtom?.map (·.dependency .vertex) =
    some { atom := 1, type := Atom.orderDependency } := by decide +kernel

end JobSample

/-- A job is in flight, and the next one with its handle was refused.  The job after that is sent with a
dependency on the refused one. -/
theorem waits_for_refused_sample : ∃ atom target, JobSample.third.sentAtom? = some atom ∧
    atom.number = 2 ∧ target ∈ [JobSample.refusedJob, JobSample.job] ∧ target.accepted = false ∧
      atom.dependency .vertex = { atom := target.number, type := Atom.orderDependency } := by
  have hsent := JobSample.sent_third
  have hflying : JobSample.job ∈ flying [.submit JobSample.refusedJob, .submit JobSample.job] := by
    decide
  have hshared : ((0 : Nat) : Int) ∈ JobSample.job.handles := by decide
  obtain ⟨atom, hatom, hnumber, -, target, htarget, -, -, hdep, -⟩ :=
    JobRun.waits_for JobSample.unused_start JobSample.run_second JobSample.exec_third hflying hshared
      (by decide)
  refine ⟨atom, target, hatom, hnumber, htarget, ?_, hdep⟩
  rw [hatom, Option.map_some] at hsent
  have hone : target.number = 1 := congrArg Dependency.atom (hdep.symm.trans (Option.some.inj hsent))
  rcases List.mem_pair.mp htarget with rfl | rfl
  · rfl
  · exact absurd hone (by decide)

end Mali
