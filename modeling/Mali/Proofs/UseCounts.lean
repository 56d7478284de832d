import Mali.Proofs.Access
import Mali.Proofs.AtomOrder
import Mali.Proofs.Places
import Mali.Proofs.Polls

/-!
# Use counts and waiting for idle handles

While handles come and go, atoms take off or are refused, and the kernel reports whatever it likes, the use
count of a handle is the number of times that jobs in flight list it.  Handles are reused, so the reason is
not that an entry stays what it was: it is that no job in flight lists a number that is not live.

A wait for a handle handles events between its looks, and so goes on with the run.  What it reports is what
the history says at its last look.

* `Counts`: the device agrees with the history of jobs.
* `AtomRun`, `AtomRun.counts`: executions in which handles are freed too, and what they keep.
* `Sound`, `Goes`: operations that come to a value whatever the kernel does, and only handle events.
* `exec_waitIdle`: waiting for a handle is such an operation, and its answer is that of its last look.
* `AtomRun.useCount_eq`: use counts, events and waits in every run.
-/

namespace Mali

open Op

variable {κ α β : Type}

/-! ## Counts follow the history -/

/-- A device knows the jobs in flight, counts their uses, and keeps the handles that they list. -/
structure Counts (acts : List JobAction) (s : JobState) : Prop where
  next : s.next = UInt8.ofNat (jobs acts).length
  flights : s.flights = (flying acts).reverse.map fun j => (j.number, j.handles)
  balanced : Balanced s.table s.flights
  live : ∀ k, flightCount s.flights k ≠ 0 → ∃ fd, s.table.Owns k fd

/-- Handles that were all given out and not freed. -/
def HandleTable.AllLive (t : HandleTable) (handles : List Int) : Prop :=
  ∀ i ∈ handles, ∃ (k : Nat) (fd : Int), i = (k : Int) ∧ t.Owns k fd

namespace Counts

variable {acts : List JobAction} {s : JobState}

theorem start {m : Machine κ} (h : Unused m) : Counts [] m.jobState where
  next := h.next
  flights := h.flights
  balanced := by
    rw [h.table, h.flights]
    exact .empty
  live k hk := by
    rw [h.flights] at hk
    exact absurd rfl hk

/-- What jobs in flight list, by the history. -/
theorem flightCount_eq (h : Counts acts s) (k : Nat) :
    flightCount s.flights k = ((flying acts).flatMap (·.handles)).count (k : Int) := by
  have hperm : List.Perm (s.flights.flatMap (·.2)) ((flying acts).flatMap (·.handles)) := by
    rw [h.flights, List.flatMap_map]
    exact (List.reverse_perm _).flatMap_right _
  exact hperm.count_eq _

theorem alloc (h : Counts acts s) (va : UInt64) (fd : Int) :
    Counts acts { s with table := (s.table.alloc va fd).2 } where
  next := h.next
  flights := h.flights
  balanced := by
    refine h.balanced.alloc va fd (Classical.byContradiction fun hne => ?_)
    obtain ⟨fd', ho⟩ := h.live _ hne
    exact s.table.not_owns_freeIndex fd' ho
  live k hk := by
    obtain ⟨fd', ho⟩ := h.live k hk
    exact ⟨fd', s.table.owns_alloc va fd k fd' ho⟩

/-- A handle without uses is freed: no job in flight lists it. -/
theorem free (h : Counts acts s) {handle : Int} (hidle : (s.table.get handle).useCount = 0) :
    Counts acts { s with table := (s.table.free handle).2 } := by
  have hlive (k : Nat) (hk : flightCount s.flights k ≠ 0) : ∃ fd, (s.table.free handle).2.Owns k fd := by
    obtain ⟨fd, ho⟩ := h.live k hk
    cases hi : s.table.index? handle with
    | none =>
      rw [HandleTable.free, hi]
      exact ⟨fd, ho⟩
    | some i =>
      obtain ⟨rfl, -⟩ := HandleTable.index?_eq_some hi
      refine ⟨fd, HandleTable.owns_free (fun hki => hk ?_) ho⟩
      rw [hki, ← h.balanced.toNat_useCount, hidle]
      rfl
  exact ⟨h.next, h.flights, h.balanced.free handle hlive, hlive⟩

/-- Handles that are marked, and maybe released again, are as live as before. -/
theorem live_of_map {t : HandleTable} {fs : List (UInt8 × List Int)} {f : Nat → Handle → Handle}
    (h : ∀ k, flightCount fs k ≠ 0 → ∃ fd, s.table.Owns k fd)
    (hentries : ∀ k, t.entries[k]? = (s.table.entries[k]?).map (f k))
    (hfd : ∀ k e, (f k e).fd = e.fd) (k : Nat) (hk : flightCount fs k ≠ 0) : ∃ fd, t.Owns k fd := by
  obtain ⟨fd, ho⟩ := h k hk
  exact ⟨fd, (HandleTable.owns_map_iff hentries hfd).mpr ho⟩

theorem accept (h : Counts acts s) (hlookup : s.flights.lookup s.next = none) {slot : JobSlot}
    {handles : List Int} {marked : HandleTable.Marked} (hhandles : s.table.AllLive handles)
    (hmarked : s.table.markUsed handles slot s.next = .ok marked) :
    Counts (.submit ⟨(jobs acts).length, slot, handles, true⟩ :: acts)
      (s.submit marked.table (s.flights ++ [(s.next, handles)])) where
  next := by
    show s.next + 1 = UInt8.ofNat ((jobs acts).length + 1)
    rw [h.next, UInt8.ofNat_add]
    rfl
  flights := by
    show s.flights ++ [(s.next, handles)] = _
    rw [flying, if_pos rfl, List.reverse_cons, List.map_append, h.flights, h.next]
    rfl
  balanced := h.balanced.accept hlookup hmarked
  live := by
    refine live_of_map (s := s) (fun k hk => ?_) (HandleTable.markAll_ok hmarked).2.1
      fun _ _ => Handle.mark_fd ..
    have hsum : flightCount (s.flights ++ [(s.next, handles)]) k =
        flightCount s.flights k + handles.count (k : Int) := flightCount_append_singleton _ _
    have hk : flightCount s.flights k + handles.count (k : Int) ≠ 0 := hsum ▸ hk
    by_cases hold : flightCount s.flights k = 0
    · have hlisted : (k : Int) ∈ handles := List.count_pos_iff.mp (by omega)
      obtain ⟨j, fd, hj, ho⟩ := hhandles _ hlisted
      exact ⟨fd, Int.ofNat_inj.mp hj ▸ ho⟩
    · exact h.live k hold

theorem refuse (h : Counts acts s) (hlookup : s.flights.lookup s.next = none) {slot : JobSlot}
    {handles : List Int} {marked : HandleTable.Marked}
    (hmarked : s.table.markUsed handles slot s.next = .ok marked) {t : HandleTable}
    (ht : marked.table.release handles = .ok t) :
    Counts (.submit ⟨(jobs acts).length, slot, handles, false⟩ :: acts) (s.submit t s.flights) := by
  obtain ⟨t', hrelease, hbalanced, hentries⟩ := h.balanced.refuse hlookup hmarked
  cases hrelease.symm.trans ht
  refine ⟨?_, ?_, hbalanced, live_of_map h.live hentries fun _ _ => ?_⟩
  · show s.next + 1 = UInt8.ofNat ((jobs acts).length + 1)
    rw [h.next, UInt8.ofNat_add]
    rfl
  · rw [flying, if_neg (by simp)]
    exact h.flights
  · rw [Handle.unmark_fd, Handle.mark_fd]

theorem retire (h : Counts acts s) {atom : UInt8} {t : HandleTable}
    (ht : s.table.release (s.handles atom) = .ok t) :
    Counts (.retire atom :: acts) (s.retire atom t) := by
  obtain ⟨t', hrelease, hbalanced, hentries⟩ := h.balanced.retire atom
  cases hrelease.symm.trans ht
  refine ⟨h.next, ?_, hbalanced, ?_⟩
  · show s.flights.filter (·.1 ≠ atom) = _
    rw [h.flights, List.filter_map, flying, ← List.filter_reverse]
    rfl
  · refine live_of_map (fun k hk => h.live k fun hzero => hk ?_) hentries fun _ _ => Handle.unmark_fd ..
    have hsum := flightCount_filter (n := atom) h.balanced.numbers k
    exact Nat.eq_zero_of_add_eq_zero_right (hsum.trans hzero)

end Counts

/-! ## Runs -/

section Kernel

variable [Kernel κ]

/-- Executions that give out handles, free handles without uses, submit atoms with live handles and handle
events, with their history.  In between anything may happen that leaves atoms and buffers alone. -/
inductive AtomRun (m₀ : Machine κ) : List JobAction → Machine κ → Prop
  | start : AtomRun m₀ [] m₀
  | beside {acts : List JobAction} {m m' : Machine κ} (hr : AtomRun m₀ acts m) (h : Beside m m') :
    AtomRun m₀ acts m'
  | alloc {acts : List JobAction} {m m' : Machine κ} {va : UInt64} {fd : Int} {k : Nat}
    (hr : AtomRun m₀ acts m) (he : (Device.allocHandle va fd).exec m = (.ok k, m')) : AtomRun m₀ acts m'
  | free {acts : List JobAction} {m m' : Machine κ} {handle : Int} (hr : AtomRun m₀ acts m)
    (hidle : (m.device.handles.get handle).useCount = 0)
    (he : (Device.freeHandle handle).exec m = (.ok (), m')) : AtomRun m₀ acts m'
  | accepted {acts : List JobAction} {m m' : Machine κ} {va : UInt64} {requirements : UInt32}
    {o : Option Nat} {handles : List Int} {n : UInt8} (hr : AtomRun m₀ acts m)
    (hlive : m.device.handles.AllLive handles)
    (he : (Device.submitJob va requirements o handles).exec m = (.ok n, m')) :
    AtomRun m₀
      (.submit ⟨(jobs acts).length, Device.jobSlot requirements, handles, true⟩ :: acts) m'
  | refused {acts : List JobAction} {m m' : Machine κ} {va : UInt64} {requirements : UInt32}
    {o : Option Nat} {handles : List Int} {f : Fault} (hr : AtomRun m₀ acts m)
    (hlive : m.device.handles.AllLive handles)
    (he : (Device.submitJob va requirements o handles).exec m = (.error (.fault f), m')) :
    AtomRun m₀
      (.submit ⟨(jobs acts).length, Device.jobSlot requirements, handles, false⟩ :: acts) m'
  | event {acts : List JobAction} {m m' : Machine κ} {e : JobEvent} {fine : Bool}
    (hr : AtomRun m₀ acts m) (he : (Device.handleJobEvent e).exec m = (.ok fine, m')) :
    AtomRun m₀ (.retire e.atom :: acts) m'

theorem freeHandle_jobState {m m' : Machine κ} {handle : Int} {u : Unit}
    (he : (Device.freeHandle handle).exec m = (.ok u, m')) : m'.progress = m.progress ∧
      m'.jobState = { m.jobState with table := (m.jobState.table.free handle).2 } := by
  have hdevice := freeHandle_device he
  have hallocator : SameAllocator m m' := (keeps_freeHandle handle).ok he
  constructor
  · rw [Machine.progress, hdevice]
    rfl
  · rw [Machine.jobState, Machine.storage, hdevice, hallocator]
    rfl

/-- The actions of events, newest first. -/
def retired (es : List JobEvent) : List JobAction := (es.map fun e => .retire e.atom).reverse

theorem AtomRun.handles {m₀ m m' : Machine κ} {acts : List JobAction} {es : List JobEvent}
    (hr : AtomRun m₀ acts m) (h : Handles m es m') : AtomRun m₀ (retired es ++ acts) m' := by
  induction h generalizing acts with
  | nil => exact hr
  | beside h _ ih => exact ih (.beside hr h)
  | event he _ ih =>
    rw [retired, List.map_cons, List.reverse_cons, List.append_assoc]
    exact ih (.event hr he)

theorem AtomRun.counts {m₀ m : Machine κ} {acts : List JobAction} (hr : AtomRun m₀ acts m)
    (h₀ : Unused m₀) : m.NoLinks ∧ m.jobState.generation = m₀.jobState.generation ∧
      Counts acts m.jobState := by
  induction hr with
  | start => exact ⟨h₀.links, rfl, .start h₀⟩
  | beside _ h ih =>
    obtain ⟨hlinks, hgeneration, hcounts⟩ := ih
    obtain ⟨hlinks', hstate⟩ := h hlinks
    rw [hstate]
    exact ⟨hlinks', hgeneration, hcounts⟩
  | alloc _ he ih =>
    obtain ⟨-, rfl⟩ := allocHandle_ok he
    exact ⟨ih.1, ih.2.1, ih.2.2.alloc _ _⟩
  | free _ hidle he ih =>
    obtain ⟨hlinks, hgeneration, hcounts⟩ := ih
    obtain ⟨hprogress, hstate⟩ := freeHandle_jobState he
    rw [hstate, Machine.NoLinks, hprogress]
    exact ⟨hlinks, hgeneration, hcounts.free hidle⟩
  | accepted _ hlive he ih =>
    obtain ⟨hlinks, hgeneration, hcounts⟩ := ih
    obtain ⟨marked, hlookup, hmarked, hlinks', ⟨-, hstate, -⟩ | ⟨f, t, hfault, -⟩⟩ :=
      submitJob_cases hlinks he (survives_ok _)
    · rw [hstate]
      exact ⟨hlinks', hgeneration, hcounts.accept hlookup hlive hmarked⟩
    · cases hfault
  | refused _ _ he ih =>
    obtain ⟨hlinks, hgeneration, hcounts⟩ := ih
    obtain ⟨marked, hlookup, hmarked, hlinks', ⟨hvalue, -⟩ | ⟨f, t, -, ht, hstate⟩⟩ :=
      submitJob_cases hlinks he (survives_fault _)
    · cases hvalue
    · rw [hstate]
      exact ⟨hlinks', hgeneration, hcounts.refuse hlookup hmarked ht⟩
  | event _ he ih =>
    obtain ⟨hlinks, hgeneration, hcounts⟩ := ih
    obtain ⟨t, ht, hlinks', hstate⟩ := handleJobEvent_ok hlinks he
    rw [hstate]
    exact ⟨hlinks', hgeneration, hcounts.retire ht⟩

/-! ## Operations that only handle events -/

/-- A device that no event can stop. -/
structure Sound (m : Machine κ) : Prop where
  generation : m.jobState.generation ≠ .csf
  links : m.NoLinks
  balanced : Balanced m.jobState.table m.jobState.flights

theorem Handles.trans {m m₁ m' : Machine κ} {es es' : List JobEvent} (h : Handles m es m₁)
    (h' : Handles m₁ es' m') : Handles m (es ++ es') m' := by
  induction h with
  | nil => exact h'
  | beside h _ ih => exact .beside h (ih h')
  | event he _ ih => exact .event he (ih h')

/-- Handling events changes use counts, but no entry comes or goes. -/
theorem Handles.sound {m m' : Machine κ} {es : List JobEvent} (h : Handles m es m') (hm : Sound m) :
    Sound m' ∧ m'.jobState.table.size = m.jobState.table.size := by
  induction h with
  | nil => exact ⟨hm, rfl⟩
  | beside h _ ih =>
    obtain ⟨hlinks, hstate⟩ := h hm.links
    rw [← hstate]
    exact ih ⟨by rw [hstate]; exact hm.generation, hlinks, by rw [hstate]; exact hm.balanced⟩
  | event he _ ih =>
    obtain ⟨t, ht, hlinks, hstate⟩ := handleJobEvent_ok hm.links he
    obtain ⟨t', ht', hbalanced, hentries⟩ := hm.balanced.retire _
    cases ht'.symm.trans ht
    obtain ⟨hsound, hsize⟩ := ih ⟨by rw [hstate]; exact hm.generation, hlinks, by rw [hstate]; exact hbalanced⟩
    refine ⟨hsound, hsize.trans ?_⟩
    rw [hstate]
    exact HandleTable.length_of_map hentries

/-- An operation that comes to a value on every such device, and does nothing but handle events. -/
def Goes (x : Op κ α) : Prop :=
  ∀ m, Sound m → ∃ a m' es, x.exec m = (.ok a, m') ∧ Handles m es m'

theorem goes_bind {x : Op κ α} {f : α → Op κ β} (hx : Goes x) (hf : ∀ a, Goes (f a)) : Goes (x >>= f) := by
  intro m hm
  obtain ⟨a, m₁, es, he, h⟩ := hx m hm
  obtain ⟨b, m', es', he', h'⟩ := hf a m₁ (h.sound hm).1
  exact ⟨b, m', es ++ es', (exec_bind_of_ok he).trans he', h.trans h'⟩

/-- What always returns and leaves jobs alone. -/
theorem goes_of_beside {x : Op κ α} (hx : Returns x) (hb : Keeps Beside x) : Goes x := by
  intro m _
  obtain ⟨a, m', he⟩ := hx m
  exact ⟨a, m', [], he, .beside (hb.ok he) (.nil m')⟩

/-- Everything that waits are made of does nothing but handle events. -/
theorem polling_goes : Polling (κ := κ) Goes where
  pure a := goes_of_beside (returns_pure a) (keeps_pure a)
  bind := goes_bind
  device := goes_of_beside returns_device keeps_device
  now := goes_of_beside (fun m => ⟨_, m, rfl⟩) keeps_now
  call c _ _ := goes_of_beside (returns_call c) (keeps_call c)
  error message fields := goes_of_beside (returns_error message fields) (keeps_error message fields)
  modify f hf := by
    refine goes_of_beside (fun m => ⟨(), _, rfl⟩) (keeps_modify fun m hm => ?_)
    obtain ⟨_, _, _, _, hd⟩ := hf m.device
    rw [hd]
    exact ⟨hm, rfl⟩
  handleEvents m hm := by
    obtain ⟨ok, m', he⟩ := exec_handleEvents hm.generation hm.links hm.balanced
    obtain ⟨es, h⟩ := handleEvents_handles hm.generation he
    exact ⟨ok, m', es, he, h⟩

/-! ## Waiting for a handle -/

/-- A loop that looks at the device gives the answer of its last look, unless it gives up without one.  A
wait that did not look yet looks at once.  By induction on the looks that there is room for. -/
theorem exec_loop (f : Device → Option α) (fuel : Nat) (w : Wait) {m : Machine κ} (hm : Sound m) :
    ∃ r m' es, (Wait.loop (return f (← device)) fuel w).exec m = (.ok r, m') ∧ Handles m es m' ∧
      ((r.1 = none ∧ (fuel = 0 ∨ w.seen ≠ none)) ∨
        ∃ look before after, Handles m before look ∧ Handles look after m' ∧ r.1 = f look.device) := by
  induction fuel generalizing w m with
  | zero => exact ⟨_, m, [], rfl, .nil m, .inl ⟨rfl, .inl rfl⟩⟩
  | succ fuel ih =>
    obtain ⟨⟨again, w₁⟩, look, es, hnext, hes⟩ := polling_goes.next w m hm
    unfold Wait.loop
    rw [exec_bind_of_ok hnext]
    cases again with
    | false =>
      refine ⟨_, look, es, rfl, hes, .inl ⟨rfl, .inr fun hseen => ?_⟩⟩
      unfold Wait.next at hnext
      rw [hseen, exec_bind_of_ok (exec_device m)] at hnext
      cases hnext
    | true =>
      dsimp only
      rw [exec_bind_of_ok (show (return f (← device) : Op κ (Option α)).exec look =
        (.ok (f look.device), look) from rfl)]
      cases hlook : f look.device with
      | some a => exact ⟨_, look, es, rfl, hes, .inr ⟨look, es, [], hes, .nil look, hlook.symm⟩⟩
      | none =>
        obtain ⟨r, m', es', he, hes', hr⟩ := ih w₁ (hes.sound hm).1
        refine ⟨r, m', es ++ es', he, hes.trans hes', .inr ?_⟩
        rcases hr with ⟨hnone, -⟩ | ⟨last, before, after, hbefore, hafter, hr⟩
        · exact ⟨look, es, es', hes, hes', hnone.trans hlook.symm⟩
        · exact ⟨last, es ++ before, after, hes.trans hbefore, hafter, hr⟩

/-- A wait for something that the device shows comes to an end, and gives the answer of its last look. -/
theorem exec_waitUntil_of_sound (f : Device → Option α) (timeout : Int) {m : Machine κ} (hm : Sound m) :
    ∃ r m' look before after, (Device.waitUntil timeout (return f (← device))).exec m = (.ok r, m') ∧
      Handles m before look ∧ Handles look after m' ∧ r.1 = f look.device := by
  obtain ⟨w, m₁, es, hstart, hes⟩ := polling_goes.start timeout m hm
  have hunseen : w.seen = none := by
    cases hstart
    rfl
  obtain ⟨⟨outcome, w'⟩, m₂, es', hloop, -, hlook⟩ := exec_loop f Device.passLimit w (hes.sound hm).1
  obtain ⟨look, before, after, hbefore, hafter, hr⟩ :=
    hlook.resolve_left fun h => h.2.elim (by unfold Device.passLimit; omega) fun hseen => hseen hunseen
  obtain ⟨_, m', es'', hdone, hes''⟩ :=
    polling_goes.done w' m₂ (hafter.sound (hbefore.sound (hes.sound hm).1).1).1
  refine ⟨(outcome, w'.deadline), m', look, es ++ before, after ++ es'', ?_, hes.trans hbefore,
    hafter.trans hes'', hr⟩
  unfold Device.waitUntil
  rw [exec_bind_of_ok hstart, exec_bind_of_ok hloop]
  exact exec_bind_of_ok (exec_bind_of_ok hdone)

omit [Kernel κ] in
theorem idleOutcome_of_lt {t : HandleTable} {k : Nat} (hk : k < t.size) :
    Device.idleOutcome t k = if (t.get k).useCount = 0 then some none else none := by
  have hentry : t.entries[k]? = some t.entries[k] := List.getElem?_eq_getElem hk
  unfold Device.idleOutcome HandleTable.get HandleTable.entry?
  rw [HandleTable.index?_natCast hk, Option.bind_some, hentry]
  by_cases hfreed : HandleTable.isFreed t.entries[k] = true
  · simp only [if_pos hfreed]
  · simp only [if_neg hfreed]

/-- Waiting for a handle returns if its last look finds the handle without uses, and else times out. -/
theorem exec_waitIdle {k : Nat} (timeout : Int) {m : Machine κ} (hm : Sound m)
    (hk : k < m.device.handles.size) :
    ∃ r m' look before after, (Device.waitIdle k timeout).exec m = (r, m') ∧ Handles m before look ∧
      Handles look after m' ∧
      r = if (look.device.handles.get k).useCount = 0 then .ok ()
        else .error (.fault (.during (.onHandle k) (.root .timeout))) := by
  obtain ⟨_, m₁, hdebug⟩ : ∃ u m₁, (debug "HandleTable::WaitIdle" : Op κ Unit).exec m = (.ok u, m₁) :=
    ⟨_, _, rfl⟩
  have hbeside : Beside m m₁ := (keeps_debug _ _).ok hdebug
  have hes : Handles m [] m₁ := .beside hbeside (.nil m₁)
  obtain ⟨⟨outcome, deadline⟩, m', look, before, after, hwait, hbefore, hafter, hr⟩ :=
    exec_waitUntil_of_sound (Device.idleOutcome ·.handles k) timeout (hes.sound hm).1
  have hsize : look.device.handles.size = m.device.handles.size := ((hes.trans hbefore).sound hm).2
  have hanswer := idleOutcome_of_lt (t := look.device.handles) (hsize ▸ hk)
  refine ⟨_, m', look, before, after, ?_, hes.trans hbefore, hafter, rfl⟩
  unfold Device.waitIdle
  rw [exec_bind_of_ok hdebug, exec_bind_of_ok hwait]
  have hr : outcome = _ := hr.trans hanswer
  by_cases hidle : (look.device.handles.get k).useCount = 0
  · rw [hr, if_pos hidle, if_pos hidle]
    rfl
  · rw [hr, if_neg hidle, if_neg hidle]
    rfl

omit [Kernel κ] in
/-- No event puts a job in flight. -/
theorem flying_of_retired {es : List JobEvent} {acts : List JobAction} {j : Job}
    (h : j ∈ flying (retired es ++ acts)) : j ∈ flying acts := by
  induction es generalizing acts with
  | nil => exact h
  | cons e es ih =>
    rw [retired, List.map_cons, List.reverse_cons, List.append_assoc] at h
    exact (List.mem_filter.mp (ih h)).1

/-- In every run use counts are the number of times that jobs in flight list a handle, and no event stops a
device for good.  A wait for a handle handles events, and goes on with the run.  It reports the handle as
idle exactly if no job that is in flight at its last look lists the handle, and times out otherwise.  A
handle that no job lists when the wait begins is reported as idle. -/
theorem AtomRun.useCount_eq {m₀ m : Machine κ} {acts : List JobAction} (h₀ : Unused m₀)
    (hg : m₀.device.generation ≠ .csf) (hr : AtomRun m₀ acts m) :
    (∀ k : Nat, (m.device.handles.get k).useCount.toNat =
      ((flying acts).flatMap (·.handles)).count (k : Int)) ∧
    (∀ e, ∃ fine m', (Device.handleJobEvent e).exec m = (.ok fine, m')) ∧
    (∃ fine m', Device.handleEvents.exec m = (.ok fine, m')) ∧
    ∀ k < m.device.handles.size, ∀ timeout, ∃ r m' look before after,
      (Device.waitIdle k timeout).exec m = (r, m') ∧
      AtomRun m₀ (retired before ++ acts) look ∧
      AtomRun m₀ (retired after ++ (retired before ++ acts)) m' ∧
      (r = .ok () ↔ ∀ j ∈ flying (retired before ++ acts), (k : Int) ∉ j.handles) ∧
      (r = .ok () ∨ r = .error (.fault (.during (.onHandle k) (.root .timeout)))) ∧
      ((∀ j ∈ flying acts, (k : Int) ∉ j.handles) → r = .ok ()) := by
  have hcount {acts' : List JobAction} {m' : Machine κ} (hr' : AtomRun m₀ acts' m') (k : Nat) :
      (m'.device.handles.get k).useCount.toNat =
        ((flying acts').flatMap (·.handles)).count (k : Int) := by
    obtain ⟨-, -, hcounts⟩ := hr'.counts h₀
    rw [← hcounts.flightCount_eq]
    exact hcounts.balanced.toNat_useCount k
  obtain ⟨hlinks, hgeneration, hcounts⟩ := hr.counts h₀
  have hsound : Sound m := ⟨hgeneration.trans_ne hg, hlinks, hcounts.balanced⟩
  refine ⟨hcount hr, fun e => ?_, ?_, fun k hk timeout => ?_⟩
  · obtain ⟨t, ht, -⟩ := hcounts.balanced.retire e.atom
    obtain ⟨fine, m', he, -⟩ := exec_handleJobEvent hlinks ht
    exact ⟨fine, m', he⟩
  · exact exec_handleEvents hsound.generation hlinks hcounts.balanced
  · obtain ⟨r, m', look, before, after, he, hbefore, hafter, hanswer⟩ := exec_waitIdle timeout hsound hk
    have hlook : AtomRun m₀ (retired before ++ acts) look := hr.handles hbefore
    have hidle : (look.device.handles.get k).useCount = 0 ↔
        ∀ j ∈ flying (retired before ++ acts), (k : Int) ∉ j.handles := by
      rw [← UInt8.toNat_inj, hcount hlook, UInt8.toNat_zero, List.count_eq_zero]
      simp only [List.mem_flatMap, not_exists, not_and]
    refine ⟨r, m', look, before, after, he, hlook, hlook.handles hafter, ?_⟩
    rw [hanswer, ← hidle]
    by_cases hzero : (look.device.handles.get k).useCount = 0
    · rw [if_pos hzero]
      exact ⟨iff_of_true rfl hzero, .inl rfl, fun _ => rfl⟩
    · rw [if_neg hzero]
      refine ⟨iff_of_false nofun hzero, .inr rfl, fun hnone => absurd ?_ hzero⟩
      exact hidle.mpr fun j hj => hnone j (flying_of_retired hj)

end Kernel

namespace UseSample

-- a table of 256 slots is evaluated
set_option maxRecDepth 20000

/-- An atom takes off that lists the only handle twice. -/
def listed : Machine Bench := ((Device.submitJob 0x2000 0 none [0, 0]).exec JobSample.held).2

theorem run_listed : AtomRun JobSample.start [.submit ⟨0, .vertex, [0, 0], true⟩] listed := by
  have halloc : (Device.allocHandle 0x1000 noFd).exec JobSample.start = (.ok 0, JobSample.held) :=
    exec_of_value (by decide)
  have hsubmit : (Device.submitJob 0x2000 0 none [0, 0]).exec JobSample.held = (.ok 0, listed) :=
    exec_of_value (by cbv)
  refine .accepted (.alloc .start halloc) (fun i hi => ⟨0, noFd, ?_, ?_⟩) hsubmit
  · simpa using hi
  · exact ⟨{ va := 0x1000, fd := noFd }, by decide, rfl, by decide⟩

end UseSample

/-- The handle has two uses while the atom is in flight, and an event of an atom that is not in flight is
handled. -/
theorem useCount_listed_sample : Unused JobSample.start ∧ JobSample.start.device.generation ≠ .csf ∧
    (UseSample.listed.device.handles.get 0).useCount.toNat = 2 ∧
      ∃ fine m', (Device.handleJobEvent ⟨1, 77, 0⟩).exec UseSample.listed = (.ok fine, m') := by
  have hg : JobSample.start.device.generation ≠ .csf := by decide
  obtain ⟨hcount, hevent, -⟩ := AtomRun.useCount_eq JobSample.unused_start hg UseSample.run_listed
  exact ⟨JobSample.unused_start, hg, hcount 0, hevent _⟩

end Mali
