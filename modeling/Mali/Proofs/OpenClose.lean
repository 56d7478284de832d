import Mali.Proofs.HandleMap
import Mali.Proofs.Mappings

/-!
# What opening and closing leave behind

Opening a device takes steps, some only for some generations, and three of them map a page.  Whatever the kernel
answers, a device that could not be opened has given back what it took: its pages, newest first, then the file.  A
device that was opened is given back in the same way when it is closed, and closing it again asks for nothing.

The steps that are undone are those that were begun, so the step that failed is among them.  It mapped nothing, and
the pages of later steps are not there yet, so undoing it does no harm.

* `Preparation`, `Device.preparation`: what only opening and closing change in a device.
* `Device.undoing`: what undoing a step asks of the kernel.
* `exec_teardown`, `exec_shutDown`: undoing steps asks for that, whatever the answers are.
* `Opening`: a device in the middle of being opened.
* `Device.open_close_balance`: opening and closing balance.
-/

namespace Mali

open Op

variable {κ : Type}

/-! ## What opening prepares -/

/-- What only opening and closing change in a device. -/
structure Preparation where
  fd : Int
  generation : Generation
  /-- How many steps have begun. -/
  begun : Nat
  tracking : Option Mapping
  userRegisters : Option Mapping
  eventMemory : Option Mapping
  deriving DecidableEq

/-- What opening a device prepared. -/
def Device.preparation (d : Device) : Preparation where
  fd := d.fd
  generation := d.generation
  begun := d.setupDone
  tracking := d.tracking
  userRegisters := d.userRegisters
  eventMemory := d.eventMemory

/-- The page that a step maps. -/
def Preparation.page (p : Preparation) : SetupStep → Option Mapping
  | .tracking => p.tracking
  | .userRegisters => p.userRegisters
  | .eventMemory => p.eventMemory
  | _ => none

/-- What closing a file asks of the kernel. -/
def fileClosing (fd : Int) : List Syscall := if 0 ≤ fd then [.close fd] else []

/-- What closing a table asks of the kernel. -/
def HandleTable.closing (t : HandleTable) : List Syscall :=
  ((t.entries.map (·.fd)).filter (0 ≤ ·)).map .close

/-- What undoing a step asks of the kernel. -/
def Device.undoing (d : Device) : SetupStep → List Syscall
  | .handleTable => d.handles.closing
  | step => (d.preparation.page step).toList.map .munmap

/-- A device without what a step made. -/
def SetupStep.undo (d : Device) : SetupStep → Device
  | .handleTable => { d with handles := {} }
  | .tracking => { d with tracking := none }
  | .properties => { d with properties := none }
  | .userRegisters => { d with userRegisters := none }
  | .eventMemory => { d with eventMemory := none }
  | .flagsModern | .flagsOld | .executableZone | .jit => d

/-- Undoing one step leaves what the others have to undo. -/
theorem Device.undoing_undo (d : Device) {step other : SetupStep} (h : other ≠ step) :
    (step.undo d).undoing other = d.undoing other := by
  cases step <;> cases other <;> first | rfl | exact absurd rfl h

/-! ## Undoing -/

/-- Whether a call could not end a mapping. -/
def CallRecord.failsUnmap : CallRecord → Bool
  | ⟨.munmap _, .error _⟩ => true
  | _ => false

/-- Some calls were made, oldest first, and a fault tells that one of them could not end a mapping. -/
def Undone (asked : List Syscall) (fault : Option Fault) (m m' : Machine κ) : Prop :=
  ∃ cs, m'.calls = cs ++ m.calls ∧ (cs.map (·.call)).reverse = asked ∧ fault.isSome = cs.any CallRecord.failsUnmap

namespace Undone

variable {asked asked' : List Syscall} {fault fault' : Option Fault} {m m₁ m' : Machine κ}

theorem none_of_calls (h : m'.calls = m.calls) : Undone [] none m m' := ⟨[], h, rfl, rfl⟩

theorem trans (h : Undone asked fault m m₁) (h' : Undone asked' fault' m₁ m') :
    Undone (asked ++ asked') (Fault.first? fault fault') m m' := by
  obtain ⟨cs, hcs, rfl, hfault⟩ := h
  obtain ⟨ds, hds, rfl, hfault'⟩ := h'
  refine ⟨ds ++ cs, by rw [hds, hcs, List.append_assoc], by simp, ?_⟩
  rw [Fault.first?, Option.isSome_or, hfault, hfault', List.any_append, Bool.or_comm]

end Undone

section Kernel

variable [Kernel κ]

theorem exec_unmapPage (p : Option Mapping) (m : Machine κ) :
    ∃ fault m', (Device.unmapPage p).exec m = (.ok fault, m') ∧ m'.device = m.device ∧
      Undone (p.toList.map .munmap) fault m m' := by
  cases p with
  | none => exact ⟨none, m, rfl, rfl, .none_of_calls rfl⟩
  | some p =>
    unfold Device.unmapPage unmapMemory
    rw [exec_bind, exec_bind, exec_call]
    cases h : (Kernel.call m.kernel (.munmap p)).1.result with
    | ok _ => exact ⟨_, _, rfl, rfl, [_], rfl, rfl, rfl⟩
    | error e => exact ⟨_, _, rfl, rfl, [_], rfl, rfl, rfl⟩

/-- The calls only grow. -/
def Grows (m m' : Machine κ) : Prop := m.calls <:+ m'.calls

omit [Kernel κ] in
instance : OfTrace (Grows (κ := κ)) where
  refl m := List.suffix_refl m.calls
  trans := List.IsSuffix.trans
  of_trace _ h _ _ _ _ := ⟨[], h.symm⟩

theorem grows_closeHandles : Keeps (Grows (κ := κ)) Device.closeHandles := by
  have hcall (c : Syscall) : Keeps (Grows (κ := κ)) (call c) := fun m _ => List.suffix_cons _ m.calls
  have hclose (k : Nat) (fd : Int) : Keeps (Grows (κ := κ)) (Device.closeHandleFd k fd) :=
    keeps_bind_except (hcall _) (fun _ => keeps_pure ()) fun e => keeps_error _ _
  have hall (hs : List Handle) (k : Nat) : Keeps (Grows (κ := κ)) (Device.closeHandleFds hs k) := by
    induction hs generalizing k with
    | nil => exact keeps_pure ()
    | cons h hs ih =>
      unfold Device.closeHandleFds
      split
      · exact keeps_bind (hclose _ _) fun _ => ih _
      · exact keeps_bind (keeps_pure ()) fun _ => ih _
  exact keeps_bind keeps_device fun d => keeps_bind (hall _ _) fun _ =>
    keeps_modify fun _ => Journey.refl (R := Grows) _

/-- Closing a table closes what it owns, and whatever the answers are there is no fault. -/
theorem undone_closeHandles (m : Machine κ) :
    ∃ m', Device.closeHandles.exec m = (.ok (), m') ∧ m'.device = { m.device with handles := {} } ∧
      Undone m.device.handles.closing none m m' := by
  obtain ⟨m', he, hdevice, hcalls⟩ := exec_closeHandles m
  obtain ⟨cs, hcs⟩ := grows_closeHandles.ok he
  have hclosing : cs.map (·.call) = m.device.handles.closing.reverse := by
    rw [Machine.syscalls, Machine.syscalls, ← hcs, List.map_append] at hcalls
    rw [List.append_cancel_right hcalls, HandleTable.closing, List.map_reverse]
  refine ⟨m', he, hdevice, cs, hcs.symm, by rw [hclosing, List.reverse_reverse], ?_⟩
  -- closing a descriptor is not ending a mapping
  rw [Option.isSome_none, eq_comm, List.any_eq_false]
  intro r hr
  have hmem : r.call ∈ m.device.handles.closing.reverse := hclosing ▸ List.mem_map_of_mem hr
  obtain ⟨fd, -, hfd⟩ := List.mem_map.mp (List.mem_reverse.mp hmem)
  obtain ⟨c, answer⟩ := r
  obtain rfl : .close fd = c := hfd
  simp [CallRecord.failsUnmap]

theorem exec_cleanup (step : SetupStep) (m : Machine κ) :
    ∃ fault m', (Device.cleanup step).exec m = (.ok fault, m') ∧ m'.device = step.undo m.device ∧
      Undone (m.device.undoing step) fault m m' := by
  have hpage (page : Device → Option Mapping) (f : Device → Device) : ∃ fault m', (do
      let fault ← Device.unmapPage (page (← device))
      modifyDevice f
      return fault : Op κ (Option Fault)).exec m = (.ok fault, m') ∧ m'.device = f m.device ∧
        Undone ((page m.device).toList.map .munmap) fault m m' := by
    obtain ⟨fault, m₁, he, hdevice, hundone⟩ := exec_unmapPage (page m.device) m
    rw [exec_bind_of_ok (exec_device m), exec_bind_of_ok he]
    exact ⟨fault, _, rfl, congrArg f hdevice, hundone⟩
  unfold Device.cleanup
  cases step with
  | handleTable =>
    obtain ⟨m₁, he, hdevice, hundone⟩ := undone_closeHandles m
    exact ⟨none, m₁, by rw [exec_bind_of_ok he, exec_pure], hdevice, hundone⟩
  | tracking => exact hpage (·.tracking) _
  | userRegisters => exact hpage (·.userRegisters) _
  | eventMemory => exact hpage (·.eventMemory) _
  | properties => exact ⟨none, _, rfl, rfl, .none_of_calls rfl⟩
  | flagsModern => exact ⟨none, m, rfl, rfl, .none_of_calls rfl⟩
  | flagsOld => exact ⟨none, m, rfl, rfl, .none_of_calls rfl⟩
  | executableZone => exact ⟨none, m, rfl, rfl, .none_of_calls rfl⟩
  | jit => exact ⟨none, m, rfl, rfl, .none_of_calls rfl⟩

/-- Undoing steps asks for what each of them left, in the order given, and goes on whatever the answers are.  By
induction on the steps. -/
theorem exec_teardown {steps : List SetupStep} (hsteps : steps.Nodup) (m : Machine κ) :
    ∃ fault m', (Device.teardown steps).exec m = (.ok fault, m') ∧
      (∃ handles properties tracking userRegisters eventMemory, m'.device = { m.device with
        setupDone := m.device.setupDone - steps.length
        handles, properties, tracking, userRegisters, eventMemory }) ∧
      Undone ((steps.filter (·.appliesTo m.device.generation)).flatMap m.device.undoing) fault m m' := by
  induction steps generalizing m with
  | nil => exact ⟨none, m, rfl, ⟨_, _, _, _, _, rfl⟩, .none_of_calls rfl⟩
  | cons step steps ih =>
    obtain ⟨hnew, hsteps⟩ := List.nodup_cons.mp hsteps
    -- the machine in which the step is no longer counted
    have hone : ∃ m₁ : Machine κ, m₁ = { m with device := { m.device with
      setupDone := m.device.setupDone - 1 } } := ⟨_, rfl⟩
    obtain ⟨m₁, hm₁⟩ := hone
    have hdevice₁ : m₁.device = { m.device with setupDone := m.device.setupDone - 1 } := by rw [hm₁]
    have hundoing₁ : m₁.device.undoing = m.device.undoing := by
      funext other
      rw [hdevice₁]
      cases other <;> rfl
    unfold Device.teardown
    rw [exec_bind_of_ok (exec_modifyDevice _ m), ← hm₁, exec_bind_of_ok (exec_device m₁)]
    rw [List.filter_cons]
    have hgeneration : m₁.device.generation = m.device.generation := by rw [hdevice₁]
    rw [hgeneration]
    split
    · obtain ⟨fault, m₂, hclean, hdevice₂, hundone⟩ := exec_cleanup step m₁
      have hgeneration₂ : m₂.device.generation = m.device.generation := by
        rw [hdevice₂, ← hgeneration]
        cases step <;> rfl
      have hrest : (steps.filter (·.appliesTo m.device.generation)).flatMap m₂.device.undoing =
          (steps.filter (·.appliesTo m.device.generation)).flatMap m.device.undoing := by
        refine List.flatMap_congr fun other hother => ?_
        have hne : other ≠ step := fun h => hnew (h.subst (List.mem_filter.mp hother).1)
        rw [hdevice₂, Device.undoing_undo _ hne, hundoing₁]
      -- the steps that are left, from a machine that differs in its log
      have hgo {m₃ : Machine κ} (hd₃ : m₃.device = m₂.device) (hc₃ : m₃.calls = m₂.calls) :
          ∃ fault' m', (Device.teardown steps).exec m₃ = (.ok fault', m') ∧
            (∃ handles properties tracking userRegisters eventMemory, m'.device = { m.device with
              setupDone := m.device.setupDone - (step :: steps).length
              handles, properties, tracking, userRegisters, eventMemory }) ∧
            Undone (m.device.undoing step ++
              (steps.filter (·.appliesTo m.device.generation)).flatMap m.device.undoing)
              (Fault.first? fault fault') m m' := by
        obtain ⟨fault', m', he, ⟨handles, properties, tracking, userRegisters, eventMemory, hd⟩, hundone'⟩ :=
          ih hsteps m₃
        rw [hd₃, hgeneration₂, hrest] at hundone'
        rw [hundoing₁] at hundone
        have hfirst : Undone (m.device.undoing step) fault m m₃ := by
          obtain ⟨cs, hcs, h⟩ := hundone
          exact ⟨cs, by rw [hc₃, hcs, hm₁], h⟩
        refine ⟨fault', m', he, ?_, hfirst.trans hundone'⟩
        rw [hd, hd₃, hdevice₂, hdevice₁, List.length_cons, Nat.add_comm, ← Nat.sub_sub]
        cases step <;> exact ⟨_, _, _, _, _, rfl⟩
      rw [exec_bind_of_ok hclean, List.flatMap_cons]
      cases fault with
      | none =>
        obtain ⟨fault', m', he, hd, hundone⟩ := hgo rfl rfl
        exact ⟨fault', m', he, hd, hundone⟩
      | some f =>
        dsimp only
        rw [exec_bind_of_ok (exec_error _ _ m₂)]
        obtain ⟨fault', m', he, hd, hundone⟩ := @hgo { m₂ with log := ⟨.error, "kbase cleanup failed",
          [("step", step.name), ("error", f.message)]⟩ :: m₂.log } rfl rfl
        rw [exec_bind_of_ok he]
        exact ⟨_, m', rfl, hd, hundone⟩
    · obtain ⟨fault, m', he, ⟨handles, properties, tracking, userRegisters, eventMemory, hd⟩, hundone⟩ :=
        ih hsteps m₁
      refine ⟨fault, m', he, ⟨handles, properties, tracking, userRegisters, eventMemory, ?_⟩, ?_⟩
      · rw [hd, hdevice₁, List.length_cons, Nat.sub_sub, Nat.add_comm 1]
      · rw [hundoing₁, hgeneration] at hundone
        obtain ⟨cs, hcs, h⟩ := hundone
        exact ⟨cs, by rw [hcs, hm₁], h⟩

/-! ## The poller -/

omit [Kernel κ] in
/-- What handling events changes in a device. -/
def OnlyEvents (m m' : Machine κ) : Prop :=
  ∃ handles slots inFlight, m'.device = { m.device with handles, slots, inFlight }

omit [Kernel κ] in
instance : OfDevice (OnlyEvents (κ := κ)) where
  refl _ := ⟨_, _, _, rfl⟩
  trans h h' := by
    obtain ⟨_, _, _, h⟩ := h
    obtain ⟨t, s, f, h'⟩ := h'
    exact ⟨t, s, f, by rw [h', h]⟩
  of_device h := ⟨_, _, _, h⟩

theorem onlyEvents_handleEvents : Keeps (OnlyEvents (κ := κ)) Device.handleEvents := by
  have hadvance (i : Int) (n : UInt64) : Keeps (OnlyEvents (κ := κ)) (Device.advanceSlot i n) := by
    unfold Device.advanceSlot
    refine keeps_bind (keeps_slot i) fun s => ?_
    split
    · exact keeps_bind (keeps_trace _ _) fun _ => keeps_pure _
    · exact keeps_bind (keeps_modify fun _ => ⟨_, _, _, rfl⟩) fun _ => keeps_bind (keeps_traceReady _ _ _) fun _ =>
        keeps_bind (keeps_checkRule _) fun _ => keeps_pure _
  have hcallbacks (cs : List Callback) : Keeps (OnlyEvents (κ := κ)) (Device.runCallbacks cs) :=
    (onlyHandles_runCallbacks cs).mono fun m m' ⟨t, h⟩ => ⟨t, m.device.slots, m.device.inFlight, h⟩
  have hrecords (is : List Nat) : Keeps (OnlyEvents (κ := κ)) (Device.advanceFromRecords is) := by
    induction is with
    | nil => exact keeps_pure _
    | cons i is ih =>
      exact keeps_bind (keeps_eventSeq _) fun n => keeps_bind (keeps_slot _) fun s =>
        keeps_bind (keeps_trace _ _) fun _ => keeps_bind (hadvance _ _) fun cs =>
        keeps_bind ih fun _ => keeps_pure _
  have hstream : Keeps (OnlyEvents (κ := κ)) Device.handleStreamEvents := by
    unfold Device.handleStreamEvents
    refine keeps_bind keeps_readNotification fun fine => keeps_bind keeps_device fun d => ?_
    split
    · exact keeps_pure fine
    · exact keeps_bind (hrecords _) fun cs => keeps_bind (hcallbacks cs) fun _ => keeps_pure fine
  have hretire (atom : UInt8) : Keeps (OnlyEvents (κ := κ)) (Device.retireAtom atom) := by
    unfold Device.retireAtom
    refine keeps_bind keeps_device fun d => ?_
    split
    · exact keeps_violate _
    · exact keeps_modify fun _ => ⟨_, _, _, rfl⟩
  have hevent (e : JobEvent) : Keeps (OnlyEvents (κ := κ)) (Device.handleJobEvent e) := by
    have hend (fine : Bool) : Keeps (OnlyEvents (κ := κ)) (do
        Device.retireAtom e.atom
        Device.advance e.atom.toNat (e.seqnum + 1)
        return fine : Op κ Bool) :=
      keeps_bind (hretire _) fun _ => keeps_bind (keeps_bind (hadvance _ _) hcallbacks) fun _ => keeps_pure _
    unfold Device.handleJobEvent
    dsimp only
    split
    · exact keeps_bind (keeps_error _ _) fun _ => hend _
    · exact hend _
  have hjobs (fuel : Nat) (fine : Bool) : Keeps (OnlyEvents (κ := κ)) (Device.handleJobEvents fuel fine) := by
    induction fuel generalizing fine with
    | zero => exact keeps_pure fine
    | succ fuel ih =>
      unfold Device.handleJobEvents
      refine keeps_bind (keeps_readRecord _) fun r => ?_
      split
      · exact keeps_pure fine
      · exact keeps_pure false
      · exact keeps_bind (hevent _) fun ok => ih _
  unfold Device.handleEvents
  refine keeps_bind keeps_device fun d => ?_
  split
  · exact hstream
  · exact hjobs _ _
  · exact hjobs _ _

omit [Kernel κ] in
/-- What opening prepared stays as it is. -/
def SamePreparation (m m' : Machine κ) : Prop := m'.device.preparation = m.device.preparation

omit [Kernel κ] in
instance : OfDevice (SamePreparation (κ := κ)) where
  refl _ := rfl
  trans h h' := Eq.trans h' h
  of_device h := congrArg Device.preparation h

/-- Waits and polls leave alone what opening prepared. -/
theorem polling_samePreparation : Polling (κ := κ) (Keeps SamePreparation) where
  pure := keeps_pure
  bind := keeps_bind
  device := keeps_device
  now := keeps_now
  call c _ _ := keeps_call c
  error := keeps_error
  modify f hf := keeps_modify fun m => by
    obtain ⟨_, _, _, _, hd⟩ := hf m.device
    show (f m.device).preparation = m.device.preparation
    rw [hd]
    rfl
  handleEvents := onlyEvents_handleEvents.mono fun m m' ⟨_, _, _, hd⟩ => by
    rw [SamePreparation, hd]
    rfl

/-- Polls that end one after the other leave no poll behind.  By induction on the polls. -/
theorem finishWith_ok {ends : List Nat} {m m' : Machine κ} {u : Unit} (hleaving : m.device.leaving = ends)
    (hpoller : m.device.poller = .fresh) (he : (Wait.finishWith ends).exec m = (.ok u, m')) :
    m'.device.leaving = [] ∧ m'.device.poller = .fresh := by
  induction ends generalizing m with
  | nil =>
    cases he
    exact ⟨hleaving, hpoller⟩
  | cons stop ends ih =>
    obtain ⟨_, m₁, hawait, he⟩ := bind_ok he
    have h₁ : m₁.device = m.device := (keeps_discard (keeps_await (R := SameDevice) stop)).ok hawait
    obtain ⟨_, m₂, hend, he⟩ := bind_ok he
    unfold Wait.endOldest at hend
    rw [exec_bind_of_ok (exec_device m₁), h₁, hleaving] at hend
    obtain ⟨_, m₃, hmodify, hpass⟩ := bind_ok hend
    cases hmodify
    obtain ⟨_, m₄, hevents, hcount⟩ := bind_ok hpass
    obtain ⟨_, _, _, hd⟩ := (keeps_discard onlyEvents_handleEvents).ok hevents
    cases hcount
    refine ih ?_ ?_ he
    · show m₄.device.leaving = ends
      rw [hd]
    · show m₄.device.poller = .fresh
      rw [hd]
      exact (congrArg Device.poller h₁).trans hpoller

/-- What closing begins with. -/
def Device.halt : Op κ Unit := do
  debug "Device::Close"
  Wait.stopPoller

/-- A poller that was stopped is in no poll and begins none, and what opening prepared is still there. -/
theorem halt_ok {m m' : Machine κ} {u : Unit} (he : Device.halt.exec m = (.ok u, m')) :
    m'.device.preparation = m.device.preparation ∧ m'.device.leaving = [] ∧ m'.device.poller = .fresh := by
  obtain ⟨_, m₁, hdebug, he⟩ := bind_ok he
  have h₁ : m₁.device.preparation = m.device.preparation := (keeps_debug (R := SamePreparation) _ _).ok hdebug
  obtain ⟨_, m₂, hdismiss, he⟩ := bind_ok he
  have h₂ : m₂.device.preparation = m₁.device.preparation := polling_samePreparation.dismiss.ok hdismiss
  have hfresh : m₂.device.poller = .fresh := by
    unfold Wait.dismiss at hdismiss
    obtain ⟨d, m₃, -, hdismiss⟩ := bind_ok hdismiss
    split at hdismiss
    · obtain ⟨_, m₄, -, hleave⟩ := bind_ok hdismiss
      cases hleave
      rfl
    · cases hdismiss
      rfl
  obtain ⟨_, m₃, hfinish, he⟩ := bind_ok he
  cases he
  obtain ⟨_, _, hdevice, hfinish⟩ := bind_ok hfinish
  cases hdevice
  have h₃ : m₃.device.preparation = m₂.device.preparation :=
    (polling_samePreparation.finishWith _).ok hfinish
  obtain ⟨hleaving, hpoller⟩ := finishWith_ok rfl hfresh hfinish
  exact ⟨h₃.trans (h₂.trans h₁), hleaving, hpoller⟩

/-- If no poll is going on, stopping the poller only notes that the device is closed. -/
theorem exec_halt {m : Machine κ} (hpoller : m.device.poller = .fresh) (hleaving : m.device.leaving = []) :
    ∃ m', Device.halt.exec m = (.ok (), m') ∧ m'.device = { m.device with closed := true } ∧
      m'.calls = m.calls := by
  have hpolls : Wait.polls m.device = [] := by
    rw [Wait.polls, hpoller, hleaving]
    rfl
  have hdismiss (log : List LogRecord) : Wait.dismiss.exec { m with log } =
      (.ok (), { m with log, device := { m.device with leaving := [], poller := .fresh } }) := by
    unfold Wait.dismiss
    rw [exec_bind_of_ok (exec_device _), if_neg (by rw [hpoller]; decide)]
    dsimp only
    rw [exec_modifyDevice, hpolls]
  unfold Device.halt Wait.stopPoller
  rw [exec_bind_of_ok (exec_debug _ _ m), exec_bind_of_ok (hdismiss _)]
  refine ⟨_, rfl, ?_, rfl⟩
  rw [← hpoller, ← hleaving]

/-! ## Closing -/

omit [Kernel κ] in
/-- Whether the kernel answered a call with an error. -/
def CallRecord.failed (r : CallRecord) : Bool :=
  match r.result with
  | .ok _ => false
  | .error _ => true

/-- Closing the file asks for that once, if there is one. -/
theorem exec_closeFile (m : Machine κ) :
    ∃ fault m' file, Device.closeFile.exec m = (.ok fault, m') ∧
      m'.device = { m.device with fd := if 0 ≤ m.device.fd then -1 else m.device.fd } ∧
      m'.calls = file ++ m.calls ∧ file.map (·.call) = fileClosing m.device.fd ∧
      fault.isSome = file.any CallRecord.failed := by
  unfold Device.closeFile fileClosing
  rw [exec_bind_of_ok (exec_device m)]
  by_cases hfd : 0 ≤ m.device.fd
  · simp only [if_pos hfd]
    rw [exec_bind, exec_call]
    cases h : (Kernel.call m.kernel (.close m.device.fd)).1.result with
    | ok _ => exact ⟨_, _, [_], rfl, rfl, rfl, rfl, rfl⟩
    | error e => exact ⟨_, _, [_], rfl, rfl, rfl, rfl, rfl⟩
  · simp only [if_neg hfd]
    exact ⟨none, m, [], rfl, rfl, rfl, rfl, rfl⟩

omit [Kernel κ] in
/-- A device that is closed: nothing is prepared, and nothing polls. -/
structure Device.Shut (d : Device) : Prop where
  begun : d.setupDone = 0
  fd : d.fd < 0
  poller : d.poller = .fresh
  leaving : d.leaving = []

/-- From a device whose poller has stopped, the steps that were begun were undone and the file was closed.  The
fault tells that a mapping could not be ended, or that the file could not be closed. -/
structure Closed (steps : List SetupStep) (fault : Option Fault) (m m' : Machine κ) : Prop where
  shut : m'.device.Shut
  calls : ∃ file undo, m'.calls = file ++ (undo ++ m.calls) ∧ file.map (·.call) = fileClosing m.device.fd ∧
    (undo.map (·.call)).reverse =
      (steps.reverse.filter (·.appliesTo m.device.generation)).flatMap m.device.undoing ∧
    fault.isSome = (undo.any CallRecord.failsUnmap || file.any CallRecord.failed)

/-- Once the poller has stopped, closing goes on whatever the answers are. -/
theorem exec_shutDown {steps rest : List SetupStep} {m m₁ : Machine κ} {u : Unit}
    (hsteps : SetupStep.all = steps ++ rest) (hbegun : m.device.setupDone = steps.length)
    (hhalt : Device.halt.exec m = (.ok u, m₁)) :
    ∃ fault m', Device.shutDown.exec m = (.ok fault, m') ∧ Closed steps fault m₁ m' := by
  obtain ⟨hprepared, hleaving, hpoller⟩ := halt_ok hhalt
  have hbegun₁ : m₁.device.setupDone = steps.length := (congrArg Preparation.begun hprepared).trans hbegun
  have htake : SetupStep.all.take m₁.device.setupDone = steps := by
    rw [hsteps, hbegun₁, List.take_left]
  have hnodup : steps.reverse.Nodup := by
    have hall : SetupStep.all.Nodup := by decide
    rw [hsteps] at hall
    exact List.nodup_reverse.mpr hall.of_append_left
  obtain ⟨_, m₀, hdebug, hstop⟩ := bind_ok hhalt
  obtain ⟨fault, m₂, hteardown, ⟨_, _, _, _, _, hdevice⟩, undo, hundo, hasked, hfault⟩ := exec_teardown hnodup m₁
  obtain ⟨fault', m', file, hfile, hdevice', hcalls, hclose, hfault'⟩ := exec_closeFile m₂
  have hfd : m₂.device.fd = m₁.device.fd := by rw [hdevice]
  refine ⟨Fault.first? fault fault', m', ?_, ⟨?_, ?_, ?_, ?_⟩, file, undo, ?_, ?_, hasked, ?_⟩
  · unfold Device.shutDown
    rw [exec_bind_of_ok hdebug, exec_bind_of_ok hstop, exec_bind_of_ok (exec_device m₁), htake,
      exec_bind_of_ok hteardown, exec_bind_of_ok hfile, exec_pure]
  · rw [hdevice', hdevice, hbegun₁, List.length_reverse]
    exact Nat.sub_self _
  · rw [hdevice']
    show (if 0 ≤ m₂.device.fd then -1 else m₂.device.fd) < 0
    split <;> omega
  · rw [hdevice', hdevice, hpoller]
  · rw [hdevice', hdevice, hleaving]
  · rw [hcalls, hundo]
  · rw [hclose, hfd]
  · rw [Fault.first?, Option.isSome_or, hfault, hfault']

omit [Kernel κ] in
/-- What undoing steps other than that of the table asks for is to end what they mapped, if no step mapped anything
that its generation does not need. -/
theorem flatMap_undoing {d : Device} {steps : List SetupStep} (htable : .handleTable ∉ steps)
    (hneeded : ∀ step, d.preparation.page step ≠ none → step.appliesTo d.generation = true) :
    (steps.filter (·.appliesTo d.generation)).flatMap d.undoing =
      (steps.filterMap d.preparation.page).map .munmap := by
  induction steps with
  | nil => rfl
  | cons step steps ih =>
    rw [List.mem_cons, not_or] at htable
    have hstep : d.undoing step = (d.preparation.page step).toList.map .munmap := by
      cases step <;> first | rfl | exact absurd rfl htable.1
    have ih := ih htable.2
    rw [List.filter_cons, List.filterMap_cons]
    cases hpage : d.preparation.page step with
    | none =>
      split
      · rw [List.flatMap_cons, hstep, hpage, ih]
        rfl
      · exact ih
    | some p =>
      rw [if_pos (hneeded step (by rw [hpage]; exact Option.some_ne_none p)), List.flatMap_cons, hstep, hpage, ih]
      rfl

omit [Kernel κ] in
/-- What undoing the first steps asks for: the pages end newest first, then the table closes what it owns. -/
theorem flatMap_undoing_begun {d : Device} {steps rest : List SetupStep} (hsteps : SetupStep.all = steps ++ rest)
    (hneeded : ∀ step, d.preparation.page step ≠ none → step.appliesTo d.generation = true) :
    (steps.reverse.filter (·.appliesTo d.generation)).flatMap d.undoing =
      (steps.reverse.filterMap d.preparation.page).map .munmap ++ if steps = [] then [] else d.handles.closing := by
  cases steps with
  | nil => rfl
  | cons step steps =>
    have hnodup : SetupStep.all.Nodup := by decide
    obtain ⟨rfl, hrest⟩ := List.cons.inj hsteps
    rw [hsteps] at hnodup
    have htable : .handleTable ∉ steps.reverse := fun hmem =>
      (List.nodup_cons.mp hnodup).1 (List.mem_append_left _ (List.mem_reverse.mp hmem))
    rw [List.reverse_cons, List.filter_append, List.flatMap_append, List.filterMap_append, List.map_append,
      flatMap_undoing htable hneeded, if_neg (List.cons_ne_nil _ _), List.append_assoc]
    congr 1
    exact List.append_nil _

/-! ## Opening -/

omit [Kernel κ] in
/-- What a step does, whether or not it fails: the mappings that it made are the page that it is for. -/
structure Prepares (step : SetupStep) (m m' : Machine κ) : Prop where
  calls : ∃ cs, m'.calls = cs ++ m.calls ∧ (∀ r ∈ cs, r.call.releases = false) ∧
    madeBy cs = (m'.device.preparation.page step).toList
  others : ∀ other, other ≠ step → m'.device.preparation.page other = m.device.preparation.page other
  device : ∃ handles properties tracking userRegisters eventMemory eventVa,
    m'.device = { m.device with handles, properties, tracking, userRegisters, eventMemory, eventVa } ∧
      (m.device.handles = {} → handles = {})
  batches : m'.batches = m.batches

namespace Prepares

variable {step : SetupStep} {m m₁ m' : Machine κ} {α : Type}

omit [Kernel κ] in
theorem of_mapped (hpage : m.device.preparation.page step = none) (h : Mapped [] m m') : Prepares step m m' where
  calls := by
    rw [h.device, hpage]
    exact h.calls
  others other _ := by rw [h.device]
  device := ⟨_, _, _, _, _, _, h.device, id⟩
  batches := h.batches

omit [Kernel κ] in
/-- A step that makes a mapping and keeps it as its page. -/
theorem of_maps {g : α → Mapping} {x : Op κ α} {f : α → Device → Device} {r : Except Halt Unit}
    (hpage : m.device.preparation.page step = none) (hx : MapsAt g x m)
    (hf : ∀ a d, ∃ tracking userRegisters eventMemory eventVa,
      f a d = { d with tracking, userRegisters, eventMemory, eventVa })
    (hself : ∀ a d, (f a d).preparation.page step = some (g a))
    (hothers : ∀ a d other, other ≠ step → (f a d).preparation.page other = d.preparation.page other)
    (he : (x >>= fun a => modifyDevice (f a)).exec m = (r, m')) (hr : Survives r) : Prepares step m m' := by
  rw [exec_bind] at he
  rcases hxm : x.exec m with ⟨e | a, m₁⟩ <;> rw [hxm] at he <;> cases he
  · exact of_mapped hpage (hx.survives hxm (by cases e <;> exact hr))
  · have hm := hx.survives hxm trivial
    obtain ⟨tracking, userRegisters, eventMemory, eventVa, hfa⟩ := hf a m.device
    constructor
    · obtain ⟨cs, hcs, hkeep, hmade⟩ := hm.calls
      refine ⟨cs, hcs, hkeep, ?_⟩
      show madeBy cs = ((f a m₁.device).preparation.page step).toList
      rw [hself, hmade]
      rfl
    · intro other hother
      show (f a m₁.device).preparation.page other = _
      rw [hothers a _ other hother, hm.device]
    · refine ⟨m.device.handles, m.device.properties, tracking, userRegisters, eventMemory, eventVa, ?_, id⟩
      show f a m₁.device = _
      rw [hm.device, hfa]
    · exact hm.batches

end Prepares

theorem mapped_setFlags (flags : UInt32) : Keeps (Mapped (κ := κ) []) (Interface.setFlags flags) := by
  unfold Interface.setFlags
  refine keeps_bind keeps_device fun d => ?_
  split
  · exact keeps_oldRequest _ _
  · exact keeps_request _ _
  · exact keeps_request _ _

theorem mapped_gpuProperties : Keeps (Mapped (κ := κ) []) Interface.gpuProperties := by
  have hstream : Keeps (Mapped (κ := κ) []) Interface.propertyStream := by
    unfold Interface.propertyStream
    refine keeps_bind (keeps_request _ _) fun query => ?_
    have hread : Keeps (Mapped (κ := κ) []) (do
        let reply : PropertyReply ←
          Interface.request "GET_GPUPROPS" (.getGpuProps (UInt32.ofNat query.returned.toNat) 0)
        let bytes := Interface.fitBytes reply.written query.returned.toNat
        if query.returned ≤ reply.returned then return .stream bytes
        else if reply.returned < 0 then crash
        else return .stream (bytes.take reply.returned.toNat) : Op κ Properties) := by
      refine keeps_bind (keeps_request _ _) fun reply => ?_
      dsimp only
      split
      · exact keeps_pure _
      · split
        · exact keeps_crash
        · exact keeps_pure _
    dsimp only
    split
    · exact keeps_bind (keeps_fail _) fun _ => hread
    · exact hread
  unfold Interface.gpuProperties
  refine keeps_bind keeps_device fun d => ?_
  split
  · exact keeps_bind (keeps_oldRequest _ _) fun _ => keeps_pure _
  · exact hstream
  · exact hstream

theorem mapped_zones (vaPages physPages : UInt64) (maxAllocations : UInt8) :
    Keeps (Mapped (κ := κ) []) (Interface.initExecutable vaPages) ∧
      Keeps (Mapped (κ := κ) []) (Interface.initJit vaPages maxAllocations physPages) := by
  unfold Interface.initExecutable Interface.initJit
  constructor
  · refine keeps_bind keeps_device fun d => ?_
    split
    · exact keeps_unsupported _
    · exact keeps_request _ _
    · exact keeps_request _ _
  · refine keeps_bind keeps_device fun d => ?_
    split
    · exact keeps_unsupported _
    · exact keeps_request _ _
    · exact keeps_request _ _

theorem setup_prepares {step : SetupStep} {m m' : Machine κ} {r : Except Halt Unit}
    (hpage : m.device.preparation.page step = none) (he : (Device.setup step).exec m = (r, m'))
    (hr : Survives r) : Prepares step m m' := by
  have hplain {x : Op κ Unit} (hx : Keeps (Mapped []) x) (he : x.exec m = (r, m')) : Prepares step m m' :=
    .of_mapped hpage ((hx m).survives he hr)
  cases step with
  | handleTable =>
    cases he
    exact ⟨⟨[], rfl, by simp, rfl⟩, fun other _ => by cases other <;> rfl, ⟨_, _, _, _, _, _, rfl, fun _ => rfl⟩, rfl⟩
  | flagsModern => exact hplain (mapped_setFlags _) he
  | flagsOld => exact hplain (mapped_setFlags _) he
  | executableZone => exact hplain (mapped_zones _ 0 0).1 he
  | jit => exact hplain (mapped_zones _ _ _).2 he
  | properties =>
    unfold Device.setup at he
    dsimp only at he
    rw [exec_bind] at he
    have hread := mapped_gpuProperties m
    rcases hx : Interface.gpuProperties.exec m with ⟨e | p, m₁⟩ <;> rw [hx] at he <;> cases he
    · exact .of_mapped hpage (hread.survives hx (by cases e <;> exact hr))
    · have hm : Mapped [] m m₁ := hread.survives hx trivial
      have hdevice : { m₁.device with properties := some p } = { m.device with properties := some p } := by
        rw [hm.device]
      refine ⟨hm.calls, fun other _ => ?_, ⟨_, _, _, _, _, _, hdevice, id⟩, hm.batches⟩
      show ({ m₁.device with properties := some p } : Device).preparation.page other = _
      rw [hdevice]
      rfl
  | tracking =>
    refine .of_maps hpage (maps_mapPage _ _ _ m) (fun _ _ => ⟨_, _, _, _, rfl⟩) (fun _ _ => rfl) ?_ he hr
    intro _ _ other hother
    cases other <;> first | rfl | exact absurd rfl hother
  | userRegisters =>
    refine .of_maps hpage (maps_mapPage _ _ _ m) (fun _ _ => ⟨_, _, _, _, rfl⟩) (fun _ _ => rfl) ?_ he hr
    intro _ _ other hother
    cases other <;> first | rfl | exact absurd rfl hother
  | eventMemory =>
    unfold Device.setup at he
    dsimp only at he
    rw [exec_bind_of_ok (exec_device m)] at he
    refine .of_maps hpage (mapsAt_alloc (.inl (by decide))) (fun _ _ => ⟨_, _, _, _, rfl⟩) (fun _ _ => rfl) ?_ he hr
    intro _ _ other hother
    cases other <;> first | rfl | exact absurd rfl hother

omit [Kernel κ] in
/-- The steps that map a page. -/
def SetupStep.paged : List SetupStep := [.tracking, .userRegisters, .eventMemory]

omit [Kernel κ] in
/-- Some steps left their pages, as far as the generation needs them. -/
def Device.Paged (d : Device) (steps : List SetupStep) : Prop :=
  ∀ step ∈ steps, step ∈ SetupStep.paged → step.appliesTo d.generation = true → d.preparation.page step ≠ none

/-- A step that maps a page leaves one, unless it fails. -/
theorem setup_pages {step : SetupStep} {m m' : Machine κ} {u : Unit} (hpaged : step ∈ SetupStep.paged)
    (he : (Device.setup step).exec m = (.ok u, m')) : m'.device.preparation.page step ≠ none := by
  unfold Device.setup at he
  cases step with
  | tracking =>
    obtain ⟨p, m₁, -, he⟩ := bind_ok he
    cases he
    exact Option.some_ne_none p
  | userRegisters =>
    obtain ⟨p, m₁, -, he⟩ := bind_ok he
    cases he
    exact Option.some_ne_none p
  | eventMemory =>
    obtain ⟨d, m₁, -, he⟩ := bind_ok he
    obtain ⟨region, m₂, -, he⟩ := bind_ok he
    cases he
    exact Option.some_ne_none region.cpu
  | _ => simp [SetupStep.paged] at hpaged

omit [Kernel κ] in
/-- A device in the middle of being opened: some steps have begun, and the mappings that were made are their pages,
newest first. -/
structure Opening (m₀ : Machine κ) (fd : Int) (steps : List SetupStep) (m : Machine κ) : Prop where
  calls : ∃ setup, m.calls = setup ++ m₀.calls ∧ (∀ r ∈ setup, r.call.releases = false) ∧
    madeBy setup = steps.reverse.filterMap m.device.preparation.page
  begun : m.device.setupDone = steps.length
  pending : ∀ step, step ∉ steps → m.device.preparation.page step = none
  needed : ∀ step, m.device.preparation.page step ≠ none → step.appliesTo m.device.generation = true
  fd : m.device.fd = fd
  handles : m.device.handles = {}
  poller : m.device.poller = .fresh
  leaving : m.device.leaving = []
  /-- No slot is in use yet. -/
  progress : m.progress =
    { generation := m.device.generation, slots := Vector.replicate slotCount {}, bound := 0, streams := [] }
  batches : m.batches = m₀.batches

omit [Kernel κ] in
/-- What was taken since a machine was given back: every mapping was ended once, newest first, and then the file was
closed. -/
def GivenBack (m₀ : Machine κ) (fd : Int) (m : Machine κ) : Prop :=
  ∃ setup undo, m.calls = undo ++ (setup ++ m₀.calls) ∧ (∀ r ∈ setup, r.call.releases = false) ∧
    (undo.map (·.call)).reverse = (madeBy setup).map .munmap ++ fileClosing fd

namespace Opening

variable {m₀ m m' : Machine κ} {fd : Int} {steps : List SetupStep} {step : SetupStep}

omit [Kernel κ] in
/-- What neither maps nor releases anything. -/
theorem mapped (h : Opening m₀ fd steps m) (hm : Mapped [] m m') : Opening m₀ fd steps m' := by
  constructor
  case calls =>
    obtain ⟨setup, hcalls, hkeep, hmade⟩ := h.calls
    obtain ⟨cs, hcs, hkeep', hmade'⟩ := hm.calls
    refine ⟨cs ++ setup, by rw [hcs, hcalls, List.append_assoc],
      fun r hr => (List.mem_append.mp hr).elim (hkeep' r) (hkeep r), ?_⟩
    rw [madeBy_append, hmade', List.nil_append, hm.device, hmade]
  case progress =>
    rw [Machine.progress, hm.device]
    exact h.progress
  case batches => exact hm.batches.trans h.batches
  all_goals rw [hm.device]
  exacts [h.begun, h.pending, h.needed, h.fd, h.handles, h.poller, h.leaving]

omit [Kernel κ] in
/-- Opening begins with a device in which nothing is prepared. -/
theorem fresh (hcalls : m.calls = m₀.calls) (hbatches : m.batches = m₀.batches) (fd : Int)
    (options : DeviceOptions) : Opening m₀ fd [] { m with device := { fd, options } } :=
  ⟨⟨[], hcalls, by simp, rfl⟩, rfl, fun step _ => by cases step <;> rfl,
    fun step h => absurd (by cases step <;> rfl) h, rfl, rfl, rfl, rfl, rfl, hbatches⟩

omit [Kernel κ] in
/-- The generation is found out before any step begins. -/
theorem detected (h : Opening m₀ fd [] m) (g : Generation) :
    Opening m₀ fd [] { m with device := { m.device with generation := g } } := by
  have hpage : ({ m.device with generation := g } : Device).preparation.page = m.device.preparation.page := by
    funext step
    cases step <;> rfl
  have hnone (step : SetupStep) : m.device.preparation.page step = none := h.pending step (by simp)
  refine ⟨?_, h.begun, ?_, ?_, h.fd, h.handles, h.poller, h.leaving, ?_, h.batches⟩
  · rw [hpage]
    exact h.calls
  · rw [hpage]
    exact h.pending
  · rw [hpage]
    exact fun step hstep => absurd (hnone step) hstep
  · exact congrArg (fun p : Progress => { p with generation := g }) h.progress

omit [Kernel κ] in
/-- The next step begins, and mapped nothing yet. -/
theorem begin (h : Opening m₀ fd steps m) (hstep : step ∉ steps) :
    Opening m₀ fd (steps ++ [step]) { m with device := { m.device with setupDone := m.device.setupDone + 1 } } where
  calls := by
    have hpage : ({ m.device with setupDone := m.device.setupDone + 1 } : Device).preparation.page =
        m.device.preparation.page := by
      funext other
      cases other <;> rfl
    obtain ⟨setup, hcalls, hkeep, hmade⟩ := h.calls
    refine ⟨setup, hcalls, hkeep, ?_⟩
    rw [hpage, List.reverse_append, List.reverse_singleton, List.singleton_append, List.filterMap_cons,
      h.pending step hstep, hmade]
  begun := by
    show m.device.setupDone + 1 = _
    rw [h.begun, List.length_append, List.length_singleton]
  pending other hother := h.pending other fun hmem => hother (List.mem_append_left _ hmem)
  needed := h.needed
  fd := h.fd
  handles := h.handles
  poller := h.poller
  leaving := h.leaving
  progress := h.progress
  batches := h.batches

omit [Kernel κ] in
/-- The newest step did its work, or failed. -/
theorem prepare (h : Opening m₀ fd (steps ++ [step]) m) (hstep : step ∉ steps)
    (hpage : m.device.preparation.page step = none) (hneeded : step.appliesTo m.device.generation = true)
    (hp : Prepares step m m') : Opening m₀ fd (steps ++ [step]) m' := by
  obtain ⟨handles, properties, tracking, userRegisters, eventMemory, eventVa, hdevice, hhandles⟩ := hp.device
  have hold : steps.reverse.filterMap m'.device.preparation.page =
      steps.reverse.filterMap m.device.preparation.page := by
    refine List.filterMap_congr fun other hother => hp.others other ?_
    rintro rfl
    exact hstep (List.mem_reverse.mp hother)
  constructor
  case calls =>
    obtain ⟨setup, hcalls, hkeep, hmade⟩ := h.calls
    obtain ⟨cs, hcs, hkeep', hmade'⟩ := hp.calls
    refine ⟨cs ++ setup, by rw [hcs, hcalls, List.append_assoc],
      fun r hr => (List.mem_append.mp hr).elim (hkeep' r) (hkeep r), ?_⟩
    rw [List.reverse_append, List.reverse_singleton, List.singleton_append, List.filterMap_cons, hpage] at hmade
    rw [madeBy_append, hmade, hmade', List.reverse_append, List.reverse_singleton, List.singleton_append,
      List.filterMap_cons, hold]
    cases m'.device.preparation.page step <;> rfl
  case pending =>
    intro other hother
    rw [hp.others other fun heq => hother (by simp [heq]), h.pending other hother]
  case needed =>
    intro other hother
    have hgeneration : m'.device.generation = m.device.generation := by rw [hdevice]
    rw [hgeneration]
    by_cases heq : other = step
    · rw [heq, hneeded]
    · rw [hp.others other heq] at hother
      exact h.needed other hother
  case begun => rw [hdevice, h.begun]
  case fd => rw [hdevice, h.fd]
  case handles =>
    rw [hdevice]
    exact hhandles h.handles
  case poller => rw [hdevice, h.poller]
  case leaving => rw [hdevice, h.leaving]
  case progress =>
    rw [Machine.progress, hdevice]
    exact h.progress
  case batches => exact hp.batches.trans h.batches

/-- A device that is given up while it is being opened gives back what was taken. -/
theorem shutDown {rest : List SetupStep} (h : Opening m₀ fd steps m) (hsteps : SetupStep.all = steps ++ rest) :
    ∃ fault m', Device.shutDown.exec m = (.ok fault, m') ∧ GivenBack m₀ fd m' := by
  obtain ⟨m₂, hhalt, hdevice₂, hcalls₂⟩ := exec_halt h.poller h.leaving
  obtain ⟨fault, m', he, -, file, undo, hcalls', hfile, hundo, -⟩ := exec_shutDown hsteps h.begun hhalt
  obtain ⟨setup, hsetup, hkeep, hmade⟩ := h.calls
  have hpreparation : m₂.device.preparation = m.device.preparation := (halt_ok hhalt).1
  have hclosing : (if steps = [] then [] else m₂.device.handles.closing) = [] := by
    rw [hdevice₂, h.handles]
    exact ite_self _
  rw [flatMap_undoing_begun hsteps (by rw [hpreparation, hdevice₂]; exact h.needed), hpreparation, hclosing,
    List.append_nil, ← hmade] at hundo
  refine ⟨fault, m', he, setup, file ++ undo, ?_, hkeep, ?_⟩
  · rw [hcalls', hcalls₂, hsetup, List.append_assoc]
  · rw [List.map_append, List.reverse_append, hundo, hfile, hdevice₂, h.fd]
    congr 1
    rw [fileClosing]
    split <;> rfl

omit [Kernel κ] in
/-- A step that did its work leaves a page beside those that are there. -/
theorem paged_prepare (h : m.device.Paged steps) (hstep : step ∉ steps) (hp : Prepares step m m')
    (hpage : step ∈ SetupStep.paged → m'.device.preparation.page step ≠ none) :
    m'.device.Paged (steps ++ [step]) := by
  obtain ⟨_, _, _, _, _, _, hdevice, -⟩ := hp.device
  have hgeneration : m'.device.generation = m.device.generation := by rw [hdevice]
  intro other hother hpaged happlies
  obtain hold | hnew := List.mem_append.mp hother
  · rw [hp.others other fun heq => hstep (heq ▸ hold)]
    exact h other hold hpaged (hgeneration ▸ happlies)
  · obtain rfl := List.mem_singleton.mp hnew
    exact hpage hpaged

/-- Doing the steps that are left either opens the device, with all its pages, or gives up all that was taken.  By
induction on the steps. -/
theorem setupAll {rest : List SetupStep} (h : Opening m₀ fd steps m) (hpages : m.device.Paged steps)
    (hsteps : SetupStep.all = steps ++ rest) {r : Except Halt Unit}
    (he : (Device.setupAll rest).exec m = (r, m')) (hr : Survives r) :
    (r = .ok () ∧ Opening m₀ fd SetupStep.all m' ∧ m'.device.Paged SetupStep.all) ∨
      ∃ f, r = .error (.fault f) ∧ GivenBack m₀ fd m' := by
  induction rest generalizing steps m with
  | nil =>
    rw [List.append_nil] at hsteps
    cases he
    exact .inl ⟨rfl, hsteps ▸ h, hsteps ▸ hpages⟩
  | cons step rest ih =>
    have hnodup : SetupStep.all.Nodup := by decide
    have hnew : step ∉ steps := by
      rw [hsteps] at hnodup
      exact fun hmem => (List.disjoint_of_nodup_append hnodup) hmem List.mem_cons_self
    have hsteps' : SetupStep.all = steps ++ [step] ++ rest := by rw [hsteps, List.append_assoc]; rfl
    have hbegun := h.begin hnew
    unfold Device.setupAll at he
    rw [exec_bind_of_ok (exec_modifyDevice _ m), exec_bind_of_ok (exec_device _)] at he
    generalize hm₁ : ({ m with device := { m.device with setupDone := m.device.setupDone + 1 } } : Machine κ) = m₁
      at he hbegun
    have hsame (other : SetupStep) : m₁.device.preparation.page other = m.device.preparation.page other := by
      rw [← hm₁]
      cases other <;> rfl
    have hgeneration : m₁.device.generation = m.device.generation := by rw [← hm₁]
    have hpages₁ : m₁.device.Paged steps := by
      intro other hother hpaged happlies
      rw [hsame]
      exact hpages other hother hpaged (hgeneration ▸ happlies)
    split at he
    · rename_i hneeded
      rw [exec_bind, exec_attempt] at he
      have hpage : m₁.device.preparation.page step = none := by rw [hsame, h.pending step hnew]
      rcases hsetup : (Device.setup step).exec m₁ with ⟨e | _, m₂⟩
      · rw [hsetup] at he
        cases e with
        | fault f =>
          -- the step failed, and is undone with those before it
          have hopening := hbegun.prepare hnew hpage hneeded (setup_prepares hpage hsetup trivial)
          obtain ⟨_, m₃, herror, he⟩ := (faultless_error _ _).bind_survives he hr
          obtain ⟨fault, m₄, hshut, hback⟩ := (hopening.mapped ((keeps_error _ _).ok herror)).shutDown hsteps'
          rw [exec_bind_of_ok (exec_discard_of_ok hshut)] at he
          cases he
          exact .inr ⟨_, rfl, hback⟩
        | panic f =>
          cases he
          exact absurd hr (not_survives_panic f)
        | crash =>
          cases he
          exact absurd hr not_survives_crash
      · rw [hsetup] at he
        have hp := setup_prepares hpage hsetup trivial
        exact ih (hbegun.prepare hnew hpage hneeded hp)
          (paged_prepare hpages₁ hnew hp fun hpaged => setup_pages hpaged hsetup) hsteps' he
    · rename_i hskip
      refine ih hbegun (fun other hother hpaged happlies => ?_) hsteps' he
      obtain hold | hlast := List.mem_append.mp hother
      · exact hpages₁ other hold hpaged happlies
      · obtain rfl := List.mem_singleton.mp hlast
        exact absurd happlies hskip

end Opening

omit [Kernel κ] in
/-- Checking the page size changes nothing. -/
theorem checkPageSize_ok {pageSize : Int64} {m m' : Machine κ} {u : Unit}
    (he : (Device.checkPageSize pageSize).exec m = (.ok u, m')) : m' = m := by
  unfold Device.checkPageSize at he
  rw [exec_bind_of_ok (exec_get m)] at he
  split at he
  · split at he
    · cases he
      rfl
    · cases he
  · cases he
    rfl

omit [Kernel κ] in
theorem faultless_checkPageSize (pageSize : Int64) : Faultless (Device.checkPageSize pageSize : Op κ Unit) := by
  refine faultless_bind faultless_get fun m => ?_
  split
  · split
    · exact faultless_pure ()
    · exact faultless_violate _
  · exact faultless_pure ()

theorem mapped_detect (simulated : Bool) : Keeps (Mapped (κ := κ) []) (Device.detect simulated) := by
  have hcheck (reserved : Bool) : Keeps (Mapped (κ := κ) []) (Device.versionCheck reserved) :=
    keeps_bind keeps_device fun d => Plain.of_plain _ rfl
  unfold Device.detect
  split
  · exact keeps_pure _
  · refine keeps_bind_except (hcheck true) (fun _ => keeps_pure _) fun _ => ?_
    exact keeps_bind_except (hcheck false)
      (fun _ => keeps_bind (keeps_debug _ _) fun _ => keeps_pure _) fun _ => keeps_fail _

theorem mapped_greet (g : Generation) : Keeps (Mapped (κ := κ) []) (Device.greet g) := by
  unfold Device.greet
  split
  · exact keeps_bind_except (keeps_attempt (keeps_oldRequest _ _)) (fun _ => keeps_pure _) fun _ => keeps_warn _ _
  · exact keeps_pure _

theorem faultless_greet (g : Generation) : Faultless (Device.greet g : Op κ Unit) := by
  unfold Device.greet
  split
  · refine faultless_bind (faultless_attempt _) fun r => ?_
    cases r with
    | ok _ => exact faultless_pure _
    | error f => exact faultless_warn _ _
  · exact faultless_pure _

/-- The descriptor that opening works on: none behind a simulated kernel. -/
def Device.openedFd (m : Machine κ) (fd : Int) : Int := if Kernel.simulated m.kernel then -1 else fd

/-- Before the device is looked at, the kernel may be replaced by its stand-in. -/
theorem openFile_begins {standIn : κ} {fd : Int} {options : DeviceOptions} {m m' : Machine κ}
    {r : Except Halt Unit} (he : (Device.openFile standIn fd options).exec m = (r, m')) (hr : Survives r) :
    ∃ (m₂ : Machine κ) (o : DeviceOptions) (simulated : Bool), m₂.calls = m.calls ∧
      m₂.batches = m.batches ∧ (do
        Device.checkPageSize o.pageSize
        modifyDevice fun _ => { fd := Device.openedFd m fd, options := o }
        match ← attempt (Device.detect simulated) with
        | .error f =>
          error "kbase interface detection failed"
            [("fd", toString (Device.openedFd m fd)), ("error", f.message)]
          discard Device.shutDown
          fail f
        | .ok g =>
          modifyDevice fun d => { d with generation := g }
          debug "detected kbase interface" [("api", g.name), ("simulated", toString simulated)]
          Device.greet g
          Device.setupAll SetupStep.all : Op κ Unit).exec m₂ = (r, m') := by
  unfold Device.openFile at he
  obtain ⟨_, m₁, hdebug, he⟩ := (faultless_debug _ _).bind_survives he hr
  cases hdebug
  rw [exec_bind_of_ok (exec_get _)] at he
  have hfd : (if (Kernel.simulated m.kernel || fd == -1) = true then -1 else fd) = Device.openedFd m fd := by
    unfold Device.openedFd
    by_cases h : fd = -1 <;> simp [h]
  rw [← hfd]
  dsimp only at he
  split at he
  · rw [exec_bind_of_ok (exec_modify _ _), exec_bind_of_ok (exec_get _)] at he
    exact ⟨_, _, _, by rfl, by rfl, he⟩
  · rw [exec_bind_of_ok (exec_get _)] at he
    exact ⟨_, _, _, by rfl, by rfl, he⟩

/-- Whatever the kernel answers, a device that could not be opened has given back what was taken. -/
theorem openFile_ok {standIn : κ} {fd : Int} {options : DeviceOptions} {m m' : Machine κ}
    {r : Except Halt Unit} (he : (Device.openFile standIn fd options).exec m = (r, m')) (hr : Survives r) :
    (r = .ok () ∧ Opening m (Device.openedFd m fd) SetupStep.all m' ∧ m'.device.Paged SetupStep.all) ∨
      ∃ f, r = .error (.fault f) ∧ GivenBack m (Device.openedFd m fd) m' := by
  obtain ⟨m₂, o, simulated, hcalls, hbatches, he⟩ := openFile_begins he hr
  obtain ⟨_, m₃, hcheck, he⟩ := (faultless_checkPageSize _).bind_survives he hr
  have hcalls₃ : m₃.calls = m.calls := (congrArg Machine.calls (checkPageSize_ok hcheck)).trans hcalls
  have hbatches₃ : m₃.batches = m.batches := (congrArg Machine.batches (checkPageSize_ok hcheck)).trans hbatches
  rw [exec_bind_of_ok (exec_modifyDevice _ m₃)] at he
  obtain ⟨detected, m₄, hdetect, he⟩ := (faultless_attempt _).bind_survives he hr
  have hfresh : Opening m (Device.openedFd m fd) [] m₄ := (Opening.fresh hcalls₃ hbatches₃ _ o).mapped
    ((keeps_attempt (mapped_detect simulated)).ok hdetect)
  cases detected with
  | error f =>
    obtain ⟨_, m₅, herror, he⟩ := (faultless_error _ _).bind_survives he hr
    obtain ⟨fault, m₆, hshut, hback⟩ := (hfresh.mapped ((keeps_error _ _).ok herror)).shutDown rfl
    rw [exec_bind_of_ok (exec_discard_of_ok hshut)] at he
    cases he
    exact .inr ⟨_, rfl, hback⟩
  | ok g =>
    rw [exec_bind_of_ok (exec_modifyDevice _ m₄)] at he
    obtain ⟨_, m₅, hdebug, he⟩ := (faultless_debug _ _).bind_survives he hr
    obtain ⟨_, m₆, hgreet, he⟩ := (faultless_greet g).bind_survives he hr
    exact (((hfresh.detected g).mapped ((keeps_debug _ _).ok hdebug)).mapped ((mapped_greet g).ok hgreet)).setupAll
      (fun _ hnone => absurd hnone List.not_mem_nil) rfl he hr

/-! ## Balance -/

/-- What was taken is given back: the mappings end once each, newest first, the table closes what it owns, and then
the file is closed.  What cannot be given back is told, and does not stop the rest. -/
structure Device.GivesBack (taken : List Mapping) (fd : Int) (m : Machine κ) (r : Except Halt Unit)
    (m' : Machine κ) : Prop where
  shut : m'.device.Shut
  calls : ∃ file undo, m'.calls = file ++ (undo ++ m.calls) ∧ file.map (·.call) = fileClosing fd ∧
    (undo.map (·.call)).reverse = taken.map .munmap ++ m.device.handles.closing ∧
    if undo.any CallRecord.failsUnmap || file.any CallRecord.failed then ∃ f, r = .error (.fault f) else r = .ok ()

/-- Closing goes through whatever the kernel answers, once the poller has stopped. -/
theorem exec_close {steps rest : List SetupStep} {m m₁ : Machine κ} {u : Unit}
    (hsteps : SetupStep.all = steps ++ rest) (hbegun : m.device.setupDone = steps.length)
    (hhalt : Device.halt.exec m = (.ok u, m₁)) :
    ∃ fault m', Device.close.exec m = ((match fault with
      | none => .ok ()
      | some f => .error (.fault f)), m') ∧ Closed steps fault m₁ m' := by
  obtain ⟨fault, m', he, hclosed⟩ := exec_shutDown hsteps hbegun hhalt
  refine ⟨fault, m', ?_, hclosed⟩
  unfold Device.close
  rw [exec_bind_of_ok he]
  cases fault <;> rfl

/-- A closed device is closed again without a call. -/
theorem Device.Shut.exec_close {m : Machine κ} (h : m.device.Shut) :
    ∃ m', Device.close.exec m = (.ok (), m') ∧ m'.calls = m.calls ∧ m'.device.Shut := by
  obtain ⟨m₁, hhalt, hdevice, hcalls⟩ := exec_halt h.poller h.leaving
  obtain ⟨fault, m', he, hshut, file, undo, hcalls', hfile, hundo, hfault⟩ :=
    Mali.exec_close (show SetupStep.all = [] ++ SetupStep.all from rfl) h.begun hhalt
  have hnofile : file = [] := by
    rw [fileClosing, hdevice, if_neg (Int.not_le.mpr h.fd)] at hfile
    exact List.map_eq_nil_iff.mp hfile
  have hnoundo : undo = [] := List.map_eq_nil_iff.mp (List.reverse_eq_nil_iff.mp hundo)
  subst hnofile hnoundo
  cases fault with
  | some f => cases hfault
  | none => exact ⟨m', he, hcalls'.trans hcalls, hshut⟩

namespace Opening

variable {m₀ m m₁ m₂ : Machine κ} {fd : Int}

/-- A device that was opened gives back what was taken when it is closed. -/
theorem close {setup : List CallRecord} (h : Opening m₀ fd SetupStep.all m)
    (hmade : madeBy setup = SetupStep.all.reverse.filterMap m.device.preparation.page)
    (hsame : m₁.device.preparation = m.device.preparation) (hhalt : Device.halt.exec m₁ = (.ok (), m₂)) :
    ∃ r m₃, Device.close.exec m₁ = (r, m₃) ∧ Device.GivesBack (madeBy setup) fd m₂ r m₃ := by
  have hprepared : m₂.device.preparation = m.device.preparation := (halt_ok hhalt).1.trans hsame
  have hfd : m₂.device.fd = fd := (congrArg Preparation.fd hprepared).trans h.fd
  have hgeneration : m₂.device.generation = m.device.generation := congrArg Preparation.generation hprepared
  obtain ⟨fault, m₃, he, hshut, file, undo, hcalls, hfile, hundo, hfault⟩ :=
    exec_close (show SetupStep.all = SetupStep.all ++ [] from rfl)
      ((congrArg Preparation.begun hsame).trans h.begun) hhalt
  refine ⟨_, m₃, he, hshut, file, undo, hcalls, by rw [hfile, hfd], ?_, ?_⟩
  · rw [hundo, flatMap_undoing_begun (show SetupStep.all = SetupStep.all ++ [] from rfl)
      (by rw [hprepared, hgeneration]; exact h.needed), hprepared,
      ← hmade, if_neg (by decide)]
  · rw [← hfault]
    cases fault with
    | none => exact rfl
    | some f => exact ⟨f, rfl⟩

end Opening

/-- Opening and closing balance.

If opening fails, every mapping that it made was ended once, newest first, and then the file was closed.  If it
succeeds, closing gives back the same later on, from any machine in which what was prepared is still there, as soon
as the poller has stopped, which takes nothing where no poll goes on; closing then fails only if a mapping could not
be ended or the file not be closed.  A device that was closed makes no call when it is closed again. -/
theorem Device.open_close_balance (standIn : κ) (fd : Int) (options : DeviceOptions) (m : Machine κ) :
    (∀ f m', (openFile standIn fd options).exec m = (.error (.fault f), m') → GivenBack m (openedFd m fd) m') ∧
    (∀ m', (openFile standIn fd options).exec m = (.ok (), m') →
      ∃ setup, m'.calls = setup ++ m.calls ∧ (∀ r ∈ setup, r.call.releases = false) ∧
        ∀ m₁ : Machine κ, m₁.device.preparation = m'.device.preparation →
          (m₁.device.poller = .fresh → m₁.device.leaving = [] → ∃ m₂, halt.exec m₁ = (.ok (), m₂) ∧
            m₂.device = { m₁.device with closed := true } ∧ m₂.calls = m₁.calls) ∧
          ∀ m₂, halt.exec m₁ = (.ok (), m₂) →
            ∃ r m₃, close.exec m₁ = (r, m₃) ∧ GivesBack (madeBy setup) (openedFd m fd) m₂ r m₃) ∧
    ∀ m₁ : Machine κ, m₁.device.Shut → ∃ m₂, close.exec m₁ = (.ok (), m₂) ∧ m₂.calls = m₁.calls ∧ m₂.device.Shut := by
  refine ⟨fun f m' he => ?_, fun m' he => ?_, fun m₁ h => h.exec_close⟩
  · obtain ⟨hok, -⟩ | ⟨_, -, hback⟩ := openFile_ok he trivial
    · cases hok
    · exact hback
  · obtain ⟨-, hopening, -⟩ | ⟨_, hfault, -⟩ := openFile_ok he trivial
    · obtain ⟨setup, hcalls, hkeep, hmade⟩ := hopening.calls
      exact ⟨setup, hcalls, hkeep, fun m₁ hsame =>
        ⟨fun hpoller hleaving => exec_halt hpoller hleaving, fun m₂ hhalt => hopening.close hmade hsame hhalt⟩⟩
    · cases hfault

end Kernel

/-! ## A cramped kernel -/

/-- A kernel behind a file, of command streams or of jobs, with room for a number of mappings, none of which it can
end. -/
structure Cramped where
  streams : Bool
  room : Nat

instance : Kernel Cramped where
  call k
    | .ioctl _ (.versionCheck reserved) =>
      (if reserved && !k.streams then { result := .error .inval } else { result := .ok {} }, k)
    | .ioctl _ (.setFlags _) => ({ result := .ok () }, k)
    | .ioctl _ (.getGpuProps _ _) => ({ result := .ok ⟨1, [0]⟩ }, k)
    | .ioctl _ (.memExecInit _) => ({ result := .ok () }, k)
    | .ioctl _ (.memJitInit ..) => ({ result := .ok () }, k)
    | .mmap _ offset _ _ _ =>
      match k.room with
      | 0 => ({ result := .error .nomem }, k)
      | room + 1 => ({ result := .ok offset.toUInt64 }, { k with room })
    | .close _ => ({ result := .ok () }, k)
    | _ => ({ result := .error .inval }, k)
  now _ := 0
  pageSize _ := 4096
  simulated _ := false

namespace Cramped

/-- Nothing was opened yet, and there is room for one mapping. -/
def start (streams : Bool) : Machine Cramped where
  kernel := ⟨streams, 1⟩

/-- Opening the device behind a file. -/
def opening : Op Cramped Unit := Device.openFile ⟨false, 0⟩ 3 {}

/-- What opening leaves. -/
def opened (streams : Bool) : Machine Cramped := (opening.exec (start streams)).2

/-- The page that there is room for. -/
def page : Mapping := ⟨0x3000, 4096⟩

-- a table of 256 slots is evaluated
set_option maxRecDepth 20000

/-- Command streams need three pages, of which the second finds no room. -/
theorem exec_opening_streams :
    opening.exec (start true) = (.error (.fault (.during (.setup "map user register page")
      (.during (.mapping "BASEP_MEM_CSF_USER_REG_PAGE_HANDLE") (.ofErrno .nomem)))), opened true) :=
  exec_of_error (by decide +kernel)

theorem exec_opening_jobs : opening.exec (start false) = (.ok (), opened false) :=
  exec_of_value (by decide +kernel)

end Cramped

set_option maxRecDepth 20000 in
/-- A device of command streams cannot be opened for want of room, and what was mapped is given back.  One of jobs is
opened and closed, which cannot end the mapping and says so, and is closed again. -/
theorem open_close_sample :
    (GivenBack (Cramped.start true) 3 (Cramped.opened true) ∧
      (Cramped.opened true).syscalls.take 2 = [.close 3, .munmap Cramped.page]) ∧
    ∃ m₂ m₃ m₄ f, Device.halt.exec (Cramped.opened false) = (.ok (), m₂) ∧
      Device.close.exec (Cramped.opened false) = (.error (.fault f), m₃) ∧
      Device.GivesBack [Cramped.page] 3 m₂ (.error (.fault f)) m₃ ∧
      Device.close.exec m₃ = (.ok (), m₄) ∧ m₄.calls = m₃.calls := by
  refine ⟨⟨(Device.open_close_balance _ 3 {} (Cramped.start true)).1 _ _ Cramped.exec_opening_streams,
    by decide +kernel⟩, ?_⟩
  obtain ⟨-, hopened, hagain⟩ := Device.open_close_balance ⟨false, 0⟩ 3 {} (Cramped.start false)
  obtain ⟨setup, hcalls, -, hclose⟩ := hopened _ Cramped.exec_opening_jobs
  have hsetup : setup = (Cramped.opened false).calls := by
    rw [hcalls]
    exact (List.append_nil setup).symm
  have hmade : madeBy setup = [Cramped.page] := by
    rw [hsetup]
    decide +kernel
  obtain ⟨hhalt, hgives⟩ := hclose _ rfl
  obtain ⟨m₂, hhalt, -⟩ := hhalt (by decide +kernel) (by decide +kernel)
  obtain ⟨r, m₃, hexec, hgives⟩ := hgives m₂ hhalt
  have hfault : (Device.close.exec (Cramped.opened false)).1.toOption = none := by decide +kernel
  rw [hexec] at hfault
  obtain ⟨m₄, hexec', hcalls', -⟩ := hagain m₃ hgives.shut
  rw [hmade] at hgives
  obtain ⟨file, undo, -, -, -, hr⟩ := hgives.calls
  split at hr
  · obtain ⟨f, rfl⟩ := hr
    exact ⟨m₂, m₃, m₄, f, hhalt, hexec, hgives, hexec', hcalls'⟩
  · rw [hr] at hfault
    cases hfault

end Mali
