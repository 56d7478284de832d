import Mali.Device.Events

/-!
# Waiting

While a wait is open the device file is polled, for at most the poll interval at a time, and
events are handled after every poll.  A wait checks its condition at once, then again after every
pass, and gives up at its deadline.  After a poll that failed the next one is put off by an
interval.  A closed device is no longer polled, so there a wait only lets its time pass.

The poller is told to stop when the last wait is closed.  The poll that it is in still runs to its end
and is followed by a last pass, also while the poller of another wait polls beside it.  A record ends
the oldest poll only.

* `Wait`: a deadline and what the waiter has seen.
* `Wait.start`, `Wait.next`, `Wait.done`: the life of a wait.
* `Wait.enter`: the poller begins a poll.
* `Wait.endOldest`: the poll that began first ends, and events are handled.
* `Wait.pause`, `Wait.finish`: time passes while pollers that were told to stop come to their end.
* `Wait.stopPoller`: the pollers of a device that is closed.
* `Device.waitUntil`: waits for a condition.
-/

namespace Mali

/-- An open wait. -/
structure Wait where
  deadline : Int
  /-- The passes counted when the waiter last looked, once it has. -/
  seen : Option Nat := none
  finished : Bool := false
  deriving DecidableEq, Repr, Inhabited

namespace Wait

open Op

variable {κ : Type} [Kernel κ]

/-! ## The poller -/

/-- Handles events after a poll. -/
def pass : Op κ Unit := do
  discard Device.handleEvents
  modifyDevice fun d => { d with passes := d.passes + 1 }

/-- Changes what the poller is doing. -/
def setPoller (p : Poller) : Op κ Unit := modifyDevice fun d => { d with poller := p }

/-- The poller begins a poll, unless it is in one or rests.  A poll that fails or is answered at once
is followed by a pass. -/
def enter : Op κ Unit := do
  let d ← device
  if !d.closed ∧ (d.poller = .fresh ∨ d.poller = .looping) then
    match ← call (.poll d.fd pollIn 0) with
    | .error e =>
      error "failed to poll kbase file" [("error", e.message)]
      pass
      setPoller .resting
    | .ok ready =>
      let time ← now
      let answered ← if ready then pure true else await time
      if answered then
        pass
        setPoller .looping
      else setPoller (.polling (time + d.options.pollInterval.toNat))

/-- The poller polls until it is in a poll that has to wait, or rests, for at most `fuel` polls. -/
def enterUntilBlocked : (fuel : Nat) → Op κ Unit
  | 0 => pure ()
  | fuel + 1 => do
    enter
    if (← device).poller = .looping then enterUntilBlocked fuel

/-- The poll that began first ends, and events are handled. -/
def endOldest : Op κ Unit := do
  match (← device).leaving with
  | _ :: rest => modifyDevice fun d => { d with leaving := rest }
  | [] => setPoller .looping
  pass

/-- When the polls that are going on end, oldest first. -/
def polls (d : Device) : List Nat :=
  d.leaving ++
    match d.poller with
    | .polling moment => [moment]
    | _ => []

/-- The poller is told to stop.  It leaves at once unless it is in a poll or about to begin one. -/
def dismiss : Op κ Unit := do
  if (← device).poller = .looping then enter
  modifyDevice fun d => { d with leaving := polls d, poller := .fresh }

/-! ## Pollers that were told to stop -/

/-- Lets time pass up to a moment, with the ends of polls that come before it. -/
def pauseWith (moment : Nat) : (ends : List Nat) → Op κ Unit
  | [] => do sleep (moment - (← now))
  | stop :: ends => do
    let woken ← await (min stop moment)
    if woken || stop ≤ moment then
      endOldest
      pauseWith moment ends

/-- Lets time pass while pollers that were told to stop may come to their end. -/
def pause (duration : Nat) : Op κ Unit := do
  pauseWith ((← now) + duration) (← device).leaving

/-- Lets time pass until polls have ended. -/
def finishWith : (ends : List Nat) → Op κ Unit
  | [] => pure ()
  | stop :: ends => do
    discard (await stop)
    endOldest
    finishWith ends

/-- Waits for the pollers that were told to stop. -/
def finish : Op κ Unit := do finishWith (← device).leaving

/-- The pollers stop: those that are in a poll finish it first. -/
def stopPoller : Op κ Unit := do
  dismiss
  finish
  modifyDevice fun d => { d with closed := true }

/-! ## The life of a wait -/

/-- Opens a wait. -/
def start (timeout : Int) : Op κ Wait := do
  modifyDevice fun d => { d with waiters := d.waiters + 1 }
  return { deadline := (← now) + timeout }

/-- Closes a wait; closing it again does nothing. -/
def done (w : Wait) : Op κ Wait := do
  if !w.finished then
    modifyDevice fun d => { d with waiters := d.waiters - 1 }
    if (← device).waiters = 0 then dismiss
  return { w with finished := true }

/-- Rests after a failed poll, for as long as there is time. -/
def rest (deadline : Int) : Op κ Unit := do
  let d ← device
  if d.poller = .resting then
    let time ← now
    pause (min d.options.pollInterval (deadline - time)).toNat
    if time + d.options.pollInterval < deadline then setPoller .looping

/-- Lets time pass until a poll ends, with the pass that follows, or up to a deadline. -/
def awaitPass (deadline : Int) : Op κ Unit := do
  match polls (← device) with
  | [] => pure ()
  | stop :: _ =>
    let woken ← await (min stop deadline.toNat)
    if woken || (stop : Int) < deadline then endOldest

/-- Blocks until events were handled again or the deadline passes, and says whether they were. -/
def block (w : Wait) : Op κ Bool := do
  let d ← device
  if d.closed then
    sleep (w.deadline - (← now)).toNat
    return false
  else
    rest w.deadline
    if w.deadline ≤ ((← now : Nat) : Int) then return false
    else
      enter
      if (← device).passes = d.passes then awaitPass w.deadline
      return (← device).passes ≠ d.passes ∧ ((← now : Nat) : Int) < w.deadline

/-- Whether to check the condition again: at once the first time, then after every pass until the
deadline. -/
def next (w : Wait) : Op κ (Bool × Wait) := do
  let passes := (← device).passes
  match w.seen with
  | none => return (true, { w with seen := some passes })
  | some seen =>
    if w.deadline ≤ ((← now : Nat) : Int) ∨ w.finished then return (false, w)
    else if seen ≠ passes then return (true, { w with seen := some passes })
    else if ← block w then return (true, { w with seen := some (← device).passes })
    else return (false, w)

/-- Checks a condition after every pass until it has an outcome or the deadline passes. -/
def loop {α : Type} (check : Op κ (Option α)) : (fuel : Nat) → Wait → Op κ (Option α × Wait)
  | 0, w => return (none, w)
  | fuel + 1, w => do
    match ← w.next with
    | (false, w) => return (none, w)
    | (true, w) =>
      match ← check with
      | some a => return (some a, w)
      | none => loop check fuel w

/-- Counts the checks that a wait makes room for until its deadline. -/
def countChecks : (fuel : Nat) → Wait → Op κ (Nat × Wait)
  | 0, w => return (0, w)
  | fuel + 1, w => do
    match ← w.next with
    | (false, w) => return (0, w)
    | (true, w) =>
      let (n, w) ← countChecks fuel w
      return (n + 1, w)

/-- Waits for nothing up to a deadline: how many checks there was room for, and whether the wait gives
room for another one after it was closed. -/
def measure (timeout : Int) : Op κ (Nat × Bool) := do
  let (n, w) ← countChecks Device.passLimit (← start timeout)
  let w ← done (← w.done)
  return (n, (← w.next).1)

end Wait

namespace Device

open Op

variable {κ : Type} [Kernel κ]

/-- Waits for a condition, checked after every pass, and gives its outcome if there was one in time.
The second component is the deadline. -/
def waitUntil {α : Type} (timeout : Int) (check : Op κ (Option α)) : Op κ (Option α × Int) := do
  let w ← Wait.start timeout
  let (outcome, w) ← Wait.loop check passLimit w
  discard w.done
  return (outcome, w.deadline)

/-- The fault of waiting for a number that is no handle, or nothing if the handle is idle. -/
def idleOutcome (t : HandleTable) (handle : Int) : Option (Option Fault) :=
  match t.entry? handle with
  | none => some (some (.during (.onHandle handle) (.root .invalidHandle)))
  | some h => if h.useCount = 0 then some none else none

/-- Waits until no atom in flight uses a handle. -/
def waitIdle (handle : Int) (timeout : Int) : Op κ Unit := do
  debug "HandleTable::WaitIdle"
  match ← waitUntil timeout (return idleOutcome (← device).handles handle) with
  | (some none, _) => pure ()
  | (some (some f), _) => fail f
  | (none, _) => fail (.during (.onHandle handle) (.root .timeout))

/-- Waits for the fences of an imported buffer.  Waiting for shared access also waits for
readers.  A failed poll counts as ready. -/
def pollFdUntil (fd : Int) (shared : Bool) (deadline : Int) : Op κ Bool := do
  match ← call (.poll fd (if shared then pollOut else pollIn) (deadline - (← now))) with
  | .ok ready => return ready
  | .error e =>
    error "failed to poll dma-buf" [("fd", toString fd), ("error", e.message)]
    return true

end Device

end Mali
