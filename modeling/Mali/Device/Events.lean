import Mali.Allocator.Release
import Mali.Notification

/-!
# Handling events

Handling events reads what the kernel reports and moves the event slots on.  A command stream
device sends at most one notification for each pass, and the progress of every stream is read
from its event record.  A job manager device sends one record for each atom, which releases the
handles of the atom and moves on the slot of its number.

Callbacks run after all slots have moved.

* `Device.advance`, `Device.updateCallbacks`: one report by hand.
* `Device.handleEvents`: one pass.
-/

namespace Mali

namespace Device

open Op

variable {κ : Type} [Kernel κ]

/-- Runs one callback. -/
def runCallback : Callback → Op κ Unit
  | .release id => Buffer.queueDrained id
  | .report id => report (.callback id)

/-- Runs callbacks in order. -/
def runCallbacks : List Callback → Op κ Unit
  | [] => pure ()
  | c :: cs => do
    runCallback c
    runCallbacks cs

/-- Records that the GPU reported a number on a slot. -/
def advance (index : Int) (seqnum : UInt64) : Op κ Unit := do
  runCallbacks (← advanceSlot index seqnum)

/-- Runs the callbacks of a slot that a number has passed. -/
def updateCallbacks (index : Int) (seqnum : UInt64) : Op κ Unit := do
  runCallbacks (← takeCallbacks index seqnum)

/-! ## Command stream devices -/

/-- Reads a record of a given size; nothing if none is pending, or if reading failed, which is
logged. -/
def readRecord (size : Nat) : Op κ (Except Bool (List UInt8)) := do
  match ← call (.read (← device).fd size) with
  | .error .again => return .error true
  | .error e =>
    error "failed to read kbase events" [("error", e.message)]
    return .error false
  | .ok bytes =>
    if bytes.length = size then return .ok bytes
    else
      error "short kbase event read"
        [("size", toString bytes.length), ("expected", toString size)]
      return .error false

/-- Logs a group error. -/
def logGroupError (n : Notification) : Op κ Unit := do
  let group := ("group", toString n.handle)
  let status := ("status", toString n.status)
  let sideband := ("sideband", toString n.sideband)
  if n.errorType = Notification.errorFatal then
    error "queue group error" [group, status, sideband]
  else if n.errorType = Notification.errorQueueFatal then
    error "queue error" [group, ("csi", toString n.csi), status, sideband]
  else if n.errorType = Notification.errorTimeout then
    error "command stream timeout" [group]
  else if n.errorType = Notification.errorHeapExhausted then
    error "command stream out of tiler heap memory" [group]
  else
    error "unknown queue group error" [group, ("error", toString n.errorType)]

/-- Reads one notification, and says whether all is well. -/
def readNotification : Op κ Bool := do
  match ← readRecord Notification.size with
  | .error fine => return fine
  | .ok bytes =>
    let n := Notification.decode bytes
    if n.type = Notification.event then
      trace "notification event"
      return true
    else if n.type = Notification.groupError then
      logGroupError n
      return false
    else if n.type = Notification.queueDump then
      warn "CPU queue dump requested"
      return true
    else
      warn "unknown notification" [("type", toString n.type)]
      return true

/-- Moves slots on to what their event records say, and collects the callbacks that are ready. -/
def advanceFromRecords : List Nat → Op κ (List Callback)
  | [] => return []
  | i :: is => do
    let seqnum ← eventSeq (Int64.ofNat i)
    let s ← slot i
    trace "event record"
      [("slot", toString i), ("seq", toString seqnum), ("last", toString s.last)]
    let ready ← advanceSlot i seqnum
    return ready ++ (← advanceFromRecords is)

/-- One pass of a command stream device. -/
def handleStreamEvents : Op κ Bool := do
  let fine ← readNotification
  let d ← device
  if d.eventMemory.isNone then return fine
  else
    runCallbacks (← advanceFromRecords (List.range d.bound))
    return fine

/-! ## Job manager devices -/

/-- The atom of a number is no longer in flight: its handles are released. -/
def retireAtom (atom : UInt8) : Op κ Unit := do
  let d ← device
  match d.handles.release (d.atomHandles atom) with
  | .error c => violate (.root c)
  | .ok t => modifyDevice fun d => { d.forgetAtom atom with handles := t }

/-- Handles one job event, and says whether all is well. -/
def handleJobEvent (e : JobEvent) : Op κ Bool := do
  let fine := e.code = JobEvent.done
  if !fine then
    error "atom reported an event" [("atom", toString e.atom), ("event", toString e.code)]
  retireAtom e.atom
  advance e.atom.toNat (e.seqnum + 1)
  return fine

/-- The most records that one pass reads. -/
def passLimit : Nat := 0x100000000

/-- Handles job events until none is pending, and says whether all is well. -/
def handleJobEvents : (fuel : Nat) → (fine : Bool) → Op κ Bool
  | 0, fine => return fine
  | fuel + 1, fine => do
    match ← readRecord JobEvent.size with
    | .error true => return fine
    | .error false => return false
    | .ok bytes =>
      let ok ← handleJobEvent (JobEvent.decode bytes)
      handleJobEvents fuel (fine && ok)

/-- Handles pending events, and says whether all is well. -/
def handleEvents : Op κ Bool := do
  match (← device).generation with
  | .csf => handleStreamEvents
  | .old | .jm => handleJobEvents passLimit true

/-- Handles pending events, and wakes whoever waits for a pass. -/
def ensureHandleEvents : Op κ Unit := do
  discard handleEvents
  modifyDevice fun d => { d with passes := d.passes + 1 }

end Device

end Mali
