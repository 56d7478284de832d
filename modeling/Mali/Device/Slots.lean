import Mali.Machine

/-!
# Event slots of a device

Reading and changing the event slots and the event records in memory, apart from the callbacks
themselves.

* `Device.submitSlot`: work was queued on a slot.
* `Device.takeCallbacks`, `Device.advanceSlot`: a slot moves on, and the callbacks that are ready
  come off it.
* `Device.callbackAll`: a callback for every queue that is busy.
-/

namespace Mali

namespace Device

open Op

variable {κ : Type}

/-- A slot by index. -/
def slot (index : Int) : Op κ EventSlot := do
  require ((← device).slots.get? index)

/-- Replaces a slot. -/
def setSlot (index : Nat) (s : EventSlot) : Op κ Unit :=
  modifyDevice fun d => { d with slots := d.slots.put index s }

/-- Records that work was queued on a slot. -/
def submitSlot (index : Int) (seqnum : UInt64) : Op κ Unit := do
  let s ← slot index
  setSlot index.toNat (s.submit seqnum)

/-- Makes a callback wait for a number on a slot. -/
def linkSlot (index : Int) (seqnum : UInt64) (callback : Callback) : Op κ Unit := do
  let s ← slot index
  setSlot index.toNat (s.append seqnum callback)

/-- Says in a verbose log how many callbacks a number has released. -/
def traceReady (index : Int) (seqnum : UInt64) (ready : List Callback) : Op κ Unit := do
  if !ready.isEmpty then
    trace "callbacks ready"
      [("slot", toString index), ("seqnum", toString seqnum), ("count", toString ready.length)]

/-- Takes the callbacks that a number has passed off a slot. -/
def takeCallbacks (index : Int) (seqnum : UInt64) : Op κ (List Callback) := do
  let s ← slot index
  let (ready, s) := s.take seqnum
  setSlot index.toNat s
  traceReady index seqnum ready
  return ready

/-- Records that the GPU reported a number on a slot, and takes the callbacks that are ready. -/
def advanceSlot (index : Int) (seqnum : UInt64) : Op κ (List Callback) := do
  let s ← slot index
  if s.isBackward seqnum then
    trace "sequence number went backward"
      [("slot", toString index), ("last", toString s.last), ("seqnum", toString seqnum)]
    return []
  else
    let (ready, s') := s.advance seqnum
    setSlot index.toNat s'
    traceReady index (s.limit seqnum) ready
    checkRule fun _ => s'.check
    return ready

/-- Makes a callback wait on every bound slot that is busy, and counts them. -/
def callbackAll (callback : Callback) : Op κ Nat := do
  let d ← device
  modifyDevice fun d => { d with slots := d.slots.awaitAll d.bound callback }
  return d.slots.busy d.bound

/-! ## Event records -/

/-- The event record word at an offset. -/
def eventWord (offset : Int64) : Op κ UInt64 := do
  let m ← get
  return m.memory.word (← require (m.device.eventWord? offset))

/-- Writes an event record word. -/
def setEventWord (offset : Int64) (value : UInt64) : Op κ Unit := do
  let addr ← require ((← device).eventWord? offset)
  modifyMemory (·.setWord addr value)

/-- The offset of the record of a slot. -/
def recordOffset (slot : Int64) : Int64 := slot * Int64.ofNat recordSize

/-- The number that the GPU last wrote to the record of a slot. -/
def eventSeq (slot : Int64) : Op κ UInt64 := eventWord (recordOffset slot)

/-- Writes the record of a slot as the GPU does. -/
def setEventSeq (slot : Int64) (seqnum : UInt64) : Op κ Unit :=
  setEventWord (recordOffset slot) seqnum

end Device

end Mali
