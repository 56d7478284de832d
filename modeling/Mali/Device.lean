import Mali.Fence
import Mali.Handle
import Mali.Options
import Mali.Properties

/-!
# Devices

A device is an open device file with everything kept about it: the handle table, the event slots
that follow the progress of the GPU, the syncobjs, the queue groups and the command streams bound
to them, and the atoms in flight.

* `Context`: a queue group with its tiler heap.
* `Stream`: a ring bound to an interface of a group.
* `Poller`: what the poller of a device is doing.
* `Device`: the state of a device.
-/

namespace Mali

/-- A queue group with its tiler heap.  Objects that do not exist have identity or address zero. -/
structure Context where
  group : UInt8 := 0
  uid : UInt32 := 0
  heapVa : UInt64 := 0
  /-- The address of the first chunk of the heap. -/
  heapHeader : UInt64 := 0
  /-- Interfaces bound so far. -/
  interfaces : UInt8 := 0
  /-- The processor queue, once there is one. -/
  cpuQueue : Option UInt8 := none
  deriving DecidableEq, Repr, Inhabited

/-- A ring bound to an interface of a queue group. -/
structure Stream where
  /-- The context, by number. -/
  context : Nat
  va : UInt64
  size : UInt32
  /-- The interface. -/
  csi : UInt8
  /-- The event slot. -/
  slot : Nat := 0
  /-- The doorbell, input and output pages of a bound stream. -/
  userIo : Option Mapping := none
  /-- The insert offset of the last submission. -/
  lastInsert : UInt64 := 0
  deriving DecidableEq, Repr, Inhabited

/-- The pages of a bound stream. -/
def userIoPages : Nat := 3

namespace Stream

/-- Pages of the user I/O mapping: the doorbell, registers written by the processor, and registers
written by the GPU. -/
def doorbellPage : Nat := 0
@[inherit_doc doorbellPage] def inputPage : Nat := 1
@[inherit_doc doorbellPage] def outputPage : Nat := 2

/-- Registers by their offset in a page. -/
def insertRegister : Nat := 0
@[inherit_doc insertRegister] def extractRegister : Nat := 0
@[inherit_doc insertRegister] def activeRegister : Nat := 8

/-- The address of a register. -/
def register? (m : Mapping) (page offset : Nat) : Option Nat :=
  m.byteAddr? (page * m.length / userIoPages + offset : Nat)

/-- The offset the GPU has reached and whether it is active; zero for an unbound stream. -/
def registers? (s : Stream) (memory : Memory) : Option (UInt64 × UInt32) :=
  match s.userIo with
  | none => some (0, 0)
  | some m => do
    let extract ← register? m outputPage extractRegister
    let active ← register? m outputPage activeRegister
    pure (memory.word extract, memory.half active)

/-- The insert offset in the input page; zero for an unbound stream. -/
def insert? (s : Stream) (memory : Memory) : Option UInt64 :=
  match s.userIo with
  | none => some 0
  | some m => (register? m inputPage insertRegister).map memory.word

end Stream

/-- What the poller of a device is doing. -/
inductive Poller where
  /-- It has not polled for the open waits yet. -/
  | fresh
  /-- It has handled events, and is about to poll again. -/
  | looping
  /-- It is in a poll, which ends at a moment unless a record ends it before. -/
  | polling (moment : Nat)
  /-- Its last poll failed, so that it waits for an interval before it polls again. -/
  | resting
  deriving DecidableEq, Repr, Inhabited

/-- An open device. -/
structure Device where
  /-- The device file, or `-1` without one. -/
  fd : Int := -1
  generation : Generation := .csf
  options : DeviceOptions := {}
  /-- How many of the steps that prepare a device have begun. -/
  setupDone : Nat := 0
  handles : HandleTable := {}
  properties : Option Properties := none
  tracking : Option Mapping := none
  userRegisters : Option Mapping := none
  /-- Two pages of event records: those of streams, then those of processor queues. -/
  eventMemory : Option Mapping := none
  eventVa : UInt64 := 0
  slots : SlotTable := Vector.replicate slotCount {}
  /-- How many slots are bound. -/
  bound : Nat := 0
  /-- Every syncobj made, the one numbered `i + 1` at index `i`. -/
  syncobjs : List Syncobj := []
  contexts : List Context := []
  streams : List Stream := []
  /-- The next atom number. -/
  atomNumber : UInt8 := 0
  jobSeq : UInt64 := 0
  /-- The atoms in flight with the handles they use. -/
  inFlight : List (UInt8 × List Int) := []
  /-- Open waits, while which events are polled for. -/
  waiters : Nat := 0
  /-- How often events were handled. -/
  passes : Nat := 0
  poller : Poller := .fresh
  /-- When the polls of pollers that were told to stop end, oldest first. -/
  leaving : List Nat := []
  closed : Bool := false
  deriving Repr, Inhabited

namespace Device

/-- The handles of an atom in flight, and none otherwise. -/
def atomHandles (d : Device) (atom : UInt8) : List Int := (d.inFlight.lookup atom).getD []

/-- Forgets an atom. -/
def forgetAtom (d : Device) (atom : UInt8) : Device :=
  { d with inFlight := d.inFlight.filter (·.1 ≠ atom) }

/-- The GPU address of the event record of a slot. -/
def eventAddress (d : Device) (slot : Int64) : UInt64 :=
  d.eventVa + (slot * Int64.ofNat recordSize).toUInt64

/-- The GPU address of the processor queue record of a slot. -/
def cpuEventAddress (d : Device) (slot : Int64) : UInt64 :=
  d.eventVa + (d.options.pageSize + slot * Int64.ofNat recordSize).toUInt64

/-- The place in memory of an offset into the event records. -/
def eventWord? (d : Device) (offset : Int64) : Option Nat :=
  d.eventMemory.bind (·.byteAddr? offset.toInt)

/-- The first broken rule of the handle table or of a bound slot. -/
def check (d : Device) : Option Fault :=
  match d.handles.check with
  | some c => some (.during .handleTable (.root c))
  | none =>
    (List.range d.bound).findSome? fun (i : Nat) =>
      (d.slots.get? i).bind fun s => s.check.map fun c => .during (.eventSlot i) (.root c)

end Device

end Mali
