import Mali.Abi.Structs

/-!
# Records read from the device file

A command stream device reports through notifications, and a job manager device through one event
for each finished atom.  Both are fixed records, written and read by their layouts.

* `Notification`: an event, a group error or a dump request.
* `JobEvent`: a finished atom.
-/

namespace Mali

/-- A notification of a command stream device. -/
structure Notification where
  type : UInt8 := 0
  /-- The queue group that failed. -/
  handle : UInt8 := 0
  errorType : UInt8 := 0
  sideband : UInt64 := 0
  status : UInt32 := 0
  csi : UInt8 := 0
  deriving DecidableEq, Repr, Inhabited

namespace Notification

/-- Types of notifications. -/
def event : UInt8 := 0
@[inherit_doc event] def groupError : UInt8 := 1
@[inherit_doc event] def queueDump : UInt8 := 2

/-- Types of group errors. -/
def errorFatal : UInt8 := 0
@[inherit_doc errorFatal] def errorQueueFatal : UInt8 := 1
@[inherit_doc errorFatal] def errorTimeout : UInt8 := 2
@[inherit_doc errorFatal] def errorHeapExhausted : UInt8 := 3

/-- The size of a notification. -/
def size : Nat := Abi.csfNotification.size

/-- The record of a notification. -/
def encode (n : Notification) : List UInt8 :=
  let v : BitVec 8 × BitVec 8 × BitVec 8 × BitVec 64 × BitVec 32 × BitVec 8 × Unit :=
    (n.type.toBitVec, n.handle.toBitVec, n.errorType.toBitVec, n.sideband.toBitVec,
      n.status.toBitVec, n.csi.toBitVec, ())
  Abi.csfNotification.encode v

/-- The notification in a record. -/
def decode (bytes : List UInt8) : Notification :=
  let v : BitVec 8 × BitVec 8 × BitVec 8 × BitVec 64 × BitVec 32 × BitVec 8 × Unit :=
    Abi.csfNotification.decode bytes
  { type := ⟨v.1⟩, handle := ⟨v.2.1⟩, errorType := ⟨v.2.2.1⟩, sideband := ⟨v.2.2.2.1⟩,
    status := ⟨v.2.2.2.2.1⟩, csi := ⟨v.2.2.2.2.2.1⟩ }

end Notification

/-- The record of a finished atom. -/
structure JobEvent where
  code : UInt32 := 0
  atom : UInt8 := 0
  /-- The sequence number the atom was submitted with. -/
  seqnum : UInt64 := 0
  deriving DecidableEq, Repr, Inhabited

namespace JobEvent

/-- The code of an atom that finished without trouble. -/
def done : UInt32 := 1

/-- The size of a record. -/
def size : Nat := Abi.jdEventV2.size

/-- The record of an event. -/
def encode (e : JobEvent) : List UInt8 :=
  let v : BitVec 32 × BitVec 8 × Vector (BitVec 64) 2 × Unit :=
    (e.code.toBitVec, e.atom.toBitVec, #v[e.seqnum.toBitVec, 0], ())
  Abi.jdEventV2.encode v

/-- The event in a record. -/
def decode (bytes : List UInt8) : JobEvent :=
  let v : BitVec 32 × BitVec 8 × Vector (BitVec 64) 2 × Unit := Abi.jdEventV2.decode bytes
  { code := ⟨v.1⟩, atom := ⟨v.2.1⟩, seqnum := ⟨v.2.2.1[0]⟩ }

end JobEvent

end Mali
