import Mali.Error

/-!
# Event slots

An event slot follows the progress of one command stream, or of one atom number on a job manager
GPU.  Submitting work numbered `s` raises `lastSubmit` to `s + 1`, and the GPU reports `s + 1`
when it has finished, so work `s` is complete once `last` is above `s`.

Callbacks wait on a slot for a sequence number to be passed.  They are kept in the order of
registration, and taking them stops at the first that is not ready.

* `EventSlot.submit`: work was queued.
* `EventSlot.take`: the callbacks a number has passed.
* `EventSlot.advance`: the GPU reported a number.  Reports that go back are dropped, and nothing
  counts as complete past the last submission.
* `EventSlot.check`: progress stays behind submission, and callbacks stay in order.
-/

namespace Mali

/-- What happens when a slot has passed a number. -/
inductive Callback where
  /-- A queue is done with a buffer whose last reference went. -/
  | release (buffer : Nat)
  /-- A caller is told. -/
  | report (id : Int)
  deriving DecidableEq, Repr, Inhabited

/-- A callback and the number it waits for. -/
structure Link where
  seqnum : UInt64
  callback : Callback
  deriving DecidableEq, Repr, Inhabited

/-- The progress of one stream of work. -/
structure EventSlot where
  last : UInt64 := 0
  lastSubmit : UInt64 := 0
  links : List Link := []
  deriving DecidableEq, Repr, Inhabited

/-- The number of event slots of a device. -/
def slotCount : Nat := 256

/-- The bytes between two event records. -/
def recordSize : Nat := 16

namespace EventSlot

/-- Adds a callback. -/
def append (s : EventSlot) (seqnum : UInt64) (callback : Callback) : EventSlot :=
  { s with links := s.links ++ [⟨seqnum, callback⟩] }

/-- Whether a number has passed a link. -/
def passed (seqnum : UInt64) (l : Link) : Bool := l.seqnum < seqnum

/-- Removes the callbacks that a number has passed, up to the first that it has not. -/
def take (s : EventSlot) (seqnum : UInt64) : List Callback × EventSlot :=
  ((s.links.takeWhile (passed seqnum)).map (·.callback),
    { s with links := s.links.dropWhile (passed seqnum) })

/-- Records that work numbered `seqnum` was queued. -/
def submit (s : EventSlot) (seqnum : UInt64) : EventSlot :=
  if s.lastSubmit < seqnum + 1 then { s with lastSubmit := seqnum + 1 } else s

/-- A report, limited to what was submitted. -/
def limit (s : EventSlot) (seqnum : UInt64) : UInt64 :=
  if s.lastSubmit < seqnum then s.lastSubmit else seqnum

/-- Whether a report goes back. -/
def isBackward (s : EventSlot) (seqnum : UInt64) : Bool := seqnum < s.last

/-- Records that the GPU reported a number. -/
def advance (s : EventSlot) (seqnum : UInt64) : List Callback × EventSlot :=
  if s.isBackward seqnum then ([], s)
  else
    let n := s.limit seqnum
    let (ready, s) := s.take n
    (ready, { s with last := n })

/-- Whether everything submitted is complete. -/
def isIdle (s : EventSlot) : Bool := s.last == s.lastSubmit

/-- Makes a callback wait for everything submitted so far, unless all of it is complete. -/
def await (s : EventSlot) (callback : Callback) : EventSlot :=
  if s.isIdle then s else s.append (s.lastSubmit - 1) callback

/-- The position of the first link that waits for less than the one before it. -/
def firstDisorder (i : Nat) : List Link → Option Cause
  | a :: b :: ls =>
    if b.seqnum < a.seqnum then some (.linkOrder (i + 1) b.seqnum.toNat a.seqnum.toNat)
    else firstDisorder (i + 1) (b :: ls)
  | _ => none

/-- The first broken rule. -/
def check (s : EventSlot) : Option Cause :=
  if s.lastSubmit < s.last ∧ s.last ≠ 0xffffffffffffffff then
    some (.slotOvertaken s.last.toNat s.lastSubmit.toNat)
  else firstDisorder 0 s.links

end EventSlot

/-- The slots of a device. -/
abbrev SlotTable := Vector EventSlot slotCount

namespace SlotTable

/-- The slot at an index, if it is one. -/
def get? (t : SlotTable) (i : Int) : Option EventSlot :=
  if 0 ≤ i then t[i.toNat]? else none

/-- Replaces the slot at an index. -/
def put (t : SlotTable) (i : Nat) (s : EventSlot) : SlotTable := t.setIfInBounds i s

/-- Makes a callback wait on each of the first `bound` slots that is busy. -/
def awaitAll (t : SlotTable) (bound : Nat) (callback : Callback) : SlotTable :=
  t.mapIdx fun i s => if i < bound then s.await callback else s

/-- How many of the first `bound` slots are busy. -/
def busy (t : SlotTable) (bound : Nat) : Nat :=
  (t.toList.take bound).countP fun s => !s.isIdle

end SlotTable

end Mali
