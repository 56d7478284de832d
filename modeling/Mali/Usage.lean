import Mali.Slot

/-!
# Pending uses of a buffer

A usage says that some work on a queue reads or writes a buffer.  A usage list is sorted by queue
and holds at most one entry for each; two uses on one queue are merged to the later sequence
number, writing if either writes.

* `Usage.insert`, `Usage.addAfter`: adds a use, searching from an index on, and gives the index
  where it landed, from which the next search in order can start.
* `Usage.updateDeps`: adds the uses that an access has to wait for.  Reads never wait for reads.
* `Usage.submitted?`: what a recorded number stands for once it is known what was submitted.
* `Usage.clean`: drops dependencies that cannot be waited for.
* `Usage.finished`: whether everything that matters is complete.
-/

namespace Mali

/-- Work `seqnum` on event slot `queue` uses a buffer. -/
structure Usage where
  queue : UInt32
  write : Bool := false
  seqnum : UInt64
  deriving DecidableEq, Repr, Inhabited

namespace Usage

/-- Two uses on one queue as one. -/
def merge (d u : Usage) : Usage :=
  { d with write := d.write || u.write, seqnum := if d.seqnum < u.seqnum then u.seqnum else d.seqnum }

/-- Adds a use to a sorted list, and gives the index where it landed. -/
def insert (u : Usage) : List Usage → List Usage × Nat
  | [] => ([u], 0)
  | d :: ds =>
    if d.queue = u.queue then (d.merge u :: ds, 0)
    else if u.queue < d.queue then (u :: d :: ds, 0)
    else
      let (ds, i) := insert u ds
      (d :: ds, i + 1)

/-- Adds a use to a list, searching from `index` on. -/
def addAfter (list : List Usage) (u : Usage) (index : Nat) : List Usage × Nat :=
  let (rest, i) := insert u (list.drop index)
  (list.take index ++ rest, (list.take index).length + i)

/-- Whether an access of some kind has to wait for a use. -/
def relevant (write : Bool) (u : Usage) : Bool := write || u.write

/-- Adds uses in order, each search starting where the last use landed. -/
def addAll : List Usage → List Usage → Nat → List Usage
  | deps, [], _ => deps
  | deps, u :: us, index =>
    let (deps, index) := addAfter deps u index
    addAll deps us index

/-- The list after each of some uses was added, with the index where it landed.  A search starts where
the last use landed if `chain` is set, and else always at `start`. -/
def additions (chain : Bool) (start : Nat) :
    List Usage → Nat → List Usage → List (Nat × List Usage)
  | _, _, [] => []
  | list, index, u :: us =>
    let (list, landed) := addAfter list u index
    (landed, list) :: additions chain start list (if chain then landed else start) us

/-- Adds the uses that an access of some kind has to wait for. -/
def updateDeps (deps usage : List Usage) (write : Bool) : List Usage :=
  addAll deps (usage.filter (relevant write)) 0

/-- Records a use of a buffer. -/
def record (usage : List Usage) (u : Usage) : List Usage := (addAfter usage u 0).1

/-- The number to wait for, given what was last submitted.  A use may name the work being submitted
right now, which then depends on the work before.  Numbers past that were never submitted. -/
def submitted? (seqnum lastSubmit : UInt64) : Option UInt64 :=
  if lastSubmit = seqnum then some (seqnum - 1)
  else if lastSubmit < seqnum then none
  else some seqnum

/-- The uses on bound queues; in a sorted list the rest are all on unbound ones. -/
def onBound (bound : Nat) (usage : List Usage) : List Usage :=
  usage.takeWhile fun u => u.queue.toNat < bound

/-- The last submission on a queue. -/
def lastSubmit (slots : SlotTable) (u : Usage) : UInt64 :=
  ((slots.get? u.queue.toNat).map (·.lastSubmit)).getD 0

/-- The last completion on a queue. -/
def last (slots : SlotTable) (u : Usage) : UInt64 :=
  ((slots.get? u.queue.toNat).map (·.last)).getD 0

/-- Drops the dependencies that cannot be waited for. -/
def clean (slots : SlotTable) (bound : Nat) (deps : List Usage) : List Usage :=
  (onBound bound deps).filterMap fun u =>
    (submitted? u.seqnum (u.lastSubmit slots)).map fun seqnum => { u with seqnum }

/-- Whether a use is complete, counting one that was never submitted as complete. -/
def isFinished (slots : SlotTable) (u : Usage) : Bool :=
  match submitted? u.seqnum (u.lastSubmit slots) with
  | none => true
  | some seqnum => seqnum < u.last slots

/-- Whether every use that matters is complete: writes always matter, and reads if `readers` is
set. -/
def finished (slots : SlotTable) (bound : Nat) (usage : List Usage) (readers : Bool) : Bool :=
  (onBound bound (usage.filter (relevant readers))).all (isFinished slots)

end Usage

end Mali
