import Mali.Usage

/-!
# Batches and submission contexts

A batch collects the buffers that one submission uses, each referenced once until the batch is
closed.  A submission context runs batches: on a command stream device through a vertex and a
fragment queue, on a job manager device as atoms.

* `UsageType`: how a batch uses a buffer.
* `Batch`: what a batch has collected.
* `Queue`, `Submitter`: a submission context and its queues.
-/

namespace Mali

/-- How a batch uses a buffer. -/
inductive UsageType where
  | readVertex | writeVertex | readFragment | writeFragment
  deriving DecidableEq, Repr, Inhabited

namespace UsageType

/-- All of them, in the order a submission goes through them. -/
def all : List UsageType := [readVertex, writeVertex, readFragment, writeFragment]

/-- The usage type with a given number. -/
def ofNumber? (n : Int) : Option UsageType := if 0 ≤ n then all[n.toNat]? else none

/-- The name of a usage type. -/
def name : UsageType → String
  | readVertex => "ReadVertex"
  | writeVertex => "WriteVertex"
  | readFragment => "ReadFragment"
  | writeFragment => "WriteFragment"

/-- The name of the usage type with a given number. -/
def nameOfNumber (n : Int) : String :=
  ((ofNumber? n).map name).getD "UsageType(invalid)"

/-- Whether the buffer is written. -/
def writes : UsageType → Bool
  | readVertex => false
  | writeVertex => true
  | readFragment => false
  | writeFragment => true

/-- Whether the buffer is used from the fragment queue. -/
def isFragment : UsageType → Bool
  | readVertex => false
  | writeVertex => false
  | readFragment => true
  | writeFragment => true

end UsageType

/-- The buffers of one submission.  Buffers and contexts are named by number. -/
structure Batch where
  submitter : Nat
  /-- Every use, in order. -/
  uses : List (UsageType × Nat) := []
  /-- The handles used, each with the access so far, in the order of first use. -/
  buffers : List (Nat × UInt32) := []
  vertexDeps : List Usage := []
  fragmentDeps : List Usage := []
  needsSync : Bool := false
  hasFragment : Bool := false
  submitted : Bool := false
  deriving DecidableEq, Repr, Inhabited

namespace Batch

/-- The buffers used in one way, in order. -/
def used (b : Batch) (t : UsageType) : List Nat :=
  (b.uses.filter (·.1 = t)).map (·.2)

/-- Adds an access to a handle. -/
def addAccess (handle : Nat) (access : UInt32) : List (Nat × UInt32) → List (Nat × UInt32)
  | [] => [(handle, access)]
  | (h, a) :: rest =>
    if h = handle then (h, a ||| access) :: rest else (h, a) :: addAccess handle access rest

/-- Whether a handle is used. -/
def contains (b : Batch) (handle : Nat) : Bool := (b.buffers.lookup handle).isSome

end Batch

/-- A command stream with the ring it runs and the number of its last batch. -/
structure Queue where
  stream : Nat
  ring : Nat
  seqnum : UInt64 := 0
  deriving DecidableEq, Repr, Inhabited

/-- A submission context. -/
structure Submitter where
  /-- The queue group, on a command stream device. -/
  context : Option Nat := none
  vertex : Option Queue := none
  fragment : Option Queue := none
  syncobj : Option Nat := none
  /-- The buffer that holds the tiler heap descriptor. -/
  heap : Option Nat := none
  /-- Resets so far. -/
  resets : Nat := 0
  deriving DecidableEq, Repr, Inhabited

end Mali
