import Mali.Device.Stream

/-!
# Atoms

A job chain is queued on a job manager device as an atom, on the fragment or the vertex job slot.
Atoms have one byte numbers that are used again once the atom is done, and each number has an
event slot.  An atom runs after the newest atoms in flight that use one of its buffers, and keeps
its buffers busy until its event is handled.

* `Device.submitJob`: queues a job chain.
-/

namespace Mali

namespace Atom

/-- Requirements of atoms: the fragment slot, the compute and tiler units of the vertex slot, and
external resources. -/
def requireFragment : UInt32 := 1
@[inherit_doc requireFragment] def requireVertex : UInt32 := 6
@[inherit_doc requireFragment] def requireResources : UInt32 := 0x100

/-- The dependency type that orders atoms. -/
def orderDependency : UInt8 := 2

/-- The dependency of an atom on another; on itself it has none. -/
def dependencyOn (number after : UInt8) : Dependency :=
  if after = number then {} else { atom := after, type := orderDependency }

/-- The atom of a job chain whose handles are marked. -/
def ofMarked (va seqnum : UInt64) (slot : JobSlot) (number : UInt8) (m : HandleTable.Marked) :
    Atom where
  jobChain := va
  seqnum := seqnum
  resources := m.resources
  resourceCount := UInt16.ofNat m.resources.length
  dependency0 := dependencyOn number m.after.fragment
  dependency1 := dependencyOn number m.after.vertex
  number := number
  requirements :=
    (if m.resources.isEmpty then 0 else requireResources) |||
      match slot with
      | .fragment => requireFragment
      | .vertex => requireVertex

end Atom

namespace Device

open Op Interface

variable {κ : Type} [Kernel κ]

/-- The requirement bit that puts a job chain on the fragment slot. -/
def fragmentJob : UInt32 := 1

/-- The job slot of a job chain. -/
def jobSlot (requirements : UInt32) : JobSlot :=
  if hasFlag requirements fragmentJob then .fragment else .vertex

/-- Takes the next atom number and job number. -/
def nextAtom : Op κ (UInt8 × UInt64) := do
  let d ← device
  modifyDevice fun d => { d with atomNumber := d.atomNumber + 1, jobSeq := d.jobSeq + 1 }
  return (d.atomNumber, d.jobSeq)

/-- Puts an atom in flight and marks its handles as used. -/
def markAtom (number : UInt8) (slot : JobSlot) (handles : List Int) :
    Op κ HandleTable.Marked := do
  let d ← device
  if (d.inFlight.lookup number).isSome then
    violate (.root (.atomInFlight number.toNat))
  modifyDevice fun d => { d with inFlight := d.inFlight ++ [(number, handles)] }
  match d.handles.markUsed handles slot number with
  | .error c => violate (.root c)
  | .ok m =>
    setHandles m.table
    return m

/-- Queues the job chain at an address, and gives its atom number.  The syncobj gains a fence on
it. -/
def submitJob (va : UInt64) (requirements : UInt32) (o : Option Nat) (handles : List Int) :
    Op κ UInt8 := do
  debug "Device::Submit"
  let slot := jobSlot requirements
  let (number, seqnum) ← nextAtom
  let m ← markAtom number slot handles
  submitSlot number.toNat seqnum
  fenceSyncobj o number.toUInt32 seqnum
  trace "submitting atom"
    [("atom", toString number), ("seq", toString seqnum),
      ("deps", s!"[{m.after.fragment} {m.after.vertex}]"),
      ("extres", toString m.resources.length)]
  match ← attempt (submitAtom (.ofMarked va seqnum slot number m)) with
  | .ok _ => return number
  | .error f =>
    retireAtom number
    fail f

end Device

end Mali
