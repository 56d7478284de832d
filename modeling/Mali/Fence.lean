import Mali.Slot

/-!
# Fences and syncobjs

A fence is satisfied once an event slot has passed its value.  A syncobj is a set of fences, one
for each slot that work was submitted to through it.

* `Syncobj.addFence`: adds a fence without looking for one on the same slot.
* `Syncobj.updateFence`: raises the fence of a slot, or adds one.
* `Syncobj.prune`: drops the fences that their slots have passed.
-/

namespace Mali

/-- Satisfied once `slot` is past `value`. -/
structure Fence where
  slot : UInt32
  value : UInt64
  deriving DecidableEq, Repr, Inhabited

/-- A set of fences. -/
structure Syncobj where
  id : UInt64
  fences : List Fence := []
  /-- Whether the device still knows it. -/
  live : Bool := true
  deriving DecidableEq, Repr, Inhabited

namespace Syncobj

/-- Adds a fence. -/
def addFence (o : Syncobj) (slot : UInt32) (value : UInt64) : Syncobj :=
  { o with fences := o.fences ++ [⟨slot, value⟩] }

/-- Raises the first fence of a slot to a value, or appends one. -/
def raise (slot : UInt32) (value : UInt64) : List Fence → List Fence
  | [] => [⟨slot, value⟩]
  | f :: fs =>
    if f.slot = slot then (if f.value < value then { f with value } else f) :: fs
    else f :: raise slot value fs

/-- Makes the syncobj wait for work on a slot. -/
def updateFence (o : Syncobj) (slot : UInt32) (value : UInt64) : Syncobj :=
  { o with fences := raise slot value o.fences }

/-- Whether a slot has passed a fence. -/
def signalled (slots : SlotTable) (f : Fence) : Bool :=
  match slots.get? f.slot.toNat with
  | some s => f.value < s.last
  | none => false

/-- Drops the fences that are satisfied. -/
def prune (o : Syncobj) (slots : SlotTable) : Syncobj :=
  { o with fences := o.fences.filter fun f => !signalled slots f }

end Syncobj

end Mali
