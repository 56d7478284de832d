import Mali.Device.Wait

/-!
# Syncobjs of a device

* `Device.createSyncobj`, `Device.destroySyncobj`, `Device.copySyncobj`: their lives.
* `Device.updateSyncobj`: drops the fences whose slots have passed them.
* `Device.waitSyncobj`: waits until no fence is left.
-/

namespace Mali

namespace Device

open Op

variable {κ : Type}

/-- A syncobj by its place. -/
def syncobj (id : Nat) : Op κ Syncobj := do
  require (← device).syncobjs[id]?

/-- Changes a syncobj. -/
def modifySyncobj (id : Nat) (f : Syncobj → Syncobj) : Op κ Unit :=
  modifyDevice fun d => { d with syncobjs := d.syncobjs.modify id f }

/-- Makes a syncobj without fences, and gives its place. -/
def createSyncobj : Op κ Nat := do
  let n := (← device).syncobjs.length
  modifyDevice fun d => { d with syncobjs := d.syncobjs ++ [{ id := UInt64.ofNat (n + 1) }] }
  return n

/-- Forgets a syncobj and its fences. -/
def destroySyncobj (id : Nat) : Op κ Unit :=
  modifySyncobj id fun o => { o with fences := [], live := false }

/-- Makes a syncobj with the fences of another. -/
def copySyncobj (id : Nat) : Op κ Nat := do
  let copy ← createSyncobj
  let o ← syncobj id
  modifySyncobj copy fun c => { c with fences := c.fences ++ o.fences }
  return copy

/-- Traces a fence that its slot has passed. -/
def traceFence (o : Syncobj) (f : Fence) : Op κ Unit := do
  let s ← slot f.slot.toNat
  if f.value < s.last then
    trace "fence signalled"
      [("syncobj", toString o.id), ("slot", toString f.slot), ("value", toString f.value),
        ("last", toString s.last)]

/-- Traces the fences that their slots have passed. -/
def traceFences (o : Syncobj) : List Fence → Op κ Unit
  | [] => pure ()
  | f :: fs => do
    traceFence o f
    traceFences o fs

/-- Drops the fences of a syncobj whose slots have passed them. -/
def updateSyncobj (id : Nat) : Op κ Unit := do
  let o ← syncobj id
  traceFences o o.fences
  modifyDevice fun d => { d with syncobjs := d.syncobjs.modify id (·.prune d.slots) }

/-- Drops the passed fences of all live syncobjs. -/
def updateSyncobjs : List Syncobj → Nat → Op κ Unit
  | [], _ => pure ()
  | o :: os, i => do
    if o.live then updateSyncobj i
    updateSyncobjs os (i + 1)

/-- The text of a list of fences. -/
def fencesText (fences : List Fence) : String :=
  "[" ++ " ".intercalate
    (fences.map fun f => "\x7b" ++ toString f.slot ++ " " ++ toString f.value ++ "\x7d") ++ "]"

variable [Kernel κ]

/-- Whether a syncobj has no fence left, after dropping the passed ones. -/
def syncobjDone (id : Nat) : Op κ (Option Unit) := do
  updateSyncobj id
  return if (← syncobj id).fences.isEmpty then some () else none

/-- Waits until a syncobj has no fence left, and says whether that happened in time. -/
def waitSyncobj (id : Nat) : Op κ Bool := do
  if (← syncobj id).fences.isEmpty then return true
  else
    match ← waitUntil (← device).options.waitTimeout (syncobjDone id) with
    | (some _, _) => return true
    | (none, _) =>
      let o ← syncobj id
      warn "syncobj wait timeout"
        [("syncobj", toString o.id), ("fences", fencesText o.fences)]
      return false

end Device

end Mali
