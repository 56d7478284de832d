import Mali.Device.Wait

/-!
# Waiting for buffers and keeping caches coherent

On a command stream device a buffer is idle once the uses recorded on it are complete, and an
imported buffer also once its own fences are.  On a job manager device the handle counts the
atoms in flight.  A buffer on which no access is pending needs no wait, unless somebody else may
use it too.

* `Buffer.wait`: waits for the GPU to be done writing, or also reading.
* `Buffer.clean`, `Buffer.invalidate`: cache maintenance over a range.
* `Buffer.exportFd`: a new descriptor for an imported buffer.
-/

namespace Mali

namespace Buffer

open Op

variable {κ : Type}

/-- Whether every use of a buffer that matters is complete. -/
def usageFinished (id : Nat) (readers : Bool) : Op κ Bool := do
  let b ← buffer id
  let d ← device
  return Usage.finished d.slots d.bound b.usage readers

/-- Whether the pending accesses alone say that there is nothing to wait for.  Others may use a
shared buffer unseen. -/
def isQuiet (b : Buffer) (readers : Bool) : Bool :=
  !b.has BufferFlag.shared &&
    (b.access == 0 || (!readers && b.access &&& Access.write == 0))

/-- Forgets the pending accesses that a wait has seen complete. -/
def settle (readers : Bool) (b : Buffer) : Buffer :=
  { b with access := if readers then 0 else b.access &&& Access.read }

variable [Kernel κ]

/-- Waits on a job manager device. -/
def waitHandle (id : Nat) (timeout : Int) : Op κ Bool := do
  let b ← buffer id
  match ← attempt (Device.waitIdle b.handle timeout) with
  | .ok _ =>
    modifyBuffer id fun b => { b with access := 0 }
    return true
  | .error f =>
    if f.cause ≠ .timeout then
      error "failed to wait for buffer object"
        [("handle", toString b.handle), ("error", f.message)]
    return false

/-- Waits on a command stream device. -/
def waitUsage (id : Nat) (timeout : Int) (readers : Bool) : Op κ Bool := do
  let (_, deadline) ← Device.waitUntil timeout do
    return if ← usageFinished id readers then some () else none
  let b ← buffer id
  let finished ← usageFinished id readers
  let ready ←
    if finished ∧ b.has BufferFlag.shared then Device.pollFdUntil b.dmabufFd readers deadline
    else pure finished
  if ready then modifyBuffer id (settle readers)
  else
    warn "timed out waiting for buffer object"
      [("handle", toString b.handle), ("label", b.label)]
  return ready

/-- Waits until the GPU is done writing a buffer, and reading it if `readers` is set.  Says whether
that happened in time. -/
def wait (id : Nat) (timeout : Int) (readers : Bool) : Op κ Bool := do
  debug "BO::Wait"
  if (← buffer id).isQuiet readers then return true
  else if (← device).generation = .csf then waitUsage id timeout readers
  else waitHandle id timeout

/-! ## Cache maintenance -/

/-- A range of the mapping; a missing mapping has only the empty range at its start. -/
def mappedRange? (b : Buffer) (lo hi : Int) : Option (Option Mapping) :=
  match b.cpu with
  | some m => (m.slice? lo hi).map some
  | none => if lo = 0 ∧ hi = 0 then some none else none

/-- Cleans or invalidates a range of a buffer. -/
def maintain (id : Nat) (offset length : Int64) (invalidate : Bool) : Op κ Unit := do
  let b ← buffer id
  match checkRange offset length b.size with
  | .error f => fail f
  | .ok _ =>
    if b.cachedCpu then
      let range ← require (b.mappedRange? offset.toInt (offset + length).toInt)
      Device.syncMapping b.gpu range invalidate

/-- Drops stale cache lines before the processor reads what the GPU wrote. -/
def invalidate (id : Nat) (offset length : Int64) : Op κ Unit := maintain id offset length true

/-- Writes cache lines back before the GPU reads what the processor wrote. -/
def clean (id : Nat) (offset length : Int64) : Op κ Unit := maintain id offset length false

/-- A new descriptor for an imported buffer.  Other buffers cannot be exported. -/
def exportFd (id : Nat) : Op κ Int := do
  debug "BO::Export"
  let b ← buffer id
  if b.dmabufFd < 0 then fail (.during (.exporting b.handle) (.root .unsupported))
  else
    match ← call (.dup b.dmabufFd) with
    | .ok fd => return fd
    | .error e => fail (.during (.duplicating b.dmabufFd) (.ofErrno e))

end Buffer

end Mali
