import Mali.Allocator.Create

/-!
# Importing buffers

Each open file stands behind at most one buffer.  Importing a file that already has one gives
that buffer another reference, even while its release waits for the GPU.

* `Allocator.importBuffer`: the buffer behind a descriptor.
-/

namespace Mali

namespace Allocator

open Op

variable {κ : Type} [Kernel κ]

/-- Undoes the import of a handle. -/
def dropImport (handle : Nat) (h : Handle) : Op κ Unit := do
  match h.mapping with
  | none => pure ()
  | some m =>
    match ← unmapMemory m with
    | none => pure ()
    | some e =>
      error "failed to unmap imported buffer"
        [("handle", toString handle), ("error", e.message)]
  Device.freeHandle handle

/-- The size of the file behind a descriptor. -/
def fileSize (fd : Int) : Op κ Int := do
  match ← call (.seek fd 0 seekEnd) with
  | .error e => fail (.during (.measuring fd) (.ofErrno e))
  | .ok size =>
    if size ≤ 0 then fail (.during (.fileSize fd size) (.root .invalidImport))
    else return size

/-- The buffer of a newly imported handle. -/
def importedBuffer (fd : Int) (handle : Nat) (h : Handle) : Op κ Buffer := do
  let size := Int64.ofInt (← fileSize fd)
  let b : Buffer :=
    { gpu := h.va, cpu := h.mapping, size, flags := BufferFlag.shared, handle, refs := 1
      cachedCpu := true, dmabufFd := h.fd }
  match h.mapping with
  | some _ => return b
  | none =>
    let cpu ← Device.mapImported h.va size
    return { b with cpu := some cpu, freeRegion := true }

/-- Wraps a newly imported handle in a buffer, and undoes the import if that fails. -/
def wrapImport (fd : Int) (handle : Nat) : Op κ Nat := do
  let h := (← device).handles.get handle
  match ← attempt (importedBuffer fd handle h) with
  | .ok b => addBuffer b
  | .error f =>
    dropImport handle h
    fail f

/-- Gives a known buffer another reference. -/
def revive (id : Nat) : Op κ Unit := do
  if (← buffer id).refs = 0 then modifyBuffer id fun b => { b with refs := 1 }
  else Buffer.reference id

/-- The buffer behind a descriptor. -/
def importBuffer (fd : Int) : Op κ Nat := do
  requireAllocator
  debug "Allocator::Import"
  let handle ← Device.importFile fd
  let known := (← allocator).lookup? handle
  let id ← match known with
    | some id => do
      revive id
      pure id
    | none => wrapImport fd handle
  let b ← buffer id
  write "import" b fd (some (b.dmabufFd, known.isSome))
  return id

end Allocator

end Mali
