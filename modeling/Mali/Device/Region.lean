import Mali.Device.Interface
import Mali.Size

/-!
# Regions and handles

A region is GPU memory mapped into the process.  Most regions have the same address on both
sides: the kernel answers the request with a cookie, and mapping the cookie fixes the address.
Executable regions must not come close to a 4 GB boundary, so they get an address of their own;
the oldest generation has no zone for them, so there a larger range is reserved and its aligned
part mapped again.

* `Region.planned`: the request for a region, decided before the kernel is asked.
* `Device.alloc`, `Device.free`: making a region and giving it back.
* `Device.allocHandle`, `Device.freeHandle`: entries of the handle table, with the descriptors
  they own.
* `Device.importFile`: a handle for the buffer behind a descriptor, one for each open file.
* `Device.syncMapping`: cleaning and invalidating a mapped range.
-/

namespace Mali

/-- Flags of a region. -/
def MemFlag.cpuRead : UInt64 := 0x1
@[inherit_doc MemFlag.cpuRead] def MemFlag.cpuWrite : UInt64 := 0x2
@[inherit_doc MemFlag.cpuRead] def MemFlag.gpuRead : UInt64 := 0x4
@[inherit_doc MemFlag.cpuRead] def MemFlag.gpuWrite : UInt64 := 0x8
@[inherit_doc MemFlag.cpuRead] def MemFlag.gpuExecute : UInt64 := 0x10
@[inherit_doc MemFlag.cpuRead] def MemFlag.growOnFault : UInt64 := 0x200
@[inherit_doc MemFlag.cpuRead] def MemFlag.coherentLocal : UInt64 := 0x800
@[inherit_doc MemFlag.cpuRead] def MemFlag.cachedCpu : UInt64 := 0x1000
@[inherit_doc MemFlag.cpuRead] def MemFlag.sameVa : UInt64 := 0x2000
@[inherit_doc MemFlag.cpuRead] def MemFlag.needMmap : UInt64 := 0x4000
@[inherit_doc MemFlag.cpuRead] def MemFlag.csfEvent : UInt64 := 0x80000
@[inherit_doc MemFlag.cpuRead] def MemFlag.uncachedGpu : UInt64 := 0x200000

/-- The flags of memory that both sides read and write at one address. -/
def MemFlag.both : UInt64 :=
  MemFlag.cpuRead ||| MemFlag.cpuWrite ||| MemFlag.gpuRead ||| MemFlag.gpuWrite |||
    MemFlag.sameVa

/-- The flags of memory that holds event records. -/
def MemFlag.eventMemory : UInt64 := MemFlag.both ||| MemFlag.csfEvent

/-- How a region is asked for. -/
def AllocFlag.noExecute : UInt32 := 0x1
@[inherit_doc AllocFlag.noExecute] def AllocFlag.heap : UInt32 := 0x2
@[inherit_doc AllocFlag.noExecute] def AllocFlag.cachedCpu : UInt32 := 0x10000
@[inherit_doc AllocFlag.noExecute] def AllocFlag.uncachedGpu : UInt32 := 0x20000

/-- GPU memory mapped into the process. -/
structure Region where
  cpu : Mapping
  gpu : UInt64
  deriving DecidableEq, Repr, Inhabited

/-- What will be asked of the kernel for a region. -/
structure RegionPlan where
  request : RegionRequest
  /-- The length of the first mapping. -/
  mapLength : Int64
  /-- Whether the aligned part of the range is mapped again. -/
  alignExecutable : Bool
  deriving DecidableEq, Repr, Inhabited

namespace Region

/-- The bytes that growable regions are rounded up to. -/
def heapAlignment : UInt64 := 0x200000

/-- The bytes that executable regions of the oldest generation are aligned to. -/
def executableAlignment : UInt64 := 0x1000000

/-- Cookies are below this address. -/
def cookieLimit : UInt64 := 0x80000

/-- The flags of a region before the wish for code or data is applied. -/
def baseFlags (g : Generation) (wish : UInt32) (flags : UInt64) : UInt64 :=
  let flags :=
    if flags = 0 then
      if g.isModern then MemFlag.both ||| MemFlag.coherentLocal else MemFlag.both
    else flags
  let flags := if hasFlag wish AllocFlag.heap then flags ||| MemFlag.growOnFault else flags
  let flags :=
    if g.isModern ∧ hasFlag wish AllocFlag.cachedCpu then flags ||| MemFlag.cachedCpu else flags
  if g = .csf ∧ hasFlag wish AllocFlag.uncachedGpu then flags ||| MemFlag.uncachedGpu else flags

/-- The flags that make a region executable. -/
def executableFlags (flags : UInt64) : UInt64 :=
  (flags ||| MemFlag.gpuExecute) &&& ~~~(MemFlag.gpuWrite ||| MemFlag.sameVa)

/-- The request for a region of `size` bytes. -/
def planned (g : Generation) (pageSize size : Int64) (wish : UInt32) (flags : UInt64) :
    RegionPlan :=
  let pages := ((size + pageSize - 1) / pageSize).toUInt64
  let flags := baseFlags g wish flags
  let alignPages := heapAlignment / pageSize.toUInt64
  let sized : RegionRequest :=
    if hasFlag wish AllocFlag.heap then
      { vaPages := alignUp64 pages alignPages, commitPages := 0, extension := alignPages, flags }
    else { vaPages := pages, commitPages := pages, flags }
  if hasFlag wish AllocFlag.noExecute then
    { request := sized, mapLength := size, alignExecutable := false }
  else if g = .old then
    { request := { sized with vaPages := 0x1000, flags := executableFlags flags }
      mapLength := 0x4000000
      alignExecutable := true }
  else
    { request := { sized with flags := executableFlags flags }
      mapLength := size
      alignExecutable := false }

end Region

namespace Device

open Op Interface

variable {κ : Type} [Kernel κ]

/-! ## Memory hooks -/

/-- Tells the owner of the hooks about a new region. -/
def reportAllocated (va : UInt64) (size : Int64) : Op κ Unit := do
  if (← device).options.hooks.allocate then report (.allocated va size)

/-- Tells the owner of the hooks about a freed region. -/
def reportFreed (va : UInt64) : Op κ Unit := do
  if (← device).options.hooks.free then report (.freed va)

/-! ## Regions -/

/-- Maps part of the device file for reading and writing. -/
def mapShared (va : UInt64) (length : Int64) : Op κ (Except Errno Mapping) :=
  mapMemory va.toInt64 length protReadWrite

/-- Maps a new region, and gives it back if that fails. -/
def mapRegion (va : UInt64) (length : Int64) (what title : String) : Op κ Mapping := do
  match ← mapShared va length with
  | .ok m => return m
  | .error e =>
    error s!"failed to map {what}"
      [("va", toString va), ("size", toString length.toInt), ("error", e.message)]
    ignore (freeRegion va)
    fail (.during (.mapping title) (.ofErrno e))

/-- Makes a region of `size` bytes and maps it.  Flags other than zero replace the default
ones. -/
def alloc (size : Int64) (wish : UInt32) (flags : UInt64) : Op κ Region := do
  debug "Device::Alloc"
  let d ← device
  let plan := Region.planned d.generation d.options.pageSize size wish flags
  let reply ← allocRegion plan.request
  let sameVa := reply.flags &&& MemFlag.sameVa != 0
  if plan.request.flags &&& MemFlag.sameVa != 0 ∧ ¬(sameVa ∧ reply.va < Region.cookieLimit) then
    error "unusable SAME_VA allocation"
      [("flags", toString reply.flags), ("va", toString reply.va)]
    fail (.during (.regionAnswer reply.flags.toNat reply.va.toNat) (.ofErrno .inval))
  let cpu ← mapRegion reply.va plan.mapLength "GPU BO" "GPU BO"
  let gpu := if sameVa then cpu.address else reply.va
  if plan.alignExecutable then
    let gpu := alignUp64 gpu Region.executableAlignment
    let cpu ← mapRegion gpu size "GPU exec BO" "GPU EXEC BO"
    reportAllocated gpu size
    return ⟨cpu, gpu⟩
  else
    reportAllocated gpu size
    return ⟨cpu, gpu⟩

/-- Gives the region at an address back.  Its mapping is left to the caller. -/
def free (va : UInt64) : Op κ Unit := do
  debug "Device::Free"
  freeRegion va
  reportFreed va

/-- Maps an imported region. -/
def mapImported (va : UInt64) (size : Int64) : Op κ Mapping := do
  debug "Device::MmapImport"
  match ← mapShared va size with
  | .ok m => return m
  | .error e => fail (.during (.mapping "import") (.ofErrno e))

/-- Cleans or invalidates a mapped range of the region at an address.  An empty range needs
nothing. -/
def syncMapping (va : UInt64) (cpu : Option Mapping) (invalidate : Bool) : Op κ Unit := do
  if mappingLength cpu = 0 then pure ()
  else syncRange va (mappingAddress cpu) (UInt64.ofNat (mappingLength cpu)) invalidate

/-! ## Handles -/

/-- Replaces the handle table. -/
def setHandles (t : HandleTable) : Op κ Unit :=
  modifyDevice fun d => { d with handles := t }

/-- Stops if handle tables are checked and this one breaks a rule. -/
def checkHandles : Op κ Unit := checkRule (·.device.handles.check)

/-- Gives an address a handle, which owns a descriptor other than `noFd`. -/
def allocHandle (va : UInt64) (fd : Int) : Op κ Nat := do
  let t := (← device).handles
  let (handle, t') := t.alloc va fd
  setHandles t'
  if t.allocGrows then checkHandles
  return handle

/-- Closes a descriptor that a handle owned. -/
def closeHandleFd (handle : Nat) (fd : Int) : Op κ Unit := do
  match ← call (.close fd) with
  | .ok _ => pure ()
  | .error e =>
    error "failed to close handle fd"
      [("handle", toString handle), ("fd", toString fd), ("error", e.message)]

/-- Frees a handle and closes the descriptor it owned.  Numbers outside the table are ignored. -/
def freeHandle (handle : Int) : Op κ Unit := do
  match (← device).handles.free handle with
  | (none, _) => pure ()
  | (some fd, t) =>
    setHandles t
    checkHandles
    if 0 ≤ fd then closeHandleFd handle.toNat fd

/-- Closes every descriptor that handles own, from a number on. -/
def closeHandleFds : List Handle → Nat → Op κ Unit
  | [], _ => pure ()
  | h :: hs, i => do
    if 0 ≤ h.fd then closeHandleFd i h.fd
    closeHandleFds hs (i + 1)

/-- Closes every descriptor that handles own, and empties the table. -/
def closeHandles : Op κ Unit := do
  closeHandleFds (← device).handles.entries 0
  setHandles {}

/-! ## Imports -/

/-- The first of some handles whose descriptor is of the same open file as `fd`. -/
def findFile (fd : Int) : List Handle → Nat → Op κ (Option Nat)
  | [], _ => return none
  | h :: hs, i => do
    if h.fd < 0 then findFile fd hs (i + 1)
    else
      match ← call (.sameFile h.fd fd) with
      | .ok true => return some i
      | .ok false => findFile fd hs (i + 1)
      | .error e =>
        error "failed to compare file descriptions"
          [("fd1", toString h.fd), ("fd2", toString fd), ("error", e.message)]
        findFile fd hs (i + 1)

/-- Closes the duplicate of a descriptor whose import failed. -/
def closeDuplicate (fd duplicate : Int) : Op κ Unit := do
  match ← call (.close duplicate) with
  | .ok _ => pure ()
  | .error e =>
    error "failed to close imported fd"
      [("fd", toString fd), ("dup", toString duplicate), ("error", e.message)]

/-- Imports a duplicate of a descriptor, and closes the duplicate if that fails. -/
def importDuplicate (fd duplicate : Int) : Op κ ImportReply := do
  match ← attempt (importFd duplicate importFlags) with
  | .ok reply => return reply
  | .error f =>
    closeDuplicate fd duplicate
    fail f

/-- Maps a region that an import made, if the kernel asked for it. -/
def mapImportReply (fd duplicate : Int) (reply : ImportReply) : Op κ (Option Mapping) := do
  if reply.flags &&& MemFlag.needMmap = 0 then return none
  let size := reply.vaPages.toInt64 * (← device).options.pageSize
  match ← mapShared reply.va size with
  | .ok m => return some m
  | .error e =>
    error "failed to map imported BO"
      [("fd", toString fd), ("size", toString size.toInt), ("error", e.message)]
    match ← attempt (freeRegion reply.va) with
    | .ok _ => pure ()
    | .error f =>
      error "failed to free imported BO"
        [("fd", toString fd), ("va", toString reply.va), ("error", f.message)]
    closeDuplicate fd duplicate
    fail (.during (.mapping "IMPORTED BO") (.ofErrno e))

/-- A handle for the buffer behind a descriptor.  A file that is already imported, through any
descriptor, keeps its handle; otherwise the new handle owns a duplicate. -/
def importFile (fd : Int) : Op κ Nat := do
  debug "Device::ImportDmabuf"
  match ← findFile fd (← device).handles.entries 0 with
  | some handle => return handle
  | none =>
    match ← call (.dup fd) with
    | .error e => fail (.during (.duplicating fd) (.ofErrno e))
    | .ok duplicate =>
      let reply ← importDuplicate fd duplicate
      let mapping ← mapImportReply fd duplicate reply
      let va := match mapping with
        | none => reply.va
        | some m => m.address
      let handle ← allocHandle va duplicate
      modifyDevice fun d => { d with handles := d.handles.setMapping handle mapping }
      return handle

end Device

end Mali
