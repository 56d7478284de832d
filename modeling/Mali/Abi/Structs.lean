import Mali.Abi.Layout

/-!
# Records of the device interface

The layouts of every record the three interface generations exchange with the kernel.  Field names
are those of the interface, and are what traces show.

* One definition for each record.
* `structs`: all of them by name.
* `overlay?`: the record that the kernel writes over the start of an argument.
-/

namespace Mali.Abi

/-! ## Members -/

/-- An unsigned word of one, two, four or eight bytes. -/
def u8 (name : String) : Member := .named name (.word 1 false)
@[inherit_doc u8] def u16 (name : String) : Member := .named name (.word 2 false)
@[inherit_doc u8] def u32 (name : String) : Member := .named name (.word 4 false)
@[inherit_doc u8] def u64 (name : String) : Member := .named name (.word 8 false)

/-- A signed word of four bytes. -/
def i32 (name : String) : Member := .named name (.word 4 true)

/-- A number of items of one layout. -/
def items (name : String) (item : Layout) (count : Nat) : Member := .named name (.array item count)

/-- A record inside a record. -/
def nested (name : String) (fields : Fields) : Member := .named name (.record fields)

/-- Bytes without a value. -/
def pad (bytes : Nat) : Member := .unnamed bytes

/-! ## Both newer generations -/

/-- A negotiated interface version. -/
def versionCheck : Fields :=
  .ofMembers [u16 "Major", u16 "Minor"]

/-- Flags of a kernel context. -/
def setFlags : Fields :=
  .ofMembers [u32 "CreateFlags"]

/-- A buffer for the property stream. -/
def getGPUProps : Fields :=
  .ofMembers [u64 "Buffer", u32 "Size", u32 "Flags"]

/-- Pages and flags of a region to make. -/
def memAlloc : Fields :=
  .ofMembers [u64 "VAPages", u64 "CommitPages", u64 "Extension", u64 "Flags"]

/-- The region that was made; its address is a mapping cookie when it shares addresses. -/
def memAllocOut : Fields :=
  .ofMembers [u64 "Flags", u64 "GPUVA"]

/-- The address of a region to give back. -/
def memFree : Fields :=
  .ofMembers [u64 "GPUAddr"]

/-- Pages of the zone for executable regions. -/
def memExecInit : Fields :=
  .ofMembers [u64 "VAPages"]

/-- Pages and limits of the just-in-time zone. -/
def memJITInit : Fields :=
  .ofMembers [u64 "VAPages", u8 "MaxAllocations", u8 "Trim", u8 "Group", pad 5, u64 "PhysPages"]

/-- A range of a mapping to clean or invalidate. -/
def memSync : Fields :=
  .ofMembers [u64 "Handle", u64 "UserAddr", u64 "Size", u8 "Type", pad 7]

/-- A descriptor to import; the pointer names the word that holds it. -/
def memImport : Fields :=
  .ofMembers [u64 "PHandle", u32 "Type", pad 4, u64 "Flags"]

/-- The region an import made. -/
def memImportOut : Fields :=
  .ofMembers [u64 "Flags", u64 "GPUVA", u64 "VAPages"]

/-- An array of atoms. -/
def jobSubmit : Fields :=
  .ofMembers [u64 "Addr", u32 "NrAtoms", u32 "Stride"]

/-! ## The oldest generation -/

/-- The header of the oldest generation: a function number going in, a return code coming out. -/
def oldHeader : Fields :=
  .ofMembers [u32 "ID", pad 4]

/-- The version of the oldest generation. -/
def oldGetVersion : Fields :=
  .ofMembers [nested "Header" oldHeader, u16 "Major", u16 "Minor", pad 4]

/-- Pages and flags of a region to make, then the region that was made. -/
def oldMemAlloc : Fields :=
  .ofMembers [nested "Header" oldHeader, u64 "VAPages", u64 "CommitPages", u64 "Extension",
    u64 "Flags", u64 "GPUVA", u16 "VAAlignment", pad 6]

/-- A descriptor to import, then the region that was made. -/
def oldMemImport : Fields :=
  .ofMembers [nested "Header" oldHeader, u64 "PHandle", u32 "Type", pad 4, u64 "Flags",
    u64 "GPUVA", u64 "VAPages"]

/-- The address of a region to give back. -/
def oldMemFree : Fields :=
  .ofMembers [nested "Header" oldHeader, u64 "GPUAddr"]

/-- A range of a mapping to clean or invalidate. -/
def oldMemSync : Fields :=
  .ofMembers [nested "Header" oldHeader, u64 "Handle", u64 "UserAddr", u64 "Size", u8 "Type",
    pad 7]

/-- Flags of a kernel context. -/
def oldSetFlags : Fields :=
  .ofMembers [nested "Header" oldHeader, u32 "CreateFlags", pad 4]

/-- An array of atoms. -/
def oldJobSubmit : Fields :=
  .ofMembers [nested "Header" oldHeader, u64 "Addr", u32 "NrAtoms", u32 "Stride"]

/-- The general block of the register dump. -/
def oldCoreProps : Fields :=
  .ofMembers [u32 "ProductID", u16 "VersionStatus", u16 "MinorRevision", u16 "MajorRevision",
    pad 2, u32 "GPUSpeedMHz", u32 "GPUFreqKHzMax", u32 "GPUFreqKHzMin",
    u32 "Log2ProgramCounterSize", items "TextureFeatures" (.word 4 false) 3,
    u64 "GPUAvailableMemorySize"]

/-- The raw registers of the register dump. -/
def oldRawProps : Fields :=
  .ofMembers [u64 "ShaderPresent", u64 "TilerPresent", u64 "L2Present", u64 "StackPresent",
    u32 "L2Features", u32 "SuspendSize", u32 "MemFeatures", u32 "MMUFeatures", u32 "ASPresent",
    u32 "JSPresent", items "JSFeatures" (.word 4 false) 16, u32 "TilerFeatures",
    items "TextureFeatures" (.word 4 false) 3, u32 "GPUID", u32 "ThreadMaxThreads",
    u32 "ThreadMaxWorkgroupSize", u32 "ThreadMaxBarrierSize", u32 "ThreadFeatures",
    u32 "CoherencyMode"]

/-- The register dump of the oldest generation. -/
def oldGPUPropsRegDump : Fields :=
  .ofMembers [nested "Header" oldHeader, nested "Core" oldCoreProps, items "L2" (.word 1 false) 8,
    pad 8, items "Tiler" (.word 4 false) 2, items "Thread" (.word 1 false) 24,
    nested "Raw" oldRawProps, items "Coherency" (.word 1 false) 272]

/-! ## Jobs -/

/-- An atom to run after, and how. -/
def jdDependency : Fields :=
  .ofMembers [u8 "AtomID", u8 "DependencyType"]

/-- A job chain to run. -/
def jdAtomV2 : Fields :=
  .ofMembers [u64 "JC", items "UData" (.word 8 false) 2, u64 "ExtresList", u16 "NrExtres",
    u16 "CompatCoreReq", items "PreDep" (.record jdDependency) 2, u8 "AtomNumber", u8 "Prio",
    u8 "DeviceNr", pad 1, u32 "CoreReq"]

/-- The record of a finished atom. -/
def jdEventV2 : Fields :=
  .ofMembers [u32 "EventCode", u8 "AtomNumber", pad 3, items "UData" (.word 8 false) 2]

/-! ## Command streams -/

/-- A ring to register. -/
def csQueueRegister : Fields :=
  .ofMembers [u64 "BufferGPUAddr", u32 "BufferSize", u8 "Priority", pad 3]

/-- A ring with new work. -/
def csQueueKick : Fields :=
  .ofMembers [u64 "BufferGPUAddr"]

/-- A ring to bind to an interface of a group. -/
def csQueueBind : Fields :=
  .ofMembers [u64 "BufferGPUAddr", u8 "GroupHandle", u8 "CSIIndex", pad 6]

/-- The cookie that maps the user I/O pages of a bound ring. -/
def csQueueBindOut : Fields :=
  .ofMembers [u64 "MmapHandle"]

/-- A ring to unbind. -/
def csQueueTerminate : Fields :=
  .ofMembers [u64 "BufferGPUAddr"]

/-- Resources a queue group asks for. -/
def csQueueGroupCreate : Fields :=
  .ofMembers [u64 "TilerMask", u64 "FragmentMask", u64 "ComputeMask", u8 "CSMin", u8 "Priority",
    u8 "TilerMax", u8 "FragmentMax", u8 "ComputeMax", pad 3]

/-- The group that was made. -/
def csQueueGroupCreateOut : Fields :=
  .ofMembers [u8 "GroupHandle", pad 3, u32 "GroupUID"]

/-- A group to end. -/
def csQueueGroupTerm : Fields :=
  .ofMembers [u8 "GroupHandle", pad 7]

/-- The processor queue that was made. -/
def kcpuQueueNew : Fields :=
  .ofMembers [u8 "ID", pad 7]

/-- A processor queue to delete. -/
def kcpuQueueDelete : Fields :=
  .ofMembers [u8 "ID", pad 7]

/-- Commands for a processor queue. -/
def kcpuQueueEnqueue : Fields :=
  .ofMembers [u64 "Addr", u32 "NrCommands", u8 "ID", pad 3]

/-- Chunks of a tiler heap to make. -/
def csTilerHeapInit : Fields :=
  .ofMembers [u32 "ChunkSize", u32 "InitialChunks", u32 "MaxChunks", u16 "TargetInFlight",
    u8 "GroupID", pad 1]

/-- The tiler heap that was made. -/
def csTilerHeapInitOut : Fields :=
  .ofMembers [u64 "GPUHeapVA", u64 "FirstChunkVA"]

/-- A tiler heap to end. -/
def csTilerHeapTerm : Fields :=
  .ofMembers [u64 "GPUHeapVA"]

/-! ## Notifications and processor queue commands -/

/-- A notification read from the device file, with the payload of a group error. -/
def csfNotification : Fields :=
  .ofMembers [u8 "Type", pad 7, u8 "Handle", pad 7, u8 "ErrorType", pad 7, u64 "Sideband",
    u32 "Status", u8 "CSIIndex", pad 3, pad 24]

/-- A command of a processor queue: its type, then a pointer and a count. -/
def kcpuCommand : Fields :=
  .ofMembers [u8 "Type", pad 7, items "Info" (.word 8 false) 2]

/-- A sync file descriptor. -/
def fence : Fields :=
  .ofMembers [i32 "FD", i32 "StreamFD"]

/-- An operation on a sync word. -/
def cqsOperationInfo : Fields :=
  .ofMembers [u64 "Addr", u64 "Val", u8 "Operation", u8 "DataType", pad 6]

/-! ## Tables -/

/-- Every record by its name. -/
def structs : List (String × Fields) := [
  ("VersionCheck", versionCheck),
  ("SetFlags", setFlags),
  ("GetGPUProps", getGPUProps),
  ("MemAlloc", memAlloc),
  ("MemAllocOut", memAllocOut),
  ("MemFree", memFree),
  ("MemExecInit", memExecInit),
  ("MemJITInit", memJITInit),
  ("MemSync", memSync),
  ("MemImport", memImport),
  ("MemImportOut", memImportOut),
  ("JobSubmit", jobSubmit),
  ("OldHeader", oldHeader),
  ("OldGetVersion", oldGetVersion),
  ("OldMemAlloc", oldMemAlloc),
  ("OldMemImport", oldMemImport),
  ("OldMemFree", oldMemFree),
  ("OldMemSync", oldMemSync),
  ("OldSetFlags", oldSetFlags),
  ("OldJobSubmit", oldJobSubmit),
  ("OldCoreProps", oldCoreProps),
  ("OldRawProps", oldRawProps),
  ("OldGPUPropsRegDump", oldGPUPropsRegDump),
  ("JDDependency", jdDependency),
  ("JDAtomV2", jdAtomV2),
  ("JDEventV2", jdEventV2),
  ("CSQueueRegister", csQueueRegister),
  ("CSQueueKick", csQueueKick),
  ("CSQueueBind", csQueueBind),
  ("CSQueueBindOut", csQueueBindOut),
  ("CSQueueTerminate", csQueueTerminate),
  ("CSQueueGroupCreate", csQueueGroupCreate),
  ("CSQueueGroupCreateOut", csQueueGroupCreateOut),
  ("CSQueueGroupTerm", csQueueGroupTerm),
  ("KCPUQueueNew", kcpuQueueNew),
  ("KCPUQueueDelete", kcpuQueueDelete),
  ("KCPUQueueEnqueue", kcpuQueueEnqueue),
  ("CSTilerHeapInit", csTilerHeapInit),
  ("CSTilerHeapInitOut", csTilerHeapInitOut),
  ("CSTilerHeapTerm", csTilerHeapTerm),
  ("CSFNotification", csfNotification),
  ("KCPUCommand", kcpuCommand),
  ("Fence", fence),
  ("CQSOperationInfo", cqsOperationInfo)]

/-- The fields of the record with a given name. -/
def struct? (name : String) : Option Fields := structs.lookup name

/-- The record that the kernel writes over an argument of the given name. -/
def overlay? (name : String) : Option Fields :=
  [
    ("MemAlloc", memAllocOut),
    ("MemImport", memImportOut),
    ("CSQueueBind", csQueueBindOut),
    ("CSQueueGroupCreate", csQueueGroupCreateOut),
    ("CSTilerHeapInit", csTilerHeapInitOut)].lookup name

end Mali.Abi
