import Mali.Machine

/-!
# Requests on the device file

Each generation of the interface answers its own requests, and some requests exist only in some of
them.  The functions here choose the request for the device's generation, turn an error number
into a fault that names the request, and log it.

Requests of the oldest generation can also succeed as calls and still report a code in their
header (`codeErrno`).

* `Interface.request`, `Interface.oldRequest`: one request with its error handling.
* The other functions of the namespace: what a device can be asked to do.
-/

namespace Mali

namespace Interface

open Op

variable {κ α : Type}

/-- The device cannot be asked for something. -/
def unsupported (name : String) : Op κ α :=
  fail (.during (.asking name) (.root .unsupported))

/-- What a return code of the oldest generation stands for. -/
def codeErrno (code : UInt32) : Errno :=
  if code = 1 then .nospc else if code = 2 then .nomem else .inval

variable [Kernel κ]

/-- Issues a request under a name. -/
def request (name : String) (r : Ioctl) : Op κ r.Reply := do
  match ← call (.ioctl (← device).fd r) with
  | .ok reply => return reply
  | .error e =>
    error "ioctl failed" [("ioctl", name), ("errno", e.message)]
    fail (.during (.request name) (.ofErrno e))

/-- Issues a request of the oldest generation under a name. -/
def oldRequest (name : String) (r : OldIoctl) : Op κ r.Reply := do
  let reply : Coded r.Reply ← request name (.old r.command.headerId r)
  if reply.code = 0 then return reply.value
  else
    let e := codeErrno reply.code
    error "ioctl failed"
      [("ioctl", name), ("rc", toString reply.code), ("errno", e.message)]
    fail (.during (.requestCode name reply.code.toNat) (.ofErrno e))

/-! ## Requests of every generation -/

/-- Sets the creation flags. -/
def setFlags (flags : UInt32) : Op κ Unit := do
  match (← device).generation with
  | .old => oldRequest "SET_FLAGS" (.setFlags flags)
  | .jm | .csf => request "SET_FLAGS" (.setFlags flags)

/-- A number of bytes, padded with zeros or cut off. -/
def fitBytes (bytes : List UInt8) (size : Nat) : List UInt8 :=
  bytes.take size ++ List.replicate (size - bytes.length) 0

/-- The property stream: asks for its size, then for its bytes.  Fewer bytes than announced end
the stream early. -/
def propertyStream : Op κ Properties := do
  let query : PropertyReply ← request "GET_GPUPROPS" (.getGpuProps 0 0)
  let size := query.returned
  if size ≤ 0 then fail (.root (.emptyProperties size))
  let reply : PropertyReply ← request "GET_GPUPROPS" (.getGpuProps (UInt32.ofNat size.toNat) 0)
  let bytes := fitBytes reply.written size.toNat
  if size ≤ reply.returned then return .stream bytes
  else if reply.returned < 0 then crash
  else return .stream (bytes.take reply.returned.toNat)

/-- Reads the properties of the GPU. -/
def gpuProperties : Op κ Properties := do
  match (← device).generation with
  | .old =>
    let dump : RegisterDump ← oldRequest "GPU_PROPS_REG_DUMP" .gpuPropsRegDump
    return .dump dump
  | .jm | .csf => propertyStream

/-- The cookie of every region of the oldest generation, which never reports one. -/
def oldCookie : UInt64 := 0x41000

/-- Makes a region. -/
def allocRegion (r : RegionRequest) : Op κ RegionReply := do
  match (← device).generation with
  | .old =>
    let reply : RegionReply ← oldRequest "MEM_ALLOC" (.memAlloc r)
    return { flags := reply.flags, va := oldCookie }
  | .jm | .csf => request "MEM_ALLOC" (.memAlloc r)

/-- Gives a region back. -/
def freeRegion (va : UInt64) : Op κ Unit := do
  match (← device).generation with
  | .old => oldRequest "MEM_FREE" (.memFree va)
  | .jm | .csf => request "MEM_FREE" (.memFree va)

/-- The type and the flags of imports. -/
def importType : UInt32 := 2
@[inherit_doc importType] def importFlags : UInt64 := 0xf

/-- Imports a descriptor. -/
def importFd (fd : Int) (flags : UInt64) : Op κ ImportReply := do
  let r : ImportRequest := { fd := .ofInt fd, type := importType, flags }
  match (← device).generation with
  | .old => oldRequest "MEM_IMPORT" (.memImport r)
  | .jm | .csf => request "MEM_IMPORT" (.memImport r)

/-- Cleans or invalidates a mapped range.  The oldest generation numbers both one lower. -/
def syncRange (va addr : UInt64) (size : UInt64) (invalidate : Bool) : Op κ Unit := do
  let kind : UInt8 := if invalidate then 1 else 0
  match (← device).generation with
  | .old =>
    oldRequest "MEM_SYNC" (.memSync { handle := va, userAddr := addr, size, type := kind })
  | .jm | .csf =>
    request "MEM_SYNC" (.memSync { handle := va, userAddr := addr, size, type := kind + 1 })

/-! ## Requests of some generations -/

/-- Prepares the zone of executable regions. -/
def initExecutable (vaPages : UInt64) : Op κ Unit := do
  match (← device).generation with
  | .old => unsupported "MemExecInit"
  | .jm | .csf => request "MEM_EXEC_INIT" (.memExecInit vaPages)

/-- Prepares the kernel's own allocator. -/
def initJit (vaPages : UInt64) (maxAllocations : UInt8) (physPages : UInt64) : Op κ Unit := do
  match (← device).generation with
  | .old => unsupported "MemJITInit"
  | .jm | .csf => request "MEM_JIT_INIT" (.memJitInit vaPages maxAllocations 0 0 physPages)

/-- Queues an atom. -/
def submitAtom (atom : Atom) : Op κ Unit := do
  match (← device).generation with
  | .old => oldRequest "JOB_SUBMIT" (.jobSubmit atom)
  | .jm => request "JOB_SUBMIT" (.jobSubmit atom)
  | .csf => unsupported "JobSubmit"

/-- Issues a request that only command stream devices have. -/
def streamRequest (asking name : String) (r : Ioctl) : Op κ r.Reply := do
  match (← device).generation with
  | .csf => request name r
  | .old | .jm => unsupported asking

/-- Makes a queue group. -/
def createGroup (r : GroupRequest) : Op κ GroupReply :=
  streamRequest "GroupCreate" "CS_QUEUE_GROUP_CREATE" (.csQueueGroupCreate r)

/-- Terminates a queue group. -/
def terminateGroup (group : UInt8) : Op κ Unit :=
  streamRequest "GroupTerm" "CS_QUEUE_GROUP_TERMINATE" (.csQueueGroupTerminate group)

/-- Makes a tiler heap. -/
def createHeap (r : HeapRequest) : Op κ HeapReply :=
  streamRequest "TilerHeapInit" "CS_TILER_HEAP_INIT" (.csTilerHeapInit r)

/-- Terminates a tiler heap. -/
def terminateHeap (va : UInt64) : Op κ Unit :=
  streamRequest "TilerHeapTerm" "CS_TILER_HEAP_TERM" (.csTilerHeapTerm va)

/-- Registers a ring. -/
def registerQueue (va : UInt64) (size : UInt32) (priority : UInt8) : Op κ Unit :=
  streamRequest "QueueRegister" "CS_QUEUE_REGISTER" (.csQueueRegister va size priority)

/-- Binds a ring to an interface, and gives the cookie of its pages. -/
def bindQueue (va : UInt64) (group csi : UInt8) : Op κ UInt64 :=
  streamRequest "QueueBind" "CS_QUEUE_BIND" (.csQueueBind va group csi)

/-- Terminates a ring. -/
def terminateQueue (va : UInt64) : Op κ Unit :=
  streamRequest "QueueTerminate" "CS_QUEUE_TERMINATE" (.csQueueTerminate va)

/-- Tells the GPU that a ring has new work. -/
def kickQueue (va : UInt64) : Op κ Unit :=
  streamRequest "QueueKick" "CS_QUEUE_KICK" (.csQueueKick va)

/-- Makes a processor queue. -/
def createCpuQueue : Op κ UInt8 :=
  streamRequest "KCPUQueueCreate" "KCPU_QUEUE_CREATE" .kcpuQueueCreate

/-- Deletes a processor queue. -/
def deleteCpuQueue (id : UInt8) : Op κ Unit :=
  streamRequest "KCPUQueueDelete" "KCPU_QUEUE_DELETE" (.kcpuQueueDelete id)

/-- Puts a command on a processor queue, and gives the fences of its commands afterwards.  A full
queue is routine, so nothing is logged. -/
def enqueue (id : UInt8) (command : QueueCommand) : Op κ (List Int) := do
  match (← device).generation with
  | .csf =>
    match ← call (.ioctl (← device).fd (.kcpuQueueEnqueue id [command])) with
    | .ok fences => return fences
    | .error e => fail (.ofErrno e)
  | .old | .jm => unsupported "KCPUEnqueue"

end Interface

end Mali
