import Mali.Abi.Request
import Mali.Abi.Structs

/-!
# Requests of the device interface

Every request a device file understands, over all three generations, with its name, the record it
takes and its number.  The number carries the size of the record, so it follows from the layouts.

* `Command`: the requests.
* `Command.name`, `Command.ofName?`: names as traces and failure plans write them.
* `Command.argument`: the record that the request takes.
* `Command.request`: the packed number.
-/

namespace Mali.Abi

/-- The type of every request of the newer generations and of the old version request. -/
def sharedType : UInt32 := 0x80

/-- The type of the other requests of the oldest generation. -/
def oldType : UInt32 := 0x82

/-- A request of the device interface. -/
inductive Command where
  | versionCheck | versionCheckReserved | setFlags | jobSubmit | getGpuProps | memAlloc | memFree
  | memJitInit | memSync | memImport | memExecInit
  | csQueueRegister | csQueueKick | csQueueBind | csQueueTerminate | csQueueGroupCreate
  | csQueueGroupTerminate | kcpuQueueCreate | kcpuQueueDelete | kcpuQueueEnqueue
  | csTilerHeapInit | csTilerHeapTerm
  | oldGetVersion | oldMemAlloc | oldMemImport | oldMemFree | oldMemSync | oldGpuPropsRegDump
  | oldSetFlags | oldJobSubmit
  deriving DecidableEq, Repr, Inhabited

namespace Command

/-- Every request. -/
def all : List Command :=
  [versionCheck, versionCheckReserved, setFlags, jobSubmit, getGpuProps, memAlloc, memFree,
    memJitInit, memSync, memImport, memExecInit, csQueueRegister, csQueueKick, csQueueBind,
    csQueueTerminate, csQueueGroupCreate, csQueueGroupTerminate, kcpuQueueCreate,
    kcpuQueueDelete, kcpuQueueEnqueue, csTilerHeapInit, csTilerHeapTerm, oldGetVersion,
    oldMemAlloc, oldMemImport, oldMemFree, oldMemSync, oldGpuPropsRegDump, oldSetFlags,
    oldJobSubmit]

/-- The name of a request. -/
def name : Command → String
  | versionCheck => "VERSION_CHECK"
  | versionCheckReserved => "VERSION_CHECK_RESERVED"
  | setFlags => "SET_FLAGS"
  | jobSubmit => "JOB_SUBMIT"
  | getGpuProps => "GET_GPUPROPS"
  | memAlloc => "MEM_ALLOC"
  | memFree => "MEM_FREE"
  | memJitInit => "MEM_JIT_INIT"
  | memSync => "MEM_SYNC"
  | memImport => "MEM_IMPORT"
  | memExecInit => "MEM_EXEC_INIT"
  | csQueueRegister => "CS_QUEUE_REGISTER"
  | csQueueKick => "CS_QUEUE_KICK"
  | csQueueBind => "CS_QUEUE_BIND"
  | csQueueTerminate => "CS_QUEUE_TERMINATE"
  | csQueueGroupCreate => "CS_QUEUE_GROUP_CREATE"
  | csQueueGroupTerminate => "CS_QUEUE_GROUP_TERMINATE"
  | kcpuQueueCreate => "KCPU_QUEUE_CREATE"
  | kcpuQueueDelete => "KCPU_QUEUE_DELETE"
  | kcpuQueueEnqueue => "KCPU_QUEUE_ENQUEUE"
  | csTilerHeapInit => "CS_TILER_HEAP_INIT"
  | csTilerHeapTerm => "CS_TILER_HEAP_TERM"
  | oldGetVersion => "OLD_GET_VERSION"
  | oldMemAlloc => "OLD_MEM_ALLOC"
  | oldMemImport => "OLD_MEM_IMPORT"
  | oldMemFree => "OLD_MEM_FREE"
  | oldMemSync => "OLD_MEM_SYNC"
  | oldGpuPropsRegDump => "OLD_GPU_PROPS_REG_DUMP"
  | oldSetFlags => "OLD_SET_FLAGS"
  | oldJobSubmit => "OLD_JOB_SUBMIT"

/-- The request with a given name. -/
def ofName? (s : String) : Option Command :=
  all.find? (·.name == s)

/-- The record a request takes. -/
def argument : Command → Fields
  | versionCheck | versionCheckReserved => Abi.versionCheck
  | setFlags => Abi.setFlags
  | jobSubmit => Abi.jobSubmit
  | getGpuProps => getGPUProps
  | memAlloc => Abi.memAlloc
  | memFree => Abi.memFree
  | memJitInit => memJITInit
  | memSync => Abi.memSync
  | memImport => Abi.memImport
  | memExecInit => Abi.memExecInit
  | csQueueRegister => Abi.csQueueRegister
  | csQueueKick => Abi.csQueueKick
  | csQueueBind => Abi.csQueueBind
  | csQueueTerminate => Abi.csQueueTerminate
  | csQueueGroupCreate => Abi.csQueueGroupCreate
  | csQueueGroupTerminate => csQueueGroupTerm
  | kcpuQueueCreate => kcpuQueueNew
  | kcpuQueueDelete => Abi.kcpuQueueDelete
  | kcpuQueueEnqueue => Abi.kcpuQueueEnqueue
  | csTilerHeapInit => Abi.csTilerHeapInit
  | csTilerHeapTerm => Abi.csTilerHeapTerm
  | oldGetVersion => Abi.oldGetVersion
  | oldMemAlloc => Abi.oldMemAlloc
  | oldMemImport => Abi.oldMemImport
  | oldMemFree => Abi.oldMemFree
  | oldMemSync => Abi.oldMemSync
  | oldGpuPropsRegDump => oldGPUPropsRegDump
  | oldSetFlags => Abi.oldSetFlags
  | oldJobSubmit => Abi.oldJobSubmit

/-- Direction, type and command number of a request. -/
def code : Command → UInt32 × UInt32 × UInt32
  | versionCheck => (3, sharedType, 0)
  | setFlags => (1, sharedType, 1)
  | jobSubmit => (1, sharedType, 2)
  | getGpuProps => (1, sharedType, 3)
  | memAlloc => (3, sharedType, 5)
  | memFree => (1, sharedType, 7)
  | memJitInit => (1, sharedType, 14)
  | memSync => (1, sharedType, 15)
  | memImport => (3, sharedType, 22)
  | csQueueRegister => (1, sharedType, 36)
  | csQueueKick => (1, sharedType, 37)
  | memExecInit => (1, sharedType, 38)
  | csQueueBind => (3, sharedType, 39)
  | csQueueTerminate => (1, sharedType, 41)
  | csQueueGroupCreate => (3, sharedType, 42)
  | csQueueGroupTerminate => (1, sharedType, 43)
  | kcpuQueueCreate => (2, sharedType, 45)
  | kcpuQueueDelete => (1, sharedType, 46)
  | kcpuQueueEnqueue => (1, sharedType, 47)
  | csTilerHeapInit => (3, sharedType, 48)
  | csTilerHeapTerm => (1, sharedType, 49)
  | versionCheckReserved => (3, sharedType, 52)
  | oldGetVersion => (3, sharedType, 0)
  | oldMemAlloc => (3, oldType, 0)
  | oldMemImport => (3, oldType, 1)
  | oldMemFree => (3, oldType, 4)
  | oldMemSync => (3, oldType, 8)
  | oldGpuPropsRegDump => (3, oldType, 14)
  | oldSetFlags => (3, oldType, 18)
  | oldJobSubmit => (3, oldType, 28)

/-- The packed number of a request. -/
def request (c : Command) : Request :=
  Request.pack c.code.1 c.code.2.1 c.code.2.2 (UInt32.ofNat c.argument.size)

/-- The function number in the header of a request of the oldest generation. -/
def headerId (c : Command) : UInt32 := Request.headerId c.request

end Command

end Mali.Abi
