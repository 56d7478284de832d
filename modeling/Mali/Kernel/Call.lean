import Mali.Error
import Mali.Memory
import Mali.Abi.Command
import Mali.Properties

/-!
# The system call surface

A device talks to the outside through a dozen system calls.  They are data: a `Syscall` with its
arguments, and for each a type of replies.  Pointers in arguments are replaced by what they point
at, and what a call leaves in memory other than its reply is listed as stores.

* `Ioctl`, `OldIoctl`: requests on the device file, by generation.
* `Syscall`, `Syscall.Reply`: every call with what it answers.
* `Answer`: a reply or an error number, and the stores made meanwhile.
* `Kernel`: the class of things that answer system calls.  Nothing is assumed of the answers, so a
  statement for every kernel is a statement for every stream of answers.
-/

namespace Mali

/-! ## Arguments -/

/-- Pages and flags of a region to make. -/
structure RegionRequest where
  vaPages : UInt64
  commitPages : UInt64
  extension : UInt64 := 0
  flags : UInt64 := 0
  deriving DecidableEq, Repr, Inhabited

/-- Resources a queue group asks for. -/
structure GroupRequest where
  tilerMask : UInt64
  fragmentMask : UInt64
  computeMask : UInt64
  streamMin : UInt8
  priority : UInt8
  tilerMax : UInt8
  fragmentMax : UInt8
  computeMax : UInt8
  deriving DecidableEq, Repr, Inhabited

/-- Chunks of a tiler heap to make. -/
structure HeapRequest where
  chunkSize : UInt32
  initialChunks : UInt32
  maxChunks : UInt32
  targetInFlight : UInt16
  group : UInt8 := 0
  deriving DecidableEq, Repr, Inhabited

/-- A range of a mapping to clean or invalidate. -/
structure SyncRequest where
  handle : UInt64
  userAddr : UInt64
  size : UInt64
  type : UInt8
  deriving DecidableEq, Repr, Inhabited

/-- A descriptor to import. -/
structure ImportRequest where
  fd : Int32
  type : UInt32
  flags : UInt64
  deriving DecidableEq, Repr, Inhabited

/-- An atom to run after, and how. -/
structure Dependency where
  atom : UInt8 := 0
  type : UInt8 := 0
  deriving DecidableEq, Repr, Inhabited

/-- A job chain to run. -/
structure Atom where
  /-- The address of the first job descriptor. -/
  jobChain : UInt64 := 0
  /-- The number that the completion event repeats. -/
  seqnum : UInt64 := 0
  /-- Addresses of external resources. -/
  resources : List UInt64 := []
  /-- How many of them the kernel is told about. -/
  resourceCount : UInt16 := 0
  /-- One dependency for each job slot. -/
  dependency0 : Dependency := {}
  dependency1 : Dependency := {}
  number : UInt8 := 0
  requirements : UInt32 := 0
  deriving DecidableEq, Repr, Inhabited

/-- An operation on a sync word. -/
structure SyncOperation where
  addr : UInt64
  value : UInt64
  operation : UInt8
  dataType : UInt8
  deriving DecidableEq, Repr, Inhabited

/-- A command of a processor queue, with the fence or the operations its payload points at. -/
structure QueueCommand where
  type : UInt8
  fence : Int32 := 0
  operations : List SyncOperation := []
  deriving DecidableEq, Repr, Inhabited

namespace QueueCommand

/-- The two words that the payload starts with: the fence and its stream, or the halves of the first
address if there are operations. -/
def payloadStart (c : QueueCommand) : Int32 × Int32 :=
  match c.operations with
  | [] => (c.fence, 0)
  | o :: _ => (o.addr.toUInt32.toInt32, (o.addr >>> 32).toUInt32.toInt32)

/-- The fence after the command was signalled with a descriptor, which the kernel writes to the start
of the payload. -/
def fenceAfter (c : QueueCommand) (fd : Int) : Int :=
  if c.operations.isEmpty then fd else c.fence.toInt

/-- Types of processor queue commands. -/
def fenceSignal : UInt8 := 0
@[inherit_doc fenceSignal] def fenceWait : UInt8 := 1
@[inherit_doc fenceSignal] def syncWait : UInt8 := 4
@[inherit_doc fenceSignal] def syncSet : UInt8 := 5

end QueueCommand

namespace SyncOperation

/-- Operations of set commands: add to the word, or replace it. -/
def setAdd : UInt8 := 0
@[inherit_doc setAdd] def setReplace : UInt8 := 1

/-- The wait operation that is over once the word is greater. -/
def waitGreater : UInt8 := 1

/-- The data type of eight byte sync words. -/
def word64 : UInt8 := 1

end SyncOperation

/-! ## Replies -/

/-- An interface version. -/
structure Version where
  major : UInt16 := 0
  minor : UInt16 := 0
  deriving DecidableEq, Repr, Inhabited

/-- The answer to a property query: the returned number and the bytes written to the buffer. -/
structure PropertyReply where
  returned : Int
  written : List UInt8
  deriving DecidableEq, Repr, Inhabited

/-- A region that was made. -/
structure RegionReply where
  flags : UInt64
  va : UInt64
  deriving DecidableEq, Repr, Inhabited

/-- A region that an import made. -/
structure ImportReply where
  flags : UInt64
  va : UInt64
  vaPages : UInt64
  deriving DecidableEq, Repr, Inhabited

/-- A queue group that was made. -/
structure GroupReply where
  handle : UInt8
  uid : UInt32
  deriving DecidableEq, Repr, Inhabited

/-- A tiler heap that was made. -/
structure HeapReply where
  heapVa : UInt64
  firstChunkVa : UInt64
  deriving DecidableEq, Repr, Inhabited

/-- What a request of the oldest generation leaves behind: a return code in the header, and the
rest of the argument. -/
structure Coded (α : Type) where
  code : UInt32 := 0
  value : α
  deriving DecidableEq, Repr, Inhabited

/-! ## Requests -/

/-- Requests of the oldest generation. -/
inductive OldIoctl where
  | getVersion
  | memAlloc (r : RegionRequest)
  | memImport (r : ImportRequest)
  | memFree (va : UInt64)
  | memSync (r : SyncRequest)
  | gpuPropsRegDump
  | setFlags (flags : UInt32)
  | jobSubmit (atom : Atom)
  deriving DecidableEq, Repr, Inhabited

namespace OldIoctl

/-- The request that a value of this type issues. -/
def command : OldIoctl → Abi.Command
  | getVersion => .oldGetVersion
  | memAlloc _ => .oldMemAlloc
  | memImport _ => .oldMemImport
  | memFree _ => .oldMemFree
  | memSync _ => .oldMemSync
  | gpuPropsRegDump => .oldGpuPropsRegDump
  | setFlags _ => .oldSetFlags
  | jobSubmit _ => .oldJobSubmit

/-- What is left in the argument besides the header. -/
@[reducible] def Reply : OldIoctl → Type
  | getVersion => Version
  | memAlloc _ => RegionReply
  | memImport _ => ImportReply
  | memFree _ => Unit
  | memSync _ => Unit
  | gpuPropsRegDump => RegisterDump
  | setFlags _ => Unit
  | jobSubmit _ => Unit

/-- The argument as the caller left it: what is read when the kernel writes nothing. -/
def untouched : (c : OldIoctl) → c.Reply
  | getVersion => {}
  | memAlloc r => ⟨r.flags, 0⟩
  | memImport r => ⟨r.flags, 0, 0⟩
  | memFree _ => ()
  | memSync _ => ()
  | gpuPropsRegDump => {}
  | setFlags _ => ()
  | jobSubmit _ => ()

end OldIoctl

/-- Requests on the device file. -/
inductive Ioctl where
  | versionCheck (reserved : Bool)
  | setFlags (flags : UInt32)
  | jobSubmit (atom : Atom)
  | getGpuProps (size flags : UInt32)
  | memAlloc (r : RegionRequest)
  | memFree (va : UInt64)
  | memJitInit (vaPages : UInt64) (maxAllocations trim group : UInt8) (physPages : UInt64)
  | memSync (r : SyncRequest)
  | memImport (r : ImportRequest)
  | memExecInit (vaPages : UInt64)
  | csQueueRegister (va : UInt64) (size : UInt32) (priority : UInt8)
  | csQueueKick (va : UInt64)
  | csQueueBind (va : UInt64) (group csi : UInt8)
  | csQueueTerminate (va : UInt64)
  | csQueueGroupCreate (r : GroupRequest)
  | csQueueGroupTerminate (group : UInt8)
  | kcpuQueueCreate
  | kcpuQueueDelete (id : UInt8)
  | kcpuQueueEnqueue (id : UInt8) (commands : List QueueCommand)
  | csTilerHeapInit (r : HeapRequest)
  | csTilerHeapTerm (va : UInt64)
  /-- A request of the oldest generation, with the function number in its header. -/
  | old (id : UInt32) (request : OldIoctl)
  /-- A number that names no request, or a request without its argument. -/
  | unknown (request : UInt32)
  deriving DecidableEq, Repr, Inhabited

namespace Ioctl

/-- The request that a value of this type issues. -/
def command? : Ioctl → Option Abi.Command
  | versionCheck reserved => some (if reserved then .versionCheckReserved else .versionCheck)
  | setFlags _ => some .setFlags
  | jobSubmit _ => some .jobSubmit
  | getGpuProps _ _ => some .getGpuProps
  | memAlloc _ => some .memAlloc
  | memFree _ => some .memFree
  | memJitInit .. => some .memJitInit
  | memSync _ => some .memSync
  | memImport _ => some .memImport
  | memExecInit _ => some .memExecInit
  | csQueueRegister .. => some .csQueueRegister
  | csQueueKick _ => some .csQueueKick
  | csQueueBind .. => some .csQueueBind
  | csQueueTerminate _ => some .csQueueTerminate
  | csQueueGroupCreate _ => some .csQueueGroupCreate
  | csQueueGroupTerminate _ => some .csQueueGroupTerminate
  | kcpuQueueCreate => some .kcpuQueueCreate
  | kcpuQueueDelete _ => some .kcpuQueueDelete
  | kcpuQueueEnqueue .. => some .kcpuQueueEnqueue
  | csTilerHeapInit _ => some .csTilerHeapInit
  | csTilerHeapTerm _ => some .csTilerHeapTerm
  | old _ r => some r.command
  | unknown _ => none

/-- The number of a request. -/
def request : Ioctl → Abi.Request
  | unknown r => r
  | c => (c.command?.map (·.request)).getD 0

/-- What a request answers. -/
@[reducible] def Reply : Ioctl → Type
  | versionCheck _ => Version
  | getGpuProps _ _ => PropertyReply
  | memAlloc _ => RegionReply
  | memImport _ => ImportReply
  | csQueueBind _ _ _ => UInt64
  | csQueueGroupCreate _ => GroupReply
  | kcpuQueueCreate => UInt8
  | kcpuQueueEnqueue _ _ => List Int
  | csTilerHeapInit _ => HeapReply
  | old _ r => Coded r.Reply
  | setFlags _ | jobSubmit _ | memFree _ | memJitInit _ _ _ _ _ | memSync _ | memExecInit _
  | csQueueRegister _ _ _ | csQueueKick _ | csQueueTerminate _ | csQueueGroupTerminate _
  | kcpuQueueDelete _ | csTilerHeapTerm _ | unknown _ => Unit

/-- The number that a successful request returns. -/
def returned : (c : Ioctl) → c.Reply → Int
  | getGpuProps _ _, r => PropertyReply.returned r
  | _, _ => 0

end Ioctl

/-! ## System calls -/

/-- System calls with their arguments. -/
inductive Syscall where
  | ioctl (fd : Int) (request : Ioctl)
  | mmap (fd : Int) (offset length : Int64) (prot flags : Int)
  | munmap (mapping : Mapping)
  | dup (fd : Int)
  | close (fd : Int)
  | seek (fd : Int) (offset : Int) (whence : Int)
  | sameFile (fd other : Int)
  /-- Waits up to `timeout` nanoseconds for events on a descriptor. -/
  | poll (fd : Int) (events : Int16) (timeout : Int)
  | read (fd : Int) (length : Nat)
  /-- Lets `duration` nanoseconds pass. -/
  | sleep (duration : Nat)
  /-- Blocks up to a moment, or until the device has something to tell, and says whether it has. -/
  | await (moment : Nat)
  deriving DecidableEq, Repr, Inhabited

/-- Protection and sharing of mappings, and events of polls. -/
def protNone : Int := 0
@[inherit_doc protNone] def protRead : Int := 1
@[inherit_doc protNone] def protReadWrite : Int := 3
@[inherit_doc protNone] def mapShared : Int := 1
@[inherit_doc protNone] def pollIn : Int16 := 1
@[inherit_doc protNone] def pollOut : Int16 := 4
@[inherit_doc protNone] def seekEnd : Int := 2

namespace Syscall

/-- What a system call answers. -/
@[reducible] def Reply : Syscall → Type
  | ioctl _ request => request.Reply
  | mmap _ _ _ _ _ => UInt64
  | munmap _ => Unit
  | dup _ => Int
  | close _ => Unit
  | seek _ _ _ => Int
  | sameFile _ _ => Bool
  | poll _ _ _ => Bool
  | read _ _ => List UInt8
  | sleep _ => Unit
  | await _ => Bool

end Syscall

/-- A word written to memory from outside the program. -/
inductive Store where
  | set (addr : Nat) (value : UInt64)
  | add (addr : Nat) (value : UInt64)
  deriving DecidableEq, Repr, Inhabited

namespace Memory

/-- Applies a store. -/
def apply (m : Memory) : Store → Memory
  | .set addr value => m.setWord addr value
  | .add addr value => m.setWord addr (m.word addr + value)

end Memory

/-- The outcome of a system call, and what was stored while it ran. -/
structure Answer (α : Type) where
  result : Except Errno α
  stores : List Store := []

/-- Something that answers system calls and keeps the time. -/
class Kernel (κ : Type) where
  /-- Answers one system call. -/
  call : κ → (c : Syscall) → Answer c.Reply × κ
  /-- The time in nanoseconds. -/
  now : κ → Nat
  /-- The size of a page. -/
  pageSize : κ → Int64
  /-- Whether there is no device behind it. -/
  simulated : κ → Bool

/-- A system call that was made, with its outcome. -/
structure CallRecord where
  call : Syscall
  result : Except Errno call.Reply

end Mali
