/-!
# Faults

Everything that can go wrong is a value.  A `Fault` is a root `Cause` wrapped in the activities
that met it, innermost first, and its text is the chain of activities followed by the cause, each
separated by a colon.

* `Errno`: the error numbers a kernel answers with.
* `quotedName`: how messages show names that callers chose.
* `Cause`: what went wrong, with the numbers the report names.
* `Activity`: what was being done.
* `Fault.message`: the text of a fault.
* `Fault.cause`: the cause at the bottom of the chain, which decides what kind of fault it is.
* `Halt`: why an operation stopped, a fault for the caller or the violation of a promise.
-/

namespace Mali

/-- Error numbers of the system calls. -/
inductive Errno where
  | perm | intr | io | badf | again | nomem | acces | fault | busy | nodev | inval | mfile
  | notty | nospc | spipe | nosys
  deriving DecidableEq, Repr, Inhabited

namespace Errno

/-- The symbolic name. -/
def name : Errno → String
  | perm => "EPERM"
  | intr => "EINTR"
  | io => "EIO"
  | badf => "EBADF"
  | again => "EAGAIN"
  | nomem => "ENOMEM"
  | acces => "EACCES"
  | fault => "EFAULT"
  | busy => "EBUSY"
  | nodev => "ENODEV"
  | inval => "EINVAL"
  | mfile => "EMFILE"
  | notty => "ENOTTY"
  | nospc => "ENOSPC"
  | spipe => "ESPIPE"
  | nosys => "ENOSYS"

/-- The explanatory text. -/
def message : Errno → String
  | perm => "operation not permitted"
  | intr => "interrupted system call"
  | io => "input/output error"
  | badf => "bad file descriptor"
  | again => "resource temporarily unavailable"
  | nomem => "cannot allocate memory"
  | acces => "permission denied"
  | fault => "bad address"
  | busy => "device or resource busy"
  | nodev => "no such device"
  | inval => "invalid argument"
  | mfile => "too many open files"
  | notty => "inappropriate ioctl for device"
  | nospc => "no space left on device"
  | spipe => "illegal seek"
  | nosys => "function not implemented"

/-- Every error number. -/
def all : List Errno :=
  [perm, intr, io, badf, again, nomem, acces, fault, busy, nodev, inval, mfile, notty, nospc,
    spipe, nosys]

/-- The error number with a given symbolic name. -/
def ofName? (s : String) : Option Errno :=
  all.find? (·.name == s)

end Errno

/-- Whether messages leave a character out at the end of a name. -/
def isTrailingBlank (c : Char) : Bool := c == ' ' || c == '\n'

/-- A name without the blanks and line ends at its end.  A character goes exactly if it is one of those
and nothing after it stays. -/
def trimBlank : List Char → List Char
  | [] => []
  | c :: cs =>
    match trimBlank cs with
    | [] => if isTrailingBlank c then [] else [c]
    | d :: ds => c :: d :: ds

/-- A character of a name as messages show it.  Single angle quotation marks delimit names in
annotated messages, so inside a name they are shown as question marks. -/
def quotedChar (c : Char) : Char := if c == '‹' || c == '›' then '?' else c

/-- A name that a caller chose, as messages show it: without the blanks and line ends at its end,
and without quotation marks of its own. -/
def quotedName (s : String) : String :=
  String.ofList ((trimBlank s.toList).map quotedChar)

/-- What went wrong. -/
inductive Cause where
  /-- A system call answered with an error number. -/
  | errno (e : Errno)
  /-- A number is not a power of two. -/
  | powerOfTwo
  /-- An offset and length do not fit a mapping. -/
  | range
  /-- The interface generation has no such request. -/
  | unsupported
  /-- The GPU did not finish in time. -/
  | timeout
  /-- A command stream has no user I/O pages. -/
  | notBound
  /-- Every event slot is taken. -/
  | tooManySlots
  /-- A number that is no handle. -/
  | invalidHandle
  /-- Every attempt to allocate failed. -/
  | outOfMemory
  /-- A shared buffer was asked for without importing one. -/
  | shared
  /-- An imported file has no usable size. -/
  | invalidImport
  /-- A batch is submitted a second time. -/
  | submitted
  /-- The kernel reported an empty property buffer. -/
  | emptyProperties (size : Int)
  /-- The handle table ends with a freed slot. -/
  | freedTail (index : Nat)
  /-- A freed handle still counts users. -/
  | freedInUse (handle : Nat) (users : Nat)
  /-- An atom names a number that is no handle. -/
  | atomHandle (atom : Nat) (handle : Int)
  /-- A handle reached the most atoms it can count. -/
  | handleOverused (handle : Int)
  /-- A handle was released more often than it was used. -/
  | handleOverreleased (handle : Int)
  /-- A slot completed work that was never submitted. -/
  | slotOvertaken (last lastSubmit : Nat)
  /-- A link waits for less than the one before it. -/
  | linkOrder (index : Nat) (seqnum before : Nat)
  /-- A queue group came without an identity. -/
  | groupWithoutId (handle : Nat)
  /-- An atom number is reused while its atom still runs. -/
  | atomInFlight (atom : Nat)
  /-- A buffer was referenced after its last reference went. -/
  | referencedAfterRelease (handle : Nat) (label : String)
  /-- A buffer was released more often than it was referenced. -/
  | overreleased (handle : Nat) (label : String)
  /-- A buffer was asked for with no bytes. -/
  | sizeNotPositive (size : Int)
  /-- A growable buffer was asked for that the processor can see. -/
  | growableVisible (label : String)
  /-- A cached handle names no buffer. -/
  | cachedHandleMissing (handle : Nat)
  /-- A bucket holds a handle that names no buffer. -/
  | bucketHandleMissing (bucket handle : Nat)
  /-- A buffer records another bucket than the one that holds it. -/
  | bucketMismatch (handle bucket : Nat) (recorded : Int)
  /-- A cached buffer is not in the list of all cached buffers. -/
  | cachedUnlisted (handle : Nat)
  /-- A cached buffer still has recorded usage. -/
  | cachedInUse (handle : Nat)
  /-- The buckets and the list of all cached buffers differ in length. -/
  | cacheCount (buckets listed : Nat)
  deriving DecidableEq, Repr, Inhabited

namespace Cause

/-- The text of a cause. -/
def message : Cause → String
  | errno e => e.message
  | powerOfTwo => "number must be a power of two"
  | range => "range exceeds mapping"
  | unsupported => "operation not supported by this kbase interface"
  | timeout => "timed out waiting for the GPU"
  | notBound => "command stream is not bound"
  | tooManySlots => "all event slots are in use"
  | invalidHandle => "invalid GEM handle"
  | outOfMemory => "out of GPU memory"
  | shared => "shared buffer objects can only be imported"
  | invalidImport => "dma-buf cannot be imported"
  | submitted => "batch was already submitted"
  | emptyProperties size => s!"GET_GPUPROPS reported a {size} byte buffer"
  | freedTail index => s!"handle table ends with a freed slot ({index})"
  | freedInUse handle users => s!"freed handle {handle} still has {users} users"
  | atomHandle atom handle => s!"atom {atom} references invalid handle {handle}"
  | handleOverused handle => s!"handle {handle} is used by too many atoms"
  | handleOverreleased handle => s!"handle {handle} released more times than it was used"
  | slotOvertaken last lastSubmit =>
    s!"event slot completed {last} past its last submit {lastSubmit}"
  | linkOrder index seqnum before => s!"callback {index} ({seqnum}) is ordered before {before}"
  | groupWithoutId handle => s!"queue group {handle} was created with uid 0"
  | atomInFlight atom => s!"atom {atom} is still in flight"
  | referencedAfterRelease handle label =>
    s!"buffer object {handle} ({quotedName label}) was referenced after its release"
  | overreleased handle label =>
    s!"buffer object {handle} ({quotedName label}) was released more times than it was referenced"
  | sizeNotPositive size => s!"buffer object size {size} is not positive"
  | growableVisible label => s!"growable buffer object {quotedName label} must be invisible"
  | cachedHandleMissing handle => s!"cached handle {handle} has no buffer object"
  | bucketHandleMissing bucket handle =>
    s!"bucket {bucket} holds handle {handle} with no buffer object"
  | bucketMismatch handle bucket recorded =>
    s!"buffer object {handle} in bucket {bucket} records bucket {recorded}"
  | cachedUnlisted handle => s!"cached buffer object {handle} is missing from the LRU"
  | cachedInUse handle => s!"cached buffer object {handle} still has usage"
  | cacheCount buckets listed =>
    s!"the buckets hold {buckets} buffer objects but the LRU holds {listed}"

end Cause

/-- The hexadecimal digits of a number, without leading zeros. -/
def hexDigits (n : Nat) : String :=
  String.ofList (Nat.toDigits 16 n)

/-- What was being done when a fault arose. -/
inductive Activity where
  /-- Checking a named number. -/
  | checking (name : String) (value : Int)
  /-- Checking a range against a size. -/
  | checkingRange (offset length size : Int)
  /-- Asking for something by name that this generation lacks. -/
  | asking (name : String)
  /-- Issuing a request. -/
  | request (name : String)
  /-- Issuing a request that answered with a return code. -/
  | requestCode (name : String) (code : Nat)
  /-- Looking for an interface. -/
  | detecting
  /-- Preparing a device. -/
  | setup (step : String)
  /-- Closing the device file. -/
  | closingDevice
  /-- Mapping something. -/
  | mapping (what : String)
  /-- Using the answer to a memory request. -/
  | regionAnswer (flags va : Nat)
  /-- Duplicating a descriptor. -/
  | duplicating (fd : Int)
  /-- Measuring a file. -/
  | measuring (fd : Int)
  /-- Using the size of a file. -/
  | fileSize (fd size : Int)
  /-- Waiting for or looking up a handle. -/
  | onHandle (number : Int)
  /-- Checking the handle table. -/
  | handleTable
  /-- Checking an event slot. -/
  | eventSlot (slot : Nat)
  /-- Waiting for room in a processor queue that keeps refusing with a given text. -/
  | enqueueing (refusal : String)
  /-- Creating a buffer. -/
  | creating (label : String)
  /-- Creating a buffer of some size. -/
  | creatingBytes (label : String) (size : Int)
  /-- Exporting a buffer. -/
  | exporting (handle : Nat)
  /-- Creating the GPU context of a submission context. -/
  | creatingContext
  /-- Binding a ring. -/
  | binding (label : String)
  /-- Resetting a submission context. -/
  | resetting
  /-- Recovering from a batch that did not finish. -/
  | recovering
  /-- Submitting to the vertex stream. -/
  | vertexStream
  /-- Submitting to the fragment stream. -/
  | fragmentStream
  /-- Submitting a batch to command streams. -/
  | submittingStreams
  /-- Submitting a batch as a job chain. -/
  | submittingJobs
  deriving DecidableEq, Repr, Inhabited

namespace Activity

/-- The text of an activity. -/
def message : Activity → String
  | checking name value => s!"{quotedName name} is {value}"
  | checkingRange offset length size => s!"offset {offset} length {length} size {size}"
  | asking name => name
  | request name => s!"ioctl({name})"
  | requestCode name code => s!"ioctl({name}) rc {code}"
  | detecting => "no kbase interface answered VERSION_CHECK"
  | setup step => s!"kbase setup: {step}"
  | closingDevice => "close(mali fd)"
  | mapping what => s!"mmap({what})"
  | regionAnswer flags va =>
    "MEM_ALLOC returned flags 0x" ++ hexDigits flags ++ " va 0x" ++ hexDigits va
  | duplicating fd => s!"dup({fd})"
  | measuring fd => s!"lseek({fd})"
  | fileSize fd size => s!"fd {fd} has size {size}"
  | onHandle number => s!"handle {number}"
  | handleTable => "handle table"
  | eventSlot slot => s!"event slot {slot}"
  | enqueueing refusal => s!"ioctl(KCPU_QUEUE_ENQUEUE): {refusal}"
  | creating label => s!"creating {quotedName label}"
  | creatingBytes label size => s!"creating {quotedName label} of {size} bytes"
  | exporting handle => s!"exporting buffer object {handle}"
  | creatingContext => "failed to create the GPU context"
  | binding label => s!"failed to bind {label}"
  | resetting => "only CSF contexts are reset"
  | recovering => "failed to reset context after a timed out batch"
  | vertexStream => "vertex stream"
  | fragmentStream => "fragment stream"
  | submittingStreams => "command stream submission needs a CSF GPU"
  | submittingJobs => "job chains need a job manager GPU"

end Activity

/-- A cause, inside the activities that met it. -/
inductive Fault where
  | root (cause : Cause)
  | during (activity : Activity) (inner : Fault)
  deriving DecidableEq, Repr, Inhabited

namespace Fault

/-- The activities, outermost first, then the cause, separated by colons. -/
def message : Fault → String
  | root c => c.message
  | during a f => a.message ++ ": " ++ f.message

/-- The cause at the bottom of the chain. -/
def cause : Fault → Cause
  | root c => c
  | during _ f => f.cause

@[simp] theorem cause_root (c : Cause) : (root c).cause = c := rfl

@[simp] theorem cause_during (a : Activity) (f : Fault) : (during a f).cause = f.cause := rfl

@[simp] theorem message_root (c : Cause) : (root c).message = c.message := rfl

@[simp] theorem message_during (a : Activity) (f : Fault) :
    (during a f).message = a.message ++ ": " ++ f.message := rfl

/-- The fault of a bare error number. -/
def ofErrno (e : Errno) : Fault := root (.errno e)

/-- The first of two faults, either of which may be missing. -/
def first? (a b : Option Fault) : Option Fault := a.or b

end Fault

/-- Why an operation did not come to a value. -/
inductive Halt where
  /-- The operation failed, and its caller is told. -/
  | fault (f : Fault)
  /-- A promise between callers was broken, and the program stops there. -/
  | panic (f : Fault)
  /-- Memory or a table was accessed out of its bounds, or a number divided by zero. -/
  | crash
  deriving DecidableEq, Repr, Inhabited

end Mali
