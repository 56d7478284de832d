import Mali.Allocator
import Mali.Batch
import Mali.Device
import Mali.Kernel.Call

/-!
# Machines and operations

A machine is everything a run can see and change: the kernel, the memory, the device, the
allocator with its buffers, the submission contexts with their batches, and what was said on the
way.  An operation changes a machine and comes to a value or stops with a `Halt`; what it changed
before it stopped stays changed.

* `Machine`: the state of a run.
* `Op`: operations on it.
* `Op.call`: one system call.  It is the only way to the kernel, records the call, and applies
  what was stored to memory meanwhile.
* `Op.fail`, `Op.violate`, `Op.crash`, `Op.attempt`: the three ways to stop, and trying an
  operation that may fail.  Broken promises and crashes cannot be caught.
-/

namespace Mali

/-- How urgent a log record is. -/
inductive LogLevel where
  | debug | warn | error
  deriving DecidableEq, Repr, Inhabited

/-- The name of a level. -/
def LogLevel.name : LogLevel → String
  | debug => "DEBUG"
  | warn => "WARN"
  | error => "ERROR"

/-- A log record. -/
structure LogRecord where
  level : LogLevel
  message : String
  fields : List (String × String) := []
  deriving DecidableEq, Repr, Inhabited

/-- The texts of a log record: its level, its message, then its fields. -/
def LogRecord.texts (l : LogRecord) : List String :=
  l.level.name :: l.message :: l.fields.map fun f => f.1 ++ "=" ++ f.2

/-- What a callback or a memory hook told its owner. -/
inductive Report where
  | callback (id : Int)
  | allocated (va : UInt64) (size : Int64)
  | freed (va : UInt64)
  deriving DecidableEq, Repr, Inhabited

/-- Everything a run can see and change. -/
structure Machine (κ : Type) where
  kernel : κ
  /-- Whether rules are checked after every change, and unused buffers are marked. -/
  checked : Bool := false
  memory : Memory := {}
  /-- System calls made, newest first. -/
  calls : List CallRecord := []
  /-- Log records, newest first. -/
  log : List LogRecord := []
  /-- Reports, newest first. -/
  reports : List Report := []
  device : Device := {}
  allocator : Allocator := {}
  submitters : List Submitter := []
  batches : List Batch := []

/-- Operations on a machine. -/
abbrev Op (κ : Type) := ExceptT Halt (StateM (Machine κ))

namespace Op

variable {κ α : Type}

/-! ## Stopping -/

/-- Stops with a fault for the caller. -/
def fail (f : Fault) : Op κ α := throw (.fault f)

/-- Stops because a promise was broken. -/
def violate (f : Fault) : Op κ α := throw (.panic f)

/-- Stops because something was accessed out of its bounds. -/
def crash : Op κ α := throw .crash

/-- The value of an option, which has to be there. -/
def require : Option α → Op κ α
  | some a => pure a
  | none => crash

/-- Tries an operation that may fail. -/
def attempt (x : Op κ α) : Op κ (Except Fault α) :=
  tryCatch (Except.ok <$> x) fun
    | .fault f => pure (.error f)
    | halt => throw halt

/-- The fault of an operation, if it failed. -/
def faultOf (x : Op κ α) : Op κ (Option Fault) := do
  match ← attempt x with
  | .ok _ => pure none
  | .error f => pure (some f)

/-- Does an operation whose failure does not matter. -/
def ignore (x : Op κ α) : Op κ Unit := discard (attempt x)

/-! ## Logging -/

/-- Adds a log record. -/
def log (level : LogLevel) (message : String) (fields : List (String × String) := []) :
    Op κ Unit :=
  modify fun m => { m with log := ⟨level, message, fields⟩ :: m.log }

/-- Adds a trace to the log. -/
def debug (message : String) (fields : List (String × String) := []) : Op κ Unit :=
  log .debug message fields

/-- Adds a warning to the log. -/
def warn (message : String) (fields : List (String × String) := []) : Op κ Unit :=
  log .warn message fields

/-- Adds an error to the log. -/
def error (message : String) (fields : List (String × String) := []) : Op κ Unit :=
  log .error message fields

/-- Adds a report. -/
def report (r : Report) : Op κ Unit :=
  modify fun m => { m with reports := r :: m.reports }

/-! ## Parts of a machine -/

/-- The device. -/
def device : Op κ Device := return (← get).device

/-- Changes the device. -/
def modifyDevice (f : Device → Device) : Op κ Unit :=
  modify fun m => { m with device := f m.device }

/-- The allocator. -/
def allocator : Op κ Allocator := return (← get).allocator

/-- Makes sure that there is an allocator. -/
def requireAllocator : Op κ Unit := do
  if !(← allocator).started then crash

/-- Changes the allocator. -/
def modifyAllocator (f : Allocator → Allocator) : Op κ Unit :=
  modify fun m => { m with allocator := f m.allocator }

/-- Changes the memory. -/
def modifyMemory (f : Memory → Memory) : Op κ Unit :=
  modify fun m => { m with memory := f m.memory }

/-- A buffer by number. -/
def buffer (id : Nat) : Op κ Buffer := do
  require (← allocator).buffers[id]?

/-- Changes a buffer. -/
def modifyBuffer (id : Nat) (f : Buffer → Buffer) : Op κ Unit :=
  modifyAllocator (·.mapBuffer id f)

/-- Stops if rules are checked and one is broken. -/
def checkRule (rule : Machine κ → Option Cause) : Op κ Unit := do
  let m ← get
  if m.checked then
    match rule m with
    | some c => violate (.root c)
    | none => pure ()

/-- Adds a trace if the log is verbose. -/
def trace (message : String) (fields : List (String × String) := []) : Op κ Unit := do
  if (← device).options.isVerbose then debug message fields

/-! ## The kernel -/

variable [Kernel κ]

/-- Makes a system call. -/
def call (c : Syscall) : Op κ (Except Errno c.Reply) := do
  let m ← get
  let (answer, kernel) := Kernel.call m.kernel c
  set { m with
    kernel
    memory := answer.stores.foldl Memory.apply m.memory
    calls := ⟨c, answer.result⟩ :: m.calls }
  return answer.result

/-- The time in nanoseconds. -/
def now : Op κ Nat := return Kernel.now (← get).kernel

/-- Maps part of the device file. -/
def mapMemory (offset length : Int64) (prot : Int) : Op κ (Except Errno Mapping) := do
  match ← call (.mmap (← device).fd offset length prot mapShared) with
  | .ok addr => return .ok ⟨addr, length.toInt.toNat⟩
  | .error e => return .error e

/-- Unmaps memory. -/
def unmapMemory (m : Mapping) : Op κ (Option Errno) := do
  match ← call (.munmap m) with
  | .ok _ => return none
  | .error e => return some e

/-- Lets time pass. -/
def sleep (duration : Nat) : Op κ Unit := discard (call (.sleep duration))

/-- Lets time pass up to a moment, or until the device has something to tell, and says whether it
has. -/
def await (moment : Nat) : Op κ Bool := do
  match ← call (.await moment) with
  | .ok woken => return woken
  | .error _ => return false

end Op

end Mali
