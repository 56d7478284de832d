import Mali.Device.Stream

/-!
# Opening and closing

Opening a device finds out the generation of its interface and then runs the steps that prepare
it, in order.  Closing undoes the steps that were begun, newest first, and closes the file.  A
failed opening closes what it had opened.

* `SetupStep`: the steps, with the generations they are for.
* `Device.openFile`, `Device.close`.
-/

namespace Mali

/-- The steps that prepare a device. -/
inductive SetupStep where
  | handleTable
  | flagsModern
  | tracking
  | flagsOld
  | properties
  | userRegisters
  | executableZone
  | jit
  | eventMemory
  deriving DecidableEq, Repr, Inhabited

namespace SetupStep

/-- All steps, in order.  The oldest generation sets its flags only after the tracking page is
mapped. -/
def all : List SetupStep :=
  [handleTable, flagsModern, tracking, flagsOld, properties, userRegisters, executableZone, jit,
    eventMemory]

/-- What a step does. -/
def name : SetupStep → String
  | handleTable => "allocate handle table"
  | flagsModern => "set flags"
  | tracking => "map tracking handle"
  | flagsOld => "set flags"
  | properties => "get GPU properties"
  | userRegisters => "map user register page"
  | executableZone => "initialise EXEC_VA zone"
  | jit => "initialise JIT allocator"
  | eventMemory => "allocate event memory"

/-- Whether a generation needs a step. -/
def appliesTo (g : Generation) : SetupStep → Bool
  | handleTable => true
  | flagsModern => g.isModern
  | tracking => true
  | flagsOld => g = .old
  | properties => true
  | userRegisters => g = .csf
  | executableZone => g.isModern
  | jit => g.isModern
  | eventMemory => g = .csf

end SetupStep

namespace Device

open Op Interface

variable {κ : Type} [Kernel κ]

/-! ## Setup -/

/-- Offsets of the fixed pages of the device file. -/
def trackingOffset : Int64 := 0x3000
@[inherit_doc trackingOffset] def userRegisterOffset : Int64 := 0x2f000

/-- Maps a fixed page of the device file. -/
def mapPage (offset : Int64) (prot : Int) (what : String) : Op κ Mapping := do
  match ← mapMemory offset (← device).options.pageSize prot with
  | .ok m => return m
  | .error e => fail (.during (.mapping what) (.ofErrno e))

/-- Does a step. -/
def setup : SetupStep → Op κ Unit
  | .handleTable => setHandles {}
  | .flagsModern => setFlags 0
  | .tracking => do
    let m ← mapPage trackingOffset protNone "BASE_MEM_MAP_TRACKING_HANDLE"
    modifyDevice fun d => { d with tracking := some m }
  | .flagsOld => setFlags 0
  | .properties => do
    let p ← gpuProperties
    modifyDevice fun d => { d with properties := some p }
  | .userRegisters => do
    let m ← mapPage userRegisterOffset protRead "BASEP_MEM_CSF_USER_REG_PAGE_HANDLE"
    modifyDevice fun d => { d with userRegisters := some m }
  | .executableZone => initExecutable 0x100000
  | .jit => initJit 0x2000000 255 0x2000000
  | .eventMemory => do
    let size := 2 * (← device).options.pageSize
    let region ← alloc size AllocFlag.noExecute MemFlag.eventMemory
    modifyDevice fun d => { d with
      eventMemory := some region.cpu
      eventVa := region.gpu }

/-- Unmaps a page of the device, if it is mapped. -/
def unmapPage (m : Option Mapping) : Op κ (Option Fault) := do
  match m with
  | none => return none
  | some m => return (← unmapMemory m).map Fault.ofErrno

/-- Undoes a step. -/
def cleanup : SetupStep → Op κ (Option Fault)
  | .handleTable => do
    closeHandles
    return none
  | .tracking => do
    let fault ← unmapPage (← device).tracking
    modifyDevice fun d => { d with tracking := none }
    return fault
  | .properties => do
    modifyDevice fun d => { d with properties := none }
    return none
  | .userRegisters => do
    let fault ← unmapPage (← device).userRegisters
    modifyDevice fun d => { d with userRegisters := none }
    return fault
  | .eventMemory => do
    let fault ← unmapPage (← device).eventMemory
    modifyDevice fun d => { d with eventMemory := none }
    return fault
  | .flagsModern | .flagsOld | .executableZone | .jit => return none

/-! ## Closing -/

/-- Undoes steps in the order given, and gives the first fault. -/
def teardown : List SetupStep → Op κ (Option Fault)
  | [] => return none
  | step :: steps => do
    modifyDevice fun d => { d with setupDone := d.setupDone - 1 }
    if step.appliesTo (← device).generation then
      match ← cleanup step with
      | none => teardown steps
      | some f =>
        error "kbase cleanup failed" [("step", step.name), ("error", f.message)]
        return Fault.first? (some f) (← teardown steps)
    else teardown steps

/-- Closes the device file, if there is one. -/
def closeFile : Op κ (Option Fault) := do
  let fd := (← device).fd
  if 0 ≤ fd then
    let answer ← call (.close fd)
    modifyDevice fun d => { d with fd := -1 }
    match answer with
    | .ok _ => return none
    | .error e => return some (.during .closingDevice (.ofErrno e))
  else return none

/-- Stops polling, undoes the steps that were begun, newest first, and closes the file.  Gives the
first fault. -/
def shutDown : Op κ (Option Fault) := do
  debug "Device::Close"
  Wait.stopPoller
  let fault ← teardown (SetupStep.all.take (← device).setupDone).reverse
  return Fault.first? fault (← closeFile)

/-- Closes a device.  Closing it again does nothing. -/
def close : Op κ Unit := do
  match ← shutDown with
  | none => pure ()
  | some f => fail f

/-- Closes the device while a wait is open and its poller is in a poll, and tells what the wait says
before, after, and once it is closed itself.  A fault of closing also ends the wait. -/
def closeDuringWait (timeout : Int) : Op κ (List Bool) := do
  let (first, w) ← (← Wait.start timeout).next
  Wait.enterUntilBlocked passLimit
  match ← shutDown with
  | some f =>
    discard w.done
    fail f
  | none =>
    let (second, w) ← w.next
    let (third, _) ← (← w.done).next
    return [first, second, third]

/-! ## Opening -/

/-- Asks for the version of the interface. -/
def versionCheck (reserved : Bool) : Op κ (Except Errno Version) := do
  call (.ioctl (← device).fd (.versionCheck reserved))

/-- Finds out the generation of the interface.  Only command stream kernels answer the reserved
request, and of the others the oldest has major version three. -/
def detect (simulated : Bool) : Op κ Generation := do
  if simulated then return .csf
  else
    match ← versionCheck true with
    | .ok _ => return .csf
    | .error _ =>
      match ← versionCheck false with
      | .error e => fail (.during .detecting (.ofErrno e))
      | .ok v =>
        debug "kbase version" [("major", toString v.major), ("minor", toString v.minor)]
        return if v.major = 3 then .old else .jm

/-- Asks the oldest generation for its version, which it wants to be asked first. -/
def greet (g : Generation) : Op κ Unit := do
  if g = .old then
    match ← attempt (oldRequest "GET_VERSION" .getVersion) with
    | .ok _ => pure ()
    | .error f => warn "GET_VERSION failed" [("error", f.message)]

/-- Does the steps that the generation needs. -/
def setupAll : List SetupStep → Op κ Unit
  | [] => pure ()
  | step :: steps => do
    modifyDevice fun d => { d with setupDone := d.setupDone + 1 }
    if step.appliesTo (← device).generation then
      match ← attempt (setup step) with
      | .ok _ => setupAll steps
      | .error f =>
        error "kbase setup failed" [("step", step.name), ("error", f.message)]
        discard shutDown
        fail (.during (.setup step.name) f)
    else setupAll steps

/-- Stops if rules are checked and the page size is no power of two. -/
def checkPageSize (pageSize : Int64) : Op κ Unit := do
  if (← get).checked then
    match checkPowerOfTwo "page size" pageSize.toBitVec pageSize.toInt with
    | .ok _ => pure ()
    | .error f => violate f

/-- Opens the device behind a file, or a simulated one if there is no file.  A kernel that is not
simulated is then replaced by `standIn`. -/
def openFile (standIn : κ) (fd : Int) (options : DeviceOptions) : Op κ Unit := do
  debug "Device::Open"
  let simulated := Kernel.simulated (← get).kernel
  if fd = -1 ∧ !simulated then modify fun m => { m with kernel := standIn }
  let simulated := simulated || fd == -1
  let fd := if simulated then -1 else fd
  let options := options.withDefaults (Kernel.pageSize (← get).kernel)
  checkPageSize options.pageSize
  modifyDevice fun _ => { fd, options }
  match ← attempt (detect simulated) with
  | .error f =>
    error "kbase interface detection failed" [("fd", toString fd), ("error", f.message)]
    discard shutDown
    fail f
  | .ok g =>
    modifyDevice fun d => { d with generation := g }
    debug "detected kbase interface"
      [("api", g.name), ("simulated", toString simulated)]
    greet g
    setupAll SetupStep.all

end Device

end Mali
