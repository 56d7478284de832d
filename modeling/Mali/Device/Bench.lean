import Mali.Device.Job
import Mali.Device.Stream
import Mali.Kernel.Bench

/-!
# A device on a bench

On a bench the kernel of a machine can be acted on from outside between two operations of the
program.

* `Bench.act`: does something to the kernel, with what it writes to memory.
* `Bench.exchange`: changes the kernel of a machine for another one.
* `Bench.bareRequest`: issues a request without an argument.
* `Bench.settle`: handles events until the kernel has no record left.
* `Bench.submitMany`: submits a job over and over.
* `Bench.setRegisters`: moves a stream on as the GPU does.
-/

namespace Mali

namespace Bench

open Op

/-- Does something to the kernel of a machine. -/
def act (c : Control) : Op Bench Unit :=
  modify fun m =>
    let (stores, kernel) := m.kernel.control c
    { m with kernel, memory := stores.foldl Memory.apply m.memory }

/-- Puts another kernel in the place of a machine's own, with the time that has passed, and gives the
own one. -/
def exchange (m : Machine Bench) (other : Bench) : Machine Bench × Bench :=
  let (stores, kernel) := other.elapse m.kernel.clock
  ({ m with kernel, memory := stores.foldl Memory.apply m.memory }, m.kernel)

/-- Issues a request without an argument.  A kernel that looks into it stops the program. -/
def bareRequest (r : Abi.Request) : Op Bench (Except Errno Unit) := do
  let m ← get
  if m.kernel.readsArgument r then crash else Op.call (.ioctl m.device.fd (.unknown r))

/-- Handles events while a record is pending, and once more, for at most `fuel` records. -/
def settleWithin : (fuel : Nat) → Op Bench Unit
  | 0 => Device.ensureHandleEvents
  | fuel + 1 => do
    let pending := !(← get).kernel.records.isEmpty
    Device.ensureHandleEvents
    if pending then settleWithin fuel

/-- Handles events while a record is pending, and once more. -/
def settle : Op Bench Unit := settleWithin Device.passLimit

/-- Submits a job a number of times, each time followed by the event that it is done and the handling
of events if `done` gives the number that the event carries for the first one. -/
def submitMany (submit : Op Bench UInt8) (done : Option UInt64) : (count : Nat) → Op Bench Unit
  | 0 => pure ()
  | count + 1 => do
    let atom ← submit
    match done with
    | none => submitMany submit none count
    | some seqnum =>
      act (.inject (JobEvent.encode { code := JobEvent.done, atom, seqnum }))
      Device.ensureHandleEvents
      submitMany submit (some (seqnum + 1)) count

/-- Writes the registers of a bound stream that tell how far it came and whether it is active. -/
def setRegisters (id : Nat) (extract : UInt64) (active : UInt32) : Op Bench Unit := do
  let io ← require (← Device.stream id).userIo
  let extractAddr ← require (Stream.register? io Stream.outputPage Stream.extractRegister)
  let activeAddr ← require (Stream.register? io Stream.outputPage Stream.activeRegister)
  modifyMemory fun memory => (memory.setWord extractAddr extract).setHalf activeAddr active

end Bench

end Mali
