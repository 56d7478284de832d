import Mali.Device.Stream

/-!
# Processor queues

The kernel runs commands of a processor queue in order with the GPU work of its context: it
signals and waits for sync files, and sets and waits for sync words.  A queue is made when it is
first used.  A full queue refuses commands as busy, so these are tried again as events drain it.

* `Device.enqueueCommand`: one command, with the attempts.
* `Device.exportFence`, `Device.importFence`: sync files.
* `Device.setSyncWord`, `Device.waitSyncWord`: sync words.
-/

namespace Mali

namespace Device

open Op Interface

variable {κ : Type} [Kernel κ]

/-- The processor queue of a context, made on first use. -/
def cpuQueue (ctx : Nat) : Op κ UInt8 := do
  match (← context ctx).cpuQueue with
  | some id => return id
  | none =>
    let id ← createCpuQueue
    modifyContext ctx fun c => { c with cpuQueue := some id }
    return id

/-- Whether a fault is a refusal of a full queue. -/
def isBusy (f : Fault) : Bool := f.cause = .errno .busy

/-- The outcome of an attempt, unless the queue is full. -/
def enqueueOnce (id : UInt8) (command : QueueCommand) :
    Op κ (Option (Except Fault (List Int))) := do
  match ← attempt (enqueue id command) with
  | .ok fences => return some (.ok fences)
  | .error f => return if isBusy f then none else some (.error f)

/-- How long a command waits for a full queue. -/
def enqueueTimeout : Int := second

/-- Reports that a command failed for another reason than a full queue. -/
def enqueueFault (f : Fault) : Op κ (List Int) := do
  error "ioctl failed" [("ioctl", "KCPU_QUEUE_ENQUEUE"), ("errno", f.message)]
  fail (.during (.request "KCPU_QUEUE_ENQUEUE") f)

/-- Puts a command on the queue of a context, and gives the fences of its commands afterwards. -/
def enqueueCommand (ctx : Nat) (command : QueueCommand) : Op κ (List Int) := do
  let id ← cpuQueue ctx
  match ← enqueueOnce id command with
  | some (.ok fences) => return fences
  | some (.error f) => enqueueFault f
  | none =>
    match ← waitUntil enqueueTimeout (enqueueOnce id command) with
    | (some (.ok fences), _) => return fences
    | (some (.error f), _) => enqueueFault f
    | (none, _) =>
      warn "KCPU queue stayed full" [("queue", toString id)]
      fail (.during (.enqueueing (Errno.message .busy)) (.root .timeout))

/-- A sync file that signals once the work queued on a context so far is done. -/
def exportFence (ctx : Nat) : Op κ Int := do
  debug "Device::KCPUFenceExport"
  let fences ← enqueueCommand ctx { type := QueueCommand.fenceSignal, fence := -1 }
  return fences.headD (-1)

/-- Makes later work on a context wait for a sync file. -/
def importFence (ctx : Nat) (fd : Int) : Op κ Unit := do
  debug "Device::KCPUFenceImport"
  discard (enqueueCommand ctx
    { type := QueueCommand.fenceWait, fence := .ofInt fd })

/-- Sets the sync word at an address. -/
def setSyncWord (ctx : Nat) (addr value : UInt64) : Op κ Unit := do
  debug "Device::KCPUCQSSet"
  discard (enqueueCommand ctx {
    type := QueueCommand.syncSet
    operations := [{
      addr, value
      operation := SyncOperation.setReplace
      dataType := SyncOperation.word64 }] })

/-- Holds a queue back until the sync word at an address is greater than a value. -/
def waitSyncWord (ctx : Nat) (addr value : UInt64) : Op κ Unit := do
  debug "Device::KCPUCQSWait"
  discard (enqueueCommand ctx {
    type := QueueCommand.syncWait
    operations := [{
      addr, value
      operation := SyncOperation.waitGreater
      dataType := SyncOperation.word64 }] })

end Device

end Mali
