import Mali.Allocator.Create
import Mali.Device.Job

/-!
# Submitting batches

A batch is submitted once.  Its uses are recorded on the buffers under the numbers of the new
work before the streams run, and what the buffers were used for before becomes the dependencies
of the batch.

A batch that has to sync waits for its own completion.  On a command stream device a batch that
does not complete resets its context: both streams are terminated, the queue group is made anew,
the streams are bound again unless the allocator runs synchronously, and the work that was lost
counts as done.

* `Submitter.create`, `Submitter.destroy`: submission contexts.
* `Batch.start`, `Batch.use`, `Batch.close`: collecting buffers.
* `Submitter.submit`: a batch as command stream work.
* `Submitter.submitJobs`: a batch as an atom.
* `Submitter.reset`: recovery after a fault.
-/

namespace Mali

namespace Submitter

open Op

variable {κ : Type}

/-- A submission context by number. -/
def get (id : Nat) : Op κ Submitter := do
  require (← MonadState.get).submitters[id]?

/-- Changes a submission context. -/
def modify (id : Nat) (f : Submitter → Submitter) : Op κ Unit :=
  MonadState.modifyGet fun m => ((), { m with submitters := m.submitters.modify id f })

end Submitter

namespace Batch

open Op

variable {κ : Type}

/-- A batch by number. -/
def get (id : Nat) : Op κ Batch := do
  require (← MonadState.get).batches[id]?

/-- Changes a batch. -/
def modify (id : Nat) (f : Batch → Batch) : Op κ Unit :=
  MonadState.modifyGet fun m => ((), { m with batches := m.batches.modify id f })

variable [Kernel κ]

/-- Starts an empty batch.  Batches of a synchronous allocator wait for their completion. -/
def start (submitter : Nat) : Op κ Nat := do
  requireAllocator
  let needsSync := (← allocator).options.sync
  let n := (← MonadState.get).batches.length
  MonadState.modifyGet fun m =>
    ((), { m with batches := m.batches ++ [{ submitter, needsSync }] })
  return n

/-- Records that a batch uses a buffer.  Shared buffers have no fences of their own in this
interface, so they make the batch sync. -/
def use (id buffer : Nat) (t : UsageType) : Op κ Unit := do
  let batch ← get id
  let b ← Op.buffer buffer
  if !batch.contains b.handle then Buffer.reference buffer
  modify id fun batch => { batch with
    uses := batch.uses ++ [(t, buffer)]
    buffers := addAccess b.handle (Access.ofWrite t.writes) batch.buffers
    hasFragment := batch.hasFragment || t.isFragment
    needsSync := batch.needsSync || b.has BufferFlag.shared }

/-- Gives a batch a fragment job even if no buffer is used from the fragment queue. -/
def addFragment (id : Nat) : Op κ Unit := modify id fun b => { b with hasFragment := true }

/-- Makes the submission wait for completion. -/
def requireSync (id : Nat) : Op κ Unit := modify id fun b => { b with needsSync := true }

/-- Drops the references of a batch to the buffers behind some handles. -/
def dropReferences : List (Nat × UInt32) → Op κ Unit
  | [] => pure ()
  | (handle, _) :: rest => do
    match (← allocator).lookup? handle with
    | some id => Buffer.unreference id
    | none => pure ()
    dropReferences rest

/-- Drops the references of a batch, and handles events so that deferred releases go on. -/
def close (id : Nat) : Op κ Unit := do
  let batch ← get id
  dropReferences batch.buffers
  modify id fun b => { b with buffers := [], uses := [] }
  Device.ensureHandleEvents

end Batch

namespace Submitter

open Op

variable {κ : Type} [Kernel κ]

/-! ## Submission contexts -/

/-- Makes a buffer the tiler heap descriptor of the batches that follow. -/
def setHeap (id : Nat) (heap : Option Nat) : Op κ Unit := do
  match heap with
  | some b => Buffer.reference b
  | none => pure ()
  match (← get id).heap with
  | some b => Buffer.unreference b
  | none => pure ()
  modify id fun s => { s with heap }

/-- Drops the references of queues to their rings. -/
def dropRings : List Queue → Op κ Unit
  | [] => pure ()
  | q :: qs => do
    Buffer.unreference q.ring
    dropRings qs

/-- Terminates the streams of queues. -/
def terminateQueues : List Queue → Op κ Unit
  | [] => pure ()
  | q :: qs => do
    Device.terminateStream q.stream
    terminateQueues qs

/-- The queues that a submission context has. -/
def queues (s : Submitter) : List Queue := s.vertex.toList ++ s.fragment.toList

/-- Releases everything a submission context owns.  The rings are dropped before the streams are
terminated, which finishes the releases that wait for them. -/
def destroy (id : Nat) : Op κ Unit := do
  debug "Context::Destroy"
  setHeap id none
  let s ← get id
  dropRings s.queues
  terminateQueues s.queues
  modify id fun s => { s with vertex := none, fragment := none }
  match s.context with
  | some c =>
    Device.destroyContext c
    modify id fun s => { s with context := none }
  | none => pure ()
  match s.syncobj with
  | some o =>
    Device.destroySyncobj o
    modify id fun s => { s with syncobj := none }
  | none => pure ()

/-- Makes a ring and binds it. -/
def createQueue (ctx : Nat) (ringSize : UInt32) (label : String) : Op κ Queue := do
  let ring ← Allocator.create (Int64.ofNat ringSize.toNat) BufferFlag.cacheable label
  let b ← buffer ring
  match ← attempt (Device.bindStream ctx b.gpu ringSize) with
  | .ok stream => return { stream, ring }
  | .error f =>
    Buffer.unreference ring
    fail (.during (.binding label) f)

/-- Adds a submission context, and gives its number. -/
def add (s : Submitter) : Op κ Nat := do
  let n := (← MonadState.get).submitters.length
  MonadState.modifyGet fun m => ((), { m with submitters := m.submitters ++ [s] })
  return n

/-- Does something, and destroys the submission context if it fails. -/
def orDestroy {α : Type} (id : Nat) (x : Op κ α) : Op κ α := do
  match ← attempt x with
  | .ok a => return a
  | .error f =>
    destroy id
    fail f

/-- Gives a submission context its queue group, its queues and its syncobj. -/
def createQueues (id ctx : Nat) (ringSize : UInt32) : Op κ Unit := do
  let vertex ← orDestroy id (createQueue ctx ringSize "Vertex CS ring")
  modify id fun s => { s with vertex := some vertex }
  let fragment ← orDestroy id (createQueue ctx ringSize "Fragment CS ring")
  modify id fun s => { s with fragment := some fragment }

/-- Makes a submission context with rings of a given size, and gives its number. -/
def create (ringSize : UInt32) : Op κ Nat := do
  debug "Context::New"
  if (← device).generation ≠ .csf then
    let o ← Device.createSyncobj
    add { syncobj := some o }
  else
    match ← attempt Device.createContext with
    | .error f => fail (.during .creatingContext f)
    | .ok ctx =>
      let id ← add { context := some ctx }
      createQueues id ctx ringSize
      let o ← Device.createSyncobj
      modify id fun s => { s with syncobj := some o }
      return id

/-! ## Recovery -/

/-- Binds the streams of queues again, and gives the first fault. -/
def rebindQueues : List Queue → Op κ (Option Fault)
  | [] => return none
  | q :: qs => do
    let fault ← faultOf (Device.rebindStream q.stream)
    return Fault.first? fault (← rebindQueues qs)

/-- Counts the lost work of queues as done. -/
def retireQueues : List Queue → Op κ Unit
  | [] => pure ()
  | q :: qs => do
    Device.setLastInsert q.stream 0
    let index := (← Device.stream q.stream).slot
    let lastSubmit := (← Device.slot index).lastSubmit
    Device.setEventSeq (Int64.ofNat index) lastSubmit
    Device.advance index lastSubmit
    retireQueues qs

/-- Recovers a submission context after a fault.  Under a synchronous allocator its streams stay
unbound, so that the fault is noticed. -/
def reset (id : Nat) : Op κ Unit := do
  debug "Context::Reset"
  let s ← get id
  match s.context with
  | none => fail (.during .resetting (.root .unsupported))
  | some ctx =>
    error "context reset" [("resets", toString (s.resets + 1))]
    modify id fun s => { s with resets := s.resets + 1 }
    terminateQueues s.queues
    let recreated ← faultOf (Device.recreateContext ctx)
    match recreated with
    | some f => error "failed to recreate the GPU context" [("error", f.message)]
    | none => pure ()
    let rebound ←
      if recreated.isNone ∧ !(← allocator).options.sync then rebindQueues s.queues
      else pure none
    retireQueues s.queues
    setHeap id none
    match Fault.first? recreated rebound with
    | some f => fail f
    | none => pure ()

/-! ## Command streams -/

/-- Records a use of a buffer, after adding its earlier uses to some dependencies. -/
def useBuffer (deps : List Usage) (buffer : Nat) (u : Usage) : Op κ (List Usage) := do
  let b ← Op.buffer buffer
  modifyBuffer buffer (·.markUsed u)
  return Usage.updateDeps deps b.usage u.write

/-- Records uses of buffers in order. -/
def useBuffers (deps : List Usage) (u : Usage) : List Nat → Op κ (List Usage)
  | [] => return deps
  | b :: bs => do
    let deps ← useBuffer deps b u
    useBuffers deps u bs

/-- The use that a queue makes of a buffer. -/
def queueUsage (q : Queue) (writes : Bool) : Op κ Usage := do
  let s ← Device.stream q.stream
  return { queue := UInt32.ofNat s.slot, write := writes, seqnum := q.seqnum }

/-- Records the uses of a batch, usage type by usage type. -/
def recordUses (id batch : Nat) : List UsageType → Op κ Unit
  | [] => pure ()
  | t :: ts => do
    let s ← get id
    let b ← Batch.get batch
    if t.isFragment then
      let u ← queueUsage (← require s.fragment) t.writes
      let deps ← useBuffers b.fragmentDeps u (b.used t)
      Batch.modify batch fun b => { b with fragmentDeps := deps }
    else
      let u ← queueUsage (← require s.vertex) t.writes
      let deps ← useBuffers b.vertexDeps u (b.used t)
      Batch.modify batch fun b => { b with vertexDeps := deps }
    recordUses id batch ts

/-- Records that the fragment queue writes the tiler heap, and makes the vertex work depend on its
earlier uses, so only one batch uses a heap at a time. -/
def recordHeap (id batch : Nat) : Op κ Unit := do
  let s ← get id
  match s.heap with
  | none => pure ()
  | some heap =>
    let b ← Batch.get batch
    let u ← queueUsage (← require s.fragment) true
    let deps ← useBuffer b.vertexDeps heap u
    Batch.modify batch fun b => { b with vertexDeps := deps }

/-- Drops the dependencies of a batch that cannot be waited for. -/
def cleanDeps (batch : Nat) : Op κ Unit := do
  let d ← device
  Batch.modify batch fun b => { b with
    vertexDeps := Usage.clean d.slots d.bound b.vertexDeps
    fragmentDeps := Usage.clean d.slots d.bound b.fragmentDeps }

/-- Gives a batch its numbers on the queues it runs on. -/
def numberBatch (id batch : Nat) : Op κ Unit := do
  let b ← Batch.get batch
  modify id fun s => { s with
    vertex := s.vertex.map fun q => { q with seqnum := q.seqnum + 1 }
    fragment :=
      if b.hasFragment then s.fragment.map fun q => { q with seqnum := q.seqnum + 1 }
      else s.fragment }

/-- Numbers the work of a batch, records its uses on the buffers, and gathers their earlier uses. -/
def gather (id batch : Nat) : Op κ Unit := do
  Batch.modify batch fun b => { b with submitted := true }
  numberBatch id batch
  recordUses id batch UsageType.all
  recordHeap id batch

/-- Collects the dependencies of a batch: of the earlier uses of its buffers, what can be waited for. -/
def collect (id batch : Nat) : Op κ Unit := do
  gather id batch
  cleanDeps batch

/-- Submits to one queue, and gives the fault of an unbound stream. -/
def submitQueue (q : Queue) (insert : UInt64) (o : Option Nat) (activity : Activity) :
    Op κ (Option Fault) := do
  if ← Device.submitStream q.stream insert o q.seqnum then return none
  else return some (.during activity (.root .notBound))

/-- Waits for both streams, and resets the context if one does not complete. -/
def awaitBatch (id : Nat) (vertex fragment : Queue) (vertexInsert fragmentInsert : UInt64)
    (o : Option Nat) : Op κ Unit := do
  let vertexDone ← Device.waitStream vertex.stream vertexInsert o
  let fragmentDone ← Device.waitStream fragment.stream fragmentInsert o
  if !(vertexDone && fragmentDone) then
    match ← faultOf (reset id) with
    | some f => fail (.during .recovering f)
    | none => pure ()

/-- Runs a batch on the command streams, up to an offset in each ring. -/
def submit (id batch : Nat) (vertexInsert fragmentInsert : UInt64) : Op κ Unit := do
  debug "Context::Submit"
  if (← get id).context.isNone then
    fail (.during .submittingStreams (.root .unsupported))
  else if (← Batch.get batch).submitted then fail (.root .submitted)
  else
    collect id batch
    let s ← get id
    let vertex ← require s.vertex
    let fragment ← require s.fragment
    let vertexFault ← submitQueue vertex vertexInsert s.syncobj .vertexStream
    let fragmentFault ← submitQueue fragment fragmentInsert s.syncobj .fragmentStream
    match Fault.first? vertexFault fragmentFault with
    | some f =>
      error "failed to submit batch" [("error", f.message)]
      fail f
    | none =>
      if (← Batch.get batch).needsSync then
        awaitBatch id vertex fragment vertexInsert fragmentInsert s.syncobj

/-! ## Atoms -/

/-- Records the accesses of a batch on the buffers behind its handles. -/
def markAccesses : List (Nat × UInt32) → Op κ Unit
  | [] => pure ()
  | (handle, access) :: rest => do
    match (← allocator).lookup? handle with
    | some id => modifyBuffer id (·.markAccess access)
    | none => pure ()
    markAccesses rest

/-- The handle of the tiler heap, if there is one that a batch does not use anyway. -/
def markHeap (id : Nat) (b : Batch) : Op κ (List Nat) := do
  match (← get id).heap with
  | none => return []
  | some heap =>
    let handle := (← buffer heap).handle
    if b.contains handle then return []
    else
      modifyBuffer heap (·.markAccess Access.readWrite)
      return [handle]

/-- Runs a batch as an atom, and gives the atom's number.  Finished atoms are retired first, so that
their numbers can be used again. -/
def submitJobs (id batch : Nat) (jobChain : UInt64) (requirements : UInt32) : Op κ UInt8 := do
  debug "Context::SubmitJobs"
  let s ← get id
  let b ← Batch.get batch
  if s.context.isSome then fail (.during .submittingJobs (.root .unsupported))
  else if b.submitted then fail (.root .submitted)
  else
    Batch.modify batch fun b => { b with submitted := true }
    markAccesses b.buffers
    let heap ← markHeap id b
    let handles := (b.buffers.map (·.1) ++ heap).mergeSort (· ≤ ·)
    Device.ensureHandleEvents
    let atom ← Device.submitJob jobChain requirements s.syncobj (handles.map Int.ofNat)
    if b.needsSync then
      if !(← Device.waitSyncobj (← require s.syncobj)) then
        warn "job chain did not complete"
          [("atom", toString atom), ("jc", toString jobChain)]
    return atom

/-! ## Fences -/

/-- A syncobj with the fences of everything submitted so far. -/
def createFence (id : Nat) : Op κ Nat := do
  Device.copySyncobj (← require (← get id).syncobj)

/-- Waits for everything submitted. -/
def wait (id : Nat) : Op κ Bool := do
  debug "Context::Wait"
  Device.waitSyncobj (← require (← get id).syncobj)

end Submitter

end Mali
