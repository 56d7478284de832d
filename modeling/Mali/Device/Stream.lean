import Mali.Device.Sync

/-!
# Queue groups and command streams

A context owns a queue group and a tiler heap; rings are bound to its interfaces as streams, and
each stream gets an event slot.

Event records start at one, because a wait is over once the record is greater than the number
waited for, and that has to be possible before the first submission.  Slots are never given back,
so a stream bound after all slots are taken shares the newest one.

* `Device.createContext`, `Device.destroyContext`, `Device.recreateContext`.
* `Device.bindStream`, `Device.terminateStream`, `Device.rebindStream`.
* `Device.submitStream`, `Device.waitStream`: running a ring up to an offset.
-/

namespace Mali

namespace Device

open Op Interface

variable {κ : Type}

/-- A context by number. -/
def context (id : Nat) : Op κ Context := do
  require (← device).contexts[id]?

/-- Changes a context. -/
def modifyContext (id : Nat) (f : Context → Context) : Op κ Unit :=
  modifyDevice fun d => { d with contexts := d.contexts.modify id f }

/-- A stream by number. -/
def stream (id : Nat) : Op κ Stream := do
  require (← device).streams[id]?

/-- Changes a stream. -/
def modifyStream (id : Nat) (f : Stream → Stream) : Op κ Unit :=
  modifyDevice fun d => { d with streams := d.streams.modify id f }

variable [Kernel κ]

/-! ## Contexts -/

/-- What a context asks for its group.  There is a single tiler unit. -/
def groupRequest (d : Device) : GroupRequest where
  tilerMask := 1
  fragmentMask := 0xffffffffffffffff
  computeMask := 0xffffffffffffffff
  streamMin := d.options.streamCount.toUInt64.toUInt8
  priority := 1
  tilerMax := 1
  fragmentMax := 64
  computeMax := 64

/-- What a context asks for its tiler heap. -/
def heapRequest : HeapRequest where
  chunkSize := 0x200000
  initialChunks := 5
  maxChunks := 200
  targetInFlight := 65535

/-- Terminates the group of a context, if it has one. -/
def endGroup (c : Context) : Op κ Context := do
  if c.uid = 0 then return c
  else
    ignore (terminateGroup c.group)
    return { c with uid := 0 }

/-- Terminates the tiler heap of a context, if it has one. -/
def endHeap (c : Context) : Op κ Context := do
  if c.heapVa = 0 then return c
  else
    ignore (terminateHeap c.heapVa)
    return { c with heapVa := 0, heapHeader := 0 }

/-- Deletes the processor queue of a context, if it has one. -/
def endCpuQueue (c : Context) : Op κ Context := do
  match c.cpuQueue with
  | none => return c
  | some id =>
    ignore (deleteCpuQueue id)
    return { c with cpuQueue := none }

/-- Gives a context a group and a heap.  The context comes back also if that fails. -/
def fillContext (c : Context) : Op κ (Context × Option Fault) := do
  match ← attempt (createGroup (groupRequest (← device))) with
  | .error f => return (c, some f)
  | .ok g =>
    if g.uid = 0 then return (c, some (.root (.groupWithoutId g.handle.toNat)))
    else
      let c := { c with group := g.handle, uid := g.uid }
      match ← attempt (createHeap heapRequest) with
      | .error f => return (← endGroup c, some f)
      | .ok h => return ({ c with heapVa := h.heapVa, heapHeader := h.firstChunkVa }, none)

/-- Takes the processor queue, the heap and the group from a context. -/
def drainContext (c : Context) : Op κ Context := do
  endGroup (← endHeap (← endCpuQueue c))

/-- Makes a context, and gives its number. -/
def createContext : Op κ Nat := do
  debug "Device::ContextCreate"
  match ← fillContext {} with
  | (_, some f) => fail f
  | (c, none) =>
    let n := (← device).contexts.length
    modifyDevice fun d => { d with contexts := d.contexts ++ [c] }
    return n

/-- Releases everything a context owns. -/
def destroyContext (id : Nat) : Op κ Unit := do
  debug "Device::ContextDestroy"
  let c ← drainContext (← context id)
  modifyContext id fun _ => c

/-- Replaces the group and the heap of a context.  Its streams have to be bound again. -/
def recreateContext (id : Nat) : Op κ Unit := do
  debug "Device::ContextRecreate"
  let c ← drainContext (← context id)
  let (c, fault) ← fillContext c
  modifyContext id fun _ => c
  match fault with
  | some f => fail f
  | none => pure ()

/-! ## Streams -/

/-- Registers and binds a ring, and maps its pages. -/
def bindRing (s : Stream) : Op κ Mapping := do
  registerQueue s.va s.size 1
  let cookie ← bindQueue s.va (← context s.context).group s.csi
  let length := Int64.ofNat userIoPages * (← device).options.pageSize
  match ← mapMemory cookie.toInt64 length protReadWrite with
  | .ok m => return m
  | .error e =>
    error "failed to map CS user I/O" [("csi", toString s.csi), ("error", e.message)]
    fail (.during (.mapping "CS USER IO") (.ofErrno e))

/-- Takes the next event slot, or the newest one again if all are taken. -/
def takeSlot : Op κ Nat := do
  if slotCount ≤ (← device).bound then
    error "too many command streams bound" [("error", Cause.message .tooManySlots)]
    modifyDevice fun d => { d with bound := d.bound - 1 }
  let n := (← device).bound
  modifyDevice fun d => { d with bound := d.bound + 1 }
  return n

/-- Starts the records of a slot: at one, without an error, and with the processor queue record
cleared. -/
def startSlot (index : Nat) : Op κ Unit := do
  let offset := recordOffset (Int64.ofNat index)
  let page := (← device).options.pageSize
  setEventWord offset 1
  setEventWord (offset + 8) 0
  setEventWord (page + offset) 0
  setEventWord (page + (offset + 8)) 0
  let s ← slot index
  setSlot index { s with last := 1, lastSubmit := 1 }

/-- Gives a bound ring the next event slot and adds it to the streams, and gives its number. -/
def attachStream (s : Stream) : Op κ Nat := do
  let index ← takeSlot
  startSlot index
  let n := (← device).streams.length
  modifyDevice fun d => { d with streams := d.streams ++ [{ s with slot := index }] }
  return n

/-- Binds a ring to the next interface of a context, and gives the stream's number. -/
def bindStream (ctx : Nat) (va : UInt64) (size : UInt32) : Op κ Nat := do
  debug "Device::CSBind"
  let c ← context ctx
  let s : Stream := { context := ctx, va, size, csi := c.interfaces }
  modifyContext ctx fun c => { c with interfaces := c.interfaces + 1 }
  let userIo ← bindRing s
  attachStream { s with userIo := some userIo }

/-- Unmaps the pages of a stream. -/
def unmapStream (id : Nat) : Op κ Unit := do
  let s ← stream id
  match s.userIo with
  | none => pure ()
  | some m =>
    match ← unmapMemory m with
    | none => pure ()
    | some e =>
      error "failed to unmap CS user I/O" [("csi", toString s.csi), ("error", e.message)]
    modifyStream id fun s => { s with userIo := none }

/-- The greatest sequence number, which passes everything. -/
def endOfTime : UInt64 := 0xffffffffffffffff

/-- Takes everything that waits off a slot, makes syncobjs forget their fences on it, and starts its
progress over. -/
def clearSlot (index : Nat) : Op κ (List Callback) := do
  let ready ← takeCallbacks index endOfTime
  let e ← slot index
  setSlot index { e with last := endOfTime }
  updateSyncobjs (← device).syncobjs 0
  setSlot index { e with last := 0 }
  return ready

/-- Unbinds a stream.  Everything that waits on its slot is released, and syncobjs forget their
fences on it. -/
def terminateStream (id : Nat) : Op κ Unit := do
  debug "Device::CSTerm"
  unmapStream id
  let s ← stream id
  ignore (terminateQueue s.va)
  runCallbacks (← clearSlot s.slot)

/-- Binds a stream again to its interface, after its context was recreated.  It keeps its slot. -/
def rebindStream (id : Nat) : Op κ Unit := do
  debug "Device::CSRebind"
  unmapStream id
  let s ← stream id
  let userIo ← bindRing s
  modifyStream id fun s => { s with userIo := some userIo }
  debug "bound csi again" [("csi", toString s.csi)]

/-- Replaces the insert offset that a submission is compared with. -/
def setLastInsert (id : Nat) (insert : UInt64) : Op κ Unit :=
  modifyStream id fun s => { s with lastInsert := insert }

/-- Adds a fence to a syncobj, if there is one. -/
def fenceSyncobj (o : Option Nat) (slot : UInt32) (value : UInt64) : Op κ Unit := do
  match o with
  | none => pure ()
  | some id => modifySyncobj id (·.updateFence slot value)

/-- Writes the insert register. -/
def publishInsert (m : Mapping) (insert : UInt64) : Op κ Unit := do
  let addr ← require (Stream.register? m Stream.inputPage Stream.insertRegister)
  modifyMemory (·.setWord addr insert)

/-- Writes the doorbell page, if it is to be rung. -/
def ringDoorbell (m : Mapping) : Op κ Unit := do
  if (← device).options.ringDoorbell then
    let addr ← require (Stream.register? m Stream.doorbellPage 0)
    modifyMemory (·.setHalf addr 1)

/-- Lets the GPU run a ring up to an offset.  The work is complete once the stream's record is
above `seqnum`, and the syncobj gains a fence on that.  Says whether the stream is bound; an
unchanged offset submits nothing. -/
def submitStream (id : Nat) (insert : UInt64) (o : Option Nat) (seqnum : UInt64) :
    Op κ Bool := do
  debug "CommandStream::Submit"
  let s ← stream id
  trace "submit"
    [("csi", toString s.csi), ("seq", toString seqnum), ("from", toString s.lastInsert),
      ("to", toString insert)]
  match s.userIo with
  | none => return false
  | some m =>
    if insert = s.lastInsert then return true
    else
      submitSlot s.slot seqnum
      fenceSyncobj o (UInt32.ofNat s.slot) seqnum
      publishInsert m insert
      setLastInsert id insert
      ringDoorbell m
      ignore (kickQueue s.va)
      return true

/-- Waits for the fences of a syncobj.  On a timeout the registers of the stream are logged beside
the offset that it was to reach. -/
def waitStream (id : Nat) (extract : UInt64) (o : Option Nat) : Op κ Bool := do
  debug "CommandStream::Wait"
  let s ← stream id
  match s.userIo with
  | none => return false
  | some _ =>
    let o ← require o
    if ← waitSyncobj o then return true
    else
      let (reached, active) ← require (s.registers? (← get).memory)
      error "command stream did not reach its extract offset"
        [("csi", toString s.csi), ("extract", toString reached), ("expected", toString extract),
          ("active", toString active), ("fences", fencesText (← syncobj o).fences)]
      return false

end Device

end Mali
