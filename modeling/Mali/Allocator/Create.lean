import Mali.Allocator.Wait

/-!
# Creating buffers

A buffer comes from the cache if a suitable one is there: the oldest of its size class that is
large enough and has the same flags.  Otherwise it is allocated.  If that fails the cache is tried
again, and then, up to five times with growing delays, pending events are handled, the cache is
emptied and the allocation repeated.

* `Backoff`: the delays between attempts.
* `Allocator.fetch`: a buffer from the cache.
* `Allocator.allocate`: a new buffer.
* `Allocator.create`: the whole ladder.
-/

namespace Mali

/-- The delays between attempts, which grow with the square of their number. -/
structure Backoff where
  attempt : Nat := 0
  deriving DecidableEq, Repr, Inhabited

namespace Backoff

/-- The number of attempts. -/
def attempts : Nat := 5

/-- The unit of the delays. -/
def delay : Nat := 20 * millisecond

/-- The delay before the next attempt, if there is to be one. -/
def next (b : Backoff) : Option Nat × Backoff :=
  let attempt := b.attempt + 1
  (if attempts ≤ attempt then none else some (delay * (attempt * attempt)), ⟨attempt⟩)

/-- Starts over. -/
def reset (_ : Backoff) : Backoff := {}

end Backoff

namespace Allocator

open Op

variable {κ : Type} [Kernel κ]

/-- Makes the allocator of a device. -/
def start (options : AllocatorOptions) : Op κ Unit := do
  let options := options.withDefaults
  let epoch ← now
  modifyAllocator fun _ => { started := true, options, epoch, cache := .empty options.bucketCount }

/-! ## From the cache -/

/-- Hands out a cached buffer under a new label. -/
def reuse (id : Nat) (label : String) : Op κ Unit := do
  uncache id
  checkCache
  let m ← get
  let b ← buffer id
  if m.checked ∧ !(b.cpu.all m.memory.isMarked) then
    error "cached buffer object was written while unused"
      [("handle", toString b.handle), ("label", b.label)]
  modifyBuffer id fun b => { b with label }
  modifyAllocator fun a => { a with hits := a.hits + 1 }

/-- Whether the GPU is done with a cached buffer.  On a command stream device it always is. -/
def isIdle (id : Nat) (patient : Bool) : Op κ Bool := do
  let d ← device
  if d.generation = .csf then return true
  else Buffer.wait id (if patient then d.options.waitTimeout else 0) true

/-- Takes the first suitable buffer of some cached ones.  A busy one ends the search, since those
after it are likely busy as well. -/
def fetchFrom (size : Int64) (flags : UInt32) (label : String) (patient : Bool) :
    List Nat → Op κ (Option Nat)
  | [] => return none
  | entry :: rest => do
    let id ← cachedBuffer entry
    let b ← buffer id
    if b.size < size ∨ b.flags ≠ flags then fetchFrom size flags label patient rest
    else if ← isIdle id patient then
      reuse id label
      return some id
    else return none

/-- Takes a suitable buffer out of the cache. -/
def fetch (size : Int64) (flags : UInt32) (label : String) (patient : Bool) :
    Op κ (Option Nat) := do
  let a ← allocator
  fetchFrom size flags label patient (a.cache.bucket (a.options.bucketIndex size))

/-! ## From the kernel -/

/-- Whether a buffer with some flags gets a cached mapping. -/
def cachedMapping (o : AllocatorOptions) (flags : UInt32) : Bool :=
  hasFlag flags BufferFlag.cacheable && !o.uncachedCpu

/-- How the region of a buffer is asked for. -/
def wish (o : AllocatorOptions) (flags : UInt32) : UInt32 :=
  (if hasFlag flags BufferFlag.growable then AllocFlag.heap else 0) |||
  (if hasFlag flags BufferFlag.execute then 0 else AllocFlag.noExecute) |||
  (if cachedMapping o flags then AllocFlag.cachedCpu else 0) |||
  (if hasFlag flags BufferFlag.cacheable ∧ o.uncachedGpu then AllocFlag.uncachedGpu else 0)

/-- Adds a buffer, and gives its number. -/
def addBuffer (b : Buffer) : Op κ Nat := do
  let n := (← allocator).buffers.length
  modifyAllocator fun a => { a with buffers := a.buffers ++ [b] }.enter b.handle n
  return n

/-- Gives a new region a handle and makes a buffer of it. -/
def wrapRegion (region : Region) (size : Int64) (flags : UInt32) (label : String) : Op κ Nat := do
  let o := (← allocator).options
  let handle ← Device.allocHandle region.gpu noFd
  addBuffer {
    gpu := region.gpu
    cpu := some region.cpu
    size, flags, label, handle
    freeRegion := region.cpu.address != region.gpu
    cachedCpu := cachedMapping o flags }

/-- Makes a new buffer. -/
def allocate (size : Int64) (flags : UInt32) (label : String) : Op κ Nat := do
  let o := (← allocator).options
  let memFlags := if hasFlag flags BufferFlag.event then MemFlag.eventMemory else 0
  let region ← Device.alloc size (wish o flags) memFlags
  let id ← wrapRegion region size flags label
  modifyAllocator fun a => { a with allocations := a.allocations + 1 }
  return id

/-! ## The ladder -/

/-- One late attempt: handles events, empties the cache and allocates. -/
def attemptAgain (size : Int64) (flags : UInt32) (label : String) : Op κ Nat := do
  Device.ensureHandleEvents
  evictAll
  allocate size flags label

/-- Late attempts with delays between them, until one succeeds or the delays run out. -/
def retry (size : Int64) (flags : UInt32) (label : String) :
    (fuel : Nat) → Backoff → Op κ (Except Fault Nat)
  | 0, _ => attempt (attemptAgain size flags label)
  | fuel + 1, b => do
    match ← attempt (attemptAgain size flags label) with
    | .ok id => return .ok id
    | .error f =>
      match b.next with
      | (none, _) => return .error f
      | (some delay, b) =>
        Wait.pause delay
        retry size flags label fuel b

/-- A buffer from the cache or the kernel. -/
def obtain (size : Int64) (flags : UInt32) (label : String) : Op κ (Except Fault Nat) := do
  match ← fetch size flags label false with
  | some id => return .ok id
  | none =>
    modifyAllocator fun a => { a with misses := a.misses + 1 }
    match ← attempt (allocate size flags label) with
    | .ok id => return .ok id
    | .error _ =>
      match ← fetch size flags label true with
      | some id => return .ok id
      | none => retry size flags label Backoff.attempts {}

/-- Zeroes a buffer. -/
def clearBuffer (id : Nat) : Op κ Unit := do
  let b ← buffer id
  match b.cpu with
  | some m => modifyMemory (·.clear m.addr.toNat m.length)
  | none => pure ()
  match ← attempt (Buffer.clean id 0 b.size) with
  | .ok _ => pure ()
  | .error f =>
    error "failed to clean cleared buffer object"
      [("handle", toString b.handle), ("error", f.message)]

/-- Why a buffer cannot be created, whatever the kernel says. -/
def refusal? (size : Int64) (flags : UInt32) (label : String) : Option Fault :=
  if size ≤ 0 then some (.root (.sizeNotPositive size.toInt))
  else if hasFlag flags BufferFlag.shared then some (.during (.creating label) (.root .shared))
  else if hasFlag flags BufferFlag.growable ∧ !hasFlag flags BufferFlag.invisible then
    some (.root (.growableVisible label))
  else none

/-- Hands a buffer out with its first reference. -/
def handOut (id : Nat) : Op κ Unit := do
  let b ← buffer id
  if (← allocator).options.clearOnCreate ∧ !b.has BufferFlag.invisible then clearBuffer id
  modifyBuffer id fun b => { b with refs := 1, usage := [] }
  write "alloc" (← buffer id) noFd

/-- A buffer of at least `size` bytes. -/
def create (size : Int64) (flags : UInt32) (label : String) : Op κ Nat := do
  requireAllocator
  debug "Allocator::Create"
  match refusal? size flags label with
  | some f => fail f
  | none =>
    let size := alignUp size pageAlign.toUInt64
    match ← obtain size flags label with
    | .ok id =>
      handOut id
      return id
    | .error f =>
      error "buffer object creation failed"
        [("size", toString size.toInt), ("flags", BufferFlag.names.describe flags),
          ("label", label), ("error", f.message)]
      fail (.during (.creatingBytes label size.toInt) (.root .outOfMemory))

end Allocator

end Mali
