import Mali.Allocator.Journal
import Mali.Device.Region
import Mali.Device.Slots

/-!
# Releasing buffers

A buffer whose last reference goes may still be in use by the GPU.  It waits for every queue that
is busy at that moment: a callback on each counts down `gpuRefs`, and the last one finishes the
release.  A finished release puts the buffer into the cache, or frees it if it may not be cached.

* `Allocator.free`: memory and handle go back to the kernel.
* `Allocator.evict`, `Allocator.evictStale`, `Allocator.evictAll`: out of the cache.
* `Allocator.cachePut`: into the cache.
* `Buffer.reference`, `Buffer.unreference`: counting references.
* `Buffer.queueDrained`: what the callback of one queue does.
-/

namespace Mali

namespace Allocator

open Op

variable {κ : Type} [Kernel κ]

/-! ## Freeing -/

/-- Unmaps a buffer. -/
def unmapBuffer (id : Nat) : Op κ Unit := do
  let b ← buffer id
  match b.cpu with
  | none => pure ()
  | some m =>
    match ← unmapMemory m with
    | none => pure ()
    | some e =>
      error "failed to unmap buffer object"
        [("handle", toString b.handle), ("error", e.message)]
    modifyBuffer id fun b => { b with cpu := none }

/-- Gives the region of a buffer back, if that takes a request. -/
def freeBufferRegion (id : Nat) : Op κ Unit := do
  let b ← buffer id
  if b.freeRegion then
    match ← attempt (Device.free b.gpu) with
    | .ok _ => pure ()
    | .error f =>
      error "failed to free buffer object"
        [("handle", toString b.handle), ("va", toString b.gpu), ("error", f.message)]

/-- Gives the memory and the handle of a buffer back. -/
def free (id : Nat) : Op κ Unit := do
  let b ← buffer id
  writeHandle "memfree" b
  unmapBuffer id
  freeBufferRegion id
  modifyAllocator (·.forget b.handle)
  Device.freeHandle b.handle
  modifyBuffer id fun b => { b with usage := [], dmabufFd := -1, freed := true }
  modifyAllocator fun a => { a with frees := a.frees + 1 }

/-! ## The cache -/

/-- Whole seconds since the allocator was made. -/
def seconds : Op κ Int := do
  return ((← now) - (← allocator).epoch : Nat) / second

/-- The buffer that the handle of a cached one stands for, which has to be there. -/
def cachedBuffer (entry : Nat) : Op κ Nat := do
  let a ← allocator
  match a.cached? entry with
  | some id => return id
  | none => violate (.root (.cachedHandleMissing (a.handleOf entry)))

/-- Takes a buffer out of the cache. -/
def uncache (id : Nat) : Op κ Unit := do
  let b ← buffer id
  let index ← require b.cachedIn
  modifyAllocator fun a => { a with cache := a.cache.remove index id }
  modifyBuffer id fun b => { b with cachedIn := none }

/-- Frees a cached buffer. -/
def evict (id : Nat) : Op κ Unit := do
  uncache id
  modifyAllocator fun a => { a with evictions := a.evictions + 1 }
  free id

/-- Frees cached buffers, oldest first, up to the first that is not stale. -/
def evictWhile (now maxAge : Int) (entries : List Nat) : Op κ Unit :=
  match entries with
  | [] => pure ()
  | entry :: rest => do
    let id ← cachedBuffer entry
    if now - (← buffer id).lastUsed ≤ maxAge then pure ()
    else
      evict id
      evictWhile now maxAge (BufferCache.remaining id rest)
termination_by entries.length
decreasing_by
  have := BufferCache.length_remaining_le id rest
  simp only [List.length_cons]; omega

/-- Frees the cached buffers that were unused for too long. -/
def evictOld : Op κ Unit := do
  let a ← allocator
  evictWhile (← seconds) a.options.staleSeconds a.cache.recency

@[inherit_doc evictOld]
def evictStale : Op κ Unit := do
  requireAllocator
  debug "Allocator::EvictStale"
  evictOld

/-- Frees the cached buffers of a class. -/
def evictEntries (index : Nat) (entries : List Nat) : Op κ Unit :=
  match entries with
  | [] => pure ()
  | entry :: rest => do
    let id ← cachedBuffer entry
    let listed := (← buffer id).cachedIn = some index
    evict id
    evictEntries index (if listed then BufferCache.remaining id rest else rest)
termination_by entries.length
decreasing_by
  have := BufferCache.length_remaining_le id rest
  split <;> simp only [List.length_cons] <;> omega

/-- Frees the cached buffers of some classes. -/
def evictBuckets : List Nat → Op κ Unit
  | [] => pure ()
  | index :: rest => do
    evictEntries index ((← allocator).cache.bucket index)
    evictBuckets rest

/-- Empties the cache, class by class. -/
def evictAll : Op κ Unit := do
  requireAllocator
  debug "Allocator::EvictAll"
  evictBuckets (List.range (← allocator).cache.buckets.length)

/-- Stops if caches are checked and this one breaks a rule. -/
def checkCache : Op κ Unit := checkRule (·.allocator.check)

/-- Whether a buffer may be cached. -/
def mayCache (a : Allocator) (b : Buffer) : Bool :=
  !b.has BufferFlag.shared && !a.options.noCache

/-- Enters a buffer into the cache. -/
def enterCache (id : Nat) : Op κ Unit := do
  let b ← buffer id
  let a ← allocator
  let index := a.options.bucketIndex (if b.size < pageAlign then pageAlign else b.size)
  let lastUsed ← seconds
  let isCsf := (← device).generation = .csf
  modifyAllocator fun a => { a with cache := a.cache.put index id }
  modifyBuffer id fun b => { b with
    cachedIn := some index
    lastUsed
    access := if isCsf then 0 else b.access }

/-- Marks the memory of an unused buffer, if unused buffers are marked. -/
def markUnused (id : Nat) : Op κ Unit := do
  let b ← buffer id
  if (← get).checked ∧ !b.has BufferFlag.invisible then
    match b.cpu with
    | some m => modifyMemory (·.mark m)
    | none => pure ()

/-- Puts a released buffer into the cache, and frees the stale ones there.  On a command stream
device its release has waited for every queue, so no access is pending. -/
def cachePut (id : Nat) : Op κ Unit := do
  enterCache id
  evictOld
  modifyBuffer id fun b => { b with label := cachedLabel }
  markUnused id
  checkCache

/-- Ends a release. -/
def finish (id : Nat) : Op κ Unit := do
  if (← allocator).mayCache (← buffer id) then cachePut id else free id

end Allocator

namespace Buffer

open Op Allocator

variable {κ : Type} [Kernel κ]

/-- Takes another reference to a live buffer. -/
def reference (id : Nat) : Op κ Unit := do
  modifyBuffer id fun b => { b with refs := b.refs + 1 }
  let b ← buffer id
  if b.refs = 1 then violate (.root (.referencedAfterRelease b.handle b.label))

/-- Begins the release of a buffer without references: waits for the busy queues, or ends it at
once if there are none. -/
def beginRelease (id : Nat) : Op κ Unit := do
  writeHandle "free" (← buffer id)
  modifyBuffer id fun b => { b with usage := [] }
  let added ← Device.callbackAll (.release id)
  modifyBuffer id fun b => { b with gpuRefs := b.gpuRefs + Int32.ofNat added }
  if added = 0 then
    writeHandle "immfree" (← buffer id)
    finish id

/-- Drops a reference, and begins the release with the last one. -/
def unreference (id : Nat) : Op κ Unit := do
  modifyBuffer id fun b => { b with refs := b.refs - 1 }
  let b ← buffer id
  if b.refs < 0 then violate (.root (.overreleased b.handle b.label))
  else if b.refs = 0 then beginRelease id

/-- One of the queues that a release waits for has drained; the last one ends it, unless the
buffer has references again. -/
def queueDrained (id : Nat) : Op κ Unit := do
  modifyBuffer id fun b => { b with gpuRefs := b.gpuRefs - 1 }
  let b ← buffer id
  if b.gpuRefs = 0 ∧ b.refs = 0 then
    writeHandle "gpufree" b
    finish id

end Buffer

end Mali
