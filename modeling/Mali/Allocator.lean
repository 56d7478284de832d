import Mali.Cache
import Mali.Json

/-!
# Allocators

An allocator hands out buffers and keeps released ones in a cache.  Buffers are kept in the order
they were made, and named by their place; the arena leads from handles to buffers that are not
freed.

* `BufferEvent`: a line of the journal of buffer lifetimes.
* `Allocator`: the state of an allocator.
-/

namespace Mali

/-- What the journal says of a buffer. -/
structure BufferEvent where
  name : String
  start : UInt64
  size : Int64
  label : String
  handle : Nat
  fd : Int
  /-- For imports, the duplicate descriptor and whether the buffer was known. -/
  imported : Option (Int × Bool) := none
  deriving DecidableEq, Repr, Inhabited

namespace BufferEvent

/-- The members of a line, apart from the time. -/
def members (e : BufferEvent) : List (String × Json) :=
  [("Event", .text e.name), ("Start", .text (Buffer.addressText e.start)),
    ("End", .text (Buffer.addressText (e.start + e.size.toUInt64))),
    ("Size", .number e.size.toInt), ("Label", .text e.label), ("Handle", .number e.handle),
    ("FD", .number e.fd)] ++
  match e.imported with
  | none => []
  | some (fd, found) => [("NewFD", .number fd), ("Found", .truth found)]

/-- The line of an event, apart from the time. -/
def text (e : BufferEvent) : String := (Json.object e.members).render

end BufferEvent

/-- The state of an allocator. -/
structure Allocator where
  /-- Whether the device has an allocator; without one there is nothing to ask. -/
  started : Bool := false
  options : AllocatorOptions := {}
  /-- Every buffer ever made. -/
  buffers : List Buffer := []
  /-- Handles with the buffers they stand for. -/
  arena : List (Nat × Nat) := []
  cache : BufferCache := {}
  /-- When the allocator was made, in nanoseconds. -/
  epoch : Nat := 0
  /-- The journal, newest first. -/
  journal : List BufferEvent := []
  allocations : Nat := 0
  frees : Nat := 0
  hits : Nat := 0
  misses : Nat := 0
  evictions : Nat := 0
  deriving Repr, Inhabited

namespace Allocator

/-- The buffer behind a handle, by number. -/
def lookup? (a : Allocator) (handle : Nat) : Option Nat := a.arena.lookup handle

/-- The buffer behind a handle. -/
def find? (a : Allocator) (handle : Nat) : Option Buffer :=
  (a.lookup? handle).bind (a.buffers[·]?)

/-- Makes a handle stand for a buffer. -/
def enter (a : Allocator) (handle buffer : Nat) : Allocator :=
  { a with arena := a.arena.filter (·.1 ≠ handle) ++ [(handle, buffer)] }

/-- Makes a handle stand for nothing. -/
def forget (a : Allocator) (handle : Nat) : Allocator :=
  { a with arena := a.arena.filter (·.1 ≠ handle) }

/-- Changes a buffer. -/
def mapBuffer (a : Allocator) (buffer : Nat) (f : Buffer → Buffer) : Allocator :=
  { a with buffers := a.buffers.modify buffer f }

/-- The buffer that the handle of a cached one stands for, by number.  It is the cached one unless
the handle was freed behind the allocator's back. -/
def cached? (a : Allocator) (entry : Nat) : Option Nat :=
  a.buffers[entry]?.bind fun b => a.lookup? b.handle

/-- The handle of a buffer. -/
def handleOf (a : Allocator) (entry : Nat) : Nat := (a.buffers[entry]?.map (·.handle)).getD 0

/-- The first broken rule of a class, from a place in it on. -/
def checkBucket (a : Allocator) (index : Nat) : List Nat → Option Cause
  | [] => none
  | entry :: rest =>
    let handle := a.handleOf entry
    match a.find? handle with
    | none => some (.bucketHandleMissing index handle)
    | some b =>
      if a.cached? entry ≠ some entry ∨ b.cachedIn ≠ some index ∨ entry ∈ rest then
        some (.bucketMismatch handle index (b.cachedIn.elim (-1) Int.ofNat))
      else if entry ∉ a.cache.recency then some (.cachedUnlisted handle)
      else if !b.usage.isEmpty then some (.cachedInUse handle)
      else a.checkBucket index rest

/-- The first broken rule of the cache. -/
def check (a : Allocator) : Option Cause :=
  match a.cache.buckets.zipIdx.findSome? fun (entries, i) => a.checkBucket i entries with
  | some c => some c
  | none =>
    if a.cache.total ≠ a.cache.size then some (.cacheCount a.cache.total a.cache.size) else none

end Allocator

end Mali
