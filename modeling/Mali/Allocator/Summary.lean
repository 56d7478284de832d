import Mali.Machine
import Mali.Statistics

/-!
# Summary of an allocator

* `Allocator.statistics`: totals over the buffers that are not freed, and the cache counters.
* `Allocator.summary`: the same as JSON, with the size classes and on request every cached buffer.
-/

namespace Mali

namespace Allocator

/-- The buffers that are not freed. -/
def live (a : Allocator) : List Buffer := a.arena.filterMap fun e => a.buffers[e.2]?

/-- Counts a buffer. -/
def countBuffer (s : Statistics.Detailed) (b : Buffer) : Statistics.Detailed :=
  let s := s.addAllocation b.size
  if b.cachedIn.isSome then s.addCached b.size else s

/-- Totals over the live buffers. -/
def statistics (a : Allocator) : Statistics.Detailed :=
  let start := { Statistics.Detailed.empty with buckets := Int64.ofNat a.cache.buckets.length }
  { a.live.foldl countBuffer start with
    hits := Int64.ofNat a.hits
    misses := Int64.ofNat a.misses
    evictions := Int64.ofNat a.evictions }

/-- A word as JSON. -/
def word (n : Int64) : Json := .number n.toInt

/-- Totals as members of an object. -/
def totals (s : Statistics.Detailed) (detailed : Bool) : List (String × Json) :=
  [("BucketCount", word s.buckets), ("BOCount", word s.buffers), ("BOBytes", word s.bytes),
    ("CachedCount", word s.cached), ("CachedBytes", word s.cachedBytes)] ++
  if detailed then
    (if 0 < s.buffers then [("SizeMin", word s.sizeMin), ("SizeMax", word s.sizeMax)] else []) ++
      [("Hits", word s.hits), ("Misses", word s.misses), ("Evictions", word s.evictions)]
  else []

/-- A cached buffer in a summary. -/
def bufferSummary (b : Buffer) : Json :=
  .object [("Handle", .number b.handle), ("VA", .text (Buffer.addressText b.gpu)),
    ("Size", word b.size), ("Flags", .text (BufferFlag.names.describe b.flags)),
    ("LastUsed", .number b.lastUsed)]

/-- The bytes in cached buffers. -/
def bytes (bs : List Buffer) : Int64 := (bs.map (·.size)).foldl (· + ·) 0

/-- The buffer that a cached one's handle stands for. -/
def cachedEntry? (a : Allocator) (entry : Nat) : Option Buffer :=
  (a.cached? entry).bind (a.buffers[·]?)

/-- A size class in a summary. -/
def bucketSummary (a : Allocator) (detailed : Bool) (entries : List Nat) (index : Nat) : Json :=
  let bs := entries.filterMap a.cachedEntry?
  .object ([("MinSize", word (a.options.minBucketSize index)),
    ("Count", .number entries.length), ("Bytes", word (bytes bs))] ++
    if detailed then [("BOs", .array (bs.map bufferSummary))] else [])

/-- An allocator as JSON. -/
def summary (a : Allocator) (detailed : Bool) : Json :=
  .object [("Total", .object (totals a.statistics detailed)),
    ("Allocations", .number a.allocations), ("Frees", .number a.frees),
    ("Buckets", .array (a.cache.buckets.zipIdx.map fun (es, i) => a.bucketSummary detailed es i))]

/-- The first cached buffer whose handle stands for no buffer. -/
def orphan? (a : Allocator) : Option Nat :=
  a.cache.buckets.flatten.find? fun entry => (a.cached? entry).isNone

open Op in
/-- The text of a summary; every cached handle has to stand for a buffer. -/
def summaryText {κ : Type} (detailed : Bool) : Op κ String := do
  requireAllocator
  let a ← allocator
  match a.orphan? with
  | some entry => violate (.root (.cachedHandleMissing (a.handleOf entry)))
  | none => return (a.summary detailed).render

end Allocator

end Mali
