import Mali.Buffer
import Mali.Size

/-!
# The cache of released buffers

Released buffers wait in size classes, and all of them in one list by age, so that stale ones can
be found oldest first.  The lists name buffers by number.

A size class covers one power of two: sizes are rounded up, so a power of two and the size after
it are never in one class, and sizes outside the bounds share the first or the last class.

* `AllocatorOptions.bucketIndex`: the class of a size.
* `BufferCache.put`, `BufferCache.remove`: adding at the end, and taking out the newest entry.
-/

namespace Mali

namespace AllocatorOptions

/-- The number of size classes. -/
def bucketCount (o : AllocatorOptions) : Nat := (o.maxBucket - o.minBucket + 1).toNat

/-- The rounded up binary logarithm of a size. -/
def ceilLog2 (size : Int64) : Int :=
  if 1 < size then floorLog2 (size - 1).toUInt64 + 1 else 0

/-- The class of a size. -/
def bucketIndex (o : AllocatorOptions) (size : Int64) : Nat :=
  (clamp (ceilLog2 size) o.minBucket o.maxBucket - o.minBucket).toNat

/-- The smallest size of a class, as a word: shifts past the width give zero. -/
def minBucketSize (o : AllocatorOptions) (index : Nat) : Int64 :=
  let shift := o.minBucket + index
  if 0 ≤ shift ∧ shift < 64 then (1 : Int64) <<< Int64.ofInt shift else 0

end AllocatorOptions

/-- Released buffers, by number. -/
structure BufferCache where
  /-- By size class, oldest first. -/
  buckets : List (List Nat) := []
  /-- All of them, oldest first. -/
  recency : List Nat := []
  deriving DecidableEq, Repr, Inhabited

namespace BufferCache

/-- An empty cache with a number of size classes. -/
def empty (count : Nat) : BufferCache where
  buckets := List.replicate count []

/-- The buffers in a class. -/
def bucket (c : BufferCache) (index : Nat) : List Nat := c.buckets.getD index []

/-- Adds a buffer at the end of a class and of the list by age. -/
def put (c : BufferCache) (index buffer : Nat) : BufferCache where
  buckets := c.buckets.modify index (· ++ [buffer])
  recency := c.recency ++ [buffer]

/-- Removes the last occurrence of a number. -/
def eraseLast (buffer : Nat) (entries : List Nat) : List Nat :=
  (entries.reverse.erase buffer).reverse

/-- Takes the newest entry of a buffer out of a class and of the list by age. -/
def remove (c : BufferCache) (index buffer : Nat) : BufferCache where
  buckets := c.buckets.modify index (eraseLast buffer)
  recency := eraseLast buffer c.recency

/-- What is left to visit of a list from which a buffer was evicted on the way: the next entry was
chosen before, and of those after it the evicted one is gone. -/
def remaining (evicted : Nat) : List Nat → List Nat
  | [] => []
  | next :: rest => next :: eraseLast evicted rest

theorem length_eraseLast_le (buffer : Nat) (entries : List Nat) :
    (eraseLast buffer entries).length ≤ entries.length := by
  have h := List.length_erase_le (a := buffer) (l := entries.reverse)
  simpa [eraseLast] using h

theorem length_remaining_le (evicted : Nat) (entries : List Nat) :
    (remaining evicted entries).length ≤ entries.length := by
  cases entries with
  | nil => simp [remaining]
  | cons next rest => simpa [remaining] using length_eraseLast_le evicted rest

/-- The number of cached buffers. -/
def size (c : BufferCache) : Nat := c.recency.length

/-- The number of entries over all classes. -/
def total (c : BufferCache) : Nat := c.buckets.flatten.length

end BufferCache

end Mali
