/-!
# Statistics of a set of buffers

Counts and byte totals, and on top of them the extreme sizes and the cache counters.  Totals wrap
like every other size.

* `Statistics`, `Statistics.merge`: plain totals, merged by adding.
* `Detailed.empty`: the neutral record, whose smallest size is the largest word, so that every
  allocation lowers it.
* `Detailed.addAllocation`, `Detailed.addCached`, `Detailed.merge`: one buffer more, or another
  record more.
-/

namespace Mali

/-- Totals over a set of buffers. -/
structure Statistics where
  buckets : Int64 := 0
  buffers : Int64 := 0
  bytes : Int64 := 0
  cached : Int64 := 0
  cachedBytes : Int64 := 0
  deriving DecidableEq, Repr, Inhabited

namespace Statistics

/-- Totals over two sets. -/
def merge (s t : Statistics) : Statistics where
  buckets := s.buckets + t.buckets
  buffers := s.buffers + t.buffers
  bytes := s.bytes + t.bytes
  cached := s.cached + t.cached
  cachedBytes := s.cachedBytes + t.cachedBytes

/-- Totals, extreme sizes and how the cache did. -/
structure Detailed extends Statistics where
  sizeMin : Int64 := 0
  sizeMax : Int64 := 0
  hits : Int64 := 0
  misses : Int64 := 0
  evictions : Int64 := 0
  deriving DecidableEq, Repr, Inhabited

namespace Detailed

/-- The record of no buffers. -/
def empty : Detailed where
  sizeMin := Int64.maxValue

/-- Forgets the totals and keeps the rest. -/
def clearTotals (s : Detailed) : Detailed := { s with toStatistics := {} }

/-- Counts a buffer of `size` bytes. -/
def addAllocation (s : Detailed) (size : Int64) : Detailed :=
  { s with
    buffers := s.buffers + 1
    bytes := s.bytes + size
    sizeMin := if size < s.sizeMin then size else s.sizeMin
    sizeMax := if s.sizeMax < size then size else s.sizeMax }

/-- Counts a buffer of `size` bytes as cached. -/
def addCached (s : Detailed) (size : Int64) : Detailed :=
  { s with cached := s.cached + 1, cachedBytes := s.cachedBytes + size }

/-- Adds totals. -/
def addTotals (s : Detailed) (t : Statistics) : Detailed :=
  { s with toStatistics := s.toStatistics.merge t }

/-- Totals and counters of two sets together, with the extremes over both. -/
def merge (s t : Detailed) : Detailed where
  toStatistics := s.toStatistics.merge t.toStatistics
  sizeMin := if t.sizeMin < s.sizeMin then t.sizeMin else s.sizeMin
  sizeMax := if s.sizeMax < t.sizeMax then t.sizeMax else s.sizeMax
  hits := s.hits + t.hits
  misses := s.misses + t.misses
  evictions := s.evictions + t.evictions

end Detailed

end Statistics

end Mali
