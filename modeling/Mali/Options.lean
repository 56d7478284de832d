import Mali.FlagNames

/-!
# Options

What a device is opened with and what an allocator is made with.  Fields that are zero, or
negative where a size or a duration is meant, stand for defaults, which `withDefaults` fills in.
Durations are nanoseconds.

* `Generation`: the three generations of the device interface.
* `DeviceOptions`, `AllocatorOptions`: the options and their defaults.
-/

namespace Mali

/-- The generations of the device interface, oldest first. -/
inductive Generation where
  | old | jm | csf
  deriving DecidableEq, Repr, Inhabited

namespace Generation

/-- The short name of a generation. -/
def name : Generation → String
  | old => "old"
  | jm => "jm"
  | csf => "csf"

/-- The generation with a given short name. -/
def ofName? (s : String) : Option Generation := [old, jm, csf].find? (·.name == s)

/-- The generation with a given number. -/
def ofNumber? : Int → Option Generation
  | 0 => some old
  | 1 => some jm
  | 2 => some csf
  | _ => none

/-- Whether a generation is newer than the oldest. -/
def isModern : Generation → Bool
  | old => false
  | jm => true
  | csf => true

end Generation

/-- Nanoseconds in a millisecond and in a second. -/
def millisecond : Nat := 1000000
@[inherit_doc millisecond] def second : Nat := 1000000000

/-! ## Devices -/

namespace DeviceFlag

/-- The caller promises to use the handle table from one thread at a time. -/
def externallySynchronized : UInt32 := 1

/-- Adds traces of sequence numbers and callbacks to the log. -/
def verbose : UInt32 := 2

/-- The names of device flags. -/
def names : FlagNames :=
  .ofList [(externallySynchronized, "CreateExternallySynchronized"), (verbose, "CreateVerbose")]

end DeviceFlag

/-- Which memory hooks are installed. -/
structure Hooks where
  allocate : Bool := false
  free : Bool := false
  deriving DecidableEq, Repr, Inhabited

/-- What a device is opened with. -/
structure DeviceOptions where
  flags : UInt32 := 0
  /-- The least number of stream interfaces that a queue group asks for. -/
  streamCount : Int64 := 0
  pageSize : Int64 := 0
  /-- The longest wait for a syncobj. -/
  waitTimeout : Int := 0
  /-- The longest that one poll of the device blocks. -/
  pollInterval : Int := 0
  /-- Whether a submission also writes the doorbell page. -/
  ringDoorbell : Bool := false
  hooks : Hooks := {}
  deriving DecidableEq, Repr, Inhabited

namespace DeviceOptions

/-- Whether the log is verbose. -/
def isVerbose (o : DeviceOptions) : Bool := o.flags &&& DeviceFlag.verbose != 0

/-- Fills in the defaults for a kernel with the given page size. -/
def withDefaults (o : DeviceOptions) (pageSize : Int64) : DeviceOptions :=
  { o with
    streamCount := if o.streamCount ≤ 0 then 2 else o.streamCount
    pageSize := if o.pageSize ≤ 0 then pageSize else o.pageSize
    waitTimeout := if o.waitTimeout ≤ 0 then second else o.waitTimeout
    pollInterval := if o.pollInterval ≤ 0 then 100 * millisecond else o.pollInterval }

end DeviceOptions

/-! ## Allocators -/

/-- Where the events of buffers go. -/
inductive EventSink where
  /-- Nowhere. -/
  | none
  /-- To a journal. -/
  | journal
  /-- To a journal that refuses every line with an error. -/
  | refusing (e : Errno)
  deriving DecidableEq, Repr, Inhabited

/-- What an allocator is made with. -/
structure AllocatorOptions where
  /-- Frees buffers as soon as they are released. -/
  noCache : Bool := false
  /-- Maps every buffer uncached on the processor. -/
  uncachedCpu : Bool := false
  /-- Asks for cacheable buffers to skip the GPU caches. -/
  uncachedGpu : Bool := false
  /-- Zeroes every visible buffer handed out. -/
  clearOnCreate : Bool := false
  /-- Waits for every batch, and leaves contexts unrecovered after a fault. -/
  sync : Bool := false
  events : EventSink := .none
  /-- How long a cached buffer may stay unused, compared in whole seconds. -/
  staleAge : Int := 0
  /-- Binary logarithms of the smallest and the largest size class. -/
  minBucket : Int := 0
  maxBucket : Int := 0
  deriving DecidableEq, Repr, Inhabited

namespace AllocatorOptions

/-- Fills in the defaults. -/
def withDefaults (o : AllocatorOptions) : AllocatorOptions :=
  let minBucket := if o.minBucket = 0 then 12 else o.minBucket
  let maxBucket := if o.maxBucket = 0 then 22 else o.maxBucket
  { o with
    staleAge := if o.staleAge = 0 then 2 * second else o.staleAge
    minBucket
    maxBucket := if maxBucket < minBucket then minBucket else maxBucket }

/-- The seconds of a duration, with the fraction cut off after it was added in double precision.  From
`2 ^ 24` seconds on a fraction that is close enough to one is rounded up to it before. -/
def doubleSeconds (duration : Nat) : Nat :=
  let whole := duration / second
  if (second - duration % second) <<< 53 ≤ second <<< whole.log2 then whole + 1 else whole

/-- The age in seconds past which a cached buffer is stale. -/
def staleSeconds (o : AllocatorOptions) : Int := o.staleAge.sign * doubleSeconds o.staleAge.natAbs

end AllocatorOptions

end Mali
