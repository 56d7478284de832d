import Mali.Memory
import Mali.Options
import Mali.Usage

/-!
# Buffers

A buffer is a range of GPU memory with a handle, a mapping and two counts: the references that its
users hold, and the queues that have yet to drain before a released buffer can be reused.  Both
counts are signed 32-bit words and wrap.

* `BufferFlag`: how a buffer is created and used.
* `Access`: kinds of GPU access that may be pending.
* `Buffer`: the record of one buffer, kept also after it was freed.
-/

namespace Mali

namespace BufferFlag

/-- The buffer may hold shader code. -/
def execute : UInt32 := 1

/-- The buffer is backed on GPU page faults. -/
def growable : UInt32 := 2

/-- The buffer is never touched by the processor. -/
def invisible : UInt32 := 4

/-- The buffer is mapped lazily. -/
def delayMmap : UInt32 := 8

/-- The mapping is cached, and kept coherent by cleaning and invalidating. -/
def cacheable : UInt32 := 16

/-- The buffer was imported, and never enters the cache. -/
def shared : UInt32 := 32

/-- The buffer holds event records. -/
def event : UInt32 := 64

/-- The names of buffer flags. -/
def names : FlagNames :=
  .ofList [(execute, "Execute"), (growable, "Growable"), (invisible, "Invisible"),
    (delayMmap, "DelayMmap"), (cacheable, "Cacheable"), (shared, "Shared"), (event, "Event")]

end BufferFlag

/-- Whether a flag is in a set of flags. -/
def hasFlag (flags flag : UInt32) : Bool := flags &&& flag != 0

namespace Access

/-- Kinds of pending access, as a set of bits. -/
def read : UInt32 := 1
@[inherit_doc read] def write : UInt32 := 2
@[inherit_doc read] def readWrite : UInt32 := 3

/-- The access of a use that may write. -/
def ofWrite (writes : Bool) : UInt32 := if writes then readWrite else read

end Access

/-- The bytes that buffer sizes are rounded up to. -/
def pageAlign : Int64 := 4096

/-- The label of a buffer that waits in the cache. -/
def cachedLabel : String := "Unused (BO cache)"

/-- A buffer. -/
structure Buffer where
  gpu : UInt64
  cpu : Option Mapping
  size : Int64
  flags : UInt32
  label : String := ""
  handle : Nat
  /-- References held by users. -/
  refs : Int32 := 0
  /-- Queues that a released buffer still waits for. -/
  gpuRefs : Int32 := 0
  usage : List Usage := []
  /-- Kinds of GPU access that may be pending. -/
  access : UInt32 := 0
  /-- The second at which the buffer entered the cache. -/
  lastUsed : Int := 0
  /-- The size class of a cached buffer. -/
  cachedIn : Option Nat := none
  /-- Whether freeing needs a request besides the unmapping. -/
  freeRegion : Bool := false
  /-- Whether the mapping is cached. -/
  cachedCpu : Bool := false
  /-- The descriptor behind an imported buffer. -/
  dmabufFd : Int := -1
  freed : Bool := false
  deriving DecidableEq, Repr, Inhabited

namespace Buffer

/-- Whether a flag is set. -/
def has (b : Buffer) (flag : UInt32) : Bool := hasFlag b.flags flag

/-- The part of the mapping that belongs to the buffer. -/
def visible (b : Buffer) : Option Mapping :=
  b.cpu.map fun m => m.truncate b.size.toInt.toNat

/-- Records that some work uses a buffer. -/
def markUsed (b : Buffer) (u : Usage) : Buffer :=
  { b with usage := Usage.record b.usage u, access := b.access ||| Access.ofWrite u.write }

/-- Records a pending access that the kernel follows. -/
def markAccess (b : Buffer) (access : UInt32) : Buffer :=
  { b with access := b.access ||| (access &&& Access.readWrite) }

/-- The text of an address. -/
def addressText (va : UInt64) : String := "0x" ++ hexDigits va.toNat

end Buffer

end Mali
