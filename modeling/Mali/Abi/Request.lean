/-!
# Request numbers

A request number packs, from the lowest bit on, an eight bit command number, an eight bit type, a
fourteen bit argument size and a two bit direction.

* `Request.pack`: the request of four fields, which are shifted into place and not masked.
* `Request.type`, `Request.number`, `Request.size`: the fields of a request.
* `Request.headerId`: the function number that the oldest interface generation repeats in the
  header of its arguments.
-/

namespace Mali.Abi

/-- A packed request number. -/
abbrev Request := UInt32

namespace Request

/-- No argument, an argument read by the kernel, one written by it, or both. -/
def dirNone : UInt32 := 0
@[inherit_doc dirNone] def dirWrite : UInt32 := 1
@[inherit_doc dirNone] def dirRead : UInt32 := 2

/-- Shifts the four fields into place. -/
def pack (dir type number size : UInt32) : Request :=
  dir <<< 30 ||| type <<< 8 ||| number ||| size <<< 16

/-- A request without an argument. -/
def none (type number : UInt32) : Request := pack dirNone type number 0

/-- A request whose argument the kernel writes. -/
def read (type number size : UInt32) : Request := pack dirRead type number size

/-- A request whose argument the kernel reads. -/
def write (type number size : UInt32) : Request := pack dirWrite type number size

/-- A request whose argument the kernel reads and writes. -/
def readWrite (type number size : UInt32) : Request := pack (dirRead ||| dirWrite) type number size

/-- The type field. -/
def type (r : Request) : UInt32 := r >>> 8 &&& 0xff

/-- The command number. -/
def number (r : Request) : UInt32 := r &&& 0xff

/-- The argument size. -/
def size (r : Request) : UInt32 := r >>> 16 &&& 0x3fff

/-- The function number of a request in the oldest generation: types count from `0x80`, and every
type has 256 functions. -/
def headerId (r : Request) : UInt32 := (type r - 0x80) * 256 + number r

end Request

end Mali.Abi
