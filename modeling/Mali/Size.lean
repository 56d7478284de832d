import Mali.Error

/-!
# Sizes, alignment and ranges

Sizes and offsets of buffers are signed 64-bit words, addresses and page counts unsigned ones, and
all arithmetic on them wraps.  Alignments are powers of two everywhere in the library, and the
functions here are total: for any other alignment they give whatever the bit operations give.

* `isPowerOfTwo`, `checkPowerOfTwo`: the bit test `n &&& (n - 1) = 0`, which also accepts zero.
* `alignUp`, `alignDown`, `alignUp64`: rounding to a power of two.
* `divRoundUp?`: division rounding up, undefined for a zero divisor.
* `floorLog2`, `clamp`: used to choose size classes.
* `checkRange`: whether an offset and a length fit a size, with the sum taken modulo `2 ^ 64`.
-/

namespace Mali

/-- Whether at most one bit of a word is set. -/
def isPowerOfTwo {w : Nat} (n : BitVec w) : Bool :=
  n &&& (n - 1) == 0

/-- Refuses a named number that is not a power of two.  `value` is the number as it is shown. -/
def checkPowerOfTwo {w : Nat} (name : String) (n : BitVec w) (value : Int) : Except Fault Unit :=
  if isPowerOfTwo n then .ok ()
  else .error (.during (.checking name value) (.root .powerOfTwo))

/-- The next multiple of `alignment` at or above `value`. -/
def alignUp (value : Int64) (alignment : UInt64) : Int64 :=
  (value + alignment.toInt64 - 1) &&& (~~~(alignment - 1)).toInt64

/-- The next multiple of `alignment` at or below `value`. -/
def alignDown (value : Int64) (alignment : UInt64) : Int64 :=
  value &&& (~~~(alignment - 1)).toInt64

/-- `alignUp` on unsigned words. -/
def alignUp64 (value alignment : UInt64) : UInt64 :=
  (value + alignment - 1) &&& ~~~(alignment - 1)

/-- The quotient rounded up, if there is one. -/
def divRoundUp? (n d : UInt64) : Option UInt64 :=
  if d = 0 then none else some ((n + d - 1) / d)

/-- The position of the highest set bit, and `0` for zero. -/
def floorLog2 (n : UInt64) : Nat := n.toNat.log2

/-- The nearest value between `low` and `high`; `low` wins if they are out of order. -/
def clamp {α : Type} [LT α] [DecidableLT α] (value low high : α) : α :=
  if value < low then low else if high < value then high else value

/-- Refuses a range of `length` bytes at `offset` that leaves a region of `size` bytes. -/
def checkRange (offset length size : Int64) : Except Fault Unit :=
  if offset < 0 ∨ length < 0 ∨ size < offset + length then
    .error (.during (.checkingRange offset.toInt length.toInt size.toInt) (.root .range))
  else .ok ()

end Mali
