import Mali.Error

/-!
# Names of flags

A set of flags is a word of 32 bits, signed or not, and reads as the names of its set bits from the
lowest to the highest, separated by bars.  A bit without a name reads as its hexadecimal value, and
the empty set as `None`.  A bar is only written after something else was, so empty names at the
start of the text leave no trace.

* `FlagWord`: the words that sets of flags are kept in.
* `lowestBit`: the bit of a set that is written first.
* `FlagNames`: names by flag value, the last registration of a value winning.
* `FlagNames.describe`: the text of a word.
-/

namespace Mali

/-- Words of 32 bits that sets of flags are kept in. -/
class FlagWord (α : Type) where
  /-- The bits of a word. -/
  bits : α → UInt32
  /-- The word with some bits. -/
  ofBits : UInt32 → α
  ofBits_bits : ∀ value, ofBits (bits value) = value
  bits_ofBits : ∀ n, bits (ofBits n) = n

attribute [simp] FlagWord.ofBits_bits FlagWord.bits_ofBits

instance : FlagWord UInt32 where
  bits n := n
  ofBits n := n
  ofBits_bits _ := rfl
  bits_ofBits _ := rfl

/-- The highest bit of a signed word is its sign. -/
instance : FlagWord Int32 where
  bits := Int32.toUInt32
  ofBits := UInt32.toInt32
  ofBits_bits := Int32.toInt32_toUInt32
  bits_ofBits := UInt32.toUInt32_toInt32

/-- The lowest set bit of a word that has one. -/
def lowestBit (n : UInt32) : UInt32 := 1 <<< UInt32.ofBitVec n.toBitVec.ctz

section

variable {n : UInt32}

theorem ctz_lt (h : n ≠ 0) : n.toBitVec.ctz.toNat < 32 := by
  have hne : n.toBitVec ≠ 0#32 := fun hz => h (UInt32.toBitVec_inj.mp hz)
  exact BitVec.lt_def.mp (BitVec.ctz_lt_iff_ne_zero.mpr hne)

theorem getLsbD_ctz (h : n ≠ 0) : n.toBitVec.getLsbD n.toBitVec.ctz.toNat = true :=
  BitVec.getLsbD_true_ctz_of_ne_zero fun hz => h (UInt32.toBitVec_inj.mp hz)

theorem toBitVec_lowestBit (h : n ≠ 0) :
    (lowestBit n).toBitVec = BitVec.twoPow 32 n.toBitVec.ctz.toNat := by
  have hshift : (n.toBitVec.ctz % 32#32).toNat = n.toBitVec.ctz.toNat := by
    rw [BitVec.toNat_umod]
    exact Nat.mod_eq_of_lt (ctz_lt h)
  show 1#32 <<< (n.toBitVec.ctz % 32#32) = _
  rw [BitVec.shiftLeft_eq', hshift, BitVec.twoPow_eq]

/-- Taking the lowest bit away takes nothing else away. -/
theorem getLsbD_and_not_lowestBit (h : n ≠ 0) (i : Nat) :
    (n &&& ~~~lowestBit n).toBitVec.getLsbD i =
      (n.toBitVec.getLsbD i && decide (i ≠ n.toBitVec.ctz.toNat)) := by
  rw [UInt32.toBitVec_and, UInt32.toBitVec_not, toBitVec_lowestBit h, BitVec.getLsbD_and,
    BitVec.getLsbD_not, BitVec.getLsbD_twoPow]
  rcases Nat.lt_or_ge i 32 with hi | hi
  · simp [hi, ctz_lt h, eq_comm]
  · simp [BitVec.getLsbD_of_ge _ _ hi]

theorem and_not_lowestBit_lt (h : n ≠ 0) : (n &&& ~~~lowestBit n).toNat < n.toNat := by
  have hle : (n &&& ~~~lowestBit n).toNat ≤ n.toNat := Nat.and_le_left
  refine Nat.lt_of_le_of_ne hle fun heq => ?_
  have hbit := getLsbD_and_not_lowestBit h n.toBitVec.ctz.toNat
  rw [UInt32.toNat_inj.mp heq, getLsbD_ctz h] at hbit
  simp at hbit

end

/-- Names registered for flag values. -/
structure FlagNames (α : Type := UInt32) where
  entries : List (α × String) := []
  deriving Repr, Inhabited

namespace FlagNames

variable {α : Type}

/-- Names `flag`, over any name it had. -/
def register (m : FlagNames α) (flag : α) (name : String) : FlagNames α :=
  ⟨(flag, name) :: m.entries⟩

variable [DecidableEq α]

/-- The name of a flag value. -/
def name? (m : FlagNames α) (flag : α) : Option String :=
  m.entries.lookup flag

variable [FlagWord α]

/-- The name of a single bit, or its hexadecimal value. -/
def bitName (m : FlagNames α) (bit : UInt32) : String :=
  (m.name? (FlagWord.ofBits bit)).getD ("0x" ++ hexDigits bit.toNat)

/-- Writes the names of some bits after a text, the lowest one first. -/
def write (m : FlagNames α) (text : String) (remaining : UInt32) : String :=
  if remaining = 0 then text
  else
    let bit := lowestBit remaining
    let text := if text.isEmpty then text else text.push '|'
    m.write (text ++ m.bitName bit) (remaining &&& ~~~bit)
termination_by remaining.toNat
decreasing_by exact and_not_lowestBit_lt ‹_›

/-- The names of the bits of `value`, separated by bars. -/
def describe (m : FlagNames α) (value : α) : String :=
  if FlagWord.bits value = 0 then "None" else m.write "" (FlagWord.bits value)

omit [DecidableEq α] [FlagWord α] in
/-- Names for a list of flags. -/
def ofList (entries : List (α × String)) : FlagNames α :=
  entries.foldl (fun m e => m.register e.1 e.2) {}

end FlagNames

end Mali
