import Std.Data.HashMap
import Mali.Bytes

/-!
# Memory and mappings

All mappings of a run live in one flat address space, and no address is ever mapped twice, so
memory is a finite map from addresses to bytes in which everything else is zero.

* `Memory.load`, `Memory.store`, `Memory.clear`: bytes at an address.
* `Memory.word`, `Memory.setWord`: eight byte words.
* `Mapping`: a mapped range.  A range of no bytes has no address.
* `marker`: the pattern that marks an unused buffer, so that a stray write shows.
-/

namespace Mali

/-- Bytes by address; the rest is zero. -/
structure Memory where
  bytes : Std.HashMap Nat UInt8 := ∅
  deriving Inhabited

namespace Memory

/-- The byte at an address. -/
def byte (m : Memory) (addr : Nat) : UInt8 := m.bytes.getD addr 0

/-- Writes one byte. -/
def setByte (m : Memory) (addr : Nat) (b : UInt8) : Memory := ⟨m.bytes.insert addr b⟩

/-- Reading over a write of one byte. -/
theorem byte_setByte (m : Memory) (addr x : Nat) (b : UInt8) :
    (m.setByte addr b).byte x = if addr = x then b else m.byte x := by
  unfold byte setByte
  rw [Std.HashMap.getD_insert]
  simp only [beq_iff_eq]

/-- The `length` bytes from an address on. -/
def load (m : Memory) (addr : Nat) : (length : Nat) → List UInt8
  | 0 => []
  | length + 1 => m.byte addr :: m.load (addr + 1) length

/-- Writes bytes from an address on. -/
def store (m : Memory) (addr : Nat) : List UInt8 → Memory
  | [] => m
  | b :: bs => (m.setByte addr b).store (addr + 1) bs

/-- Makes a range zero. -/
def clear (m : Memory) (addr length : Nat) : Memory :=
  ⟨m.bytes.filter fun a _ => !(addr ≤ a && a < addr + length)⟩

/-- The eight byte word at an address. -/
def word (m : Memory) (addr : Nat) : UInt64 := UInt64.ofNat (ofLE (m.load addr 8))

/-- Writes an eight byte word. -/
def setWord (m : Memory) (addr : Nat) (v : UInt64) : Memory := m.store addr (leBytes 8 v.toNat)

/-- The four byte word at an address. -/
def half (m : Memory) (addr : Nat) : UInt32 := UInt32.ofNat (ofLE (m.load addr 4))

/-- Writes a four byte word. -/
def setHalf (m : Memory) (addr : Nat) (v : UInt32) : Memory := m.store addr (leBytes 4 v.toNat)

@[simp] theorem length_load (m : Memory) (addr length : Nat) :
    (m.load addr length).length = length := by
  induction length generalizing addr with
  | zero => rfl
  | succ n ih => simp [load, ih]

/-- Reading over a write: bytes of the written range are the written ones. -/
theorem byte_store (m : Memory) (addr x : Nat) (bs : List UInt8) :
    (m.store addr bs).byte x = if addr ≤ x then bs.getD (x - addr) (m.byte x) else m.byte x := by
  induction bs generalizing m addr with
  | nil => simp [store]
  | cons b bs ih =>
    rw [store, ih, byte_setByte]
    rcases Nat.lt_trichotomy addr x with h | h | h
    · have h₁ : addr + 1 ≤ x := h
      have h₂ : addr ≤ x := Nat.le_of_lt h
      have h₃ : x - addr = (x - (addr + 1)) + 1 := by omega
      simp [h₁, h₂, h₃, Nat.ne_of_lt h]
    · subst h
      have h₁ : ¬ addr + 1 ≤ addr := by omega
      simp [h₁]
    · have h₁ : ¬ addr + 1 ≤ x := by omega
      have h₂ : ¬ addr ≤ x := by omega
      have h₃ : addr ≠ x := by omega
      simp [h₁, h₂, h₃]

end Memory

/-- A mapped range of memory. -/
structure Mapping where
  addr : UInt64
  length : Nat
  deriving DecidableEq, Repr, Inhabited

namespace Mapping

/-- The address of a range, and zero for an empty one. -/
def address (m : Mapping) : UInt64 := if m.length = 0 then 0 else m.addr

/-- At most the first `n` bytes. -/
def truncate (m : Mapping) (n : Nat) : Mapping := { m with length := min m.length n }

/-- Bytes `lo` up to `hi` of a range, if they are in order and inside it. -/
def slice? (m : Mapping) (lo hi : Int) : Option Mapping :=
  if 0 ≤ lo ∧ lo ≤ hi ∧ hi ≤ m.length then
    some ⟨m.addr + UInt64.ofNat lo.toNat, (hi - lo).toNat⟩
  else none

/-- The address of a byte inside a range. -/
def byteAddr? (m : Mapping) (offset : Int) : Option Nat :=
  if 0 ≤ offset ∧ offset < m.length then some (m.addr.toNat + offset.toNat) else none

end Mapping

/-- The length of a mapping that may be missing. -/
def mappingLength (m : Option Mapping) : Nat := m.elim 0 (·.length)

/-- The address of a mapping that may be missing. -/
def mappingAddress (m : Option Mapping) : UInt64 := m.elim 0 (·.address)

/-! ## The marker of unused buffers -/

/-- The number of bytes that mark an unused buffer. -/
def markerLength : Nat := 16

/-- The pattern at the head of an unused buffer. -/
def marker : List UInt8 := (List.replicate 4 (leBytes 4 0x7F84E666)).flatten

/-- Puts the marker at the head of some bytes that are long enough for it. -/
def markBytes (bs : List UInt8) : List UInt8 :=
  if bs.length < markerLength then bs else marker ++ bs.drop markerLength

/-- Whether the marker is intact; bytes too short for it have none to lose. -/
def isMarked (bs : List UInt8) : Bool :=
  bs.length < markerLength || bs.take markerLength == marker

namespace Memory

/-- Puts the marker at the head of a mapping. -/
def mark (m : Memory) (r : Mapping) : Memory :=
  if r.length < markerLength then m else m.store r.addr.toNat marker

/-- Whether the marker of a mapping is intact. -/
def isMarked (m : Memory) (r : Mapping) : Bool :=
  r.length < markerLength || m.load r.addr.toNat markerLength == marker

end Memory

end Mali
