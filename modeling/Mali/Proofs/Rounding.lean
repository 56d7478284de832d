import Mali.Size
import Mathlib

/-!
# Rounding to powers of two

Masks round down, and adding the alignment less one before that rounds up.  Both are exact as long as nothing wraps.

* `toNat_and_high`: a mask clears what a division loses.
* `toNat_alignUp64`: what rounding up comes to.
* `isLeast_multiple_iff`: which multiple is the least one at or above a number.
-/

namespace Mali

/-- The mask of the bits from `k` on. -/
theorem not_twoPow_sub_one {k : Nat} (hk : k < 64) :
    ~~~(BitVec.twoPow 64 k - 1#64) = BitVec.allOnes 64 <<< k := by
  have hpos : 0 < 2 ^ k := Nat.two_pow_pos k
  have hlt : 2 ^ k < 2 ^ 64 := Nat.pow_lt_pow_right (by decide) hk
  refine BitVec.eq_of_toNat_eq ?_
  simp only [BitVec.toNat_not, BitVec.toNat_sub, BitVec.toNat_twoPow, BitVec.toNat_shiftLeft, BitVec.toNat_allOnes,
    BitVec.toNat_ofNat, Nat.shiftLeft_eq]
  omega

/-- Keeping the bits from `k` on rounds down to a multiple of `2 ^ k`. -/
theorem toNat_and_high (x : BitVec 64) {k : Nat} (hk : k < 64) :
    (x &&& ~~~(BitVec.twoPow 64 k - 1#64)).toNat = x.toNat / 2 ^ k * 2 ^ k := by
  have hle : x.toNat / 2 ^ k * 2 ^ k ≤ x.toNat := Nat.div_mul_le_self _ _
  rw [not_twoPow_sub_one hk, ← BitVec.shiftLeft_ushiftRight, BitVec.toNat_shiftLeft, BitVec.toNat_ushiftRight,
    Nat.shiftRight_eq_div_pow, Nat.shiftLeft_eq, Nat.mod_eq_of_lt (Nat.lt_of_le_of_lt hle x.isLt)]

/-- The least multiple of `a` at or above `n` is the one that is less than `a` above it. -/
theorem isLeast_multiple_iff {a n m : Int} (ha : 0 < a) (hm : a ∣ m) :
    IsLeast {x | a ∣ x ∧ n ≤ x} m ↔ n ≤ m ∧ m < n + a := by
  refine ⟨fun h => ⟨h.1.2, ?_⟩, fun h => ⟨⟨hm, h.1⟩, fun x hx => ?_⟩⟩
  · refine Int.not_le.1 fun hle => ?_
    have hbelow := h.2 ⟨Int.dvd_sub hm (Int.dvd_refl a), show n ≤ m - a by omega⟩
    omega
  · refine Int.not_lt.1 fun hlt => ?_
    have hgap := Int.le_of_dvd (show 0 < m - x by omega) (Int.dvd_sub hm hx.1)
    have := hx.2
    omega

/-- What rounding an unsigned word up comes to, if the sum does not wrap. -/
theorem toNat_alignUp64 {value alignment : UInt64} {k : Nat} (hk : k < 64) (ha : alignment.toNat = 2 ^ k)
    (hsum : value.toNat + 2 ^ k ≤ 2 ^ 64) :
    (alignUp64 value alignment).toNat = (value.toNat + 2 ^ k - 1) / 2 ^ k * 2 ^ k := by
  have hpos : 0 < 2 ^ k := Nat.two_pow_pos k
  have hbits : alignment.toBitVec = BitVec.twoPow 64 k := by
    refine BitVec.eq_of_toNat_eq (ha.trans ?_)
    rw [BitVec.toNat_twoPow, Nat.mod_eq_of_lt (Nat.pow_lt_pow_right (by decide) hk)]
  have hsum : (value.toBitVec + alignment.toBitVec - 1#64).toNat = value.toNat + 2 ^ k - 1 := by
    simp only [BitVec.toNat_sub, BitVec.toNat_add, UInt64.toNat_toBitVec, ha, BitVec.toNat_ofNat]
    omega
  have hmask := toNat_and_high (value.toBitVec + alignment.toBitVec - 1#64) hk
  rw [hsum, ← hbits] at hmask
  exact hmask

end Mali
