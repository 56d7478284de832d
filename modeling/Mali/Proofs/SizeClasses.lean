import Mali.Proofs.CacheOrder
import Mathlib

/-!
# Size classes

The class of a size is its binary logarithm, rounded up, kept between the bounds and counted from the lower one.
The logarithm is computed from the size before: that of `n` rounded up is one more than that of `n - 1` rounded
down.  Strictly between the bounds a class is the sizes past one power of two and up to the next, so two sizes of
one class are less than a factor of two apart.

A released buffer is put into the class of the size that it has, and looked for in the class of the size that is
asked for.

* `log2_pred_succ`: the logarithm of the size before.
* `AllocatorOptions.bucketIndex_eq`, `AllocatorOptions.bucketIndex_mono`: the class of a size.
* `AllocatorOptions.Classifies`: what the bounds of classes are good for.
* `AllocatorOptions.lt_two_mul_of_sizeClass`: how far apart the sizes of one class are.
-/

namespace Mali

/-- One more than the binary logarithm of the number before is the binary logarithm rounded up. -/
theorem log2_pred_succ {n : Nat} (h : 1 < n) : (n - 1).log2 + 1 = Nat.clog 2 n := by
  refine eq_of_forall_ge_iff fun k => ?_
  rw [Nat.clog_le_iff_le_pow (by decide), Nat.succ_le_iff, Nat.log2_lt (by omega)]
  have := Nat.two_pow_pos k
  omega

namespace AllocatorOptions

/-- The size before, as an unsigned word. -/
theorem toNat_pred {size : Int64} (h : 1 < size) : (size - 1).toUInt64.toNat = size.toInt.toNat - 1 := by
  rw [Int64.lt_iff_toInt_lt, show (1 : Int64).toInt = 1 from rfl] at h
  have hlt := size.toInt_lt
  have hpred : (size - 1).toInt = size.toInt - 1 := by
    rw [Int64.toInt_sub, show (1 : Int64).toInt = 1 from rfl]
    exact Int.bmod_eq_of_le (by omega) (by omega)
  have hnonneg : 0 ≤ size - 1 := by
    rw [Int64.le_iff_toInt_le, hpred]
    exact Int.sub_nonneg_of_le h.le
  rw [Int64.toNat_toUInt64_of_le hnonneg, ← Int64.toNat_toInt, hpred]
  omega

/-- The logarithm of a size, and zero for what is not positive. -/
theorem ceilLog2_eq (size : Int64) : ceilLog2 size = Nat.clog 2 size.toInt.toNat := by
  have hone : (1 : Int64).toInt = 1 := rfl
  unfold ceilLog2
  split
  · rename_i h
    have hint := Int64.lt_iff_toInt_lt.mp h
    rw [floorLog2, toNat_pred h, ← log2_pred_succ (by omega)]
    rfl
  · rename_i h
    have hint := mt Int64.lt_iff_toInt_lt.mpr h
    rw [Nat.clog_of_right_le_one (by omega)]
    rfl

variable {o : AllocatorOptions}

/-- The class of a size is its logarithm between the bounds, counted from the lower one. -/
theorem bucketIndex_eq (h : o.minBucket ≤ o.maxBucket) (size : Int64) :
    (o.bucketIndex size : Int) =
      max o.minBucket (min o.maxBucket (Nat.clog 2 size.toInt.toNat)) - o.minBucket := by
  unfold bucketIndex clamp
  rw [ceilLog2_eq]
  split
  · omega
  · split <;> omega

theorem bucketIndex_mono (h : o.minBucket ≤ o.maxBucket) {size size' : Int64} (hle : size ≤ size') :
    o.bucketIndex size ≤ o.bucketIndex size' := by
  have hlog : Nat.clog 2 size.toInt.toNat ≤ Nat.clog 2 size'.toInt.toNat :=
    Nat.clog_mono_right 2 (Int.toNat_le_toNat (Int64.le_iff_toInt_le.mp hle))
  have := bucketIndex_eq h size
  have := bucketIndex_eq h size'
  omega

/-- What the bounds of classes are good for: every size has a class, larger sizes have no smaller one, and that of
a positive size is the exponent of the least power of two that is not below it, between the bounds. -/
structure Classifies (o : AllocatorOptions) : Prop where
  inRange : ∀ size, o.bucketIndex size < o.bucketCount
  monotone : ∀ size size' : Int64, size ≤ size' → o.bucketIndex size ≤ o.bucketIndex size'
  exact : ∀ size : Int64, 1 ≤ size → (o.bucketIndex size : Int) =
    max o.minBucket (min o.maxBucket (Nat.clog 2 size.toInt.toNat)) - o.minBucket

theorem classifies (h : o.minBucket ≤ o.maxBucket) : o.Classifies where
  inRange := bucketIndex_lt h
  monotone _ _ := bucketIndex_mono h
  exact size _ := bucketIndex_eq h size

/-- Strictly between the bounds a class is one power of two, so what is in it is smaller than twice what is asked
for. -/
theorem lt_two_mul_of_sizeClass {size size' : Int64} (hpos : 0 < o.minBucket)
    (hmin : o.minBucket < Nat.clog 2 size.toInt.toNat) (hmax : Nat.clog 2 size.toInt.toNat < o.maxBucket)
    (hclass : o.bucketIndex size = o.sizeClass size') : size'.toInt < 2 * size.toInt := by
  rw [sizeClass] at hclass
  have hle : size'.toInt ≤ (if size' < pageAlign then pageAlign else size').toInt := by
    split
    · rename_i h
      exact (Int64.lt_iff_toInt_lt.mp h).le
    · exact le_rfl
  generalize (if size' < pageAlign then pageAlign else size') = stored at hle hclass
  have hlog : Nat.clog 2 stored.toInt.toNat = Nat.clog 2 size.toInt.toNat := by
    have hindex := bucketIndex_eq (o := o) (by omega) size
    rw [hclass, bucketIndex_eq (by omega)] at hindex
    omega
  have hupper : stored.toInt.toNat ≤ 2 ^ Nat.clog 2 size.toInt.toNat :=
    hlog ▸ Nat.le_pow_clog (by decide) stored.toInt.toNat
  have hlarge : 1 < size.toInt.toNat := by
    by_contra hsmall
    rw [Nat.clog_of_right_le_one (by omega)] at hmin
    omega
  have hlower : 2 ^ (Nat.clog 2 size.toInt.toNat - 1) < size.toInt.toNat :=
    Nat.pow_pred_clog_lt_self (by decide) hlarge
  have hdouble : 2 ^ Nat.clog 2 size.toInt.toNat = 2 * 2 ^ (Nat.clog 2 size.toInt.toNat - 1) := by
    rw [← pow_succ']
    congr 1
    omega
  omega

end AllocatorOptions

end Mali
