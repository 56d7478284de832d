import Mali.Abi.Request
import Mathlib

/-!
# Fields of request numbers

Packing shifts four fields into place, and each of them is read back by a shift and a mask of its own.  Over the
naturals both are arithmetic: a request is the sum of its fields at their places, as long as they fit, and a field is
what a division and a remainder leave.  So the requests and the fields that fit are the same thing.

The function number of the oldest generation is read off the type and the command number alone, and from type `0x80`
on it tells both apart.

* `Request.direction`: the field that has no reader of its own.
* `Request.toNat_pack`: a request is the sum of its fields.
* `Request.pack_surjective`: every request is packed from its fields.
* `Request.headerId_eq_iff`: what the function number tells.
* `Request.pack_decodes`: the main result.
-/

namespace Mali.Abi.Request

/-- The direction field: the top two bits. -/
def direction (r : Request) : UInt32 := r >>> 30

/-! ## Fields as remainders -/

theorem toNat_direction (r : Request) : (direction r).toNat = r.toNat / 2 ^ 30 := by
  rw [direction, UInt32.toNat_shiftRight]
  exact Nat.shiftRight_eq_div_pow _ _

theorem toNat_type (r : Request) : (type r).toNat = r.toNat / 2 ^ 8 % 2 ^ 8 := by
  rw [type, UInt32.toNat_and, UInt32.toNat_shiftRight, ← Nat.shiftRight_eq_div_pow, ← Nat.and_two_pow_sub_one_eq_mod]
  rfl

theorem toNat_number (r : Request) : (number r).toNat = r.toNat % 2 ^ 8 := by
  rw [number, UInt32.toNat_and, ← Nat.and_two_pow_sub_one_eq_mod]
  rfl

theorem toNat_size (r : Request) : (size r).toNat = r.toNat / 2 ^ 16 % 2 ^ 14 := by
  rw [size, UInt32.toNat_and, UInt32.toNat_shiftRight, ← Nat.shiftRight_eq_div_pow, ← Nat.and_two_pow_sub_one_eq_mod]
  rfl

/-! ## Packing as a sum -/

/-- A shift that loses nothing multiplies. -/
theorem toNat_shiftLeft_of_lt {a shift : UInt32} (hshift : shift.toNat < 32)
    (ha : a.toNat * 2 ^ shift.toNat < 2 ^ 32) : (a <<< shift).toNat = a.toNat <<< shift.toNat := by
  rw [UInt32.toNat_shiftLeft, Nat.mod_eq_of_lt hshift]
  refine Nat.mod_eq_of_lt ?_
  rwa [Nat.shiftLeft_eq]

/-- Numbers at the places of the fields have no bit in common, so their union is their sum. -/
theorem or_fields {d t n s : Nat} (ht : t < 2 ^ 8) (hn : n < 2 ^ 8) (hs : s < 2 ^ 14) :
    d <<< 30 ||| t <<< 8 ||| n ||| s <<< 16 = d * 2 ^ 30 + s * 2 ^ 16 + t * 2 ^ 8 + n := by
  have hlow : t <<< 8 + n < 2 ^ 16 := by
    rw [Nat.shiftLeft_eq]
    omega
  have hmiddle : s <<< 16 + (t <<< 8 + n) < 2 ^ 30 := by
    simp only [Nat.shiftLeft_eq]
    omega
  calc d <<< 30 ||| t <<< 8 ||| n ||| s <<< 16
    -- from the top field down, each goes above what is below it
    _ = d <<< 30 ||| (s <<< 16 ||| (t <<< 8 ||| n)) := by
      rw [Nat.or_assoc, Nat.or_assoc, ← Nat.or_assoc (t <<< 8), Nat.or_comm (t <<< 8 ||| n)]
    _ = d <<< 30 + (s <<< 16 + (t <<< 8 + n)) := by
      rw [← Nat.shiftLeft_add_eq_or_of_lt hn, ← Nat.shiftLeft_add_eq_or_of_lt hlow,
        ← Nat.shiftLeft_add_eq_or_of_lt hmiddle]
    _ = d * 2 ^ 30 + s * 2 ^ 16 + t * 2 ^ 8 + n := by
      simp only [Nat.shiftLeft_eq, Nat.add_assoc]

/-- A request is the sum of its fields at their places. -/
theorem toNat_pack {dir typ nr sz : UInt32} (hdir : dir < 4) (htype : typ < 256) (hnumber : nr < 256)
    (hsize : sz < 2 ^ 14) :
    (pack dir typ nr sz).toNat = dir.toNat * 2 ^ 30 + sz.toNat * 2 ^ 16 + typ.toNat * 2 ^ 8 + nr.toNat := by
  have hdir : dir.toNat < 4 := UInt32.lt_iff_toNat_lt.mp hdir
  have htype : typ.toNat < 256 := UInt32.lt_iff_toNat_lt.mp htype
  have hnumber : nr.toNat < 256 := UInt32.lt_iff_toNat_lt.mp hnumber
  have hsize : sz.toNat < 2 ^ 14 := UInt32.lt_iff_toNat_lt.mp hsize
  have hdir' : (dir <<< 30).toNat = dir.toNat <<< 30 :=
    toNat_shiftLeft_of_lt (by decide) (by simp only [UInt32.reduceToNat]; omega)
  have htype' : (typ <<< 8).toNat = typ.toNat <<< 8 :=
    toNat_shiftLeft_of_lt (by decide) (by simp only [UInt32.reduceToNat]; omega)
  have hsize' : (sz <<< 16).toNat = sz.toNat <<< 16 :=
    toNat_shiftLeft_of_lt (by decide) (by simp only [UInt32.reduceToNat]; omega)
  rw [pack, UInt32.toNat_or, UInt32.toNat_or, UInt32.toNat_or, hdir', htype', hsize']
  exact or_fields htype hnumber hsize

/-- The fields of a request fit. -/
theorem fields_lt (r : Request) : direction r < 4 ∧ type r < 256 ∧ number r < 256 ∧ size r < 2 ^ 14 := by
  have hr := r.toNat_lt
  refine ⟨UInt32.lt_iff_toNat_lt.mpr ?_, UInt32.lt_iff_toNat_lt.mpr ?_, UInt32.lt_iff_toNat_lt.mpr ?_,
    UInt32.lt_iff_toNat_lt.mpr ?_⟩
  · rw [toNat_direction]
    exact Nat.div_lt_of_lt_mul hr
  · rw [toNat_type]
    exact Nat.mod_lt _ (by decide)
  · rw [toNat_number]
    exact Nat.mod_lt _ (by decide)
  · rw [toNat_size]
    exact Nat.mod_lt _ (by decide)

/-- Fields that fit are read back. -/
theorem fields_pack {dir typ nr sz : UInt32} (hdir : dir < 4) (htype : typ < 256) (hnumber : nr < 256)
    (hsize : sz < 2 ^ 14) :
    type (pack dir typ nr sz) = typ ∧ number (pack dir typ nr sz) = nr ∧ size (pack dir typ nr sz) = sz ∧
      direction (pack dir typ nr sz) = dir := by
  have hpack := toNat_pack hdir htype hnumber hsize
  have htype : typ.toNat < 256 := UInt32.lt_iff_toNat_lt.mp htype
  have hnumber : nr.toNat < 256 := UInt32.lt_iff_toNat_lt.mp hnumber
  have hsize : sz.toNat < 2 ^ 14 := UInt32.lt_iff_toNat_lt.mp hsize
  refine ⟨UInt32.toNat_inj.mp ?_, UInt32.toNat_inj.mp ?_, UInt32.toNat_inj.mp ?_, UInt32.toNat_inj.mp ?_⟩
  · rw [toNat_type, hpack]
    omega
  · rw [toNat_number, hpack]
    omega
  · rw [toNat_size, hpack]
    omega
  · rw [toNat_direction, hpack]
    omega

/-- A request is packed from its own fields. -/
theorem pack_surjective (r : Request) : pack (direction r) (type r) (number r) (size r) = r := by
  obtain ⟨hdir, htype, hnumber, hsize⟩ := fields_lt r
  refine UInt32.toNat_inj.mp ?_
  rw [toNat_pack hdir htype hnumber hsize, toNat_direction, toNat_type, toNat_number, toNat_size]
  omega

/-! ## Function numbers -/

theorem toNat_headerId {r : Request} (h : 0x80 ≤ type r) :
    (headerId r).toNat = ((type r).toNat - 0x80) * 256 + (number r).toNat := by
  have htype : (type r).toNat < 256 := UInt32.lt_iff_toNat_lt.mp (fields_lt r).2.1
  have hnumber : (number r).toNat < 256 := UInt32.lt_iff_toNat_lt.mp (fields_lt r).2.2.1
  have hcount : (type r - 0x80).toNat = (type r).toNat - 0x80 := UInt32.toNat_sub_of_le _ _ h
  rw [headerId, UInt32.toNat_add, UInt32.toNat_mul, hcount]
  simp only [UInt32.reduceToNat]
  omega

/-- From type `0x80` on the function number stands for the type and the command number, and for nothing else. -/
theorem headerId_eq_iff {r s : Request} (hr : 0x80 ≤ type r) (hs : 0x80 ≤ type s) :
    headerId r = headerId s ↔ type r = type s ∧ number r = number s := by
  have hnumber : (number r).toNat < 256 := UInt32.lt_iff_toNat_lt.mp (fields_lt r).2.2.1
  have hnumber' : (number s).toNat < 256 := UInt32.lt_iff_toNat_lt.mp (fields_lt s).2.2.1
  have hr' : 0x80 ≤ (type r).toNat := UInt32.le_iff_toNat_le.mp hr
  have hs' : 0x80 ≤ (type s).toNat := UInt32.le_iff_toNat_le.mp hs
  simp only [← UInt32.toNat_inj]
  rw [toNat_headerId hr, toNat_headerId hs]
  omega

/-- Fields that fit are read back from the request that they are packed into, so no two choices of fields make one
request; every word is the request of its own fields; and from type `0x80` on the function number of a request tells
its type and its command number, and depends on nothing else. -/
theorem pack_decodes :
    (∀ dir typ nr sz : UInt32, dir < 4 → typ < 256 → nr < 256 → sz < 2 ^ 14 →
      type (pack dir typ nr sz) = typ ∧ number (pack dir typ nr sz) = nr ∧ size (pack dir typ nr sz) = sz ∧
        direction (pack dir typ nr sz) = dir) ∧
    (∀ dir typ nr sz dir' typ' nr' sz' : UInt32, dir < 4 → typ < 256 → nr < 256 → sz < 2 ^ 14 →
      dir' < 4 → typ' < 256 → nr' < 256 → sz' < 2 ^ 14 → pack dir typ nr sz = pack dir' typ' nr' sz' →
        dir = dir' ∧ typ = typ' ∧ nr = nr' ∧ sz = sz') ∧
    (∀ r : Request, pack (direction r) (type r) (number r) (size r) = r) ∧
    ∀ r s : Request, 0x80 ≤ type r → 0x80 ≤ type s →
      (headerId r = headerId s ↔ type r = type s ∧ number r = number s) := by
  refine ⟨fun _ _ _ _ => fields_pack, ?_, pack_surjective, fun _ _ => headerId_eq_iff⟩
  intro dir typ nr sz dir' typ' nr' sz' hdir htype hnumber hsize hdir' htype' hnumber' hsize' heq
  obtain ⟨ht, hn, hs, hd⟩ := fields_pack hdir htype hnumber hsize
  obtain ⟨ht', hn', hs', hd'⟩ := fields_pack hdir' htype' hnumber' hsize'
  rw [heq] at ht hn hs hd
  exact ⟨hd.symm.trans hd', ht.symm.trans ht', hn.symm.trans hn', hs.symm.trans hs'⟩

/-- The largest fields; and two functions of the oldest generation, asked for with different sizes. -/
theorem pack_decodes_sample :
    size (pack 3 255 255 16383) = 16383 ∧ 0x80 ≤ type (readWrite 0x82 28 24) ∧ 0x80 ≤ type (readWrite 0x82 18 16) ∧
      headerId (readWrite 0x82 28 24) ≠ headerId (readWrite 0x82 18 16) := by
  obtain ⟨hfields, -, -, hheader⟩ := pack_decodes
  have hread : 0x80 ≤ type (readWrite 0x82 28 24) := by decide
  have hread' : 0x80 ≤ type (readWrite 0x82 18 16) := by decide
  refine ⟨(hfields 3 255 255 16383 (by decide) (by decide) (by decide) (by decide)).2.2.1, hread, hread', fun heq => ?_⟩
  exact absurd ((hheader _ _ hread hread').mp heq).2 (by decide)

end Mali.Abi.Request
