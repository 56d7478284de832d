import Mali.Buffer
import Mathlib

/-!
# Texts of flags

The text of a word of flags is the names of its set bits, joined by bars from the lowest bit to the highest one.
Where the names of single bits can be told apart, from each other and from numbers, the parts of the text between
its bars are these names again, so no two words have the same text.  The flags of buffers and those of devices have
such names.

* `positions`: the set bits of a word.
* `FlagNames.write_eq`: what the loop over the bits writes.
* `FlagNames.Apart`: names that tell the bits apart.
* `FlagNames.describe_injective_parts`: a text says which bits are set.
-/

namespace Mali

/-! ## Set bits -/

/-- The set bits of a word, the lowest one first. -/
def positions (n : UInt32) : List Nat :=
  (List.range 32).filter fun i => n.toBitVec.getLsbD i

section

variable {n : UInt32} {i : Nat}

theorem mem_positions : i ∈ positions n ↔ n.toBitVec.getLsbD i = true := by
  rw [positions, List.mem_filter, List.mem_range]
  exact ⟨fun h => h.2, fun h => ⟨BitVec.lt_of_getLsbD h, h⟩⟩

theorem lt_of_mem_positions (h : i ∈ positions n) : i < 32 :=
  BitVec.lt_of_getLsbD (mem_positions.mp h)

theorem positions_sorted (n : UInt32) : (positions n).Pairwise (· < ·) :=
  List.pairwise_lt_range.filter _

@[simp] theorem positions_zero : positions 0 = [] := by
  simp [positions]

/-- What the loop takes away is the first of the set bits. -/
theorem positions_eq_cons (h : n ≠ 0) :
    positions n = n.toBitVec.ctz.toNat :: positions (n &&& ~~~lowestBit n) := by
  have hmem (i : Nat) :
      i ∈ positions (n &&& ~~~lowestBit n) ↔ i ∈ positions n ∧ i ≠ n.toBitVec.ctz.toNat := by
    simp only [mem_positions, getLsbD_and_not_lowestBit h, Bool.and_eq_true, decide_eq_true_eq]
  refine (positions_sorted n).eq_of_mem_iff (List.pairwise_cons.mpr ⟨fun i hi => ?_, positions_sorted _⟩) ?_
  · obtain ⟨hset, hne⟩ := (hmem i).mp hi
    refine lt_of_le_of_ne (not_lt.mp fun hlt => ?_) hne.symm
    rw [mem_positions, BitVec.getLsbD_false_of_lt_ctz hlt] at hset
    contradiction
  · intro i
    rw [List.mem_cons, hmem]
    refine ⟨fun hi => or_iff_not_imp_left.mpr fun hne => ⟨hi, hne⟩, ?_⟩
    rintro (rfl | hi)
    · exact mem_positions.mpr (getLsbD_ctz h)
    · exact hi.1

/-- The word with one bit. -/
def bitAt (i : Nat) : UInt32 := 1 <<< UInt32.ofNat i

theorem lowestBit_eq (n : UInt32) : lowestBit n = bitAt n.toBitVec.ctz.toNat := by
  have hword : UInt32.ofBitVec n.toBitVec.ctz = UInt32.ofNat n.toBitVec.ctz.toNat :=
    UInt32.toNat_inj.mp (UInt32.toNat_ofNat_of_lt' n.toBitVec.ctz.isLt).symm
  rw [lowestBit, bitAt, hword]

theorem toNat_bitAt (h : i < 32) : (bitAt i).toNat = 2 ^ i := by
  have hword : (UInt32.ofNat i).toNat = i := UInt32.toNat_ofNat_of_lt' (h.trans (by decide))
  have hlt : 2 ^ i < 2 ^ 32 := Nat.pow_lt_pow_right (by decide) h
  rw [bitAt, UInt32.toNat_shiftLeft, hword, Nat.mod_eq_of_lt h, UInt32.toNat_one, Nat.one_shiftLeft,
    Nat.mod_eq_of_lt hlt]

end

/-! ## Numbers in hexadecimal -/

/-- The digits of hexadecimal numbers. -/
def hexAlphabet : List Char := "0123456789abcdef".toList

theorem digitChar_mem {n : Nat} : n < 16 → n.digitChar ∈ hexAlphabet := by
  revert n
  decide

theorem digitChar_inj {n : Nat} : n < 16 → ∀ n' < 16, n.digitChar = n'.digitChar → n = n' := by
  revert n
  decide

theorem toDigits_subset (n : Nat) : ∀ c ∈ Nat.toDigits 16 n, c ∈ hexAlphabet := by
  induction n using Nat.strong_induction_on with
  | _ n ih =>
    rw [Nat.toDigits_eq_if (by decide)]
    split
    case isTrue h => exact List.forall_mem_singleton.mpr (digitChar_mem h)
    case isFalse h =>
      refine List.forall_mem_append.mpr ⟨ih (n / 16) (by omega), ?_⟩
      exact List.forall_mem_singleton.mpr (digitChar_mem (Nat.mod_lt n (by decide)))

theorem toDigits_injective : Function.Injective (Nat.toDigits 16) := by
  intro n
  induction n using Nat.strong_induction_on with
  | _ n ih =>
    intro n' h
    rw [Nat.toDigits_eq_if (by decide), Nat.toDigits_eq_if (n := n') (by decide)] at h
    split at h <;> split at h
    case isTrue.isTrue hn hn' => exact digitChar_inj hn n' hn' (List.singleton_inj.mp h)
    case isTrue.isFalse => simp [List.singleton_eq_append_iff] at h
    case isFalse.isTrue => simp [List.append_eq_singleton_iff] at h
    case isFalse.isFalse =>
      -- the last digits are single characters, so the digits in front of them are the same too
      obtain ⟨hhigh, hlow⟩ := List.append_inj' h rfl
      have hdiv := ih (n / 16) (by omega) hhigh
      have hmod := digitChar_inj (Nat.mod_lt n (by decide)) _ (Nat.mod_lt n' (by decide))
        (List.singleton_inj.mp hlow)
      omega

/-- The text of a bit without a name. -/
def hexText (n : Nat) : String := "0x" ++ hexDigits n

theorem toList_hexText (n : Nat) : (hexText n).toList = '0' :: 'x' :: Nat.toDigits 16 n := by
  rw [hexText, hexDigits, String.toList_append, String.toList_ofList]
  simp

theorem hexText_injective : Function.Injective hexText := by
  intro n n' h
  have hlist := congrArg String.toList h
  simpa only [toList_hexText, List.cons.injEq, true_and, toDigits_injective.eq_iff] using hlist

/-- Whether a text looks like a number in hexadecimal. -/
def isHexText (text : String) : Bool :=
  match text.toList with
  | '0' :: 'x' :: digits => digits ≠ [] && digits.all (· ∈ hexAlphabet)
  | _ => false

theorem isHexText_hexText (n : Nat) : isHexText (hexText n) = true := by
  rw [isHexText, toList_hexText]
  simpa [Nat.toDigits_ne_nil] using toDigits_subset n

/-! ## Names -/

namespace FlagNames

variable {α : Type} [DecidableEq α] [FlagWord α] {m : FlagNames α}

/-- The registered name of a bit. -/
def bitName? (m : FlagNames α) (i : Nat) : Option String :=
  m.name? (FlagWord.ofBits (bitAt i))

/-- The name of a bit, or its value in hexadecimal. -/
def nameAt (m : FlagNames α) (i : Nat) : String :=
  (m.bitName? i).getD ("0x" ++ hexDigits (2 ^ i))

theorem bitName_bitAt {i : Nat} (h : i < 32) : m.bitName (bitAt i) = m.nameAt i := by
  rw [bitName, toNat_bitAt h]
  rfl

/-- The loop joins what was written before, if it was anything, and the names of the bits. -/
theorem write_eq (hne : ∀ i < 32, m.nameAt i ≠ "") (text : String) (remaining : UInt32) :
    m.write text remaining =
      "|".intercalate ((if text = "" then [] else [text]) ++ (positions remaining).map m.nameAt) := by
  induction text, remaining using write.induct m with
  | case1 text =>
    rw [write, if_pos rfl, positions_zero, List.map_nil, List.append_nil]
    split
    case isTrue h => rw [h, String.intercalate_nil]
    case isFalse => rw [String.intercalate_singleton]
  | case2 text remaining h bit text' ih =>
    have hctz : remaining.toBitVec.ctz.toNat < 32 := ctz_lt h
    have hname : m.bitName bit = m.nameAt remaining.toBitVec.ctz.toNat := by
      rw [← bitName_bitAt hctz, ← lowestBit_eq]
    have hsome : text' ++ m.bitName bit ≠ "" := fun he =>
      hne _ hctz (hname ▸ (String.append_eq_empty_iff.mp he).2)
    rw [write, if_neg h]
    refine ih.trans ?_
    rw [if_neg hsome, hname, positions_eq_cons h, List.map_cons]
    by_cases htext : text = ""
    · subst htext
      simp [text', bit]
    · have hbar : text' = text ++ "|" := by
        rw [show text' = if text.isEmpty then text else text.push '|' from rfl, if_neg (by simpa using htext)]
        exact String.push_eq_append '|'
      rw [if_neg htext, hbar, List.singleton_append, List.singleton_append, String.intercalate_cons_cons,
        String.intercalate_cons_append]

/-- Names of single bits that can be told apart: they differ, each of them is a part of a text, and none of them
reads as the empty set or as a number. -/
@[mk_iff]
structure Apart (m : FlagNames α) : Prop where
  distinct : ∀ i < 32, ∀ j < 32, ∀ name ∈ m.bitName? i, name ∈ m.bitName? j → i = j
  nonempty : ∀ i < 32, ∀ name ∈ m.bitName? i, name ≠ ""
  unbarred : ∀ i < 32, ∀ name ∈ m.bitName? i, '|' ∉ name.toList
  notNone : ∀ i < 32, ∀ name ∈ m.bitName? i, name ≠ "None"
  notHex : ∀ i < 32, ∀ name ∈ m.bitName? i, isHexText name = false

namespace Apart

instance : Decidable m.Apart := decidable_of_iff' _ (apart_iff m)

/-- What holds of names and of numbers holds of the text of a bit. -/
theorem nameAt_of {p : String → Prop} {i : Nat} (hname : ∀ name ∈ m.bitName? i, p name)
    (hhex : p (hexText (2 ^ i))) : p (m.nameAt i) := by
  rw [nameAt]
  cases h : m.bitName? i with
  | none => exact hhex
  | some name => exact hname name h

variable (h : m.Apart)

include h

theorem nameAt_ne_empty {i : Nat} (hi : i < 32) : m.nameAt i ≠ "" :=
  nameAt_of (h.nonempty i hi) fun he => by simpa [toList_hexText] using congrArg String.toList he

theorem nameAt_ne_none {i : Nat} (hi : i < 32) : m.nameAt i ≠ "None" :=
  nameAt_of (h.notNone i hi) fun he => by simpa [toList_hexText] using congrArg String.toList he

theorem bar_notMem_nameAt {i : Nat} (hi : i < 32) : '|' ∉ (m.nameAt i).toList := by
  refine nameAt_of (p := fun name => '|' ∉ name.toList) (h.unbarred i hi) fun hmem => ?_
  rw [toList_hexText] at hmem
  have hdigit := toDigits_subset _ '|' (by simpa using hmem)
  exact absurd hdigit (by decide)

/-- No two bits have the same text: two names differ, and so do two numbers, and no name is a number. -/
theorem nameAt_inj {i j : Nat} (hi : i < 32) (hj : j < 32) (heq : m.nameAt i = m.nameAt j) : i = j := by
  simp only [nameAt] at heq
  cases hni : m.bitName? i <;> cases hnj : m.bitName? j <;> rw [hni, hnj] at heq
  case some.some name _ => exact h.distinct i hi j hj name hni (hnj.trans (congrArg some heq.symm))
  case none.none => exact Nat.pow_right_injective le_rfl (hexText_injective heq)
  case some.none name =>
    have hhex := h.notHex i hi name hni
    rw [show name = hexText (2 ^ j) from heq, isHexText_hexText] at hhex
    contradiction
  case none.some name =>
    have hhex := h.notHex j hj name hnj
    rw [show name = hexText (2 ^ i) from heq.symm, isHexText_hexText] at hhex
    contradiction

end Apart

/-- The parts of a text between its bars. -/
def parts (text : String) : List String :=
  (text.split '|').toList.map (·.copy)

theorem parts_describe (h : m.Apart) (value : α) : parts (m.describe value) =
    if FlagWord.bits value = 0 then ["None"] else (positions (FlagWord.bits value)).map m.nameAt := by
  have hparts (l : List String) (hl : ∀ s ∈ l, '|' ∉ s.toList) (hne : l ≠ []) :
      parts ("|".intercalate l) = l := by
    have hsplit := String.toList_split_intercalate hl
    rwa [if_neg hne] at hsplit
  rw [describe]
  split
  case isTrue =>
    rw [← String.intercalate_singleton (s := "|") (t := "None")]
    exact hparts _ (by decide) (by decide)
  case isFalse hbits =>
    rw [write_eq fun i => h.nameAt_ne_empty]
    refine hparts _ (fun s hs => ?_) (by simp [positions_eq_cons hbits])
    obtain ⟨i, hi, rfl⟩ := List.mem_map.mp hs
    exact h.bar_notMem_nameAt (lt_of_mem_positions hi)

/-- A bit is set if and only if its text is a part of the text of the word. -/
theorem nameAt_mem_parts (h : m.Apart) (value : α) {i : Nat} (hi : i < 32) :
    m.nameAt i ∈ parts (m.describe value) ↔ i ∈ positions (FlagWord.bits value) := by
  rw [parts_describe h]
  split
  case isTrue hbits => simp [hbits, h.nameAt_ne_none hi]
  case isFalse =>
    refine ⟨fun hmem => ?_, List.mem_map_of_mem⟩
    obtain ⟨j, hj, heq⟩ := List.mem_map.mp hmem
    exact h.nameAt_inj (lt_of_mem_positions hj) hi heq ▸ hj

/-- With names that can be told apart, no two words have the same text, and the parts of a text are the names of
exactly the set bits, the lowest one first. -/
theorem describe_injective_parts (h : m.Apart) :
    Function.Injective m.describe ∧
      ∀ value, parts (m.describe value) =
        if FlagWord.bits value = 0 then ["None"] else (positions (FlagWord.bits value)).map m.nameAt := by
  refine ⟨fun value value' heq => ?_, parts_describe h⟩
  have hbits : FlagWord.bits value = FlagWord.bits value' := by
    refine UInt32.toBitVec_inj.mp (BitVec.eq_of_getLsbD_eq fun i hi => ?_)
    rw [Bool.eq_iff_iff, ← mem_positions, ← mem_positions, ← nameAt_mem_parts h value hi,
      ← nameAt_mem_parts h value' hi, heq]
  rw [← FlagWord.ofBits_bits value, hbits, FlagWord.ofBits_bits]

/-- Names for some bits of a signed word, its sign among them. -/
def signedNames : FlagNames Int32 :=
  .ofList [(1, "One"), (4, "Four"), (Int32.minValue, "Sign")]

theorem describe_signedNames : signedNames.Apart ∧ Function.Injective signedNames.describe ∧
    parts (signedNames.describe (Int32.minValue + 7)) = ["One", "0x2", "Four", "Sign"] := by
  have hapart : signedNames.Apart := by decide
  obtain ⟨hinjective, hparts⟩ := describe_injective_parts hapart
  exact ⟨hapart, hinjective, (hparts _).trans (by decide)⟩

end FlagNames

theorem BufferFlag.names_apart : BufferFlag.names.Apart := by decide

theorem DeviceFlag.names_apart : DeviceFlag.names.Apart := by decide

end Mali
