import Mali.Error
import Mali.Properties
import Mali.Proofs.Records

/-!
# Property streams

A stream of properties is a list of entries, each a key and a value whose width the key tells, and
perhaps an entry at the end that is cut off.  Looking up a name walks the entries: it finds the value of
the first one with the name, and never takes more bytes than are there.

So a stream can be cut anywhere.  The entries before the cut are found as before, and nothing behind it
is, because what is left of the entry that was cut is too short to be one.

* `Property.Entry`, `Property.encode`: entries, and the stream of a list of them.
* `Property.Entry.toNat_key`: a name and a width can be told from their key.
* `findProperty_encode_append`: a walk over entries.
* `Property.IsCut`, `Property.exists_encode`: every stream is made of entries, up to one that is cut off.
* `findPropertyChecked`: the walk with every read checked.
* `findProperty_stream`: the main result.
-/

namespace Mali

theorem valueWidth_eq (key : Nat) : valueWidth key = 2 ^ (key % 4) := Nat.one_shiftLeft _

namespace Property

/-- A property with a value that fits its width. -/
structure Entry where
  name : UInt32
  /-- The binary logarithm of the width of the value in bytes. -/
  sizeLog2 : UInt32
  value : UInt64
  name_lt : name.toNat < 2 ^ 30
  sizeLog2_lt : sizeLog2.toNat < 4
  value_lt : value.toNat < 256 ^ 2 ^ sizeLog2.toNat

namespace Entry

/-- The key and the value of an entry. -/
def bytes (e : Entry) : List UInt8 :=
  leBytes 4 (key e.name e.sizeLog2).toNat ++ leBytes (2 ^ e.sizeLog2.toNat) e.value.toNat

@[simp] theorem length_bytes (e : Entry) : e.bytes.length = 4 + 2 ^ e.sizeLog2.toNat := by
  rw [bytes, List.length_append, length_leBytes, length_leBytes]

theorem four_lt_length (e : Entry) : 4 < e.bytes.length := by
  have hwidth := Nat.two_pow_pos e.sizeLog2.toNat
  rw [length_bytes]
  omega

/-- The name stands above the two bits of the width. -/
theorem toNat_key (e : Entry) : (key e.name e.sizeLog2).toNat = 4 * e.name.toNat + e.sizeLog2.toNat := by
  have hname := e.name_lt
  have hsize := e.sizeLog2_lt
  have hmask : e.sizeLog2.toNat &&& 3 = e.sizeLog2.toNat := by
    rw [show 3 = 2 ^ 2 - 1 from rfl, Nat.and_two_pow_sub_one_eq_mod]
    exact Nat.mod_eq_of_lt hsize
  have hshift : e.name.toNat <<< 2 % 2 ^ 32 = e.name.toNat <<< 2 := by
    rw [Nat.shiftLeft_eq]
    omega
  rw [key, UInt32.toNat_or, UInt32.toNat_shiftLeft, UInt32.toNat_and]
  simp only [UInt32.reduceToNat, Nat.reduceMod, hmask, hshift]
  rw [← Nat.shiftLeft_add_eq_or_of_lt hsize, Nat.shiftLeft_eq]
  omega

theorem valueWidth_key (e : Entry) : valueWidth (key e.name e.sizeLog2).toNat = 2 ^ e.sizeLog2.toNat := by
  have hsize := e.sizeLog2_lt
  rw [valueWidth_eq, toNat_key]
  congr 1
  omega

theorem key_div (e : Entry) : (key e.name e.sizeLog2).toNat / 4 = e.name.toNat := by
  have hsize := e.sizeLog2_lt
  rw [toNat_key]
  omega

/-- Reading the first bytes of an entry gives its key. -/
theorem ofLE_take_bytes (e : Entry) (rest : List UInt8) :
    ofLE ((e.bytes ++ rest).take 4) = (key e.name e.sizeLog2).toNat := by
  rw [bytes, List.append_assoc, List.take_left' (length_leBytes 4 _), ofLE_leBytes]
  exact Nat.mod_eq_of_lt (key e.name e.sizeLog2).toNat_lt

theorem drop_bytes (e : Entry) (rest : List UInt8) :
    (e.bytes ++ rest).drop 4 = leBytes (2 ^ e.sizeLog2.toNat) e.value.toNat ++ rest := by
  rw [bytes, List.append_assoc, List.drop_left' (length_leBytes 4 _)]

end Entry

/-- The stream of some entries. -/
def encode (es : List Entry) : List UInt8 := es.flatMap Entry.bytes

theorem encode_append (es es' : List Entry) : encode (es ++ es') = encode es ++ encode es' :=
  List.flatMap_append

theorem encode_singleton (e : Entry) : encode [e] = e.bytes := List.flatMap_singleton _ _

/-- The value of the first of some entries with a name. -/
def value? (es : List Entry) (name : UInt32) : Option UInt64 :=
  (es.find? fun e => e.name = name).map Entry.value

/-- Bytes that are too few for an entry. -/
def IsCut (bytes : List UInt8) : Prop :=
  bytes.length < 4 ∨ (bytes.drop 4).length < valueWidth (ofLE (bytes.take 4))

end Property

open Property

/-! ## Walking over entries -/

/-- A walk looks at the entry at the front, or goes on behind it. -/
theorem findProperty_bytes_append (name : UInt32) (e : Entry) (rest : List UInt8) :
    findProperty name (e.bytes ++ rest) = if e.name = name then some e.value else findProperty name rest := by
  have hlong : ¬ (e.bytes ++ rest).length < 4 := by
    have hfour := e.four_lt_length
    rw [List.length_append]
    omega
  have hvalue : ofLE (leBytes (2 ^ e.sizeLog2.toNat) e.value.toNat) = e.value.toNat := by
    rw [ofLE_leBytes, Nat.mod_eq_of_lt e.value_lt]
  rw [findProperty, if_neg hlong]
  simp only [e.ofLE_take_bytes, e.drop_bytes, e.valueWidth_key, e.key_div, List.length_append, length_leBytes,
    List.take_left' (length_leBytes (2 ^ e.sizeLog2.toNat) _),
    List.drop_left' (length_leBytes (2 ^ e.sizeLog2.toNat) _), hvalue, UInt64.ofNat_toNat, UInt32.toNat_inj]
  exact if_neg (Nat.not_lt.mpr (Nat.le_add_right _ _))

/-- What a walk finds in some entries, or behind them. -/
theorem findProperty_encode_append (name : UInt32) (es : List Entry) (rest : List UInt8) :
    findProperty name (encode es ++ rest) = (value? es name).or (findProperty name rest) := by
  induction es with
  | nil => rfl
  | cons e es ih =>
    have hcons : encode (e :: es) ++ rest = e.bytes ++ (encode es ++ rest) := by
      rw [encode, List.flatMap_cons, List.append_assoc, encode]
    rw [hcons, findProperty_bytes_append, value?, List.find?_cons]
    by_cases hname : e.name = name
    · simp [hname]
    · simp [hname, ih, value?]

theorem findProperty_of_isCut {bytes : List UInt8} (h : IsCut bytes) (name : UInt32) :
    findProperty name bytes = none := by
  rw [findProperty]
  rcases h with h | h
  · rw [if_pos h]
  · split
    · rfl
    · exact if_pos h

/-- A walk over entries and an entry that is cut off finds what is in the entries. -/
theorem findProperty_encode_cut {rest : List UInt8} (h : IsCut rest) (es : List Entry) (name : UInt32) :
    findProperty name (encode es ++ rest) = value? es name := by
  rw [findProperty_encode_append, findProperty_of_isCut h, Option.or_none]

namespace Property

theorem isCut_nil : IsCut [] := .inl (by decide)

/-- What is left of an entry is not one. -/
theorem isCut_take_bytes (e : Entry) {k : Nat} (h : k < e.bytes.length) : IsCut (e.bytes.take k) := by
  have hk := h
  rw [Entry.length_bytes] at hk
  by_cases hshort : k < 4
  · refine .inl ?_
    rw [List.length_take]
    omega
  · refine .inr ?_
    have hkey := e.ofLE_take_bytes []
    rw [List.append_nil] at hkey
    rw [List.take_take, Nat.min_eq_left (Nat.not_lt.mp hshort), hkey, e.valueWidth_key, List.length_drop,
      List.length_take]
    omega

/-- Any key, with a value of the width that it tells, makes an entry. -/
theorem exists_bytes_eq {k v : Nat} (hk : k < 2 ^ 32) (hv : v < 256 ^ valueWidth k) :
    ∃ e : Entry, e.bytes = leBytes 4 k ++ leBytes (valueWidth k) v := by
  rw [valueWidth_eq] at hv ⊢
  have hwidth : 2 ^ (k % 4) ≤ 8 :=
    Nat.pow_le_pow_right (by decide) (Nat.le_of_lt_succ (Nat.mod_lt k (by decide)))
  have hname : (UInt32.ofNat (k / 4)).toNat = k / 4 :=
    UInt32.toNat_ofNat_of_lt' (Nat.lt_of_le_of_lt (Nat.div_le_self k 4) hk)
  have hsize : (UInt32.ofNat (k % 4)).toNat = k % 4 :=
    UInt32.toNat_ofNat_of_lt' (Nat.lt_of_le_of_lt (Nat.mod_le k 4) hk)
  have hvalue : (UInt64.ofNat v).toNat = v :=
    UInt64.toNat_ofNat_of_lt' (Nat.lt_of_lt_of_le hv (Nat.pow_le_pow_right (by decide) hwidth))
  let e : Entry :=
    { name := UInt32.ofNat (k / 4), sizeLog2 := UInt32.ofNat (k % 4), value := UInt64.ofNat v
      name_lt := by rw [hname]; omega
      sizeLog2_lt := by rw [hsize]; omega
      value_lt := by rw [hsize, hvalue]; exact hv }
  have hkey : (key e.name e.sizeLog2).toNat = k := by
    rw [e.toNat_key]
    show 4 * (UInt32.ofNat (k / 4)).toNat + (UInt32.ofNat (k % 4)).toNat = k
    rw [hname, hsize]
    omega
  refine ⟨e, ?_⟩
  rw [Entry.bytes, hkey]
  show _ ++ leBytes (2 ^ (UInt32.ofNat (k % 4)).toNat) (UInt64.ofNat v).toNat = _
  rw [hsize, hvalue]

/-- A stream that is not cut begins with an entry. -/
theorem exists_entry {bytes : List UInt8} (h : ¬ IsCut bytes) :
    ∃ (e : Entry) (rest : List UInt8), bytes = e.bytes ++ rest := by
  obtain ⟨hfront, hback⟩ := not_or.mp h
  have hfront := List.length_take_of_le (Nat.not_lt.mp hfront)
  have hback := List.length_take_of_le (Nat.not_lt.mp hback)
  have hk := ofLE_lt (bytes.take 4)
  have hv := ofLE_lt ((bytes.drop 4).take (valueWidth (ofLE (bytes.take 4))))
  rw [hfront] at hk
  rw [hback] at hv
  obtain ⟨e, he⟩ := exists_bytes_eq hk hv
  have hkey := leBytes_ofLE (bytes.take 4)
  have hvalue := leBytes_ofLE ((bytes.drop 4).take (valueWidth (ofLE (bytes.take 4))))
  rw [hfront] at hkey
  rw [hback] at hvalue
  refine ⟨e, (bytes.drop 4).drop (valueWidth (ofLE (bytes.take 4))), ?_⟩
  rw [he, hkey, hvalue, List.append_assoc, List.take_append_drop, List.take_append_drop]

/-- Every stream is made of entries, up to one that is cut off. -/
theorem exists_encode (bytes : List UInt8) :
    ∃ (es : List Entry) (rest : List UInt8), IsCut rest ∧ bytes = encode es ++ rest := by
  by_cases hcut : IsCut bytes
  · exact ⟨[], bytes, hcut, rfl⟩
  · obtain ⟨e, tail, hbytes⟩ := exists_entry hcut
    obtain ⟨es, rest, hrest, htail⟩ := exists_encode tail
    exact ⟨e :: es, rest, hrest, by rw [hbytes, htail, encode, encode, List.flatMap_cons, List.append_assoc]⟩
termination_by bytes.length
decreasing_by
  have hfour := e.four_lt_length
  rw [hbytes, List.length_append]
  omega

end Property

/-! ## Reading with every bound checked -/

/-- The first `w` bytes as a number, and the bytes behind them.  It crashes if there are not so many. -/
def readWord (w : Nat) (bytes : List UInt8) : Except Halt (Nat × List UInt8) :=
  if w ≤ bytes.length then .ok (ofLE (bytes.take w), bytes.drop w) else .error .crash

theorem readWord_ok {w n : Nat} {bytes rest : List UInt8} (h : readWord w bytes = .ok (n, rest)) :
    w ≤ bytes.length ∧ n = ofLE (bytes.take w) ∧ rest = bytes.drop w := by
  unfold readWord at h
  split at h
  · cases h
    exact ⟨‹_›, rfl, rfl⟩
  · cases h

theorem readWord_error {w : Nat} {bytes : List UInt8} {e : Halt} (h : readWord w bytes = .error e) :
    bytes.length < w := by
  unfold readWord at h
  split at h
  · cases h
  · exact Nat.not_le.mp ‹_›

/-- The walk of `findProperty` with every read checked. -/
def findPropertyChecked (name : UInt32) (bytes : List UInt8) : Except Halt (Option UInt64) :=
  if bytes.length < 4 then .ok none
  else
    match _hkey : readWord 4 bytes with
    | .error e => .error e
    | .ok (key, tail) =>
      if tail.length < valueWidth key then .ok none
      else
        match _hvalue : readWord (valueWidth key) tail with
        | .error e => .error e
        | .ok (value, rest) =>
          if key / 4 = name.toNat then .ok (some (UInt64.ofNat value)) else findPropertyChecked name rest
termination_by bytes.length
decreasing_by
  obtain ⟨hfour, -, htail⟩ := readWord_ok _hkey
  rw [(readWord_ok _hvalue).2.2, htail, List.length_drop, List.length_drop]
  exact Nat.lt_of_le_of_lt (Nat.sub_le _ _) (Nat.sub_lt (Nat.lt_of_lt_of_le (by decide) hfour) (by decide))

/-- No read of a walk goes past the end. -/
theorem findPropertyChecked_eq (name : UInt32) (bytes : List UInt8) :
    findPropertyChecked name bytes = .ok (findProperty name bytes) := by
  fun_induction findPropertyChecked name bytes with
  | case1 bytes hshort => rw [findProperty, if_pos hshort]
  | case2 bytes hlong e hkey => exact absurd (readWord_error hkey) hlong
  | case3 bytes hlong key tail hkey hshort =>
    obtain ⟨-, rfl, rfl⟩ := readWord_ok hkey
    rw [findProperty, if_neg hlong]
    exact congrArg _ (if_pos hshort).symm
  | case4 bytes hlong key tail hkey hlong' e hvalue => exact absurd (readWord_error hvalue) hlong'
  | case5 bytes hlong key tail hkey hlong' value rest hvalue hname =>
    obtain ⟨-, rfl, rfl⟩ := readWord_ok hkey
    obtain ⟨-, rfl, rfl⟩ := readWord_ok hvalue
    rw [findProperty, if_neg hlong]
    simp only [if_neg hlong', if_pos hname]
  | case6 bytes hlong key tail hkey hlong' value rest hvalue hname ih =>
    obtain ⟨-, rfl, rfl⟩ := readWord_ok hkey
    obtain ⟨-, rfl, rfl⟩ := readWord_ok hvalue
    rw [ih, findProperty.eq_def name bytes, if_neg hlong]
    simp only [if_neg hlong', if_neg hname]

/-! ## Streams that grow and streams that are cut -/

/-- What is found is still found when there is more behind it. -/
theorem findProperty_append {name : UInt32} {bytes : List UInt8} {value : UInt64}
    (h : findProperty name bytes = some value) (more : List UInt8) :
    findProperty name (bytes ++ more) = some value := by
  obtain ⟨es, rest, hcut, rfl⟩ := exists_encode bytes
  rw [findProperty_encode_cut hcut] at h
  rw [List.append_assoc, findProperty_encode_append, h, Option.some_or]

/-- A stream that is cut before or in an entry has the entries before that one. -/
theorem findProperty_take (before : List Entry) (e : Entry) (rest : List UInt8) {p : Nat}
    (hle : (encode before).length ≤ p) (hlt : p < (encode (before ++ [e])).length) (name : UInt32) :
    findProperty name ((encode (before ++ [e]) ++ rest).take p) = value? before name := by
  obtain ⟨k, rfl⟩ := Nat.exists_eq_add_of_le hle
  rw [encode_append, encode_singleton] at hlt ⊢
  rw [List.length_append] at hlt
  have hk : k < e.bytes.length := by omega
  rw [List.append_assoc, List.take_length_add_append, List.take_append_of_le_length (Nat.le_of_lt hk)]
  exact findProperty_encode_cut (isCut_take_bytes e hk) before name

/-- In the stream of some entries each name has the value of the first entry with it, and other names
have none.  In any bytes, a walk does not read past the end; what it finds is still found when there is
more behind it; and if the bytes are cut before or in an entry, then what was before it is found as in a
stream of those entries alone, and nothing else is.  Any bytes are entries and perhaps one that is cut. -/
theorem findProperty_stream :
    (∀ (es : List Entry) (name : UInt32), findProperty name (encode es) = value? es name) ∧
    (∀ (bytes : List UInt8) (name : UInt32), findPropertyChecked name bytes = .ok (findProperty name bytes)) ∧
    (∀ (bytes more : List UInt8) (name : UInt32) (value : UInt64), findProperty name bytes = some value →
      findProperty name (bytes ++ more) = some value) ∧
    (∀ (before : List Entry) (e : Entry) (rest : List UInt8) (p : Nat), (encode before).length ≤ p →
      p < (encode (before ++ [e])).length → ∀ name,
        findProperty name ((encode (before ++ [e]) ++ rest).take p) = value? before name) ∧
    ∀ bytes : List UInt8, ∃ (es : List Entry) (rest : List UInt8), bytes = encode es ++ rest ∧ IsCut rest ∧
      ∀ name, findProperty name bytes = value? es name := by
  refine ⟨fun es name => ?_, fun bytes name => findPropertyChecked_eq name bytes,
    fun _ more _ _ h => findProperty_append h more,
    fun before e rest _ hle hlt name => findProperty_take before e rest hle hlt name, fun bytes => ?_⟩
  · rw [← findProperty_encode_cut isCut_nil es name, List.append_nil]
  · obtain ⟨es, rest, hcut, rfl⟩ := exists_encode bytes
    exact ⟨es, rest, rfl, hcut, findProperty_encode_cut hcut es⟩

/-- A property with a value of one byte, and one with a value of eight. -/
def narrow : Entry := ⟨5, 0, 0x7f, by decide, by decide, by decide⟩
@[inherit_doc narrow] def wide : Entry := ⟨9, 3, 0x1122334455667788, by decide, by decide, by decide⟩

/-- A stream that is cut in its second entry has the first one, and keeps it if something else follows. -/
theorem findProperty_stream_cut :
    (encode [narrow]).length = 5 ∧ (encode [narrow, wide]).length = 17 ∧
    findProperty 5 ((encode [narrow, wide]).take 16) = some 0x7f ∧
    findProperty 9 ((encode [narrow, wide]).take 16) = none ∧
    findProperty 5 ((encode [narrow, wide]).take 16 ++ encode [wide]) = some 0x7f := by
  obtain ⟨-, -, hmore, hcut, -⟩ := findProperty_stream
  have hsplit : encode [narrow, wide] = encode ([narrow] ++ [wide]) ++ [] := (List.append_nil _).symm
  have hfive : findProperty 5 ((encode [narrow, wide]).take 16) = some 0x7f := by
    rw [hsplit, hcut [narrow] wide [] 16 (by decide) (by decide) 5]
    decide
  have hnine : findProperty 9 ((encode [narrow, wide]).take 16) = none := by
    rw [hsplit, hcut [narrow] wide [] 16 (by decide) (by decide) 9]
    decide
  exact ⟨by decide, by decide, hfive, hnine, hmore _ _ 5 0x7f hfive⟩

end Mali
