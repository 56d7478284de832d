import Mali.Abi.Structs
import Mathlib

/-!
# Records and their bytes

A record is written field by field, with zeros for padding, and read the same way.  Reading looks at the bytes
of the named fields only, so two runs of bytes read as the same record exactly if they differ in padding.  What
the kernel writes over the start of an argument is a record of its own, read from the same bytes.

* `ofLE_leBytes`: reading the bytes of a word.
* `Layout.named`, `clearPadding`: which bytes belong to named fields, and some bytes with the others zero.
* `Fields.places`, `Fields.cells`: the named fields of a record with their offsets, and with their values.
* `Fields.compile`, `Fields.IsTight`: where natural alignment places the fields; tables leave nothing to it.
* `decode_encode`, `encode_decode`, `decode_eq_iff`: writing and reading shapes and fields.
* `structs_roundTrip`: every record of the interface.
-/

namespace Mali

/-! ## Words -/

/-- Reading what was written gives the number modulo the width of the word. -/
theorem ofLE_leBytes (w n : Nat) : ofLE (leBytes w n) = n % 256 ^ w := by
  induction w generalizing n with
  | zero => simp [Nat.mod_one]
  | succ w ih =>
    have hpow : 256 ^ (w + 1) = 256 * 256 ^ w := by rw [Nat.pow_succ, Nat.mul_comm]
    rw [leBytes_succ, ofLE_cons, ih, UInt8.toNat_ofNat', hpow, Nat.mod_mul]

theorem ofLE_lt (bs : List UInt8) : ofLE bs < 256 ^ bs.length := by
  induction bs with
  | nil => simp
  | cons b bs ih =>
    have hb : b.toNat < 256 := b.toNat_lt
    rw [ofLE_cons, List.length_cons, Nat.pow_succ]
    omega

end Mali

namespace Mali.Abi

/-! ## Named bytes -/

mutual

/-- Which bytes of a shape belong to a value; the others are padding. -/
def Layout.named : Layout → List Bool
  | .word bytes _ => List.replicate bytes true
  | .array item count => (List.replicate count item.named).flatten
  | .record fields => fields.named

/-- Which bytes of some fields belong to a value. -/
def Fields.named : Fields → List Bool
  | .done => []
  | .pad bytes rest => List.replicate bytes false ++ rest.named
  | .field _ type rest => type.named ++ rest.named

end

/-- Some bytes with those that belong to no value made zero. -/
def clearPadding (named : List Bool) (bs : List UInt8) : List UInt8 :=
  List.zipWith (fun n b => if n then b else 0) named bs

theorem getElem?_clearPadding {named : List Bool} {bs : List UInt8} {i : Nat} {n : Bool} {b : UInt8}
    (hn : named[i]? = some n) (hb : bs[i]? = some b) :
    (clearPadding named bs)[i]? = some (if n then b else 0) := by
  rw [clearPadding, List.getElem?_zipWith, hn, hb]

theorem length_clearPadding {named : List Bool} {bs : List UInt8} (h : named.length ≤ bs.length) :
    (clearPadding named bs).length = named.length := by
  rw [clearPadding, List.length_zipWith, Nat.min_eq_left h]

/-- A part at the front is cleared on its own. -/
theorem clearPadding_append (named named' : List Bool) (bs : List UInt8) (h : named.length ≤ bs.length) :
    clearPadding (named ++ named') bs =
      clearPadding named bs ++ clearPadding named' (bs.drop named.length) := by
  induction named generalizing bs with
  | nil => rfl
  | cons n named ih =>
    cases bs with
    | nil => simp at h
    | cons b bs =>
      rw [List.length_cons, List.length_cons, Nat.add_le_add_iff_right] at h
      simpa [clearPadding] using ih bs h

theorem clearPadding_true (count : Nat) (bs : List UInt8) :
    clearPadding (List.replicate count true) bs = bs.take count := by
  induction count generalizing bs with
  | zero => rfl
  | succ count ih =>
    cases bs with
    | nil => rfl
    | cons b bs => simpa [clearPadding, List.replicate_succ] using ih bs

theorem clearPadding_false {count : Nat} {bs : List UInt8} (h : count ≤ bs.length) :
    clearPadding (List.replicate count false) bs = List.replicate count 0 := by
  induction count generalizing bs with
  | zero => rfl
  | succ count ih =>
    cases bs with
    | nil => simp at h
    | cons b bs =>
      rw [List.length_cons, Nat.add_le_add_iff_right] at h
      simpa [clearPadding, List.replicate_succ] using ih h

/-- A repeated part is cleared at each of its places. -/
theorem clearPadding_replicate {named : List Bool} {count : Nat} {bs : List UInt8}
    (h : count * named.length ≤ bs.length) :
    clearPadding (List.replicate count named).flatten bs =
      (List.range count).flatMap fun i => clearPadding named (bs.drop (i * named.length)) := by
  induction count generalizing bs with
  | zero => rfl
  | succ count ih =>
    have hone : named.length ≤ bs.length := by
      rw [Nat.succ_mul] at h
      omega
    have hrest : count * named.length ≤ (bs.drop named.length).length := by
      rw [Nat.succ_mul] at h
      rw [List.length_drop]
      omega
    rw [List.replicate_succ, List.flatten_cons, clearPadding_append _ _ _ hone, ih hrest,
      List.range_succ_eq_map, List.flatMap_cons, List.flatMap_map, Nat.zero_mul, List.drop_zero]
    congr 2
    funext i
    rw [List.drop_drop, Nat.succ_mul, Nat.add_comm]

/-- Two runs of bytes are the same but for padding exactly if they agree on the named bytes. -/
theorem clearPadding_eq_iff {named : List Bool} {bs bs' : List UInt8} (h : named.length ≤ bs.length)
    (h' : named.length ≤ bs'.length) :
    clearPadding named bs = clearPadding named bs' ↔
      ∀ i : Nat, named[i]? = some true → bs[i]? = bs'[i]? := by
  have hbyte {cs : List UInt8} (hc : named.length ≤ cs.length) {i : Nat} {n : Bool} (hn : named[i]? = some n) :
      ∃ c, cs[i]? = some c ∧ (clearPadding named cs)[i]? = some (if n then c else 0) := by
    have hi : i < named.length := (List.getElem?_eq_some_iff.mp hn).1
    have hcs := List.getElem?_eq_getElem (Nat.lt_of_lt_of_le hi hc)
    exact ⟨_, hcs, getElem?_clearPadding hn hcs⟩
  constructor
  · intro heq i hi
    obtain ⟨b, hb, hclear⟩ := hbyte h hi
    obtain ⟨b', hb', hclear'⟩ := hbyte h' hi
    rw [heq, hclear'] at hclear
    rw [hb, hb']
    exact hclear.symm
  · intro hsame
    refine List.ext_getElem? fun i => ?_
    cases hn : named[i]? with
    | none =>
      have hi := List.getElem?_eq_none_iff.mp hn
      rw [List.getElem?_eq_none (by rw [length_clearPadding h]; exact hi),
        List.getElem?_eq_none (by rw [length_clearPadding h']; exact hi)]
    | some n =>
      obtain ⟨b, hb, hclear⟩ := hbyte h hn
      obtain ⟨b', hb', hclear'⟩ := hbyte h' hn
      rw [hclear, hclear']
      cases n with
      | false => rfl
      | true =>
        have := hsame i hn
        rw [hb, hb'] at this
        rw [Option.some.inj this]

mutual

theorem Layout.length_named : (l : Layout) → l.named.length = l.size
  | .word bytes _ => by rw [Layout.named, List.length_replicate, Layout.size]
  | .array item count => by
    rw [Layout.named, List.length_flatten, List.map_replicate, List.sum_replicate_nat,
      item.length_named, Layout.size]
  | .record fields => by rw [Layout.named, fields.length_named, Layout.size]

theorem Fields.length_named : (fs : Fields) → fs.named.length = fs.size
  | .done => by rw [Fields.named, Fields.size, List.length_nil]
  | .pad bytes rest => by
    rw [Fields.named, List.length_append, List.length_replicate, rest.length_named, Fields.size]
  | .field _ type rest => by
    rw [Fields.named, List.length_append, type.length_named, rest.length_named, Fields.size]

end

/-! ## Writing -/

/-- Items of one width take up that width each. -/
theorem length_flatMap_of_width {α : Type} {write : α → List UInt8} {width : Nat}
    (h : ∀ a, (write a).length = width) (items : List α) :
    (items.flatMap write).length = items.length * width := by
  induction items with
  | nil => simp
  | cons a items ih =>
    rw [List.flatMap_cons, List.length_append, h, ih, List.length_cons, Nat.succ_mul, Nat.add_comm]

/-- Item `i` of some items of one width begins after the `i` items before it. -/
theorem drop_flatMap_of_width {α : Type} {write : α → List UInt8} {width : Nat}
    (h : ∀ a, (write a).length = width) (items : List α) {i : Nat} (hi : i < items.length)
    (rest : List UInt8) :
    ∃ rest', (items.flatMap write ++ rest).drop (i * width) = write items[i] ++ rest' := by
  refine ⟨(items.drop (i + 1)).flatMap write ++ rest, ?_⟩
  have hsplit : items.flatMap write =
      (items.take i).flatMap write ++ (write items[i] ++ (items.drop (i + 1)).flatMap write) := by
    rw [← List.flatMap_cons, ← List.drop_eq_getElem_cons hi, ← List.flatMap_append,
      List.take_append_drop]
  have hlength : ((items.take i).flatMap write).length = i * width := by
    rw [length_flatMap_of_width h, List.length_take, Nat.min_eq_left (Nat.le_of_lt hi)]
  rw [hsplit, List.append_assoc, List.append_assoc, ← hlength, List.drop_left]

mutual

theorem Layout.length_encode : (l : Layout) → (v : l.Value) → (l.encode v).length = l.size
  | .word bytes _, v => by rw [Layout.encode, length_leBytes, Layout.size]
  | .array item count, v => by
    rw [Layout.encode, length_flatMap_of_width item.length_encode, Vector.length_toList, Layout.size]
  | .record fields, v => by rw [Layout.encode, fields.length_encode, Layout.size]

theorem Fields.length_encode : (fs : Fields) → (v : fs.Value) → (fs.encode v).length = fs.size
  | .done, _ => by rw [Fields.encode, Fields.size, List.length_nil]
  | .pad bytes rest, v => by
    rw [Fields.encode, List.length_append, List.length_replicate, rest.length_encode, Fields.size]
  | .field _ type rest, v => by
    rw [Fields.encode, List.length_append, type.length_encode, rest.length_encode, Fields.size]

end

mutual

/-- Reading what was written gives the value back, whatever follows it. -/
theorem Layout.decode_encode : (l : Layout) → (v : l.Value) → (rest : List UInt8) →
    l.decode (l.encode v ++ rest) = v
  | .word bytes _, v, rest => by
    rw [Layout.encode, Layout.decode, List.take_left' (length_leBytes bytes v.toNat), ofLE_leBytes,
      Nat.mod_eq_of_lt (by simpa [Nat.pow_mul] using v.isLt), BitVec.ofNat_toNat, BitVec.setWidth_eq]
  | .array item count, v, rest => by
    rw [Layout.encode, Layout.decode]
    refine Vector.ext fun i hi => ?_
    rw [Vector.getElem_ofFn]
    have hi' : i < v.toList.length := by rwa [Vector.length_toList]
    obtain ⟨rest', hdrop⟩ := drop_flatMap_of_width item.length_encode v.toList hi' rest
    rw [hdrop, item.decode_encode, Vector.getElem_toList]
  | .record fields, v, rest => by rw [Layout.encode, Layout.decode, fields.decode_encode]

@[inherit_doc Layout.decode_encode]
theorem Fields.decode_encode : (fs : Fields) → (v : fs.Value) → (rest : List UInt8) →
    fs.decode (fs.encode v ++ rest) = v
  | .done, _, _ => rfl
  | .pad bytes fields, v, rest => by
    rw [Fields.encode, Fields.decode, List.append_assoc, List.drop_left' List.length_replicate,
      fields.decode_encode]
  | .field _ type fields, v, rest => by
    rw [Fields.encode, Fields.decode, List.append_assoc, type.decode_encode,
      List.drop_left' (type.length_encode v.1), fields.decode_encode]

end

theorem Fields.decode_encode_self (fs : Fields) (v : fs.Value) : fs.decode (fs.encode v) = v := by
  rw [← List.append_nil (fs.encode v), fs.decode_encode]

/-! ## Reading -/

mutual

/-- Writing what was read gives the bytes back with padding made zero. -/
theorem Layout.encode_decode : (l : Layout) → (bs : List UInt8) → l.size ≤ bs.length →
    l.encode (l.decode bs) = clearPadding l.named bs
  | .word bytes _, bs, h => by
    rw [Layout.size] at h
    have hlength : (bs.take bytes).length = bytes := by rw [List.length_take, Nat.min_eq_left h]
    have hlt : ofLE (bs.take bytes) < 2 ^ (8 * bytes) := by
      have := ofLE_lt (bs.take bytes)
      rwa [hlength, show 256 = 2 ^ 8 from rfl, ← Nat.pow_mul] at this
    rw [Layout.decode, Layout.encode, Layout.named, clearPadding_true, BitVec.toNat_ofNat,
      Nat.mod_eq_of_lt hlt]
    have hback := leBytes_ofLE (bs.take bytes)
    rwa [hlength] at hback
  | .array item count, bs, h => by
    rw [Layout.size] at h
    rw [Layout.decode, Layout.encode, Layout.named,
      clearPadding_replicate (by rwa [item.length_named]), item.length_named, Vector.toList_ofFn,
      List.flatMap_def, List.flatMap_def]
    congr 1
    refine List.ext_getElem (by simp) fun i hi hi' => ?_
    have hlt : i < count := by simpa using hi'
    have hfits : (i + 1) * item.size ≤ count * item.size := Nat.mul_le_mul_right _ hlt
    rw [Nat.succ_mul] at hfits
    have hitem : item.size ≤ (bs.drop (i * item.size)).length := by
      rw [List.length_drop]
      omega
    rw [List.getElem_map, List.getElem_ofFn, List.getElem_map, List.getElem_range]
    exact item.encode_decode _ hitem
  | .record fields, bs, h => by
    rw [Layout.decode, Layout.encode, Layout.named, fields.encode_decode bs (by rwa [Layout.size] at h)]

@[inherit_doc Layout.encode_decode]
theorem Fields.encode_decode : (fs : Fields) → (bs : List UInt8) → fs.size ≤ bs.length →
    fs.encode (fs.decode bs) = clearPadding fs.named bs
  | .done, _, _ => by
    rw [Fields.decode, Fields.encode, Fields.named]
    rfl
  | .pad bytes fields, bs, h => by
    rw [Fields.size] at h
    rw [Fields.decode, Fields.encode, Fields.named,
      clearPadding_append _ _ _ (by rw [List.length_replicate]; omega), clearPadding_false (by omega),
      List.length_replicate, fields.encode_decode _ (by rw [List.length_drop]; omega)]
  | .field _ type fields, bs, h => by
    rw [Fields.size] at h
    rw [Fields.decode, Fields.encode, Fields.named,
      clearPadding_append _ _ _ (by rw [type.length_named]; omega), type.encode_decode _ (by omega),
      type.length_named, fields.encode_decode _ (by rw [List.length_drop]; omega)]

end

/-- Two runs of bytes are read as the same values exactly if they agree on the bytes of the named fields. -/
theorem Fields.decode_eq_iff (fs : Fields) {bs bs' : List UInt8} (h : fs.size ≤ bs.length)
    (h' : fs.size ≤ bs'.length) :
    fs.decode bs = fs.decode bs' ↔ ∀ i : Nat, fs.named[i]? = some true → bs[i]? = bs'[i]? := by
  rw [← clearPadding_eq_iff (by rwa [fs.length_named]) (by rwa [fs.length_named]),
    ← fs.encode_decode bs h, ← fs.encode_decode bs' h']
  constructor
  · exact congrArg fs.encode
  · intro heq
    rw [← fs.decode_encode_self (fs.decode bs), heq, fs.decode_encode_self]

/-- Padding is written as zeros. -/
theorem Fields.getElem?_encode_of_padding (fs : Fields) (v : fs.Value) {i : Nat}
    (hi : fs.named[i]? = some false) : (fs.encode v)[i]? = some 0 := by
  have hi' : i < (fs.encode v).length := by
    rw [fs.length_encode, ← fs.length_named]
    exact (List.getElem?_eq_some_iff.mp hi).1
  have hclear := getElem?_clearPadding hi (List.getElem?_eq_getElem hi')
  rwa [← fs.encode_decode _ (Nat.le_of_eq (fs.length_encode v).symm), fs.decode_encode_self]
    at hclear

mutual

/-- Only as many bytes are read as a shape has. -/
theorem Layout.decode_take : (l : Layout) → (bs : List UInt8) → (n : Nat) → l.size ≤ n →
    l.decode (bs.take n) = l.decode bs
  | .word bytes _, bs, n, h => by
    rw [Layout.size] at h
    rw [Layout.decode, Layout.decode, List.take_take, Nat.min_eq_left h]
  | .array item count, bs, n, h => by
    rw [Layout.size] at h
    rw [Layout.decode, Layout.decode]
    refine Vector.ext fun i hi => ?_
    have hfits : (i + 1) * item.size ≤ count * item.size := Nat.mul_le_mul_right _ hi
    rw [Nat.succ_mul] at hfits
    have hitem : item.size ≤ n - i * item.size := by omega
    rw [Vector.getElem_ofFn, Vector.getElem_ofFn, List.drop_take]
    exact item.decode_take _ _ hitem
  | .record fields, bs, n, h => by
    rw [Layout.decode, Layout.decode, fields.decode_take bs n (by rwa [Layout.size] at h)]

@[inherit_doc Layout.decode_take]
theorem Fields.decode_take : (fs : Fields) → (bs : List UInt8) → (n : Nat) → fs.size ≤ n →
    fs.decode (bs.take n) = fs.decode bs
  | .done, _, _, _ => rfl
  | .pad bytes fields, bs, n, h => by
    rw [Fields.size] at h
    rw [Fields.decode, Fields.decode, List.drop_take, fields.decode_take _ _ (by omega)]
  | .field _ type fields, bs, n, h => by
    rw [Fields.size] at h
    rw [Fields.decode, Fields.decode, type.decode_take _ _ (by omega), List.drop_take,
      fields.decode_take _ _ (by omega)]

end

/-! ## Fields by offset -/

/-- Name, offset and shape of each named field, when the first byte is at `offset`. -/
def Fields.placesFrom (offset : Nat) : Fields → List (String × Nat × Layout)
  | .done => []
  | .pad bytes rest => rest.placesFrom (offset + bytes)
  | .field name type rest => (name, offset, type) :: rest.placesFrom (offset + type.size)

/-- Name, offset and shape of each named field. -/
def Fields.places (fs : Fields) : List (String × Nat × Layout) := fs.placesFrom 0

/-- Name, shape and value of each named field. -/
def Fields.cells : (fs : Fields) → fs.Value → List (String × (l : Layout) × l.Value)
  | .done, _ => []
  | .pad _ rest, v => rest.cells v
  | .field name type rest, v => (name, ⟨type, v.1⟩) :: rest.cells v.2

/-- What stands in some bytes at the offset of a field. -/
def readPlace (bs : List UInt8) (p : String × Nat × Layout) : String × (l : Layout) × l.Value :=
  (p.1, ⟨p.2.2, p.2.2.decode ((bs.drop p.2.1).take p.2.2.size)⟩)

/-- Reading a record reads each field from the bytes at its offset, and no others. -/
theorem Fields.cells_decode_drop (fs : Fields) (bs : List UInt8) (offset : Nat) :
    fs.cells (fs.decode (bs.drop offset)) = (fs.placesFrom offset).map (readPlace bs) := by
  match fs with
  | .done => rfl
  | .pad bytes rest =>
    rw [Fields.decode, Fields.cells, Fields.placesFrom, List.drop_drop, rest.cells_decode_drop]
  | .field name type rest =>
    rw [Fields.decode, Fields.cells, Fields.placesFrom, List.drop_drop, rest.cells_decode_drop,
      List.map_cons, readPlace, type.decode_take _ _ (Nat.le_refl _)]

theorem Fields.cells_decode (fs : Fields) (bs : List UInt8) :
    fs.cells (fs.decode bs) = fs.places.map (readPlace bs) := fs.cells_decode_drop bs 0

/-! ## Natural alignment -/

/-- The first multiple of an alignment from an offset on. -/
def alignTo (offset alignment : Nat) : Nat := (offset + alignment - 1) / alignment * alignment

mutual

/-- What the address of a shape has to be a multiple of: the width of its widest word. -/
def Layout.alignment : Layout → Nat
  | .word bytes _ => bytes
  | .array item _ => item.alignment
  | .record fields => fields.alignment

/-- The alignment of the fields that needs most. -/
def Fields.alignment : Fields → Nat
  | .done => 1
  | .pad _ rest => rest.alignment
  | .field _ type rest => max type.alignment rest.alignment

end

/-- Name, offset and size of each named field when every field is moved up to its alignment, and where they
end. -/
def Fields.compile (offset : Nat) : Fields → List (String × Nat × Nat) × Nat
  | .done => ([], offset)
  | .pad bytes rest => rest.compile (offset + bytes)
  | .field name type rest =>
    let start := alignTo offset type.alignment
    let (fields, stop) := rest.compile (start + type.size)
    ((name, start, type.size) :: fields, stop)

/-- Moving fields up to their alignment changes nothing, and a record can follow another without a gap. -/
def Fields.IsTight (fs : Fields) : Prop :=
  fs.compile 0 = (fs.table, fs.size) ∧ alignTo fs.size fs.alignment = fs.size

instance (fs : Fields) : Decidable fs.IsTight := inferInstanceAs (Decidable (_ ∧ _))

theorem isTight_of_mem_structs : ∀ s ∈ structs, s.2.IsTight := by decide

/-! ## Records of the interface -/

/-- Some bytes with those at their start replaced. -/
def overwrite (front bs : List UInt8) : List UInt8 := front ++ bs.drop front.length

/-- What the kernel writes over an argument fits into it. -/
theorem size_le_of_overlay : ∀ s ∈ structs, ∀ out ∈ overlay? s.1, out.size ≤ s.2.size := by decide

/-- Every record of the interface has its fields where natural alignment puts them.  Its bytes are as many as its
size says, with zeros for padding, and give its values back; any bytes of that size are, but for padding, those of
the values read from them.  Where the kernel writes over the start of an argument, the values that it left are read
from the bytes at the offsets of their fields and from no others, so they are those that were written. -/
theorem structs_roundTrip {name : String} {fs : Fields} (h : (name, fs) ∈ structs) :
    fs.IsTight ∧
    (∀ v : fs.Value, (fs.encode v).length = fs.size ∧
      (∀ i : Nat, fs.named[i]? = some false → (fs.encode v)[i]? = some 0) ∧ fs.decode (fs.encode v) = v) ∧
    (∀ bs : List UInt8, bs.length = fs.size → fs.encode (fs.decode bs) = clearPadding fs.named bs) ∧
    ∀ out, overlay? name = some out →
      out.size ≤ fs.size ∧
      (∀ bs : List UInt8, bs.length = fs.size → out.cells (out.decode bs) = out.places.map (readPlace bs)) ∧
      (∀ bs bs' : List UInt8, bs.length = fs.size → bs'.length = fs.size →
        (out.decode bs = out.decode bs' ↔ ∀ i : Nat, out.named[i]? = some true → bs[i]? = bs'[i]?)) ∧
      ∀ (v : out.Value) (bs : List UInt8), bs.length = fs.size →
        (overwrite (out.encode v) bs).length = fs.size ∧ out.decode (overwrite (out.encode v) bs) = v := by
  refine ⟨isTight_of_mem_structs _ h, fun v => ⟨fs.length_encode v, fun i hi => ?_, ?_⟩, fun bs hbs => ?_,
    fun out hout => ?_⟩
  · exact fs.getElem?_encode_of_padding v hi
  · exact fs.decode_encode_self v
  · exact fs.encode_decode bs (Nat.le_of_eq hbs.symm)
  · have hsize : out.size ≤ fs.size := size_le_of_overlay _ h out hout
    refine ⟨hsize, fun bs _ => out.cells_decode bs, fun bs bs' hbs hbs' => ?_, fun v bs hbs => ⟨?_, ?_⟩⟩
    · exact out.decode_eq_iff (hbs ▸ hsize) (hbs' ▸ hsize)
    · rw [overwrite, List.length_append, List.length_drop, out.length_encode]
      omega
    · exact out.decode_encode v _

/-- The answer to a group request is read from the start of the request: a byte, and a word after three bytes of
padding. -/
theorem structs_roundTrip_group :
    ("CSQueueGroupCreate", csQueueGroupCreate) ∈ structs ∧
    overlay? "CSQueueGroupCreate" = some csQueueGroupCreateOut ∧
    (csQueueGroupCreate.encode (1, 2, 3, 4, 5, 6, 7, 8, ())).length = csQueueGroupCreate.size ∧
    csQueueGroupCreateOut.decode
      (overwrite (csQueueGroupCreateOut.encode (9, 10, ()))
        (csQueueGroupCreate.encode (1, 2, 3, 4, 5, 6, 7, 8, ()))) = (9, 10, ()) := by
  have hmem : ("CSQueueGroupCreate", csQueueGroupCreate) ∈ structs := by
    simp [structs]
  have hout : overlay? "CSQueueGroupCreate" = some csQueueGroupCreateOut := rfl
  obtain ⟨-, hwrite, -, hoverlay⟩ := structs_roundTrip hmem
  obtain ⟨-, -, -, hanswer⟩ := hoverlay _ hout
  have hlength := (hwrite (1, 2, 3, 4, 5, 6, 7, 8, ())).1
  exact ⟨hmem, hout, hlength, (hanswer (9, 10, ()) _ hlength).2⟩

end Mali.Abi
