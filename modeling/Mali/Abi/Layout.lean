import Mali.Bytes

/-!
# Layouts of kernel records

The kernel exchanges records of fixed layout: words of one, two, four or eight bytes, arrays and
nested records, with explicit padding so that every field is naturally aligned.  A `Layout` says
how such a record looks, and everything else is read off it: its size, the offsets of its fields,
its bytes and the values in its bytes.

* `Layout`, `Fields`: the shape of a record.
* `Layout.Value`: the values of a shape; padding has none.
* `Layout.size`, `Fields.table`: the size, and name, offset and size of each field.
* `Layout.encode`, `Layout.decode`: the bytes of a value and the value of some bytes.  Padding is
  written as zeros and skipped when read, and bytes that are missing read as zeros.
-/

namespace Mali.Abi

mutual

/-- The shape of a value in memory. -/
inductive Layout where
  /-- A little-endian word; `signed` tells how its value is meant. -/
  | word (bytes : Nat) (signed : Bool)
  /-- A number of values of one shape. -/
  | array (item : Layout) (count : Nat)
  /-- A record. -/
  | record (fields : Fields)

/-- The fields of a record in order. -/
inductive Fields where
  | done
  /-- Bytes without a value. -/
  | pad (bytes : Nat) (rest : Fields)
  /-- A named field. -/
  | field (name : String) (type : Layout) (rest : Fields)

end

instance : Inhabited Layout := ⟨.word 0 false⟩
instance : Inhabited Fields := ⟨.done⟩

mutual

/-- The number of bytes of a shape. -/
def Layout.size : Layout → Nat
  | .word bytes _ => bytes
  | .array item count => count * item.size
  | .record fields => fields.size

/-- The number of bytes of some fields. -/
def Fields.size : Fields → Nat
  | .done => 0
  | .pad bytes rest => bytes + rest.size
  | .field _ type rest => type.size + rest.size

end

/-- Name, offset and size of each named field, when the first byte is at `offset`. -/
def Fields.tableFrom (offset : Nat) : Fields → List (String × Nat × Nat)
  | .done => []
  | .pad bytes rest => rest.tableFrom (offset + bytes)
  | .field name type rest => (name, offset, type.size) :: rest.tableFrom (offset + type.size)

/-- Name, offset and size of each named field. -/
def Fields.table (fs : Fields) : List (String × Nat × Nat) := fs.tableFrom 0

mutual

/-- The values of a shape. -/
@[reducible] def Layout.Value : Layout → Type
  | .word bytes _ => BitVec (8 * bytes)
  | .array item count => Vector item.Value count
  | .record fields => fields.Value

/-- The values of some fields, paired up in order. -/
@[reducible] def Fields.Value : Fields → Type
  | .done => Unit
  | .pad _ rest => rest.Value
  | .field _ type rest => type.Value × rest.Value

end

mutual

/-- The bytes of a value. -/
def Layout.encode : (l : Layout) → l.Value → List UInt8
  | .word bytes _, v => leBytes bytes v.toNat
  | .array item _, v => v.toList.flatMap item.encode
  | .record fields, v => fields.encode v

/-- The bytes of the values of some fields. -/
def Fields.encode : (fs : Fields) → fs.Value → List UInt8
  | .done, _ => []
  | .pad bytes rest, v => List.replicate bytes 0 ++ rest.encode v
  | .field _ type rest, v => type.encode v.1 ++ rest.encode v.2

end

mutual

/-- The value at the start of some bytes. -/
def Layout.decode : (l : Layout) → List UInt8 → l.Value
  | .word bytes _, bs => BitVec.ofNat _ (ofLE (bs.take bytes))
  | .array item count, bs =>
    Vector.ofFn fun i : Fin count => item.decode (bs.drop (i.val * item.size))
  | .record fields, bs => fields.decode bs

/-- The values of fields at the start of some bytes. -/
def Fields.decode : (fs : Fields) → List UInt8 → fs.Value
  | .done, _ => ()
  | .pad bytes rest, bs => rest.decode (bs.drop bytes)
  | .field _ type rest, bs => (type.decode bs, rest.decode (bs.drop type.size))

end

/-! ## Equations -/

@[simp] theorem Layout.size_word (bytes : Nat) (signed : Bool) :
    (Layout.word bytes signed).size = bytes := by rw [Layout.size]

@[simp] theorem Layout.size_array (item : Layout) (count : Nat) :
    (Layout.array item count).size = count * item.size := by rw [Layout.size]

@[simp] theorem Layout.size_record (fields : Fields) :
    (Layout.record fields).size = fields.size := by rw [Layout.size]

@[simp] theorem Fields.size_done : Fields.done.size = 0 := by rw [Fields.size]

@[simp] theorem Fields.size_pad (bytes : Nat) (rest : Fields) :
    (Fields.pad bytes rest).size = bytes + rest.size := by rw [Fields.size]

@[simp] theorem Fields.size_field (name : String) (type : Layout) (rest : Fields) :
    (Fields.field name type rest).size = type.size + rest.size := by rw [Fields.size]

/-! ## Notation for tables -/

/-- One member of a record as tables write it: a named field, or padding. -/
inductive Member where
  | named (name : String) (type : Layout)
  | unnamed (bytes : Nat)

/-- The fields of a list of members. -/
def Fields.ofMembers : List Member → Fields
  | [] => .done
  | .named name type :: rest => .field name type (ofMembers rest)
  | .unnamed bytes :: rest => .pad bytes (ofMembers rest)

end Mali.Abi
