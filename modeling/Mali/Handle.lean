import Mali.Error
import Mali.Memory

/-!
# Handles

A handle is a small number that stands for a range of GPU addresses.  The table is a list of
entries; a freed entry is marked in place and reused before the table grows, and freed entries at
the end are dropped, so the table always ends with a live one.

On a job manager GPU an entry also counts the atoms in flight that use it, and remembers for each
job slot the newest of them.  Atom numbers are bytes and wrap around, so "newest" means closest
below the atom being submitted (`latestAtom`).

* `HandleTable.alloc`, `HandleTable.free`, `HandleTable.get`: the table as a map.
* `HandleTable.markUsed`: an atom uses some handles; gives the atoms it has to run after.
* `HandleTable.release`: an atom no longer uses some handles.
* `HandleTable.check`: the rule on freed entries.
-/

namespace Mali

/-- The job slots of a job manager GPU. -/
inductive JobSlot where
  | fragment | vertex
  deriving DecidableEq, Repr, Inhabited

/-- A value for each job slot. -/
structure PerSlot (α : Type) where
  fragment : α
  vertex : α
  deriving DecidableEq, Repr, Inhabited

namespace PerSlot

variable {α β : Type}

/-- The same value for each slot. -/
def both (a : α) : PerSlot α := ⟨a, a⟩

/-- The value of a slot. -/
def get (p : PerSlot α) : JobSlot → α
  | .fragment => p.fragment
  | .vertex => p.vertex

/-- Replaces the value of a slot. -/
def set (p : PerSlot α) (s : JobSlot) (a : α) : PerSlot α :=
  match s with
  | .fragment => { p with fragment := a }
  | .vertex => { p with vertex := a }

/-- Combines two values slot by slot. -/
def zipWith (f : α → α → β) (p q : PerSlot α) : PerSlot β :=
  ⟨f p.fragment q.fragment, f p.vertex q.vertex⟩

@[simp] theorem get_both (a : α) (s : JobSlot) : (both a).get s = a := by cases s <;> rfl

theorem get_set (p : PerSlot α) (s t : JobSlot) (a : α) :
    (p.set s a).get t = if s = t then a else p.get t := by
  cases s <;> cases t <;> rfl

@[simp] theorem get_zipWith (f : α → α → β) (p q : PerSlot α) (s : JobSlot) :
    (zipWith f p q).get s = f (p.get s) (q.get s) := by cases s <;> rfl

end PerSlot

/-- One entry of the handle table. -/
structure Handle where
  va : UInt64 := 0
  /-- The mapping of an imported buffer that had to be mapped. -/
  mapping : Option Mapping := none
  /-- The descriptor the entry owns, or one of `noFd` and `freedFd`. -/
  fd : Int
  /-- Atoms in flight that use the entry. -/
  useCount : UInt8 := 0
  /-- The newest atom that used the entry, for each job slot. -/
  lastAccess : PerSlot UInt8 := .both 0
  deriving DecidableEq, Repr, Inhabited

/-- Marks an entry without a descriptor. -/
def noFd : Int := -1

/-- Marks a freed entry. -/
def freedFd : Int := -2

/-- Whichever of `a` and `b` was submitted later, counting back from `newest` around the wrap. -/
def latestAtom (a b newest : UInt8) : UInt8 :=
  (if a - newest < b - newest then b - newest else a - newest) + newest

/-- The entries of a device, by number. -/
structure HandleTable where
  entries : List Handle := []
  deriving DecidableEq, Repr, Inhabited

namespace HandleTable

/-- Whether an entry is freed. -/
def isFreed (h : Handle) : Bool := h.fd == freedFd

/-- The number of entries. -/
def size (t : HandleTable) : Nat := t.entries.length

/-- The position of a number, if it is one of the table. -/
def index? (t : HandleTable) (handle : Int) : Option Nat :=
  if 0 ≤ handle ∧ handle < t.size then some handle.toNat else none

/-- The entry at a number, freed ones included. -/
def entry? (t : HandleTable) (handle : Int) : Option Handle :=
  (t.index? handle).bind (t.entries[·]?)

/-- The position of the first freed entry, or the end. -/
def freeIndex (t : HandleTable) : Nat := t.entries.findIdx isFreed

/-- Stores an entry in the first free place. -/
def alloc (t : HandleTable) (va : UInt64) (fd : Int) : Nat × HandleTable :=
  let h : Handle := { va, fd }
  let i := t.freeIndex
  (i, ⟨if i < t.size then t.entries.set i h else t.entries ++ [h]⟩)

/-- Whether storing an entry makes the table longer. -/
def allocGrows (t : HandleTable) : Bool := t.freeIndex == t.size

/-- Drops freed entries at the end. -/
def dropFreedTail (es : List Handle) : List Handle :=
  (es.reverse.dropWhile isFreed).reverse

/-- Frees an entry, and gives back the descriptor it held. -/
def free (t : HandleTable) (handle : Int) : Option Int × HandleTable :=
  match t.index? handle with
  | none => (none, t)
  | some i =>
    ((t.entries[i]?).map (·.fd), ⟨dropFreedTail (t.entries.set i { fd := freedFd })⟩)

/-- The entry of a live handle, and an empty entry for any other number. -/
def get (t : HandleTable) (handle : Int) : Handle :=
  match t.entry? handle with
  | none => { fd := noFd }
  | some h => if isFreed h then { h with fd := noFd } else h

/-- Remembers the mapping of an entry. -/
def setMapping (t : HandleTable) (i : Nat) (m : Option Mapping) : HandleTable :=
  ⟨t.entries.modify i fun h => { h with mapping := m }⟩

/-- The first broken rule: the table ends with a live entry, and freed entries have no users. -/
def check (t : HandleTable) : Option Cause :=
  if (t.entries.getLast?.map isFreed).getD false then some (.freedTail (t.size - 1))
  else
    (t.entries.zipIdx.find? fun (h, _) => isFreed h && h.useCount != 0).map fun (h, i) =>
      .freedInUse i h.useCount.toNat

/-! ## Atoms -/

/-- The outcome of marking handles as used. -/
structure Marked where
  table : HandleTable
  /-- The newest atoms to run after; the atom itself stands for none. -/
  after : PerSlot UInt8
  /-- The addresses of handles that own a descriptor. -/
  resources : List UInt64
  deriving DecidableEq, Repr, Inhabited

/-- Marks one handle as used by an atom. -/
def markOne (m : Marked) (slot : JobSlot) (atom : UInt8) (handle : Int) : Except Cause Marked :=
  match m.table.index? handle with
  | none => .error (.atomHandle atom.toNat handle)
  | some i =>
    match m.table.entries[i]? with
    | none => .error (.atomHandle atom.toNat handle)
    | some h =>
      if h.useCount = 255 then .error (.handleOverused handle)
      else
        .ok {
          table := ⟨m.table.entries.set i
            { h with
              useCount := h.useCount + 1
              lastAccess := h.lastAccess.set slot atom }⟩
          after :=
            if h.useCount = 0 then m.after
            else m.after.zipWith (fun a b => latestAtom a b atom) h.lastAccess
          resources := if h.fd = noFd then m.resources else m.resources ++ [h.va] }

/-- Marks handles in order. -/
def markAll (slot : JobSlot) (atom : UInt8) : List Int → Marked → Except Cause Marked
  | [], m => .ok m
  | h :: hs, m =>
    match markOne m slot atom h with
    | .ok m => markAll slot atom hs m
    | .error c => .error c

/-- Marks handles as used by an atom on a job slot. -/
def markUsed (t : HandleTable) (handles : List Int) (slot : JobSlot) (atom : UInt8) :
    Except Cause Marked :=
  markAll slot atom handles { table := t, after := .both atom, resources := [] }

/-- Drops one use of each handle; numbers outside the table are passed over. -/
def release (t : HandleTable) : List Int → Except Cause HandleTable
  | [] => .ok t
  | h :: hs =>
    match t.index? h with
    | none => t.release hs
    | some i =>
      match t.entries[i]? with
      | none => t.release hs
      | some e =>
        if e.useCount = 0 then .error (.handleOverreleased h)
        else release ⟨t.entries.set i { e with useCount := e.useCount - 1 }⟩ hs

end HandleTable

end Mali
