import Mali.Statistics
import Mathlib

/-!
# Merging statistics

Counting one buffer more in a merged record is the same as counting it in one of the two records before they are
merged.  So the record of a sequence of buffers can be put together from the records of its parts, in any order:
totals are sums, which wrap the same way however they are taken, and extremes do not depend on the order.

The record of no buffers is neutral because its smallest size is the largest word and its greatest size is zero, which
is no more than the greatest size of any record that started from it.

* `Statistics.Detailed.Entry`, `Statistics.Detailed.record`: sequences of counted buffers, and their records.
* `Statistics.Detailed.merge_add`: one buffer more.
* `Statistics.Detailed.merge_empty_iff`: for which records the empty one is neutral.
* `Statistics.Detailed.record_merge`: the main result.
-/

namespace Mali.Statistics.Detailed

attribute [ext] Detailed

/-! ## Extremes -/

theorem lesser_comm (a b : Int64) : (if b < a then b else a) = if a < b then a else b := by grind

theorem lesser_assoc (a b c : Int64) :
    (if c < (if b < a then b else a) then c else if b < a then b else a) =
      if (if c < b then c else b) < a then if c < b then c else b else a := by grind

theorem greater_comm (a b : Int64) : (if a < b then b else a) = if b < a then a else b := by grind

theorem greater_assoc (a b c : Int64) :
    (if (if a < b then b else a) < c then c else if a < b then b else a) =
      if a < (if b < c then c else b) then if b < c then c else b else a := by grind

/-! ## Merging -/

theorem merge_comm (s t : Detailed) : s.merge t = t.merge s :=
  Detailed.ext (Int64.add_comm _ _) (Int64.add_comm _ _) (Int64.add_comm _ _) (Int64.add_comm _ _)
    (Int64.add_comm _ _) (lesser_comm _ _) (greater_comm _ _) (Int64.add_comm _ _) (Int64.add_comm _ _)
    (Int64.add_comm _ _)

theorem merge_assoc (s t u : Detailed) : (s.merge t).merge u = s.merge (t.merge u) :=
  Detailed.ext (Int64.add_assoc _ _ _) (Int64.add_assoc _ _ _) (Int64.add_assoc _ _ _) (Int64.add_assoc _ _ _)
    (Int64.add_assoc _ _ _) (lesser_assoc _ _ _) (greater_assoc _ _ _) (Int64.add_assoc _ _ _)
    (Int64.add_assoc _ _ _) (Int64.add_assoc _ _ _)

/-- No size is greater than the largest word, so only the greatest size can change. -/
theorem merge_empty (s : Detailed) :
    s.merge empty = { s with sizeMax := if s.sizeMax < 0 then 0 else s.sizeMax } :=
  Detailed.ext (Int64.add_zero _) (Int64.add_zero _) (Int64.add_zero _) (Int64.add_zero _) (Int64.add_zero _)
    (if_neg (Int64.not_lt.mpr (Int64.le_maxValue _))) rfl (Int64.add_zero _) (Int64.add_zero _) (Int64.add_zero _)

/-- The empty record is neutral for the records whose greatest size is not negative. -/
theorem merge_empty_iff {s : Detailed} : s.merge empty = s ↔ 0 ≤ s.sizeMax := by
  rw [merge_empty]
  constructor
  · intro h
    have hmax : (if s.sizeMax < 0 then 0 else s.sizeMax) = s.sizeMax := congrArg sizeMax h
    grind
  · intro h
    rw [if_neg (Int64.not_lt.mpr h)]

/-! ## Sequences of buffers -/

/-- A buffer that is counted, as allocated or as cached. -/
inductive Entry where
  | allocation (size : Int64)
  | cached (size : Int64)
  deriving DecidableEq, Repr

/-- Counts a buffer. -/
def add (s : Detailed) : Entry → Detailed
  | .allocation size => s.addAllocation size
  | .cached size => s.addCached size

/-- The record of a sequence of buffers, counted from nothing on. -/
def record (es : List Entry) : Detailed := es.foldl add empty

/-- One buffer more, in the merged record or in one of the two. -/
theorem merge_add (s t : Detailed) (e : Entry) : (s.merge t).add e = s.merge (t.add e) := by
  cases e with
  | allocation size =>
    exact Detailed.ext rfl (Int64.add_assoc _ _ _) (Int64.add_assoc _ _ _) rfl rfl (lesser_assoc _ _ _)
      (greater_assoc _ _ _) rfl rfl rfl
  | cached size =>
    exact Detailed.ext rfl rfl rfl (Int64.add_assoc _ _ _) (Int64.add_assoc _ _ _) rfl rfl rfl rfl rfl

/-- By induction on the sequence. -/
theorem merge_foldl_add (s t : Detailed) (es : List Entry) :
    es.foldl add (s.merge t) = s.merge (es.foldl add t) := by
  induction es generalizing t with
  | nil => rfl
  | cons e es ih => rw [List.foldl_cons, List.foldl_cons, merge_add, ih]

theorem le_sizeMax_add (s : Detailed) (e : Entry) : s.sizeMax ≤ (s.add e).sizeMax := by
  cases e with
  | allocation size =>
    show s.sizeMax ≤ if s.sizeMax < size then size else s.sizeMax
    grind
  | cached size => exact Int64.le_refl _

/-- The greatest size never shrinks, and it starts from zero.  By induction on the sequence. -/
theorem sizeMax_record (es : List Entry) : 0 ≤ (record es).sizeMax := by
  have hgrows (s : Detailed) : s.sizeMax ≤ (es.foldl add s).sizeMax := by
    induction es generalizing s with
    | nil => exact Int64.le_refl _
    | cons e es ih => exact Int64.le_trans (le_sizeMax_add s e) (ih _)
  exact hgrows empty

/-- Counting goes on from a record as if it were counted apart and merged. -/
theorem record_append (es es' : List Entry) : record (es ++ es') = (record es).merge (record es') := by
  have hneutral : (record es).merge empty = record es := merge_empty_iff.mpr (sizeMax_record es)
  calc record (es ++ es')
    _ = es'.foldl add ((record es).merge empty) := by rw [hneutral, record, List.foldl_append, record]
    _ = (record es).merge (record es') := merge_foldl_add _ _ _

/-- The record of one sequence after another is that of both, counted apart and merged, in either order.  Merging is
associative and commutative, and the record of nothing is neutral exactly for the records whose greatest size is not
negative, as is that of every sequence. -/
theorem record_merge :
    (∀ es es' : List Entry, es'.foldl add (es.foldl add empty) = (record es).merge (record es') ∧
      es'.foldl add (es.foldl add empty) = (record es').merge (record es)) ∧
    (∀ s t u : Detailed, (s.merge t).merge u = s.merge (t.merge u)) ∧
    (∀ s t : Detailed, s.merge t = t.merge s) ∧
    (∀ s : Detailed, 0 ≤ s.sizeMax → s.merge empty = s ∧ empty.merge s = s) ∧
    (∀ s : Detailed, s.merge empty = s → 0 ≤ s.sizeMax) ∧
    ∀ es : List Entry, 0 ≤ (record es).sizeMax := by
  refine ⟨fun es es' => ?_, merge_assoc, merge_comm, fun s hs => ?_, fun _ => merge_empty_iff.mp, sizeMax_record⟩
  · rw [← List.foldl_append]
    exact ⟨record_append es es', (record_append es es').trans (merge_comm _ _)⟩
  · have hneutral := merge_empty_iff.mpr hs
    exact ⟨hneutral, (merge_comm _ _).trans hneutral⟩

/-- Totals that wrap, and a size that is negative; the record is not that of nothing. -/
theorem record_merge_sample :
    (record [.allocation Int64.maxValue, .cached 1]).merge (record [.allocation (-3), .allocation Int64.maxValue]) =
      record [.allocation Int64.maxValue, .cached 1, .allocation (-3), .allocation Int64.maxValue] ∧
    0 ≤ (record [.allocation Int64.maxValue]).sizeMax ∧
    empty.merge (record [.allocation Int64.maxValue]) = record [.allocation Int64.maxValue] := by
  obtain ⟨hsplit, -, -, hneutral, -, -⟩ := record_merge
  have hmax : 0 ≤ (record [.allocation Int64.maxValue]).sizeMax := by decide
  exact ⟨(hsplit _ _).1.symm, hmax, (hneutral _ hmax).2⟩

end Mali.Statistics.Detailed
