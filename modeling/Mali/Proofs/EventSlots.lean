import Mali.Slot
import Mathlib

/-!
# Sound event slots

A slot is sound if its progress stays behind what was submitted, its links wait for numbers in
ascending order, and every link waits for a number that was submitted and has not been passed.  The
last part is what makes taking callbacks complete: a link that had been passed already would hold up
every link behind it.

Only a slot that was started is sound.  A slot that was never bound is still as it was made, so it is
idle and has no links, and operations on all slots pass it over.

* `EventSlot.Sound`: the rule, and `EventSlot.Sound.advance` and the like: what keeps it.
* `EventSlot.Sound.links_eq_nil`: an idle slot has no links.
* `SlotTable.entry`: the slots as a total function, with what each change does to it.
* `SlotTable.Sound`: the started slots are sound, and the rest untouched.
* `SlotTable.waiting`: how many links carry a callback.
-/

namespace Mali

namespace EventSlot

/-! ## One slot -/

/-- Progress stays behind submission, and the links wait in order for what is in between. -/
structure Sound (s : EventSlot) : Prop where
  started : 1 ≤ s.lastSubmit
  behind : s.last ≤ s.lastSubmit
  ordered : s.links.Pairwise fun a b => a.seqnum ≤ b.seqnum
  pending : ∀ l ∈ s.links, s.last ≤ l.seqnum ∧ l.seqnum < s.lastSubmit

/-- In an ordered list only links that were not passed are left behind. -/
theorem le_of_mem_dropWhile {n : UInt64} {ls : List Link}
    (h : ls.Pairwise fun a b => a.seqnum ≤ b.seqnum) {l : Link}
    (hl : l ∈ ls.dropWhile (passed n)) : n ≤ l.seqnum := by
  induction ls with
  | nil => simp at hl
  | cons a ls ih =>
    rw [List.pairwise_cons] at h
    by_cases ha : a.seqnum < n
    · rw [List.dropWhile_cons_of_pos (by simpa [passed] using ha)] at hl
      exact ih h.2 hl
    · rw [List.dropWhile_cons_of_neg (by simpa [passed] using ha)] at hl
      have hn : n ≤ a.seqnum := UInt64.not_lt.mp ha
      rcases List.mem_cons.mp hl with rfl | hl
      · exact hn
      · exact UInt64.le_trans hn (h.1 l hl)

theorem passed_of_mem_takeWhile {n : UInt64} {ls : List Link} {l : Link}
    (hl : l ∈ ls.takeWhile (passed n)) : l.seqnum < n := by
  simpa [passed] using List.mem_takeWhile_imp hl

@[simp] theorem take_last (s : EventSlot) (n : UInt64) : (s.take n).2.last = s.last := rfl

@[simp] theorem take_lastSubmit (s : EventSlot) (n : UInt64) :
    (s.take n).2.lastSubmit = s.lastSubmit := rfl

@[simp] theorem submit_last (s : EventSlot) (n : UInt64) : (s.submit n).last = s.last := by
  unfold submit
  split <;> rfl

@[simp] theorem submit_links (s : EventSlot) (n : UInt64) : (s.submit n).links = s.links := by
  unfold submit
  split <;> rfl

theorem le_submit_lastSubmit (s : EventSlot) (n : UInt64) :
    s.lastSubmit ≤ (s.submit n).lastSubmit := by
  unfold submit
  split
  · exact UInt64.le_of_lt ‹_›
  · exact UInt64.le_refl _

/-- Submitted work lies behind the last submission, unless its number is the greatest of all. -/
theorem lt_submit_lastSubmit (s : EventSlot) {n : UInt64} (hn : n + 1 ≠ 0) :
    n < (s.submit n).lastSubmit := by
  have hlt : n < n + 1 := by
    rw [UInt64.lt_iff_toNat_lt, UInt64.toNat_add]
    have : (n + 1).toNat ≠ 0 := fun h => hn (UInt64.toNat_inj.mp h)
    rw [UInt64.toNat_add] at this
    have := n.toNat_lt
    simp only [UInt64.toNat_one] at *
    omega
  unfold submit
  split
  · exact hlt
  · exact UInt64.lt_of_lt_of_le hlt (UInt64.not_lt.mp ‹_›)

@[simp] theorem await_last (s : EventSlot) (c : Callback) : (s.await c).last = s.last := by
  unfold await
  split <;> rfl

@[simp] theorem await_lastSubmit (s : EventSlot) (c : Callback) :
    (s.await c).lastSubmit = s.lastSubmit := by
  unfold await
  split <;> rfl

theorem await_links (s : EventSlot) (c : Callback) :
    (s.await c).links = s.links ++ if s.isIdle then [] else [⟨s.lastSubmit - 1, c⟩] := by
  unfold await
  split <;> simp [append]

@[simp] theorem advance_lastSubmit (s : EventSlot) (n : UInt64) :
    (s.advance n).2.lastSubmit = s.lastSubmit := by
  unfold advance
  split <;> rfl

theorem le_advance_last (s : EventSlot) (n : UInt64) (h : s.last ≤ s.lastSubmit) :
    s.last ≤ (s.advance n).2.last := by
  unfold advance
  split
  · exact UInt64.le_refl _
  · rename_i hb
    have hn : s.last ≤ n := by simpa [isBackward] using hb
    show s.last ≤ s.limit n
    unfold limit
    split
    · exact h
    · exact hn

/-- The links that a report takes off a slot. -/
def advanced (s : EventSlot) (n : UInt64) : List Link :=
  if s.isBackward n then [] else s.links.takeWhile (passed (s.limit n))

theorem links_take (s : EventSlot) (n : UInt64) :
    s.links = s.links.takeWhile (passed n) ++ (s.take n).2.links :=
  (List.takeWhile_append_dropWhile ..).symm

theorem links_advance (s : EventSlot) (n : UInt64) :
    s.links = s.advanced n ++ (s.advance n).2.links := by
  unfold advanced advance
  split
  · rfl
  · exact s.links_take _

theorem limit_le (s : EventSlot) (n : UInt64) : s.limit n ≤ s.lastSubmit := by
  unfold limit
  split
  · exact UInt64.le_refl _
  · exact UInt64.not_lt.mp ‹_›

namespace Sound

variable {s : EventSlot}

/-- Nothing waits on an idle slot. -/
theorem links_eq_nil (h : s.Sound) (hs : s.isIdle) : s.links = [] := by
  have hl : s.last = s.lastSubmit := by simpa [isIdle] using hs
  refine List.eq_nil_iff_forall_not_mem.mpr fun l hmem => ?_
  obtain ⟨h₁, h₂⟩ := h.pending l hmem
  exact absurd (UInt64.lt_of_le_of_lt h₁ h₂) (by simp [hl])

theorem submit (h : s.Sound) (n : UInt64) : (s.submit n).Sound where
  started := UInt64.le_trans h.started (le_submit_lastSubmit s n)
  behind := by
    rw [submit_last]
    exact UInt64.le_trans h.behind (le_submit_lastSubmit s n)
  ordered := by
    rw [submit_links]
    exact h.ordered
  pending := by
    intro l hl
    rw [submit_links] at hl
    rw [submit_last]
    exact ⟨(h.pending l hl).1,
      UInt64.lt_of_lt_of_le (h.pending l hl).2 (le_submit_lastSubmit s n)⟩

/-- A new link waits for the last submission, which no other link is behind. -/
theorem await (h : s.Sound) (c : Callback) : (s.await c).Sound := by
  unfold EventSlot.await
  split
  · exact h
  · rename_i hi
    have hne : s.last ≠ s.lastSubmit := by simpa [isIdle] using hi
    have hs := h.started
    have hb := h.behind
    have hlt : s.last ≤ s.lastSubmit - 1 ∧ s.lastSubmit - 1 < s.lastSubmit := by
      rw [UInt64.le_iff_toNat_le] at hs hb ⊢
      rw [UInt64.lt_iff_toNat_lt, UInt64.toNat_sub_of_le _ _ h.started]
      have : s.last.toNat ≠ s.lastSubmit.toNat := fun e => hne (UInt64.toNat_inj.mp e)
      simp only [UInt64.toNat_one] at *
      omega
    refine ⟨hs, hb, ?_, ?_⟩
    · refine List.pairwise_append.mpr ⟨h.ordered, List.pairwise_singleton _ _, ?_⟩
      intro l hl l' hl'
      rw [List.mem_singleton] at hl'
      subst hl'
      have := (h.pending l hl).2
      show l.seqnum ≤ s.lastSubmit - 1
      rw [UInt64.lt_iff_toNat_lt] at this
      rw [UInt64.le_iff_toNat_le] at hs ⊢
      rw [UInt64.toNat_sub_of_le _ _ h.started]
      simp only [UInt64.toNat_one] at *
      omega
    · intro l hl
      rcases List.mem_append.mp hl with hl | hl
      · exact h.pending l hl
      · rw [List.mem_singleton] at hl
        subst hl
        exact hlt

theorem take (h : s.Sound) (n : UInt64) : (s.take n).2.Sound where
  started := h.started
  behind := h.behind
  ordered := h.ordered.sublist (List.dropWhile_sublist _)
  pending l hl := h.pending l ((List.dropWhile_sublist _).subset hl)

theorem advance (h : s.Sound) (n : UInt64) : (s.advance n).2.Sound := by
  unfold EventSlot.advance
  split
  · exact h
  · refine ⟨h.started, limit_le s n, (h.take (s.limit n)).ordered, fun l hl => ?_⟩
    exact ⟨le_of_mem_dropWhile h.ordered hl, ((h.take (s.limit n)).pending l hl).2⟩

/-- Once everything is taken off a slot its progress may start over. -/
theorem clear (h : s.Sound) : ({ s with last := 0, links := [] } : EventSlot).Sound where
  started := h.started
  behind := UInt64.zero_le
  ordered := List.Pairwise.nil
  pending l hl := by simp at hl

/-- The greatest number has passed every link. -/
theorem take_max (h : s.Sound) :
    s.links.takeWhile (passed 0xffffffffffffffff) = s.links ∧
      s.links.dropWhile (passed 0xffffffffffffffff) = [] := by
  have hp : ∀ l ∈ s.links, passed 0xffffffffffffffff l = true := by
    intro l hl
    have hlt := (h.pending l hl).2
    simp only [passed, decide_eq_true_eq]
    rw [UInt64.lt_iff_toNat_lt] at hlt ⊢
    have := s.lastSubmit.toNat_lt
    simp only [UInt64.reduceToNat]
    omega
  exact ⟨List.takeWhile_eq_self_iff.mpr hp, List.dropWhile_eq_nil_iff.mpr hp⟩

theorem initial : ({ last := 1, lastSubmit := 1 } : EventSlot).Sound where
  started := UInt64.le_refl _
  behind := UInt64.le_refl _
  ordered := List.Pairwise.nil
  pending l hl := by simp at hl

end Sound

end EventSlot

/-! ## All slots -/

namespace SlotTable

/-- The slot at an index; past the end there are only slots as they are made. -/
def entry (t : SlotTable) (i : Nat) : EventSlot := t[i]?.getD {}

theorem get?_natCast (t : SlotTable) (i : Nat) : t.get? i = t[i]? := by
  simp [get?]

theorem get?_eq_some {t : SlotTable} {i : Int} {s : EventSlot} (h : t.get? i = some s) :
    0 ≤ i ∧ i.toNat < slotCount ∧ t.entry i.toNat = s := by
  unfold get? at h
  split at h
  · refine ⟨‹_›, ?_, by simp [entry, h]⟩
    by_contra hlt
    simp [Vector.getElem?_eq_none (Nat.le_of_not_lt hlt)] at h
  · cases h

theorem entry_put (t : SlotTable) {i : Nat} (hi : i < slotCount) (s : EventSlot) (j : Nat) :
    (t.put i s).entry j = if i = j then s else t.entry j := by
  unfold entry put
  rw [Vector.getElem?_setIfInBounds]
  split <;> simp_all

@[simp] theorem await_default (c : Callback) : ({} : EventSlot).await c = {} := rfl

theorem entry_awaitAll (t : SlotTable) (bound : Nat) (c : Callback) (i : Nat) :
    (t.awaitAll bound c).entry i = if i < bound then (t.entry i).await c else t.entry i := by
  unfold entry awaitAll
  rw [Vector.getElem?_mapIdx]
  cases t[i]? <;> simp

@[simp] theorem entry_replicate (i : Nat) :
    entry (Vector.replicate slotCount {}) i = {} := by
  unfold entry
  rw [Vector.getElem?_replicate]
  split <;> rfl

/-- The started slots are sound, and the rest as they were made. -/
structure Sound (t : SlotTable) (bound : Nat) : Prop where
  bound_le : bound ≤ slotCount
  started : ∀ i < bound, (t.entry i).Sound
  rest : ∀ i, bound ≤ i → t.entry i = {}

namespace Sound

variable {t : SlotTable} {bound : Nat}

theorem put (h : t.Sound bound) {i : Nat} (hi : i < bound) {s : EventSlot} (hs : s.Sound) :
    (t.put i s).Sound bound where
  bound_le := h.bound_le
  started j hj := by
    rw [entry_put t (Nat.lt_of_lt_of_le hi h.bound_le)]
    split
    · exact hs
    · exact h.started j hj
  rest j hj := by
    rw [entry_put t (Nat.lt_of_lt_of_le hi h.bound_le), if_neg (by omega)]
    exact h.rest j hj

theorem awaitAll (h : t.Sound bound) (c : Callback) : (t.awaitAll bound c).Sound bound where
  bound_le := h.bound_le
  started j hj := by
    rw [entry_awaitAll, if_pos hj]
    exact (h.started j hj).await c
  rest j hj := by
    rw [entry_awaitAll, if_neg (by omega)]
    exact h.rest j hj

/-- Starting the next slot. -/
theorem start (h : t.Sound bound) (hb : bound < slotCount) {s : EventSlot} (hs : s.Sound) :
    (t.put bound s).Sound (bound + 1) where
  bound_le := hb
  started j hj := by
    rw [entry_put t hb]
    split
    · exact hs
    · exact h.started j (by omega)
  rest j hj := by
    rw [entry_put t hb, if_neg (by omega)]
    exact h.rest j (by omega)

/-- A slot that has links is started. -/
theorem lt_of_mem_links (h : t.Sound bound) {i : Nat} {l : Link} (hl : l ∈ (t.entry i).links) :
    i < bound := by
  by_contra hi
  rw [h.rest i (Nat.le_of_not_lt hi)] at hl
  simp at hl

end Sound

/-! ## Counting links -/

end SlotTable

namespace EventSlot

/-- How many links carry a callback. -/
def waiting (s : EventSlot) (c : Callback) : Nat := s.links.countP fun l => l.callback = c

theorem waiting_await (s : EventSlot) (c d : Callback) :
    (s.await c).waiting d = s.waiting d + if s.isIdle ∨ c ≠ d then 0 else 1 := by
  unfold waiting
  rw [await_links, List.countP_append]
  by_cases hs : s.isIdle <;> by_cases hc : c = d <;> simp [hs, hc]

end EventSlot

namespace SlotTable

open EventSlot

/-- How many links of all slots carry a callback. -/
def waiting (t : SlotTable) (c : Callback) : Nat := (t.toList.map (·.waiting c)).sum

theorem sum_map_set {α : Type} (f : α → Nat) (l : List α) (i : Nat) (a b : α) (h : l[i]? = some b) :
    ((l.set i a).map f).sum + f b = (l.map f).sum + f a := by
  induction l generalizing i with
  | nil => simp at h
  | cons x l ih =>
    cases i with
    | zero =>
      simp only [List.getElem?_cons_zero, Option.some.injEq] at h
      simp [h]
      omega
    | succ i =>
      have := ih i (by simpa using h)
      simp only [List.set_cons_succ, List.map_cons, List.sum_cons]
      omega

/-- Replacing a slot exchanges its links for others. -/
theorem waiting_put (t : SlotTable) {i : Nat} (hi : i < slotCount) (s : EventSlot) (c : Callback) :
    (t.put i s).waiting c + (t.entry i).waiting c = t.waiting c + s.waiting c := by
  unfold waiting put
  rw [Vector.toList_setIfInBounds]
  refine sum_map_set _ _ _ _ _ ?_
  simp [entry, hi]

/-- Replacing a slot by one from which links were taken. -/
theorem waiting_put_of_links (t : SlotTable) {i : Nat} (hi : i < slotCount) {s : EventSlot}
    {ls : List Link} (h : (t.entry i).links = ls ++ s.links) (c : Callback) :
    (t.put i s).waiting c + (ls.map (·.callback)).count c = t.waiting c := by
  have hput := t.waiting_put hi s c
  have hcount : (t.entry i).waiting c = (ls.map (·.callback)).count c + s.waiting c := by
    rw [EventSlot.waiting, h, List.countP_append, List.count, List.countP_map, EventSlot.waiting]
    congr 1
  omega

/-- Replacing a slot by one with the same links. -/
theorem waiting_put_same (t : SlotTable) {i : Nat} {s : EventSlot} (h : s.links = (t.entry i).links)
    (c : Callback) : (t.put i s).waiting c = t.waiting c := by
  by_cases hi : i < slotCount
  · simpa using t.waiting_put_of_links hi (show (t.entry i).links = [] ++ s.links from h.symm) c
  · have hsame : t.put i s = t := by
      unfold put
      exact Vector.setIfInBounds_eq_of_size_le (Nat.le_of_not_lt hi)
    rw [hsame]

theorem waiting_mapIdx (c d : Callback) (l : List EventSlot) (bound : Nat) :
    ((l.mapIdx fun i s => if i < bound then s.await c else s).map (·.waiting d)).sum =
      (l.map (·.waiting d)).sum +
        if c = d then (l.take bound).countP fun s => !s.isIdle else 0 := by
  induction l generalizing bound with
  | nil => simp
  | cons s l ih =>
    rw [List.mapIdx_cons]
    cases bound with
    | zero =>
      have := ih 0
      simp_all
    | succ n =>
      have := ih n
      simp only [Nat.add_lt_add_iff_right, Nat.zero_lt_succ, ↓reduceIte, List.map_cons,
        List.sum_cons, List.take_succ_cons, List.countP_cons, waiting_await] at this ⊢
      by_cases hc : c = d <;> by_cases hs : s.isIdle <;> simp [hc, hs] at this ⊢ <;> omega

/-- Waiting on every busy slot adds one link for each of them. -/
theorem waiting_awaitAll (t : SlotTable) (bound : Nat) (c d : Callback) :
    (t.awaitAll bound c).waiting d = t.waiting d + if c = d then t.busy bound else 0 := by
  unfold waiting awaitAll busy
  rw [Vector.toList_mapIdx]
  exact waiting_mapIdx c d t.toList bound

theorem waiting_eq_zero {t : SlotTable} {c : Callback} :
    t.waiting c = 0 ↔ ∀ i, ∀ l ∈ (t.entry i).links, l.callback ≠ c := by
  unfold waiting
  rw [List.sum_eq_zero_iff_forall_eq_nat]
  constructor
  · intro h i l hl
    by_cases hi : i < slotCount
    · have hs := h ((t.entry i).waiting c) (List.mem_map.mpr ⟨t.entry i, ?_, rfl⟩)
      · exact fun hc => List.countP_eq_zero.mp hs l hl (by simpa using hc)
      · simp [entry, hi]
    · simp [entry, hi] at hl
  · intro h n hn
    obtain ⟨s, hs, rfl⟩ := List.mem_map.mp hn
    obtain ⟨i, hi, rfl⟩ := List.getElem_of_mem hs
    refine List.countP_eq_zero.mpr fun l hl => ?_
    have hlt : i < slotCount := by simpa using hi
    have := h i l (by simpa [entry, hlt] using hl)
    simpa using this

/-- No more slots are busy than are bound. -/
theorem busy_le (t : SlotTable) (bound : Nat) : t.busy bound ≤ bound :=
  Nat.le_trans List.countP_le_length (List.length_take_le _ _)

theorem busy_le_slotCount (t : SlotTable) (bound : Nat) : t.busy bound ≤ slotCount :=
  Nat.le_trans List.countP_le_length (Nat.le_trans (List.length_take_le' _ _) (Nat.le_of_eq (Vector.length_toList)))

/-- If no slot is busy, every bound slot is idle. -/
theorem isIdle_of_not_busy {t : SlotTable} {bound i : Nat} (hb : t.busy bound = 0) (hi : i < bound)
    (hlt : i < slotCount) : (t.entry i).isIdle = true := by
  unfold busy at hb
  rw [List.countP_eq_zero] at hb
  have := hb (t.entry i) ?_
  · simpa using this
  · refine List.mem_take_iff_getElem.mpr ⟨i, by simpa using Nat.lt_min.mpr ⟨hi, hlt⟩, ?_⟩
    simp [entry, hlt]

/-- If no slot is busy, nothing waits. -/
theorem Sound.waiting_of_not_busy {t : SlotTable} {bound : Nat} (h : t.Sound bound)
    (hb : t.busy bound = 0) (c : Callback) : t.waiting c = 0 := by
  refine waiting_eq_zero.mpr fun i l hl => ?_
  have hi := h.lt_of_mem_links hl
  have hidle := isIdle_of_not_busy hb hi (Nat.lt_of_lt_of_le hi h.bound_le)
  simp [(h.started i hi).links_eq_nil hidle] at hl

end SlotTable

end Mali
