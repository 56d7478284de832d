import Mali.Proofs.Runs

/-!
# Notices in any order

The GPU says on a slot how far it has come, and nothing says in which order such notices are worked off.  One that goes
back is dropped, and one that goes past the last submission is cut short.  So a slot comes to the greatest number that
it was told of, as far as that was submitted, and lets go of every link that the number has passed.  Neither depends on
the order.

* `EventSlot.goal`, `EventSlot.reach`: where a notice takes a slot, and a slot that has come there.
* `EventSlot.Sound.advance_comm`: two notices on one slot may change places.
* `EventSlot.Sound.check_eq_none`: a sound slot keeps its rule, so no notice is refused.
* `Notice`, `Progress.notice`: a notice on some slot, and what it does to the slots.
* `Progress.Sound.foldl_notice_perm`: the order of notices does not matter to the slots.
-/

namespace Mali

/-! ## One slot -/

namespace EventSlot

/-- A slot that has come to a number. -/
def reach (s : EventSlot) (n : UInt64) : EventSlot :=
  { s with last := n, links := s.links.dropWhile (passed n) }

/-- Where a notice takes a slot: no further than what was submitted, and never back. -/
def goal (s : EventSlot) (n : UInt64) : UInt64 := if s.isBackward n then s.last else s.limit n

variable {s : EventSlot}

/-- What has been passed stays passed. -/
theorem reach_reach {n k : UInt64} (h : n ≤ k) : (s.reach n).reach k = s.reach k := by
  have hlinks (ls : List Link) : (ls.dropWhile (passed n)).dropWhile (passed k) = ls.dropWhile (passed k) := by
    induction ls with
    | nil => rfl
    | cons l ls ih =>
      by_cases hn : l.seqnum < n
      · have hk : l.seqnum < k := UInt64.lt_of_lt_of_le hn h
        rw [List.dropWhile_cons_of_pos (by simpa [passed] using hn), ih,
          List.dropWhile_cons_of_pos (by simpa [passed] using hk)]
      · rw [List.dropWhile_cons_of_neg (by simpa [passed] using hn)]
  simp [reach, hlinks]

theorem Sound.toNat_goal (h : s.Sound) (n : UInt64) :
    (s.goal n).toNat = max s.last.toNat (min n.toNat s.lastSubmit.toNat) := by
  have hbehind := UInt64.le_iff_toNat_le.mp h.behind
  unfold goal isBackward limit
  simp only [decide_eq_true_eq, UInt64.lt_iff_toNat_lt]
  split
  · omega
  · split
    · omega
    · omega

/-- On a sound slot no link was passed before. -/
theorem Sound.reach_last (h : s.Sound) : s.reach s.last = s := by
  have hlinks : s.links.dropWhile (passed s.last) = s.links := by
    rw [List.dropWhile_eq_self_iff]
    intro hpos
    have hle := (h.pending _ (List.getElem_mem hpos)).1
    simpa [passed, UInt64.not_lt] using hle
  rw [reach, hlinks]

theorem Sound.advance_eq (h : s.Sound) (n : UInt64) : (s.advance n).2 = s.reach (s.goal n) := by
  unfold EventSlot.advance goal
  split
  · exact h.reach_last.symm
  · rfl

/-- Two notices may come in any order. -/
theorem Sound.advance_comm (h : s.Sound) (n k : UInt64) :
    ((s.advance n).2.advance k).2 = ((s.advance k).2.advance n).2 := by
  have hboth (n k : UInt64) : ((s.advance n).2.advance k).2 = s.reach ((s.reach (s.goal n)).goal k) := by
    have hn := h.advance n
    rw [h.advance_eq] at hn ⊢
    rw [hn.advance_eq, reach_reach]
    rw [UInt64.le_iff_toNat_le, hn.toNat_goal]
    exact Nat.le_max_left _ _
  rw [hboth n k, hboth k n]
  congr 1
  have hn := h.advance n
  have hk := h.advance k
  rw [h.advance_eq] at hn hk
  rw [← UInt64.toNat_inj, hn.toNat_goal, hk.toNat_goal]
  simp only [reach, h.toNat_goal]
  omega

/-- On a slot that is as it was made a notice does nothing. -/
theorem advance_default (n : UInt64) : (({} : EventSlot).advance n).2 = {} := by
  simp [advance, isBackward, limit, take]

theorem advance_fst (s : EventSlot) (n : UInt64) : (s.advance n).1 = (s.advanced n).map (·.callback) := by
  unfold EventSlot.advance advanced
  split <;> rfl

/-- Ordered links are in order.  By induction on them. -/
theorem firstDisorder_eq_none {ls : List Link} (h : ls.Pairwise fun a b => a.seqnum ≤ b.seqnum) (n : Nat) :
    firstDisorder n ls = none := by
  induction ls generalizing n with
  | nil => rfl
  | cons a ls ih =>
    cases ls with
    | nil => rfl
    | cons b ls =>
      rw [firstDisorder, if_neg (UInt64.not_lt.mpr (List.rel_of_pairwise_cons h List.mem_cons_self))]
      exact ih h.of_cons _

/-- A sound slot keeps its rule. -/
theorem Sound.check_eq_none (h : s.Sound) : s.check = none := by
  rw [check, if_neg fun hpast => UInt64.not_lt.mpr h.behind hpast.1]
  exact firstDisorder_eq_none h.ordered _

end EventSlot

/-! ## All slots -/

namespace SlotTable

theorem ext_entry {t t' : SlotTable} (h : ∀ i, t.entry i = t'.entry i) : t = t' := by
  refine Vector.ext fun i hi => ?_
  have := h i
  simpa [entry, hi] using this

end SlotTable

/-- A notice: a slot, and how far it is said to have come. -/
structure Notice where
  slot : Fin slotCount
  seqnum : UInt64
  deriving DecidableEq

namespace Progress

/-- What a notice does to the slots. -/
def notice (p : Progress) (r : Notice) : Progress :=
  p.put r.slot ((p.slots.entry r.slot).advance r.seqnum).2

variable {p : Progress}

theorem entry_notice (p : Progress) (r : Notice) (i : Nat) :
    (p.notice r).slots.entry i =
      if r.slot.val = i then ((p.slots.entry i).advance r.seqnum).2 else p.slots.entry i := by
  rw [notice, Progress.put, SlotTable.entry_put _ r.slot.isLt]
  split
  · rename_i hi
    rw [hi]
  · rfl

/-- Two notices may come in any order. -/
theorem Sound.notice_comm (h : p.Sound) (r r' : Notice) : (p.notice r).notice r' = (p.notice r').notice r := by
  have hslots : ((p.notice r).notice r').slots = ((p.notice r').notice r).slots := by
    refine SlotTable.ext_entry fun i => ?_
    simp only [entry_notice]
    split
    · split
      · rcases Nat.lt_or_ge i p.bound with hi | hi
        · exact (h.slots.started i hi).advance_comm _ _
        · rw [h.slots.rest i hi]
          simp only [EventSlot.advance_default]
      · rfl
    · rfl
  exact congrArg (fun slots => { p with slots }) hslots

/-- A slot keeps its rule when it is told a number. -/
theorem Sound.check_advance (h : p.Sound) (i : Nat) (n : UInt64) :
    ((p.slots.entry i).advance n).2.check = none := by
  rcases Nat.lt_or_ge i p.bound with hi | hi
  · exact ((h.slots.started i hi).advance n).check_eq_none
  · rw [h.slots.rest i hi, EventSlot.advance_default]
    rfl

/-- By induction on the permutation. -/
theorem Sound.foldl_notice_perm {rs rs' : List Notice} (h : p.Sound) (hperm : rs.Perm rs') :
    rs.foldl notice p = rs'.foldl notice p := by
  induction hperm generalizing p with
  | nil => rfl
  | cons r _ ih => exact ih (h.advance r.slot r.seqnum)
  | swap r r' rs => rw [List.foldl_cons, List.foldl_cons, List.foldl_cons, List.foldl_cons, h.notice_comm]
  | trans _ _ ih ih' => exact (ih h).trans (ih' h)

end Progress

end Mali
