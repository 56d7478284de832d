import Mali.Proofs.Overflows

/-!
# Deferred releases are safe

When the last reference to a buffer goes, every slot that is busy gets a link for its last submission.
A link comes off its slot only when the slot is reported to have come that far, when its stream is
terminated, or when a caller says so.  The count of the buffer is the number of its links and ready
callbacks together, so when a callback finds it at one, no link is left, on any slot.

This is about one release among many.  Links of earlier and later releases of the same buffer only make
the count larger, so it does not matter whether the buffer was imported and released again in between.

The count is a word of 32 bits.  Once `2 ^ 32` callbacks are to come for a buffer it is wrong, and the buffer goes
while links for it are left.

* `Run.mem_links_or_passed`: how a link comes off a slot.
* `Run.putAway_after_drain`: a buffer is cached or freed only after every slot has moved on.
* `not_forall_drained`: not so after `2 ^ 32` releases.
-/

namespace Mali

theorem UInt64.le_of_pred_lt {n k : UInt64} (hn : 1 ≤ n) (h : n - 1 < k) : n ≤ k := by
  rw [UInt64.lt_iff_toNat_lt, UInt64.toNat_sub_of_le _ _ hn] at h
  rw [UInt64.le_iff_toNat_le] at hn ⊢
  simp only [UInt64.reduceToNat] at h hn
  omega

namespace EventSlot

/-- What a report takes off a slot was submitted before the number that the slot comes to. -/
theorem advance_last_of_mem {s : EventSlot} {n : UInt64} {l : Link} (hl : l ∈ s.advanced n) :
    l.seqnum < (s.advance n).2.last := by
  unfold advanced at hl
  unfold advance
  split at hl
  · exact absurd hl List.not_mem_nil
  · rename_i hb
    rw [if_neg hb]
    exact passed_of_mem_takeWhile hl

end EventSlot

variable {κ : Type}

/-- Since the first configuration of a run, a slot has come to a number, or its stream was terminated, or
a caller said that what is before the number was passed. -/
def Passed (i : Nat) (n : UInt64) (es : List (Config κ × Action)) (c : Config κ) : Prop :=
  (∃ d ∈ es.map (·.1) ++ [c], n ≤ (d.slot i).last) ∨ .terminate i ∈ es.map (·.2) ∨
    ∃ k, .update i k ∈ es.map (·.2) ∧ n - 1 < k

namespace Passed

variable {i : Nat} {n : UInt64} {es es' : List (Config κ × Action)} {c : Config κ}

theorem cons (e : Config κ × Action) (h : Passed i n es c) : Passed i n (e :: es) c := by
  rcases h with ⟨d, hd, hle⟩ | ht | ⟨k, hk, hlt⟩
  · exact .inl ⟨d, List.mem_cons_of_mem _ hd, hle⟩
  · exact .inr (.inl (List.mem_cons_of_mem _ ht))
  · exact .inr (.inr ⟨k, List.mem_cons_of_mem _ hk, hlt⟩)

theorem concat {c' : Config κ} (act : Action) (h : Passed i n es c) :
    Passed i n (es ++ [(c, act)]) c' := by
  unfold Passed
  rw [List.map_append, List.map_append]
  rcases h with ⟨d, hd, hle⟩ | ht | ⟨k, hk, hlt⟩
  · exact .inl ⟨d, List.mem_append_left _ hd, hle⟩
  · exact .inr (.inl (List.mem_append_left _ ht))
  · exact .inr (.inr ⟨k, List.mem_append_left _ hk, hlt⟩)

end Passed

section Kernel

variable [Kernel κ] {c c' : Config κ} {es : List (Config κ × Action)}

/-- How a link comes off its slot in one step. -/
theorem Step.mem_links_or_passed {act : Action} (h : Step c act c') (hs : c.progress.Sound)
    (hmax : c'.progress.streams.length ≤ slotCount) {i : Nat} {n : UInt64} {l : Link} (hn : 1 ≤ n)
    (hseq : l.seqnum = n - 1) (hl : l ∈ (c.slot i).links) :
    l ∈ (c'.slot i).links ∨ n ≤ (c'.slot i).last ∨ act = .terminate i ∨
      ∃ k, act = .update i k ∧ n - 1 < k := by
  have hmem : l ∈ linksOn i (act.takes c.progress) ++ (c'.slot i).links := by
    rw [← h.links hs hmax i]
    exact List.mem_append_left _ hl
  rcases List.mem_append.mp hmem with htaken | hstay
  · have hslot := h.slot hs hmax i
    cases act with
    | advance j k =>
      unfold Action.takes at htaken
      rw [linksOn_map] at htaken
      split at htaken
      · rename_i hij
        have hlt := EventSlot.advance_last_of_mem htaken
        refine .inr (.inl (UInt64.le_of_pred_lt hn ?_))
        subst hij
        rw [← hseq, hslot, Action.act, if_pos rfl]
        exact hlt
      · exact absurd htaken List.not_mem_nil
    | update j k =>
      unfold Action.takes at htaken
      rw [linksOn_map] at htaken
      split at htaken
      · rename_i hij
        have hlt := EventSlot.passed_of_mem_takeWhile htaken
        exact .inr (.inr (.inr ⟨k, by rw [hij], by rwa [← hseq]⟩))
      · exact absurd htaken List.not_mem_nil
    | terminate j =>
      unfold Action.takes at htaken
      rw [linksOn_map] at htaken
      split at htaken
      · rename_i hij
        exact .inr (.inr (.inl (by rw [hij])))
      · exact absurd htaken List.not_mem_nil
    | _ => exact absurd htaken List.not_mem_nil
  · exact .inl hstay

/-- A release puts a link for the last submission on every busy slot. -/
theorem Step.link_of_release {x : Nat} (h : Step c (.release x) c') (hs : c.progress.Sound)
    (hmax : c'.progress.streams.length ≤ slotCount) {i : Nat} (hi : i < c.progress.bound)
    (hbusy : (c.slot i).isIdle = false) :
    ⟨(c.slot i).lastSubmit - 1, .release x⟩ ∈ (c'.slot i).links := by
  rw [h.slot hs hmax, Action.act, if_pos hi, EventSlot.await_links, hbusy]
  exact List.mem_append_right _ (List.mem_singleton_self _)

/-- By induction on the run: a link stays until something lets it go. -/
theorem Run.mem_links_or_passed (h : Run c es c') (hs : c.progress.Sound)
    (hmax : c'.progress.streams.length ≤ slotCount) {i : Nat} {n : UInt64} {l : Link} (hn : 1 ≤ n)
    (hseq : l.seqnum = n - 1) (hl : l ∈ (c.slot i).links) :
    l ∈ (c'.slot i).links ∨ Passed i n es c' := by
  induction h with
  | nil => exact .inl hl
  | cons hstep hr ih =>
    have hmax' := Nat.le_trans hr.length_streams_le hmax
    rcases hstep.mem_links_or_passed hs hmax' hn hseq hl with hstay | hlast | rfl | ⟨k, rfl, hk⟩
    · exact (ih (hstep.sound hs hmax') hmax hstay).imp_right (.cons _)
    · exact .inr (.inl ⟨_, List.mem_cons_of_mem _ hr.head_mem, hlast⟩)
    · exact .inr (.inr (.inl List.mem_cons_self))
    · exact .inr (.inr (.inr ⟨k, List.mem_cons_self, hk⟩))

/-- Only a buffer that is not in use, and for which the last callback runs or no slot is busy, is put
away. -/
theorem Step.of_putAway {act : Action} (h : Step c act c') (hs : c.progress.Sound)
    (hmax : c'.progress.streams.length ≤ slotCount) {x : Nat} {a a' : Account}
    (hx : c.account? x = some a) (hcached : a.cachedIn = none) (hfreed : a.freed = false)
    (hx' : c'.account? x = some a') (haway : a'.cachedIn ≠ none ∨ a'.freed = true) :
    (act = .release x ∧ c.progress.slots.busy c.progress.bound = 0) ∨
      ∃ i l, act = .fire i l ∧ l.callback = .release x ∧ a.gpuRefs - 1 = 0 := by
  have hstay (h : ∃ b, c'.account? x = some b ∧ b.cachedIn = none ∧ b.freed = a.freed) : False := by
    obtain ⟨b, hb, hbcached, hbfreed⟩ := h
    rw [hx'] at hb
    cases hb
    rcases haway with haway | haway
    · exact haway hbcached
    · rw [hbfreed, hfreed] at haway
      cases haway
  by_cases hheld : c.held = some x
  · -- a held buffer is only ever handed out
    exfalso
    cases h with
    | quiet h => exact hstay ⟨a, (congrArg (·.accounts[x]?) h.storage).trans hx, hcached, rfl⟩
    | @handOut m m' y he =>
      obtain ⟨_, -, hedit⟩ := handOut_ok he
      have hxy : y = x := Option.some.inj hheld
      subst hxy
      exact hstay ⟨_, hedit.account hx, hcached, rfl⟩
    | _ => cases hheld
  · rcases h.account (h.bound_lt hs hmax) hx hcached hheld with
      ⟨b, hb, hbcached, hbfreed, -⟩ | ⟨hact, -, hbusy | hb⟩ | ⟨i, l, hact, hl, hgpu, -⟩
    · exact absurd ⟨b, hb, hbcached, hbfreed⟩ hstay
    · exact .inl ⟨hact, hbusy⟩
    · exact absurd hb hstay
    · exact .inr ⟨i, l, hact, hl, hgpu⟩

/-- Along every run from a fresh device on which at most 256 streams are attached: if the last reference
to a buffer goes at `c₀`, and a later step puts the buffer into the cache or frees it, then every slot
that was bound at `c₀` has since come to what was submitted on it by then, or its stream was terminated,
or a caller said that everything submitted by then was passed.

The count of the buffer is a 32-bit word.  That it is right is all that is asked of the step, and of no
other: fewer than `2 ^ 32` callbacks are to come for the buffer. -/
theorem Run.putAway_after_drain {m : Machine κ} {c₀ : Config κ} {es₀ : List (Config κ × Action)}
    {act : Action} {x : Nat} {a a' : Account} (hfresh : Fresh m)
    (hbefore : Run ⟨m, [], none⟩ es₀ c₀) (hrun : Run c₀ es c) (hstep : Step c act c')
    (hfirst : (es.map (·.2) ++ [act]).head? = some (.release x))
    (hx : c.account? x = some a) (hcached : a.cachedIn = none) (hfreed : a.freed = false)
    (hx' : c'.account? x = some a') (haway : a'.cachedIn ≠ none ∨ a'.freed = true)
    (hmax : c'.progress.streams.length ≤ slotCount) (hcount : c.waiting x < 2 ^ 32) :
    ∀ i < c₀.progress.bound,
      (∃ d ∈ (es ++ [(c, act)]).map (·.1) ++ [c'], (c₀.slot i).lastSubmit ≤ (d.slot i).last) ∨
      .terminate i ∈ (es ++ [(c, act)]).map (·.2) ∨
      ∃ k, .update i k ∈ (es ++ [(c, act)]).map (·.2) ∧ (c₀.slot i).lastSubmit - 1 < k := by
  intro i hi
  show Passed i (c₀.slot i).lastSubmit (es ++ [(c, act)]) c'
  have hstreams := hstep.length_streams
  have hmax₁ : c.progress.streams.length ≤ slotCount := by omega
  have hs₀ := hbefore.sound hfresh.sound (Nat.le_trans hrun.length_streams_le hmax₁)
  have hs := hrun.sound hs₀ hmax₁
  have hidle {d : Config κ} (h : (d.slot i).isIdle = true) : (d.slot i).lastSubmit ≤ (d.slot i).last :=
    UInt64.le_of_eq (beq_iff_eq.mp h).symm
  rcases hstep.of_putAway hs hmax hx hcached hfreed hx' haway with
    ⟨rfl, hbusy⟩ | ⟨j, l, rfl, hl, hgpu⟩
  · -- the release ends at once because every slot is idle
    have hbound : i < c.progress.bound := by
      have := hrun.length_streams_le
      rw [hs₀.length_streams, hs.length_streams] at this
      omega
    have hlast := hidle (SlotTable.isIdle_of_not_busy hbusy hbound
      (Nat.lt_of_lt_of_le hbound hs.slots.bound_le))
    exact .concat _ (.inl ⟨c, List.mem_append_right _ (List.mem_singleton_self c),
      UInt64.le_trans (hrun.lastSubmit_le hs₀ hmax₁ i) hlast⟩)
  · -- the callback that runs is the last one to come
    have hcounted : c.Counted :=
      ((hbefore.append hrun).sound_invariant (I := Config.Counted)
        (fun _ _ _ h hs hs' hc => h.counted hs (hs'.length_streams ▸ hs'.slots.bound_le) hc)
        hfresh.sound hmax₁ hfresh.counted).2
    have hnone : c'.waiting x = 0 := by
      have hwaiting : c'.waiting x + 1 = c.waiting x := by
        have := hstep.waiting x
        simpa [Action.fires, hl] using this
      have hgpu' : Int32.ofNat (c.waiting x) - 1 = 0 := by
        rw [← hcounted x, Machine.gpuRefs_of_account hx]
        exact hgpu
      rw [Int32.ofNat_pred (by omega)] at hgpu'
      have := Int32.eq_zero_of_ofNat (by omega) hgpu'
      omega
    have hlinks : ∀ k ∈ (c.slot i).links, k.callback ≠ .release x := by
      have hslot : c'.slot i = c.slot i := hstep.slot hs hmax i
      rw [← hslot]
      exact SlotTable.waiting_eq_zero.mp (Nat.eq_zero_of_add_eq_zero_right hnone) i
    cases hrun with
    | nil => cases hfirst
    | @cons _ c₁ _ act₀ es hstep₀ hrest =>
      obtain rfl : act₀ = .release x := Option.some.inj hfirst
      have hmax₀ := Nat.le_trans hrest.length_streams_le hmax₁
      by_cases hbusy : (c₀.slot i).isIdle = true
      · exact .inl ⟨c₀, List.mem_cons_self, hidle hbusy⟩
      · have hlink := hstep₀.link_of_release hs₀ hmax₀ hi (Bool.not_eq_true _ ▸ hbusy)
        have hn := (hs₀.slots.started i hi).started
        rcases hrest.mem_links_or_passed (hstep₀.sound hs₀ hmax₀) hmax₁ hn rfl hlink with hstay | hpassed
        · exact absurd rfl (hlinks _ hstay)
        · exact (hpassed.cons _).concat _

end Kernel

set_option maxRecDepth 20000 in
/-- In the short run the buffer is freed after the slot has come to what was submitted on it. -/
theorem putAway_after_drain_sample :
    (⟨Sample.busy, [], none⟩ : Config Bench).slot 0 = { last := 1, lastSubmit := 6 } ∧
    (⟨Sample.reported, [(0, Sample.link)], none⟩ : Config Bench).account? 0 =
      some { handle := 0, gpuRefs := 1 } ∧
    (⟨Sample.freed, [], none⟩ : Config Bench).account? 0 = some { handle := 0, freed := true } ∧
    ∃ d ∈ Sample.draining.map (·.1) ++ [⟨Sample.freed, [], none⟩], 6 ≤ (d.slot 0).last := by
  have hbusy : (⟨Sample.busy, [], none⟩ : Config Bench).slot 0 = { last := 1, lastSubmit := 6 } := by
    decide
  have hx : (⟨Sample.reported, [(0, Sample.link)], none⟩ : Config Bench).account? 0 =
      some { handle := 0, gpuRefs := 1 } := by decide
  have hx' : (⟨Sample.freed, [], none⟩ : Config Bench).account? 0 =
      some { handle := 0, freed := true } := by decide
  refine ⟨hbusy, hx, hx', ?_⟩
  have hrun : Run ⟨Sample.busy, [], none⟩
      [(⟨Sample.busy, [], none⟩, .release 0), (⟨Sample.released, [], none⟩, .advance 0 6)]
      ⟨Sample.reported, [(0, Sample.link)], none⟩ :=
    .cons Sample.step_released (.single Sample.step_reported)
  have hcount := (Sample.run_busy.append hrun).waiting_le Sample.fresh_start.sound (by decide) 0
  rw [Sample.fresh_start.waiting] at hcount
  have hpassed := Run.putAway_after_drain Sample.fresh_start Sample.run_busy hrun Sample.step_freed rfl
    hx rfl rfl hx' (.inr rfl) (by decide) (Nat.lt_of_le_of_lt hcount (by decide)) 0
    (by decide)
  rw [hbusy] at hpassed
  rcases hpassed with hlast | hterminate | ⟨k, hupdate, -⟩
  · exact hlast
  · exact absurd hterminate (by decide)
  · simp at hupdate

set_option maxRecDepth 20000 in
/-- Without a bound on what is to come for the buffer it may go too early: after `2 ^ 32` rounds of a release and an
import, one more release is over with the first link of all, and the slot has not come to what was submitted on it. -/
theorem not_forall_drained : ¬∀ (m : Machine Bench) (es₀ es : List (Config Bench × Action)) (c₀ c c' : Config Bench)
    (act : Action) (x : Nat) (a a' : Account), Fresh m → Run ⟨m, [], none⟩ es₀ c₀ → Run c₀ es c → Step c act c' →
      (es.map (·.2) ++ [act]).head? = some (.release x) → c.account? x = some a → a.cachedIn = none →
      a.freed = false → c'.account? x = some a' → a'.cachedIn ≠ none ∨ a'.freed = true →
      c'.progress.streams.length ≤ slotCount → ∀ i < c₀.progress.bound,
        (∃ d ∈ (es ++ [(c, act)]).map (·.1) ++ [c'], (c₀.slot i).lastSubmit ≤ (d.slot i).last) ∨
        .terminate i ∈ (es ++ [(c, act)]).map (·.2) ∨
        ∃ k, .update i k ∈ (es ++ [(c, act)]).map (·.2) ∧ (c₀.slot i).lastSubmit - 1 < k := by
  intro hall
  obtain ⟨n, hn⟩ : ∃ n, n + 1 = 2 ^ 32 := ⟨2 ^ 32 - 1, by decide⟩
  obtain ⟨es, hrun⟩ := Sample.exists_run_overflowing hn
  have hmax : (⟨Sample.laden Sample.gone (Sample.opened n) (Sample.spent 0), [], none⟩ :
      Config Bench).progress.streams.length ≤ slotCount := by
    show Sample.gone.progress.streams.length ≤ slotCount
    decide
  have hbound : 0 < (⟨Sample.laden Sample.lent (Sample.crowded n) (Sample.loan 1 0), [], none⟩ :
      Config Bench).progress.bound := by
    show 0 < Sample.lent.progress.bound
    decide
  have hpassed := hall Sample.pantry es _ _ _ _ _ 0 (Sample.loan 0 1).account (Sample.spent 0).account
    Sample.fresh_pantry hrun (.cons (Sample.step_overflown n) (.single (Sample.step_opened n))) (Sample.step_gone n)
    rfl rfl rfl rfl rfl (.inr rfl) hmax 0 hbound
  simp only [List.map_cons, List.map_nil, List.cons_append, List.nil_append] at hpassed
  rcases hpassed with ⟨d, hd, hlast⟩ | hterminate | ⟨k, hupdate, -⟩
  · -- the slot has come to 2 of 10
    rw [Sample.slot_laden] at hlast
    simp only [List.mem_cons, List.not_mem_nil, or_false] at hd
    rcases hd with rfl | rfl | rfl | rfl <;> rw [Sample.slot_laden] at hlast
    · exact absurd hlast (by decide : ¬(10 : UInt64) ≤ 1)
    · exact absurd hlast (by decide : ¬(10 : UInt64) ≤ 1)
    · exact absurd hlast (by decide : ¬(10 : UInt64) ≤ 2)
    · exact absurd hlast (by decide : ¬(10 : UInt64) ≤ 2)
  · simp at hterminate
  · simp at hupdate

end Mali
