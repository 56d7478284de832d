import Mali.Proofs.SlotHistory
import Mali.Proofs.UsageJoins

/-!
# Cleaned dependencies

Cleaning turns a list of dependencies into one that can be waited for: what was never submitted goes,
and a use that names the work being submitted becomes one that names the work before it.  Waiting for a
buffer looks at a usage list in the same way, and is over exactly when all that cleaning would leave of
it is complete.

Both stop at the first queue that is not bound.  A sorted list has nothing but such queues from there
on, so they look at all that they should.

* `Usage.settle?`: what cleaning makes of one use.
* `Usage.clean_eq`, `Usage.finished_eq`: stopping early loses nothing.
* `Usage.mem_clean_iff`: what is left after cleaning.
* `Usage.finished_iff_clean`: waiting and cleaning agree.
* `Run.clean_waitable`: on a device in use cleaned dependencies can be waited for.
-/

namespace Mali

namespace Usage

/-- Whether a use is on a bound queue. -/
def isBound (bound : Nat) (u : Usage) : Bool := u.queue.toNat < bound

/-- What cleaning makes of a use, if it leaves it. -/
def settle? (slots : SlotTable) (u : Usage) : Option Usage :=
  (submitted? u.seqnum (u.lastSubmit slots)).map fun seqnum => { u with seqnum }

/-! ## Stopping early -/

/-- In a sorted list everything behind an unbound queue is unbound. -/
theorem onBound_eq_filter {l : List Usage} (h : Sorted l) (bound : Nat) :
    onBound bound l = l.filter (isBound bound) := by
  induction l with
  | nil => rfl
  | cons u l ih =>
    obtain ⟨hlt, hl⟩ := sorted_cons.mp h
    by_cases hu : u.queue.toNat < bound
    · rw [onBound, List.takeWhile_cons_of_pos (by simpa using hu),
        List.filter_cons_of_pos (by simpa [isBound] using hu), ← ih hl, onBound]
    · rw [onBound, List.takeWhile_cons_of_neg (by simpa using hu), eq_comm, List.filter_eq_nil_iff]
      intro v hv
      rw [isBound, decide_eq_true_eq, Nat.not_lt]
      rcases List.mem_cons.mp hv with rfl | hv
      · exact Nat.not_lt.mp hu
      · exact Nat.le_trans (Nat.not_lt.mp hu) (Nat.le_of_lt (UInt32.lt_iff_toNat_lt.mp (hlt v hv)))

theorem clean_eq {l : List Usage} (h : Sorted l) (slots : SlotTable) (bound : Nat) :
    clean slots bound l = (l.filter (isBound bound)).filterMap (settle? slots) := by
  rw [clean, onBound_eq_filter h]
  rfl

theorem finished_eq {l : List Usage} (h : Sorted l) (slots : SlotTable) (bound : Nat) (readers : Bool) :
    finished slots bound l readers =
      ((l.filter (isBound bound)).filter (relevant readers)).all (isFinished slots) := by
  rw [finished, onBound_eq_filter (h.filter _), List.filter_filter, List.filter_filter]
  simp only [Bool.and_comm]

/-! ## What is left -/

/-- The number that stands for submitted work is the number before, if it names the work being
submitted. -/
theorem submitted?_eq_some_iff {n last k : UInt64} :
    submitted? n last = some k ↔ n ≤ last ∧ k = if n = last then n - 1 else n := by
  unfold submitted?
  split
  · subst_vars
    simp [eq_comm]
  · rename_i hne
    rw [if_neg (Ne.symm hne)]
    split
    · rename_i hlt
      simp [UInt64.not_le.mpr hlt]
    · rename_i hnlt
      simp [UInt64.not_lt.mp hnlt, eq_comm]

theorem settle?_eq_some_iff {slots : SlotTable} {u e : Usage} :
    settle? slots u = some e ↔ u.seqnum ≤ u.lastSubmit slots ∧
      e = { u with seqnum := if u.seqnum = u.lastSubmit slots then u.seqnum - 1 else u.seqnum } := by
  rw [settle?, Option.map_eq_some_iff]
  constructor
  · rintro ⟨k, hk, rfl⟩
    obtain ⟨hle, rfl⟩ := submitted?_eq_some_iff.mp hk
    exact ⟨hle, rfl⟩
  · rintro ⟨hle, rfl⟩
    exact ⟨_, submitted?_eq_some_iff.mpr ⟨hle, rfl⟩, rfl⟩

theorem settle?_queue {slots : SlotTable} {u e : Usage} (h : settle? slots u = some e) :
    e.queue = u.queue := by rw [(settle?_eq_some_iff.mp h).2]

/-- What is left after cleaning comes from a use on a bound queue. -/
theorem mem_clean_iff {l : List Usage} (h : Sorted l) {slots : SlotTable} {bound : Nat} {e : Usage} :
    e ∈ clean slots bound l ↔ ∃ u ∈ l, isBound bound u = true ∧ settle? slots u = some e := by
  rw [clean_eq h, List.mem_filterMap]
  simp only [List.mem_filter, and_assoc]

theorem sorted_clean {l : List Usage} (h : Sorted l) (slots : SlotTable) (bound : Nat) :
    Sorted (clean slots bound l) := by
  rw [clean_eq h]
  refine List.Pairwise.filterMap (settle? slots) ?_ (h.filter _)
  intro d u hlt d' hd u' hu
  rwa [settle?_queue hd, settle?_queue hu]

/-! ## Waiting and cleaning -/

/-- A use counts as complete if nothing is left of it, or what is left is complete. -/
theorem isFinished_iff {slots : SlotTable} {u : Usage} :
    isFinished slots u = true ↔ ∀ e, settle? slots u = some e → e.seqnum < e.last slots := by
  unfold isFinished settle?
  cases submitted? u.seqnum (u.lastSubmit slots) with
  | none => simp
  | some k =>
    simp only [decide_eq_true_eq, Option.map_some, Option.some.injEq, forall_eq']
    rfl

theorem finished_iff {l : List Usage} (h : Sorted l) {slots : SlotTable} {bound : Nat} {readers : Bool} :
    finished slots bound l readers = true ↔ ∀ u ∈ l, isBound bound u = true → relevant readers u = true →
      ∀ e, settle? slots u = some e → e.seqnum < e.last slots := by
  rw [finished_eq h, List.all_eq_true]
  simp only [List.mem_filter, isFinished_iff, and_imp]

/-- Waiting for the readers and the writers is waiting for all that cleaning leaves, and waiting for the
writers is waiting for what it leaves of them.  Neither loses anything by stopping early. -/
theorem finished_iff_clean {l : List Usage} (h : Sorted l) (slots : SlotTable) (bound : Nat) :
    (finished slots bound l true = true ↔ ∀ e ∈ clean slots bound l, e.seqnum < e.last slots) ∧
    (finished slots bound l false = true ↔ ∀ e ∈ clean slots bound l,
      (∃ u ∈ l, u.queue = e.queue ∧ u.write = true) → e.seqnum < e.last slots) ∧
    clean slots bound l = (l.filter (isBound bound)).filterMap (settle? slots) ∧
    ∀ readers, finished slots bound l readers =
      ((l.filter (isBound bound)).filter (relevant readers)).all (isFinished slots) := by
  refine ⟨?_, ?_, clean_eq h slots bound, finished_eq h slots bound⟩
  · rw [finished_iff h]
    constructor
    · intro hall e he
      obtain ⟨u, hu, hbound, hsettle⟩ := (mem_clean_iff h).mp he
      exact hall u hu hbound rfl e hsettle
    · intro hall u hu hbound _ e hsettle
      exact hall e ((mem_clean_iff h).mpr ⟨u, hu, hbound, hsettle⟩)
  · rw [finished_iff h]
    constructor
    · rintro hall e he ⟨v, hv, hq, hw⟩
      obtain ⟨u, hu, hbound, hsettle⟩ := (mem_clean_iff h).mp he
      -- the use on the queue of an entry is the one that the entry comes from
      have hsame : some v = some u := by
        rw [← h.get?_of_mem hv, ← h.get?_of_mem hu, hq, settle?_queue hsettle]
      obtain rfl := Option.some.inj hsame
      exact hall v hv hbound (by rw [relevant, hw, Bool.or_true]) e hsettle
    · intro hall u hu hbound hw e hsettle
      exact hall e ((mem_clean_iff h).mpr ⟨u, hu, hbound, hsettle⟩)
        ⟨u, hu, (settle?_queue hsettle).symm, by simpa [relevant] using hw⟩

-- a table of 256 slots is evaluated
set_option maxRecDepth 20000 in
/-- Of two pending uses one is a read that is not complete, and the other a write that is. -/
theorem finished_iff_clean_sample :
    Sorted [⟨0, false, 5⟩, ⟨1, true, 0⟩] ∧
    clean Sample.busy.device.slots 2 [⟨0, false, 5⟩, ⟨1, true, 0⟩] = [⟨0, false, 5⟩, ⟨1, true, 0⟩] ∧
    ¬ (5 < Usage.last Sample.busy.device.slots ⟨0, false, 5⟩) ∧
    finished Sample.busy.device.slots 2 [⟨0, false, 5⟩, ⟨1, true, 0⟩] true = false ∧
    finished Sample.busy.device.slots 2 [⟨0, false, 5⟩, ⟨1, true, 0⟩] false = true := by
  have hsorted : Sorted [⟨0, false, 5⟩, ⟨1, true, 0⟩] := by simp [Sorted]
  have hclean : clean Sample.busy.device.slots 2 [⟨0, false, 5⟩, ⟨1, true, 0⟩] =
      [⟨0, false, 5⟩, ⟨1, true, 0⟩] := by decide
  have hpending : ¬ (5 < Usage.last Sample.busy.device.slots ⟨0, false, 5⟩) := by decide
  obtain ⟨hall, hwriters, -⟩ := finished_iff_clean hsorted Sample.busy.device.slots 2
  rw [hclean] at hall hwriters
  refine ⟨hsorted, hclean, hpending, Bool.eq_false_iff.mpr fun h => hpending (hall.mp h _ List.mem_cons_self),
    hwriters.mpr fun e he hw => ?_⟩
  rcases List.mem_pair.mp he with rfl | rfl
  · revert hw
    decide
  · decide

/-! ## Cleaning again -/

/-- The number that stands for submitted work is behind the last submission, if there was one. -/
theorem seqnum_lt_of_settle? {slots : SlotTable} {u e : Usage} (h : settle? slots u = some e)
    (hlast : 1 ≤ u.lastSubmit slots) : e.seqnum < u.lastSubmit slots := by
  obtain ⟨hle, rfl⟩ := settle?_eq_some_iff.mp h
  dsimp only
  split
  · rename_i heq
    have hone : (1 : UInt64) ≤ u.seqnum := heq ▸ hlast
    rw [heq, UInt64.lt_iff_toNat_lt, UInt64.toNat_sub_of_le _ _ hlast]
    rw [UInt64.le_iff_toNat_le] at hlast
    simp only [UInt64.reduceToNat] at hlast ⊢
    omega
  · exact UInt64.lt_of_le_of_ne hle ‹_›

/-- Submitted work is left as it is. -/
theorem settle?_of_lt {slots : SlotTable} {u : Usage} (h : u.seqnum < u.lastSubmit slots) :
    settle? slots u = some u := by
  refine settle?_eq_some_iff.mpr ⟨UInt64.le_of_lt h, ?_⟩
  rw [if_neg (UInt64.ne_of_lt h)]

/-- Where something was submitted on every bound queue, cleaning leaves work behind the last submission. -/
theorem lt_of_mem_clean {l : List Usage} (h : Sorted l) {slots : SlotTable} {bound : Nat}
    (hstarted : ∀ i < bound, 1 ≤ (slots.entry i).lastSubmit) {e : Usage} (he : e ∈ clean slots bound l) :
    isBound bound e = true ∧ e.seqnum < e.lastSubmit slots := by
  obtain ⟨u, -, hbound, hsettle⟩ := (mem_clean_iff h).mp he
  have hq := settle?_queue hsettle
  have hlast : e.lastSubmit slots = u.lastSubmit slots := by rw [lastSubmit_eq, lastSubmit_eq, hq]
  refine ⟨by rwa [isBound, hq], hlast ▸ seqnum_lt_of_settle? hsettle ?_⟩
  rw [lastSubmit_eq]
  exact hstarted _ (of_decide_eq_true hbound)

theorem clean_clean {l : List Usage} (h : Sorted l) {slots : SlotTable} {bound : Nat}
    (hstarted : ∀ i < bound, 1 ≤ (slots.entry i).lastSubmit) :
    clean slots bound (clean slots bound l) = clean slots bound l := by
  have hleft := fun e he => lt_of_mem_clean h hstarted (e := e) he
  rw [clean_eq (sorted_clean h slots bound), List.filter_eq_self.mpr fun e he => (hleft e he).1]
  calc (clean slots bound l).filterMap (settle? slots)
      = (clean slots bound l).filterMap some :=
        List.filterMap_congr fun e he => settle?_of_lt (hleft e he).2
    _ = clean slots bound l := List.filterMap_some

end Usage

/-- What cleaning leaves of some dependencies in a configuration. -/
def Config.cleaned {κ : Type} (c : Config κ) (deps : List Usage) : List Usage :=
  Usage.clean c.progress.slots c.progress.bound deps

/-- On a command stream device in use, on which at most 256 streams were attached, what is left of sorted
dependencies is sorted and on bound queues, and its numbers are behind the last submission, so it is
complete once its queue has drained.  A dependency is left exactly if its queue is bound and its number
is not past the last submission.  It still writes if it did, and has its number, or the one before if it
was the number being submitted, which is never zero.  Cleaning again changes nothing. -/
theorem Run.clean_waitable {κ : Type} [Kernel κ] {m : Machine κ} {c : Config κ}
    {es : List (Config κ × Action)} (hfresh : Fresh m) (h : Run ⟨m, [], none⟩ es c)
    (hmax : c.progress.streams.length ≤ slotCount) {deps : List Usage} (hdeps : Usage.Sorted deps) :
    Usage.Sorted (c.cleaned deps) ∧
    (∀ e ∈ c.cleaned deps, e.queue.toNat < c.progress.bound ∧ e.seqnum < (c.slot e.queue.toNat).lastSubmit ∧
      ((c.slot e.queue.toNat).last = (c.slot e.queue.toNat).lastSubmit →
        e.seqnum < (c.slot e.queue.toNat).last)) ∧
    (∀ d ∈ deps, (∃ e ∈ c.cleaned deps, e.queue = d.queue) ↔
      d.queue.toNat < c.progress.bound ∧ d.seqnum ≤ (c.slot d.queue.toNat).lastSubmit) ∧
    (∀ e ∈ c.cleaned deps, ∃ d ∈ deps, e.queue = d.queue ∧ e.write = d.write ∧
      (d.seqnum < (c.slot d.queue.toNat).lastSubmit → e.seqnum = d.seqnum) ∧
      (d.seqnum = (c.slot d.queue.toNat).lastSubmit → e.seqnum.toNat + 1 = d.seqnum.toNat)) ∧
    c.cleaned (c.cleaned deps) = c.cleaned deps := by
  have hsound := (h.sound hfresh.sound hmax).slots
  have hstarted : ∀ i < c.progress.bound, 1 ≤ (c.progress.slots.entry i).lastSubmit :=
    fun i hi => (hsound.started i hi).started
  refine ⟨Usage.sorted_clean hdeps _ _, fun e he => ?_, fun d hd => ?_, fun e he => ?_,
    Usage.clean_clean hdeps hstarted⟩
  · obtain ⟨hbound, hlt⟩ := Usage.lt_of_mem_clean hdeps hstarted he
    rw [Usage.lastSubmit_eq] at hlt
    exact ⟨of_decide_eq_true hbound, hlt, fun hdrained => hdrained ▸ hlt⟩
  · rw [Config.slot, ← Usage.lastSubmit_eq]
    constructor
    · rintro ⟨e, he, hq⟩
      obtain ⟨u, hu, hbound, hsettle⟩ := (Usage.mem_clean_iff hdeps).mp he
      have hsame : some u = some d := by
        rw [← hdeps.get?_of_mem hu, ← hdeps.get?_of_mem hd, ← hq, Usage.settle?_queue hsettle]
      obtain rfl := Option.some.inj hsame
      exact ⟨of_decide_eq_true hbound, (Usage.settle?_eq_some_iff.mp hsettle).1⟩
    · rintro ⟨hbound, hle⟩
      exact ⟨_, (Usage.mem_clean_iff hdeps).mpr
        ⟨d, hd, decide_eq_true hbound, Usage.settle?_eq_some_iff.mpr ⟨hle, rfl⟩⟩, rfl⟩
  · obtain ⟨d, hd, hbound, hsettle⟩ := (Usage.mem_clean_iff hdeps).mp he
    obtain ⟨-, rfl⟩ := Usage.settle?_eq_some_iff.mp hsettle
    have hlast : 1 ≤ (c.slot d.queue.toNat).lastSubmit := hstarted _ (of_decide_eq_true hbound)
    refine ⟨d, hd, rfl, rfl, fun hlt => ?_, fun heq => ?_⟩
    · rw [Usage.lastSubmit_eq]
      exact if_neg (UInt64.ne_of_lt hlt)
    · rw [Config.slot, ← Usage.lastSubmit_eq] at heq hlast
      dsimp only
      rw [if_pos heq, heq, UInt64.toNat_sub_of_le _ _ hlast]
      rw [UInt64.le_iff_toNat_le] at hlast
      simp only [UInt64.reduceToNat] at hlast ⊢
      omega

-- a table of 256 slots is evaluated
set_option maxRecDepth 20000 in
/-- Work 5 was queued on the first of two slots.  A dependency on it stays, one on the work that is
submitted next on the second slot becomes one on the work before, and one on a third queue goes. -/
theorem clean_waitable_sample :
    Fresh Sample.start ∧ (⟨Sample.busy, [], none⟩ : Config Bench).progress.streams.length ≤ slotCount ∧
    Usage.Sorted [⟨0, true, 5⟩, ⟨1, false, 1⟩, ⟨5, false, 1⟩] ∧
    (⟨Sample.busy, [], none⟩ : Config Bench).cleaned [⟨0, true, 5⟩, ⟨1, false, 1⟩, ⟨5, false, 1⟩] =
      [⟨0, true, 5⟩, ⟨1, false, 0⟩] ∧
    (⟨Sample.busy, [], none⟩ : Config Bench).cleaned [⟨0, true, 5⟩, ⟨1, false, 0⟩] =
      [⟨0, true, 5⟩, ⟨1, false, 0⟩] := by
  have hmax : (⟨Sample.busy, [], none⟩ : Config Bench).progress.streams.length ≤ slotCount := by decide
  have hdeps : Usage.Sorted [⟨0, true, 5⟩, ⟨1, false, 1⟩, ⟨5, false, 1⟩] := by simp [Usage.Sorted]
  have hleft : (⟨Sample.busy, [], none⟩ : Config Bench).cleaned [⟨0, true, 5⟩, ⟨1, false, 1⟩, ⟨5, false, 1⟩] =
      [⟨0, true, 5⟩, ⟨1, false, 0⟩] := by decide
  obtain ⟨-, -, -, -, hagain⟩ := Run.clean_waitable Sample.fresh_start Sample.run_busy hmax hdeps
  rw [hleft] at hagain
  exact ⟨Sample.fresh_start, hmax, hdeps, hleft, hagain⟩

end Mali
