import Mali.Proofs.EventSlots
import Mali.Usage

/-!
# Usage lists

Adding a use to a list never loses one: what was there stays, perhaps under a later number or with
writing added to it.  None of this needs the lists to be sorted.

Cleaning does lose uses.  It reads a number past the last submission as work that was never submitted,
also where the number was merged from work that was.

* `Usage.Covers`: an entry of a list stands for a use.
* `Usage.Grows`: a list still covers what another one does.
* `Usage.grows_updateDeps`, `Usage.covers_updateDeps`, `Usage.grows_record`, `Usage.covers_record`.
* `Usage.exists_mem_clean_iff`: which uses are left after cleaning.
* `Usage.lt_last_of_isFinished`: what a use that counts as complete says about earlier work.
-/

namespace Mali

namespace Usage

/-- One use says at least what another does: it is on the same queue, not earlier, and writes if the
other does. -/
structure Within (u e : Usage) : Prop where
  queue : e.queue = u.queue
  seqnum : u.seqnum ≤ e.seqnum
  write : u.write = true → e.write = true

/-- An entry of a list stands for a use. -/
def Covers (l : List Usage) (u : Usage) : Prop := ∃ e ∈ l, u.Within e

/-- Everything in one list is covered by another. -/
def Grows (l l' : List Usage) : Prop := ∀ u ∈ l, Covers l' u

/-- All uses of a list are on queues below a bound. -/
def Below (bound : Nat) (l : List Usage) : Prop := ∀ u ∈ l, u.queue.toNat < bound

theorem Within.refl (u : Usage) : u.Within u := ⟨rfl, UInt64.le_refl _, id⟩

theorem Within.trans {u v w : Usage} (h : u.Within v) (h' : v.Within w) : u.Within w :=
  ⟨h'.queue.trans h.queue, UInt64.le_trans h.seqnum h'.seqnum, fun hu => h'.write (h.write hu)⟩

theorem Grows.refl (l : List Usage) : Grows l l := fun u hu => ⟨u, hu, .refl u⟩

theorem Covers.grow {l l' : List Usage} {u : Usage} (h : Covers l u) (hg : Grows l l') :
    Covers l' u := by
  obtain ⟨v, hv, huv⟩ := h
  obtain ⟨w, hw, hvw⟩ := hg v hv
  exact ⟨w, hw, huv.trans hvw⟩

theorem Grows.trans {l₁ l₂ l₃ : List Usage} (h : Grows l₁ l₂) (h' : Grows l₂ l₃) : Grows l₁ l₃ :=
  fun u hu => (h u hu).grow h'

theorem Covers.mono {l : List Usage} {u v : Usage} (h : Covers l v) (huv : u.Within v) :
    Covers l u := by
  obtain ⟨w, hw, hvw⟩ := h
  exact ⟨w, hw, huv.trans hvw⟩

theorem Below.mono {l : List Usage} {bound bound' : Nat} (h : Below bound l) (hle : bound ≤ bound') :
    Below bound' l := fun u hu => Nat.lt_of_lt_of_le (h u hu) hle

theorem below_nil (bound : Nat) : Below bound [] := fun _ hu => absurd hu List.not_mem_nil

/-! ## Adding one use -/

theorem within_merge_left (d u : Usage) : d.Within (d.merge u) := by
  refine ⟨rfl, ?_, fun hd => ?_⟩
  · rw [merge]
    split
    · rename_i hlt
      exact UInt64.le_of_lt hlt
    · exact UInt64.le_refl _
  · simp [merge, hd]

theorem within_merge_right {d u : Usage} (h : d.queue = u.queue) : u.Within (d.merge u) := by
  refine ⟨h, ?_, fun hu => ?_⟩
  · rw [merge]
    split
    · exact UInt64.le_refl _
    · rename_i hlt
      exact UInt64.not_lt.mp hlt
  · simp [merge, hu]

/-- By recursion on the list, along the search for the place of the use. -/
theorem covers_insert (u : Usage) : ∀ l : List Usage, Covers (insert u l).1 u
  | [] => ⟨u, by simp [insert], .refl u⟩
  | d :: ds => by
    unfold insert
    split
    · rename_i hq
      exact ⟨d.merge u, List.mem_cons_self, within_merge_right hq⟩
    · split
      · exact ⟨u, List.mem_cons_self, .refl u⟩
      · obtain ⟨e, he, hue⟩ := covers_insert u ds
        exact ⟨e, List.mem_cons_of_mem _ he, hue⟩

theorem grows_insert (u : Usage) : ∀ l : List Usage, Grows l (insert u l).1
  | [] => fun v hv => absurd hv List.not_mem_nil
  | d :: ds => by
    intro v hv
    unfold insert
    split
    · rcases List.mem_cons.mp hv with rfl | hv
      · exact ⟨v.merge u, List.mem_cons_self, within_merge_left v u⟩
      · exact ⟨v, List.mem_cons_of_mem _ hv, .refl v⟩
    · split
      · exact ⟨v, List.mem_cons_of_mem _ hv, .refl v⟩
      · rcases List.mem_cons.mp hv with rfl | hv
        · exact ⟨v, List.mem_cons_self, .refl v⟩
        · obtain ⟨e, he, hve⟩ := grows_insert u ds v hv
          exact ⟨e, List.mem_cons_of_mem _ he, hve⟩

/-- Adding a use brings no other queue into the list. -/
theorem below_insert {bound : Nat} {u : Usage} (hu : u.queue.toNat < bound) :
    ∀ {l : List Usage}, Below bound l → Below bound (insert u l).1
  | [], _ => fun v hv => by
    rw [insert, List.mem_singleton] at hv
    rwa [hv]
  | d :: ds, h => by
    have hd := h d List.mem_cons_self
    have hds : Below bound ds := fun v hv => h v (List.mem_cons_of_mem _ hv)
    unfold insert
    intro v hv
    split at hv
    · rcases List.mem_cons.mp hv with rfl | hv
      · exact hd
      · exact hds v hv
    · split at hv
      · rcases List.mem_cons.mp hv with rfl | hv
        · exact hu
        · exact h v hv
      · rcases List.mem_cons.mp hv with rfl | hv
        · exact hd
        · exact below_insert hu hds v hv

theorem covers_addAfter (l : List Usage) (u : Usage) (i : Nat) : Covers (addAfter l u i).1 u := by
  obtain ⟨e, he, hue⟩ := covers_insert u (l.drop i)
  exact ⟨e, List.mem_append_right _ he, hue⟩

theorem grows_addAfter (l : List Usage) (u : Usage) (i : Nat) : Grows l (addAfter l u i).1 := by
  intro v hv
  rw [← List.take_append_drop i l, List.mem_append] at hv
  rcases hv with hv | hv
  · exact ⟨v, List.mem_append_left _ hv, .refl v⟩
  · obtain ⟨e, he, hve⟩ := grows_insert u (l.drop i) v hv
    exact ⟨e, List.mem_append_right _ he, hve⟩

theorem below_addAfter {bound : Nat} {l : List Usage} {u : Usage} (hl : Below bound l)
    (hu : u.queue.toNat < bound) (i : Nat) : Below bound (addAfter l u i).1 := by
  intro v hv
  rcases List.mem_append.mp hv with hv | hv
  · exact hl v (List.mem_of_mem_take hv)
  · exact below_insert hu (fun w hw => hl w (List.mem_of_mem_drop hw)) v hv

/-! ## Adding several -/

theorem grows_addAll (us : List Usage) : ∀ (deps : List Usage) (i : Nat), Grows deps (addAll deps us i) := by
  induction us with
  | nil => exact fun deps _ => .refl deps
  | cons u us ih =>
    intro deps i
    exact (grows_addAfter deps u i).trans (ih _ _)

theorem covers_addAll {u : Usage} {us : List Usage} (h : u ∈ us) :
    ∀ (deps : List Usage) (i : Nat), Covers (addAll deps us i) u := by
  induction us with
  | nil => exact absurd h List.not_mem_nil
  | cons v us ih =>
    intro deps i
    rcases List.mem_cons.mp h with rfl | h
    · exact (covers_addAfter deps u i).grow (grows_addAll us _ _)
    · exact ih h _ _

theorem below_addAll {bound : Nat} {us : List Usage} (hus : Below bound us) :
    ∀ {deps : List Usage} (i : Nat), Below bound deps → Below bound (addAll deps us i) := by
  induction us with
  | nil => exact fun _ h => h
  | cons u us ih =>
    intro deps i h
    have hu := hus u List.mem_cons_self
    exact ih (fun v hv => hus v (List.mem_cons_of_mem _ hv)) _ (below_addAfter h hu i)

theorem grows_updateDeps (deps usage : List Usage) (write : Bool) :
    Grows deps (updateDeps deps usage write) := grows_addAll _ deps 0

/-- A use that the access has to wait for becomes a dependency. -/
theorem covers_updateDeps {usage : List Usage} {u : Usage} (deps : List Usage) {write : Bool}
    (h : Covers usage u) (hw : write = true ∨ u.write = true) :
    Covers (updateDeps deps usage write) u := by
  obtain ⟨e, he, hue⟩ := h
  have hrelevant : relevant write e = true := by
    rw [relevant, Bool.or_eq_true]
    exact hw.imp_right hue.write
  exact (covers_addAll (List.mem_filter.mpr ⟨he, hrelevant⟩) deps 0).mono hue

theorem below_updateDeps {bound : Nat} {deps usage : List Usage} (hd : Below bound deps)
    (hu : Below bound usage) (write : Bool) : Below bound (updateDeps deps usage write) :=
  below_addAll (fun u h => hu u (List.mem_filter.mp h).1) 0 hd

theorem grows_record (l : List Usage) (u : Usage) : Grows l (record l u) := grows_addAfter l u 0

theorem covers_record (l : List Usage) (u : Usage) : Covers (record l u) u := covers_addAfter l u 0

theorem below_record {bound : Nat} {l : List Usage} {u : Usage} (hl : Below bound l)
    (hu : u.queue.toNat < bound) : Below bound (record l u) := below_addAfter hl hu 0

/-! ## Cleaning -/

/-- Nothing is cut off a list whose queues are all bound. -/
theorem onBound_eq {bound : Nat} {l : List Usage} (h : Below bound l) : onBound bound l = l := by
  refine List.takeWhile_eq_self_iff.mpr fun u hu => ?_
  simpa using h u hu

/-- What a recorded number comes to: work that was submitted, so it stands for `s` exactly if it is not
before `s` and not past the last submission. -/
theorem submitted?_iff {s n last : UInt64} (hlast : 1 ≤ last) :
    (∃ k, submitted? n last = some k ∧ s ≤ k) ↔ s < last ∧ s ≤ n ∧ n ≤ last := by
  have hpred : s ≤ last - 1 ↔ s < last := by
    rw [UInt64.le_iff_toNat_le, UInt64.lt_iff_toNat_lt, UInt64.toNat_sub_of_le _ _ hlast]
    rw [UInt64.le_iff_toNat_le] at hlast
    simp only [UInt64.reduceToNat] at hlast ⊢
    omega
  unfold submitted?
  split
  · subst_vars
    simp only [Option.some.injEq, exists_eq_left', hpred]
    exact ⟨fun h => ⟨h, UInt64.le_of_lt h, UInt64.le_refl _⟩, fun h => h.1⟩
  · rename_i hne
    split
    · rename_i hlt
      simp only [reduceCtorEq, false_and, exists_false, false_iff, not_and]
      intro _ _ hle
      exact absurd hlt (UInt64.not_lt.mpr hle)
    · rename_i hnlt
      have hle := UInt64.not_lt.mp hnlt
      have hlt : n < last := UInt64.lt_of_le_of_ne hle (Ne.symm hne)
      simp only [Option.some.injEq, exists_eq_left']
      exact ⟨fun h => ⟨UInt64.lt_of_le_of_lt h hlt, h, hle⟩, fun h => h.2.1⟩

theorem lastSubmit_eq (u : Usage) (slots : SlotTable) :
    u.lastSubmit slots = (slots.entry u.queue.toNat).lastSubmit := by
  rw [lastSubmit, SlotTable.get?_natCast, SlotTable.entry]
  cases slots[u.queue.toNat]? <;> rfl

theorem last_eq (u : Usage) (slots : SlotTable) : u.last slots = (slots.entry u.queue.toNat).last := by
  rw [last, SlotTable.get?_natCast, SlotTable.entry]
  cases slots[u.queue.toNat]? <;> rfl

/-- A use that counts as complete stands for work that is, unless its number is past the last
submission. -/
theorem lt_last_of_isFinished {slots : SlotTable} {u : Usage} {s : UInt64}
    (h : isFinished slots u = true) (hs : s < u.lastSubmit slots) (hle : s ≤ u.seqnum)
    (hsubmitted : u.seqnum ≤ u.lastSubmit slots) : s < u.last slots := by
  have hlast : 1 ≤ u.lastSubmit slots := by
    rw [UInt64.lt_iff_toNat_lt] at hs
    rw [UInt64.le_iff_toNat_le]
    simp only [UInt64.reduceToNat]
    omega
  obtain ⟨k, hk, hsk⟩ := (submitted?_iff hlast).mpr ⟨hs, hle, hsubmitted⟩
  rw [isFinished, hk] at h
  exact UInt64.lt_of_le_of_lt hsk (of_decide_eq_true h)

/-- What is left after cleaning: a dependency on work at least as late as `s` stays exactly if `s` was
submitted, and there was one whose number is not past the last submission. -/
theorem exists_mem_clean_iff {slots : SlotTable} {bound : Nat} {deps : List Usage} (h : Below bound deps)
    {q : UInt32} {s last : UInt64} (hentry : (slots.entry q.toNat).lastSubmit = last)
    (hlast : 1 ≤ last) : (∃ d ∈ clean slots bound deps, d.queue = q ∧ s ≤ d.seqnum) ↔
      s < last ∧ ∃ e ∈ deps, e.queue = q ∧ s ≤ e.seqnum ∧ e.seqnum ≤ last := by
  have hlookup (e : Usage) (he : e.queue = q) : e.lastSubmit slots = last := by
    rw [lastSubmit_eq, he, hentry]
  rw [clean, onBound_eq h]
  constructor
  · rintro ⟨d, hd, hq, hle⟩
    obtain ⟨e, he, hed⟩ := List.mem_filterMap.mp hd
    obtain ⟨k, hk, rfl⟩ := Option.map_eq_some_iff.mp hed
    have hq : e.queue = q := hq
    rw [hlookup e hq] at hk
    obtain ⟨hs, hn⟩ := (submitted?_iff hlast).mp ⟨k, hk, hle⟩
    exact ⟨hs, e, he, hq, hn⟩
  · rintro ⟨hs, e, he, hq, hn⟩
    obtain ⟨k, hk, hle⟩ := (submitted?_iff hlast).mpr ⟨hs, hn⟩
    refine ⟨{ e with seqnum := k }, List.mem_filterMap.mpr ⟨e, he, ?_⟩, hq, hle⟩
    rw [hlookup e hq, hk]
    rfl

end Usage

end Mali
