import Mali.Proofs.Handling

/-!
# The rules of the table of handles

The table ends with a live entry, and freed entries have no uses.  Freeing an entry clears it and drops the
freed ones at the end, and a new entry is live, so neither breaks a rule.  Only an atom that marks a freed
entry could.

A device that checks its rules stops for good when freeing a handle finds one broken, so freeing a buffer
returns only if none is.

* `HandleTable.check_eq_none_iff`: the rules.
* `HandleTable.check_alloc`, `HandleTable.check_free`: they are kept.
* `exec_freeHandle`: freeing a handle returns.
* `Lawful`: an operation that keeps them.
* `lawful_allocHandle`, `lawful_freeHandle`, `Step.lawful`: operations and steps that do.
-/

namespace Mali

open Op

variable {κ : Type}

namespace HandleTable

variable {t : HandleTable}

theorem check_eq_none_iff : t.check = none ↔
    (∀ e, t.entries.getLast? = some e → isFreed e = false) ∧
      ∀ e ∈ t.entries, isFreed e = true → e.useCount = 0 := by
  have hlast : (t.entries.getLast?.map isFreed).getD false = false ↔
      ∀ e, t.entries.getLast? = some e → isFreed e = false := by
    cases t.entries.getLast? with
    | none => simp
    | some e => simp
  rw [← hlast]
  unfold check
  by_cases hfreed : (t.entries.getLast?.map isFreed).getD false = true
  · simp [hfreed]
  · rw [if_neg hfreed, Option.map_eq_none_iff, List.find?_eq_none]
    refine ⟨fun h => ⟨Bool.eq_false_iff.mpr hfreed, fun e he hf => ?_⟩, fun h => ?_⟩
    · obtain ⟨i, hi⟩ := List.mem_iff_getElem?.mp he
      have := h (e, i) (List.mem_zipIdx_iff_getElem?.mpr hi)
      simpa [hf] using this
    · rintro ⟨e, i⟩ he
      have hmem : e ∈ t.entries := List.mem_of_getElem? (List.mem_zipIdx_iff_getElem?.mp he)
      by_cases hf : isFreed e = true
      · simp [h.2 e hmem hf]
      · simp [hf]

theorem getLast?_dropFreedTail {es : List Handle} {e : Handle} (h : (dropFreedTail es).getLast? = some e) :
    isFreed e = false := by
  rw [dropFreedTail, List.getLast?_reverse] at h
  have hhead := List.head?_dropWhile_not isFreed es.reverse
  rw [h] at hhead
  simpa using hhead

/-- A table that keeps the rules still does after an entry is freed. -/
theorem check_free (h : t.check = none) (handle : Int) : (t.free handle).2.check = none := by
  rw [check_eq_none_iff] at h ⊢
  constructor
  · unfold free
    split
    · exact h.1
    · exact fun e => getLast?_dropFreedTail
  · intro e he hfreed
    obtain ⟨k, hk⟩ := List.mem_iff_getElem?.mp he
    rcases entries_free hk with hold | ⟨huse, -⟩
    · exact h.2 e (List.mem_of_getElem? hold) hfreed
    · exact huse

/-- A table that keeps the rules still does with a new entry, unless that is marked as freed. -/
theorem check_alloc (h : t.check = none) (va : UInt64) {fd : Int} (hfd : fd ≠ freedFd) :
    (t.alloc va fd).2.check = none := by
  rw [check_eq_none_iff] at h ⊢
  have hlive : isFreed { va, fd } = false := by simpa [isFreed] using hfd
  unfold alloc
  dsimp only
  split
  · constructor
    · intro e he
      rw [List.getLast?_eq_getElem?, List.length_set, List.getElem?_set] at he
      split at he
      · split at he
        · rw [← Option.some.inj he]
          exact hlive
        · cases he
      · exact h.1 e (List.getLast?_eq_getElem?.trans he)
    · intro e he hfreed
      rcases List.mem_or_eq_of_mem_set he with he | rfl
      · exact h.2 e he hfreed
      · rfl
  · constructor
    · intro e he
      rw [List.getLast?_append, List.getLast?_singleton, Option.some_or] at he
      rw [← Option.some.inj he]
      exact hlive
    · intro e he hfreed
      rcases List.mem_append.mp he with he | he
      · exact h.2 e he hfreed
      · rw [List.mem_singleton.mp he]

theorem check_setMapping (h : t.check = none) (i : Nat) (p : Option Mapping) :
    (t.setMapping i p).check = none := by
  rw [check_eq_none_iff] at h ⊢
  have hold {k : Nat} {e : Handle} (he : (t.setMapping i p).entries[k]? = some e) :
      ∃ e₀, t.entries[k]? = some e₀ ∧ isFreed e = isFreed e₀ ∧ e.useCount = e₀.useCount := by
    rw [setMapping, List.getElem?_modify] at he
    obtain ⟨e₀, he₀, rfl⟩ := Option.map_eq_some_iff.mp he
    refine ⟨e₀, he₀, ?_⟩
    split <;> exact ⟨rfl, rfl⟩
  constructor
  · intro e he
    rw [List.getLast?_eq_getElem?, setMapping, List.length_modify] at he
    obtain ⟨e₀, he₀, hfreed, -⟩ := hold he
    rw [hfreed]
    exact h.1 e₀ (List.getLast?_eq_getElem?.trans he₀)
  · intro e he hfreed
    obtain ⟨k, hk⟩ := List.mem_iff_getElem?.mp he
    obtain ⟨e₀, he₀, hsame, huse⟩ := hold hk
    rw [huse]
    exact h.2 e₀ (List.mem_of_getElem? he₀) (hsame.symm.trans hfreed)

end HandleTable

/-! ## Operations -/

/-- The table of handles keeps its rules. -/
def Lawful (m m' : Machine κ) : Prop := m.device.handles.check = none → m'.device.handles.check = none

theorem Lawful.of_table {m m' : Machine κ} (h : m'.device.handles = m.device.handles) : Lawful m m' :=
  fun hm => h ▸ hm

instance : OfDevice (Lawful (κ := κ)) where
  refl _ := id
  trans h h' := h' ∘ h
  of_device hd := .of_table (congrArg Device.handles hd)

instance : OfFiles (Lawful (κ := κ)) where
  of_files _ ht := .of_table ht

theorem lawful_allocHandle (va : UInt64) {fd : Int} (hfd : fd ≠ freedFd) :
    Keeps (Lawful (κ := κ)) (Device.allocHandle va fd) := by
  refine (faultless_allocHandle va fd).keeps fun he hm => ?_
  obtain ⟨-, rfl⟩ := allocHandle_ok he
  exact HandleTable.check_alloc hm va hfd

section Kernel

variable [Kernel κ]

theorem lawful_freeHandle (handle : Int) : Keeps (Lawful (κ := κ)) (Device.freeHandle handle) := by
  refine (faultless_freeHandle handle).keeps fun he hm => ?_
  rw [freeHandle_device he]
  exact HandleTable.check_free hm handle

theorem returns_closeHandleFd (handle : Nat) (fd : Int) :
    Returns (Device.closeHandleFd handle fd : Op κ Unit) := by
  unfold Device.closeHandleFd
  refine returns_bind (returns_call _) fun r => ?_
  cases r with
  | ok _ => exact returns_pure _
  | error e => exact returns_error _ _

/-- Freeing a handle returns if no rule is broken. -/
theorem exec_freeHandle {m : Machine κ} (h : m.device.handles.check = none) (handle : Int) :
    ∃ m', (Device.freeHandle handle).exec m = (.ok (), m') := by
  unfold Device.freeHandle Device.setHandles Device.checkHandles
  rw [exec_bind_of_ok (exec_device m)]
  have hcheck := HandleTable.check_free h handle
  rcases hfree : m.device.handles.free handle with ⟨_ | fd, t⟩
  · exact ⟨m, rfl⟩
  · rw [hfree] at hcheck
    dsimp only
    rw [exec_bind_of_ok (exec_modifyDevice _ m), exec_bind_of_ok (exec_checkRule hcheck)]
    split
    · obtain ⟨_, m', he⟩ := returns_closeHandleFd (κ := κ) handle.toNat fd _
      exact ⟨m', he⟩
    · exact ⟨_, rfl⟩

/-! ## Steps -/

/-- A step keeps the rules, if what leaves every account alone does. -/
theorem Step.lawful {c c' : Config κ} {act : Action} (h : Step c act c')
    (hquiet : act = .other → c'.held = c.held → Quiet c.machine c'.machine → Lawful c.machine c'.machine) :
    Lawful c.machine c'.machine :=
  h.keeps lawful_freeHandle (fun va => lawful_allocHandle va (by decide)) hquiet

end Kernel

end Mali
