import Mali.Proofs.SlotHistory

/-!
# The history of accounts

What a step does to the account of a buffer, whatever the books say.  A buffer that is neither cached
nor held stays where it is, except in two cases: its last reference goes while no slot is busy, or a
callback of its release runs and finds the count at one and no references.  Its uses are kept unless it
is released.

The count of a buffer follows the callbacks to come for it, as a 32-bit word.

* `Step.account`: what a step does to the account of one buffer.
* `Step.gpuRefs`, `Run.counted`: the count of callbacks.
-/

namespace Mali

open Op

variable {κ : Type}

/-- The count of callbacks of a buffer. -/
def Machine.gpuRefs (m : Machine κ) (x : Nat) : Int32 :=
  ((m.storage.accounts.map Account.counts)[x]?.getD (0, 0)).2

/-- The count of every buffer is the number of callbacks to come for it, up to overflow. -/
def Config.Counted (c : Config κ) : Prop := ∀ x, c.machine.gpuRefs x = Int32.ofNat (c.waiting x)

theorem Machine.gpuRefs_of_counts {m m' : Machine κ}
    (h : m'.storage.accounts.map Account.counts = m.storage.accounts.map Account.counts) (x : Nat) :
    m'.gpuRefs x = m.gpuRefs x := by rw [gpuRefs, h, gpuRefs]

theorem Machine.gpuRefs_of_account {m : Machine κ} {x : Nat} {a : Account}
    (h : m.storage.accounts[x]? = some a) : m.gpuRefs x = a.gpuRefs := by
  rw [gpuRefs, List.getElem?_map, h]
  rfl

theorem Machine.gpuRefs_modify {m m' : Machine κ} {x : Nat} {f : Account → Account} {a : Account}
    (h : m'.storage.accounts = m.storage.accounts.modify x f) (hx : m.storage.accounts[x]? = some a)
    (y : Nat) : m'.gpuRefs y = if x = y then (f a).gpuRefs else m.gpuRefs y := by
  unfold gpuRefs
  rw [h, List.getElem?_map, List.getElem?_map, getElem?_modify_of_some hx]
  split <;> rfl

theorem Edits.gpuRefs {m m' : Machine κ} {x : Nat} {f : Account → Account} {a : Account}
    (h : Edits x f m m') (hx : m.storage.accounts[x]? = some a) (hf : (f a).gpuRefs = a.gpuRefs)
    (y : Nat) : m'.gpuRefs y = m.gpuRefs y := by
  rw [Machine.gpuRefs_modify (by rw [h.storage]) hx]
  split
  · rename_i hxy
    rw [hf, ← hxy, Machine.gpuRefs_of_account hx]
  · rfl

theorem Opens.gpuRefs {m m' : Machine κ} {a : Account} (h : Opens a m m') (ha : a.gpuRefs = 0)
    (y : Nat) : m'.gpuRefs y = m.gpuRefs y := by
  unfold Machine.gpuRefs
  rw [h.storage, List.map_append, List.map_singleton, getElem?_concat]
  split
  · subst_vars
    rw [List.getElem?_eq_none (Nat.le_refl _)]
    exact ha
  · rfl

theorem Gathers.gpuRefs {bound id batch : Nat} {b b' : Batch} {m m' : Machine κ}
    (h : Gathers bound id batch b b' m m') (y : Nat) : m'.gpuRefs y = m.gpuRefs y := by
  unfold Machine.gpuRefs
  rw [List.getElem?_map, List.getElem?_map, h.accounts]
  cases m.storage.accounts[y]? <;> rfl

section Kernel

variable [Kernel κ] {c c' : Config κ} {act : Action}

/-- A step changes the count of a buffer as it changes the number of callbacks to come for it. -/
theorem Step.gpuRefs (h : Step c act c') (hlt : act = .attach → c.progress.bound < slotCount)
    (y : Nat) :
    c'.machine.gpuRefs y + Int32.ofNat ((act.fires.map (·.2.callback)).count (.release y)) =
      c.machine.gpuRefs y + Int32.ofNat
        (if act = .release y then c.progress.slots.busy c.progress.bound else 0) := by
  have hsame {m m' : Machine κ} (h : m'.gpuRefs y = m.gpuRefs y) :
      m'.gpuRefs y + Int32.ofNat 0 = m.gpuRefs y + Int32.ofNat 0 := by rw [h]
  have htidies {ready : List Callback} {h₁ h₂ : Option Nat} {m m' : Machine κ}
      (h : Tidies ready h₁ h₂ m m') : m'.gpuRefs y = m.gpuRefs y :=
    Machine.gpuRefs_of_counts h.counts y
  cases h.effect hlt with
  | still hrelease hfire _ hstorage =>
    rw [Action.count_fires fun i n => hfire i n y, if_neg (hrelease y)]
    exact hsame (Machine.gpuRefs_of_counts (by rw [hstorage]) y)
  | count ha _ hedit => exact hsame (hedit.gpuRefs ha rfl y)
  | handOut _ ha hedit => exact hsame (hedit.gpuRefs ha rfl y)
  | opens hgpu _ hopens => exact hsame (hopens.gpuRefs hgpu y)
  | tidies ht => exact hsame (htidies ht)
  | @release _ x a m₁ ha _ hm₁ hend =>
    have h₁ : c'.machine.gpuRefs y = m₁.gpuRefs y := by
      rcases hend with ⟨-, hm⟩ | ⟨-, ht⟩
      · rw [hm]
      · exact htidies ht
    rw [h₁, Machine.gpuRefs_modify (by rw [hm₁.storage]) ha]
    by_cases hxy : x = y
    · subst hxy
      simp [Action.fires, Machine.gpuRefs_of_account ha]
      rfl
    · simp [Action.fires, hxy]
  | @drain _ i x n a m₁ ha hm₁ hend =>
    have h₁ : c'.machine.gpuRefs y = m₁.gpuRefs y := by
      rcases hend with ⟨-, hm⟩ | ⟨-, -, ht⟩
      · rw [hm]
      · exact htidies ht
    rw [h₁, Machine.gpuRefs_modify (by rw [hm₁.storage]) ha]
    by_cases hxy : x = y
    · subst hxy
      simp [Action.fires, Machine.gpuRefs_of_account ha]
    · simp [Action.fires, hxy]
  | collect hb _ he =>
    obtain ⟨_, hg⟩ := gathers_of_collect hb he
    exact hsame (hg.gpuRefs y)

theorem Step.counted (h : Step c act c') (hs : c.progress.Sound)
    (hmax : c'.progress.streams.length ≤ slotCount) (hc : c.Counted) : c'.Counted := by
  intro y
  have hgpu := h.gpuRefs (h.bound_lt hs hmax) y
  have hwaiting := congrArg Int32.ofNat (h.waiting y)
  rw [Int32.ofNat_add, Int32.ofNat_add, ← hc y, ← hgpu] at hwaiting
  exact ((Int32.add_left_inj _).mp hwaiting).symm

omit [Kernel κ] in
theorem Fresh.counted {m : Machine κ} (h : Fresh m) : (⟨m, [], none⟩ : Config κ).Counted := by
  intro x
  show m.gpuRefs x = _
  rw [h.waiting, Machine.gpuRefs, h.accounts]
  rfl

/-- Only a new buffer, or one that was cached, comes to be held. -/
theorem Step.held_ne (h : Step c act c') {x : Nat} {a : Account} (ha : c.account? x = some a)
    (hcached : a.cachedIn = none) (hheld : c.held ≠ some x) : c'.held ≠ some x := by
  cases h with
  | quiet => exact hheld
  | reuse he =>
    intro hnew
    exact (tidies_reuse [] he).taken x a ha hnew hheld hcached
  | wrap he =>
    obtain ⟨_, -, -, hlast, -⟩ := wrapRegion_ok he
    rintro hnew
    have hlt := (List.getElem?_eq_some_iff.mp ha).1
    rw [← Option.some.inj hnew, hlast] at hlt
    exact absurd hlt (Nat.lt_irrefl _)
  | _ => nofun

/-- A buffer whose last reference went has none, whatever becomes of it. -/
theorem Step.refs_of_release {x : Nat} (h : Step c (.release x) c') :
    ∃ a, c'.account? x = some a ∧ a.refs = 0 := by
  cases h.effect nofun with
  | still hrelease => exact absurd rfl (hrelease x)
  | @release _ _ b m₁ hb hrefs hm₁ hend =>
    have hlast : b.refs - 1 = 0 := by
      rw [hrefs]
      rfl
    have hx := hm₁.account hb
    rcases hend with ⟨-, hm⟩ | ⟨-, ht⟩
    · exact ⟨_, by rw [Config.account?, hm]; exact hx, hlast⟩
    · -- the counts are left alone when the release ends
      have hcounts := congrArg (·[x]?) ht.counts
      simp only [List.getElem?_map, hx, Option.map_some] at hcounts
      obtain ⟨a', ha', he'⟩ := Option.map_eq_some_iff.mp hcounts
      exact ⟨a', ha', (congrArg Prod.fst he').trans hlast⟩

/-- What a step does to a buffer that is neither cached nor held: it stays where it is, or its last
reference goes, or the last callback of its release runs. -/
theorem Step.account (h : Step c act c') (hlt : act = .attach → c.progress.bound < slotCount) {y : Nat}
    {a : Account} (hy : c.account? y = some a) (hcached : a.cachedIn = none) (hheld : c.held ≠ some y) :
    (∃ a', c'.account? y = some a' ∧ a'.cachedIn = none ∧ a'.freed = a.freed ∧
      Usage.Grows a.usage a'.usage) ∨
    (act = .release y ∧ (∃ a', c'.account? y = some a' ∧ a'.refs = 0) ∧
      (c.progress.slots.busy c.progress.bound = 0 ∨
        ∃ a', c'.account? y = some a' ∧ a'.cachedIn = none ∧ a'.freed = a.freed)) ∨
    ∃ i l, act = .fire i l ∧ l.callback = .release y ∧ a.gpuRefs - 1 = 0 ∧ a.refs = 0 := by
  have hsame (h : c'.account? y = some a) : ∃ a', c'.account? y = some a' ∧ a'.cachedIn = none ∧
      a'.freed = a.freed ∧ Usage.Grows a.usage a'.usage := ⟨a, h, hcached, rfl, .refl _⟩
  have hedits {m' : Machine κ} {x : Nat} {f : Account → Account} (h : Edits x f c.machine m')
      (hf : y = x → (f a).cachedIn = a.cachedIn ∧ (f a).freed = a.freed ∧ (f a).usage = a.usage) :
      ∃ a', m'.storage.accounts[y]? = some a' ∧ a'.cachedIn = none ∧ a'.freed = a.freed ∧
        Usage.Grows a.usage a'.usage := by
    rcases eq_or_ne y x with rfl | hyx
    · obtain ⟨hc, hfr, hu⟩ := hf rfl
      exact ⟨f a, h.account hy, hc.trans hcached, hfr, hu ▸ .refl _⟩
    · exact ⟨a, (h.account_of_ne hyx).trans hy, hcached, rfl, .refl _⟩
  -- another buffer goes
  have hother {x : Nat} {m₁ : Machine κ} (hyx : y ≠ x) (hy₁ : m₁.storage.accounts[y]? = some a)
      (ht : Tidies [] (some x) none m₁ c'.machine) : c'.account? y = some a :=
    ht.kept y a hy₁ hcached fun e => hyx (Option.some.inj e).symm
  cases h.effect hlt with
  | still _ _ _ hstorage => exact .inl (hsame (by rw [Config.account?, hstorage]; exact hy))
  | count _ _ hedit => exact .inl (hedits hedit fun _ => ⟨rfl, rfl, rfl⟩)
  | handOut hx _ hedit => exact .inl (hedits hedit fun e => absurd (e ▸ hx) hheld)
  | opens _ _ hopens => exact .inl (hsame (hopens.account hy))
  | tidies ht => exact .inl (hsame (ht.kept y a hy hcached hheld))
  | @release _ x b m₁ hb hrefs hm₁ hend =>
    rcases eq_or_ne y x with rfl | hyx
    · refine .inr (.inl ⟨rfl, h.refs_of_release, ?_⟩)
      rw [hb] at hy
      cases hy
      rcases hend with ⟨-, hm⟩ | ⟨hbusy, -⟩
      · rw [Config.account?, hm]
        exact .inr ⟨_, hm₁.account hb, hcached, rfl⟩
      · exact .inl hbusy
    · have hy₁ : m₁.storage.accounts[y]? = some a := (hm₁.account_of_ne hyx).trans hy
      rcases hend with ⟨-, hm⟩ | ⟨-, ht⟩
      · exact .inl (hsame (by rw [Config.account?, hm]; exact hy₁))
      · exact .inl (hsame (hother hyx hy₁ ht))
  | @drain _ i x n b m₁ hb hedit hend =>
    rcases hend with ⟨-, hm⟩ | ⟨hgpu, hrefs, ht⟩
    · rw [Config.account?, hm]
      exact .inl (hedits hedit fun _ => ⟨rfl, rfl, rfl⟩)
    · rcases eq_or_ne y x with rfl | hyx
      · rw [hb] at hy
        cases hy
        exact .inr (.inr ⟨i, _, rfl, rfl, hgpu, hrefs⟩)
      · exact .inl (hsame (hother hyx ((hedit.account_of_ne hyx).trans hy) ht))
  | collect hb _ he =>
    obtain ⟨_, hg⟩ := gathers_of_collect hb he
    have hy : c.machine.storage.accounts[y]? = some a := hy
    refine .inl ⟨{ a with usage := c'.machine.usage y }, (hg.accounts y).trans (by rw [hy]; rfl), hcached,
      rfl, ?_⟩
    have hgrows := hg.grows y
    rwa [Machine.usage, hy] at hgrows

end Kernel

end Mali
