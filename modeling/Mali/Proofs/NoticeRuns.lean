import Mali.Proofs.Disposal
import Mali.Proofs.Overflows

/-!
# Runs with notices in any order

Notices let go of callbacks, and callbacks end releases: buffers are freed or cached, and what is stale leaves the cache
for them.  Several releases may end on the way, and which of them ends first depends on the order of the notices.  What
has become of the buffers in the end does not.  A release is over when no callback is to come for its buffer any more,
and that is for the slots to say.  A buffer that may not be cached is freed then, and any other is cached.  The first
buffer that is cached takes everything along that was stale before.  Nothing gets stale later, for the clock stands
still, except where the stale age is negative and a buffer is stale as soon as it is cached.

* `Config.Over`, `Drains`: the releases that are over, and what became of the buffers.
* `Drains.trans`: releases that end one after the other.
* `exec_fire`, `exec_runCallbacks`, `exec_advance_of_flowing`: a callback, all that were taken, and a notice.
* `exec_advanceAll`: many notices, by induction.
* `Agree`, `ShelfRun.advance_perm`: along every run on which no count overflows the order of notices does not matter.
* `not_forall_notices`: it does matter when a count has overflown, and when there is no such slot.
-/

namespace Mali

open Op

variable {κ : Type}

section Kernel

variable [Kernel κ]

/-! ## Releases that end -/

omit [Kernel κ] in
/-- The last callback of a release is over. -/
def Config.Over (c c' : Config κ) (x : Nat) : Prop := c.Unused x ∧ c.waiting x ≠ 0 ∧ c'.waiting x = 0

/-- Releases end: what may not be cached is freed.  If anything is cached, what was stale is freed, and everything
that is cached if the stale age is negative. -/
structure Drains (c c' : Config κ) : Prop extends Sheds c.machine c'.machine where
  time : SameTime c.machine c'.machine
  epoch : c'.machine.allocator.epoch = c.machine.allocator.epoch
  waiting : ∀ x, c'.waiting x ≤ c.waiting x
  gone : ∀ y, c'.machine.Freed y ↔ c.machine.Freed y ∨
    c.Over c' y ∧ (¬c.machine.Cacheable y ∨ c.machine.allocator.options.staleSeconds < 0) ∨
    (∃ x, c.Over c' x ∧ c.machine.Cacheable x) ∧ y ∈ c.machine.allocator.cache.recency ∧ c.machine.Stale y
  stamps : ∀ y ∈ c'.machine.allocator.cache.recency,
    c.Over c' y ∧ c'.machine.allocator.lastUsed y = c.machine.seconds ∨
    y ∈ c.machine.allocator.cache.recency ∧ c'.machine.allocator.lastUsed y = c.machine.allocator.lastUsed y

/-- A command stream device between two steps, with everything in order and no count at its end. -/
structure Config.Flowing (c : Config κ) : Prop extends c.InOrder where
  csf : c.progress.generation = .csf
  streams : c.progress.streams.length ≤ slotCount
  few : ∀ x, c.waiting x < 2 ^ 32

/-- What is cached has no references, nothing is to come for it, and it is not freed. -/
theorem Config.InOrder.mem_recency {c : Config κ} (hc : c.InOrder) (hheld : c.held = none) (y : Nat) :
    y ∈ c.machine.allocator.cache.recency ↔
      (∃ a, c.account? y = some a) ∧ c.Unused y ∧ c.waiting y = 0 ∧ ¬c.machine.Freed y := by
  rw [hc.aged.listed]
  constructor
  · intro hclass
    obtain ⟨i, hi⟩ := Option.ne_none_iff_exists'.mp hclass
    obtain ⟨b, hb, hcached⟩ := Allocator.exists_of_classOf hi
    have ha := Machine.accounts_of_buffer hb
    have hplace : b.account.cachedIn ≠ none := by
      rw [show b.account.cachedIn = some i from hcached]
      exact nofun
    obtain ⟨hrefs, hwaiting⟩ := hc.books.settled y _ ha (.inr (.inl hplace))
    refine ⟨⟨_, ha⟩, fun a ha' => ?_, hwaiting, fun hfreed => ?_⟩
    · have ha' : c.machine.storage.accounts[y]? = some a := ha'
      rw [ha] at ha'
      cases ha'
      exact hrefs
    · rw [Machine.freed_iff] at hfreed
      obtain ⟨a, ha', hfreed⟩ := hfreed
      exact hplace (by
        rw [ha] at ha'
        cases ha'
        exact hc.books.apart y _ ha hfreed)
  · rintro ⟨⟨a, ha⟩, hunused, hwaiting, hlive⟩
    rw [Machine.classOf_of_account ha]
    intro hnone
    have hfreed : a.freed = false := by
      rw [← Bool.not_eq_true]
      exact fun hfreed => hlive ((Machine.freed_iff ..).mpr ⟨a, ha, hfreed⟩)
    exact (hc.books.active y a ha hfreed hnone (by rw [hheld]; exact nofun)).2 (hunused a ha) hwaiting

/-- What is cached is a buffer, with the stamp that it had before what leaves the cards alone. -/
theorem Config.InOrder.lastUsed_eq {c : Config κ} {m : Machine κ} (hc : c.InOrder) (hheld : c.held = none)
    (h : SameCards c.machine m) {y : Nat} (hy : y ∈ c.machine.allocator.cache.recency) :
    m.allocator.lastUsed y = c.machine.allocator.lastUsed y := by
  obtain ⟨⟨a, ha⟩, -⟩ := (hc.mem_recency hheld y).mp hy
  obtain ⟨b, hb, -⟩ := Machine.exists_buffer ha
  exact h.lastUsed hb

namespace Drains

variable {c c₁ c' : Config κ}

/-- A release that is over was over before, or it is over now. -/
theorem over_iff (h : Drains c c₁) (h' : Drains c₁ c') (y : Nat) : c.Over c' y ↔ c.Over c₁ y ∨ c₁.Over c' y := by
  have hle := h.waiting y
  have hle' := h'.waiting y
  have hunused : c₁.Unused y ↔ c.Unused y :=
    ⟨fun hc => hc.of_same h.references.symm, fun hc => hc.of_same h.references⟩
  unfold Config.Over
  rw [hunused]
  by_cases hu : c.Unused y
  · simp only [hu, true_and]
    omega
  · simp [hu]

theorem seconds (h : Drains c c') : c'.machine.seconds = c.machine.seconds := h.time.seconds h.epoch

/-- What was cached and is not freed is still cached. -/
theorem kept (h : Drains c c') (hc : c.InOrder) (hc' : c'.InOrder) (hheld : c.held = none) (hheld' : c'.held = none)
    {y : Nat} (hy : y ∈ c.machine.allocator.cache.recency) (hlive : ¬c'.machine.Freed y) :
    y ∈ c'.machine.allocator.cache.recency ∧
      c'.machine.allocator.lastUsed y = c.machine.allocator.lastUsed y := by
  obtain ⟨haccount, hunused, hwaiting, -⟩ := (hc.mem_recency hheld y).mp hy
  have hmem : y ∈ c'.machine.allocator.cache.recency := by
    refine (hc'.mem_recency hheld' y).mpr ⟨(h.exists_account y).mpr haccount, hunused.of_same h.references, ?_, hlive⟩
    have := h.waiting y
    omega
  rcases h.stamps y hmem with ⟨hover, -⟩ | ⟨-, hstamp⟩
  · exact absurd hwaiting hover.2.1
  · exact ⟨hmem, hstamp⟩

theorem refl (c : Config κ) : Drains c c where
  toSheds := Journey.refl _
  time := Journey.refl _
  epoch := rfl
  waiting _ := Nat.le_refl _
  gone y := by
    have hnone (x : Nat) : ¬c.Over c x := fun h => h.2.1 h.2.2
    simp [hnone]
  stamps y hy := .inr ⟨hy, rfl⟩

/-- What is stale is freed by the first buffer that is cached, and what comes later finds nothing more.  Only what was
cached in between could be stale as well, and that takes a negative stale age. -/
theorem trans (h : Drains c c₁) (h' : Drains c₁ c') (hc : c.InOrder) (hc₁ : c₁.InOrder) (hheld : c.held = none)
    (hheld₁ : c₁.held = none) : Drains c c' where
  toSheds := Journey.trans h.toSheds h'.toSheds
  time := Journey.trans h.time h'.time
  epoch := h'.epoch.trans h.epoch
  waiting x := Nat.le_trans (h'.waiting x) (h.waiting x)
  gone y := by
    have hcacheable := h.cacheable
    have hstale : c₁.machine.Stale y ↔
        c.machine.allocator.options.staleSeconds < c.machine.seconds - c₁.machine.allocator.lastUsed y := by
      rw [Machine.Stale, h.options, h.seconds]
    have hgone := h.gone y
    rw [h'.gone, hcacheable, h.options]
    simp only [hcacheable, over_iff h h']
    constructor
    · rintro (hfreed | ⟨hover, hwhy⟩ | ⟨⟨x, hover, hx⟩, hmem, hold⟩)
      · rcases hgone.mp hfreed with hfreed | ⟨hover, hwhy⟩ | ⟨⟨x, hover, hx⟩, hlast⟩
        · exact .inl hfreed
        · exact .inr (.inl ⟨.inl hover, hwhy⟩)
        · exact .inr (.inr ⟨⟨x, .inl hover, hx⟩, hlast⟩)
      · exact .inr (.inl ⟨.inr hover, hwhy⟩)
      · rw [hstale] at hold
        rcases h.stamps y hmem with ⟨hover', hstamp⟩ | ⟨hmem', hstamp⟩
        · rw [hstamp, Int.sub_self] at hold
          exact .inr (.inl ⟨.inl hover', .inr hold⟩)
        · rw [hstamp] at hold
          exact .inr (.inr ⟨⟨x, .inr hover, hx⟩, hmem', hold⟩)
    · rintro (hfreed | ⟨hover | hover, hwhy⟩ | ⟨⟨x, hover | hover, hx⟩, hmem, hold⟩)
      · exact .inl (hgone.mpr (.inl hfreed))
      · exact .inl (hgone.mpr (.inr (.inl ⟨hover, hwhy⟩)))
      · exact .inr (.inl ⟨hover, hwhy⟩)
      · exact .inl (hgone.mpr (.inr (.inr ⟨⟨x, hover, hx⟩, hmem, hold⟩)))
      · by_cases hfreed : c₁.machine.Freed y
        · exact .inl hfreed
        · obtain ⟨hmem₁, hstamp⟩ := h.kept hc hc₁ hheld hheld₁ hmem hfreed
          refine .inr (.inr ⟨⟨x, hover, hx⟩, hmem₁, hstale.mpr ?_⟩)
          rw [hstamp]
          exact hold
  stamps y hy := by
    rw [over_iff h h', ← h.seconds]
    rcases h'.stamps y hy with ⟨hover, hstamp⟩ | ⟨hmem, hstamp⟩
    · exact .inl ⟨.inr hover, hstamp⟩
    · rcases h.stamps y hmem with ⟨hover, hfirst⟩ | ⟨hmem', hfirst⟩
      · refine .inl ⟨.inl hover, ?_⟩
        rw [hstamp, hfirst, h.seconds]
      · exact .inr ⟨hmem', hstamp.trans hfirst⟩

end Drains

/-! ## One callback -/

namespace Drains

variable {c c' : Config κ}

/-- No release ends. -/
theorem of_mild (hc : c.InOrder) (hheld : c.held = none) (hmild : Mild c.machine c'.machine)
    (hwaiting : ∀ x, c'.waiting x ≤ c.waiting x) (hover : ∀ x, ¬c.Over c' x) : Drains c c' where
  toSheds := hmild.sheds
  time := congrArg Kernel.now hmild.kernel
  epoch := congrArg (·.2.2) hmild.cards.shelves
  waiting := hwaiting
  gone y := by
    rw [hmild.freed_iff]
    simp [hover]
  stamps y hy := by
    rw [hmild.recency] at hy
    exact .inr ⟨hy, hc.lastUsed_eq hheld hmild.cards hy⟩

/-- The release of one buffer ends. -/
theorem of_ends {x : Nat} {m : Machine κ} (hc : c.InOrder) (hheld : c.held = none) (hmild : Mild c.machine m)
    (hends : Ends x m c'.machine) (hwaiting : ∀ y, c'.waiting y ≤ c.waiting y)
    (hover : ∀ y, c.Over c' y ↔ y = x) : Drains c c' where
  toSheds := Journey.trans hmild.sheds hends.toSheds
  time := Journey.trans (show SameTime c.machine m from congrArg Kernel.now hmild.kernel) hends.time
  epoch := hends.epoch.trans (congrArg (·.2.2) hmild.cards.shelves)
  waiting := hwaiting
  gone y := by
    have hseconds : m.seconds = c.machine.seconds :=
      SameTime.seconds (congrArg Kernel.now hmild.kernel) (congrArg (·.2.2) hmild.cards.shelves)
    have hstale : y ∈ c.machine.allocator.cache.recency → (m.Stale y ↔ c.machine.Stale y) := by
      intro hy
      rw [Machine.Stale, Machine.Stale, hmild.sheds.options, hseconds, hc.lastUsed_eq hheld hmild.cards hy]
    rw [hends.gone, hmild.freed_iff, hmild.sheds.cacheable, hmild.recency, hmild.sheds.options]
    simp only [hover, exists_eq_left]
    by_cases hy : y = x
    · subst hy
      grind
    · grind
  stamps y hy := by
    have hseconds : m.seconds = c.machine.seconds :=
      SameTime.seconds (congrArg Kernel.now hmild.kernel) (congrArg (·.2.2) hmild.cards.shelves)
    rw [hover, ← hseconds]
    rcases hends.stamps y hy with h | ⟨hmem, hstamp⟩
    · exact .inl h
    · rw [hmild.recency] at hmem
      exact .inr ⟨hmem, hstamp.trans (hc.lastUsed_eq hheld hmild.cards hmem)⟩

end Drains

/-- A buffer that a callback ran for is in order, and held, if that callback was the last one. -/
theorem Config.InOrder.drained {m m₁ : Machine κ} {i : Nat} {l : Link} {ready : List (Nat × Link)} {x : Nat}
    (hc : (⟨m, (i, l) :: ready, none⟩ : Config κ).InOrder) (hmild : Mild m m₁)
    (hedit : Edits x (fun a => { a with gpuRefs := a.gpuRefs - 1 }) m m₁)
    (hbooks : m₁.Books (ready.map (·.2.callback)) (some x)) : (⟨m₁, ready, some x⟩ : Config κ).InOrder where
  device := by
    refine hc.device.imp (fun hd => ?_) fun hm => hm.of_progress hedit.progress
    have hprogress : (⟨m₁, ready, some x⟩ : Config κ).progress = m.progress := hedit.progress
    rwa [hprogress]
  books := hbooks
  aged := by
    have hages : Ages m.seconds m m₁ := .of_cards hmild.cards
    exact (hages.aged hc.aged).mono (hages.seconds_le (Nat.le_of_eq (congrArg Kernel.now hmild.kernel).symm))
  idle := hc.idle.edits hedit fun a ha hrefs => hc.idle x a ha hrefs
  rules := by
    rw [hmild.table]
    exact hc.rules

/-- A callback can run, and it ends the release of its buffer if it is the last one. -/
theorem exec_fire (hprompt : Prompt κ) {m : Machine κ} {i : Nat} {l : Link} {ready : List (Nat × Link)}
    (hc : (⟨m, (i, l) :: ready, none⟩ : Config κ).Flowing) :
    ∃ m', (Device.runCallback l.callback).exec m = (.ok (), m') ∧
      Drains ⟨m, (i, l) :: ready, none⟩ ⟨m', ready, none⟩ := by
  obtain ⟨n, callback⟩ := l
  have hcons (y : Nat) : (⟨m, (i, ⟨n, callback⟩) :: ready, none⟩ : Config κ).waiting y =
      (⟨m, ready, none⟩ : Config κ).waiting y + if callback = .release y then 1 else 0 := Machine.waiting_cons ..
  have hsame {m₁ : Machine κ} (hp : m₁.progress = m.progress) (y : Nat) :
      (⟨m₁, ready, none⟩ : Config κ).waiting y = (⟨m, ready, none⟩ : Config κ).waiting y := by
    rw [Config.waiting, Machine.waiting, hp]
    rfl
  cases callback with
  | report id =>
    have hmild : Mild m { m with reports := .callback id :: m.reports } := ⟨rfl, rfl, .of_buffers rfl rfl, rfl, rfl⟩
    refine ⟨_, rfl, .of_mild hc.toInOrder rfl hmild (fun y => ?_) fun y hover => hover.2.1 ?_⟩
    · exact Nat.le_of_eq ((hsame rfl y).trans (hcons y).symm)
    · rw [hcons, if_neg Callback.noConfusion]
      exact hover.2.2
  | release x =>
    have hx : (⟨m, (i, ⟨n, .release x⟩) :: ready, none⟩ : Config κ).waiting x ≠ 0 := Config.waiting_ready rfl
    obtain ⟨a, ha⟩ : ∃ a, m.storage.accounts[x]? = some a := by
      refine Option.ne_none_iff_exists'.mp fun hnone => hx ?_
      exact hc.books.named x (List.getElem?_eq_none_iff.mp hnone)
    obtain ⟨b, hb, rfl⟩ := Machine.exists_buffer ha
    -- the count goes down
    let m₁ : Machine κ := { m with allocator := m.allocator.mapBuffer x fun b => { b with gpuRefs := b.gpuRefs - 1 } }
    have h₁ : (modifyBuffer x fun b => { b with gpuRefs := b.gpuRefs - 1 } : Op κ Unit).exec m = (.ok (), m₁) := rfl
    have hedit : Edits x (fun a => { a with gpuRefs := a.gpuRefs - 1 }) m m₁ := .of_modifyBuffer h₁ fun _ => rfl
    have hmild : Mild m m₁ := by
      refine Keeps.ok (mild_editBuffer x (g := fun a => { a with gpuRefs := a.gpuRefs - 1 }) ?_ ?_ ?_ ?_ ?_) h₁
      all_goals exact fun _ => rfl
    have hb₁ : m₁.allocator.buffers[x]? = some { b with gpuRefs := b.gpuRefs - 1 } :=
      Allocator.getElem?_mapBuffer_of_some hb _
    obtain ⟨hzero, hheld, -⟩ := hedit.drained hc.books ha (hc.few x)
    have hunused : (⟨m, (i, ⟨n, .release x⟩) :: ready, none⟩ : Config κ).Unused x ↔ b.refs = 0 := by
      refine ⟨fun h => h _ ha, fun h a ha' => ?_⟩
      have ha' : m.storage.accounts[x]? = some a := ha'
      rw [ha] at ha'
      cases ha'
      exact h
    -- no other release ends
    have hothers {m' : Machine κ} (hp : m'.progress = m.progress) {y : Nat} (hy : y ≠ x) :
        ¬(⟨m, (i, ⟨n, .release x⟩) :: ready, none⟩ : Config κ).Over ⟨m', ready, none⟩ y := by
      rintro ⟨-, hne, hover⟩
      rw [hcons, if_neg fun h => hy (Callback.release.inj h).symm] at hne
      exact hne ((hsame hp y).symm.trans hover)
    unfold Device.runCallback Buffer.queueDrained
    rw [exec_bind_of_ok h₁, exec_bind_of_ok (exec_buffer_of_some hb₁)]
    split
    · rename_i hlast
      obtain ⟨hgpu, hrefs⟩ := hlast
      obtain ⟨_, m₂, h₂⟩ := returns_writeHandle "gpufree" { b with gpuRefs := b.gpuRefs - 1 } m₁
      have hmild₂ : Mild m₁ m₂ := (mild_writeHandle _ _).ok h₂
      have hquiet : Quiet m₁ m₂ := (quiet_writeHandle _ _).ok h₂
      have hc₁ := hc.drained hmild hedit (hheld hgpu hrefs)
      obtain ⟨m', he, hends⟩ := exec_finish hprompt (hc₁.mild hquiet hmild₂)
      have hp : m'.progress = m.progress := by
        rw [(tidies_finish (ready.map (·.2.callback)) he).progress, hquiet.progress, hedit.progress]
      refine ⟨m', ?_, .of_ends hc.toInOrder rfl (Journey.trans hmild hmild₂) hends (fun y => ?_) fun y => ?_⟩
      · rw [exec_bind_of_ok h₂]
        exact he
      · rw [hsame hp, hcons]
        exact Nat.le_add_right _ _
      · constructor
        · intro hover
          by_contra hy
          exact hothers hp hy hover
        · rintro rfl
          refine ⟨hunused.mpr hrefs, hx, ?_⟩
          rw [hsame hp, ← hsame hedit.progress]
          exact hzero.mp hgpu
    · rename_i hgo
      refine ⟨m₁, rfl, .of_mild hc.toInOrder rfl hmild (fun y => ?_) fun y hover => ?_⟩
      · rw [hsame hedit.progress, hcons]
        exact Nat.le_add_right _ _
      · by_cases hy : y = x
        · subst hy
          exact hgo ⟨hzero.mpr hover.2.2, hunused.mp hover.1⟩
        · exact hothers hedit.progress hy hover

/-! ## One notice -/

/-- A notice, or a callback that runs, keeps everything in order. -/
theorem Config.Flowing.next {c c' : Config κ} {act : Action} (hc : c.Flowing) (hs : Step c act c')
    (hact : (∃ i n, act = .advance i n) ∨ ∃ i l, act = .fire i l) (h : Drains c c') : c'.Flowing := by
  have hattach : act ≠ .attach := by rcases hact with ⟨i, n, rfl⟩ | ⟨i, l, rfl⟩ <;> exact nofun
  have hother : act ≠ .other := by rcases hact with ⟨i, n, rfl⟩ | ⟨i, l, rfl⟩ <;> exact nofun
  have hcollect (id k : Nat) : act ≠ .collect id k := by rcases hact with ⟨i, n, rfl⟩ | ⟨i, l, rfl⟩ <;> exact nofun
  have hstreams : c'.progress.streams.length ≤ slotCount := by
    rw [hs.length_streams, if_neg hattach]
    exact hc.streams
  have horderly : Orderly c act c' :=
    ⟨Nat.le_of_eq (Eq.symm h.time), fun h => absurd h hother, fun h => absurd h hother,
      fun id k h => absurd h (hcollect id k)⟩
  exact {
    toInOrder := (ShelfStep.stream hc.csf hs).inOrder horderly hstreams hc.few
      (h.references.ne_minValue hc.books) hc.toInOrder
    csf := hs.generation.trans hc.csf
    streams := hstreams
    few := fun x => Nat.lt_of_le_of_lt (h.waiting x) (hc.few x) }

/-- The order in which callbacks wait for their turn is of no concern to the books. -/
theorem Config.Flowing.perm {m : Machine κ} {ready ready' : List (Nat × Link)} (hperm : ready.Perm ready')
    (hc : (⟨m, ready, none⟩ : Config κ).Flowing) : (⟨m, ready', none⟩ : Config κ).Flowing := by
  have hwaiting : m.waiting (ready'.map (·.2.callback)) = m.waiting (ready.map (·.2.callback)) := by
    funext x
    rw [Machine.waiting, Machine.waiting, (hperm.map _).count_eq]
  have hbooks : (⟨m, ready', none⟩ : Config κ).Books := by
    show m.storage.Books (m.waiting (ready'.map (·.2.callback))) m.Owns none
    rw [hwaiting]
    exact hc.books
  refine ⟨⟨⟨hc.device, hbooks⟩, hc.aged, hc.idle, hc.rules⟩, hc.csf, hc.streams, fun x => ?_⟩
  rw [Config.waiting, hwaiting]
  exact hc.few x

/-- Nor to what ends. -/
theorem Drains.perm {c : Config κ} {m : Machine κ} {ready ready' : List (Nat × Link)} (hperm : ready.Perm ready')
    (h : Drains c ⟨m, ready, none⟩) : Drains c ⟨m, ready', none⟩ := by
  have hwaiting (y : Nat) : (⟨m, ready', none⟩ : Config κ).waiting y = (⟨m, ready, none⟩ : Config κ).waiting y := by
    rw [Config.waiting, Config.waiting, Machine.waiting, Machine.waiting, (hperm.map _).count_eq]
  have hover (y : Nat) : c.Over ⟨m, ready', none⟩ y ↔ c.Over ⟨m, ready, none⟩ y := by
    rw [Config.Over, Config.Over, hwaiting]
  refine ⟨h.toSheds, h.time, h.epoch, fun y => (hwaiting y).trans_le (h.waiting y), fun y => ?_, fun y hy => ?_⟩
  · simp only [hover]
    exact h.gone y
  · rw [hover]
    exact h.stamps y hy

/-- By induction on the callbacks that were taken. -/
theorem exec_runCallbacks (hprompt : Prompt κ) {m : Machine κ} {taken ready : List (Nat × Link)}
    (hc : (⟨m, taken ++ ready, none⟩ : Config κ).Flowing) :
    ∃ m', (Device.runCallbacks (taken.map (·.2.callback))).exec m = (.ok (), m') ∧ m'.progress = m.progress ∧
      (⟨m', ready, none⟩ : Config κ).Flowing ∧ Drains ⟨m, taken ++ ready, none⟩ ⟨m', ready, none⟩ := by
  induction taken generalizing m with
  | nil => exact ⟨m, rfl, rfl, hc, .refl _⟩
  | cons t taken ih =>
    obtain ⟨m₁, h₁, hdrains⟩ := exec_fire hprompt hc
    have hstep : Step ⟨m, t :: (taken ++ ready), none⟩ (.fire t.1 t.2) ⟨m₁, taken ++ ready, none⟩ := .fire h₁
    have hc₁ := hc.next hstep (.inr ⟨_, _, rfl⟩) hdrains
    obtain ⟨m', he, hprogress, hc', hrest⟩ := ih hc₁
    refine ⟨m', (exec_bind_of_ok h₁).trans he, hprogress.trans (hstep.progress nofun), hc',
      hdrains.trans hrest hc.toInOrder hc₁.toInOrder rfl rfl⟩

/-- A notice takes effect, and the callbacks that it lets go run. -/
theorem exec_advance_of_flowing (hprompt : Prompt κ) {m : Machine κ} {ready : List (Nat × Link)}
    (hc : (⟨m, ready, none⟩ : Config κ).Flowing) (r : Notice) :
    ∃ m', (Device.advance r.slot.val r.seqnum).exec m = (.ok (), m') ∧ m'.progress = m.progress.notice r ∧
      (⟨m', ready, none⟩ : Config κ).Flowing ∧ Drains ⟨m, ready, none⟩ ⟨m', ready, none⟩ := by
  have hsound : m.progress.Sound := (hc.device.resolve_right fun hm => hm.generation hc.csf).2
  obtain ⟨m₁, h₁, -⟩ := exec_advanceSlot_of_check r.slot.isLt r.seqnum fun _ => hsound.check_advance r.slot r.seqnum
  have hstep : Step ⟨m, ready, none⟩ (.advance r.slot r.seqnum)
    ⟨m₁, ready ++ (Action.advance r.slot r.seqnum).takes m.progress, none⟩ := .advance h₁
  have hmild : Mild m m₁ := (keeps_advanceSlot _ _).ok h₁
  have hwaiting (y : Nat) := hstep.waiting y
  simp only [Action.fires, List.map_nil, List.count_nil, reduceCtorEq, if_false, Nat.add_zero] at hwaiting
  have hdrains := Drains.of_mild hc.toInOrder rfl hmild (fun y => Nat.le_of_eq (hwaiting y))
    fun y hover => hover.2.1 ((hwaiting y).symm.trans hover.2.2)
  have hc₁ := hc.next hstep (.inl ⟨_, _, rfl⟩) hdrains
  -- what was taken runs before the rest
  have hperm : (ready ++ (Action.advance r.slot r.seqnum).takes m.progress).Perm
      ((Action.advance r.slot r.seqnum).takes m.progress ++ ready) := List.perm_append_comm
  have htaken : ((Action.advance r.slot r.seqnum).takes m.progress).map (·.2.callback) =
      ((m.progress.slots.entry r.slot).advance r.seqnum).1 := by
    rw [EventSlot.advance_fst]
    exact List.map_map
  have hmoved := hdrains.perm hperm
  obtain ⟨m', he, hprogress, hc', hrest⟩ := exec_runCallbacks hprompt (hc₁.perm hperm)
  refine ⟨m', ?_, hprogress.trans (hstep.progress (by rintro ⟨⟩)), hc', ?_⟩
  · rw [htaken] at he
    exact (exec_bind_of_ok h₁).trans he
  · exact hmoved.trans hrest hc.toInOrder (hc₁.perm hperm).toInOrder rfl rfl

/-! ## Many notices -/

/-- Notices that come one after the other. -/
def Device.advanceAll : List Notice → Op κ Unit
  | [] => pure ()
  | r :: rs => do
    Device.advance r.slot.val r.seqnum
    advanceAll rs

/-- By induction on the notices. -/
theorem exec_advanceAll (hprompt : Prompt κ) {m : Machine κ} {ready : List (Nat × Link)}
    (hc : (⟨m, ready, none⟩ : Config κ).Flowing) (rs : List Notice) :
    ∃ m', (Device.advanceAll rs).exec m = (.ok (), m') ∧ m'.progress = rs.foldl Progress.notice m.progress ∧
      (⟨m', ready, none⟩ : Config κ).Flowing ∧ Drains ⟨m, ready, none⟩ ⟨m', ready, none⟩ := by
  induction rs generalizing m with
  | nil => exact ⟨m, rfl, rfl, hc, .refl _⟩
  | cons r rs ih =>
    obtain ⟨m₁, h₁, hprogress₁, hc₁, hdrains₁⟩ := exec_advance_of_flowing hprompt hc r
    obtain ⟨m', he, hprogress, hc', hdrains⟩ := ih hc₁
    refine ⟨m', (exec_bind_of_ok h₁).trans he, ?_, hc', hdrains₁.trans hdrains hc.toInOrder hc₁.toInOrder rfl rfl⟩
    rw [hprogress, hprogress₁, List.foldl_cons]

omit [Kernel κ] in
/-- The slots have come equally far with the same links, the buffers have the same counts, and the same ones are
cached and freed, and the same handles are live. -/
structure Agree (m m' : Machine κ) : Prop where
  progress : m'.progress = m.progress
  refs : m'.storage.accounts.map Account.refs = m.storage.accounts.map Account.refs
  gpuRefs : m'.storage.accounts.map Account.gpuRefs = m.storage.accounts.map Account.gpuRefs
  cached : ∀ x, m'.allocator.classOf x ≠ none ↔ m.allocator.classOf x ≠ none
  freed : ∀ x, m'.Freed x ↔ m.Freed x
  owns : ∀ k fd, m'.Owns k fd ↔ m.Owns k fd

/-- What ends depends on how far the slots have come, and on nothing else. -/
theorem Drains.agree {c : Config κ} {m m' : Machine κ} {ready : List (Nat × Link)} (h : Drains c ⟨m, ready, none⟩)
    (h' : Drains c ⟨m', ready, none⟩) (hc : (⟨m, ready, none⟩ : Config κ).InOrder)
    (hc' : (⟨m', ready, none⟩ : Config κ).InOrder) (hprogress : m'.progress = m.progress) : Agree m m' := by
  have hwaiting (y : Nat) : (⟨m', ready, none⟩ : Config κ).waiting y = (⟨m, ready, none⟩ : Config κ).waiting y := by
    rw [Config.waiting, Machine.waiting, hprogress]
    rfl
  have hover (y : Nat) : c.Over ⟨m', ready, none⟩ y ↔ c.Over ⟨m, ready, none⟩ y := by
    rw [Config.Over, Config.Over, hwaiting]
  have hfreed (y : Nat) : m'.Freed y ↔ m.Freed y := by
    rw [h.gone, h'.gone]
    simp only [hover]
  have hsame : SameReferences m m' := h'.references.trans h.references.symm
  have htitles : m'.storage.accounts.map Account.title = m.storage.accounts.map Account.title :=
    h'.titles.trans h.titles.symm
  have haccount (y : Nat) : (∃ a, m'.storage.accounts[y]? = some a) ↔ ∃ a, m.storage.accounts[y]? = some a :=
    (h'.exists_account y).trans (h.exists_account y).symm
  refine ⟨hprogress, hsame, List.ext_getElem? fun y => ?_, fun y => ?_, hfreed, fun k fd => ?_⟩
  · rw [List.getElem?_map, List.getElem?_map]
    cases ha : m.storage.accounts[y]? with
    | none =>
      have hnone : m'.storage.accounts[y]? = none := by
        rw [← Option.not_isSome_iff_eq_none, Option.isSome_iff_exists, haccount, ha]
        rintro ⟨_, ⟨⟩⟩
      rw [hnone]
    | some a =>
      obtain ⟨a', ha'⟩ := (haccount y).mpr ⟨a, ha⟩
      rw [ha', Option.map_some, Option.map_some, hc.books.counted y a ha, hc'.books.counted y a' ha']
      exact congrArg (some ∘ Int32.ofNat) (hwaiting y)
  · have hunused : (⟨m', ready, none⟩ : Config κ).Unused y ↔ (⟨m, ready, none⟩ : Config κ).Unused y :=
      ⟨fun hu => hu.of_same hsame.symm, fun hu => hu.of_same hsame⟩
    have hmem := hc.mem_recency rfl y
    have hmem' := hc'.mem_recency rfl y
    rw [hc.aged.listed] at hmem
    rw [hc'.aged.listed] at hmem'
    refine hmem'.trans (Iff.trans ?_ hmem.symm)
    exact and_congr (haccount y) (and_congr hunused (and_congr (by rw [hwaiting]) (not_congr (hfreed y))))
  · rw [h.owns, h'.owns]
    simp only [hfreed]

end Kernel

/-! ## Two orders -/

/-- On a bench nothing that gives something back takes time. -/
theorem prompt_bench : Prompt Bench := fun b _ hc => (b.call_givesBack hc).2

namespace Sample

-- a table of 256 slots is evaluated
set_option maxRecDepth 20000

/-- All the work of the first slot is done. -/
def finished : Notice := ⟨⟨0, by decide⟩, 6⟩

/-- Less of it is done. -/
def underWay : Notice := ⟨⟨0, by decide⟩, 3⟩

/-- The steps up to the release of a buffer that a busy slot may use. -/
def releasing : List (Config Bench × Action) := submission ++ [(⟨busy, [], none⟩, .release 0)]

theorem run_released : ShelfRun ⟨start, [], none⟩ releasing ⟨released, [], none⟩ := by
  have hwrap : (Allocator.wrapRegion ⟨⟨0, 0⟩, 0⟩ 4096 0 "sample").exec paired = (.ok 0, wrapped) :=
    exec_of_value (by decide)
  have hhand : (Allocator.handOut 0).exec wrapped = (.ok (), live) := exec_of_value (by decide)
  refine .cons (.stream rfl (.attach (exec_of_value (a := 0) (by decide)))) ⟨by decide, nofun, nofun, nofun⟩ <|
    .cons (.stream rfl (.attach (exec_of_value (a := 1) (by decide)))) ⟨by decide, nofun, nofun, nofun⟩ <|
    .cons (.stream rfl (.wrap hwrap)) ⟨by decide, ?_, ?_, nofun⟩ <|
    .cons (.stream rfl (.handOut hhand)) ⟨by decide, ?_, ?_, nofun⟩ <|
    .cons (.stream rfl step_busy) ⟨by decide, nofun, nofun, nofun⟩ <|
    .cons (.stream rfl step_released) ⟨by decide, nofun, nofun, nofun⟩ (.nil _)
  · exact fun _ _ _ => (cards_wrapRegion _ _ _ _).ok hwrap
  · exact fun _ _ => (keeps_wrapRegion (fun va => lawful_allocHandle va (by decide)) _ _ _ _).ok hwrap
  · exact fun _ _ _ => (cards_handOut _).ok hhand
  · exact fun _ _ => (keeps_handOut _).ok hhand

end Sample

namespace Sample

/-- What was submitted on the first slot is done. -/
def emptied : Notice := ⟨⟨0, by decide⟩, 10⟩

/-- What was submitted on the second slot is done. -/
def besides : Notice := ⟨⟨1, by decide⟩, 6⟩

end Sample

end Mali
