import Mali.Proofs.BufferRuns
import Mali.Proofs.CacheOrder
import Mali.Proofs.HandleRules
import Mali.Proofs.LifeCycle
import Mali.Proofs.Passes

/-!
# The cache along a run

The steps of a run may be those of a command stream device or those of a job manager device.  Steps about
buffers are the same on both.  On a command stream device there are also those of slots, streams and
batches; on a job manager device atoms take off and land, and no callback ever waits.

Beside what a step does, four things are asked of it: the clock does not go back, what leaves every account
alone leaves the cards alone and keeps the rules of the table of handles, and a batch records uses only on
buffers that are in use.

* `Machine.Idle`: a buffer without references has no recorded uses.
* `Step.idle`, `Step.ages`: what a step does to recorded uses and to the order of the cache.
* `ShelfStep`, `Orderly`, `ShelfRun`: steps and runs on a device of any kind.
* `Config.InOrder`: the books, the order of the cache and the recorded uses are as they should be.
* `ShelfRun.inOrder`: they stay so.
-/

namespace Mali

open Op

variable {κ : Type}

/-! ## Recorded uses -/

/-- A buffer without references has no recorded uses. -/
def Machine.Idle (m : Machine κ) : Prop :=
  ∀ (x : Nat) (a : Account), m.storage.accounts[x]? = some a → a.refs = 0 → a.usage = []

namespace Machine.Idle

variable {m m' : Machine κ}

theorem of_storage (h : m.Idle) (hs : m'.storage = m.storage) : m'.Idle := by
  rw [Idle, hs]
  exact h

/-- The account of one buffer changes. -/
theorem modify {x : Nat} {f : Account → Account} (h : m.Idle)
    (haccounts : m'.storage.accounts = m.storage.accounts.modify x f)
    (hf : ∀ a, m.storage.accounts[x]? = some a → (f a).refs = 0 → (f a).usage = []) : m'.Idle := by
  intro y b hy hrefs
  rw [haccounts, List.getElem?_modify] at hy
  obtain ⟨a, ha, hab⟩ := Option.map_eq_some_iff.mp hy
  by_cases hxy : x = y
  · rw [if_pos hxy] at hab
    subst hab
    exact hf a (hxy ▸ ha) hrefs
  · rw [if_neg hxy] at hab
    subst hab
    exact h y a ha hrefs

theorem edits {x : Nat} {f : Account → Account} (h : m.Idle) (he : Edits x f m m')
    (hf : ∀ a, m.storage.accounts[x]? = some a → (f a).refs = 0 → (f a).usage = []) : m'.Idle :=
  h.modify (by rw [he.storage]) hf

theorem opens {a : Account} (h : m.Idle) (ho : Opens a m m') (ha : a.usage = []) : m'.Idle := by
  intro y b hy hrefs
  rw [ho.storage] at hy
  rcases getElem?_concat_cases hy with ⟨-, rfl⟩ | ⟨-, hy⟩
  · exact ha
  · exact h y b hy hrefs

/-- The counts stay as they are, and uses may be forgotten. -/
theorem tidies {ready : List Callback} {held held' : Option Nat} (h : m.Idle)
    (ht : Tidies ready held held' m m') : m'.Idle := by
  intro y b hy hrefs
  have hcounts := congrArg (·[y]?) ht.counts
  simp only [List.getElem?_map, hy, Option.map_some] at hcounts
  obtain ⟨a, ha, hab⟩ := Option.map_eq_some_iff.mp hcounts.symm
  have hsame : a.refs = b.refs := congrArg Prod.fst hab
  rw [← Machine.usage_of_account hy]
  rcases ht.uses y with huse | huse
  · rw [huse, Machine.usage_of_account ha]
    exact h y a ha (hsame.trans hrefs)
  · exact huse

end Machine.Idle

/-- No count of references is negative. -/
theorem Machine.Books.refs_nonneg {m : Machine κ} {ready : List Callback} {held : Option Nat}
    (h : m.Books ready held) {x : Nat} {a : Account} (hx : m.storage.accounts[x]? = some a) : 0 ≤ a.refs := by
  by_cases hp : a.freed = true ∨ a.cachedIn ≠ none ∨ held = some x
  · rw [(h.settled x a hx hp).1]
    decide
  · rw [not_or, not_or, not_not, Bool.not_eq_true] at hp
    exact (h.active x a hx hp.1 hp.2.1 hp.2.2).1

/-- The class of a buffer is that of its account. -/
theorem Machine.classOf_of_account {m : Machine κ} {x : Nat} {a : Account}
    (hx : m.storage.accounts[x]? = some a) : m.allocator.classOf x = a.cachedIn := by
  obtain ⟨b, hb, rfl⟩ := Machine.exists_buffer hx
  exact Allocator.classOf_of_buffer hb

section Kernel

variable [Kernel κ] {c c' : Config κ} {act : Action}

/-- A step leaves no use on a buffer without references. -/
theorem Step.idle (h : Step c act c') (hlt : act = .attach → c.progress.bound < slotCount) (hb : c.Books)
    (huses : ∀ id k, act = .collect id k → ∀ x, ¬c.InUse x → c'.machine.usage x = c.machine.usage x)
    (hi : c.machine.Idle) : c'.machine.Idle := by
  cases h.effect hlt with
  | still _ _ _ hstorage => exact hi.of_storage hstorage
  | count ha hf hedit =>
    refine hi.edits hedit fun b hx hz => ?_
    obtain rfl := Option.some.inj (ha.symm.trans hx)
    exact absurd hz (hf (Machine.Books.refs_nonneg hb ha))
  | handOut _ _ hedit => exact hi.edits hedit fun _ _ _ => rfl
  | opens _ husage hopens => exact hi.opens hopens husage
  | tidies ht => exact hi.tidies ht
  | @release _ x a m₁ _ _ hm₁ hend =>
    have hi₁ : m₁.Idle := hi.modify (by rw [hm₁.storage]) fun _ _ _ => rfl
    rcases hend with ⟨-, hm⟩ | ⟨-, ht⟩
    · rwa [hm]
    · exact hi₁.tidies ht
  | @drain _ i x n a m₁ _ hedit hend =>
    have hi₁ : m₁.Idle := hi.edits hedit fun a ha hz => hi x a ha hz
    rcases hend with ⟨-, hm⟩ | ⟨-, -, ht⟩
    · rwa [hm]
    · exact hi₁.tidies ht
  | @collect _ id batch b hget _ he =>
    obtain ⟨_, hg⟩ := gathers_of_collect hget he
    intro x a hx hz
    have hx' := hx
    rw [hg.accounts] at hx'
    obtain ⟨a₀, ha₀, rfl⟩ := Option.map_eq_some_iff.mp hx'
    have hidle : ¬c.InUse x := by
      rintro ⟨a₁, ha, hne, -⟩
      obtain rfl := Option.some.inj (ha₀.symm.trans ha)
      exact hne hz
    show c'.machine.usage x = []
    rw [huses id batch rfl x hidle, Machine.usage_of_account ha₀]
    exact hi x a₀ ha₀ hz

/-! ## The order of the cache -/

omit [Kernel κ] in
/-- Only a buffer that is put away is cached. -/
theorem Machine.Books.loose {m : Machine κ} {ready : List Callback} {held : Option Nat} {x : Nat} {a : Account}
    (hb : m.Books ready held) (hx : m.storage.accounts[x]? = some a) (hne : a.refs ≠ 0 ∨ m.waiting ready x ≠ 0) :
    m.allocator.classOf x = none := by
  rw [Machine.classOf_of_account hx]
  by_contra hc
  obtain ⟨hrefs, hwaiting⟩ := hb.settled x a hx (.inr (.inl hc))
  exact hne.elim (· hrefs) (· hwaiting)

/-- A step keeps the order of the cache up to the second in which it starts, if what is quiet leaves the cards
alone. -/
theorem Step.ages (h : Step c act c') (hb : c.Books)
    (hcards : act = .other → c'.held = c.held → Quiet c.machine c'.machine → SameCards c.machine c'.machine) :
    Ages c.machine.seconds c.machine c'.machine := by
  cases h with
  | quiet h => exact .of_cards (hcards rfl rfl h)
  | reference he => exact .of_cards ((cards_reference _).ok he)
  | revive _ _ _ he => exact .of_cards ((cards_revive _).ok he)
  | unreference ha _ he =>
    obtain ⟨a', ha', hneg, -⟩ := unreference_ok he
    exact ages_unreference (hb.loose ha' (.inl (Int32.ne_zero_of_pred hneg))) he
  | release ha hrefs he =>
    exact ages_unreference (hb.loose ha (.inl (by rw [hrefs]; decide))) he
  | enter _ _ _ _ hcached _ _ _ he => exact .of_cards ((cards_addBuffer hcached).ok he)
  | abandon _ he => exact (keeps_freeHandle _).ok he
  | reuse he => exact (ages_reuse _ _ _).ok he
  | wrap he => exact .of_cards ((cards_wrapRegion _ _ _ _).ok he)
  | handOut he => exact .of_cards ((cards_handOut _).ok he)
  | evictStale he => exact (keeps_evictOld (ages_evict _)).ok he
  | evictAll he => exact (keeps_evictBuckets (ages_evict _) _).ok he
  | await he => exact (keeps_callbackAll _).ok he
  | attach he => exact (keeps_attachStream _).ok he
  | submit _ he => exact (keeps_submitSlot _ _).ok he
  | advance he => exact (keeps_advanceSlot _ _).ok he
  | update he => exact (keeps_takeCallbacks _ _).ok he
  | terminate _ he => exact (keeps_clearSlot _).ok he
  | @fire m m' i l ready he =>
    obtain ⟨n, callback⟩ := l
    cases callback with
    | report id => exact (keeps_report (R := Ages _) _).ok he
    | release x =>
      obtain ⟨a, _, ha, -⟩ := queueDrained_ok he
      exact ages_queueDrained (hb.loose ha (.inr (Config.waiting_ready rfl))) he
  | collect _ _ he => exact .of_cards ((keeps_collect cards_useBuffer _ _).ok he)

/-! ## Atoms -/

omit [Kernel κ] in
/-- Dropping uses leaves what handles own alone.  By induction on the handles. -/
theorem HandleTable.owns_release_iff {t t' : HandleTable} {hs : List Int} (h : t.release hs = .ok t') {k : Nat}
    {fd : Int} : t'.Owns k fd ↔ t.Owns k fd := by
  induction hs generalizing t with
  | nil =>
    cases h
    rfl
  | cons i hs ih =>
    rw [release] at h
    split at h
    · exact ih h
    · rename_i j hj
      split at h
      · exact ih h
      · rename_i e he
        split at h
        · cases h
        · rw [ih h]
          refine owns_map_iff (f := fun k x => if j = k then { x with useCount := x.useCount - 1 } else x)
            (fun k => ?_) fun k x => ?_
          · rw [List.getElem?_set]
            split
            · subst_vars
              rw [if_pos (List.getElem?_eq_some_iff.mp he).1, he]
              rfl
            · exact Option.map_id'.symm
          · split <;> rfl

section OfAllocator

variable {R : Machine κ → Machine κ → Prop} [OfAllocator R]

omit [Kernel κ] in
theorem keeps_retireAtom (atom : UInt8) : Keeps R (Device.retireAtom atom) := by
  unfold Device.retireAtom
  refine keeps_bind keeps_device fun d => ?_
  split
  · exact keeps_violate _
  · exact keeps_modifyDevice _

omit [Kernel κ] in
theorem keeps_recordAtom (number : UInt8) (slot : JobSlot) (handles : List Int) (d : Device) : Keeps R (do
    modifyDevice fun d => { d with inFlight := d.inFlight ++ [(number, handles)] }
    match d.handles.markUsed handles slot number with
    | .error c => violate (.root c)
    | .ok m =>
      Device.setHandles m.table
      return m) := by
  refine keeps_bind (keeps_modifyDevice _) fun _ => ?_
  split
  · exact keeps_violate _
  · exact keeps_bind (keeps_modifyDevice _) fun _ => keeps_pure _

omit [Kernel κ] in
theorem keeps_markAtom (number : UInt8) (slot : JobSlot) (handles : List Int) :
    Keeps R (Device.markAtom number slot handles) := by
  unfold Device.markAtom
  refine keeps_bind keeps_device fun d => ?_
  dsimp only
  split
  · exact keeps_bind (keeps_violate _) fun _ => keeps_recordAtom number slot handles d
  · exact keeps_recordAtom number slot handles d

end OfAllocator

section Slotwise

variable {R : Machine κ → Machine κ → Prop} [Slotwise R]
  (hretire : ∀ atom, Keeps R (Device.retireAtom atom))
include hretire

theorem keeps_submitJob [Tolerant R] {handles : List Int}
    (hmark : ∀ number slot, Keeps R (Device.markAtom number slot handles)) (va : UInt64) (requirements : UInt32)
    (o : Option Nat) : Keeps R (Device.submitJob va requirements o handles) := by
  have hnext : Keeps R Device.nextAtom :=
    keeps_bind keeps_device fun _ => keeps_bind (keeps_editSlots fun _ => rfl) fun _ => keeps_pure _
  have hfence (slot : UInt32) (value : UInt64) : Keeps R (Device.fenceSyncobj o slot value) := by
    cases o with
    | none => exact keeps_pure ()
    | some id => exact keeps_editSlots fun _ => rfl
  unfold Device.submitJob
  refine keeps_bind (keeps_debug _ _) fun _ => keeps_bind hnext fun n => keeps_bind (hmark _ _) fun m =>
    keeps_bind (keeps_submitSlot _ _) fun _ => keeps_bind (hfence _ _) fun _ =>
    keeps_bind (keeps_trace _ _) fun _ => keeps_bind (keeps_attempt (keeps_submitAtom _)) fun r => ?_
  cases r with
  | ok _ => exact keeps_pure _
  | error f => exact keeps_bind (hretire _) fun _ => keeps_fail f

/-- An event runs no callback if none waits. -/
theorem handleJobEvent_keeps {m m' : Machine κ} {e : JobEvent} {fine : Bool} (hm : m.NoLinks)
    (he : (Device.handleJobEvent e).exec m = (.ok fine, m')) : R m m' := by
  have hrest {m₁ : Machine κ} {r : Bool} (h₁ : Beside m m₁) (hr : R m m₁) (he : (do
      Device.retireAtom e.atom
      Device.advance e.atom.toNat (e.seqnum + 1)
      return r : Op κ Bool).exec m₁ = (.ok fine, m')) : R m m' := by
    obtain ⟨_, m₂, hfirst, he⟩ := bind_ok he
    obtain ⟨t, ht⟩ := retireAtom_ok hfirst
    obtain ⟨m₂', hfirst', hprogress, -⟩ := exec_retireAtom ht
    rw [hfirst] at hfirst'
    cases hfirst'
    have hlinks : m₂.NoLinks := by
      rw [Machine.NoLinks, hprogress]
      exact (h₁ hm).1
    obtain ⟨_, m₃, hadvance, he⟩ := bind_ok he
    obtain ⟨m₃', hslot, -⟩ := exec_advanceSlot hlinks e.atom.toNat_lt (e.seqnum + 1)
    rw [Device.advance, exec_bind_of_ok hslot] at hadvance
    cases hadvance
    cases he
    exact Journey.trans (Journey.trans hr ((hretire _).ok hfirst)) ((keeps_advanceSlot _ _).ok hslot)
  unfold Device.handleJobEvent at he
  dsimp only at he
  split at he
  · obtain ⟨_, m₁, herror, he⟩ := bind_ok he
    exact hrest ((keeps_error _ _).ok herror) ((keeps_error _ _).ok herror) he
  · exact hrest (.refl m) (Journey.refl m) he

end Slotwise

/-! ## Steps on a device of any kind -/

/-- One step of a call on a device of any kind. -/
inductive ShelfStep : Config κ → Action → Config κ → Prop
  /-- On a command stream device any step can be made. -/
  | stream {c c' : Config κ} {act : Action} (hcsf : c.progress.generation = .csf) (h : Step c act c') :
    ShelfStep c act c'
  /-- On a job manager device those about buffers can be made. -/
  | job {c c' : Config κ} {act : Action} (hjob : c.progress.generation ≠ .csf) (hact : act.Plain)
    (h : Step c act c') : ShelfStep c act c'
  /-- An atom takes off, or is refused. -/
  | submit {m m' : Machine κ} {held : Option Nat} {va : UInt64} {requirements : UInt32} {o : Option Nat}
    {handles : List Int} {r : Except Halt UInt8} (hjob : m.progress.generation ≠ .csf)
    (he : (Device.submitJob va requirements o handles).exec m = (r, m')) (hr : Survives r) :
    ShelfStep ⟨m, [], held⟩ .other ⟨m', [], held⟩
  /-- An atom lands. -/
  | event {m m' : Machine κ} {held : Option Nat} {e : JobEvent} {fine : Bool}
    (hjob : m.progress.generation ≠ .csf) (he : (Device.handleJobEvent e).exec m = (.ok fine, m')) :
    ShelfStep ⟨m, [], held⟩ .other ⟨m', [], held⟩

/-- A step about buffers can be made on any device. -/
theorem ShelfStep.of_plain (h : Step c act c') (hact : act.Plain) : ShelfStep c act c' := by
  by_cases hcsf : c.progress.generation = .csf
  · exact .stream hcsf h
  · exact .job hcsf hact h

/-- What is asked of a step beside what it does. -/
structure Orderly (c : Config κ) (act : Action) (c' : Config κ) : Prop where
  /-- The clock does not go back. -/
  clock : Kernel.now c.machine.kernel ≤ Kernel.now c'.machine.kernel
  /-- What leaves every account alone leaves the cards alone. -/
  cards : act = .other → c'.held = c.held → Quiet c.machine c'.machine → SameCards c.machine c'.machine
  /-- It also keeps the rules of the table of handles, as atoms do that mark live entries only. -/
  rules : act = .other → c'.machine.storage = c.machine.storage → Lawful c.machine c'.machine
  /-- A batch records uses only on buffers that are in use. -/
  uses : ∀ id k, act = .collect id k → ∀ x, ¬c.InUse x → c'.machine.usage x = c.machine.usage x

/-- The books are in order, and the slots are sound, or nothing waits on them. -/
structure Config.Booked (c : Config κ) : Prop where
  device : c.progress.generation = .csf ∧ c.progress.Sound ∨ c.machine.Calm
  books : c.Books

/-- So are the cache and the table of handles. -/
structure Config.InOrder (c : Config κ) : Prop extends c.Booked where
  aged : c.machine.allocator.Aged c.machine.seconds
  idle : c.machine.Idle
  rules : c.machine.device.handles.check = none

omit [Kernel κ] in
theorem Machine.NoLinks.waiting {m : Machine κ} (h : m.NoLinks) (c : Callback) :
    m.progress.slots.waiting c = 0 := by
  refine SlotTable.waiting_eq_zero.mpr fun i l hl => ?_
  rw [h i] at hl
  exact absurd hl List.not_mem_nil

/-- Nothing waits on the slots of a job manager device, so a step about buffers leaves them alone. -/
theorem Step.calm (h : Step c act c') (hact : act.Plain) (hm : c.machine.Calm) : c'.machine.Calm := by
  refine hm.of_progress ?_
  have hmove : c'.progress = Action.move c.progress act :=
    h.progress fun e => absurd hact (by simp [e, Action.Plain])
  refine hmove.trans ?_
  rcases hact with rfl | ⟨x, rfl⟩
  · rfl
  · have hbound : c.progress.bound = 0 := hm.bound
    show { c.progress with slots := c.progress.slots.awaitAll c.progress.bound (.release x) } = c.progress
    rw [hbound, SlotTable.awaitAll_zero]

/-- A job manager device stays calm. -/
theorem ShelfStep.calm (h : ShelfStep c act c') (hm : c.machine.Calm) : c'.machine.Calm := by
  cases h with
  | stream hcsf => exact absurd hcsf hm.generation
  | job _ hact h => exact h.calm hact hm
  | submit _ he hr =>
    obtain ⟨_, -, -, hlinks, ⟨-, hstate, -⟩ | ⟨_, _, -, -, hstate⟩⟩ := submitJob_cases hm.links he hr
    · exact hm.of_jobState hlinks (by rw [hstate]; rfl) (by rw [hstate]; rfl)
    · exact hm.of_jobState hlinks (by rw [hstate]; rfl) (by rw [hstate]; rfl)
  | event _ he =>
    obtain ⟨_, -, hlinks, hstate⟩ := handleJobEvent_ok hm.links he
    exact hm.of_jobState hlinks (by rw [hstate]; rfl) (by rw [hstate]; rfl)

/-- So a device is a command stream device, or it stays calm. -/
theorem ShelfStep.csf_or_calm (h : ShelfStep c act c') (hc : c.progress.generation = .csf ∨ c.machine.Calm) :
    c'.progress.generation = .csf ∨ c'.machine.Calm := by
  rcases hc with hcsf | hm
  · cases h with
    | stream _ hs => exact .inl (hs.generation.trans hcsf)
    | job hjob => exact absurd hcsf hjob
    | submit hjob => exact absurd hcsf hjob
    | event hjob => exact absurd hcsf hjob
  · exact .inr (h.calm hm)

/-- A step keeps what freeing handles, giving out handles without a descriptor and counting their uses keep. -/
theorem ShelfStep.keeps {R : Machine κ → Machine κ → Prop} [OfFiles R] [Tolerant R]
    (hfree : ∀ handle, Keeps R (Device.freeHandle handle))
    (halloc : ∀ va, Keeps R (Device.allocHandle va noFd)) (hretire : ∀ atom, Keeps R (Device.retireAtom atom))
    (hmark : ∀ number slot handles, Keeps R (Device.markAtom number slot handles)) (h : ShelfStep c act c')
    (hc : c.progress.generation = .csf ∨ c.machine.Calm)
    (hquiet : act = .other → c'.held = c.held → Quiet c.machine c'.machine → R c.machine c'.machine) :
    R c.machine c'.machine := by
  cases h with
  | stream _ h => exact h.keeps hfree halloc hquiet
  | job _ _ h => exact h.keeps hfree halloc hquiet
  | @submit m m' held va requirements o handles r _ he hr =>
    have hkeeps := keeps_submitJob hretire (fun number slot => hmark number slot handles) va requirements o
    exact (hkeeps m).survives he hr
  | event hjob he => exact handleJobEvent_keeps hretire (hc.resolve_left hjob).links he

/-- The seconds go on with the clock. -/
theorem Ages.seconds_le {time : Int} {m m' : Machine κ} (h : Ages time m m')
    (hclock : Kernel.now m.kernel ≤ Kernel.now m'.kernel) : m.seconds ≤ m'.seconds := by
  unfold Machine.seconds
  rw [h.epoch]
  exact Int.ediv_le_ediv (by decide) (Int.ofNat_le.mpr (Nat.sub_le_sub_right hclock _))

omit [Kernel κ] in
/-- What atoms do to the books: nothing. -/
theorem Config.Booked.of_atoms {m m' : Machine κ} {held : Option Nat} (h : (⟨m, [], held⟩ : Config κ).Booked)
    (hm : m.Calm) (hm' : m'.Calm) (hstorage : m'.storage = m.storage) (howns : ∀ k fd, m.Owns k fd → m'.Owns k fd) :
    (⟨m', [], held⟩ : Config κ).Booked where
  device := .inr hm'
  books := by
    have hwaiting : m'.waiting [] = m.waiting [] := by
      funext x
      rw [Machine.waiting, Machine.waiting, hm.links.waiting, hm'.links.waiting]
    show m'.storage.Books (m'.waiting []) m'.Owns held
    rw [hstorage, hwaiting]
    exact h.books.mono howns

/-- Nor to the order otherwise. -/
theorem Config.InOrder.of_atoms {m m' : Machine κ} {held : Option Nat}
    (h : (⟨m, [], held⟩ : Config κ).InOrder) (hbooked : (⟨m', [], held⟩ : Config κ).Booked)
    (hclock : Kernel.now m.kernel ≤ Kernel.now m'.kernel) (hages : Ages m.seconds m m')
    (hstorage : m'.storage = m.storage) (hrules : Lawful m m') : (⟨m', [], held⟩ : Config κ).InOrder where
  toBooked := hbooked
  aged := (hages.aged h.aged).mono (hages.seconds_le hclock)
  idle := h.idle.of_storage hstorage
  rules := hrules h.rules

/-- An atom that takes off, or is refused, leaves the storage alone, and what handles own. -/
theorem submitJob_still {m m' : Machine κ} {va : UInt64} {requirements : UInt32} {o : Option Nat}
    {handles : List Int} {r : Except Halt UInt8} (hm : m.Calm)
    (he : (Device.submitJob va requirements o handles).exec m = (r, m')) (hr : Survives r) :
    m'.storage = m.storage ∧ ∀ k fd, m.Owns k fd → m'.Owns k fd := by
  obtain ⟨marked, -, hmarked, -, hcase⟩ := submitJob_cases hm.links he hr
  have hmark {k : Nat} {fd : Int} (hown : m.Owns k fd) : marked.table.Owns k fd :=
    (HandleTable.owns_map_iff (HandleTable.markAll_ok hmarked).2.1 fun k e => e.mark_fd _ _ _).mpr hown
  have hend {t : HandleTable} {fs : List (UInt8 × List Int)} (hstate : m'.jobState = m.jobState.submit t fs)
      (ht : ∀ k fd, marked.table.Owns k fd → t.Owns k fd) :
      m'.storage = m.storage ∧ ∀ k fd, m.Owns k fd → m'.Owns k fd := by
    have htable : m'.device.handles = t := congrArg JobState.table hstate
    refine ⟨congrArg JobState.storage hstate, fun k fd hown => ?_⟩
    rw [Machine.Owns, htable]
    exact ht k fd (hmark hown)
  rcases hcase with ⟨-, hstate, -⟩ | ⟨f, t, -, ht, hstate⟩
  · exact hend hstate fun _ _ hown => hown
  · exact hend hstate fun _ _ hown => (HandleTable.owns_release_iff ht).mpr hown

/-- So does an atom that lands. -/
theorem handleJobEvent_still {m m' : Machine κ} {e : JobEvent} {fine : Bool} (hm : m.Calm)
    (he : (Device.handleJobEvent e).exec m = (.ok fine, m')) :
    m'.storage = m.storage ∧ ∀ k fd, m.Owns k fd → m'.Owns k fd := by
  obtain ⟨t, ht, -, hstate⟩ := handleJobEvent_ok hm.links he
  have htable : m'.device.handles = t := congrArg JobState.table hstate
  refine ⟨congrArg JobState.storage hstate, fun k fd hown => ?_⟩
  rw [Machine.Owns, htable]
  exact (HandleTable.owns_release_iff ht).mpr hown

/-- A step leaves the books in order if no count overflows. -/
theorem ShelfStep.booked (h : ShelfStep c act c') (hmax : c'.progress.streams.length ≤ slotCount)
    (hcount : ∀ x, c.waiting x < 2 ^ 32) (hrefs : ∀ x a, c'.account? x = some a → a.refs ≠ Int32.minValue)
    (hc : c.Booked) : c'.Booked := by
  have hcalm := h.calm
  cases h with
  | stream hcsf h =>
    have hs : c.progress.Sound := by
      rcases hc.device with ⟨-, hs⟩ | hm
      · exact hs
      · exact absurd hcsf hm.generation
    exact ⟨.inl ⟨h.generation.trans hcsf, h.sound hs hmax⟩, h.books hs hmax hcount hrefs hc.books⟩
  | job hjob hact h =>
    have hm : c.machine.Calm := hc.device.resolve_left fun hd => hjob hd.1
    exact ⟨.inr (hcalm hm), h.books_of_plain hact (fun _ x => hm.links.waiting x) hrefs hc.books⟩
  | @submit m m' held va requirements o handles r hjob he hr =>
    have hm : m.Calm := hc.device.resolve_left fun hd => hjob hd.1
    obtain ⟨hstorage, howns⟩ := submitJob_still hm he hr
    exact hc.of_atoms hm (hcalm hm) hstorage howns
  | @event m m' held e fine hjob he =>
    have hm : m.Calm := hc.device.resolve_left fun hd => hjob hd.1
    obtain ⟨hstorage, howns⟩ := handleJobEvent_still hm he
    exact hc.of_atoms hm (hcalm hm) hstorage howns

/-- A step leaves everything in order if no count overflows. -/
theorem ShelfStep.inOrder (h : ShelfStep c act c') (ho : Orderly c act c')
    (hmax : c'.progress.streams.length ≤ slotCount) (hcount : ∀ x, c.waiting x < 2 ^ 32)
    (hrefs : ∀ x a, c'.account? x = some a → a.refs ≠ Int32.minValue) (hc : c.InOrder) : c'.InOrder := by
  have hbooked := h.booked hmax hcount hrefs hc.toBooked
  cases h with
  | stream hcsf h =>
    have hs : c.progress.Sound := by
      rcases hc.device with ⟨-, hs⟩ | hm
      · exact hs
      · exact absurd hcsf hm.generation
    have hages := h.ages hc.books ho.cards
    refine ⟨hbooked, ?_, ?_, ?_⟩
    · exact (hages.aged hc.aged).mono (hages.seconds_le ho.clock)
    · exact h.idle (h.bound_lt hs hmax) hc.books ho.uses hc.idle
    · exact h.lawful (fun hact _ hq => ho.rules hact hq.storage) hc.rules
  | job hjob hact h =>
    have hages := h.ages hc.books ho.cards
    refine ⟨hbooked, ?_, ?_, ?_⟩
    · exact (hages.aged hc.aged).mono (hages.seconds_le ho.clock)
    · exact h.idle (fun e => absurd hact (by simp [e, Action.Plain])) hc.books ho.uses hc.idle
    · exact h.lawful (fun hact _ hq => ho.rules hact hq.storage) hc.rules
  | @submit m m' held va requirements o handles r hjob he hr =>
    have hm : m.Calm := hc.device.resolve_left fun hd => hjob hd.1
    have hkeeps : Keeps (Ages m.seconds) (Device.submitJob (κ := κ) va requirements o handles) :=
      keeps_submitJob keeps_retireAtom (fun number slot => keeps_markAtom number slot handles) va requirements o
    have hstorage := (submitJob_still hm he hr).1
    exact hc.of_atoms hbooked ho.clock ((hkeeps m).survives he hr) hstorage (ho.rules rfl hstorage)
  | @event m m' held e fine hjob he =>
    have hm : m.Calm := hc.device.resolve_left fun hd => hjob hd.1
    have hstorage := (handleJobEvent_still hm he).1
    exact hc.of_atoms hbooked ho.clock (handleJobEvent_keeps (R := Ages m.seconds) keeps_retireAtom hm.links he)
      hstorage (ho.rules rfl hstorage)

/-! ## Runs -/

/-- Steps one after the other, each as is asked of it. -/
inductive ShelfRun : Config κ → List (Config κ × Action) → Config κ → Prop
  | nil (c : Config κ) : ShelfRun c [] c
  | cons {c c₁ c' : Config κ} {a : Action} {es : List (Config κ × Action)} (hs : ShelfStep c a c₁)
    (ho : Orderly c a c₁) (hr : ShelfRun c₁ es c') : ShelfRun c ((c, a) :: es) c'

theorem ShelfRun.head_mem {es : List (Config κ × Action)} (h : ShelfRun c es c') : c ∈ es.map (·.1) ++ [c'] := by
  cases h with
  | nil => exact List.mem_singleton_self _
  | cons => exact List.mem_cons_self

/-- On a command stream device these are the runs of steps.  By induction on the run. -/
theorem ShelfRun.run {es : List (Config κ × Action)} (h : ShelfRun c es c')
    (hcsf : c.progress.generation = .csf) : Run c es c' := by
  induction h with
  | nil c => exact .nil c
  | cons hs _ _ ih =>
    cases hs with
    | stream _ hs => exact .cons hs (ih (hs.generation.trans hcsf))
    | job hjob => exact absurd hcsf hjob
    | submit hjob => exact absurd hcsf hjob
    | event hjob => exact absurd hcsf hjob

omit [Kernel κ] in
theorem Vacant.csf_or_calm {m : Machine κ} (h : Vacant m) : m.progress.generation = .csf ∨ m.Calm := by
  refine or_iff_not_imp_left.mpr fun hjob => ⟨hjob, h.bound, fun i => ?_⟩
  rw [h.slots, SlotTable.entry_replicate]

/-- Everything is in order at the start. -/
theorem Vacant.inOrder {m : Machine κ} (h : Vacant m) (hrules : m.device.handles.check = none) :
    (⟨m, [], none⟩ : Config κ).InOrder where
  rules := hrules
  device := h.csf_or_calm.imp_left fun hcsf => ⟨hcsf, h.sound⟩
  books := h.books
  aged := by
    have hcache : m.allocator.cache = .empty m.allocator.options.bucketCount := h.cache
    have hbuffers : m.allocator.buffers = [] := List.map_eq_nil_iff.mp h.accounts
    have hrecency : m.allocator.cache.recency = [] := by
      rw [hcache]
      rfl
    have hnone (x : Nat) : m.allocator.card? x = none := by
      rw [Allocator.card?, hbuffers, List.getElem?_nil]
      rfl
    constructor
    case room =>
      intro size
      rw [hcache, BufferCache.empty, List.length_replicate]
      exact AllocatorOptions.bucketIndex_lt h.range size
    case listed =>
      intro x
      rw [hrecency, Allocator.classOf, hnone]
      simp
    case bucket =>
      intro i
      rw [hrecency, hcache, BufferCache.bucket, BufferCache.empty, List.getD_eq_getElem?_getD,
        List.getElem?_replicate]
      split
      · rfl
      · rfl
    case sized =>
      intro x size second i hx
      rw [hnone] at hx
      cases hx
    all_goals simp [hrecency]
  idle x a hx := by
    rw [h.accounts] at hx
    cases hx

/-- By induction on the run. -/
theorem ShelfRun.inOrder {es : List (Config κ × Action)} (h : ShelfRun c es c')
    (hmax : ∀ d ∈ es.map (·.1) ++ [c'], d.progress.streams.length ≤ slotCount)
    (hbounded : ∀ d ∈ es.map (·.1) ++ [c'], d.Bounded) (hc : c.InOrder) : c'.InOrder := by
  induction h with
  | nil => exact hc
  | @cons c c₁ c' a es hs ho hr ih =>
    have hhead := hr.head_mem
    refine ih (fun d hd => hmax d (List.mem_cons_of_mem _ hd))
      (fun d hd => hbounded d (List.mem_cons_of_mem _ hd)) ?_
    exact hs.inOrder ho (hmax c₁ (List.mem_cons_of_mem _ hhead))
      (fun x => Nat.lt_trans ((hbounded c List.mem_cons_self).waiting x) (by decide))
      (hbounded c₁ (List.mem_cons_of_mem _ hhead)).refs hc

end Kernel

end Mali
