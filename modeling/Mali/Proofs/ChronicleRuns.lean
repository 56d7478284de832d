import Mali.Proofs.Chronicles

/-!
# The journal along a run

A run writes to the journal as it goes.  The lines that it wrote so far tell the life of every buffer that was not
imported, and the stage that a buffer has come to can be read off its account, the callbacks to come for it, and
whether it is held.  This needs no bound on the streams or on any count: a release waits for the busy slots, which are
few, and only a buffer that was handed out is released.  A buffer that was imported can be revived in the middle of a
release, so its lines are told no such story.

* `Cedes`: an operation lets handles go only together with what the arena leads to.
* `Config.Chronicled`: lines tell the life of every buffer that was not imported.
* `Config.Chronicled.move`: lines are written about one buffer, and its account changes along with them.
* `Config.Chronicled.finish`, `Config.Chronicled.unreference` and the like: what the operations tell.
* `Step.chronicled`, `ShelfStep.chronicled`: what a step tells.
* `JournalRun.tells_lives`: what a run tells.
-/

namespace Mali

open Op

variable {κ : Type}

/-! ## Chronicles -/

/-- Handles go only together with what the arena leads to. -/
def Cedes (m m' : Machine κ) : Prop :=
  ∀ k x, m'.allocator.lookup? k = some x →
    m.allocator.lookup? k = some x ∧ ∀ fd, m.Owns k fd → m'.Owns k fd

theorem Cedes.of_arena {m m' : Machine κ} (harena : m'.storage.arena = m.storage.arena)
    (howns : ∀ k fd, m.Owns k fd → m'.Owns k fd) : Cedes m m' := by
  intro k x hx
  refine ⟨?_, howns k⟩
  have hx : m'.storage.arena.lookup k = some x := hx
  rwa [harena] at hx

/-- The arena leads to buffers, and only a handle without a descriptor leads to one that was not imported. -/
def Machine.Titled (m : Machine κ) : Prop :=
  ∀ k x, m.allocator.lookup? k = some x →
    ∃ a, m.storage.accounts[x]? = some a ∧ (a.shared = false → m.Owns k noFd)

/-- Lines tell the life of every buffer that was not imported, and the journal is made of their events. -/
structure Config.Chronicled (c : Config κ) (ls : List Line) : Prop where
  events : c.machine.allocator.options.events = .journal
  journal : c.machine.allocator.journal = ls.map (·.event)
  described : ∀ l ∈ ls, l.Describes c.machine.allocator
  titled : c.machine.Titled
  lives : ∀ (x : Nat) (a : Account), c.account? x = some a → a.shared = false →
    ∃ q, Stage.Told (Line.names x ls) q ∧ q.Suits a (c.waiting x) (c.held = some x)
  unborn : ∀ x, c.account? x = none → c.waiting x = 0

/-- The lines already say something of a buffer, if it was not imported. -/
def Config.Known (c : Config κ) (x : Nat) (ls : List Line) : Prop :=
  ∀ a, c.account? x = some a → a.shared = false → Line.names x ls ≠ []

namespace Writes

variable {ls : List Line} {m m' : Machine κ}

/-- An account that was there is there, and whether it was imported stays the same. -/
theorem account (h : Writes ls m m') {x : Nat} {a : Account} (hx : m.storage.accounts[x]? = some a) :
    ∃ a', m'.storage.accounts[x]? = some a' ∧ a'.shared = a.shared := by
  obtain ⟨b, hb, rfl⟩ := Machine.exists_buffer hx
  obtain ⟨b', hb', hsketch⟩ := h.buffer hb
  simp only [Buffer.sketch, Prod.mk.injEq] at hsketch
  exact ⟨b'.account, Machine.accounts_of_buffer hb', hsketch.2.2.2⟩

theorem titled (h : Writes ls m m') (hc : Cedes m m') (hm : m.Titled) : m'.Titled := by
  intro k x hx
  obtain ⟨hx, howns⟩ := hc k x hx
  obtain ⟨a, ha, hown⟩ := hm k x hx
  obtain ⟨a', ha', hshared⟩ := h.account ha
  exact ⟨a', ha', fun hs => howns _ (hown (hshared ▸ hs))⟩

end Writes

namespace Stage

variable {q : Stage} {a : Account} {waiting : Nat} {held : Prop}

theorem Told.eq_nil {names : List String} (h : Told names .new) : names = [] := by
  generalize hq : Stage.new = q at h
  cases h <;> first | rfl | cases hq

theorem Suits.eq_used (h : q.Suits a waiting held) (hrefs : a.refs ≠ 0) : q = .used := by
  by_contra hq
  exact hrefs (h.refs hq)

theorem Suits.waiting_eq_zero (h : q.Suits a waiting held) (hq : q ≠ .released) : waiting = 0 := by
  by_contra hw
  exact hq (h.waits.mp (Nat.pos_of_ne_zero hw))

/-- What is held is spare if it was handed out before. -/
theorem Suits.eq_spare {names : List String} (h : q.Suits a waiting held) (hheld : held) (ht : Told names q)
    (hne : names ≠ []) : q = .spare := by
  rcases h.held hheld with rfl | rfl
  · exact absurd ht.eq_nil hne
  · rfl

end Stage

namespace Config.Chronicled

variable {c c' : Config κ} {ls new : List Line}

/-- Lines are written that tell of what happens to the buffers. -/
theorem writes (h : c.Chronicled ls) (hw : Writes new c.machine c'.machine) (hcedes : Cedes c.machine c'.machine)
    (hlives : ∀ (x : Nat) (a : Account), c'.account? x = some a → a.shared = false →
      ∃ q, Stage.Told (Line.names x (new ++ ls)) q ∧ q.Suits a (c'.waiting x) (c'.held = some x))
    (hunborn : ∀ x, c'.account? x = none → c'.waiting x = 0) : c'.Chronicled (new ++ ls) where
  events := by rw [hw.options, h.events]
  journal := by rw [hw.journal, h.journal, List.map_append]
  described l hl := by
    rcases List.mem_append.mp hl with hl | hl
    · exact hw.described l hl
    · exact hw.describes (h.described l hl)
  titled := hw.titled hcedes h.titled
  lives := hlives
  unborn := hunborn

/-- Lines are written about one buffer, and its account changes along with them. -/
theorem move {x : Nat} {a : Account} {f : Account → Account} (h : c.Chronicled ls) (hx : c.account? x = some a)
    (hw : Writes new c.machine c'.machine)
    (haccounts : c'.machine.storage.accounts = c.machine.storage.accounts.modify x f)
    (hcedes : Cedes c.machine c'.machine) (hnew : ∀ l ∈ new, l.buffer = some x)
    (hwaiting : ∀ y, y ≠ x → c'.waiting y = c.waiting y)
    (hheld : ∀ y, y ≠ x → (c'.held = some y ↔ c.held = some y)) (hshared : (f a).shared = a.shared)
    (hlife : a.shared = false → ∀ q, Stage.Told (Line.names x ls) q → q.Suits a (c.waiting x) (c.held = some x) →
      ∃ q', Stage.Told (Line.names x ls ++ Line.names x new) q' ∧
        q'.Suits (f a) (c'.waiting x) (c'.held = some x)) :
    c'.Chronicled (new ++ ls) := by
  have hget (y : Nat) : c'.account? y = if x = y then some (f a) else c.account? y := by
    show c'.machine.storage.accounts[y]? = _
    rw [haccounts, getElem?_modify_of_some hx]
    rfl
  refine h.writes hw hcedes ?lives ?unborn
  case lives =>
    intro y b hy hs
    rw [hget] at hy
    rw [Line.names_append]
    split at hy
    · subst_vars
      cases hy
      obtain ⟨q, ht, hq⟩ := h.lives y a hx (hshared ▸ hs)
      exact hlife (hshared ▸ hs) q ht hq
    · rename_i hne
      have hnone : Line.names y new = [] :=
        Line.names_eq_nil fun l hl e => hne (Option.some.inj ((hnew l hl).symm.trans e))
      rw [hnone, List.append_nil, hwaiting y (Ne.symm hne), propext (hheld y (Ne.symm hne))]
      exact h.lives y b hy hs
  case unborn =>
    intro y hy
    rw [hget] at hy
    split at hy
    · cases hy
    · rename_i hne
      rw [hwaiting y (Ne.symm hne)]
      exact h.unborn y hy

/-- Nothing happens to any buffer, and lines are written about imports at most. -/
theorem still (h : c.Chronicled ls) (hw : Writes new c.machine c'.machine) (hnew : ∀ l ∈ new, l.buffer = none)
    (hshape : ∀ x, (c'.account? x).map (fun a => { a with usage := [] }) =
      (c.account? x).map (fun a => { a with usage := [] }))
    (hcedes : Cedes c.machine c'.machine) (hwaiting : ∀ x, c'.waiting x = c.waiting x) (hheld : c'.held = c.held) :
    c'.Chronicled (new ++ ls) := by
  refine h.writes hw hcedes ?lives ?unborn
  case lives =>
    intro x a' hx hs
    have hone := hshape x
    rw [hx, Option.map_some] at hone
    obtain ⟨a, ha, haa⟩ := Option.map_eq_some_iff.mp hone.symm
    simp only [Account.mk.injEq] at haa
    obtain ⟨-, hshared, hrefs, hgpu, -, hcached, hfreed⟩ := haa
    obtain ⟨q, ht, hq⟩ := h.lives x a ha (hshared.trans hs)
    have hnone : Line.names x new = [] := Line.names_eq_nil fun l hl e => by
      rw [hnew l hl] at e
      cases e
    refine ⟨q, by rwa [Line.names_append, hnone, List.append_nil], ?_⟩
    rw [hwaiting, hheld]
    exact ⟨fun hne => hrefs ▸ hq.refs hne, hgpu ▸ hq.gpuRefs, hq.waits, hq.few, hcached ▸ hq.cached,
      hfreed ▸ hq.freed, hq.made, hq.held⟩
  case unborn =>
    intro x hx
    have hone := hshape x
    rw [hx, Option.map_none] at hone
    rw [hwaiting]
    exact h.unborn x (Option.map_eq_none_iff.mp hone.symm)

/-- Nothing happens that has to do with buffers. -/
theorem of_storage (h : c.Chronicled ls) (hw : Writes new c.machine c'.machine) (hnew : ∀ l ∈ new, l.buffer = none)
    (hstorage : c'.machine.storage = c.machine.storage)
    (howns : ∀ k fd, c.machine.Owns k fd → c'.machine.Owns k fd) (hwaiting : ∀ x, c'.waiting x = c.waiting x)
    (hheld : c'.held = c.held) : c'.Chronicled (new ++ ls) :=
  h.still hw hnew (fun x => by rw [Config.account?, hstorage, Config.account?])
    (.of_arena (by rw [hstorage]) howns) hwaiting hheld

end Config.Chronicled

/-! ## Buffers that are put away -/

section

variable {m m' : Machine κ} {ready : List (Nat × Link)} {ls : List Line} {x : Nat}

/-- The callbacks to come are those on the slots and those that are ready. -/
theorem Undisturbed.config_waiting {held held' : Option Nat} (h : Undisturbed m m') (y : Nat) :
    (⟨m', ready, held'⟩ : Config κ).waiting y = (⟨m, ready, held⟩ : Config κ).waiting y :=
  congrFun (h.waiting _) y

namespace Config.Chronicled

/-- What is quiet and silent has nothing to do with buffers. -/
theorem quiet {held : Option Nat} (h : (⟨m, ready, held⟩ : Config κ).Chronicled ls) (hq : Quiet m m')
    (hw : Writes [] m m') : (⟨m', ready, held⟩ : Config κ).Chronicled ls :=
  h.of_storage hw (List.forall_mem_nil _) hq.storage hq.owns (hq.toUndisturbed.config_waiting) rfl

/-- What leaves the cache is held, and it is known already. -/
theorem uncache {m₁ : Machine κ} {u : Unit} (h : (⟨m, ready, none⟩ : Config κ).Chronicled ls)
    (he : (Allocator.uncache x).exec m = (.ok u, m₁)) (hquiet : Quiet m₁ m') (hw : Writes [] m m') :
    (⟨m', ready, some x⟩ : Config κ).Chronicled ls ∧ (⟨m', ready, some x⟩ : Config κ).Known x ls := by
  obtain ⟨b, index, hb, hindex, hm₁, howns, hstorage⟩ := uncache_ok he
  have hm := hm₁.trans hquiet.toUndisturbed
  have hx : (⟨m, ready, none⟩ : Config κ).account? x = some b.account := Machine.accounts_of_buffer hb
  have hcached : b.account.cachedIn ≠ none := by
    rw [show b.account.cachedIn = some index from hindex]
    exact Option.some_ne_none _
  constructor
  · show (⟨m', ready, some x⟩ : Config κ).Chronicled ([] ++ ls)
    refine h.move (f := fun a => { a with cachedIn := none }) hx hw (by rw [hquiet.storage, hstorage])
      (.of_arena (by rw [hquiet.storage, hstorage]) fun k fd ho => hquiet.owns k fd (howns k fd ho)) nofun
      (fun y _ => hm.config_waiting y) (fun y hy => by simp [Ne.symm hy]) rfl fun _ q ht hq => ?_
    obtain ⟨rfl, -⟩ := hq.cached.mp hcached
    refine ⟨.spare, by simpa using ht, ?_⟩
    rw [hm.config_waiting]
    exact ⟨hq.refs, hq.gpuRefs, hq.waits, hq.few, by simp, hq.freed, nofun, fun _ => .inr rfl⟩
  · intro a ha hs
    have ha : m'.storage.accounts[x]? = some a := ha
    rw [hquiet.storage, hstorage, getElem?_modify_of_some hx, if_pos rfl] at ha
    cases ha
    obtain ⟨q, ht, hq⟩ := h.lives x _ hx hs
    obtain ⟨rfl, -⟩ := hq.cached.mp hcached
    exact ht.ne_nil nofun

/-- What is made is new if it was not imported, and it is held. -/
theorem opens {held : Option Nat} {a : Account} (h : (⟨m, [], none⟩ : Config κ).Chronicled ls) (ho : Opens a m m')
    (hw : Writes [] m m') (howns : a.shared = false → m'.Owns a.handle noFd)
    (hheld : ∀ y, held = some y → y = m.storage.accounts.length)
    (hnew : a.shared = false → Stage.new.Suits a 0 (held = some m.storage.accounts.length)) :
    (⟨m', [], held⟩ : Config κ).Chronicled ls := by
  have hget (y : Nat) : m'.storage.accounts[y]? = if y = m.storage.accounts.length then some a else
      m.storage.accounts[y]? := by
    rw [ho.storage]
    exact getElem?_concat ..
  have hwaiting (y : Nat) : (⟨m', [], held⟩ : Config κ).waiting y = (⟨m, [], none⟩ : Config κ).waiting y :=
    ho.config_waiting y
  constructor
  case events => rw [show (⟨m', [], held⟩ : Config κ).machine.allocator.options = _ from hw.options, h.events]
  case journal => exact hw.journal.trans h.journal
  case described => exact fun l hl => hw.describes (h.described l hl)
  case titled =>
    intro k y hy
    have hy : m'.storage.arena.lookup k = some y := hy
    rw [ho.storage] at hy
    dsimp only at hy
    rw [List.lookup_append, lookup_filter_ne] at hy
    show ∃ b, m'.storage.accounts[y]? = some b ∧ _
    by_cases hk : k = a.handle
    · subst hk
      rw [if_pos rfl] at hy
      obtain rfl : m.storage.accounts.length = y := by simpa [List.lookup_cons] using hy
      exact ⟨a, by rw [hget, if_pos rfl], howns⟩
    · rw [if_neg hk] at hy
      have hold : m.storage.arena.lookup k = some y := by simpa [List.lookup_cons, beq_false_of_ne hk] using hy
      obtain ⟨b, hb, hown⟩ := h.titled k y hold
      have hlt : y < m.storage.accounts.length := (List.getElem?_eq_some_iff.mp hb).1
      exact ⟨b, by rw [hget, if_neg (Nat.ne_of_lt hlt)]; exact hb, fun hs => ho.owns _ _ (hown hs)⟩
  case lives =>
    intro y b hy hs
    have hy : m'.storage.accounts[y]? = some b := hy
    rw [hget] at hy
    rw [hwaiting]
    split at hy
    · cases hy
      subst_vars
      have hunborn : (⟨m, [], none⟩ : Config κ).account? m.storage.accounts.length = none :=
        List.getElem?_eq_none (Nat.le_refl _)
      have hnames : Line.names m.storage.accounts.length ls = [] := by
        refine Line.names_eq_nil fun l hl e => ?_
        have hdescribed := h.described l hl
        rw [Line.Describes, e] at hdescribed
        obtain ⟨b, hb, -⟩ := hdescribed
        exact Option.some_ne_none _ ((Machine.accounts_of_buffer hb).symm.trans hunborn)
      rw [hnames, h.unborn _ hunborn]
      exact ⟨.new, .new, hnew hs⟩
    · rename_i hne
      have hheld : held = some y ↔ (none : Option Nat) = some y := by
        constructor
        · exact fun e => absurd (hheld y e) hne
        · exact nofun
      rw [propext hheld]
      exact h.lives y b hy hs
  case unborn =>
    intro y hy
    have hy : m'.storage.accounts[y]? = none := hy
    rw [hget] at hy
    rw [hwaiting]
    split at hy
    · cases hy
    · exact h.unborn y hy

/-- Only a buffer that was handed out gains a reference. -/
theorem reference {u : Unit} (h : (⟨m, ready, none⟩ : Config κ).Chronicled ls)
    (he : (Buffer.reference x).exec m = (.ok u, m')) : (⟨m', ready, none⟩ : Config κ).Chronicled ls := by
  obtain ⟨a, hx, hrefs, hedit⟩ := reference_ok he
  show (⟨m', ready, none⟩ : Config κ).Chronicled ([] ++ ls)
  refine h.move (f := fun a => { a with refs := a.refs + 1 }) hx ((silent_reference x).ok he)
    (by rw [hedit.storage]) (.of_arena (by rw [hedit.storage]) hedit.owns) nofun (fun y _ => hedit.config_waiting y)
    (fun y _ => Iff.rfl) rfl fun _ q ht hq => ?_
  obtain rfl := hq.eq_used hrefs
  refine ⟨.used, by simpa using ht, ?_⟩
  rw [hedit.config_waiting]
  exact ⟨fun hne => absurd rfl hne, hq.gpuRefs, hq.waits, hq.few, hq.cached, hq.freed, hq.made, hq.held⟩

/-- Only an imported buffer is behind a handle with a descriptor. -/
theorem revive {u : Unit} {handle : Nat} {fd : Int} (h : (⟨m, ready, none⟩ : Config κ).Chronicled ls)
    (hlookup : m.allocator.lookup? handle = some x) (howns : m.Owns handle fd) (hfd : 0 ≤ fd)
    (he : (Allocator.revive x).exec m = (.ok u, m')) : (⟨m', ready, none⟩ : Config κ).Chronicled ls := by
  obtain ⟨a, hx, hedit⟩ := revive_ok he
  show (⟨m', ready, none⟩ : Config κ).Chronicled ([] ++ ls)
  refine h.move (f := fun a => { a with refs := if a.refs = 0 then 1 else a.refs + 1 }) hx ((silent_revive x).ok he)
    (by rw [hedit.storage]) (.of_arena (by rw [hedit.storage]) hedit.owns) nofun (fun y _ => hedit.config_waiting y)
    (fun y _ => Iff.rfl) rfl fun hs q ht hq => ?_
  obtain ⟨a', hx', hown⟩ := h.titled handle x hlookup
  rw [show m.storage.accounts[x]? = some a from hx] at hx'
  cases hx'
  rw [howns.unique (hown hs)] at hfd
  exact absurd hfd (by decide)

end Config.Chronicled

/-- The journal goes on telling the lives of buffers, whatever it told so far. -/
def Continues (ready : List (Nat × Link)) (m m' : Machine κ) : Prop :=
  ∀ ls, (⟨m, ready, none⟩ : Config κ).Chronicled ls →
    ∃ new, (⟨m', ready, none⟩ : Config κ).Chronicled (new ++ ls)

theorem Continues.trans {m₁ : Machine κ} (h : Continues ready m m₁) (h' : Continues ready m₁ m') :
    Continues ready m m' := by
  intro ls hls
  obtain ⟨new, h₁⟩ := h ls hls
  obtain ⟨newer, h₂⟩ := h' _ h₁
  exact ⟨newer ++ new, by rwa [List.append_assoc]⟩

instance : Journey (Continues (κ := κ) ready) := ⟨fun _ _ h => ⟨[], h⟩, Continues.trans⟩

variable [Kernel κ]

namespace Config.Chronicled

/-- What was held and is freed was told of before. -/
theorem free {u : Unit} (h : (⟨m, ready, some x⟩ : Config κ).Chronicled ls)
    (hknown : (⟨m, ready, some x⟩ : Config κ).Known x ls) (he : (Allocator.free x).exec m = (.ok u, m')) :
    ∃ new, (⟨m', ready, none⟩ : Config κ).Chronicled (new ++ ls) := by
  obtain ⟨b, hb, hm, howns, hstorage⟩ := free_ok he
  obtain ⟨e, hname, hwrites⟩ := free_writes h.events he
  have hx : (⟨m, ready, some x⟩ : Config κ).account? x = some b.account := Machine.accounts_of_buffer hb
  have hcedes : Cedes m m' := by
    intro k y hy
    have hy : m'.storage.arena.lookup k = some y := hy
    rw [hstorage, lookup_filter_ne] at hy
    split at hy
    · cases hy
    · rename_i hne
      exact ⟨hy, fun fd ho => howns k fd hne ho⟩
  refine ⟨_, h.move (f := fun a => { a with usage := [], freed := true }) hx hwrites (by rw [hstorage]) hcedes
    (fun l hl => by rw [List.mem_singleton.mp hl]) (fun y _ => hm.config_waiting y)
    (fun y hy => by simp [Ne.symm hy]) rfl fun hs q ht hq => ?_⟩
  obtain rfl := hq.eq_spare rfl ht (hknown _ hx hs)
  have hwaiting := hq.waiting_eq_zero nofun
  have hcached := hq.cached
  refine ⟨.gone, ?_, ?_⟩
  · rw [Line.names_cons_self, hname]
    exact ht.memfree
  · rw [hm.config_waiting]
    exact ⟨fun _ => hq.refs nofun, hq.gpuRefs, by simp [hwaiting], hq.few, by simpa using hcached, by simp, nofun,
      nofun⟩

theorem evict {u : Unit} (h : (⟨m, ready, none⟩ : Config κ).Chronicled ls)
    (he : (Allocator.evict x).exec m = (.ok u, m')) : ∃ new, (⟨m', ready, none⟩ : Config κ).Chronicled (new ++ ls) := by
  unfold Allocator.evict at he
  obtain ⟨_, m₁, huncache, he⟩ := bind_ok he
  obtain ⟨_, m₂, hcount, he⟩ := bind_ok he
  have hquiet : Keeps (Quiet (κ := κ)) (modifyAllocator fun a => { a with evictions := a.evictions + 1 }) :=
    quiet_modifyAllocator fun _ => rfl
  have hsilent : Keeps (Writes (κ := κ) []) (modifyAllocator fun a => { a with evictions := a.evictions + 1 }) :=
    silent_modifyAllocator (fun _ => rfl) (fun _ => rfl) fun _ => rfl
  have hw : Writes [] m m₂ := ((silent_uncache x).ok huncache).trans (hsilent.ok hcount)
  obtain ⟨h₂, hknown⟩ := h.uncache huncache (hquiet.ok hcount) hw
  exact h₂.free hknown he

end Config.Chronicled

theorem continues_evict (id : Nat) : Keeps (Continues (κ := κ) ready) (Allocator.evict id) :=
  (faultless_evict id).keeps fun he _ h => h.evict he

namespace Config.Chronicled

/-- What was held and is cached was told of before. -/
theorem enterCache {u : Unit} {b : Buffer} (h : (⟨m, ready, some x⟩ : Config κ).Chronicled ls)
    (hknown : (⟨m, ready, some x⟩ : Config κ).Known x ls) (hb : m.allocator.buffers[x]? = some b)
    (he : (Allocator.enterCache x).exec m = (.ok u, m')) : (⟨m', ready, none⟩ : Config κ).Chronicled ls := by
  obtain ⟨index, -, hm, howns, hstorage⟩ := enterCache_ok hb he
  have hx : (⟨m, ready, some x⟩ : Config κ).account? x = some b.account := Machine.accounts_of_buffer hb
  show (⟨m', ready, none⟩ : Config κ).Chronicled ([] ++ ls)
  refine h.move (f := fun a => { a with cachedIn := some index }) hx ((silent_enterCache x).ok he)
    (by rw [hstorage]) (.of_arena (by rw [hstorage]) howns) nofun (fun y _ => hm.config_waiting y)
    (fun y hy => by simp [Ne.symm hy]) rfl fun hs q ht hq => ?_
  obtain rfl := hq.eq_spare rfl ht (hknown _ hx hs)
  refine ⟨.spare, by simpa using ht, ?_⟩
  rw [hm.config_waiting]
  exact ⟨hq.refs, hq.gpuRefs, hq.waits, hq.few, by simp, hq.freed, nofun, nofun⟩

/-- At the end of a release the buffer is cached or freed. -/
theorem finish {u : Unit} (h : (⟨m, ready, some x⟩ : Config κ).Chronicled ls)
    (hknown : (⟨m, ready, some x⟩ : Config κ).Known x ls) (he : (Allocator.finish x).exec m = (.ok u, m')) :
    ∃ new, (⟨m', ready, none⟩ : Config κ).Chronicled (new ++ ls) := by
  obtain ⟨b, hb, ⟨-, hput⟩ | ⟨-, hfree⟩⟩ := finish_ok he
  · obtain ⟨m₁, m₂, henter, hevict, hlabel⟩ := cachePut_ok hput
    obtain ⟨new, h₂⟩ := (keeps_evictOld continues_evict).ok hevict ls (h.enterCache hknown hb henter)
    exact ⟨new, h₂.quiet (hlabel (quiet_modifyBuffer x fun _ => rfl)) (hlabel (silent_modifyBuffer x fun _ => rfl))⟩
  · exact h.free hknown hfree

/-- The last reference to a buffer goes.  Its release waits for the queues that are busy, or ends at once. -/
theorem release {m₀ : Machine κ} {u : Unit} {a : Account} (h : (⟨m, [], none⟩ : Config κ).Chronicled ls)
    (hx : m.storage.accounts[x]? = some a) (hlast : a.refs - 1 = 0)
    (hedit : Edits x (fun a => { a with refs := a.refs - 1 }) m m₀) (hw₀ : Writes [] m m₀)
    (he : (Buffer.beginRelease x).exec m₀ = (.ok u, m')) :
    ∃ new, (⟨m', [], none⟩ : Config κ).Chronicled (new ++ ls) := by
  have hrefs : a.refs ≠ 0 := Int32.ne_zero_of_pred (by rw [hlast]; decide)
  rw [Buffer.beginRelease_eq] at he
  obtain ⟨added, m₁, hstart, he⟩ := bind_ok he
  obtain ⟨hadded, hreleases⟩ := startRelease_ok hedit hstart
  obtain ⟨e, hname, hwrites⟩ := startRelease_writes (hw₀.options ▸ h.events) hstart
  have hw₁ : Writes [⟨some x, e⟩] m m₁ := hw₀.trans hwrites
  have hwaiting (y : Nat) : (⟨m₁, [], none⟩ : Config κ).waiting y = (⟨m, [], none⟩ : Config κ).waiting y +
      if x = y then m.progress.slots.busy m.progress.bound else 0 := hreleases.waiting [] y
  split at he
  · rename_i hnone
    obtain ⟨b, hb, he⟩ := bind_buffer_ok he
    obtain ⟨_, m₂, hend, he⟩ := bind_ok he
    obtain ⟨e', hname', hwrites'⟩ := writeHandle_writes (hw₁.options ▸ h.events) hb (by decide) hend
    have hquiet : Quiet m₁ m₂ := (quiet_writeHandle _ _).ok hend
    have hwaiting₂ (y : Nat) : (⟨m₂, [], some x⟩ : Config κ).waiting y = (⟨m, [], none⟩ : Config κ).waiting y := by
      refine (hquiet.toUndisturbed.config_waiting y).trans ((hwaiting y).trans ?_)
      rw [← hadded, hnone, ite_self, Nat.add_zero]
    have h₂ : (⟨m₂, [], some x⟩ : Config κ).Chronicled ([⟨some x, e'⟩, ⟨some x, e⟩] ++ ls) := by
      refine h.move hx (hw₁.trans hwrites') (by rw [hquiet.storage, hreleases.storage])
        (.of_arena (by rw [hquiet.storage, hreleases.storage]) fun k fd ho => hquiet.owns k fd (hreleases.owns k fd ho))
        (by simp) (fun y _ => hwaiting₂ y) (fun y hy => by simp [Ne.symm hy]) rfl fun _ q ht hq => ?_
      obtain rfl := hq.eq_used hrefs
      have hnothing := hq.waiting_eq_zero (by simp)
      refine ⟨.spare, ?_, ?_⟩
      · rw [Line.names_cons_self, Line.names_cons_self, hname, hname', Line.names_nil, List.nil_append,
          ← List.append_assoc]
        exact ht.free.immfree
      · rw [hwaiting₂]
        have hcached := hq.cached
        have hfreed := hq.freed
        refine ⟨fun _ => hlast, ?_, by simp [hnothing], hq.few, by simpa using hcached, by simpa using hfreed, (by simp),
          fun _ => .inr rfl⟩
        rw [hq.gpuRefs, ← hadded, hnone]
        exact Int32.add_zero _
    obtain ⟨new, h'⟩ := h₂.finish (fun _ _ _ => by simp [Line.names]) he
    exact ⟨new ++ [⟨some x, e'⟩, ⟨some x, e⟩], by rwa [List.append_assoc]⟩
  · rename_i hsome
    cases he
    refine ⟨_, h.move hx hw₁ (by rw [hreleases.storage]) (.of_arena (by rw [hreleases.storage]) hreleases.owns)
      (by simp) (fun y hy => ?_) (fun y _ => Iff.rfl) rfl fun _ q ht hq => ?_⟩
    · rw [hwaiting, if_neg (Ne.symm hy), Nat.add_zero]
    · obtain rfl := hq.eq_used hrefs
      have hnothing := hq.waiting_eq_zero (by simp)
      refine ⟨.released, ?_, ?_⟩
      · rw [Line.names_cons_self, hname]
        exact ht.free
      · rw [hwaiting, if_pos rfl, hnothing, Nat.zero_add, ← hadded]
        have hcached := hq.cached
        have hfreed := hq.freed
        refine ⟨fun _ => hlast, ?_, by simpa using Nat.pos_of_ne_zero hsome, ?_, by simpa using hcached,
          by simpa using hfreed, (by simp), (by simp)⟩
        · rw [hq.gpuRefs, hnothing]
          exact Int32.zero_add _
        · rw [hadded]
          exact SlotTable.busy_le_slotCount _ _

/-- The last reference to a buffer goes, and its release begins; another one just goes. -/
theorem unreference {u : Unit} (h : (⟨m, [], none⟩ : Config κ).Chronicled ls)
    (he : (Buffer.unreference x).exec m = (.ok u, m')) : ∃ new, (⟨m', [], none⟩ : Config κ).Chronicled (new ++ ls) := by
  unfold Buffer.unreference at he
  obtain ⟨_, m₀, hdrop, he⟩ := bind_ok he
  have hedit : Edits x (fun a => { a with refs := a.refs - 1 }) m m₀ := .of_modifyBuffer hdrop fun _ => rfl
  have hsilent : Keeps (Writes (κ := κ) []) (modifyBuffer x fun b => { b with refs := b.refs - 1 }) :=
    silent_modifyBuffer x fun _ => rfl
  have hw₀ := hsilent.ok hdrop
  obtain ⟨b, hb, he⟩ := bind_buffer_ok he
  obtain ⟨a, hx, hab⟩ := exists_account_of_modify hedit hb
  have hbrefs : b.refs = a.refs - 1 := congrArg Account.refs hab
  rw [hbrefs] at he
  split at he
  · simp at he
  · rename_i hneg
    have hrefs : a.refs ≠ 0 := Int32.ne_zero_of_pred hneg
    split at he
    · rename_i hlast
      exact h.release hx hlast hedit hw₀ he
    · rename_i hmore
      cases he
      show ∃ new, (⟨m', [], none⟩ : Config κ).Chronicled (new ++ ls)
      refine ⟨[], h.move (f := fun a => { a with refs := a.refs - 1 }) hx hw₀ (by rw [hedit.storage])
        (.of_arena (by rw [hedit.storage]) hedit.owns) nofun (fun y _ => hedit.config_waiting y)
        (fun y _ => Iff.rfl) rfl fun _ q ht hq => ?_⟩
      obtain rfl := hq.eq_used hrefs
      refine ⟨.used, by simpa using ht, ?_⟩
      rw [hedit.config_waiting]
      exact ⟨fun hne => absurd rfl hne, hq.gpuRefs, hq.waits, hq.few, hq.cached, hq.freed, hq.made, hq.held⟩

/-- One of the queues that a release waits for has drained, and the last one ends it. -/
theorem queueDrained {u : Unit} {i : Nat} {n : UInt64}
    (h : (⟨m, (i, ⟨n, .release x⟩) :: ready, none⟩ : Config κ).Chronicled ls)
    (he : (Buffer.queueDrained x).exec m = (.ok u, m')) :
    ∃ new, (⟨m', ready, none⟩ : Config κ).Chronicled (new ++ ls) := by
  unfold Buffer.queueDrained at he
  obtain ⟨_, m₁, hcount, he⟩ := bind_ok he
  have hedit : Edits x (fun a => { a with gpuRefs := a.gpuRefs - 1 }) m m₁ := .of_modifyBuffer hcount fun _ => rfl
  have hsilent : Keeps (Writes (κ := κ) []) (modifyBuffer x fun b => { b with gpuRefs := b.gpuRefs - 1 }) :=
    silent_modifyBuffer x fun _ => rfl
  have hw₁ := hsilent.ok hcount
  have hwaiting (y : Nat) : (⟨m, (i, ⟨n, .release x⟩) :: ready, none⟩ : Config κ).waiting y =
      (⟨m₁, ready, none⟩ : Config κ).waiting y + if x = y then 1 else 0 := by
    refine (m.waiting_cons _ _ y).trans ?_
    rw [← hedit.waiting]
    simp [Config.waiting]
  have hone : (⟨m, (i, ⟨n, .release x⟩) :: ready, none⟩ : Config κ).waiting x =
      (⟨m₁, ready, none⟩ : Config κ).waiting x + 1 := by rw [hwaiting, if_pos rfl]
  have hother (y : Nat) (hy : y ≠ x) : (⟨m₁, ready, none⟩ : Config κ).waiting y =
      (⟨m, (i, ⟨n, .release x⟩) :: ready, none⟩ : Config κ).waiting y := by
    rw [hwaiting, if_neg (Ne.symm hy), Nat.add_zero]
  obtain ⟨b, hb, he⟩ := bind_buffer_ok he
  obtain ⟨a, hx, hab⟩ := exists_account_of_modify hedit hb
  have hgpu : b.gpuRefs = a.gpuRefs - 1 := congrArg Account.gpuRefs hab
  have hrefs : b.refs = a.refs := congrArg Account.refs hab
  rw [hgpu, hrefs] at he
  -- a callback that is to come is for a buffer that is released
  have hleft {q : Stage} (hq : q.Suits a ((⟨m, (i, ⟨n, .release x⟩) :: ready, none⟩ : Config κ).waiting x)
      (none = some x)) : q = .released ∧ a.gpuRefs - 1 = Int32.ofNat ((⟨m₁, ready, none⟩ : Config κ).waiting x) := by
    refine ⟨hq.waits.mp (by omega), ?_⟩
    rw [hq.gpuRefs, hone, Int32.ofNat_pred (Nat.succ_pos _)]
    rfl
  split at he
  · rename_i hlast
    obtain ⟨_, m₂, hend, he⟩ := bind_ok he
    obtain ⟨e, hname, hwrites⟩ := writeHandle_writes (hw₁.options ▸ h.events) hb (by decide) hend
    have hquiet : Quiet m₁ m₂ := (quiet_writeHandle _ _).ok hend
    have h₂ : (⟨m₂, ready, some x⟩ : Config κ).Chronicled ([⟨some x, e⟩] ++ ls) := by
      refine h.move hx (hw₁.trans hwrites) (by rw [hquiet.storage, hedit.storage])
        (.of_arena (by rw [hquiet.storage, hedit.storage]) fun k fd ho => hquiet.owns k fd (hedit.owns k fd ho))
        (by simp) (fun y hy => (hquiet.toUndisturbed.config_waiting y).trans (hother y hy))
        (fun y hy => by simp [Ne.symm hy]) rfl fun _ q ht hq => ?_
      obtain ⟨rfl, hleft⟩ := hleft hq
      have hfew := hq.few
      have hnone : (⟨m₁, ready, none⟩ : Config κ).waiting x = 0 :=
        Int32.eq_zero_of_ofNat (Nat.lt_of_lt_of_le (by omega) (show slotCount + 1 ≤ 2 ^ 32 by decide))
          (hleft.symm.trans hlast.1)
      refine ⟨.spare, ?_, ?_⟩
      · rw [Line.names_cons_self, hname]
        exact ht.gpufree
      · have hwaiting₂ : (⟨m₂, ready, some x⟩ : Config κ).waiting x = 0 :=
          (hquiet.toUndisturbed.config_waiting x).trans hnone
        have hcached := hq.cached
        have hfreed := hq.freed
        rw [hwaiting₂]
        exact ⟨fun _ => hlast.2, hlast.1, by simp, Nat.zero_le _, by simpa using hcached, by simpa using hfreed, (by simp),
          fun _ => .inr rfl⟩
    obtain ⟨new, h'⟩ := h₂.finish (fun _ _ _ => by simp [Line.names]) he
    exact ⟨new ++ [⟨some x, e⟩], by rwa [List.append_assoc]⟩
  · rename_i hmore
    cases he
    refine ⟨[], h.move hx hw₁ (by rw [hedit.storage]) (.of_arena (by rw [hedit.storage]) hedit.owns) (by simp) hother
      (fun y _ => Iff.rfl) rfl fun _ q ht hq => ?_⟩
    obtain ⟨rfl, hleft⟩ := hleft hq
    have hfew := hq.few
    have hsome : 0 < (⟨m', ready, none⟩ : Config κ).waiting x := by
      refine Nat.pos_of_ne_zero fun hz => hmore ⟨?_, hq.refs (by simp)⟩
      rw [hleft, hz]
      rfl
    refine ⟨.released, by simpa using ht, hq.refs, hleft, by simpa using hsome, by omega, hq.cached, hq.freed, (by simp),
      (by simp)⟩

/-- A buffer that is handed out was held. -/
theorem handOut {u : Unit} (h : (⟨m, ready, some x⟩ : Config κ).Chronicled ls)
    (he : (Allocator.handOut x).exec m = (.ok u, m')) :
    ∃ new, (⟨m', ready, none⟩ : Config κ).Chronicled (new ++ ls) := by
  obtain ⟨a, hx, hedit⟩ := handOut_ok he
  obtain ⟨e, hname, hwrites⟩ := handOut_writes h.events he
  refine ⟨_, h.move hx hwrites (by rw [hedit.storage]) (.of_arena (by rw [hedit.storage]) hedit.owns) (by simp)
    (fun y _ => hedit.config_waiting y) (fun y hy => by simp [Ne.symm hy]) rfl fun _ q ht hq => ?_⟩
  have hheld := hq.held rfl
  have hnothing := hq.waiting_eq_zero (by rcases hheld with rfl | rfl <;> nofun)
  refine ⟨.used, ?_, ?_⟩
  · rw [Line.names_cons_self, hname]
    exact ht.alloc hheld
  · rw [hedit.config_waiting]
    have hcached := hq.cached
    have hfreed := hq.freed
    refine ⟨fun hne => absurd rfl hne, hq.gpuRefs, by simp [hnothing], hq.few, by simpa using hcached, ?_, nofun, nofun⟩
    rcases hheld with rfl | rfl <;> simpa using hfreed

end Config.Chronicled

/-! ## Steps and runs -/

/-- Lines are written about imports at most. -/
def Murmurs (m m' : Machine κ) : Prop := ∃ ls, Writes ls m m' ∧ ∀ l ∈ ls, l.buffer = none

variable {c c' : Config κ} {act : Action}

/-- A step goes on telling the lives of buffers. -/
theorem Step.chronicled (h : Step c act c') (hc : c.Chronicled ls)
    (hquiet : act = .other → c'.held = c.held → Quiet c.machine c'.machine → Murmurs c.machine c'.machine) :
    ∃ new, c'.Chronicled (new ++ ls) := by
  have hwaiting := h.waiting
  cases h with
  | quiet hq =>
    obtain ⟨new, hw, hnone⟩ := hquiet rfl rfl hq
    exact ⟨new, hc.of_storage hw hnone hq.storage hq.owns hq.toUndisturbed.config_waiting rfl⟩
  | reference he => exact ⟨[], hc.reference he⟩
  | revive hlookup howns hfd he => exact ⟨[], hc.revive hlookup howns hfd he⟩
  | unreference _ _ he => exact hc.unreference he
  | release _ _ he => exact hc.unreference he
  | @enter m m' b x fd _ _ hshared _ _ _ _ _ he =>
    have hnot {P : Prop} (hs : b.account.shared = false) : P := by
      rw [show b.account.shared = true from hshared] at hs
      cases hs
    exact ⟨[], hc.opens (addBuffer_ok he).2 ((silent_addBuffer _).ok he) hnot nofun hnot⟩
  | @abandon m m' handle hfree he =>
    have hdrop : Dropping handle m m' := (dropping_freeHandle _).ok he
    refine ⟨[], hc.still ((keeps_freeHandle _).ok he) (List.forall_mem_nil _)
      (fun x => by rw [Config.account?, hdrop.storage, Config.account?]) (fun k y hy => ?_)
      hdrop.toUndisturbed.config_waiting rfl⟩
    have hy : m'.storage.arena.lookup k = some y := hy
    rw [hdrop.storage] at hy
    refine ⟨hy, fun fd ho => hdrop.owns k fd ?_ ho⟩
    rintro rfl
    exact Option.some_ne_none _ (hy.symm.trans hfree)
  | reuse he =>
    obtain ⟨_, huncache, hq⟩ := reuse_ok he
    exact ⟨[], (hc.uncache huncache hq ((silent_reuse _ _).ok he)).1⟩
  | wrap he =>
    obtain ⟨_, -, howns, rfl, hopens⟩ := wrapRegion_ok he
    refine ⟨[], hc.opens hopens ((silent_wrapRegion _ _ _ _).ok he) (fun _ => howns)
      (fun _ e => (Option.some.inj e).symm) fun _ => ?_⟩
    exact ⟨fun _ => rfl, rfl, by simp, Nat.zero_le _, by simp, by simp, fun _ => rfl, fun _ => .inl rfl⟩
  | handOut he => exact hc.handOut he
  | evictStale he => exact (keeps_evictOld continues_evict).ok he ls hc
  | evictAll he => exact (keeps_evictBuckets continues_evict _).ok he ls hc
  | await he =>
    have hmoves := (callbackAll_ok he).2
    exact ⟨[], hc.of_storage ((keeps_callbackAll _).ok he) (List.forall_mem_nil _) hmoves.storage hmoves.owns
      (by simpa [Action.fires] using hwaiting) rfl⟩
  | attach he =>
    have hmoves := attachStream_join he
    exact ⟨[], hc.of_storage ((keeps_attachStream _).ok he) (List.forall_mem_nil _) hmoves.storage hmoves.owns
      (by simpa [Action.fires] using hwaiting) rfl⟩
  | submit _ he =>
    have hmoves := submitSlot_ok he
    exact ⟨[], hc.of_storage ((keeps_submitSlot _ _).ok he) (List.forall_mem_nil _) hmoves.storage hmoves.owns
      (by simpa [Action.fires] using hwaiting) rfl⟩
  | advance he =>
    have hmoves := (advanceSlot_ok he).2.2
    exact ⟨[], hc.of_storage ((keeps_advanceSlot _ _).ok he) (List.forall_mem_nil _) hmoves.storage hmoves.owns
      (by simpa [Action.fires] using hwaiting) rfl⟩
  | update he =>
    have hmoves := (takeCallbacks_ok he).2.2
    exact ⟨[], hc.of_storage ((keeps_takeCallbacks _ _).ok he) (List.forall_mem_nil _) hmoves.storage hmoves.owns
      (by simpa [Action.fires] using hwaiting) rfl⟩
  | terminate _ he =>
    have hmoves := (clearSlot_ok he).2.2
    exact ⟨[], hc.of_storage ((keeps_clearSlot _).ok he) (List.forall_mem_nil _) hmoves.storage hmoves.owns
      (by simpa [Action.fires] using hwaiting) rfl⟩
  | @fire m m' i l ready he =>
    obtain ⟨n, callback⟩ := l
    cases callback with
    | report id =>
      have hq : Quiet m m' := (keeps_report _).ok he
      exact ⟨[], hc.of_storage ((keeps_report _).ok he) (List.forall_mem_nil _) hq.storage hq.owns
        (by simpa [Action.fires] using hwaiting) rfl⟩
    | release x => exact hc.queueDrained he
  | @collect m m' id batch b hb _ he =>
    obtain ⟨_, hg⟩ := gathers_of_collect hb he
    refine ⟨[], hc.still ((keeps_collect silent_useBuffer _ _).ok he) (List.forall_mem_nil _) (fun x => ?_)
      (.of_arena (by rw [hg.storage]) fun k fd ho => ?_) (by simpa [Action.fires] using hwaiting) rfl⟩
    · show (m'.storage.accounts[x]?).map _ = (m.storage.accounts[x]?).map _
      rw [hg.accounts, Option.map_map]
      rfl
    · rw [Machine.Owns, hg.device]
      exact ho

/-- So does a step on a device of any kind. -/
theorem ShelfStep.chronicled (h : ShelfStep c act c') (hc : c.Chronicled ls)
    (hdevice : c.progress.generation = .csf ∨ c.machine.Calm)
    (hquiet : act = .other → c'.held = c.held → Quiet c.machine c'.machine → Murmurs c.machine c'.machine) :
    ∃ new, c'.Chronicled (new ++ ls) := by
  have hcalm := h.calm
  have hnone {m : Machine κ} {held : Option Nat} (hm : m.Calm) (x : Nat) :
      (⟨m, [], held⟩ : Config κ).waiting x = 0 := by
    show m.progress.slots.waiting (.release x) + 0 = 0
    rw [hm.links.waiting]
  cases h with
  | stream _ h => exact h.chronicled hc hquiet
  | job _ _ h => exact h.chronicled hc hquiet
  | @submit m m' held va requirements o handles r hjob he hr =>
    have hm : m.Calm := hdevice.resolve_left hjob
    obtain ⟨hstorage, howns⟩ := submitJob_still hm he hr
    have hkeeps : Keeps (Writes (κ := κ) []) (Device.submitJob va requirements o handles) :=
      keeps_submitJob keeps_retireAtom (fun number slot => keeps_markAtom number slot handles) va requirements o
    exact ⟨[], hc.of_storage ((hkeeps m).survives he hr) (List.forall_mem_nil _) hstorage howns
      (fun x => (hnone (hcalm hm) x).trans (hnone hm x).symm) rfl⟩
  | @event m m' held e fine hjob he =>
    have hm : m.Calm := hdevice.resolve_left hjob
    obtain ⟨hstorage, howns⟩ := handleJobEvent_still hm he
    exact ⟨[], hc.of_storage (handleJobEvent_keeps keeps_retireAtom hm.links he) (List.forall_mem_nil _) hstorage howns
      (fun x => (hnone (hcalm hm) x).trans (hnone hm x).symm) rfl⟩

/-- Steps one after the other on a device of any kind.  What is quiet writes lines about imports at most. -/
inductive JournalRun : Config κ → List (Config κ × Action) → Config κ → Prop
  | nil (c : Config κ) : JournalRun c [] c
  | cons {c c₁ c' : Config κ} {a : Action} {es : List (Config κ × Action)} (hs : ShelfStep c a c₁)
    (hquiet : a = .other → c₁.held = c.held → Quiet c.machine c₁.machine → Murmurs c.machine c₁.machine)
    (hr : JournalRun c₁ es c') : JournalRun c ((c, a) :: es) c'

omit [Kernel κ] in
/-- There is nothing to tell at the start. -/
theorem Vacant.chronicled (h : Vacant m) (hevents : m.allocator.options.events = .journal)
    (hjournal : m.allocator.journal = []) : (⟨m, [], none⟩ : Config κ).Chronicled [] where
  events := hevents
  journal := hjournal
  described := List.forall_mem_nil _
  titled k x hx := by
    have hx : m.storage.arena.lookup k = some x := hx
    rw [h.arena] at hx
    cases hx
  lives x a hx := by
    have hx : m.storage.accounts[x]? = some a := hx
    rw [h.accounts] at hx
    cases hx
  unborn x _ := h.waiting x

/-- By induction on the run. -/
theorem JournalRun.chronicled {es : List (Config κ × Action)} (h : JournalRun c es c') (hc : c.Chronicled ls)
    (hdevice : c.progress.generation = .csf ∨ c.machine.Calm) :
    ∃ lines, ls <:+ lines ∧ lines.map (·.event) = c'.machine.allocator.journal ∧
      (∀ l ∈ lines, l.Describes c'.machine.allocator) ∧
      ∀ d ∈ es.map (·.1) ++ [c'], ∃ told, told <:+ lines ∧ d.Chronicled told := by
  induction h generalizing ls with
  | nil c =>
    refine ⟨ls, List.suffix_refl _, hc.journal.symm, hc.described, fun d hd => ?_⟩
    obtain rfl := List.mem_singleton.mp hd
    exact ⟨ls, List.suffix_refl _, hc⟩
  | cons hs hquiet _ ih =>
    obtain ⟨new, h₁⟩ := hs.chronicled hc hdevice hquiet
    obtain ⟨lines, hlines, hjournal, hdescribed, hrest⟩ := ih h₁ (hs.csf_or_calm hdevice)
    have hsuffix : ls <:+ lines := (List.suffix_append _ _).trans hlines
    refine ⟨lines, hsuffix, hjournal, hdescribed, fun d hd => ?_⟩
    rw [List.map_cons, List.cons_append, List.mem_cons] at hd
    rcases hd with rfl | hd
    · exact ⟨ls, hsuffix, hc⟩
    · exact hrest d hd

/-- The lines of the journal are about buffers and imports, and wherever a run has come to, those written so far tell
of every buffer that was not imported how its life went: they say how a lifetime begins, they say that the buffer was
freed exactly if it was, and they are those of the stage that it has come to. -/
theorem JournalRun.tells_lives {es : List (Config κ × Action)} (hm : Vacant m)
    (hevents : m.allocator.options.events = .journal) (hjournal : m.allocator.journal = [])
    (h : JournalRun ⟨m, [], none⟩ es c') :
    ∃ lines : List Line, lines.map (·.event) = c'.machine.allocator.journal ∧
      (∀ l ∈ lines, l.Describes c'.machine.allocator) ∧
      ∀ d ∈ es.map (·.1) ++ [c'], ∃ told, told <:+ lines ∧ told.map (·.event) = d.machine.allocator.journal ∧
        ∀ x a, d.account? x = some a → a.shared = false →
          (∃ ends, ends ≠ [] ∧ (∀ e ∈ ends, e = "immfree" ∨ e = "gpufree") ∧
            Line.names x told <+: ends.flatMap (fun e => ["alloc", "free", e]) ++ ["memfree"]) ∧
          ("memfree" ∈ Line.names x told ↔ a.freed = true) ∧
          ∃ q, Stage.Told (Line.names x told) q ∧ q.Suits a (d.waiting x) (d.held = some x) := by
  obtain ⟨lines, -, hevent, hdescribed, hlives⟩ := h.chronicled (hm.chronicled hevents hjournal) hm.csf_or_calm
  refine ⟨lines, hevent, hdescribed, fun d hd => ?_⟩
  obtain ⟨told, hsuffix, hd⟩ := hlives d hd
  refine ⟨told, hsuffix, hd.journal.symm, fun x a hx hs => ?_⟩
  obtain ⟨q, ht, hq⟩ := hd.lives x a hx hs
  exact ⟨ht.lifetime, ht.memfree_mem_iff.trans hq.freed.symm, q, ht, hq⟩

end

/-! ## A buffer that is cached and evicted -/

namespace Diary

/-- A job manager device and an allocator with two size classes that keeps a journal. -/
def start : Machine Bench where
  kernel := {}
  device := { generation := .jm, options := { pageSize := 4096 } }
  allocator :=
    { started := true, options := { minBucket := 12, maxBucket := 13, events := .journal }, cache := .empty 2 }

/-- A region is a buffer. -/
def wrapped : Machine Bench := ((Allocator.wrapRegion ⟨⟨0, 0⟩, 0⟩ 4096 0 "page").exec start).2

/-- It has its first reference. -/
def handed : Machine Bench := ((Allocator.handOut 0).exec wrapped).2

/-- It is cached. -/
def cached : Machine Bench := ((Buffer.unreference 0).exec handed).2

/-- The cache was emptied. -/
def emptied : Machine Bench := ((Allocator.evictBuckets [0, 1]).exec cached).2

def steps : List (Config Bench × Action) :=
  [(⟨start, [], none⟩, .other), (⟨wrapped, [], some 0⟩, .other), (⟨handed, [], none⟩, .release 0),
    (⟨cached, [], none⟩, .other)]

-- a table of 256 slots is evaluated
set_option maxRecDepth 20000

theorem outcomes :
    ((Allocator.wrapRegion ⟨⟨0, 0⟩, 0⟩ 4096 0 "page").exec start).1.toOption = some 0 ∧
    ((Allocator.handOut 0).exec wrapped).1.toOption = some () ∧
    ((Buffer.unreference 0).exec handed).1.toOption = some () ∧
    ((Allocator.evictBuckets [0, 1]).exec cached).1.toOption = some () ∧
    wrapped.storage.accounts = [{ handle := 0 }] ∧
    handed.storage.accounts = [{ handle := 0, refs := 1 }] ∧
    cached.storage.frees = 0 ∧ emptied.storage.frees = 1 ∧
    emptied.storage.accounts = [{ handle := 0, freed := true }] := by
  decide +kernel

theorem vacant_start : Vacant start := by
  constructor
  case range => decide
  all_goals rfl

theorem run_emptied : JournalRun ⟨start, [], none⟩ steps ⟨emptied, [], none⟩ := by
  obtain ⟨hwrap, hhand, hrelease, hevict, -, haccounts', hfrees, hfrees', -⟩ := outcomes
  have hwrapped : (Allocator.wrapRegion ⟨⟨0, 0⟩, 0⟩ 4096 0 "page").exec start = (.ok 0, wrapped) := exec_of_value hwrap
  have hhanded : (Allocator.handOut 0).exec wrapped = (.ok (), handed) := exec_of_value hhand
  have hcached : (Buffer.unreference 0).exec handed = (.ok (), cached) := exec_of_value hrelease
  have hemptied : (Allocator.evictBuckets [0, 1]).exec cached = (.ok (), emptied) := exec_of_value hevict
  have hone : handed.storage.accounts[0]? = some { handle := 0, refs := 1 } := by
    rw [haccounts']
    rfl
  have hwraps : ShelfStep ⟨start, [], none⟩ .other ⟨wrapped, [], some 0⟩ := .of_plain (.wrap hwrapped) (.inl rfl)
  have hhands : ShelfStep ⟨wrapped, [], some 0⟩ .other ⟨handed, [], none⟩ := .of_plain (.handOut hhanded) (.inl rfl)
  have hreleases : ShelfStep ⟨handed, [], none⟩ (.release 0) ⟨cached, [], none⟩ :=
    .of_plain (.release hone rfl hcached) (.inr ⟨0, rfl⟩)
  have hevicts : ShelfStep ⟨cached, [], none⟩ .other ⟨emptied, [], none⟩ := .of_plain (.evictAll hemptied) (.inl rfl)
  refine .cons hwraps nofun <| .cons hhands nofun <| .cons hreleases nofun <| .cons hevicts (fun _ _ hq => ?_) (.nil _)
  have hsame : emptied.storage.frees = cached.storage.frees := congrArg Storage.frees hq.storage
  rw [hfrees, hfrees'] at hsame
  exact absurd hsame (by decide)

end Diary

/-- A page was handed out, cached and freed, and the journal ends with that. -/
theorem tells_lives_sample : Vacant Diary.start ∧
    JournalRun ⟨Diary.start, [], none⟩ Diary.steps ⟨Diary.emptied, [], none⟩ ∧
    ∃ lines : List Line, lines.map (·.event) = Diary.emptied.allocator.journal ∧
      "memfree" ∈ Line.names 0 lines ∧
      ∃ ends : List String, (∀ e ∈ ends, e = "immfree" ∨ e = "gpufree") ∧
        Line.names 0 lines <+: ends.flatMap (fun e => ["alloc", "free", e]) ++ ["memfree"] := by
  obtain ⟨lines, hevents, -, htold⟩ :=
    JournalRun.tells_lives Diary.vacant_start rfl rfl Diary.run_emptied
  obtain ⟨told, hsuffix, hjournal, hlives⟩ :=
    htold ⟨Diary.emptied, [], none⟩ (List.mem_append_right _ (List.mem_singleton_self _))
  -- at the end everything is told
  obtain rfl : told = lines := by
    refine hsuffix.eq_of_length ?_
    have hlength := congrArg List.length (hjournal.trans hevents.symm)
    rwa [List.length_map, List.length_map] at hlength
  have hgone : Diary.emptied.storage.accounts[0]? = some { handle := 0, freed := true } := by
    obtain ⟨-, -, -, -, -, -, -, -, haccounts⟩ := Diary.outcomes
    rw [haccounts]
    rfl
  obtain ⟨⟨ends, -, hends, hprefix⟩, hfreed, -⟩ := hlives 0 _ hgone rfl
  exact ⟨Diary.vacant_start, Diary.run_emptied, told, hevents, hfreed.mpr rfl, ends, hends, hprefix⟩

end Mali
