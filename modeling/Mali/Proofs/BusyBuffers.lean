import Mali.Proofs.Places

/-!
# Buffers that atoms use
-/

namespace Mali

open Op

/-! ## Guarded machines -/

/-- Everything is in its place, use counts are right, and every handle that an atom in flight uses is that
of a buffer that is neither freed, nor cached, nor held. -/
structure Guarded (s : JobState) (held : Option Nat) : Prop where
  placed : s.storage.Placed s.table.Owns held
  balanced : Balanced s.table s.flights
  inUse : ∀ k, flightCount s.flights k ≠ 0 → ∃ (x : Nat) (a : Account),
    s.storage.accounts[x]? = some a ∧ a.handle = k ∧ a.freed = false ∧ a.cachedIn = none ∧ held ≠ some x

/-- Buffers keep their handles, and no atom in flight uses the handle of one that is freed on the way. -/
def Spares (fs : List (UInt8 × List Int)) (S S' : Storage) : Prop :=
  ∀ (x : Nat) (a : Account), S.accounts[x]? = some a → ∃ a' : Account, S'.accounts[x]? = some a' ∧
    a'.handle = a.handle ∧ (a.freed = false → a'.freed = true → flightCount fs a.handle = 0)

theorem Spares.refl (fs : List (UInt8 × List Int)) (S : Storage) : Spares fs S S := by
  intro x a hx
  refine ⟨a, hx, rfl, fun hf hf' => ?_⟩
  rw [hf] at hf'
  cases hf'

theorem Spares.trans {fs : List (UInt8 × List Int)} {S₁ S₂ S₃ : Storage} (h : Spares fs S₁ S₂)
    (h' : Spares fs S₂ S₃) : Spares fs S₁ S₃ := by
  intro x a hx
  obtain ⟨b, hb, hhandle, hfreed⟩ := h x a hx
  obtain ⟨c, hc, hhandle', hfreed'⟩ := h' x b hb
  refine ⟨c, hc, hhandle'.trans hhandle, fun hfa hfc => ?_⟩
  cases hfb : b.freed with
  | true => exact hfreed hfa hfb
  | false =>
    rw [← hhandle]
    exact hfreed' hfb hfc

/-- A change of one account that frees nothing. -/
theorem Spares.of_modify {fs : List (UInt8 × List Int)} {S S' : Storage} {x : Nat} {a : Account}
    {f : Account → Account} (hx : S.accounts[x]? = some a)
    (haccounts : S'.accounts = S.accounts.modify x f) (hhandle : (f a).handle = a.handle)
    (hfreed : a.freed = false → (f a).freed = true → flightCount fs a.handle = 0) : Spares fs S S' := by
  intro y b hy
  rw [haccounts, getElem?_modify_of_some hx]
  split
  · rename_i hxy
    subst hxy
    rw [hx] at hy
    cases hy
    exact ⟨f a, rfl, hhandle, hfreed⟩
  · exact Spares.refl fs S y b hy

namespace Guarded

variable {s : JobState} {held held' : Option Nat} {x : Nat} {a : Account} {f : Account → Account}

/-- Nothing in flight uses the handle of a buffer that is put away or held. -/
theorem unused (h : Guarded s held) (hx : s.storage.accounts[x]? = some a) (hfreed : a.freed = false)
    (hp : a.cachedIn ≠ none ∨ held = some x) : flightCount s.flights a.handle = 0 := by
  by_contra hne
  obtain ⟨y, b, hy, hhandle, hb, hcached, hheld⟩ := h.inUse a.handle hne
  obtain rfl := h.placed.handle_inj hx hy hfreed hb hhandle.symm
  rw [hx] at hy
  cases hy
  rcases hp with hp | hp
  · exact hp hcached
  · exact hheld hp

/-- The account of one buffer changes, while its handle stays live. -/
theorem change (h : Guarded s held) (hx : s.storage.accounts[x]? = some a) {S : Storage}
    (haccounts : S.accounts = s.storage.accounts.modify x f) (hhandle : (f a).handle = a.handle)
    (hplaced : S.Placed s.table.Owns held') (hheld : ∀ y, y ≠ x → held' = some y → held = some y)
    (huse : flightCount s.flights a.handle ≠ 0 → a.freed = false → a.cachedIn = none → held ≠ some x →
      (f a).freed = false ∧ (f a).cachedIn = none ∧ held' ≠ some x) :
    Guarded { s with storage := S } held' := by
  refine ⟨hplaced, h.balanced, fun k hk => ?_⟩
  obtain ⟨y, b, hy, rfl, hfreed, hcached, hne⟩ := h.inUse k hk
  show ∃ (y : Nat) (b' : Account), S.accounts[y]? = some b' ∧ _
  rcases eq_or_ne x y with rfl | hxy
  · rw [hx] at hy
    cases hy
    refine ⟨x, f a, ?_, hhandle, huse hk hfreed hcached hne⟩
    rw [haccounts, getElem?_modify_of_some hx, if_pos rfl]
  · refine ⟨y, b, ?_, rfl, hfreed, hcached, fun e => hne (hheld y hxy.symm e)⟩
    rw [haccounts, getElem?_modify_of_some hx, if_neg hxy, hy]

/-- The account of one buffer that is not freed by the change. -/
theorem edit (h : Guarded s held) (hx : s.storage.accounts[x]? = some a) {S : Storage}
    (haccounts : S.accounts = s.storage.accounts.modify x f) (harena : S.arena = s.storage.arena)
    (hhandle : (f a).handle = a.handle) (hshared : (f a).shared = a.shared)
    (hfreed : (f a).freed = a.freed) (hheld : ∀ y, y ≠ x → held' = some y → held = some y)
    (hsettled : (a.freed = true ∨ (f a).cachedIn ≠ none ∨ held' = some x) → (f a).refs = 0)
    (hplace : held' = some x → a.freed = false ∧ (f a).cachedIn = none)
    (hapart : a.freed = true → (f a).cachedIn = none)
    (hunshared : (f a).cachedIn ≠ none → a.shared = false)
    (huse : flightCount s.flights a.handle ≠ 0 → a.freed = false → a.cachedIn = none → held ≠ some x →
      (f a).cachedIn = none ∧ held' ≠ some x) : Guarded { s with storage := S } held' := by
  refine h.change hx haccounts hhandle ?_ hheld fun hne hf hc hn => ⟨hfreed.trans hf, huse hne hf hc hn⟩
  refine h.placed.move hx haccounts hhandle hshared hheld (fun _ _ _ _ _ _ ho => ho)
    (fun hf => ⟨hfreed ▸ hf, fun _ ho => ho⟩) (fun hp => hsettled (hfreed ▸ hp))
    (fun hp => hfreed ▸ hplace hp) (fun hf => hapart (hfreed ▸ hf)) hunshared fun k y => ?_
  rw [harena, hfreed]
  split
  · rename_i hyx
    rw [hyx, h.placed.arena k x, hx]
    simp
  · rfl

/-- The references of a buffer change where it is. -/
theorem setRefs (h : Guarded s held) (hx : s.storage.accounts[x]? = some a) {S : Storage}
    (haccounts : S.accounts = s.storage.accounts.modify x f) (harena : S.arena = s.storage.arena)
    (hplace : (f a).handle = a.handle ∧ (f a).shared = a.shared ∧ (f a).cachedIn = a.cachedIn ∧
      (f a).freed = a.freed)
    (hlive : a.freed = false ∧ a.cachedIn = none ∧ held ≠ some x) :
    Guarded { s with storage := S } held := by
  obtain ⟨hhandle, hshared, hcached, hfreed⟩ := hplace
  refine h.edit hx haccounts harena hhandle hshared hfreed (fun _ _ hy => hy) (fun hp => ?_)
    (fun hp => absurd hp hlive.2.2) (fun _ => hcached.trans hlive.2.1)
    (fun hc => absurd (hcached.trans hlive.2.1) hc) fun _ _ _ _ => ⟨hcached.trans hlive.2.1, hlive.2.2⟩
  rw [hcached, hlive.1, hlive.2.1] at hp
  simp [hlive.2.2] at hp

/-- A handle goes that is that of no buffer, or of one that is freed with it. -/
theorem freeHandle (h : Guarded s held) {S : Storage} {handle : Nat}
    (hplaced : S.Placed (s.table.free handle).2.Owns held')
    (huse : ∀ k, flightCount s.flights k ≠ 0 → ∃ (y : Nat) (b : Account),
      S.accounts[y]? = some b ∧ b.handle = k ∧ b.freed = false ∧ b.cachedIn = none ∧ held' ≠ some y) :
    Guarded { s with table := (s.table.free handle).2, storage := S } held' := by
  refine ⟨hplaced, h.balanced.free handle fun k hk => ?_, huse⟩
  obtain ⟨y, b, hy, rfl, hfreed, -⟩ := huse k hk
  obtain ⟨fd, hfd, -⟩ := hplaced.owned y b hy hfreed
  exact ⟨fd, hfd⟩

/-- Nothing in flight uses a handle that is not live. -/
theorem unused_of_not_live (h : Guarded s held) {k : Nat} (hk : ∀ fd, ¬s.table.Owns k fd) :
    flightCount s.flights k = 0 := by
  by_contra hne
  obtain ⟨y, b, hy, rfl, hfreed, -⟩ := h.inUse k hne
  obtain ⟨fd, hfd, -⟩ := h.placed.owned y b hy hfreed
  exact hk fd hfd

/-- A handle that is not live stands for no buffer. -/
theorem lookup_of_not_live (h : Guarded s held) {k : Nat} (hk : ∀ fd, ¬s.table.Owns k fd) :
    s.storage.arena.lookup k = none := by
  by_contra hne
  obtain ⟨y, hy⟩ := Option.ne_none_iff_exists'.mp hne
  obtain ⟨b, hb, rfl, hfreed⟩ := (h.placed.arena k y).mp hy
  obtain ⟨fd, hfd, -⟩ := h.placed.owned y b hb hfreed
  exact hk fd hfd

theorem alloc (h : Guarded s held) (va : UInt64) (fd : Int) :
    Balanced (s.table.alloc va fd).2 s.flights :=
  h.balanced.alloc va fd (h.unused_of_not_live s.table.not_owns_freeIndex)

/-- A new buffer under a handle that stands for none.  It may be held. -/
theorem add (h : Guarded s none) {t : HandleTable} {S : Storage} (hbalanced : Balanced t s.flights)
    (howns : ∀ k fd, s.table.Owns k fd → t.Owns k fd)
    (hnew : ∃ fd, t.Owns a.handle fd ∧ (a.shared = false → fd < 0))
    (hfree : s.storage.arena.lookup a.handle = none) (hcached : a.cachedIn = none)
    (hfreed : a.freed = false)
    (hheld : ∀ y, held' = some y → y = s.storage.accounts.length ∧ a.refs = 0)
    (haccounts : S.accounts = s.storage.accounts ++ [a])
    (harena : S.arena = (s.storage.arena.filter fun e => e.1 ≠ a.handle) ++
      [(a.handle, s.storage.accounts.length)]) :
    Guarded { s with table := t, storage := S } held' ∧ Spares s.flights s.storage S := by
  have hold {y : Nat} {b : Account} (hy : s.storage.accounts[y]? = some b) :
      S.accounts[y]? = some b := by
    rw [haccounts, List.getElem?_append_left (List.getElem?_eq_some_iff.mp hy).1, hy]
  refine ⟨⟨h.placed.add howns hnew hfree hcached hfreed hheld haccounts harena, hbalanced,
    fun k hk => ?_⟩, fun y b hy => ⟨b, hold hy, rfl, fun hf hf' => ?_⟩⟩
  · obtain ⟨y, b, hy, hhandle, hf, hc, -⟩ := h.inUse k hk
    refine ⟨y, b, hold hy, hhandle, hf, hc, fun e => ?_⟩
    have := (List.getElem?_eq_some_iff.mp hy).1
    have := (hheld y e).1
    omega
  · rw [hf] at hf'
    cases hf'

/-- A held buffer is freed, and its handle with it. -/
theorem free (h : Guarded s (some x)) (hx : s.storage.accounts[x]? = some a) {S : Storage}
    (haccounts : S.accounts = s.storage.accounts.modify x fun a => { a with usage := [], freed := true })
    (harena : S.arena = s.storage.arena.filter fun e => e.1 ≠ a.handle) :
    Guarded { s with table := (s.table.free a.handle).2, storage := S } none := by
  obtain ⟨b, hb, hfreed, hcached⟩ := h.placed.held x rfl
  rw [hx] at hb
  cases hb
  refine h.freeHandle ?_ fun k hk => ?_
  · refine h.placed.move hx haccounts rfl rfl (fun _ _ hy => nomatch hy) (fun y b hne hy hf fd ho => ?_)
      (fun hf => nomatch hf) (fun _ => h.placed.settled x a hx (.inr (.inr rfl)))
      (fun hp => nomatch hp) (fun _ => hcached) (fun hc => absurd hcached hc) fun k y => ?_
    · exact HandleTable.owns_free (fun e => hne (h.placed.handle_inj hy hx hf hfreed e)) ho
    · rw [harena, lookup_filter_ne]
      by_cases hk : k = a.handle
      · rw [if_pos hk]
        refine ⟨fun hy => (nomatch hy), fun hy => ?_⟩
        split at hy
        · exact nomatch hy.2
        · rename_i hne
          have := (h.placed.arena a.handle x).mpr ⟨a, hx, rfl, hfreed⟩
          rw [hk, this] at hy
          exact absurd (Option.some.inj hy).symm hne
      · rw [if_neg hk]
        split
        · rename_i hyx
          subst hyx
          refine ⟨fun hy => ?_, fun hy => absurd hy.1.symm hk⟩
          obtain ⟨b, hb, hhandle, -⟩ := (h.placed.arena k y).mp hy
          rw [hx] at hb
          cases hb
          exact absurd hhandle.symm hk
        · rfl
  · obtain ⟨y, b, hy, hhandle, hf, hc, hne⟩ := h.inUse k hk
    have hxy : x ≠ y := fun e => hne (e ▸ rfl)
    refine ⟨y, b, ?_, hhandle, hf, hc, nofun⟩
    rw [haccounts, getElem?_modify_of_some hx, if_neg hxy, hy]

end Guarded

/-! ## Operations on buffers -/

variable {κ α : Type}

/-- A job manager device on which nothing waits for a slot. -/
structure Machine.Calm (m : Machine κ) : Prop where
  generation : m.progress.generation ≠ .csf
  bound : m.progress.bound = 0
  links : m.NoLinks

theorem Machine.Calm.of_progress {m m' : Machine κ} (h : m.Calm) (hp : m'.progress = m.progress) :
    m'.Calm :=
  ⟨by rw [hp]; exact h.generation, by rw [hp]; exact h.bound, by rw [NoLinks, hp]; exact h.links⟩

theorem Machine.Calm.beside {m m' : Machine κ} (h : m.Calm) (hb : Beside m m') : m'.Calm := by
  obtain ⟨hlinks, hstate⟩ := hb h.links
  refine ⟨?_, ?_, hlinks⟩
  · have : m'.progress.generation = m.progress.generation := congrArg JobState.generation hstate
    rw [this]
    exact h.generation
  · have : m'.progress.bound = m.progress.bound := congrArg JobState.bound hstate
    rw [this]
    exact h.bound

/-- An operation on buffers: atoms stay in flight, and buffers that they use stay where they are.  Before
it one buffer may be held, and after it another. -/
def Guards (held held' : Option Nat) (m m' : Machine κ) : Prop :=
  m.Calm → m'.Calm ∧ m'.jobState.flights = m.jobState.flights ∧
    (Guarded m.jobState held →
      Guarded m'.jobState held' ∧ Spares m.jobState.flights m.storage m'.storage)

namespace Guards

variable {held held' held₁ held₂ held₃ : Option Nat} {m m' m₁ m₂ m₃ : Machine κ}

theorem trans (h : Guards held₁ held₂ m₁ m₂) (h' : Guards held₂ held₃ m₂ m₃) :
    Guards held₁ held₃ m₁ m₃ := by
  intro hm
  obtain ⟨hm₂, hflights, hguard⟩ := h hm
  obtain ⟨hm₃, hflights', hguard'⟩ := h' hm₂
  refine ⟨hm₃, hflights'.trans hflights, fun hg => ?_⟩
  obtain ⟨hg₂, hspares⟩ := hguard hg
  obtain ⟨hg₃, hspares'⟩ := hguard' hg₂
  rw [hflights] at hspares'
  exact ⟨hg₃, hspares.trans hspares'⟩

theorem of_beside (h : Beside m m') : Guards held held m m' := by
  intro hm
  obtain ⟨-, hstate⟩ := h hm.links
  have hstorage : m'.storage = m.storage := congrArg JobState.storage hstate
  rw [hstate, hstorage]
  exact ⟨hm.beside h, rfl, fun hg => ⟨hg, .refl _ _⟩⟩

instance : Journey (Guards (κ := κ) held held) := ⟨fun m => of_beside (.refl m), trans⟩

/-- An operation that leaves the device alone but for its handles. -/
theorem of_handles {t : HandleTable} (hd : m'.device = { m.device with handles := t })
    (h : Guarded m.jobState held →
      Guarded { m.jobState with table := t, storage := m'.storage } held' ∧
        Spares m.jobState.flights m.storage m'.storage) : Guards held held' m m' := by
  intro hm
  have hstate : m'.jobState = { m.jobState with table := t, storage := m'.storage } := by
    simp only [Machine.jobState, hd]
  have hprogress : m'.progress = m.progress := by
    rw [Machine.progress, hd]
    rfl
  refine ⟨hm.of_progress hprogress, by rw [hstate], ?_⟩
  rw [hstate]
  exact h

/-- An operation that leaves the device alone. -/
theorem of_device (hd : m'.device = m.device)
    (h : Guarded m.jobState held → Guarded { m.jobState with storage := m'.storage } held' ∧
      Spares m.jobState.flights m.storage m'.storage) : Guards held held' m m' :=
  of_handles (t := m.device.handles) hd h

theorem of_same (hd : m'.device = m.device) (hs : m'.storage = m.storage) : Guards held held m m' :=
  of_device hd fun hg => by
    rw [hs]
    exact ⟨hg, .refl _ _⟩

/-- The handles change, and no buffer does. -/
theorem of_table {t : HandleTable} (hd : m'.device = { m.device with handles := t })
    (hs : m'.storage = m.storage)
    (h : Guarded m.jobState held → Balanced t m.jobState.flights ∧
      ∀ k fd, m.jobState.table.Owns k fd → t.Owns k fd) : Guards held held m m' := by
  refine of_handles hd fun hg => ?_
  obtain ⟨hbalanced, howns⟩ := h hg
  rw [hs]
  exact ⟨⟨hg.placed.mono howns, hbalanced, hg.inUse⟩, .refl _ _⟩

/-- A buffer changes its references, and keeps its place. -/
theorem of_refs {x : Nat} {f : Account → Account} {a : Account} (hd : m'.device = m.device)
    (hx : m.storage.accounts[x]? = some a)
    (hstorage : m'.storage = { m.storage with accounts := m.storage.accounts.modify x f })
    (hplace : (f a).handle = a.handle ∧ (f a).shared = a.shared ∧ (f a).cachedIn = a.cachedIn ∧
      (f a).freed = a.freed)
    (hlive : Guarded m.jobState held → a.freed = false ∧ a.cachedIn = none ∧ held ≠ some x) :
    Guards held held m m' := by
  refine of_device hd fun hg => ?_
  rw [hstorage]
  refine ⟨hg.setRefs hx rfl rfl hplace (hlive hg), .of_modify hx rfl hplace.1 fun hf hf' => ?_⟩
  rw [hplace.2.2.2, hf] at hf'
  cases hf'

end Guards

/-! ### References -/

theorem guards_reference {x : Nat} {m m' : Machine κ} {u : Unit} {held : Option Nat}
    (he : (Buffer.reference x).exec m = (.ok u, m')) : Guards held held m m' := by
  obtain ⟨a, hx, hrefs, hedit⟩ := reference_ok he
  exact .of_refs ((keeps_reference (R := SameDevice) x).ok he) hx hedit.storage ⟨rfl, rfl, rfl, rfl⟩
    fun hg => hg.placed.live hx hrefs

/-- A buffer behind a handle with a descriptor was imported, so it is not in the cache. -/
theorem guards_revive {x handle : Nat} {fd : Int} {m m' : Machine κ} {u : Unit}
    (he : (Allocator.revive x).exec m = (.ok u, m')) (hlookup : m.allocator.lookup? handle = some x)
    (howns : m.Owns handle fd) (hfd : 0 ≤ fd) : Guards none none m m' := by
  obtain ⟨a, hx, hedit⟩ := revive_ok he
  refine .of_refs ((keeps_revive (R := SameDevice) x).ok he) hx hedit.storage ⟨rfl, rfl, rfl, rfl⟩ fun hg => ?_
  obtain ⟨a', hx', hhandle, hfreed⟩ := (hg.placed.arena handle x).mp hlookup
  have hsame : some a = some a' := hx.symm.trans hx'
  cases hsame
  refine ⟨hfreed, ?_, nofun⟩
  by_contra hcached
  obtain ⟨fd', howns', hneg⟩ := hg.placed.owned x a hx hfreed
  rw [hhandle] at howns'
  have := hneg (hg.placed.unshared x a hx hcached)
  rw [howns.unique howns'] at hfd
  omega

theorem guards_unreference [Kernel κ] {x : Nat} {m m' : Machine κ} {a : Account} {u : Unit}
    {held : Option Nat} (hx : m.storage.accounts[x]? = some a) (hrefs : a.refs ≠ 1)
    (he : (Buffer.unreference x).exec m = (.ok u, m')) : Guards held held m m' := by
  obtain ⟨hneg, hmore, hedit⟩ := unreference_other hx hrefs he
  have hdevice : m'.device = m.device := by
    unfold Buffer.unreference at he
    obtain ⟨_, m₁, h₁, he⟩ := bind_ok he
    have hlower : Edits x (fun a => { a with refs := a.refs - 1 }) m m₁ :=
      .of_modifyBuffer h₁ fun _ => rfl
    obtain ⟨b, hb, he⟩ := bind_buffer_ok he
    have hb' := (hlower.account hx).symm.trans (Machine.accounts_of_buffer hb)
    have hcount : b.refs = a.refs - 1 := (congrArg Account.refs (Option.some.inj hb')).symm
    rw [if_neg (by rw [hcount]; exact hneg), if_neg (by rw [hcount]; exact hmore)] at he
    cases he
    exact (keeps_modifyBuffer (R := SameDevice) x _).ok h₁
  exact .of_refs hdevice hx hedit.storage ⟨rfl, rfl, rfl, rfl⟩
    fun hg => hg.placed.live hx (Int32.ne_zero_of_pred hneg)

theorem guards_handOut [Kernel κ] {x : Nat} {m m' : Machine κ} {u : Unit}
    (he : (Allocator.handOut x).exec m = (.ok u, m')) : Guards (some x) none m m' := by
  obtain ⟨a, hx, hedit⟩ := handOut_ok he
  refine .of_device ((keeps_handOut (R := SameDevice) x).ok he) fun hg => ?_
  obtain ⟨a', hx', hfreed, hcached⟩ := hg.placed.held x rfl
  have hsame : some a = some a' := hx.symm.trans hx'
  cases hsame
  rw [hedit.storage]
  refine ⟨hg.edit hx rfl rfl rfl rfl rfl (fun _ _ hy => nomatch hy) (fun hp => ?_) nofun
    (fun _ => hcached) (fun hc => absurd hcached hc) fun _ _ _ hne => absurd rfl hne,
    .of_modify hx rfl rfl fun hf hf' => ?_⟩
  · rcases hp with hp | hp | hp
    · rw [hfreed] at hp
      cases hp
    · exact absurd hcached hp
    · cases hp
  · rw [hf] at hf'
    cases hf'

section Kernel

variable [Kernel κ]

/-! ### The cache -/

theorem guards_free {x : Nat} {m m' : Machine κ} (he : (Allocator.free x).exec m = (.ok (), m')) :
    Guards (some x) none m m' := by
  obtain ⟨b, hget, -, -, hstorage⟩ := free_ok he
  have hx := Machine.accounts_of_buffer hget
  refine .of_handles (free_device hget he) fun hg => ?_
  rw [hstorage]
  exact ⟨hg.free hx rfl rfl, .of_modify hx rfl rfl fun hf _ => hg.unused hx hf (.inr rfl)⟩

omit [Kernel κ] in
theorem guards_uncache {x : Nat} {m m' : Machine κ} (he : (Allocator.uncache x).exec m = (.ok (), m')) :
    Guards none (some x) m m' := by
  obtain ⟨b, index, hget, hindex, -, -, hstorage⟩ := uncache_ok he
  have hx := Machine.accounts_of_buffer hget
  have hcached : b.account.cachedIn ≠ none := by
    have : b.account.cachedIn = some index := hindex
    rw [this]
    exact nofun
  refine .of_device ((keeps_uncache (R := SameDevice) x).ok he) fun hg => ?_
  have hrefs : b.account.refs = 0 := hg.placed.settled x b.account hx (.inr (.inl hcached))
  rw [hstorage]
  refine ⟨hg.edit hx rfl rfl rfl rfl rfl (fun y hy he => absurd (Option.some.inj he).symm hy)
    (fun _ => hrefs) (fun _ => ⟨?_, rfl⟩) (fun _ => rfl)
    (fun hc => absurd rfl hc) fun _ _ hc => absurd hc hcached, .of_modify hx rfl rfl fun hf hf' => ?_⟩
  · by_contra hfreed
    exact hcached (hg.placed.apart x _ hx (by simpa using hfreed))
  · rw [hf] at hf'
    cases hf'

omit [Kernel κ] in
theorem guards_reuse {x : Nat} {label : String} {m m' : Machine κ} {u : Unit}
    (he : (Allocator.reuse x label).exec m = (.ok u, m')) : Guards none (some x) m m' := by
  obtain ⟨m₁, huncache, hq⟩ := reuse_ok he
  have hdevice : m'.device = m₁.device :=
    Eq.trans ((keeps_reuse (R := SameDevice) x label).ok he)
      ((keeps_uncache (R := SameDevice) x).ok huncache).symm
  exact (guards_uncache huncache).trans (.of_same hdevice hq.storage)

theorem guards_enterCache {x : Nat} {m m' : Machine κ} {b : Buffer}
    (hget : m.allocator.buffers[x]? = some b) (hshared : b.has BufferFlag.shared = false)
    (he : (Allocator.enterCache x).exec m = (.ok (), m')) : Guards (some x) none m m' := by
  obtain ⟨index, -, -, -, hstorage⟩ := enterCache_ok hget he
  have hx := Machine.accounts_of_buffer hget
  refine .of_device ((keeps_enterCache (R := SameDevice) x).ok he) fun hg => ?_
  obtain ⟨a, hx', hfreed, hcached⟩ := hg.placed.held x rfl
  have hsame : some b.account = some a := hx.symm.trans hx'
  cases hsame
  have hrefs : b.account.refs = 0 := hg.placed.settled x b.account hx (.inr (.inr rfl))
  rw [hstorage]
  refine ⟨hg.edit hx rfl rfl rfl rfl rfl (fun _ _ hy => nomatch hy) (fun _ => hrefs) nofun (fun hf => ?_)
    (fun _ => hshared) fun _ _ _ hne => absurd rfl hne, .of_modify hx rfl rfl fun hf hf' => ?_⟩
  · rw [hfreed] at hf
    cases hf
  · rw [hf] at hf'
    cases hf'

theorem guards_evict (x : Nat) : Keeps (Guards (κ := κ) none none) (Allocator.evict x) := by
  refine (faultless_evict x).keeps fun {m m' _} he => ?_
  unfold Allocator.evict at he
  obtain ⟨_, m₁, h₁, he⟩ := bind_ok he
  obtain ⟨_, m₂, h₂, he⟩ := bind_ok he
  have hcount : Guards (some x) (some x) m₁ m₂ := by
    cases h₂
    exact .of_same rfl rfl
  exact ((guards_uncache h₁).trans hcount).trans (guards_free he)

theorem guards_finish {x : Nat} {m m' : Machine κ} (he : (Allocator.finish x).exec m = (.ok (), m')) :
    Guards (some x) none m m' := by
  obtain ⟨b, hget, ⟨hmay, hput⟩ | ⟨-, hfree⟩⟩ := finish_ok he
  · obtain ⟨m₁, m₂, henter, hold, hrest⟩ := cachePut_ok hput
    have hquiet : Quiet m₂ m' := hrest (quiet_modifyBuffer x fun _ => rfl)
    have hdevice : SameDevice m₂ m' := hrest (keeps_modifyBuffer x _)
    exact ((guards_enterCache hget (Allocator.shared_of_mayCache hmay) henter).trans
      ((keeps_evictOld guards_evict).ok hold)).trans (.of_same hdevice hquiet.storage)
  · exact guards_free hfree

/-! ### New buffers -/

omit [Kernel κ] in
theorem guards_allocHandle {held : Option Nat} (va : UInt64) (fd : Int) :
    Keeps (Guards (κ := κ) held held) (Device.allocHandle va fd) := by
  refine (faultless_allocHandle va fd).keeps fun {m m' _} he => ?_
  obtain ⟨-, rfl⟩ := allocHandle_ok he
  exact .of_table rfl rfl fun hg => ⟨hg.alloc va fd, m.device.handles.owns_alloc va fd⟩

theorem guards_importFile (fd : Int) :
    Keeps (Guards (κ := κ) none none) (Device.importFile fd) := by
  have hbeside {α : Type} {x : Op κ α} (h : Keeps Beside x) : Keeps (Guards none none) x :=
    h.mono fun _ _ => .of_beside
  unfold Device.importFile
  refine keeps_bind (hbeside (keeps_debug _ _)) fun _ => keeps_bind keeps_device fun d => ?_
  refine keeps_bind (hbeside (keeps_findFile fd _ _)) fun found => ?_
  cases found with
  | some handle => exact keeps_pure handle
  | none =>
    refine keeps_bind (hbeside (keeps_call _)) fun r => ?_
    cases r with
    | error e => exact keeps_fail _
    | ok duplicate =>
      refine keeps_bind (hbeside (keeps_importDuplicate _ _)) fun reply =>
        keeps_bind (hbeside (keeps_mapImportReply _ _ _)) fun mapping =>
        keeps_bind (guards_allocHandle _ _) fun handle => keeps_bind ?_ fun _ => keeps_pure handle
      exact keeps_modify fun m => .of_table rfl rfl fun hg =>
        ⟨hg.balanced.setMapping handle mapping, m.device.handles.owns_setMapping handle mapping⟩

omit [Kernel κ] in
theorem guards_addBuffer {b : Buffer} {x : Nat} {fd : Int} {m m' : Machine κ}
    (he : (Allocator.addBuffer b).exec m = (.ok x, m')) (hfree : m.allocator.lookup? b.handle = none)
    (howns : m.Owns b.handle fd) (hshared : b.has BufferFlag.shared = true)
    (hcached : b.cachedIn = none) (hfreed : b.freed = false) : Guards none none m m' := by
  have hdevice : m'.device = m.device := by
    unfold Allocator.addBuffer at he
    cases he
    rfl
  obtain ⟨-, hopens⟩ := addBuffer_ok he
  have hstorage := hopens.storage
  refine .of_device hdevice fun hg => ?_
  refine hg.add (a := b.account) hg.balanced (fun _ _ ho => ho) ⟨fd, howns, fun hs => ?_⟩ hfree hcached
    hfreed nofun (by rw [hstorage]; rfl) (by rw [hstorage]; rfl)
  have : b.account.shared = true := hshared
  rw [hs] at this
  cases this

/-- A handle that stands for no buffer may go. -/
theorem guards_freeHandle {handle : Nat} {m m' : Machine κ} {u : Unit}
    (hfree : m.allocator.lookup? handle = none)
    (he : (Device.freeHandle handle).exec m = (.ok u, m')) : Guards none none m m' := by
  have hstorage := ((dropping_freeHandle handle).ok he).storage
  refine .of_handles (freeHandle_device he) fun hg => ?_
  rw [hstorage]
  refine ⟨hg.freeHandle { hg.placed with owned := fun y b hy hf => ?_ } hg.inUse, .refl _ _⟩
  obtain ⟨fd, hfd, hneg⟩ := hg.placed.owned y b hy hf
  refine ⟨fd, HandleTable.owns_free (fun hhandle => ?_) hfd, hneg⟩
  have hlookup : m.allocator.lookup? b.handle = some y := (hg.placed.arena b.handle y).mpr ⟨b, hy, rfl, hf⟩
  rw [hhandle, hfree] at hlookup
  cases hlookup

omit [Kernel κ] in
theorem guards_wrapRegion {region : Region} {size : Int64} {flags : UInt32} {label : String} {x : Nat}
    {m m' : Machine κ} (he : (Allocator.wrapRegion region size flags label).exec m = (.ok x, m')) :
    Guards none (some x) m m' := by
  unfold Allocator.wrapRegion at he
  obtain ⟨_, m₁, h₁, he⟩ := bind_ok he
  cases h₁
  obtain ⟨handle, m₂, h₂, he⟩ := bind_ok he
  obtain ⟨hhandle, rfl⟩ := allocHandle_ok h₂
  obtain ⟨hx, hopens⟩ := addBuffer_ok he
  have hstorage := hopens.storage
  have hdevice : m'.device =
      { m.device with handles := (m.device.handles.alloc region.gpu noFd).2 } := by
    unfold Allocator.addBuffer at he
    cases he
    rfl
  refine .of_handles hdevice fun hg => ?_
  refine hg.add (hg.alloc region.gpu noFd) (m.device.handles.owns_alloc region.gpu noFd)
    ⟨noFd, ?_, fun _ => by decide⟩ (hg.lookup_of_not_live ?_) rfl rfl
    (fun y hy => ⟨(Option.some.inj hy).symm.trans hx, rfl⟩) (by rw [hstorage]; rfl) (by rw [hstorage]; rfl)
  · rw [hhandle]
    exact HandleTable.owns_alloc_self _ _ (by decide)
  · rw [hhandle]
    exact m.device.handles.not_owns_freeIndex

end Kernel

end Mali
