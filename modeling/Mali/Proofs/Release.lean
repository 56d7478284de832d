import Mali.Proofs.Books
import Mali.Proofs.Parts

/-!
# Releases keep the books

Freeing a buffer, caching it, evicting it and taking it out of the cache again leave the books in
order.  None of them touches an event slot, none of them faults half way, and none of them changes a
buffer that has references.

Each operation is described by `Tidies`, which says in addition which buffer is held before and after
it, so that the operations fit together only in the right order: what leaves the cache is held, and
what is held is freed, cached or handed out.

* `Machine.Books`: the books of a machine are in order.
* `Tidies`: an operation on the storage that keeps the books.
* `free_ok`, `uncache_ok`, `enterCache_ok`: the three moves, and `tidies_free` and the like: that they
  keep the books.
* `keeps_evictOld`, `keeps_evictBuckets`: evictions, by recursion on what is left to visit.
* `tidies_finish`: the end of a release.
-/

namespace Mali

open Op

variable {κ α : Type}

/-- How many callbacks are to come for a buffer: links that wait on a slot, and callbacks that were
taken off one but did not run yet. -/
def Machine.waiting (m : Machine κ) (ready : List Callback) (x : Nat) : Nat :=
  m.progress.slots.waiting (.release x) + ready.count (.release x)

/-- The books of a machine are in order, given the callbacks about to run and the buffer held. -/
def Machine.Books (m : Machine κ) (ready : List Callback) (held : Option Nat) : Prop :=
  m.storage.Books (m.waiting ready) m.Owns held

theorem Machine.Books.quiet {m m' : Machine κ} {ready : List Callback} {held : Option Nat}
    (h : m.Books ready held) (hq : Quiet m m') : m'.Books ready held := by
  have hw : m'.waiting ready = m.waiting ready := by
    funext x
    rw [waiting, waiting, hq.progress]
  rw [Books, hq.storage, hw]
  exact h.mono hq.owns

/-- An operation on the storage keeps the books, and leaves alone the slots, the two counts of every
buffer, and every buffer that is neither cached nor held.  Before it one buffer may be held, and after it
another. -/
structure Tidies (ready : List Callback) (held held' : Option Nat) (m m' : Machine κ) : Prop
    extends Undisturbed m m' where
  books : m.Books ready held → m'.Books ready held'
  kept : ∀ (x : Nat) (a : Account), m.storage.accounts[x]? = some a → a.cachedIn = none →
    held ≠ some x → m'.storage.accounts[x]? = some a
  /-- Only what was cached is held afterwards. -/
  taken : ∀ (x : Nat) (a : Account), m.storage.accounts[x]? = some a → held' = some x →
    held ≠ some x → a.cachedIn ≠ none
  counts : m'.storage.accounts.map Account.counts = m.storage.accounts.map Account.counts
  uses : ∀ x, m'.usage x = m.usage x ∨ m'.usage x = []

namespace Tidies

variable {ready : List Callback} {h₁ h₂ h₃ : Option Nat} {m₁ m₂ m₃ : Machine κ}

theorem of_quiet (h : Quiet m₁ m₂) : Tidies ready h₁ h₁ m₁ m₂ where
  toUndisturbed := h.toUndisturbed
  books hb := hb.quiet h
  kept x a hx _ _ := by rwa [h.storage]
  taken x a _ h₁ h₂ := absurd h₁ h₂
  counts := by rw [h.storage]
  uses x := .inl (by rw [Machine.usage, h.storage, Machine.usage])

theorem trans (h : Tidies ready h₁ h₂ m₁ m₂) (h' : Tidies ready h₂ h₃ m₂ m₃) :
    Tidies ready h₁ h₃ m₁ m₃ where
  toUndisturbed := h.toUndisturbed.trans h'.toUndisturbed
  books hb := h'.books (h.books hb)
  kept x a hx ha hne := by
    have hne' : h₂ ≠ some x := fun e => h.taken x a hx e hne ha
    exact h'.kept x a (h.kept x a hx ha hne) ha hne'
  taken x a hx he hne := by
    intro ha
    have hne' : h₂ ≠ some x := fun e => h.taken x a hx e hne ha
    exact h'.taken x a (h.kept x a hx ha hne) he hne' ha
  counts := h'.counts.trans h.counts
  uses x := by
    rcases h'.uses x with h₃ | h₃
    · rw [h₃]
      exact h.uses x
    · exact .inr h₃

/-- A buffer with references stays as it is if the books are in order. -/
theorem used (h : Tidies ready h₁ h₂ m₁ m₂) (hb : m₁.Books ready h₁) {x : Nat} {a : Account}
    (hx : m₁.storage.accounts[x]? = some a) (ha : a.refs ≠ 0) : m₂.storage.accounts[x]? = some a := by
  refine h.kept x a hx ?_ fun e => ha (hb.settled x a hx (.inr (.inr e))).1
  by_contra hcached
  exact ha (hb.settled x a hx (.inr (.inl hcached))).1

instance : Journey (Tidies (κ := κ) ready h₁ h₁) := ⟨fun m => of_quiet (.refl m), trans⟩

end Tidies

@[grind ←] theorem tidies_of_quiet {x : Op κ α} (ready : List Callback) (held : Option Nat)
    (h : Keeps Quiet x) : Keeps (Tidies ready held held) x := h.mono fun _ _ => .of_quiet

/-! ## Handles that go -/

namespace HandleTable

/-- What is dropped at the end is freed. -/
theorem dropFreedTail_append (es : List Handle) :
    ∃ tail, es = dropFreedTail es ++ tail ∧ ∀ e ∈ tail, isFreed e = true := by
  refine ⟨(es.reverse.takeWhile isFreed).reverse, ?_, fun e he => ?_⟩
  · rw [dropFreedTail, ← List.reverse_append, List.takeWhile_append_dropWhile, List.reverse_reverse]
  · exact List.mem_takeWhile_imp (List.mem_reverse.mp he)

theorem owns_dropFreedTail {es : List Handle} {k : Nat} {fd : Int}
    (h : (⟨es⟩ : HandleTable).Owns k fd) : (⟨dropFreedTail es⟩ : HandleTable).Owns k fd := by
  obtain ⟨x, hget, rfl, hlive⟩ := h
  refine ⟨x, ?_, rfl, hlive⟩
  have hget : es[k]? = some x := hget
  obtain ⟨tail, hsplit, htail⟩ := dropFreedTail_append es
  rcases Nat.lt_or_ge k (dropFreedTail es).length with hlt | hge
  · rwa [hsplit, List.getElem?_append_left hlt] at hget
  · -- past what is kept there are only freed entries
    rw [hsplit, List.getElem?_append_right hge] at hget
    exact absurd (by simpa [isFreed] using htail x (List.mem_of_getElem? hget)) hlive

/-- Freeing an entry leaves the other ones live. -/
theorem owns_free {t : HandleTable} {handle k : Nat} {fd : Int} (hne : k ≠ handle) (h : t.Owns k fd) :
    (t.free handle).2.Owns k fd := by
  unfold free
  split
  · exact h
  · rename_i i hi
    refine owns_dropFreedTail ?_
    obtain ⟨x, hget, hlive⟩ := h
    refine ⟨x, ?_, hlive⟩
    have : i = handle := by
      unfold index? at hi
      split at hi
      · simpa using hi.symm
      · cases hi
    show (t.entries.set i _)[k]? = some x
    rwa [List.getElem?_set_ne (by omega)]

end HandleTable

/-- Quiet apart from one handle, which may go. -/
structure Dropping (handle : Nat) (m m' : Machine κ) : Prop extends Undisturbed m m' where
  storage : m'.storage = m.storage
  owns : ∀ k fd, k ≠ handle → m.Owns k fd → m'.Owns k fd

namespace Dropping

variable {handle : Nat} {m₁ m₂ m₃ : Machine κ}

theorem of_quiet (h : Quiet m₁ m₂) : Dropping handle m₁ m₂ :=
  ⟨h.toUndisturbed, h.storage, fun k fd _ => h.owns k fd⟩

theorem trans (h : Dropping handle m₁ m₂) (h' : Dropping handle m₂ m₃) : Dropping handle m₁ m₃ where
  toUndisturbed := h.toUndisturbed.trans h'.toUndisturbed
  storage := h'.storage.trans h.storage
  owns k fd hk ho := h'.owns k fd hk (h.owns k fd hk ho)

instance : Journey (Dropping (κ := κ) handle) := ⟨fun m => of_quiet (.refl m), trans⟩

end Dropping

@[grind ←] theorem dropping_of_quiet {x : Op κ α} (handle : Nat) (h : Keeps Quiet x) :
    Keeps (Dropping handle) x := h.mono fun _ _ => .of_quiet

section Kernel

variable [Kernel κ]

@[grind ←] theorem faultless_freeHandle (handle : Int) :
    Faultless (Device.freeHandle handle : Op κ Unit) := by
  unfold Device.freeHandle Device.setHandles Device.checkHandles
  grind

theorem dropping_freeHandle (handle : Nat) :
    Keeps (Dropping (κ := κ) handle) (Device.freeHandle handle) := by
  intro m
  unfold Device.freeHandle
  refine keepsAt_bind (keeps_device m) fun d m' hd => ?_
  cases hd
  rcases hfree : m.device.handles.free handle with ⟨_ | fd, t⟩
  · exact keeps_pure () m
  · refine keepsAt_bind (fun _ => ⟨.of_eq rfl rfl, rfl, fun k fd' hk ho => ?_⟩) fun _ m' _ => ?_
    · have := HandleTable.owns_free hk ho
      rwa [hfree] at this
    · have : Keeps (Dropping (κ := κ) handle) (do
          Device.checkHandles
          if 0 ≤ fd then Device.closeHandleFd handle fd) := by
        grind
      exact this m'

/-! ## The three moves -/

omit [Kernel κ] in
/-- A move that changes the account of one held or cached buffer, and no other. -/
theorem Tidies.of_modify {ready : List Callback} {held held' : Option Nat} {m m' : Machine κ}
    {id : Nat} {f : Account → Account} (hm : Undisturbed m m')
    (haccounts : m'.storage.accounts = m.storage.accounts.modify id f)
    (hcount : ∀ a, (f a).counts = a.counts)
    (husage : ∀ a, (f a).usage = a.usage ∨ (f a).usage = [])
    (hcached : held ≠ some id → ∀ a, m.storage.accounts[id]? = some a → a.cachedIn ≠ none)
    (hheld : ∀ x, held' = some x → x = id)
    (hbooks : m.Books ready held → m'.Books ready held') : Tidies ready held held' m m' where
  toUndisturbed := hm
  books := hbooks
  kept x a hx ha hne := by
    have hid : id ≠ x := by
      rintro rfl
      exact hcached hne a hx ha
    rw [haccounts, List.getElem?_modify, hx]
    simp [hid]
  taken x a hx he hne := by
    obtain rfl := hheld x he
    exact hcached hne a hx
  counts := by rw [haccounts, map_modify_eq _ hcount]
  uses x := by
    rw [Machine.usage, haccounts, List.getElem?_modify, Machine.usage]
    cases m.storage.accounts[x]? with
    | none => exact .inl rfl
    | some a =>
      split
      · exact husage a
      · exact .inl rfl

omit [Kernel κ] in
theorem Undisturbed.waiting {m m' : Machine κ} (h : Undisturbed m m') (ready : List Callback) :
    m'.waiting ready = m.waiting ready := by
  funext x
  rw [Machine.waiting, Machine.waiting, h.progress]

@[grind ←] theorem faultless_free (id : Nat) : Faultless (Allocator.free id : Op κ Unit) := by
  unfold Allocator.free
  grind

/-- Freeing marks the buffer, takes it out of the arena, and lets its handle go. -/
theorem free_ok {id : Nat} {m m' : Machine κ} (he : (Allocator.free id).exec m = (.ok (), m')) :
    ∃ b, m.allocator.buffers[id]? = some b ∧ Undisturbed m m' ∧
      (∀ k fd, k ≠ b.handle → m.Owns k fd → m'.Owns k fd) ∧ m'.storage = { m.storage with
        accounts := m.storage.accounts.modify id fun a => { a with usage := [], freed := true }
        arena := m.storage.arena.filter fun e => e.1 ≠ b.handle
        frees := m.storage.frees + 1 } := by
  unfold Allocator.free at he
  obtain ⟨b, hget, he⟩ := bind_buffer_ok he
  obtain ⟨_, m₁, h₁, he⟩ := bind_ok he
  obtain ⟨_, m₂, h₂, he⟩ := bind_ok he
  obtain ⟨_, m₃, h₃, he⟩ := bind_ok he
  have hq : Quiet m m₃ := (((quiet_writeHandle _ _).ok h₁).trans ((quiet_unmapBuffer _).ok h₂)).trans
    ((quiet_freeBufferRegion _).ok h₃)
  obtain ⟨_, m₄, h₄, he⟩ := bind_ok he
  obtain ⟨_, m₅, h₅, he⟩ := bind_ok he
  have hd := (dropping_freeHandle _).ok h₅
  obtain ⟨_, m₆, h₆, he⟩ := bind_ok he
  have hm₄ : Undisturbed m₃ m₄ ∧ (∀ k fd, m₃.Owns k fd → m₄.Owns k fd) ∧ m₄.storage =
      { m₃.storage with arena := m₃.storage.arena.filter fun e => e.1 ≠ b.handle } := by
    cases h₄
    exact ⟨.of_eq rfl rfl, fun _ _ ho => ho, rfl⟩
  have hm' : Undisturbed m₅ m' ∧ (∀ k fd, m₅.Owns k fd → m'.Owns k fd) ∧ m'.storage =
      { m₅.storage with
        accounts := m₅.storage.accounts.modify id fun a => { a with usage := [], freed := true }
        frees := m₅.storage.frees + 1 } := by
    cases h₆
    cases he
    refine ⟨.of_eq rfl rfl, fun _ _ ho => ho, ?_⟩
    have := m₅.allocator.storage_mapBuffer id
      (f := fun b => { b with usage := [], dmabufFd := -1, freed := true })
      (g := fun a => { a with usage := [], freed := true }) fun _ => rfl
    exact congrArg (fun S => { S with frees := S.frees + 1 }) this
  refine ⟨b, hget, ((hq.toUndisturbed.trans hm₄.1).trans hd.toUndisturbed).trans hm'.1,
    fun k fd hk ho => hm'.2.1 k fd (hd.owns k fd hk (hm₄.2.1 k fd (hq.owns k fd ho))), ?_⟩
  rw [hm'.2.2, hd.storage, hm₄.2.2, hq.storage]

theorem tidies_free {id : Nat} {m m' : Machine κ} (ready : List Callback)
    (he : (Allocator.free id).exec m = (.ok (), m')) : Tidies ready (some id) none m m' := by
  obtain ⟨b, hget, hm, howns, hstorage⟩ := free_ok he
  refine Tidies.of_modify (f := fun a => { a with usage := [], freed := true }) hm
    (by rw [hstorage]) (fun _ => rfl) (fun _ => .inr rfl) (fun hne => absurd rfl hne)
    (fun _ he => nomatch he) fun hb => ?_
  rw [Machine.Books, hstorage, hm.waiting]
  exact hb.free (Machine.accounts_of_buffer hget) howns rfl

omit [Kernel κ] in
/-- What leaves the cache was in it. -/
theorem uncache_ok {id : Nat} {m m' : Machine κ} (he : (Allocator.uncache id).exec m = (.ok (), m')) :
    ∃ b index, m.allocator.buffers[id]? = some b ∧ b.cachedIn = some index ∧ Undisturbed m m' ∧
      (∀ k fd, m.Owns k fd → m'.Owns k fd) ∧ m'.storage = { m.storage with
        accounts := m.storage.accounts.modify id fun a => { a with cachedIn := none }
        cache := m.storage.cache.remove index id } := by
  unfold Allocator.uncache at he
  obtain ⟨b, hget, he⟩ := bind_buffer_ok he
  obtain ⟨index, hindex, he⟩ := bind_require_ok he
  cases he
  refine ⟨b, index, hget, hindex, .of_eq rfl rfl, fun _ _ ho => ho, ?_⟩
  have := m.allocator.storage_mapBuffer id (f := fun b => { b with cachedIn := none })
    (g := fun a => { a with cachedIn := none }) fun _ => rfl
  exact congrArg (fun S => { S with cache := S.cache.remove index id }) this

omit [Kernel κ] in
theorem tidies_uncache {id : Nat} {m m' : Machine κ} (ready : List Callback)
    (he : (Allocator.uncache id).exec m = (.ok (), m')) : Tidies ready none (some id) m m' := by
  obtain ⟨b, index, hget, hindex, hm, howns, hstorage⟩ := uncache_ok he
  have hx := Machine.accounts_of_buffer hget
  have hcached : b.account.cachedIn = some index := hindex
  refine Tidies.of_modify (f := fun a => { a with cachedIn := none }) hm
    (by rw [hstorage]) (fun _ => rfl) (fun _ => .inl rfl) (fun _ a ha => ?_)
    (fun _ he => (Option.some.inj he).symm) fun hb => ?_
  · rw [hx] at ha
    cases ha
    simp [hcached]
  · rw [Machine.Books, hstorage, hm.waiting]
    exact (Storage.Books.unshelve hb hx hcached rfl).mono howns

/-- What enters the cache is in the class of its size. -/
theorem enterCache_ok {id : Nat} {m m' : Machine κ} {b : Buffer}
    (hget : m.allocator.buffers[id]? = some b)
    (he : (Allocator.enterCache id).exec m = (.ok (), m')) :
    ∃ index, index = m.storage.options.bucketIndex (if b.size < pageAlign then pageAlign else b.size) ∧
      Undisturbed m m' ∧ (∀ k fd, m.Owns k fd → m'.Owns k fd) ∧ m'.storage = { m.storage with
        accounts := m.storage.accounts.modify id fun a => { a with cachedIn := some index }
        cache := m.storage.cache.put index id } := by
  unfold Allocator.enterCache at he
  obtain ⟨b', hget', he⟩ := bind_buffer_ok he
  rw [hget] at hget'
  cases hget'
  refine ⟨_, rfl, ?_⟩
  cases he
  refine ⟨.of_eq rfl rfl, fun _ _ ho => ho, ?_⟩
  let index := m.storage.options.bucketIndex (if b.size < pageAlign then pageAlign else b.size)
  have := m.allocator.storage_mapBuffer id
    (f := fun b => { b with
      cachedIn := some index
      lastUsed := (Kernel.now m.kernel - m.allocator.epoch : Nat) / second
      access := if m.device.generation = .csf then 0 else b.access })
    (g := fun a => { a with cachedIn := some index }) fun _ => rfl
  exact congrArg (fun S => { S with cache := S.cache.put index id }) this

theorem tidies_enterCache {id : Nat} {m m' : Machine κ} {b : Buffer} (ready : List Callback)
    (hget : m.allocator.buffers[id]? = some b) (hshared : b.has BufferFlag.shared = false)
    (he : (Allocator.enterCache id).exec m = (.ok (), m')) : Tidies ready (some id) none m m' := by
  obtain ⟨index, rfl, hm, howns, hstorage⟩ := enterCache_ok hget he
  have hx := Machine.accounts_of_buffer hget
  refine Tidies.of_modify hm (congrArg Storage.accounts hstorage) (fun _ => rfl) (fun _ => .inl rfl)
    (fun hne => absurd rfl hne) (fun _ he => nomatch he) fun hb => ?_
  rw [Machine.Books, hstorage, hm.waiting]
  refine (Storage.Books.shelve hb hx ?_ hshared rfl).mono howns
  rw [hb.classes]
  exact AllocatorOptions.bucketIndex_lt hb.range _

/-! ## Evictions -/

omit [Kernel κ] in
@[grind ←] theorem faultless_uncache (id : Nat) : Faultless (Allocator.uncache id : Op κ Unit) := by
  unfold Allocator.uncache
  grind

@[grind ←] theorem faultless_evict (id : Nat) : Faultless (Allocator.evict id : Op κ Unit) := by
  unfold Allocator.evict
  grind

@[grind ←] theorem tidies_evict (ready : List Callback) (id : Nat) :
    Keeps (Tidies (κ := κ) ready none none) (Allocator.evict id) := by
  refine (faultless_evict id).keeps fun {m m' _} he => ?_
  unfold Allocator.evict at he
  obtain ⟨_, m₁, h₁, he⟩ := bind_ok he
  obtain ⟨_, m₂, h₂, he⟩ := bind_ok he
  have hq : Quiet m₁ m₂ := Keeps.ok (by exact quiet_modifyAllocator fun _ => rfl) h₂
  exact ((tidies_uncache ready h₁).trans (.of_quiet hq)).trans (tidies_free ready he)

section Journey

variable {R : Machine κ → Machine κ → Prop} [Journey R]

/-- Evicting the stale buffers, by recursion on those left to visit. -/
theorem keeps_evictWhile (h : ∀ id, Keeps R (Allocator.evict id : Op κ Unit)) (time maxAge : Int)
    (entries : List Nat) : Keeps R (Allocator.evictWhile time maxAge entries : Op κ Unit) := by
  fun_induction Allocator.evictWhile (κ := κ) time maxAge entries with
  | case1 => exact keeps_pure ()
  | case2 entry rest ih =>
    refine keeps_bind (keeps_cachedBuffer entry) fun id => keeps_bind (keeps_buffer id) fun b => ?_
    split
    · exact keeps_pure ()
    · exact keeps_bind (h id) fun _ => ih id

theorem keeps_evictOld (h : ∀ id, Keeps R (Allocator.evict id : Op κ Unit)) :
    Keeps R (Allocator.evictOld : Op κ Unit) :=
  keeps_bind keeps_allocator fun _ => keeps_bind keeps_seconds fun _ => keeps_evictWhile h _ _ _

/-- Evicting the buffers of a class, by recursion on those left to visit. -/
theorem keeps_evictEntries (h : ∀ id, Keeps R (Allocator.evict id : Op κ Unit)) (index : Nat)
    (entries : List Nat) : Keeps R (Allocator.evictEntries index entries : Op κ Unit) := by
  fun_induction Allocator.evictEntries (κ := κ) index entries with
  | case1 => exact keeps_pure ()
  | case2 entry rest ih =>
    exact keeps_bind (keeps_cachedBuffer entry) fun id => keeps_bind (keeps_buffer id) fun b =>
      keeps_bind (h id) fun _ => ih id b

theorem keeps_evictBuckets (h : ∀ id, Keeps R (Allocator.evict id : Op κ Unit)) (indices : List Nat) :
    Keeps R (Allocator.evictBuckets indices : Op κ Unit) := by
  induction indices with
  | nil => exact keeps_pure ()
  | cons index rest ih =>
    exact keeps_bind keeps_allocator fun a => keeps_bind (keeps_evictEntries h index _) fun _ => ih

end Journey

theorem faultless_evictWhile (time maxAge : Int) (entries : List Nat) :
    Faultless (Allocator.evictWhile time maxAge entries : Op κ Unit) := by
  fun_induction Allocator.evictWhile (κ := κ) time maxAge entries with
  | case1 => exact faultless_pure ()
  | case2 entry rest ih =>
    refine faultless_bind (faultless_cachedBuffer entry) fun id =>
      faultless_bind (faultless_buffer id) fun b => ?_
    split
    · exact faultless_pure ()
    · exact faultless_bind (faultless_evict id) fun _ => ih id

theorem tidies_evictOld (ready : List Callback) :
    Keeps (Tidies (κ := κ) ready none none) Allocator.evictOld :=
  keeps_evictOld (tidies_evict ready)

theorem faultless_evictOld : Faultless (Allocator.evictOld : Op κ Unit) :=
  faultless_bind faultless_allocator fun _ => faultless_bind faultless_seconds fun _ =>
    faultless_evictWhile _ _ _

theorem tidies_evictBuckets (ready : List Callback) (indices : List Nat) :
    Keeps (Tidies (κ := κ) ready none none) (Allocator.evictBuckets indices) :=
  keeps_evictBuckets (tidies_evict ready) indices

/-! ## The end of a release -/

theorem faultless_finish (id : Nat) : Faultless (Allocator.finish id : Op κ Unit) := by
  have hput : Faultless (Allocator.cachePut id : Op κ Unit) := by
    unfold Allocator.cachePut Allocator.enterCache Allocator.checkCache
    have := faultless_evictOld (κ := κ)
    refine faultless_bind ?_ fun _ => faultless_bind this fun _ => ?_
    · refine faultless_bind (faultless_buffer id) fun b => ?_
      grind
    · grind
  unfold Allocator.finish
  grind

theorem tidies_cachePut {id : Nat} {m m' : Machine κ} {b : Buffer} (ready : List Callback)
    (hget : m.allocator.buffers[id]? = some b) (hshared : b.has BufferFlag.shared = false)
    (he : (Allocator.cachePut id).exec m = (.ok (), m')) : Tidies ready (some id) none m m' := by
  obtain ⟨m₁, m₂, henter, hold, hrest⟩ := cachePut_ok he
  have hq : Quiet m₂ m' := hrest (quiet_modifyBuffer id fun _ => rfl)
  exact ((tidies_enterCache ready hget hshared henter).trans ((tidies_evictOld ready).ok hold)).trans (.of_quiet hq)

theorem tidies_finish {id : Nat} {m m' : Machine κ} (ready : List Callback)
    (he : (Allocator.finish id).exec m = (.ok (), m')) : Tidies ready (some id) none m m' := by
  obtain ⟨b, hget, ⟨hmay, hput⟩ | ⟨-, hfree⟩⟩ := finish_ok he
  · exact tidies_cachePut ready hget (Allocator.shared_of_mayCache hmay) hput
  · exact tidies_free ready hfree

end Kernel

end Mali
