import Mali.Proofs.Proceedings
import Mali.Proofs.Searches
import Mali.Proofs.Termination

/-!
# The books along a search

A search for a buffer handles events, waits for buffers, empties the cache and allocates.  The books are in order
throughout, and the list by age has exactly the cached buffers in it, each once, whatever the clock says: so what a
search finds or makes is in no place, with nothing to come for it, and after everything was evicted the cache is empty.

No count overflows on the way.  References stay as they are, new buffers start without any, and nothing is added to
what is still to come.

* `Storage.Listed`, `Lists`: exactly the cached buffers are in the list by age.
* `Config.Poised`: the books, the slots and that list are as they should be, and no count is close to its end.
* `Config.Eases`: steps that no caller asks for keep all this, and add nothing to what is still to come.
* `Config.Poised.step`, `Course.poised`: any step keeps it, and so does a run, as long as no count overflows.
* `Upholds`, `proceeding_upholds`: a search for a buffer eases a configuration.
-/

namespace Mali

open Op

variable {κ : Type}

/-! ## The list by age -/

namespace BufferCache

theorem count_eraseLast (x y : Nat) (l : List Nat) :
    (eraseLast x l).count y = l.count y - if x = y then 1 else 0 := by
  rw [eraseLast, List.count_reverse, List.count_erase, List.count_reverse]
  by_cases hxy : x = y
  · rw [if_pos hxy, if_pos (beq_iff_eq.mpr hxy)]
  · rw [if_neg hxy, if_neg (mt beq_iff_eq.mp hxy)]

end BufferCache

/-- The class that a buffer is cached in, by its account. -/
def Storage.place? (S : Storage) (x : Nat) : Option Nat := (S.accounts[x]?).bind (·.cachedIn)

/-- Exactly the cached buffers are in the list by age, each once. -/
def Storage.Listed (S : Storage) : Prop :=
  ∀ x, S.cache.recency.count x = if S.place? x = none then 0 else 1

namespace Storage

variable {S S' : Storage} {x : Nat} {a : Account}

theorem place?_of_account (h : S.accounts[x]? = some a) : S.place? x = a.cachedIn := by rw [place?, h, Option.bind_some]

/-- The places after the account of one buffer changed. -/
theorem place?_modify {f : Account → Account} (hx : S.accounts[x]? = some a)
    (h : S'.accounts = S.accounts.modify x f) (y : Nat) :
    S'.place? y = if x = y then (f a).cachedIn else S.place? y := by
  rw [place?, h, getElem?_modify_of_some hx]
  split <;> rfl

namespace Listed

theorem of_places (h : S.Listed) (hcache : S'.cache.recency = S.cache.recency)
    (hplaces : ∀ y, S'.place? y = S.place? y) : S'.Listed := by
  intro y
  rw [hcache, hplaces, h y]

theorem modify {f : Account → Account} (h : S.Listed) (hcache : S'.cache.recency = S.cache.recency)
    (haccounts : S'.accounts = S.accounts.modify x f) (hf : ∀ a, (f a).cachedIn = a.cachedIn) : S'.Listed := by
  refine h.of_places hcache fun y => ?_
  rw [place?, haccounts, List.getElem?_modify, place?]
  cases S.accounts[y]? with
  | none => rfl
  | some b =>
    by_cases hxy : x = y
    · simp [hxy, hf]
    · simp [hxy]

/-- A new buffer is not cached. -/
theorem append (h : S.Listed) (hcache : S'.cache.recency = S.cache.recency)
    (haccounts : S'.accounts = S.accounts ++ [a]) (ha : a.cachedIn = none) : S'.Listed := by
  refine h.of_places hcache fun y => ?_
  rw [place?, haccounts, getElem?_concat, place?]
  split
  · subst_vars
    rw [List.getElem?_eq_none (Nat.le_refl _)]
    exact ha
  · rfl

/-- A cached buffer leaves the cache. -/
theorem remove {f : Account → Account} (h : S.Listed) (hx : S.accounts[x]? = some a)
    (hcached : a.cachedIn ≠ none) (hcache : S'.cache.recency = BufferCache.eraseLast x S.cache.recency)
    (haccounts : S'.accounts = S.accounts.modify x f) (hf : (f a).cachedIn = none) : S'.Listed := by
  intro y
  rw [hcache, BufferCache.count_eraseLast, h y, place?_modify hx haccounts, hf]
  by_cases hxy : x = y
  · rw [← hxy, place?_of_account hx]
    simp [hcached]
  · simp [hxy]

/-- A buffer that is not cached enters the cache. -/
theorem put {f : Account → Account} (h : S.Listed) (hx : S.accounts[x]? = some a) (hloose : a.cachedIn = none)
    (hcache : S'.cache.recency = S.cache.recency ++ [x]) (haccounts : S'.accounts = S.accounts.modify x f)
    (hf : (f a).cachedIn ≠ none) : S'.Listed := by
  intro y
  rw [hcache, List.count_append, h y, place?_modify hx haccounts]
  by_cases hxy : x = y
  · rw [← hxy, place?_of_account hx]
    simp [hloose, hf]
  · simp [hxy]

end Listed

end Storage

/-- What an operation does to the list by age leaves exactly the cached buffers in it. -/
def Lists (m m' : Machine κ) : Prop := m.storage.Listed → m'.storage.Listed

namespace Lists

variable {m m' : Machine κ}

theorem of_storage (h : m'.storage = m.storage) : Lists m m' := fun hm => by rwa [h]

instance : OfAllocator (Lists (κ := κ)) where
  refl _ h := h
  trans h h' hm := h' (h hm)
  of_allocator ha := of_storage (by rw [Machine.storage, ha, Machine.storage])

theorem of_edits {x : Nat} {f : Account → Account} (h : Edits x f m m') (hf : ∀ a, (f a).cachedIn = a.cachedIn) :
    Lists m m' := fun hm => hm.modify (by rw [h.storage]) (by rw [h.storage]) hf

end Lists

theorem lists_uncache {x : Nat} {m m' : Machine κ} (he : (Allocator.uncache x).exec m = (.ok (), m')) : Lists m m' := by
  obtain ⟨b, index, hb, hindex, -, -, hstorage⟩ := uncache_ok he
  have hcached : b.account.cachedIn = some index := hindex
  intro hm
  exact hm.remove (Machine.accounts_of_buffer hb) (by rw [hcached]; exact nofun)
    (by rw [hstorage]; rfl) (by rw [hstorage]) rfl

section Kernel

variable [Kernel κ]

theorem lists_free {x : Nat} {m m' : Machine κ} (he : (Allocator.free x).exec m = (.ok (), m')) : Lists m m' := by
  obtain ⟨b, -, -, -, hstorage⟩ := free_ok he
  exact fun hm => hm.modify (congrArg (·.cache.recency) hstorage) (congrArg Storage.accounts hstorage) fun _ => rfl

theorem lists_evict (x : Nat) : Keeps (Lists (κ := κ)) (Allocator.evict x) := by
  refine (faultless_evict x).keeps fun {m m'} _ he => ?_
  obtain ⟨_, m₁, h₁, he⟩ := bind_ok he
  obtain ⟨_, m₂, h₂, he⟩ := bind_ok he
  have hcount : Quiet m₁ m₂ := Keeps.ok (by exact quiet_modifyAllocator fun _ => rfl) h₂
  exact Journey.trans (lists_uncache h₁) (Journey.trans (.of_storage hcount.storage) (lists_free he))

/-- A buffer that is not cached may enter the cache at the end of its release. -/
theorem lists_finish {x : Nat} {m m' : Machine κ} (hx : m.storage.place? x = none)
    (he : (Allocator.finish x).exec m = (.ok (), m')) : Lists m m' := by
  obtain ⟨b, hb, ⟨-, hput⟩ | ⟨-, hfree⟩⟩ := finish_ok he
  · obtain ⟨m₁, m₂, h₁, h₂, hlabel⟩ := cachePut_ok hput
    have henter : Lists m m₁ := by
      obtain ⟨index, -, -, -, hstorage⟩ := enterCache_ok hb h₁
      have haccount := Machine.accounts_of_buffer hb
      rw [Storage.place?_of_account haccount] at hx
      refine fun hm => hm.put haccount hx (by rw [hstorage]; rfl) (by rw [hstorage]) ?_
      exact Option.some_ne_none index
    have hq : Quiet m₂ m' := hlabel (quiet_modifyBuffer x fun _ => rfl)
    have hold : Lists m₁ m₂ := (keeps_evictOld lists_evict).ok h₂
    exact Journey.trans henter (Journey.trans hold (.of_storage hq.storage))
  · exact lists_free hfree

omit [Kernel κ] in
theorem lists_reuse {x : Nat} {label : String} {m m' : Machine κ} {u : Unit}
    (he : (Allocator.reuse x label).exec m = (.ok u, m')) : Lists m m' := by
  obtain ⟨m₁, huncache, hq⟩ := reuse_ok he
  exact Journey.trans (lists_uncache huncache) (.of_storage hq.storage)

omit [Kernel κ] in
theorem lists_useBuffer (deps : List Usage) (x : Nat) (u : Usage) :
    Keeps (Lists (κ := κ)) (Submitter.useBuffer deps x u) := by
  refine keeps_bind (keeps_buffer x) fun _ => keeps_bind ?_ fun _ => keeps_pure _
  refine (faultless_modifyBuffer x _).keeps fun {m m'} _ he => ?_
  have hedit : Edits x (fun a => { a with usage := Usage.record a.usage u }) m m' := .of_modifyBuffer he fun _ => rfl
  exact .of_edits hedit fun _ => rfl

/-- A callback runs for a buffer that is not cached. -/
theorem lists_runCallback {c : Callback} {m m' : Machine κ}
    (hloose : ∀ x, c = .release x → m.storage.place? x = none)
    (he : (Device.runCallback c).exec m = (.ok (), m')) : Lists m m' := by
  cases c with
  | report id => exact .of_storage ((keeps_report (R := Quiet) _).ok he).storage
  | release x =>
    obtain ⟨a, m₁, ha, hedit, ⟨-, rfl⟩ | ⟨-, -, m₂, hq, hf⟩⟩ := queueDrained_ok he
    · exact .of_edits hedit fun _ => rfl
    · have hedited : Lists m m₁ := .of_edits hedit fun _ => rfl
      refine Journey.trans hedited (Journey.trans (.of_storage hq.storage) (lists_finish ?_ hf))
      rw [hq.storage, Storage.place?_modify ha (by rw [hedit.storage]), if_pos rfl,
        ← Storage.place?_of_account (S := m.storage) ha]
      exact hloose x rfl

end Kernel

/-! ## Poised configurations -/

/-- The books and the slots are as they should be, so is the list by age, and the counts have room. -/
structure Config.Poised (c : Config κ) : Prop extends c.Booked where
  streams : c.progress.generation = .csf → c.progress.streams.length ≤ slotCount
  waiting : ∀ x, c.waiting x < 2 ^ 32
  listed : c.machine.storage.Listed

section Kernel

variable [Kernel κ]

omit [Kernel κ] in
/-- Counts of references that are not negative are not at their end. -/
theorem SameReferences.ne_minValue {m m' : Machine κ} {ready : List Callback} {held : Option Nat}
    (h : SameReferences m m') (hb : m.Books ready held) :
    ∀ (x : Nat) (a : Account), m'.storage.accounts[x]? = some a → a.refs ≠ Int32.minValue := by
  intro x a hx hmin
  have hrefs : (m.storage.accounts.map Account.refs)[x]? = some a.refs := by
    rw [← h, List.getElem?_map, hx, Option.map_some]
  rw [List.getElem?_map, Option.map_eq_some_iff] at hrefs
  obtain ⟨b, hb', hsame⟩ := hrefs
  have hle := hb.refs_nonneg hb'
  rw [hsame, hmin] at hle
  exact absurd hle (by decide)

omit [Kernel κ] in
theorem Tidies.sameReferences {ready : List Callback} {held held' : Option Nat} {m m' : Machine κ}
    (h : Tidies ready held held' m m') : SameReferences m m' := by
  have := congrArg (List.map Prod.fst) h.counts
  rwa [List.map_map, List.map_map] at this

omit [Kernel κ] in
/-- A callback is to come only for a buffer that is not cached. -/
theorem Config.Poised.place?_of_waiting {c : Config κ} (hc : c.Poised) {x : Nat} (hx : c.waiting x ≠ 0) :
    c.machine.storage.place? x = none := by
  cases ha : c.machine.storage.accounts[x]? with
  | none => rw [Storage.place?, ha, Option.bind_none]
  | some a =>
    rw [Storage.place?_of_account ha]
    by_contra hcached
    exact hx (hc.books.settled x a ha (.inr (.inl hcached))).2

omit [Kernel κ] in
/-- So the callback that runs is for one. -/
theorem Config.Poised.place?_of_callback {m : Machine κ} {i x : Nat} {l : Link} {ready : List (Nat × Link)}
    (hc : (⟨m, (i, l) :: ready, none⟩ : Config κ).Poised) (hl : l.callback = .release x) :
    m.storage.place? x = none := hc.place?_of_waiting (Config.waiting_ready hl)

/-- A configuration that is poised stays so, and nothing is added to what is still to come. -/
def Config.Eases (c c' : Config κ) : Prop := c.Poised → c'.Poised ∧ ∀ x, c'.waiting x ≤ c.waiting x

namespace Config.Eases

variable {c c₁ c' : Config κ} {act : Action}

omit [Kernel κ] in
theorem refl (c : Config κ) : c.Eases c := fun hc => ⟨hc, fun _ => Nat.le_refl _⟩

omit [Kernel κ] in
theorem trans (h : c.Eases c₁) (h' : c₁.Eases c') : c.Eases c' := by
  intro hc
  obtain ⟨hc₁, hwaiting⟩ := h hc
  obtain ⟨hc', hwaiting'⟩ := h' hc₁
  exact ⟨hc', fun x => Nat.le_trans (hwaiting' x) (hwaiting x)⟩

/-- A step that no caller asks for, and that is about buffers where there are no streams. -/
theorem of_step (h : Step c act c') (hpassive : act.Passive) (hplain : c.progress.generation ≠ .csf → act.Plain)
    (hrefs : c.Poised → ∀ x a, c'.account? x = some a → a.refs ≠ Int32.minValue)
    (hlists : c.Poised → Lists c.machine c'.machine) : c.Eases c' := by
  intro hc
  have hstreams : c'.progress.streams.length = c.progress.streams.length := by
    rw [h.length_streams, if_neg, Nat.add_zero]
    rintro rfl
    exact hpassive.elim
  have hne (x : Nat) : act ≠ .release x := by
    rintro rfl
    exact hpassive.elim
  have hwaiting (x : Nat) : c'.waiting x ≤ c.waiting x := h.waiting_le (hne x)
  refine ⟨?_, hwaiting⟩
  constructor
  case toBooked =>
    rcases hc.device with ⟨hcsf, hs⟩ | hm
    · have hmax : c'.progress.streams.length ≤ slotCount := hstreams ▸ hc.streams hcsf
      exact ⟨.inl ⟨h.generation.trans hcsf, h.sound hs hmax⟩, h.books hs hmax hc.waiting (hrefs hc) hc.books⟩
    · have hplain := hplain hm.generation
      exact ⟨.inr (h.calm hplain hm), h.books_of_plain hplain (fun _ x => hm.links.waiting x) (hrefs hc) hc.books⟩
  case streams =>
    intro hcsf
    rw [hstreams]
    exact hc.streams (h.generation.symm.trans hcsf)
  case waiting => exact fun x => Nat.lt_of_le_of_lt (hwaiting x) (hc.waiting x)
  case listed => exact hlists hc hc.listed

theorem of_quiet {m m' : Machine κ} {ready : List (Nat × Link)} {held : Option Nat} (hq : Quiet m m') :
    (⟨m, ready, held⟩ : Config κ).Eases ⟨m', ready, held⟩ :=
  of_step (.quiet hq) trivial (fun _ => .inl rfl)
    (fun hc => (SameReferences.of_storage hq.storage).ne_minValue hc.books) fun _ => .of_storage hq.storage

/-- By induction on the pass. -/
theorem of_pass {reported : Nat → Option UInt64} {es : List (Config κ × Action)} (h : Pass reported c es c')
    (hcsf : c.progress.generation = .csf) : c.Eases c' := by
  induction h with
  | nil => exact refl _
  | quiet hp _ ih => exact (of_quiet hp.quiet).trans (ih ((Step.generation (.quiet hp.quiet)).trans hcsf))
  | @advance m m₁ i n ready taken es c' _ he _ ih =>
    have hstep : Step ⟨m, ready, none⟩ (.advance i n) ⟨m₁, _, none⟩ := .advance he
    have hstorage := (advanceSlot_ok he).2.2.storage
    refine trans ?_ (ih (hstep.generation.trans hcsf))
    exact of_step hstep trivial (absurd hcsf) (fun hc => (SameReferences.of_storage hstorage).ne_minValue hc.books)
      fun _ => .of_storage hstorage
  | @fire m m₁ i l ready es c' he _ ih =>
    have hstep : Step ⟨m, (i, l) :: ready, none⟩ (.fire i l) ⟨m₁, ready, none⟩ := .fire he
    refine trans ?_ (ih (hstep.generation.trans hcsf))
    exact of_step hstep trivial (absurd hcsf) (fun hc => (sameReferences_runCallback he).ne_minValue hc.books)
      fun hc => lists_runCallback (fun x hx => hc.place?_of_callback (i := i) hx) he

end Config.Eases

namespace Config.Poised

variable {c c' : Config κ} {act : Action}

omit [Kernel κ] in
/-- Events of a job manager device leave buffers alone. -/
theorem of_atoms {m m' : Machine κ} {held : Option Nat} (hc : (⟨m, [], held⟩ : Config κ).Poised) (hm : m.Calm)
    (hm' : m'.Calm) (hstorage : m'.storage = m.storage) (howns : ∀ k fd, m.Owns k fd → m'.Owns k fd) :
    (⟨m', [], held⟩ : Config κ).Poised where
  toBooked := hc.toBooked.of_atoms hm hm' hstorage howns
  streams hcsf := absurd hcsf hm'.generation
  waiting x := by
    rw [Config.waiting, Machine.waiting, hm'.links.waiting]
    exact Nat.two_pow_pos 32
  listed := Lists.of_storage hstorage hc.listed

/-- By induction on the events. -/
theorem handles {m m' : Machine κ} {es : List JobEvent} (h : Handles m es m') (hm : m.Calm)
    (hc : (⟨m, [], none⟩ : Config κ).Poised) : m'.Calm ∧ (⟨m', [], none⟩ : Config κ).Poised := by
  induction h with
  | nil m => exact ⟨hm, hc⟩
  | @beside m m₁ m' es hbeside _ ih =>
    obtain ⟨hlinks, hstate⟩ := hbeside hm.links
    have hm₁ : m₁.Calm := hm.of_jobState hlinks (congrArg JobState.generation hstate) (congrArg JobState.bound hstate)
    have hstorage : m₁.storage = m.storage := congrArg JobState.storage hstate
    have htable : m₁.device.handles = m.device.handles := congrArg JobState.table hstate
    exact ih hm₁ (hc.of_atoms hm hm₁ hstorage fun k fd ho => by rwa [Machine.Owns, htable])
  | @event m m₁ m' e es fine he _ ih =>
    obtain ⟨hstorage, howns⟩ := handleJobEvent_still hm he
    have hm₁ : m₁.Calm := ShelfStep.calm (c := ⟨m, [], none⟩) (.event hm.generation he) hm
    exact ih hm₁ (hc.of_atoms hm hm₁ hstorage howns)

/-! ### Any step -/

/-- A step leaves exactly the cached buffers in the list by age. -/
theorem lists (hc : c.Poised) (h : Step c act c') : Lists c.machine c'.machine := by
  cases h with
  | quiet h => exact .of_storage h.storage
  | reference he =>
    obtain ⟨_, -, -, hedit⟩ := reference_ok he
    exact .of_edits hedit fun _ => rfl
  | revive _ _ _ he =>
    obtain ⟨_, -, hedit⟩ := revive_ok he
    exact .of_edits hedit fun _ => rfl
  | unreference ha hrefs he =>
    exact .of_edits (unreference_other ha hrefs he).2.2 fun _ => rfl
  | @release m m' x a ha hrefs he =>
    have hloose : m.storage.place? x = none := by
      rw [Storage.place?_of_account ha]
      by_contra hcached
      have hzero := (hc.books.settled x a ha (.inr (.inl hcached))).1
      rw [hrefs] at hzero
      exact absurd hzero (by decide)
    have hreleased {m₁ : Machine κ} (hm₁ : Releases x m m₁) : Lists m m₁ := fun hl =>
      hl.modify (congrArg (·.cache.recency) hm₁.storage) (congrArg Storage.accounts hm₁.storage) fun _ => rfl
    obtain ⟨m₁, hm₁, ⟨-, rfl⟩ | ⟨-, m₂, hq, hf⟩⟩ := unreference_last ha hrefs he
    · exact hreleased hm₁
    · refine Journey.trans (hreleased hm₁) (Journey.trans (.of_storage hq.storage) (lists_finish ?_ hf))
      rw [hq.storage, Storage.place?_modify ha (by rw [hm₁.storage]), if_pos rfl, ← hloose,
        Storage.place?_of_account ha]
  | enter _ _ _ _ hcached _ _ _ he =>
    exact fun hl => hl.append (by rw [(addBuffer_ok he).2.storage]) (by rw [(addBuffer_ok he).2.storage]) hcached
  | abandon _ he => exact (keeps_freeHandle _).ok he
  | reuse he => exact lists_reuse he
  | wrap he =>
    obtain ⟨_, -, -, -, hopens⟩ := wrapRegion_ok he
    exact fun hl => hl.append (by rw [hopens.storage]) (by rw [hopens.storage]) rfl
  | handOut he =>
    obtain ⟨_, -, hedit⟩ := handOut_ok he
    exact .of_edits hedit fun _ => rfl
  | evictStale he => exact (keeps_evictOld lists_evict).ok he
  | evictAll he => exact (keeps_evictBuckets lists_evict _).ok he
  | await he => exact (keeps_callbackAll _).ok he
  | attach he => exact (keeps_attachStream _).ok he
  | submit _ he => exact (keeps_submitSlot _ _).ok he
  | advance he => exact (keeps_advanceSlot _ _).ok he
  | update he => exact (keeps_takeCallbacks _ _).ok he
  | terminate _ he => exact (keeps_clearSlot _).ok he
  | @fire m m' i l ready he => exact lists_runCallback (fun x hx => hc.place?_of_callback (i := i) hx) he
  | collect _ _ he => exact (keeps_collect lists_useBuffer _ _).ok he

/-- A step on any device leaves a configuration poised if no count overflows. -/
theorem step (hc : c.Poised) (h : ShelfStep c act c') (hmax : c'.progress.streams.length ≤ slotCount)
    (hbounded : c'.Bounded) : c'.Poised where
  toBooked := h.booked hmax hc.waiting hbounded.refs hc.toBooked
  streams _ := hmax
  waiting x := Nat.lt_trans (hbounded.waiting x) (by decide)
  listed := by
    cases h with
    | stream _ h => exact hc.lists h hc.listed
    | job _ _ h => exact hc.lists h hc.listed
    | submit hjob he hr =>
      have hm := hc.device.resolve_left fun hd => hjob hd.1
      exact Lists.of_storage (submitJob_still hm he hr).1 hc.listed
    | event hjob he =>
      have hm := hc.device.resolve_left fun hd => hjob hd.1
      exact Lists.of_storage (handleJobEvent_still hm he).1 hc.listed

end Config.Poised

/-! ## Runs -/

/-- Steps of some kind one after the other, with the configuration before each. -/
inductive Course (S : Config κ → Action → Config κ → Prop) : Config κ → List (Config κ × Action) → Config κ → Prop
  | nil (c : Config κ) : Course S c [] c
  | cons {c c₁ c' : Config κ} {a : Action} {es : List (Config κ × Action)} (hs : S c a c₁) (hr : Course S c₁ es c') :
    Course S c ((c, a) :: es) c'

namespace Course

variable {S T : Config κ → Action → Config κ → Prop} {c c₁ c' : Config κ} {es es' : List (Config κ × Action)}

omit [Kernel κ] in
theorem head_mem (h : Course S c es c') : c ∈ es.map (·.1) ++ [c'] := by
  cases h with
  | nil => exact List.mem_singleton_self _
  | cons => exact List.mem_cons_self

/-- A run of steps on a command stream device. -/
theorem of_run (h : Run c es c') (hcsf : c.progress.generation = .csf) : Course ShelfStep c es c' := by
  induction h with
  | nil c => exact .nil c
  | cons hs _ ih => exact .cons (.stream hcsf hs) (ih (hs.generation.trans hcsf))

omit [Kernel κ] in
theorem mono (h : Course S c es c') (hst : ∀ {c a c'}, S c a c' → T c a c') : Course T c es c' := by
  induction h with
  | nil c => exact .nil c
  | cons hs _ ih => exact .cons (hst hs) ih

/-- A job manager device stays calm. -/
theorem calm (h : Course ShelfStep c es c') (hm : c.machine.Calm) : ∀ d ∈ es.map (·.1) ++ [c'], d.machine.Calm := by
  induction h with
  | nil => exact List.forall_mem_singleton.mpr hm
  | cons hs _ ih => exact List.forall_mem_cons.mpr ⟨hm, ih (hs.calm hm)⟩

/-- By induction on the run. -/
theorem poised (h : Course ShelfStep c es c')
    (hmax : ∀ d ∈ es.map (·.1) ++ [c'], d.progress.streams.length ≤ slotCount)
    (hbounded : ∀ d ∈ es.map (·.1) ++ [c'], d.Bounded) (hc : c.Poised) : c'.Poised := by
  induction h with
  | nil => exact hc
  | @cons c c₁ c' a es hs hr ih =>
    have hhead : c₁ ∈ ((c, a) :: es).map (·.1) ++ [c'] := List.mem_cons_of_mem _ hr.head_mem
    exact ih (fun d hd => hmax d (List.mem_cons_of_mem _ hd)) (fun d hd => hbounded d (List.mem_cons_of_mem _ hd))
      (hc.step hs (hmax _ hhead) (hbounded _ hhead))

end Course

omit [Kernel κ] in
/-- Nothing is in use at the start. -/
theorem Vacant.poised {m : Machine κ} (h : Vacant m) : (⟨m, [], none⟩ : Config κ).Poised where
  device := h.csf_or_calm.imp_left fun hcsf => ⟨hcsf, h.sound⟩
  books := h.books
  streams _ := by
    rw [show (⟨m, [], none⟩ : Config κ).progress.streams = [] from h.streams]
    exact Nat.zero_le _
  waiting x := by
    have hwaiting : (⟨m, [], none⟩ : Config κ).waiting x = 0 :=
      h.books.named x (by rw [h.accounts]; exact Nat.zero_le x)
    rw [hwaiting]
    exact Nat.two_pow_pos 32
  listed x := by
    rw [h.cache, Storage.place?, h.accounts]
    rfl

/-! ## The search -/

/-- What a search does to a poised configuration leaves it poised, with a buffer still to be handed out or with
none, and adds nothing to what is still to come. -/
def Upholds (held : Option Nat) (m m' : Machine κ) : Prop := (⟨m, [], none⟩ : Config κ).Eases ⟨m', [], held⟩

namespace Upholds

variable {m m₁ m' : Machine κ} {held : Option Nat}

omit [Kernel κ] in
theorem next (h : Upholds none m m₁) (h' : Upholds held m₁ m') : Upholds held m m' := Config.Eases.trans h h'

omit [Kernel κ] in
theorem poised (h : Upholds held m m') (hm : (⟨m, [], none⟩ : Config κ).Poised) :
    (⟨m', [], held⟩ : Config κ).Poised := (h hm).1

theorem of_quiet (hq : Quiet m m') : Upholds none m m' := Config.Eases.of_quiet hq

instance : Inward (Upholds (κ := κ) none) where
  refl m := .refl ⟨m, [], none⟩
  trans := next
  of_eq hd ha _ hb := of_quiet (.of_eq hd ha hb)

/-- A step that tidies up. -/
theorem of_tidies (hs : Step ⟨m, [], none⟩ .other ⟨m', [], held⟩) (ht : Tidies [] none held m m')
    (hl : Lists m m') : Upholds held m m' :=
  .of_step hs trivial (fun _ => .inl rfl) (fun hm => ht.sameReferences.ne_minValue hm.books) fun _ => hl

end Upholds

theorem upholds_of_quiet {α : Type} {x : Op κ α} (hx : Keeps Quiet x) : Keeps (Upholds none) x :=
  hx.mono fun _ _ => .of_quiet

theorem upholds_handleEvents : Keeps (Upholds (κ := κ) none) Device.handleEvents := by
  intro m hs hm
  obtain ⟨fine, he⟩ := faultless_handleEvents.ok hs
  rw [he]
  rcases hm.device with ⟨hcsf, -⟩ | hcalm
  · obtain ⟨es, hpass, -⟩ := handleEvents_ok hcsf he
    exact Config.Eases.of_pass hpass hcsf hm
  · obtain ⟨es, hes⟩ := handleEvents_handles hcalm.generation he
    obtain ⟨hcalm', hm'⟩ := hm.handles hes hcalm
    refine ⟨hm', fun x => ?_⟩
    rw [Config.waiting, Machine.waiting, hcalm'.links.waiting]
    exact Nat.zero_le _

theorem upholds_editDevice {f : Device → Device} (hf : ∀ d, (f d).fixtures = d.fixtures)
    (hp : ∀ d, (f d).progress = d.progress) : Keeps (Upholds (κ := κ) none) (modifyDevice f) :=
  upholds_of_quiet (quiet_modifyDevice hp fun d k fd ho => by
    rwa [show (f d).handles = d.handles from congrArg (·.2.1) (hf d)])

theorem polling_upholds : Polling (κ := κ) (Keeps (Upholds none)) where
  pure := keeps_pure
  bind := keeps_bind
  device := keeps_device
  now := keeps_now
  call c _ _ := keeps_call c
  error := keeps_error
  modify f hf := by
    have hsame (d : Device) : (f d).fixtures = d.fixtures ∧ (f d).progress = d.progress := by
      obtain ⟨_, _, _, _, hd⟩ := hf d
      rw [hd]
      exact ⟨rfl, rfl⟩
    exact upholds_editDevice (fun d => (hsame d).1) fun d => (hsame d).2
  handleEvents := upholds_handleEvents

/-- A buffer that is allocated is still to be handed out. -/
theorem upholds_allocate (size : Int64) (flags : UInt32) (label : String) :
    Hands Upholds some (Allocator.allocate size flags label : Op κ Nat) := by
  intro m m' r he hr
  obtain ⟨_, _, ⟨f, h₁, rfl⟩ | ⟨region, x, m₁, m₂, h₁, h₂, h₃, rfl⟩⟩ := allocate_survives he hr
  · exact .of_quiet ((keeps_alloc _ _ _ m).survives h₁ trivial)
  cases h₃
  obtain ⟨handle, -, -, -, hopens⟩ := wrapRegion_ok h₂
  refine Config.Eases.trans (.of_quiet ((keeps_alloc _ _ _).ok h₁)) (Config.Eases.trans ?_
    (.of_quiet (m := m₂) ⟨.of_eq rfl rfl, rfl, fun _ _ ho => ho⟩))
  refine .of_step (.wrap h₂) trivial (fun _ => .inl rfl) (fun hm₁ y a hy => ?_)
    fun _ hl => hl.append (by rw [hopens.storage]) (by rw [hopens.storage]) rfl
  have hy : m₂.storage.accounts[y]? = some a := hy
  rw [hopens.storage] at hy
  rcases getElem?_concat_cases hy with ⟨-, rfl⟩ | ⟨-, hy⟩
  · exact show (0 : Int32) ≠ Int32.minValue by decide
  · exact (SameReferences.of_storage rfl).ne_minValue hm₁.books y a hy

theorem proceeding_upholds : Proceeding (Upholds (κ := κ)) where
  next := .next
  editDevice hf hp _ _ _ := upholds_editDevice hf hp
  countMiss := upholds_of_quiet (quiet_modifyAllocator fun _ => rfl)
  evictOld := faultless_evictOld.keeps fun he =>
    .of_tidies (.evictStale he) ((tidies_evictOld []).ok he) ((keeps_evictOld lists_evict).ok he)
  evictBuckets indices := (faultless_evictBuckets indices).keeps fun he =>
    .of_tidies (.evictAll he) ((tidies_evictBuckets [] indices).ok he) ((keeps_evictBuckets lists_evict indices).ok he)
  handleEvents := upholds_handleEvents
  isIdle x patient := keeps_isIdle polling_upholds (upholds_of_quiet (quiet_modifyBuffer x fun _ => rfl)) patient
  reuse x label := by
    intro m m' r he hr
    obtain ⟨u, rfl⟩ := (faultless_reuse x label).value he hr
    exact .of_tidies (.reuse he) (tidies_reuse [] he) (lists_reuse he)
  allocate size _ label _ := upholds_allocate size _ label

end Kernel

end Mali
