import Mali.Proofs.Eviction
import Mali.Proofs.Marking

/-!
# A creation for which there is no memory

A creation gives up when both looks into the cache and all allocations have failed.  What it leaves behind follows
from three things that no rung of the ladder breaks: the books stay in order, buffers that somebody holds are left
alone, and what was put away stays so.  The last rung adds that the cache is empty, so what was put away is freed.

A pass of event handling puts every buffer away whose release waits for nothing but what the event records have
passed.  Every late allocation begins with such a pass.

* `Machine.Passed`: the event records are past everything that a release waits for.
* `handleEvents_away`: a pass puts such buffers away.
* `evictBuckets_ok`, `makeRoom_ok`: the cache is emptied.
* `InVain`: what a rung does on which nothing is found.
* `Exhausted`: what is left when there is no memory.
* `Course.create_exhausts`: when a creation fails, and what it leaves.
-/

namespace Mali

open Op

variable {κ : Type}

/-! ## Emptying the cache -/

namespace BufferCache

theorem eraseLast_of_not_mem {x : Nat} {l : List Nat} (h : x ∉ l) : eraseLast x l = l := by
  rw [eraseLast, List.erase_of_not_mem (by rwa [List.mem_reverse]), List.reverse_reverse]

theorem eraseLast_cons_self {x : Nat} {l : List Nat} (h : x ∉ l) : eraseLast x (x :: l) = l := by
  rw [eraseLast, List.reverse_cons, List.erase_append_right _ (by rwa [List.mem_reverse]), List.erase_cons_head,
    List.append_nil, List.reverse_reverse]

theorem remaining_of_not_mem {x : Nat} {l : List Nat} (h : x ∉ l) : remaining x l = l := by
  cases l with
  | nil => rfl
  | cons y l => rw [remaining, eraseLast_of_not_mem fun hmem => h (List.mem_cons_of_mem _ hmem)]

/-- A cache without entries is empty. -/
theorem eq_empty {c : BufferCache} {count : Nat} (hlength : c.buckets.length = count) (hbuckets : ∀ i, c.bucket i = [])
    (hrecency : c.recency = []) : c = .empty count := by
  have hall : c.buckets = List.replicate count [] := by
    refine List.eq_replicate_iff.mpr ⟨hlength, fun l hl => ?_⟩
    obtain ⟨i, hi⟩ := List.mem_iff_getElem?.mp hl
    rw [← hbuckets i, mem_bucket_of_getElem? hi]
  cases c
  cases hall
  cases hrecency
  rfl

end BufferCache

/-- No class has a new entry. -/
def Thins (m m' : Machine κ) : Prop := ∀ i, m'.allocator.cache.bucket i ⊆ m.allocator.cache.bucket i

namespace Thins

instance : OfAllocator (Thins (κ := κ)) where
  refl _ _ := List.Subset.refl _
  trans h h' i := List.Subset.trans (h' i) (h i)
  of_allocator ha i := by rw [ha]; exact List.Subset.refl _

theorem eq_nil {m m' : Machine κ} {i : Nat} (h : Thins m m') (hi : m.allocator.cache.bucket i = []) :
    m'.allocator.cache.bucket i = [] := List.subset_nil.mp (hi ▸ h i)

end Thins

section Kernel

variable [Kernel κ]

/-- A buffer that is evicted leaves its class. -/
theorem evict_cache {x : Nat} {m m' : Machine κ} (he : (Allocator.evict x).exec m = (.ok (), m')) :
    ∃ b index, m.allocator.buffers[x]? = some b ∧ b.cachedIn = some index ∧
      m'.allocator.cache = m.allocator.cache.remove index x := by
  obtain ⟨_, m₁, h₁, he⟩ := bind_ok he
  obtain ⟨_, m₂, h₂, he⟩ := bind_ok he
  obtain ⟨b, index, hb, hindex, -, -, hstorage⟩ := uncache_ok h₁
  have hcount : Quiet m₁ m₂ := Keeps.ok (by exact quiet_modifyAllocator fun _ => rfl) h₂
  obtain ⟨_, -, -, -, hfree⟩ := free_ok he
  refine ⟨b, index, hb, hindex, ?_⟩
  have hcache : m'.storage.cache = m.storage.cache.remove index x := by
    rw [hfree, hcount.storage, hstorage]
  exact hcache

theorem thins_evict (x : Nat) : Keeps (Thins (κ := κ)) (Allocator.evict x) := by
  refine (faultless_evict x).keeps fun {m m'} _ he i => ?_
  obtain ⟨-, index, -, -, hcache⟩ := evict_cache he
  rw [hcache, BufferCache.bucket_remove]
  split
  · intro y hy
    rw [BufferCache.eraseLast, List.mem_reverse] at hy
    exact List.mem_reverse.mp (List.mem_of_mem_erase hy)
  · exact List.Subset.refl _

/-- Evicting what a class has empties it.  By induction on its entries. -/
theorem evictEntries_ok {ready : List Callback} {index : Nat} {l : List Nat} {m m' : Machine κ}
    (hb : m.Books ready none) (hl : m.allocator.cache.bucket index = l)
    (he : (Allocator.evictEntries index l).exec m = (.ok (), m')) : m'.allocator.cache.bucket index = [] := by
  induction l generalizing m with
  | nil =>
    rw [Allocator.evictEntries] at he
    cases he
    exact hl
  | cons x rest ih =>
    have hx : x ∈ m.allocator.cache.bucket index := hl ▸ List.mem_cons_self
    have hfresh : x ∉ rest := by
      have hnodup := hb.nodup index
      rw [show m.storage.cache.bucket index = x :: rest from hl] at hnodup
      exact (List.nodup_cons.mp hnodup).1
    obtain ⟨a, ha, hcached⟩ := (hb.buckets index x).mp hx
    rw [Allocator.evictEntries] at he
    obtain ⟨y, m₁, hentry, he⟩ := bind_ok he
    obtain ⟨hy, rfl⟩ := cachedBuffer_ok hentry
    obtain rfl : x = y := Option.some.inj ((hb.cached?_of_mem hx).symm.trans hy)
    obtain ⟨b, hget, he⟩ := bind_buffer_ok he
    obtain ⟨_, m₂, hevict, he⟩ := bind_ok he
    have hclass : b.cachedIn = some index := by
      have haccount := Machine.accounts_of_buffer hget
      rw [ha] at haccount
      cases haccount
      exact hcached
    obtain ⟨b', index', hget', hclass', hcache⟩ := evict_cache hevict
    rw [hget] at hget'
    cases hget'
    obtain rfl : index = index' := Option.some.inj (hclass.symm.trans hclass')
    rw [if_pos (by simpa using hclass), BufferCache.remaining_of_not_mem hfresh] at he
    refine ih (((tidies_evict ready x).ok hevict).books hb) ?_ he
    rw [hcache, BufferCache.bucket_remove, if_pos rfl, hl, BufferCache.eraseLast_cons_self hfresh]

/-- By induction on the classes. -/
theorem evictBuckets_ok {ready : List Callback} {is : List Nat} {m m' : Machine κ} (hb : m.Books ready none)
    (he : (Allocator.evictBuckets is).exec m = (.ok (), m')) : ∀ i ∈ is, m'.allocator.cache.bucket i = [] := by
  induction is generalizing m with
  | nil => exact fun _ hi => absurd hi List.not_mem_nil
  | cons i is ih =>
    unfold Allocator.evictBuckets at he
    rw [exec_bind_of_ok (exec_allocator m)] at he
    obtain ⟨_, m₁, hentries, he⟩ := bind_ok he
    have hi := evictEntries_ok hb rfl hentries
    have hb₁ := ((keeps_evictEntries (tidies_evict ready) _ _).ok hentries).books hb
    exact List.forall_mem_cons.mpr ⟨((keeps_evictBuckets thins_evict is).ok he).eq_nil hi, ih hb₁ he⟩

/-! ## A pass -/

omit [Kernel κ] in
/-- Whether a buffer was put away, the allocator says alone. -/
instance (x : Nat) : OfAllocator (StaysAway (κ := κ) x) where
  of_allocator ha := .of_storage (by rw [Machine.storage, ha, Machine.storage])

omit [Kernel κ] in
theorem UInt64.succ_le_of_lt {n k : UInt64} (h : n < k) : n + 1 ≤ k ∧ n < n + 1 := by
  rw [UInt64.lt_iff_toNat_lt] at h
  have hk := k.toNat_lt
  rw [UInt64.le_iff_toNat_le, UInt64.lt_iff_toNat_lt, UInt64.toNat_add, UInt64.toNat_one,
    Nat.mod_eq_of_lt (by omega)]
  omega

/-- Whether the event records, when a pass comes to read them, are past everything that the release of a buffer waits
for. -/
def Machine.Passed (m : Machine κ) (x : Nat) : Prop :=
  ∀ (i : Nat) (l : Link), l ∈ (m.progress.slots.entry i).links → l.callback = .release x →
    ∃ n, m.reported? i = some n ∧ l.seqnum < n

omit [Kernel κ] in
theorem Config.counted_of_books {c : Config κ} (h : c.Books) : c.Counted := by
  intro x
  cases hx : c.machine.storage.accounts[x]? with
  | some a => exact (Machine.gpuRefs_of_account hx).trans (h.counted x a hx)
  | none =>
    have hwaiting : c.waiting x = 0 := h.named x (List.getElem?_eq_none_iff.mp hx)
    rw [hwaiting, Machine.gpuRefs, List.getElem?_map, hx]
    rfl

/-- A pass puts a buffer away that nobody holds, if the records are past what its release waits for. -/
theorem handleEvents_away {m m' : Machine κ} {fine : Bool} {x : Nat} {a : Account}
    (hm : (⟨m, [], none⟩ : Config κ).Poised) (hx : m.storage.accounts[x]? = some a) (hrefs : a.refs = 0)
    (hpassed : m.Passed x) (he : Device.handleEvents.exec m = (.ok fine, m')) : m'.Away x := by
  have hstays : StaysAway x m m' := (keeps_handleEvents keeps_retireAtom fun c =>
    (faultless_runCallback c).keeps fun he => staysAway_runCallback x he).ok he
  by_cases haway : m.Away x
  · exact hstays haway
  have hloose : a.cachedIn = none ∧ a.freed = false := by
    rw [Machine.Away, not_exists] at haway
    simpa [hx] using haway a
  have hwaiting : (⟨m, [], none⟩ : Config κ).waiting x ≠ 0 :=
    (hm.books.active x a hx hloose.2 hloose.1 (Option.some_ne_none x).symm).2 hrefs
  obtain ⟨hcsf, hs⟩ : m.progress.generation = .csf ∧ m.progress.Sound := by
    refine hm.device.resolve_right fun hcalm => hwaiting ?_
    rw [Config.waiting, Machine.waiting, hcalm.links.waiting]
    rfl
  obtain ⟨es, hpass, hall⟩ := handleEvents_ok hcsf he
  have hunused : (⟨m, [], none⟩ : Config κ).Unused x := by
    intro b hb
    have hb : m.storage.accounts[x]? = some b := hb
    rw [hx] at hb
    cases hb
    exact hrefs
  have hpending : (⟨m, [], none⟩ : Config κ).Pending x := ⟨hunused, ⟨a, hx, hloose⟩, (Option.some_ne_none x).symm, hwaiting⟩
  have hmax : (⟨m', [], none⟩ : Config κ).progress.streams.length ≤ slotCount := by
    rw [hpass.length_streams]
    exact hm.streams hcsf
  have hunuseds := hpass.unused hunused
  have hacts := hpass.run.ne_release fun d hd => hunuseds d (List.mem_append_left _ hd)
  have hzero : (⟨m', [], none⟩ : Config κ).waiting x = 0 := by
    rw [Config.waiting, Machine.waiting, List.map_nil, List.count_nil, Nat.add_zero]
    refine SlotTable.waiting_eq_zero.mpr fun i l hl hcallback => ?_
    have hold := hpass.run.mem_links_of_mem hs hmax hacts hl hcallback
    obtain ⟨n, hn, hlt⟩ := hpassed i l hold hcallback
    have hi := hs.slots.lt_of_mem_links hold
    have hsubmit := ((hs.slots.started i hi).pending l hold).2
    -- the link waits for the number that it names to be passed
    have hgo : ∃ act ∈ es.map (·.2), act.LetsGo i (l.seqnum + 1) :=
      ⟨_, hall i hi n hn, rfl, (UInt64.succ_le_of_lt hlt).1⟩
    have hle := hpass.run.le_of_letsGo hs hmax hacts (UInt64.succ_le_of_lt hsubmit).1 hgo hl hcallback
    exact absurd hle (UInt64.not_le.mpr (UInt64.succ_le_of_lt hlt).2)
  have hcounted := Config.counted_of_books hm.books
  have hends := (hpass.run.away_iff hs hmax hcounted (hm.waiting x) hpending hunuseds).mpr hzero
  exact (hpass.away_iff.mp hends).resolve_left haway

/-! ## Rungs on which nothing is found -/

/-- The books stay in order with nothing more to come, buffers that somebody holds are left alone, marks stay where they
are needed, and what was put away stays so. -/
structure InVain (m m' : Machine κ) : Prop where
  upholds : Upholds none m m'
  bypasses : Bypasses none m m'
  minds : Minds m m'
  away : ∀ x, StaysAway x m m'

namespace InVain

variable {m m₁ m' : Machine κ}

omit [Kernel κ] in
theorem poised (h : InVain m m') (hm : (⟨m, [], none⟩ : Config κ).Poised) : (⟨m', [], none⟩ : Config κ).Poised :=
  h.upholds.poised hm

omit [Kernel κ] in
theorem trans (h : InVain m m₁) (h' : InVain m₁ m') : InVain m m' :=
  ⟨h.upholds.next h'.upholds, h.bypasses.trans h'.bypasses, h.minds.trans h'.minds,
    fun x => Journey.trans (h.away x) (h'.away x)⟩

instance : Inward (InVain (κ := κ)) where
  refl _ := ⟨Journey.refl _, Journey.refl _, Journey.refl _, fun _ => Journey.refl _⟩
  trans := trans
  of_eq hd ha hs hb :=
    ⟨Inward.of_eq hd ha hs hb, Inward.of_eq hd ha hs hb, Inward.of_eq hd ha hs hb, fun _ => Inward.of_eq hd ha hs hb⟩

omit [Kernel κ] in
theorem of_keeps {α : Type} {x : Op κ α} {a : α} (hupholds : Keeps (Upholds none) x)
    (hbypasses : Keeps (Bypasses none) x) (hminds : Keeps Minds x) (haway : ∀ y, Keeps (StaysAway y) x)
    (he : x.exec m = (.ok a, m')) : InVain m m' :=
  ⟨hupholds.ok he, hbypasses.ok he, hminds.ok he, fun y => (haway y).ok he⟩

end InVain

theorem polling_staysAway (x : Nat) : Polling (κ := κ) (Keeps (StaysAway x)) :=
  polling_of_runCallback keeps_retireAtom fun c =>
    (faultless_runCallback c).keeps fun he => staysAway_runCallback x he

variable {size : Int64} {flags : UInt32} {label : String} {m m' : Machine κ}

omit [Kernel κ] in
/-- What is found in a class is cached. -/
theorem Config.Poised.fetched (hm : (⟨m, [], none⟩ : Config κ).Poised) {i entry x : Nat}
    (hentry : entry ∈ m.allocator.cache.bucket i) (hx : m.allocator.cached? entry = some x) :
    ∃ b, m.allocator.buffers[x]? = some b ∧ b.cachedIn = some i ∧ b.refs = 0 := by
  obtain rfl : entry = x := Option.some.inj ((Machine.Books.cached?_of_mem hm.books hentry).symm.trans hx)
  obtain ⟨a, ha, hcached⟩ := (hm.books.buckets i entry).mp hentry
  obtain ⟨b, hb, rfl⟩ := Machine.exists_buffer ha
  have hclass : b.account.cachedIn ≠ none := by
    rw [hcached]
    exact nofun
  exact ⟨b, hb, hcached, (hm.books.settled entry _ ha (.inr (.inl hclass))).1⟩

/-- A look at a cached buffer. -/
theorem inVain_isIdle {x : Nat} {b : Buffer} {patient idle : Bool} (hx : m.allocator.buffers[x]? = some b)
    (hcached : b.cachedIn ≠ none) (he : (Allocator.isIdle x patient).exec m = (.ok idle, m')) : InVain m m' where
  upholds := (proceeding_upholds.isIdle x patient).ok he
  bypasses := ((bypasses_isIdle x patient).ok he).strengthen hx (.inr hcached)
  minds := (minds_isIdle x patient).ok he
  away y := by
    have hsettle : Keeps (StaysAway y) (modifyBuffer x fun b => { b with access := 0 } : Op κ Unit) :=
      (by exact quiet_modifyBuffer x fun _ => rfl : Keeps Quiet _).mono fun _ _ hq => .of_storage hq.storage
    exact (keeps_isIdle (polling_staysAway y) hsettle patient).ok he

theorem inVain_fetch {patient : Bool} (hm : (⟨m, [], none⟩ : Config κ).Poised)
    (he : (Allocator.fetch size flags label patient).exec m = (.ok none, m')) : InVain m m' := by
  unfold Allocator.fetch at he
  rw [exec_bind_of_ok (exec_allocator m)] at he
  rcases fetchFrom_ok he with ⟨-, rfl⟩ | ⟨entry, hentry, x, b, hcached, hx, -, -, ⟨-, hidle⟩ | ⟨hfound, -⟩⟩
  · exact Journey.refl _
  · obtain ⟨b', hb', hclass, -⟩ := hm.fetched hentry hcached
    rw [hx] at hb'
    cases hb'
    exact inVain_isIdle hx (by rw [hclass]; exact nofun) hidle
  · cases hfound

theorem inVain_missed (m : Machine κ) : InVain m m.missed where
  upholds := .of_quiet ⟨.of_eq rfl rfl, rfl, fun _ _ ho => ho⟩
  bypasses := .of_same rfl rfl rfl
  minds := .of_handles rfl rfl fun _ hk => hk
  away _ := .of_storage rfl

/-- A failed allocation leaves everything inside alone. -/
theorem inVain_attempt {before after : Machine κ} {f : Fault} {entry : Machine κ}
    (ha : Attempt.For size flags label ⟨entry, before, .error f, after⟩) : InVain before after :=
  (allocate_fault (attempt_fault ha)).inward

theorem inVain_pause {duration : Nat} (he : (Wait.pause duration).exec m = (.ok (), m')) : InVain m m' :=
  .of_keeps (polling_upholds.pause duration) (bypasses_pause duration) (polling_minds.pause duration)
    (fun x => (polling_staysAway x).pause duration) he

/-- Before a late allocation a pass is made and the cache is emptied. -/
theorem inVain_makeRoom (he : Allocator.makeRoom.exec m = (.ok (), m')) : InVain m m' := by
  have hevict {R : Machine κ → Machine κ → Prop} [Inward R] (h : ∀ x, Keeps R (Allocator.evict x : Op κ Unit)) :
      Keeps R (Allocator.evictAll : Op κ Unit) :=
    keeps_bind keeps_requireAllocator fun _ => keeps_bind (keeps_debug _ _) fun _ => keeps_bind keeps_allocator fun _ =>
      keeps_evictBuckets h _
  exact .of_keeps (keeps_bind proceeding_upholds.ensureHandleEvents fun _ => proceeding_upholds.evictAll)
    bypasses_makeRoom (keeps_bind polling_minds.pass fun _ => hevict minds_evict)
    (fun x => keeps_bind (polling_staysAway x).pass fun _ => hevict (staysAway_evict x)) he

/-- Then nothing is cached, and what nobody holds was put away if the event records had passed what its release waits
for. -/
theorem makeRoom_ok (hm : (⟨m, [], none⟩ : Config κ).Poised) (he : Allocator.makeRoom.exec m = (.ok (), m')) :
    m'.allocator.cache = .empty m'.allocator.options.bucketCount ∧
      ∀ (x : Nat) (a : Account), m.storage.accounts[x]? = some a → a.refs = 0 → m.Passed x → m'.Away x := by
  have hend := (inVain_makeRoom he).poised hm
  unfold Allocator.makeRoom at he
  obtain ⟨_, m₁, hpass, he⟩ := bind_ok he
  have hm₁ : (⟨m₁, [], none⟩ : Config κ).Poised := (proceeding_upholds.ensureHandleEvents.ok hpass).poised hm
  have hevicts (x : Nat) : StaysAway x m₁ m' := (keeps_bind keeps_requireAllocator fun _ =>
    keeps_bind (keeps_debug _ _) fun _ => keeps_bind keeps_allocator fun _ =>
    keeps_evictBuckets (staysAway_evict x) _ : Keeps (StaysAway x) Allocator.evictAll).ok he
  refine ⟨?_, fun x a hx hrefs hpassed => hevicts x ?_⟩
  · unfold Allocator.evictAll at he
    obtain ⟨_, m₂, hrequire, he⟩ := bind_ok he
    obtain rfl := (keeps_requireAllocator (R := Eq)).ok hrequire
    rw [exec_bind_of_ok (exec_debug _ _ _), exec_bind_of_ok (exec_allocator _)] at he
    have hb₁ : ({ m₁ with log := ⟨.debug, "Allocator::EvictAll", []⟩ :: m₁.log } : Machine κ).Books [] none := hm₁.books
    have hall (i : Nat) : m'.allocator.cache.bucket i = [] := by
      rcases Nat.lt_or_ge i m₁.allocator.cache.buckets.length with hlt | hge
      · exact evictBuckets_ok hb₁ he i (List.mem_range.mpr hlt)
      · refine ((keeps_evictBuckets thins_evict _).ok he).eq_nil (i := i) ?_
        show m₁.allocator.cache.bucket i = []
        rw [BufferCache.bucket, List.getD_eq_getElem?_getD, List.getElem?_eq_none hge, Option.getD_none]
    refine BufferCache.eq_empty hend.books.classes hall (List.eq_nil_iff_forall_not_mem.mpr fun x hx => ?_)
    have hcount : m'.allocator.cache.recency.count x = _ := hend.listed x
    split at hcount
    · exact List.count_eq_zero.mp hcount hx
    · rename_i hplace
      obtain ⟨i, hi⟩ := Option.ne_none_iff_exists'.mp hplace
      obtain ⟨a, ha, hcached⟩ := Option.bind_eq_some_iff.mp hi
      have hmem : x ∈ m'.allocator.cache.bucket i := (hend.books.buckets i x).mpr ⟨a, ha, hcached⟩
      rw [hall i] at hmem
      exact List.not_mem_nil hmem
  · obtain ⟨_, m₂, hhandle, hcount⟩ := bind_ok hpass
    obtain ⟨fine, _, hhandle, hreturn⟩ := bind_ok (x := Device.handleEvents) (f := fun _ => pure ()) hhandle
    cases hreturn
    have haway := handleEvents_away hm hx hrefs hpassed hhandle
    cases hcount
    exact haway

/-! ## The whole ladder -/

section Request

variable (size : Int64) (flags : UInt32) (label : String)

/-- Neither look into the cache finds anything, and as many allocations as there may be are attempted in vain. -/
def Fruitless (m : Machine κ) (as : List (Attempt κ)) : Prop :=
  ∃ (m₁ m₃ : Machine κ) (a : Attempt κ) (late : List (Attempt κ)), as = a :: late ∧
    (Allocator.fetch size flags label false).exec m = (.ok none, m₁) ∧ a.before = m₁.missed ∧
    (Allocator.fetch size flags label true).exec a.after = (.ok none, m₃) ∧ late.length = Backoff.attempts ∧
    ∀ b ∈ as, b.Failed

end Request

variable {as : List (Attempt κ)}

/-- A search fails exactly if everything that there is to try was tried in vain. -/
theorem Ladder.error_iff_fruitless {r : Except Fault Nat} (h : Ladder size flags label m as r m') :
    (∃ f, r = .error f) ↔ Fruitless size flags label m as := by
  constructor
  · rintro ⟨f, rfl⟩
    obtain ⟨-, hall⟩ := h.error_iff.mp ⟨f, rfl⟩
    cases h with
    | late hfetch _ hpatient h =>
      exact ⟨_, _, _, _, rfl, hfetch, rfl, hpatient, (h.error_iff.mp ⟨f, rfl⟩).1, hall⟩
  · rintro ⟨m₁, m₃, a, late, rfl, -, -, -, hlength, hall⟩
    refine h.error_iff.mpr ⟨?_, hall⟩
    rw [List.length_cons, hlength]

/-- Late allocations that are all in vain.  By induction on them. -/
theorem LateRungs.spent {left : Nat} {f : Fault} (h : LateRungs size flags label left m as (.error f) m')
    (hm : (⟨m, [], none⟩ : Config κ).Poised) :
    InVain m m' ∧ m'.allocator.cache = .empty m'.allocator.options.bucketCount ∧
      ∀ a ∈ as, InVain m a.entry ∧ ∀ (x : Nat) (b : Account), a.entry.storage.accounts[x]? = some b → b.refs = 0 →
        a.entry.Passed x → m'.Away x := by
  generalize hr : Except.error f = r at h
  induction h with
  | found => cases hr
  | last hroom ha =>
    obtain ⟨hempty, haway⟩ := makeRoom_ok hm hroom
    have hfailed := inVain_attempt ha
    refine ⟨(inVain_makeRoom hroom).trans hfailed, by rw [(allocate_fault (attempt_fault ha)).allocator, hempty], ?_⟩
    rw [List.forall_mem_singleton]
    exact ⟨Journey.refl _, fun x b hx hrefs hpassed => hfailed.away x (haway x b hx hrefs hpassed)⟩
  | again hroom ha hpause _ ih =>
    obtain ⟨-, haway⟩ := makeRoom_ok hm hroom
    have hfailed := (inVain_attempt ha).trans (inVain_pause hpause)
    have hpaused := (inVain_makeRoom hroom).trans hfailed
    obtain ⟨hrest, hempty, hlate⟩ := ih (hpaused.poised hm) hr
    refine ⟨hpaused.trans hrest, hempty,
      List.forall_mem_cons.mpr ⟨⟨Journey.refl _, fun x b hx hrefs hpassed => ?_⟩, fun a ha => ?_⟩⟩
    · exact (hfailed.trans hrest).away x (haway x b hx hrefs hpassed)
    · exact ⟨hpaused.trans (hlate a ha).1, (hlate a ha).2⟩

/-- What is left when there is no memory: nothing is cached and nothing is new, buffers that somebody holds are as they
were but for the count of what they wait for, and the others are freed unless the event records had not passed what
they wait for. -/
structure Exhausted (m m' : Machine κ) (entries : List (Machine κ)) : Prop where
  cache : m'.allocator.cache = .empty m'.allocator.options.bucketCount
  buffers : m'.allocator.buffers.length = m.allocator.buffers.length
  arena : ∀ h x : Nat, m'.allocator.lookup? h = some x → m.allocator.lookup? h = some x
  inUse : ∀ (x : Nat) (b : Buffer), m.allocator.buffers[x]? = some b → b.refs ≠ 0 →
    ∃ n, m'.allocator.buffers[x]? = some { b with gpuRefs := n }
  released : ∀ e ∈ entries, ∀ (x : Nat) (b : Buffer), m.allocator.buffers[x]? = some b → b.refs = 0 → e.Passed x →
    m'.Freed x

theorem Ladder.exhausted {f : Fault} (h : Ladder size flags label m as (.error f) m')
    (hm : (⟨m, [], none⟩ : Config κ).Poised) : Exhausted m m' (as.tail.map (·.entry)) := by
  cases h with
  | @late _ _ m₁ m₂ m₃ _ late _ hfetch ha hpatient h =>
    have hfirst := ((inVain_fetch hm hfetch).trans (inVain_missed m₁)).trans (inVain_attempt ha)
    have hlooked := hfirst.trans (inVain_fetch (hfirst.poised hm) hpatient)
    obtain ⟨hlate, hempty, haway⟩ := h.spent (hlooked.poised hm)
    have hall := hlooked.trans hlate
    refine ⟨hempty, hall.bypasses.length_buffers, hall.bypasses.arena, fun x b hx hrefs => ?_, ?_⟩
    · refine hall.bypasses.inUse x b hx nofun hrefs ?_
      by_contra hcached
      exact hrefs (hm.books.settled x _ (Machine.accounts_of_buffer hx) (.inr (.inl hcached))).1
    · intro e he x b hx hrefs hpassed
      obtain ⟨a, ha, rfl⟩ := List.mem_map.mp he
      obtain ⟨hentry, hput⟩ := haway a ha
      obtain ⟨b', hx', houtline⟩ := (hlooked.trans hentry).bypasses.outline hx
      have hrefs' : b'.refs = 0 := (congrArg (·.2.2.2.2) houtline).trans hrefs
      obtain ⟨c, hc, hcached | hfreed⟩ := hput x _ (Machine.accounts_of_buffer hx') hrefs' hpassed
      · obtain ⟨i, hi⟩ := Option.ne_none_iff_exists'.mp hcached
        have hmem : x ∈ m'.allocator.cache.bucket i := ((hall.poised hm).books.buckets i x).mpr ⟨c, hc, hi⟩
        rw [hempty, BufferCache.bucket, BufferCache.empty, List.getD_eq_getElem?_getD, List.getElem?_replicate] at hmem
        split at hmem
        · exact absurd hmem List.not_mem_nil
        · exact absurd hmem List.not_mem_nil
      · exact Machine.freed_iff.mpr ⟨c, hc, hfreed⟩

/-- A creation with valid arguments, along every run with at most 256 streams on which no count overflows, attempts at
most six allocations.  It fails exactly if neither look into the cache finds anything and six allocations fail, always
because there is no memory, and then it leaves the library exhausted: of what nobody holds, every buffer is freed for
which the event records had passed what its release waits for at one of the late allocations. -/
theorem Course.create_exhausts {m₀ m m' : Machine κ} {es : List (Config κ × Action)} {r : Except Halt Nat}
    (hvacant : Vacant m₀) (h : Course ShelfStep ⟨m₀, [], none⟩ es ⟨m, [], none⟩)
    (hmax : ∀ d ∈ es.map (·.1) ++ [⟨m, [], none⟩], d.progress.streams.length ≤ slotCount)
    (hbounded : ∀ d ∈ es.map (·.1) ++ [⟨m, [], none⟩], d.Bounded)
    (hvalid : Allocator.refusal? size flags label = none)
    (he : (Allocator.create size flags label).exec m = (r, m')) (hr : Survives r) :
    let began : Machine κ := { m with log := ⟨.debug, "Allocator::Create", []⟩ :: m.log }
    ∃ (as : List (Attempt κ)) (found : Except Fault Nat) (ended : Machine κ),
      Ladder (pageUp size) flags label began as found ended ∧ as.length ≤ 6 ∧
      (∀ a ∈ as, a.For (pageUp size) flags label) ∧
      ((∃ halt, r = .error halt) ↔ Fruitless (pageUp size) flags label began as) ∧
      ∀ halt, r = .error halt →
        halt = .fault (.during (.creatingBytes label (pageUp size).toInt) (.root .outOfMemory)) ∧
        Exhausted m m' (as.tail.map (·.entry)) := by
  intro began
  have hdebug : Upholds none m began := Inward.of_eq rfl rfl rfl rfl
  have hbegan : (⟨began, [], none⟩ : Config κ).Poised := hdebug.poised (h.poised hmax hbounded hvacant.poised)
  obtain ⟨as, found, ended, hladder, hend⟩ := create_ladder hvalid he hr
  refine ⟨as, found, ended, hladder, hladder.length_le, hladder.attempts, ?_, ?_⟩
  · rw [← hladder.error_iff_fruitless]
    rcases hend with ⟨x, rfl, rfl, -⟩ | ⟨f, rfl, -, rfl⟩
    · simp
    · simp
  · rintro halt rfl
    rcases hend with ⟨x, -, hx, -⟩ | ⟨f, rfl, hsame, hhalt⟩
    · cases hx
    · have hleft := hladder.exhausted hbegan
      have hallocator : m'.allocator = ended.allocator := hsame.allocator
      refine ⟨Except.error.inj hhalt, ?_⟩
      constructor
      case cache => rw [hallocator, hleft.cache]
      case buffers => rw [hallocator, hleft.buffers]
      case arena => rw [hallocator]; exact hleft.arena
      case inUse => rw [hallocator]; exact hleft.inUse
      case released =>
        intro e hentry x b hx hrefs hpassed
        obtain ⟨b', hx', hfreed⟩ := hleft.released e hentry x b hx hrefs hpassed
        exact ⟨b', by rwa [hallocator], hfreed⟩

end Kernel

namespace Starved

-- a table of 256 slots is evaluated
set_option maxRecDepth 20000

/-- A buffer is in the cache, and the kernel has no memory. -/
def machine : Machine Bench :=
  { StaleSample.cached with
    kernel := { StaleSample.cached.kernel with plans := [(.command .memAlloc, { answer := .nomem, count := 6 })] } }

def steps : List (Config Bench × Action) :=
  [(⟨StaleSample.start, [], none⟩, .other), (⟨StaleSample.wrapped, [], some 0⟩, .other),
    (⟨StaleSample.live, [], none⟩, .release 0), (⟨StaleSample.cached, [], none⟩, .other)]

theorem run_machine : Run ⟨StaleSample.start, [], none⟩ steps ⟨machine, [], none⟩ := by
  have hwrap : (Allocator.wrapRegion ⟨⟨0, 0⟩, 0⟩ 4096 0 "sample").exec StaleSample.start =
      (.ok 0, StaleSample.wrapped) := exec_of_value (by decide)
  have hhand : (Allocator.handOut 0).exec StaleSample.wrapped = (.ok (), StaleSample.live) :=
    exec_of_value (by decide)
  have hrelease : (Buffer.unreference 0).exec StaleSample.live = (.ok (), StaleSample.cached) :=
    exec_of_value (by decide +kernel)
  have hquiet : Quiet StaleSample.cached machine := .of_eq rfl rfl rfl
  exact .cons (.wrap hwrap) <| .cons (.handOut hhand) <|
    .cons (.release (a := BufferSample.account) (by decide) rfl hrelease) <| .cons (.quiet hquiet) (.nil _)

end Starved

set_option maxRecDepth 20000 in
/-- A creation for which there is no memory fails, and what was cached is freed. -/
theorem create_exhausts_sample : Allocator.refusal? 8192 0 "late" = none ∧
    ∃ m', (Allocator.create 8192 0 "late").exec Starved.machine =
      (.error (.fault (.during (.creatingBytes "late" 8192) (.root .outOfMemory))), m') ∧
      m'.allocator.cache = .empty m'.allocator.options.bucketCount ∧
      m'.allocator.buffers.length = Starved.machine.allocator.buffers.length := by
  have hvalid : Allocator.refusal? 8192 0 "late" = none := by decide
  have hmax : ∀ d ∈ Starved.steps.map (·.1) ++ [⟨Starved.machine, [], none⟩],
      d.progress.streams.length ≤ slotCount := by decide +kernel
  have hbounded := Starved.run_machine.bounded StaleSample.fresh_start (hmax _ (by simp))
    (by decide +kernel) (by decide +kernel)
  have he : (Allocator.create 8192 0 "late").exec Starved.machine =
      (.error (.fault (.during (.creatingBytes "late" 8192) (.root .outOfMemory))), _) :=
    exec_of_error (by decide +kernel)
  obtain ⟨as, found, ended, -, -, -, -, hfailed⟩ := Course.create_exhausts StaleSample.fresh_start.vacant
    (.of_run Starved.run_machine rfl) hmax hbounded hvalid he trivial
  obtain ⟨-, hexhausted⟩ := hfailed _ rfl
  exact ⟨hvalid, _, he, hexhausted.cache, hexhausted.buffers⟩

end Mali
