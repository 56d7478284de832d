import Mali.Proofs.Access

/-!
# The order of the cache

Every cached buffer is in two lists: in that of its size class, and in the list by age.  Buffers enter both
at the end and leave both at once, so each class is a part of the list by age, in the same order.  The list
by age is in order of the moments at which its buffers entered the cache, as long as the clock does not go
back.

An entry is stamped with the second at which it entered.  Nothing reads the clock between the start of a
call and that moment, so the stamp is not before the start of the call, and not after its end.

* `Allocator.classOf`, `Allocator.lastUsed`: the class of a cached buffer, and its stamp.
* `Allocator.Aged`: the two kinds of lists agree, and are in order.
* `Allocator.Aged.remove`, `Allocator.Aged.put`: a buffer leaves, and one enters.
* `OfCards`: relations that hold wherever what the cache goes by stays as it is.
* `unreference_still`, `queueDrained_still`: only the end of a release does more than that.
* `Ages`: an operation that keeps the order, up to a given second.
* `ages_evict`, `ages_unreference`, `ages_queueDrained`, `ages_reuse`: operations that keep it.
-/

namespace Mali

open Op

variable {κ : Type}

/-! ## Views of the cache -/

namespace BufferCache

/-- Where nothing occurs twice, removing an entry keeps the others in their order. -/
theorem eraseLast_eq_filter {x : Nat} {l : List Nat} (h : l.Nodup) :
    eraseLast x l = l.filter (· ≠ x) := by
  unfold eraseLast
  rw [(List.nodup_reverse.mpr h).erase_eq_filter, List.filter_reverse, List.reverse_reverse]
  refine List.filter_congr fun y _ => ?_
  by_cases hyx : y = x
  · simp [hyx]
  · simp [hyx]

end BufferCache

/-- The class of the buffers of a size.  Small buffers are in that of a page. -/
def AllocatorOptions.sizeClass (o : AllocatorOptions) (size : Int64) : Nat :=
  o.bucketIndex (if size < pageAlign then pageAlign else size)

namespace Allocator

/-- What the cache goes by of a buffer, if there is one. -/
def card? (a : Allocator) (x : Nat) : Option (Int64 × Int × Option Nat) := (a.buffers[x]?).map Buffer.card

/-- The class that a buffer is cached in. -/
def classOf (a : Allocator) (x : Nat) : Option Nat := (a.card? x).bind (·.2.2)

/-- The second at which a buffer entered the cache. -/
def lastUsed (a : Allocator) (x : Nat) : Int := ((a.card? x).map (·.2.1)).getD 0

variable {a : Allocator} {x : Nat} {b : Buffer}

theorem card?_of_buffer (h : a.buffers[x]? = some b) : a.card? x = some b.card := by
  rw [card?, h]
  rfl

theorem classOf_of_buffer (h : a.buffers[x]? = some b) : a.classOf x = b.cachedIn := by
  rw [classOf, card?_of_buffer h]
  rfl

theorem lastUsed_of_buffer (h : a.buffers[x]? = some b) : a.lastUsed x = b.lastUsed := by
  rw [lastUsed, card?_of_buffer h]
  rfl

/-- What is cached is a buffer. -/
theorem exists_of_classOf {i : Nat} (h : a.classOf x = some i) :
    ∃ b, a.buffers[x]? = some b ∧ b.cachedIn = some i := by
  cases hb : a.buffers[x]? with
  | none =>
    rw [classOf, card?, hb] at h
    cases h
  | some b => exact ⟨b, rfl, (classOf_of_buffer hb).symm.trans h⟩

/-- The cards after a buffer changed. -/
theorem card?_mapBuffer {f : Buffer → Buffer} (hb : a.buffers[x]? = some b) (y : Nat) :
    (a.mapBuffer x f).card? y = if x = y then some (f b).card else a.card? y := by
  show ((a.buffers.modify x f)[y]?).map Buffer.card = _
  rw [getElem?_modify_of_some hb]
  split
  · rfl
  · rfl

/-! ## The order -/

/-- What is cached is in the list by age once, in the order in which it entered the cache, and each class is
the part of that list that belongs to it. -/
structure Aged (a : Allocator) (time : Int) : Prop where
  /-- There is a class for every size. -/
  room : ∀ size, a.options.bucketIndex size < a.cache.buckets.length
  nodup : a.cache.recency.Nodup
  listed : ∀ x, x ∈ a.cache.recency ↔ a.classOf x ≠ none
  bucket : ∀ i, a.cache.bucket i = a.cache.recency.filter fun x => a.classOf x = some i
  sized : ∀ (x : Nat) (size : Int64) (second : Int) (i : Nat),
    a.card? x = some (size, second, some i) → i = a.options.sizeClass size
  ordered : a.cache.recency.Pairwise fun x y => a.lastUsed x ≤ a.lastUsed y
  past : ∀ x ∈ a.cache.recency, a.lastUsed x ≤ time

namespace Aged

variable {a' : Allocator} {time : Int}

theorem mono {time' : Int} (h : a.Aged time) (ht : time ≤ time') : a.Aged time' :=
  { h with past := fun x hx => Int.le_trans (h.past x hx) ht }

/-- Only buffers that are not cached have another card, and none of these is cached afterwards. -/
theorem of_cards (h : a.Aged time) (hs : a'.shelves = a.shelves)
    (hkept : ∀ x, a.classOf x ≠ none → a'.card? x = a.card? x)
    (hother : ∀ x, a.classOf x = none → a'.classOf x = none) : a'.Aged time := by
  have hcache : a'.cache = a.cache := congrArg (·.1) hs
  have hoptions : a'.options = a.options := congrArg (·.2.1) hs
  have hclass (x : Nat) : a'.classOf x = a.classOf x := by
    by_cases hx : a.classOf x = none
    · rw [hx, hother x hx]
    · rw [classOf, hkept x hx, classOf]
  have hlast {x : Nat} (hx : x ∈ a.cache.recency) : a'.lastUsed x = a.lastUsed x := by
    rw [lastUsed, hkept x ((h.listed x).mp hx), lastUsed]
  constructor
  case room =>
    rw [hoptions, hcache]
    exact h.room
  case nodup =>
    rw [hcache]
    exact h.nodup
  case listed =>
    intro x
    rw [hcache, hclass]
    exact h.listed x
  case bucket =>
    intro i
    rw [hcache, h.bucket i]
    exact List.filter_congr fun x _ => by rw [hclass]
  case sized =>
    intro x size second i hx
    have hcached : a'.classOf x = some i := by
      rw [classOf, hx]
      rfl
    rw [hkept x (by rw [← hclass, hcached]; exact nofun)] at hx
    rw [hoptions]
    exact h.sized x size second i hx
  case ordered =>
    rw [hcache]
    exact h.ordered.imp_of_mem fun hx hy hle => by rwa [hlast hx, hlast hy]
  case past =>
    rw [hcache]
    intro x hx
    rw [hlast hx]
    exact h.past x hx

/-- A buffer that leaves its class leaves the others in their order, in every class. -/
theorem bucket_remove {i : Nat} (h : a.Aged time) (hx : a.classOf x = some i) (j : Nat) :
    (a.cache.remove i x).bucket j = (a.cache.bucket j).filter (· ≠ x) := by
  have hnodup : (a.cache.bucket j).Nodup := by
    rw [h.bucket j]
    exact h.nodup.filter _
  rw [BufferCache.bucket_remove]
  split
  · exact BufferCache.eraseLast_eq_filter hnodup
  · rename_i hij
    refine (List.filter_eq_self.mpr fun y hy => ?_).symm
    rw [h.bucket j, List.mem_filter] at hy
    have hyx : y ≠ x := by
      rintro rfl
      have hj := hy.2
      rw [hx, decide_eq_true_iff, Option.some.injEq] at hj
      exact hij hj
    simpa using hyx

/-- A buffer leaves its class and the list by age. -/
theorem remove {i : Nat} (size : Int64) (h : a.Aged time) (hx : a.classOf x = some i)
    (hcache : a'.cache = a.cache.remove i x) (hoptions : a'.options = a.options)
    (hcards : ∀ y, y ≠ x → a'.card? y = a.card? y)
    (hcard : a'.card? x = some (size, a.lastUsed x, none)) : a'.Aged time := by
  have hclass : a'.classOf x = none := by
    rw [classOf, hcard]
    rfl
  have hlast : a'.lastUsed x = a.lastUsed x := by
    rw [lastUsed, hcard]
    rfl
  have hclass' (y : Nat) : a'.classOf y = if y = x then none else a.classOf y := by
    split
    · rename_i hyx
      rw [hyx, hclass]
    · rename_i hyx
      rw [classOf, hcards y hyx, classOf]
  have hlast' (y : Nat) : a'.lastUsed y = a.lastUsed y := by
    by_cases hyx : y = x
    · rw [hyx, hlast]
    · rw [lastUsed, hcards y hyx, lastUsed]
  have hrecency : a'.cache.recency = a.cache.recency.filter (· ≠ x) := by
    rw [hcache]
    exact BufferCache.eraseLast_eq_filter h.nodup
  constructor
  case room =>
    intro size
    rw [hoptions, hcache, BufferCache.remove, List.length_modify]
    exact h.room size
  case nodup =>
    rw [hrecency]
    exact h.nodup.filter _
  case listed =>
    intro y
    rw [hrecency, List.mem_filter, h.listed y, hclass']
    by_cases hyx : y = x
    · simp [hyx]
    · simp [hyx]
  case bucket =>
    intro j
    rw [hrecency, hcache, h.bucket_remove hx, h.bucket j, List.filter_filter, List.filter_filter]
    refine List.filter_congr fun y _ => ?_
    by_cases hyx : y = x
    · simp [hyx]
    · simp [hyx, hclass']
  case sized =>
    intro y size second j hy
    have hcached : a'.classOf y = some j := by
      rw [classOf, hy]
      rfl
    have hyx : y ≠ x := by
      rintro rfl
      rw [hclass] at hcached
      cases hcached
    rw [hcards y hyx] at hy
    rw [hoptions]
    exact h.sized y size second j hy
  case ordered =>
    rw [hrecency]
    refine (h.ordered.filter _).imp fun {y z} hle => ?_
    rwa [hlast', hlast']
  case past =>
    rw [hrecency]
    intro y hy
    rw [hlast']
    exact h.past y (List.mem_filter.mp hy).1

/-- A buffer enters the class of its size and the list by age. -/
theorem put (size : Int64) (h : a.Aged time) (hx : a.classOf x = none)
    (hcache : a'.cache = a.cache.put (a.options.sizeClass size) x) (hoptions : a'.options = a.options)
    (hcards : ∀ y, y ≠ x → a'.card? y = a.card? y)
    (hcard : a'.card? x = some (size, time, some (a.options.sizeClass size))) : a'.Aged time := by
  have hclass : a'.classOf x = some (a.options.sizeClass size) := by
    rw [classOf, hcard]
    rfl
  have hclass' {y : Nat} (hyx : y ≠ x) : a'.classOf y = a.classOf y := by
    rw [classOf, hcards y hyx, classOf]
  have hlast : a'.lastUsed x = time := by
    rw [lastUsed, hcard]
    rfl
  have hrecency : a'.cache.recency = a.cache.recency ++ [x] := by
    rw [hcache]
    rfl
  have hnew : x ∉ a.cache.recency := by
    rw [h.listed x]
    exact fun hne => hne hx
  have hne {y : Nat} (hy : y ∈ a.cache.recency) : y ≠ x := fun e => hnew (e ▸ hy)
  have hlast' {y : Nat} (hy : y ∈ a.cache.recency) : a'.lastUsed y = a.lastUsed y := by
    rw [lastUsed, hcards y (hne hy), lastUsed]
  constructor
  case room =>
    intro size
    rw [hoptions, hcache, BufferCache.put, List.length_modify]
    exact h.room size
  case nodup =>
    rw [hrecency]
    refine List.Nodup.append h.nodup (List.nodup_singleton x) ?_
    rwa [List.disjoint_singleton]
  case listed =>
    intro y
    rw [hrecency, List.mem_append, List.mem_singleton, h.listed y]
    by_cases hyx : y = x
    · simp [hyx, hclass]
    · simp [hyx, hclass' hyx]
  case bucket =>
    intro j
    have hold : a.cache.recency.filter (fun y => a'.classOf y = some j) = a.cache.bucket j := by
      rw [h.bucket j]
      exact List.filter_congr fun y hy => by rw [hclass' (hne hy)]
    have hroom : a.options.sizeClass size < a.cache.buckets.length := h.room _
    rw [hrecency, hcache, BufferCache.bucket_put _ hroom, List.filter_append, hold]
    split
    · rename_i hj
      simp [hclass, hj]
    · rename_i hj
      simp [hclass, hj]
  case sized =>
    intro y size' second j hy
    rw [hoptions]
    by_cases hyx : y = x
    · rw [hyx, hcard] at hy
      cases hy
      rfl
    · rw [hcards y hyx] at hy
      exact h.sized y size' second j hy
  case ordered =>
    rw [hrecency, List.pairwise_append]
    refine ⟨h.ordered.imp_of_mem fun hy hz hle => by rwa [hlast' hy, hlast' hz],
      List.pairwise_singleton _ _, fun y hy z hz => ?_⟩
    rw [List.mem_singleton.mp hz, hlast, hlast' hy]
    exact h.past y hy
  case past =>
    rw [hrecency]
    intro y hy
    rcases List.mem_append.mp hy with hy | hy
    · rw [hlast' hy]
      exact h.past y hy
    · rw [List.mem_singleton.mp hy]
      exact Int.le_of_eq hlast

end Aged

end Allocator

/-! ## Operations -/

/-- What keeps the cards keeps the classes. -/
theorem SameCards.classOf {m m' : Machine κ} (h : SameCards m m') (x : Nat) :
    m'.allocator.classOf x = m.allocator.classOf x := by
  cases hb : m.allocator.buffers[x]? with
  | some b =>
    obtain ⟨b', hb', hcard, -⟩ := h.kept x b hb
    rw [Allocator.classOf, Allocator.card?_of_buffer hb', hcard, Allocator.classOf, Allocator.card?_of_buffer hb]
  | none =>
    have hnone : m.allocator.classOf x = none := by
      rw [Allocator.classOf, Allocator.card?, hb]
      rfl
    rw [hnone]
    cases hb' : m'.allocator.buffers[x]? with
    | some b' => exact (Allocator.classOf_of_buffer hb').trans (h.fresh x b' hb hb')
    | none =>
      rw [Allocator.classOf, Allocator.card?, hb']
      rfl

/-- Relations that hold wherever the cards stay as they are. -/
class OfCards (R : Machine κ → Machine κ → Prop) : Prop extends OfAllocator R where
  of_cards {m m' : Machine κ} : SameCards m m' → R m m'

theorem keeps_of_cards {α : Type} {R : Machine κ → Machine κ → Prop} [OfCards R] {op : Op κ α}
    (h : Keeps SameCards op) : Keeps R op := h.mono fun _ _ => OfCards.of_cards

/-- The order of the cache is kept up to a second, and the clock of the allocator is not set anew. -/
structure Ages (time : Int) (m m' : Machine κ) : Prop where
  epoch : m'.allocator.epoch = m.allocator.epoch
  aged : m.allocator.Aged time → m'.allocator.Aged time

namespace Ages

variable {time : Int} {m m₁ m' : Machine κ}

theorem trans (h : Ages time m m₁) (h' : Ages time m₁ m') : Ages time m m' :=
  ⟨h'.epoch.trans h.epoch, fun ha => h'.aged (h.aged ha)⟩

theorem of_cards (h : SameCards m m') : Ages time m m' where
  epoch := congrArg (·.2.2) h.shelves
  aged ha := by
    refine ha.of_cards h.shelves (fun x hx => ?_) fun x hx => (h.classOf x).trans hx
    obtain ⟨i, hi⟩ := Option.ne_none_iff_exists'.mp hx
    obtain ⟨b, hb, -⟩ := Allocator.exists_of_classOf hi
    obtain ⟨b', hb', hcard, -⟩ := h.kept x b hb
    rw [Allocator.card?_of_buffer hb', Allocator.card?_of_buffer hb, hcard]

instance : OfCards (Ages (κ := κ) time) where
  refl m := of_cards (Journey.refl m)
  trans := trans
  of_allocator ha := of_cards (OfAllocator.of_allocator ha)
  of_cards := of_cards

end Ages

/-- The cards stay as they are, and the kernel was not asked for anything, so the clock stands still. -/
structure Still (m m' : Machine κ) : Prop extends SameCards m m' where
  kernel : m'.kernel = m.kernel

instance : Journey (Still (κ := κ)) where
  refl m := ⟨Journey.refl m, rfl⟩
  trans h h' := ⟨h.toSameCards.trans h'.toSameCards, h'.kernel.trans h.kernel⟩

/-- A change of a buffer that leaves the card and what is pending alone. -/
theorem still_editBuffer (x : Nat) {f : Buffer → Buffer} (hcard : ∀ b, (f b).card = b.card)
    (hf : ∀ b, (f b).access = b.access) : Keeps (Still (κ := κ)) (modifyBuffer x f) :=
  fun m hs => ⟨cards_editBuffer x hcard hf m hs, rfl⟩

theorem still_callbackAll (callback : Callback) : Keeps (Still (κ := κ)) (Device.callbackAll callback) :=
  fun m hs => ⟨keeps_callbackAll (R := SameCards) callback m hs, rfl⟩

/-- The journal is written to without the kernel. -/
theorem still_writeHandle (name : String) (b : Buffer) :
    Keeps (Still (κ := κ)) (Allocator.writeHandle name b) := by
  refine keeps_bind (keeps_handleFd b) fun fd => ?_
  unfold Allocator.write
  refine keeps_bind keeps_allocator fun a => ?_
  split
  · exact keeps_pure ()
  · exact keeps_modify fun _ => ⟨.of_buffers rfl rfl, rfl⟩
  · exact keeps_modify fun _ => ⟨.of_buffers rfl rfl, rfl⟩

theorem ages_uncache (time : Int) (x : Nat) : Keeps (Ages (κ := κ) time) (Allocator.uncache x) := by
  refine (faultless_uncache x).keeps fun {m m' _} he => ?_
  unfold Allocator.uncache at he
  obtain ⟨b, hb, he⟩ := bind_buffer_ok he
  obtain ⟨i, hi, he⟩ := bind_require_ok he
  have hclass : m.allocator.classOf x = some i := (Allocator.classOf_of_buffer hb).trans hi
  cases he
  refine ⟨rfl, fun h => h.remove b.size hclass rfl rfl (fun y hy => ?_) ?_⟩
  · exact (Allocator.card?_mapBuffer hb y).trans (if_neg hy.symm)
  · rw [Allocator.lastUsed_of_buffer hb]
    exact (Allocator.card?_mapBuffer hb x).trans (if_pos rfl)

section Kernel

variable [Kernel κ]

/-- The second that a machine is in, since its allocator was made. -/
def Machine.seconds (m : Machine κ) : Int := (Kernel.now m.kernel - m.allocator.epoch : Nat) / second

/-! ### Whatever is kept wherever the cards are -/

section OfCards

variable {R : Machine κ → Machine κ → Prop} [OfCards R]

theorem keeps_evict_of_cards (huncache : ∀ x, Keeps R (Allocator.uncache x)) (x : Nat) :
    Keeps R (Allocator.evict x) := by
  have hcount : Keeps (SameCards (κ := κ)) (modifyAllocator fun a => { a with evictions := a.evictions + 1 }) :=
    cards_modifyAllocator (fun _ => rfl) fun _ => rfl
  unfold Allocator.evict
  exact keeps_bind (huncache x) fun _ => keeps_of_cards (keeps_bind hcount fun _ => cards_free x)

omit [Kernel κ] in
/-- A buffer that is used again leaves the cache. -/
theorem keeps_reuse_of_cards (huncache : ∀ x, Keeps R (Allocator.uncache x)) (x : Nat) (label : String) :
    Keeps R (Allocator.reuse x label) := by
  have hlabel : Keeps (SameCards (κ := κ)) (modifyBuffer x fun b => { b with label }) :=
    cards_editBuffer x (fun _ => rfl) fun _ => rfl
  have hhits : Keeps (SameCards (κ := κ)) (modifyAllocator fun a => { a with hits := a.hits + 1 }) :=
    cards_modifyAllocator (fun _ => rfl) fun _ => rfl
  exact keeps_reuse_of (huncache x) (keeps_of_cards hlabel) (keeps_of_cards hhits)

/-- The end of a release puts the buffer into the cache before anything else, or does not cache it. -/
theorem finish_cases {x : Nat} {m m' : Machine κ} {u : Unit} (huncache : ∀ x, Keeps R (Allocator.uncache x))
    (he : (Allocator.finish x).exec m = (.ok u, m')) :
    R m m' ∨ ∃ m₁, (Allocator.enterCache x).exec m = (.ok (), m₁) ∧ R m₁ m' := by
  obtain ⟨b, -, ⟨-, hput⟩ | ⟨-, hfree⟩⟩ := finish_ok he
  · obtain ⟨m₁, m₂, henter, hold, hrest⟩ := cachePut_ok hput
    have hlabel : Keeps (SameCards (κ := κ)) (modifyBuffer x fun b => { b with label := cachedLabel }) :=
      cards_editBuffer x (fun _ => rfl) fun _ => rfl
    exact .inr ⟨m₁, henter, Journey.trans ((keeps_evictOld (keeps_evict_of_cards huncache)).ok hold)
      (hrest (keeps_of_cards hlabel))⟩
  · exact .inl (OfCards.of_cards ((cards_free x).ok hfree))

end OfCards

/-- A reference goes.  Only the end of a release does more than to leave the cards and the kernel alone. -/
theorem unreference_still {x : Nat} {m m' : Machine κ} {u : Unit}
    (he : (Buffer.unreference x).exec m = (.ok u, m')) :
    ∃ m₁, Still m m₁ ∧ (m' = m₁ ∨ (Allocator.finish x).exec m₁ = (.ok (), m')) := by
  unfold Buffer.unreference at he
  obtain ⟨_, m₁, h₁, he⟩ := bind_ok he
  have hlower : Still m m₁ := Keeps.ok (by exact still_editBuffer x (fun _ => rfl) fun _ => rfl) h₁
  obtain ⟨b, -, he⟩ := bind_buffer_ok he
  split at he
  · simp at he
  · split at he
    · unfold Buffer.beginRelease at he
      obtain ⟨b', -, he⟩ := bind_buffer_ok he
      obtain ⟨_, m₂, h₂, he⟩ := bind_ok he
      obtain ⟨_, m₃, h₃, he⟩ := bind_ok he
      obtain ⟨added, m₄, h₄, he⟩ := bind_ok he
      obtain ⟨_, m₅, h₅, he⟩ := bind_ok he
      have hclear : Still m₂ m₃ := Keeps.ok (by exact still_editBuffer x (fun _ => rfl) fun _ => rfl) h₃
      have hraise : Still m₄ m₅ := Keeps.ok (by exact still_editBuffer x (fun _ => rfl) fun _ => rfl) h₅
      have hwait : Still m m₅ := Journey.trans hlower <| Journey.trans ((still_writeHandle _ _).ok h₂) <|
        Journey.trans hclear <| Journey.trans ((still_callbackAll _).ok h₄) hraise
      split at he
      · obtain ⟨b'', -, he⟩ := bind_buffer_ok he
        obtain ⟨_, m₆, h₆, he⟩ := bind_ok he
        exact ⟨m₆, Journey.trans hwait ((still_writeHandle _ _).ok h₆), .inr he⟩
      · cases he
        exact ⟨_, hwait, .inl rfl⟩
    · cases he
      exact ⟨_, hlower, .inl rfl⟩

/-- A callback of a release runs.  Again only the end of a release does more. -/
theorem queueDrained_still {x : Nat} {m m' : Machine κ} {u : Unit}
    (he : (Buffer.queueDrained x).exec m = (.ok u, m')) :
    ∃ m₁, Still m m₁ ∧ (m' = m₁ ∨ (Allocator.finish x).exec m₁ = (.ok (), m')) := by
  unfold Buffer.queueDrained at he
  obtain ⟨_, m₁, h₁, he⟩ := bind_ok he
  have hlower : Still m m₁ := Keeps.ok (by exact still_editBuffer x (fun _ => rfl) fun _ => rfl) h₁
  obtain ⟨b, -, he⟩ := bind_buffer_ok he
  split at he
  · obtain ⟨_, m₂, h₂, he⟩ := bind_ok he
    exact ⟨m₂, Journey.trans hlower ((still_writeHandle _ _).ok h₂), .inr he⟩
  · cases he
    exact ⟨_, hlower, .inl rfl⟩

/-! ### By age -/

theorem ages_evict (time : Int) (x : Nat) : Keeps (Ages (κ := κ) time) (Allocator.evict x) :=
  keeps_evict_of_cards (ages_uncache time) x

/-- A buffer that is not cached enters the cache with the present second. -/
theorem ages_enterCache {x : Nat} {m m' : Machine κ} {u : Unit}
    (hx : m.allocator.classOf x = none) (he : (Allocator.enterCache x).exec m = (.ok u, m')) :
    Ages m.seconds m m' := by
  unfold Allocator.enterCache at he
  obtain ⟨b, hb, he⟩ := bind_buffer_ok he
  cases he
  refine ⟨rfl, fun h => h.put b.size hx rfl rfl (fun y hy => ?_) ?_⟩
  · exact (Allocator.card?_mapBuffer hb y).trans (if_neg hy.symm)
  · exact (Allocator.card?_mapBuffer hb x).trans (if_pos rfl)

/-- The end of a release, after what happens before it in the same call, may put the buffer, which is not cached,
into the cache. -/
theorem Still.ages_finish {x : Nat} {m m₁ m' : Machine κ} {u : Unit} (h : Still m m₁)
    (hx : m.allocator.classOf x = none) (he : (Allocator.finish x).exec m₁ = (.ok u, m')) :
    Ages m.seconds m m' := by
  have hseconds : m₁.seconds = m.seconds := by
    have hepoch : m₁.allocator.epoch = m.allocator.epoch := congrArg (·.2.2) h.shelves
    rw [Machine.seconds, h.kernel, hepoch, Machine.seconds]
  have hfirst : Ages m.seconds m m₁ := .of_cards h.toSameCards
  rcases finish_cases (ages_uncache m.seconds) he with hend | ⟨m₂, henter, hend⟩
  · exact hfirst.trans hend
  · have hput := ages_enterCache ((h.classOf x).trans hx) henter
    rw [hseconds] at hput
    exact (hfirst.trans hput).trans hend

/-- A reference goes.  If it is the last one of a buffer that is not cached, its release may put it into the
cache. -/
theorem ages_unreference {x : Nat} {m m' : Machine κ} {u : Unit} (hx : m.allocator.classOf x = none)
    (he : (Buffer.unreference x).exec m = (.ok u, m')) : Ages m.seconds m m' := by
  obtain ⟨m₁, hstill, rfl | hfinish⟩ := unreference_still he
  · exact .of_cards hstill.toSameCards
  · exact hstill.ages_finish hx hfinish

/-- A callback of a release runs.  The last one may put its buffer, which is not cached, into the cache. -/
theorem ages_queueDrained {x : Nat} {m m' : Machine κ} {u : Unit} (hx : m.allocator.classOf x = none)
    (he : (Buffer.queueDrained x).exec m = (.ok u, m')) : Ages m.seconds m m' := by
  obtain ⟨m₁, hstill, rfl | hfinish⟩ := queueDrained_still he
  · exact .of_cards hstill.toSameCards
  · exact hstill.ages_finish hx hfinish

omit [Kernel κ] in
theorem ages_reuse (time : Int) (x : Nat) (label : String) :
    Keeps (Ages (κ := κ) time) (Allocator.reuse x label) :=
  keeps_reuse_of_cards (ages_uncache time) x label

end Kernel

end Mali
