import Mali.Proofs.EventSlots
import Mali.Proofs.Ledger

/-!
# The books of an allocator

The books are in order if everything that is said twice about a buffer is said alike: the count of
queues a release waits for is the number of callbacks that are still to come, the size class in its
account is the class it is listed in, the arena leads to exactly the buffers that are not freed, and
the counter of freed buffers is their number.  Moreover a buffer that is cached or freed has no
references and nothing is still to come for it, so nothing can happen to it a second time; one that is
neither has references, or something is still to come for it.

Between two places a buffer is held: it has left the cache, or its release is over, but it is not yet
in the cache, freed or handed out.  At most one buffer is held at a time.

The callbacks still to come are a parameter (`waiting`), so that the books do not depend on where these
are: on a slot, or taken off it and about to run.

Whether a buffer is freed, cached, held or handed out is a matter of its account and of the arena.  The
part of the books that is about places keeps its order whatever the counts come to, so it needs no bound
on them, and the books are put together from it and from what is said about counts and size classes.

* `Storage.Placed`: everything is in its place.
* `Storage.Placed.move`, `Storage.Placed.add`: one account changes, and a new one comes.
* `Storage.Books`: the books are in order.
* `Storage.Books.update`: changing the counts of one buffer.
* `Storage.Books.shelve`, `Storage.Books.unshelve`, `Storage.Books.free`, `Storage.Books.add`: moving a
  buffer to another place.
-/

namespace Mali

/-! ## Lists -/

theorem countP_modify {α : Type} {p : α → Bool} {f : α → α} {l : List α} {i : Nat} {a : α}
    (h : l[i]? = some a) :
    (l.modify i f).countP p + (if p a then 1 else 0) = l.countP p + if p (f a) then 1 else 0 := by
  induction l generalizing i with
  | nil => simp at h
  | cons b l ih =>
    cases i with
    | zero =>
      simp only [List.getElem?_cons_zero, Option.some.injEq] at h
      subst h
      simp only [List.modify_zero_cons, List.countP_cons]
      omega
    | succ i =>
      have := ih (i := i) (by simpa using h)
      simp only [List.modify_succ_cons, List.countP_cons]
      omega

theorem getElem?_modify_of_some {α : Type} {f : α → α} {l : List α} {i : Nat} {a : α}
    (h : l[i]? = some a) (j : Nat) :
    (l.modify i f)[j]? = if i = j then some (f a) else l[j]? := by
  rw [List.getElem?_modify]
  split
  · subst_vars
    simp [h]
  · simp

/-- After a change of one element, an element is the changed one or was there before. -/
theorem getElem?_modify_cases {α : Type} {f : α → α} {l : List α} {i j : Nat} {a b : α}
    (h : l[i]? = some a) (hj : (l.modify i f)[j]? = some b) : (j = i ∧ b = f a) ∨ (j ≠ i ∧ l[j]? = some b) := by
  rw [getElem?_modify_of_some h] at hj
  split at hj
  · rename_i hij
    exact .inl ⟨hij.symm, (Option.some.inj hj).symm⟩
  · rename_i hij
    exact .inr ⟨fun e => hij e.symm, hj⟩

theorem getElem?_concat {α : Type} (l : List α) (a : α) (i : Nat) :
    (l ++ [a])[i]? = if i = l.length then some a else l[i]? := by
  rcases Nat.lt_trichotomy i l.length with hlt | rfl | hgt
  · rw [List.getElem?_append_left hlt, if_neg (Nat.ne_of_lt hlt)]
  · rw [List.getElem?_concat_length, if_pos rfl]
  · rw [if_neg (Nat.ne_of_gt hgt), List.getElem?_eq_none (Nat.le_of_lt hgt),
      List.getElem?_eq_none (by rw [List.length_append, List.length_singleton]; omega)]

/-- An element of a longer list is the new one or was there before. -/
theorem getElem?_concat_cases {α : Type} {l : List α} {i : Nat} {a b : α} (h : (l ++ [a])[i]? = some b) :
    (i = l.length ∧ b = a) ∨ (i ≠ l.length ∧ l[i]? = some b) := by
  rw [getElem?_concat] at h
  split at h
  · rename_i hi
    exact .inl ⟨hi, (Option.some.inj h).symm⟩
  · rename_i hi
    exact .inr ⟨hi, h⟩

theorem lookup_filter_ne (l : List (Nat × Nat)) (k h : Nat) :
    (l.filter fun e => e.1 ≠ k).lookup h = if h = k then none else l.lookup h := by
  induction l with
  | nil => simp
  | cons e l ih =>
    obtain ⟨a, b⟩ := e
    by_cases ha : a = k
    · subst ha
      rw [List.filter_cons_of_neg (by simp), ih]
      by_cases hk : h = a
      · simp [hk]
      · simp [List.lookup_cons, hk, beq_false_of_ne hk]
    · rw [List.filter_cons_of_pos (by simpa using ha), List.lookup_cons, List.lookup_cons, ih]
      by_cases hk : h = a
      · simp [hk, ha]
      · simp [beq_false_of_ne hk]

namespace BufferCache

theorem bucket_put (c : BufferCache) {i : Nat} (hi : i < c.buckets.length) (x j : Nat) :
    (c.put i x).bucket j = if i = j then c.bucket j ++ [x] else c.bucket j := by
  unfold bucket put
  rw [List.getD_eq_getElem?_getD, List.getD_eq_getElem?_getD, List.getElem?_modify]
  split
  · subst_vars
    simp [hi]
  · simp

theorem bucket_remove (c : BufferCache) (i x j : Nat) :
    (c.remove i x).bucket j = if i = j then eraseLast x (c.bucket j) else c.bucket j := by
  unfold bucket remove
  rw [List.getD_eq_getElem?_getD, List.getD_eq_getElem?_getD, List.getElem?_modify]
  split
  · cases c.buckets[j]? <;> simp [eraseLast]
  · simp

theorem mem_eraseLast {x y : Nat} {l : List Nat} (h : l.Nodup) :
    y ∈ eraseLast x l ↔ y ≠ x ∧ y ∈ l := by
  unfold eraseLast
  rw [List.mem_reverse, (List.nodup_reverse.mpr h).mem_erase_iff, List.mem_reverse]

theorem nodup_eraseLast {x : Nat} {l : List Nat} (h : l.Nodup) : (eraseLast x l).Nodup :=
  List.nodup_reverse.mpr ((List.nodup_reverse.mpr h).erase x)

end BufferCache

theorem AllocatorOptions.bucketIndex_lt {o : AllocatorOptions} (h : o.minBucket ≤ o.maxBucket)
    (size : Int64) : o.bucketIndex size < o.bucketCount := by
  unfold bucketIndex bucketCount clamp
  split
  · omega
  · split <;> omega

/-! ## Places -/

/-- Everything is in its place.  What is put away or held has no references, the arena leads to the
buffers that are not freed, and their handles are live. -/
structure Storage.Placed (S : Storage) (owns : Nat → Int → Prop) (held : Option Nat) : Prop where
  settled : ∀ (x : Nat) (a : Account), S.accounts[x]? = some a →
    (a.freed = true ∨ a.cachedIn ≠ none ∨ held = some x) → a.refs = 0
  held : ∀ x : Nat, held = some x →
    ∃ a : Account, S.accounts[x]? = some a ∧ a.freed = false ∧ a.cachedIn = none
  apart : ∀ (x : Nat) (a : Account), S.accounts[x]? = some a → a.freed = true → a.cachedIn = none
  arena : ∀ h x : Nat, S.arena.lookup h = some x ↔
    ∃ a : Account, S.accounts[x]? = some a ∧ a.handle = h ∧ a.freed = false
  /-- The handle of a buffer that is not freed is live, and has a descriptor only if the buffer was
  imported. -/
  owned : ∀ (x : Nat) (a : Account), S.accounts[x]? = some a → a.freed = false →
    ∃ fd, owns a.handle fd ∧ (a.shared = false → fd < 0)
  /-- Imported buffers are never cached. -/
  unshared : ∀ (x : Nat) (a : Account), S.accounts[x]? = some a → a.cachedIn ≠ none →
    a.shared = false

namespace Storage.Placed

variable {S S' : Storage} {owns owns' : Nat → Int → Prop} {held held' : Option Nat} {x : Nat}
  {a : Account} {f : Account → Account}

/-- Two buffers that are not freed have different handles. -/
theorem handle_inj (h : S.Placed owns held) {x y : Nat} {a b : Account}
    (hx : S.accounts[x]? = some a) (hy : S.accounts[y]? = some b) (ha : a.freed = false)
    (hb : b.freed = false) (hab : a.handle = b.handle) : x = y := by
  have h₁ := (h.arena a.handle x).mpr ⟨a, hx, rfl, ha⟩
  have h₂ := (h.arena a.handle y).mpr ⟨b, hy, hab.symm, hb⟩
  exact Option.some.inj (h₁.symm.trans h₂)

/-- A buffer with references is in no other place. -/
theorem live (h : S.Placed owns held) (hx : S.accounts[x]? = some a) (hrefs : a.refs ≠ 0) :
    a.freed = false ∧ a.cachedIn = none ∧ held ≠ some x := by
  refine ⟨?_, ?_, fun hheld => hrefs (h.settled x a hx (.inr (.inr hheld)))⟩
  · by_contra hfreed
    exact hrefs (h.settled x a hx (.inl (by simpa using hfreed)))
  · by_contra hcached
    exact hrefs (h.settled x a hx (.inr (.inl hcached)))

/-- A buffer changes its place, or its references.  The others stay where they are. -/
theorem move (h : S.Placed owns held) (hx : S.accounts[x]? = some a)
    (haccounts : S'.accounts = S.accounts.modify x f) (hhandle : (f a).handle = a.handle)
    (hshared : (f a).shared = a.shared) (hheld : ∀ y, y ≠ x → held' = some y → held = some y)
    (howns : ∀ y b, y ≠ x → S.accounts[y]? = some b → b.freed = false →
      ∀ fd, owns b.handle fd → owns' b.handle fd)
    (hown : (f a).freed = false → a.freed = false ∧ ∀ fd, owns a.handle fd → owns' a.handle fd)
    (hsettled : ((f a).freed = true ∨ (f a).cachedIn ≠ none ∨ held' = some x) → (f a).refs = 0)
    (hplace : held' = some x → (f a).freed = false ∧ (f a).cachedIn = none)
    (hapart : (f a).freed = true → (f a).cachedIn = none)
    (hunshared : (f a).cachedIn ≠ none → a.shared = false)
    (harena : ∀ k y, S'.arena.lookup k = some y ↔
      if y = x then a.handle = k ∧ (f a).freed = false else S.arena.lookup k = some y) :
    S'.Placed owns' held' := by
  have hget (y : Nat) : S'.accounts[y]? = if x = y then some (f a) else S.accounts[y]? := by
    rw [haccounts, getElem?_modify_of_some hx]
  -- every account is the changed one or was there before
  have hcases {y : Nat} {b : Account} (hy : S'.accounts[y]? = some b) :
      (y = x ∧ b = f a) ∨ (y ≠ x ∧ S.accounts[y]? = some b) :=
    getElem?_modify_cases hx (haccounts ▸ hy)
  constructor
  case settled =>
    intro y b hy hp
    rcases hcases hy with ⟨rfl, rfl⟩ | ⟨hne, hy⟩
    · exact hsettled hp
    · refine h.settled y b hy ?_
      rcases hp with hp | hp | hp
      · exact .inl hp
      · exact .inr (.inl hp)
      · exact .inr (.inr (hheld y hne hp))
  case held =>
    intro y hy
    rw [hget]
    split
    · rename_i hxy
      exact ⟨f a, rfl, hplace (hxy ▸ hy)⟩
    · rename_i hxy
      exact h.held y (hheld y (fun e => hxy e.symm) hy)
  case apart =>
    intro y b hy hf
    rcases hcases hy with ⟨rfl, rfl⟩ | ⟨-, hy⟩
    · exact hapart hf
    · exact h.apart y b hy hf
  case arena =>
    intro k y
    rw [harena, hget]
    by_cases hxy : y = x
    · subst hxy
      simp [hhandle]
    · rw [if_neg hxy, if_neg (Ne.symm hxy)]
      exact h.arena k y
  case owned =>
    intro y b hy hf
    rcases hcases hy with ⟨rfl, rfl⟩ | ⟨hne, hy⟩
    · obtain ⟨ha, hkeep⟩ := hown hf
      obtain ⟨fd, hfd, hneg⟩ := h.owned y a hx ha
      rw [hhandle, hshared]
      exact ⟨fd, hkeep fd hfd, hneg⟩
    · obtain ⟨fd, hfd, hneg⟩ := h.owned y b hy hf
      exact ⟨fd, howns y b hne hy hf fd hfd, hneg⟩
  case unshared =>
    intro y b hy hc
    rcases hcases hy with ⟨rfl, rfl⟩ | ⟨-, hy⟩
    · rw [hshared]
      exact hunshared hc
    · exact h.unshared y b hy hc

/-- A new buffer under a handle that stands for none.  It may be held. -/
theorem add (h : S.Placed owns none) (howns : ∀ k fd, owns k fd → owns' k fd)
    (hnew : ∃ fd, owns' a.handle fd ∧ (a.shared = false → fd < 0))
    (hfree : S.arena.lookup a.handle = none) (hcached : a.cachedIn = none) (hfreed : a.freed = false)
    (hheld : ∀ y, held' = some y → y = S.accounts.length ∧ a.refs = 0)
    (haccounts : S'.accounts = S.accounts ++ [a])
    (harena : S'.arena =
      (S.arena.filter fun e => e.1 ≠ a.handle) ++ [(a.handle, S.accounts.length)]) :
    S'.Placed owns' held' := by
  -- every account is the new one or was there before
  have hcases {y : Nat} {b : Account} (hy : S'.accounts[y]? = some b) :
      (y = S.accounts.length ∧ b = a) ∨ S.accounts[y]? = some b :=
    (getElem?_concat_cases (haccounts ▸ hy)).imp_right And.right
  have hlast : S'.accounts[S.accounts.length]? = some a := by
    rw [haccounts, List.getElem?_concat_length]
  have hold {y : Nat} {b : Account} (hy : S.accounts[y]? = some b) : S'.accounts[y]? = some b := by
    rw [haccounts, List.getElem?_append_left (List.getElem?_eq_some_iff.mp hy).1, hy]
  have hend {b : Account} : S.accounts[S.accounts.length]? ≠ some b := by
    rw [List.getElem?_eq_none (Nat.le_refl _)]
    exact nofun
  constructor
  case settled =>
    intro y b hy hp
    rcases hcases hy with ⟨rfl, rfl⟩ | hy
    · rcases hp with hp | hp | hp
      · rw [hfreed] at hp
        cases hp
      · exact absurd hcached hp
      · exact (hheld _ hp).2
    · rcases hp with hp | hp | hp
      · exact h.settled y b hy (.inl hp)
      · exact h.settled y b hy (.inr (.inl hp))
      · obtain ⟨rfl, -⟩ := hheld _ hp
        exact absurd hy hend
  case held =>
    intro y hy
    obtain ⟨rfl, -⟩ := hheld y hy
    exact ⟨a, hlast, hfreed, hcached⟩
  case apart =>
    intro y b hy hf
    rcases hcases hy with ⟨rfl, rfl⟩ | hy
    · exact hcached
    · exact h.apart y b hy hf
  case arena =>
    intro k y
    rw [harena, List.lookup_append, lookup_filter_ne]
    rcases eq_or_ne k a.handle with rfl | hk
    · rw [if_pos rfl, Option.none_or, List.lookup_cons_self, Option.some_inj]
      constructor
      · rintro rfl
        exact ⟨a, hlast, rfl, hfreed⟩
      · rintro ⟨b, hy, hhandle, hf⟩
        rcases hcases hy with ⟨rfl, -⟩ | hy
        · rfl
        · have := (h.arena b.handle y).mpr ⟨b, hy, rfl, hf⟩
          rw [hhandle, hfree] at this
          cases this
    · rw [if_neg hk, List.lookup_cons, beq_false_of_ne hk, List.lookup_nil, Option.or_none, h.arena]
      constructor
      · rintro ⟨b, hy, hb⟩
        exact ⟨b, hold hy, hb⟩
      · rintro ⟨b, hy, hhandle, hf⟩
        rcases hcases hy with ⟨-, rfl⟩ | hy
        · exact absurd hhandle.symm hk
        · exact ⟨b, hy, hhandle, hf⟩
  case owned =>
    intro y b hy hf
    rcases hcases hy with ⟨rfl, rfl⟩ | hy
    · exact hnew
    · obtain ⟨fd, hfd, hneg⟩ := h.owned y b hy hf
      exact ⟨fd, howns _ _ hfd, hneg⟩
  case unshared =>
    intro y b hy hc
    rcases hcases hy with ⟨rfl, rfl⟩ | hy
    · exact absurd hcached hc
    · exact h.unshared y b hy hc

/-- Handles may be given out at any time. -/
theorem mono (h : S.Placed owns held) (howns : ∀ k fd, owns k fd → owns' k fd) : S.Placed owns' held :=
  { h with
    owned := fun x a hx ha => by
      obtain ⟨fd, hfd, hneg⟩ := h.owned x a hx ha
      exact ⟨fd, howns _ _ hfd, hneg⟩ }

end Storage.Placed

/-! ## The books -/

/-- What is said twice is said alike, and what is put away is not in use. -/
structure Storage.Books (S : Storage) (waiting : Nat → Nat) (owns : Nat → Int → Prop)
    (held : Option Nat) : Prop where
  /-- Callbacks are to come only for buffers that exist. -/
  named : ∀ x, S.accounts.length ≤ x → waiting x = 0
  counted : ∀ (x : Nat) (a : Account), S.accounts[x]? = some a → a.gpuRefs = Int32.ofNat (waiting x)
  /-- Nothing is to come for a buffer that is put away or held. -/
  settled : ∀ (x : Nat) (a : Account), S.accounts[x]? = some a →
    (a.freed = true ∨ a.cachedIn ≠ none ∨ held = some x) → a.refs = 0 ∧ waiting x = 0
  /-- A buffer that is in no place has references, or something is to come for it. -/
  active : ∀ (x : Nat) (a : Account), S.accounts[x]? = some a → a.freed = false → a.cachedIn = none →
    held ≠ some x → 0 ≤ a.refs ∧ (a.refs = 0 → waiting x ≠ 0)
  held : ∀ x : Nat, held = some x →
    ∃ a : Account, S.accounts[x]? = some a ∧ a.freed = false ∧ a.cachedIn = none
  apart : ∀ (x : Nat) (a : Account), S.accounts[x]? = some a → a.freed = true → a.cachedIn = none
  arena : ∀ h x : Nat, S.arena.lookup h = some x ↔
    ∃ a : Account, S.accounts[x]? = some a ∧ a.handle = h ∧ a.freed = false
  /-- The handle of a buffer that is not freed is live, and has a descriptor only if the buffer was
  imported. -/
  owned : ∀ (x : Nat) (a : Account), S.accounts[x]? = some a → a.freed = false →
    ∃ fd, owns a.handle fd ∧ (a.shared = false → fd < 0)
  /-- Imported buffers are never cached. -/
  unshared : ∀ (x : Nat) (a : Account), S.accounts[x]? = some a → a.cachedIn ≠ none →
    a.shared = false
  buckets : ∀ i x : Nat, x ∈ S.cache.bucket i ↔ ∃ a : Account, S.accounts[x]? = some a ∧ a.cachedIn = some i
  nodup : ∀ i, (S.cache.bucket i).Nodup
  classes : S.cache.buckets.length = S.options.bucketCount
  range : S.options.minBucket ≤ S.options.maxBucket
  frees : S.frees = S.accounts.countP (·.freed)

namespace Storage

namespace Books

variable {S : Storage} {w : Nat → Nat} {owns : Nat → Int → Prop} {held : Option Nat}

/-- What the books say about places does not depend on any count. -/
theorem placed (h : S.Books w owns held) : S.Placed owns held :=
  { h with settled := fun x a hx hp => (h.settled x a hx hp).1 }

/-- Handles may be given out at any time. -/
theorem mono {owns' : Nat → Int → Prop} (h : S.Books w owns held)
    (ho : ∀ k fd, owns k fd → owns' k fd) : S.Books w owns' held := { h with owned := (h.placed.mono ho).owned }

/-- Changing one buffer.  Of the others nothing has to be said again, as long as their places stay the
same; of the one that changes everything is said anew. -/
theorem change {S' : Storage} {w' : Nat → Nat} {owns' : Nat → Int → Prop} {held' : Option Nat} {x : Nat}
    {a : Account} {f : Account → Account} (h : S.Books w owns held) (hx : S.accounts[x]? = some a)
    (haccounts : S'.accounts = S.accounts.modify x f) (hoptions : S'.options = S.options)
    (hhandle : (f a).handle = a.handle) (hshared : (f a).shared = a.shared)
    (hw : ∀ y, y ≠ x → w' y = w y) (hheld : ∀ y, y ≠ x → (held' = some y ↔ held = some y))
    (howns : ∀ k fd, k ≠ a.handle ∨ (f a).freed = a.freed → owns k fd → owns' k fd)
    (hmark : a.freed = true → (f a).freed = true)
    (hcounted : (f a).gpuRefs = Int32.ofNat (w' x))
    (hsettled : ((f a).freed = true ∨ (f a).cachedIn ≠ none ∨ held' = some x) →
      (f a).refs = 0 ∧ w' x = 0)
    (hactive : (f a).freed = false → (f a).cachedIn = none → held' ≠ some x →
      0 ≤ (f a).refs ∧ ((f a).refs = 0 → w' x ≠ 0))
    (hplace : held' = some x → (f a).freed = false ∧ (f a).cachedIn = none)
    (hapart : (f a).freed = true → (f a).cachedIn = none)
    (hunshared : (f a).cachedIn ≠ none → a.shared = false)
    (harena : ∀ k y, S'.arena.lookup k = some y ↔
      if y = x then a.handle = k ∧ (f a).freed = false else S.arena.lookup k = some y)
    (hbuckets : ∀ i y, y ∈ S'.cache.bucket i ↔
      if y = x then (f a).cachedIn = some i else y ∈ S.cache.bucket i)
    (hnodup : ∀ i, (S'.cache.bucket i).Nodup)
    (hclasses : S'.cache.buckets.length = S.cache.buckets.length)
    (hfrees : S'.frees + (if a.freed then 1 else 0) = S.frees + if (f a).freed then 1 else 0) :
    S'.Books w' owns' held' := by
  have hplaced : S'.Placed owns' held' := by
    refine h.placed.move hx haccounts hhandle hshared (fun y hy => (hheld y hy).mp)
      (fun y b hne hy hb fd => howns _ fd ?_) (fun hf => ?_) (fun hp => (hsettled hp).1) hplace hapart hunshared harena
    · by_cases ha : a.freed = true
      · exact .inr ((hmark ha).trans ha.symm)
      · exact .inl fun e => hne (h.placed.handle_inj hy hx hb (by simpa using ha) e)
    · have ha : a.freed = false := by
        by_contra ha
        rw [hmark (by simpa using ha)] at hf
        cases hf
      exact ⟨ha, fun fd => howns _ fd (.inr (hf.trans ha.symm))⟩
  have hcases {y : Nat} {b : Account} (hy : S'.accounts[y]? = some b) :
      (y = x ∧ b = f a) ∨ (y ≠ x ∧ S.accounts[y]? = some b) :=
    getElem?_modify_cases hx (haccounts ▸ hy)
  have hlt : x < S.accounts.length := (List.getElem?_eq_some_iff.mp hx).1
  refine { hplaced with
    named := fun y hy => ?named
    counted := fun y b hy => ?counted
    settled := fun y b hy hp => ?settled
    active := fun y b hy hf hc hne => ?active
    buckets := fun i y => ?buckets
    nodup := hnodup
    classes := by rw [hclasses, hoptions, h.classes]
    range := by
      rw [hoptions]
      exact h.range
    frees := ?frees }
  case named =>
    rw [haccounts, List.length_modify] at hy
    rw [hw y (by omega)]
    exact h.named y hy
  case counted =>
    rcases hcases hy with ⟨rfl, rfl⟩ | ⟨hne, hy⟩
    · exact hcounted
    · rw [hw y hne]
      exact h.counted y b hy
  case settled =>
    rcases hcases hy with ⟨rfl, rfl⟩ | ⟨hne, hy⟩
    · exact hsettled hp
    · rw [hw y hne]
      exact h.settled y b hy (hp.imp_right (Or.imp_right (hheld y hne).mp))
  case active =>
    rcases hcases hy with ⟨rfl, rfl⟩ | ⟨hxy, hy⟩
    · exact hactive hf hc hne
    · rw [hw y hxy]
      exact h.active y b hy hf hc fun e => hne ((hheld y hxy).mpr e)
  case buckets =>
    rw [hbuckets, haccounts, getElem?_modify_of_some hx]
    by_cases hxy : y = x
    · subst hxy
      simp
    · rw [if_neg hxy, if_neg (Ne.symm hxy)]
      exact h.buckets i y
  case frees =>
    have := countP_modify (p := (·.freed)) (f := f) hx
    rw [haccounts]
    rw [h.frees] at hfrees
    omega

/-- Changing the counts of one buffer, and whether it is held, while its place stays the same. -/
theorem update {w' : Nat → Nat} {held' : Option Nat} {x : Nat} {a : Account}
    {f : Account → Account} (h : S.Books w owns held) (hx : S.accounts[x]? = some a)
    (hhandle : (f a).handle = a.handle) (hshared : (f a).shared = a.shared)
    (hcached : (f a).cachedIn = a.cachedIn) (hfreed : (f a).freed = a.freed) (hw : ∀ y, y ≠ x → w' y = w y)
    (hheld : ∀ y, y ≠ x → (held' = some y ↔ held = some y))
    (hplace : held' = some x → a.freed = false ∧ a.cachedIn = none)
    (hcounted : (f a).gpuRefs = Int32.ofNat (w' x))
    (hsettled : (a.freed = true ∨ a.cachedIn ≠ none ∨ held' = some x) →
      (f a).refs = 0 ∧ w' x = 0)
    (hactive : a.freed = false → a.cachedIn = none → held' ≠ some x →
      0 ≤ (f a).refs ∧ ((f a).refs = 0 → w' x ≠ 0)) :
    ({ S with accounts := S.accounts.modify x f } : Storage).Books w' owns held' := by
  refine h.change hx rfl rfl hhandle hshared hw hheld (fun _ _ _ ho => ho)
    (fun ha => hfreed.trans ha) hcounted (fun hp => hsettled (by rwa [hfreed, hcached] at hp))
    (fun hf hc => hactive (hfreed ▸ hf) (hcached ▸ hc))
    (fun hy => by rw [hfreed, hcached]; exact hplace hy)
    (fun hf => by rw [hcached]; exact h.apart x a hx (hfreed ▸ hf))
    (fun hc => h.unshared x a hx (hcached ▸ hc)) (fun k y => ?_) (fun i y => ?_)
    h.nodup rfl (by rw [hfreed])
  · split
    · subst_vars
      rw [hfreed, h.arena k y]
      simp [hx]
    · rfl
  · split
    · subst_vars
      rw [hcached, h.buckets i y]
      simp [hx]
    · rfl

/-- A held buffer enters the cache. -/
theorem shelve {x i : Nat} {a : Account} {f : Account → Account} (h : S.Books w owns (some x))
    (hx : S.accounts[x]? = some a) (hi : i < S.cache.buckets.length) (hshared : a.shared = false)
    (hf : f a = { a with cachedIn := some i }) :
    ({ S with accounts := S.accounts.modify x f, cache := S.cache.put i x } : Storage).Books w owns
      none := by
  obtain ⟨b, hb, hfreed, hcached⟩ := h.held x rfl
  rw [hx] at hb
  cases hb
  have hnew (j : Nat) : x ∉ S.cache.bucket j := by
    rw [h.buckets j x]
    rintro ⟨b, hb, hj⟩
    rw [hx] at hb
    cases hb
    rw [hcached] at hj
    cases hj
  refine h.change hx rfl rfl (by rw [hf]) (by rw [hf]) (fun _ _ => rfl)
    (fun y hy => by simp [Ne.symm hy])
    (fun _ _ _ ho => ho) (fun ha => by rw [hf]; exact ha) (by rw [hf]; exact h.counted x a hx)
    (fun _ => by rw [hf]; exact h.settled x a hx (.inr (.inr rfl)))
    (fun _ hc => by rw [hf] at hc; cases hc) (fun hy => by cases hy)
    (fun hb => by rw [hf, hfreed] at hb; cases hb) (fun _ => hshared) (fun k y => ?_) (fun j y => ?_)
    (fun j => ?_) (by simp [BufferCache.put]) (by rw [hf])
  · split
    · subst_vars
      rw [hf, h.arena k y]
      simp [hx]
    · rfl
  · rw [BufferCache.bucket_put _ hi, hf]
    by_cases hxy : y = x <;> by_cases hij : i = j
    · subst hxy hij
      simp
    · subst hxy
      simp [hij, hnew j]
    · simp [hij, hxy]
    · simp [hij, hxy]
  · rw [BufferCache.bucket_put _ hi]
    split
    · refine List.Nodup.append (h.nodup j) (List.nodup_singleton x) ?_
      rw [List.disjoint_singleton]
      exact hnew j
    · exact h.nodup j

/-- A cached buffer leaves the cache, and is held. -/
theorem unshelve {x i : Nat} {a : Account} {f : Account → Account} (h : S.Books w owns none)
    (hx : S.accounts[x]? = some a) (hi : a.cachedIn = some i)
    (hf : f a = { a with cachedIn := none }) :
    ({ S with accounts := S.accounts.modify x f, cache := S.cache.remove i x } : Storage).Books w
      owns (some x) := by
  have hfreed : a.freed = false := by
    by_contra hb
    have := h.apart x a hx (by simpa using hb)
    rw [hi] at this
    cases this
  refine h.change hx rfl rfl (by rw [hf]) (by rw [hf]) (fun _ _ => rfl)
    (fun y hy => by simp [Ne.symm hy])
    (fun _ _ _ ho => ho) (fun ha => by rw [hf]; exact ha) (by rw [hf]; exact h.counted x a hx)
    (fun _ => by rw [hf]; exact h.settled x a hx (.inr (.inl (by simp [hi]))))
    (fun _ _ hne => absurd rfl hne)
    (fun _ => by rw [hf]; exact ⟨hfreed, rfl⟩) (fun _ => by rw [hf])
    (fun _ => h.unshared x a hx (by simp [hi])) (fun k y => ?_) (fun j y => ?_) (fun j => ?_)
    (by simp [BufferCache.remove]) (by rw [hf])
  · split
    · subst_vars
      rw [hf, h.arena k y]
      simp [hx]
    · rfl
  · rw [BufferCache.bucket_remove, hf]
    have hold := h.buckets j y
    by_cases hxy : y = x <;> by_cases hij : i = j
    · subst hxy hij
      simp [BufferCache.mem_eraseLast (h.nodup i)]
    · subst hxy
      simp [hij, hold, hx, hi]
    · subst hij
      simp [BufferCache.mem_eraseLast (h.nodup i), hxy]
    · simp [hij, hxy]
  · rw [BufferCache.bucket_remove]
    split
    · exact BufferCache.nodup_eraseLast (h.nodup j)
    · exact h.nodup j

/-- A held buffer is freed, and its handle with it. -/
theorem free {x : Nat} {a : Account} {owns' : Nat → Int → Prop} {f : Account → Account}
    (h : S.Books w owns (some x)) (hx : S.accounts[x]? = some a)
    (howns : ∀ k fd, k ≠ a.handle → owns k fd → owns' k fd)
    (hf : f a = { a with usage := [], freed := true }) :
    ({ S with
        accounts := S.accounts.modify x f
        arena := S.arena.filter fun e => e.1 ≠ a.handle
        frees := S.frees + 1 } : Storage).Books w owns' none := by
  obtain ⟨b, hb, hfreed, hcached⟩ := h.held x rfl
  rw [hx] at hb
  cases hb
  refine h.change hx rfl rfl (by rw [hf]) (by rw [hf]) (fun _ _ => rfl)
    (fun y hy => by simp [Ne.symm hy])
    (fun k fd hk => howns k fd (hk.resolve_right (by rw [hf, hfreed]; simp)))
    (fun _ => by rw [hf]) (by rw [hf]; exact h.counted x a hx)
    (fun _ => by rw [hf]; exact h.settled x a hx (.inr (.inr rfl)))
    (fun hb => by rw [hf] at hb; cases hb) (fun hy => by cases hy)
    (fun _ => by rw [hf]; exact hcached) (fun hc => absurd (by rw [hf]; exact hcached) hc)
    (fun k y => ?_) (fun j y => ?_) h.nodup rfl
    (by simp [hf, hfreed])
  · rw [lookup_filter_ne, hf]
    by_cases hxy : y = x
    · subst hxy
      rw [if_pos rfl]
      split
      · simp
      · rename_i hk
        rw [h.arena k y]
        simp [hx, Ne.symm hk]
    · rw [if_neg hxy]
      split
      · subst_vars
        -- the handle led to the freed buffer, so to no other one
        rw [(h.arena a.handle x).mpr ⟨a, hx, rfl, hfreed⟩]
        simp [Ne.symm hxy]
      · rfl
  · split
    · subst_vars
      rw [hf, h.buckets j y]
      simp [hx]
    · rfl

/-- A new buffer under a handle that is not in use.  It is held, or has its first reference. -/
theorem add {a : Account} {owns' : Nat → Int → Prop} {held' : Option Nat} (h : S.Books w owns none)
    (howns : ∀ k fd, owns k fd → owns' k fd)
    (hnew : ∃ fd, owns' a.handle fd ∧ (a.shared = false → fd < 0))
    (hfree : S.arena.lookup a.handle = none) (hgpu : a.gpuRefs = 0) (hcached : a.cachedIn = none)
    (hfreed : a.freed = false)
    (hheld : held' = none ∧ 0 < a.refs ∨ held' = some S.accounts.length ∧ a.refs = 0) :
    ({ S with
        accounts := S.accounts ++ [a]
        arena := (S.arena.filter fun e => e.1 ≠ a.handle) ++ [(a.handle, S.accounts.length)] } :
      Storage).Books w owns' held' := by
  have hplaced : ({ S with
      accounts := S.accounts ++ [a]
      arena := (S.arena.filter fun e => e.1 ≠ a.handle) ++ [(a.handle, S.accounts.length)] } :
    Storage).Placed owns' held' := by
    refine h.placed.add howns hnew hfree hcached hfreed (fun y hy => ?_) rfl rfl
    rcases hheld with ⟨hheld, -⟩ | ⟨hheld, hrefs⟩
    · rw [hheld] at hy
      cases hy
    · rw [hheld] at hy
      exact ⟨(Option.some.inj hy).symm, hrefs⟩
  have hzero : w S.accounts.length = 0 := h.named _ (Nat.le_refl _)
  refine { hplaced with
    named := fun y hy => ?named
    counted := fun y b hy => ?counted
    settled := fun y b hy hp => ⟨hplaced.settled y b hy hp, ?settled⟩
    active := fun y b hy hf hc hne => ?active
    buckets := fun i y => ?buckets
    nodup := h.nodup
    classes := h.classes
    range := h.range
    frees := ?frees }
  case named =>
    rw [List.length_append] at hy
    exact h.named y (by omega)
  case counted =>
    rcases getElem?_concat_cases hy with ⟨rfl, rfl⟩ | ⟨-, hy⟩
    · rw [hgpu, hzero]
      rfl
    · exact h.counted y b hy
  case settled =>
    rcases getElem?_concat_cases hy with ⟨rfl, rfl⟩ | ⟨-, hold⟩
    · exact hzero
    · refine (h.settled y b hold (hp.imp_right (Or.imp_right fun hp => ?_))).2
      rcases hheld with ⟨hheld, -⟩ | ⟨hheld, -⟩
      · rwa [hheld] at hp
      · rw [hheld] at hp
        cases hp
        exact absurd (List.getElem?_eq_some_iff.mp hold).1 (Nat.lt_irrefl _)
  case active =>
    rcases getElem?_concat_cases hy with ⟨rfl, rfl⟩ | ⟨-, hy⟩
    · rcases hheld with ⟨-, hrefs⟩ | ⟨hheld, -⟩
      · refine ⟨Int32.le_of_lt hrefs, fun hz => ?_⟩
        rw [hz] at hrefs
        exact absurd hrefs (by decide)
      · exact absurd hheld hne
    · exact h.active y b hy hf hc nofun
  case buckets =>
    rw [h.buckets i y]
    refine ⟨fun ⟨b, hy, hi⟩ => ⟨b, ?_, hi⟩, fun ⟨b, hy, hi⟩ => ?_⟩
    · rw [List.getElem?_append_left (List.getElem?_eq_some_iff.mp hy).1, hy]
    · rcases getElem?_concat_cases hy with ⟨-, rfl⟩ | ⟨-, hy⟩
      · rw [hcached] at hi
        cases hi
      · exact ⟨b, hy, hi⟩
  case frees =>
    rw [List.countP_append, h.frees]
    simp [hfreed]

end Books

end Storage

end Mali
