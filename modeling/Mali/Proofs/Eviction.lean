import Mali.Kernel.Bench
import Mali.Proofs.CacheRuns

/-!
# What is evicted

In order, the cache passes its own check, and the entries that were unused for too long are at the front of
the list by age.  Evicting from the front up to the first entry that is not stale therefore frees exactly the
stale ones.

An entry is stale if its age in seconds is past that of the options, which is computed in double precision.
That is the whole seconds of the age, unless the fraction is so close to one that it is rounded up.

* `Allocator.Shelved`: what is cached, where and how.
* `Allocator.check_of_shelved`: such a cache passes its check.
* `exec_free`: freeing returns, whatever the kernel answers.
* `exec_uncache`: a cached buffer can be taken out of the cache.
* `exec_evictWhile`, `exec_evictStale`: evictions return, and what they free.
* `AllocatorOptions.RoundsUp`: the fraction of the stale age is rounded up.
* `ShelfRun.cache_sound`: all of this holds along every run.
-/

namespace Mali

open Op

variable {κ : Type}

/-! ## What is cached -/

/-- Every cached buffer is in the class of its size and in the list by age once, has its handle, no
references and no recorded uses, and was neither imported nor freed; no other buffer is marked as cached. -/
structure Allocator.Shelved (a : Allocator) : Prop where
  /-- The classes together hold what the list by age holds. -/
  together : a.cache.buckets.flatten.Perm a.cache.recency
  once : (a.cache.recency.map a.handleOf).Nodup
  cached : ∀ i, ∀ x ∈ a.cache.bucket i, ∃ b, a.buffers[x]? = some b ∧ a.lookup? b.handle = some x ∧
    b.cachedIn = some i ∧ i = a.options.sizeClass b.size ∧ b.refs = 0 ∧ b.usage = [] ∧
    b.has BufferFlag.shared = false ∧ b.freed = false
  others : ∀ (x : Nat) (b : Buffer), a.buffers[x]? = some b → x ∉ a.cache.recency → b.cachedIn = none
  aged : a.cache.recency.Pairwise fun x y => a.lastUsed x ≤ a.lastUsed y
  inOrder : ∀ i, (a.cache.bucket i).Sublist a.cache.recency

namespace Allocator

variable {a : Allocator}

theorem handleOf_of_buffer {x : Nat} {b : Buffer} (h : a.buffers[x]? = some b) : a.handleOf x = b.handle := by
  rw [handleOf, h]
  rfl

theorem bucket_getElem {i : Nat} {l : List Nat} (h : a.cache.buckets[i]? = some l) : a.cache.bucket i = l := by
  rw [BufferCache.bucket, List.getD_eq_getElem?_getD, h]
  rfl

/-- The classes are parts of the list by age that have nothing in common, and nothing is left over. -/
theorem Aged.together {time : Int} (h : a.Aged time) : a.cache.buckets.flatten.Perm a.cache.recency := by
  have hmem {i : Nat} {x : Nat} (hx : x ∈ a.cache.bucket i) : x ∈ a.cache.recency ∧ a.classOf x = some i := by
    rw [h.bucket i, List.mem_filter] at hx
    simpa using hx
  have hflat : a.cache.buckets.flatten.Nodup := by
    rw [List.nodup_flatten]
    constructor
    · intro l hl
      obtain ⟨i, hi⟩ := List.mem_iff_getElem?.mp hl
      rw [← bucket_getElem hi, h.bucket i]
      exact h.nodup.filter _
    · rw [List.pairwise_iff_getElem]
      intro i j hi hj hij x hx hx'
      have hclass := (hmem (bucket_getElem (List.getElem?_eq_getElem hi) ▸ hx)).2
      rw [(hmem (bucket_getElem (List.getElem?_eq_getElem hj) ▸ hx')).2] at hclass
      exact Nat.ne_of_gt hij (Option.some.inj hclass)
  rw [List.perm_ext_iff_of_nodup hflat h.nodup]
  intro x
  rw [List.mem_flatten]
  constructor
  · rintro ⟨l, hl, hx⟩
    obtain ⟨i, hi⟩ := List.mem_iff_getElem?.mp hl
    exact (hmem (bucket_getElem hi ▸ hx)).1
  · intro hx
    obtain ⟨i, hi⟩ := Option.ne_none_iff_exists'.mp ((h.listed x).mp hx)
    obtain ⟨b, hb, hcached⟩ := exists_of_classOf hi
    have hlt : i < a.cache.buckets.length := by
      have hcard : a.card? x = some (b.size, b.lastUsed, some i) := by
        rw [card?_of_buffer hb, Buffer.card, hcached]
      rw [h.sized x _ _ i hcard]
      exact h.room _
    refine ⟨a.cache.buckets[i], List.getElem_mem hlt, ?_⟩
    rw [← bucket_getElem (List.getElem?_eq_getElem hlt), h.bucket i, List.mem_filter]
    exact ⟨hx, by simpa using hi⟩

/-! ## The check -/

/-- By recursion on what is left to check of a class. -/
theorem checkBucket_of_shelved (h : a.Shelved) (i : Nat) {l : List Nat} (hl : l <:+ a.cache.bucket i)
    (hnodup : a.cache.recency.Nodup) : a.checkBucket i l = none := by
  induction l with
  | nil => rfl
  | cons x rest ih =>
    have hx : x ∈ a.cache.bucket i := hl.subset List.mem_cons_self
    obtain ⟨b, hb, hlookup, hcached, -, -, husage, -, -⟩ := h.cached i x hx
    have hhandle := handleOf_of_buffer hb
    have hfind : a.find? (a.handleOf x) = some b := by
      rw [find?, hhandle, hlookup, Option.bind_some, hb]
    have hentry : a.cached? x = some x := by
      rw [cached?, hb, Option.bind_some, hlookup]
    have hrest : x ∉ rest :=
      (List.nodup_cons.mp ((hnodup.sublist (h.inOrder i)).sublist hl.sublist)).1
    have hrecent : x ∈ a.cache.recency := (h.inOrder i).subset hx
    rw [checkBucket]
    simp only [hfind]
    rw [if_neg (by simp [hentry, hcached, hrest]), if_neg (by simp [hrecent]), if_neg (by simp [husage])]
    exact ih ((List.suffix_cons x rest).trans hl)

theorem checkBuckets_of_shelved (h : a.Shelved) (hnodup : a.cache.recency.Nodup) :
    (a.cache.buckets.zipIdx.findSome? fun (entries, i) => a.checkBucket i entries) = none := by
  rw [List.findSome?_eq_none_iff]
  rintro ⟨l, i⟩ hl
  have hi : a.cache.buckets[i]? = some l := List.mem_zipIdx_iff_getElem?.mp hl
  exact checkBucket_of_shelved h i (bucket_getElem hi ▸ List.suffix_refl _) hnodup

theorem check_of_shelved (h : a.Shelved) (hnodup : a.cache.recency.Nodup) : a.check = none := by
  have htotal : a.cache.total = a.cache.size := by
    rw [BufferCache.total, BufferCache.size]
    exact h.together.length_eq
  rw [check, checkBuckets_of_shelved h hnodup]
  exact if_neg (not_not.mpr htotal)

end Allocator

section Kernel

variable [Kernel κ]

omit [Kernel κ] in
/-- What is listed by age is cached, under its own handle. -/
theorem Machine.Books.listed {m : Machine κ} {ready : List Callback} {held : Option Nat} {time : Int}
    (hb : m.Books ready held) (ha : m.allocator.Aged time) {x : Nat} (hx : x ∈ m.allocator.cache.recency) :
    ∃ b i, m.allocator.buffers[x]? = some b ∧ b.cachedIn = some i ∧ b.freed = false ∧
      m.allocator.lookup? b.handle = some x := by
  obtain ⟨i, hi⟩ := Option.ne_none_iff_exists'.mp ((ha.listed x).mp hx)
  obtain ⟨b, hget, hcached⟩ := Allocator.exists_of_classOf hi
  have hx := Machine.accounts_of_buffer hget
  have hfreed : b.account.freed = false := by
    by_contra hfreed
    have hnone := hb.apart x _ hx (by simpa using hfreed)
    rw [show b.account.cachedIn = some i from hcached] at hnone
    cases hnone
  exact ⟨b, i, hget, hcached, hfreed, (hb.arena _ x).mpr ⟨_, hx, rfl, hfreed⟩⟩

theorem Config.InOrder.shelved {c : Config κ} (h : c.InOrder) : c.machine.allocator.Shelved where
  together := h.aged.together
  once := by
    refine List.Nodup.map_on (fun x hx y hy hxy => ?_) h.aged.nodup
    obtain ⟨b, _, hb, -, -, hlookup⟩ := Machine.Books.listed h.books h.aged hx
    obtain ⟨b', _, hb', -, -, hlookup'⟩ := Machine.Books.listed h.books h.aged hy
    rw [Allocator.handleOf_of_buffer hb, Allocator.handleOf_of_buffer hb'] at hxy
    rw [hxy, hlookup'] at hlookup
    exact (Option.some.inj hlookup).symm
  cached i x hx := by
    rw [h.aged.bucket i, List.mem_filter] at hx
    obtain ⟨b, j, hb, hj, hfreed, hlookup⟩ := Machine.Books.listed h.books h.aged hx.1
    have hcached : b.cachedIn = some i := (Allocator.classOf_of_buffer hb).symm.trans (by simpa using hx.2)
    have ha := Machine.accounts_of_buffer hb
    have hput : b.account.cachedIn ≠ none := by
      rw [show b.account.cachedIn = some i from hcached]
      exact nofun
    have hrefs : b.account.refs = 0 := (h.books.settled x _ ha (.inr (.inl hput))).1
    refine ⟨b, hb, hlookup, hcached, ?_, hrefs, h.idle x _ ha hrefs, h.books.unshared x _ ha hput, hfreed⟩
    refine h.aged.sized x b.size b.lastUsed i ?_
    rw [Allocator.card?_of_buffer hb, Buffer.card, hcached]
  others x b hb hx := by
    rw [h.aged.listed x, not_not] at hx
    rw [← Allocator.classOf_of_buffer hb, hx]
  aged := h.aged.ordered
  inOrder i := by
    rw [h.aged.bucket i]
    exact List.filter_sublist

/-! ## Freeing returns -/

theorem lasts_freeDevice (va : UInt64) : Lasts (Device.free va : Op κ Unit) := by
  have hrequest (name : String) (r : Ioctl) : Lasts (Interface.request name r : Op κ _) := by
    unfold Interface.request
    refine lasts_bind returns_device.lasts fun d => lasts_bind (returns_call _).lasts fun r => ?_
    cases r with
    | ok _ => exact (returns_pure _).lasts
    | error e => exact lasts_bind (returns_error _ _).lasts fun _ => lasts_fail _
  have hold (name : String) (r : OldIoctl) : Lasts (Interface.oldRequest name r : Op κ _) := by
    unfold Interface.oldRequest
    refine lasts_bind (hrequest _ _) fun reply => ?_
    split
    · exact (returns_pure _).lasts
    · exact lasts_bind (returns_error _ _).lasts fun _ => lasts_fail _
  have hregion : Lasts (Interface.freeRegion va : Op κ _) := by
    unfold Interface.freeRegion
    refine lasts_bind returns_device.lasts fun d => ?_
    cases d.generation with
    | old => exact hold _ _
    | jm => exact hrequest _ _
    | csf => exact hrequest _ _
  have hreport : Returns (Device.reportFreed va : Op κ Unit) := by
    unfold Device.reportFreed
    refine returns_bind returns_device fun d => ?_
    split
    · exact fun m => ⟨(), _, rfl⟩
    · exact returns_pure _
  exact lasts_bind (returns_log _ _ _).lasts fun _ => lasts_bind hregion fun _ => hreport.lasts

/-- A buffer exists, and the table of handles keeps its rules. -/
structure Freeable (x : Nat) (m : Machine κ) : Prop where
  buffer : ∃ b, m.allocator.buffers[x]? = some b
  rules : m.device.handles.check = none

omit [Kernel κ] in
theorem Freeable.of_same {x : Nat} {m m' : Machine κ} (h : Freeable x m) (hc : SameCards m m')
    (hd : SameDevice m m') : Freeable x m' where
  buffer := by
    obtain ⟨b, hb⟩ := h.buffer
    obtain ⟨b', hb', -⟩ := hc.kept x b hb
    exact ⟨b', hb'⟩
  rules := by
    rw [show m'.device = m.device from hd]
    exact h.rules

omit [Kernel κ] in
theorem returns_writeHandle (name : String) (b : Buffer) :
    Returns (Allocator.writeHandle name b : Op κ Unit) := by
  have hallocator : Returns (allocator : Op κ Allocator) := fun m => ⟨m.allocator, m, rfl⟩
  have hfd : Returns (Allocator.handleFd b : Op κ Int) := by
    unfold Allocator.handleFd
    refine returns_bind hallocator fun a => ?_
    split
    · exact returns_bind returns_device fun d => returns_pure _
    · exact returns_pure _
  refine returns_bind hfd fun fd => ?_
  unfold Allocator.write
  refine returns_bind hallocator fun a => ?_
  split
  · exact returns_pure ()
  · exact fun m => ⟨(), _, rfl⟩
  · exact returns_error _ _

theorem returns_unmapCpu (x : Nat) (b : Buffer) (p : Mapping) : Returns (do
    match ← unmapMemory p with
    | none => pure ()
    | some e =>
      error "failed to unmap buffer object"
        [("handle", toString b.handle), ("error", e.message)]
    modifyBuffer x fun b => { b with cpu := none } : Op κ Unit) := by
  have hunmap : Returns (unmapMemory p : Op κ _) := by
    unfold unmapMemory
    refine returns_bind (returns_call _) fun r => ?_
    cases r with
    | ok _ => exact returns_pure _
    | error e => exact returns_pure _
  have hedit (f : Buffer → Buffer) : Returns (modifyBuffer x f : Op κ Unit) := fun m => ⟨(), _, rfl⟩
  refine returns_bind hunmap fun r => ?_
  split
  · exact hedit _
  · exact returns_bind (returns_error _ _) fun _ => hedit _

theorem exec_unmapBuffer {x : Nat} {m : Machine κ} (h : Freeable x m) :
    ∃ m', (Allocator.unmapBuffer x).exec m = (.ok (), m') := by
  obtain ⟨b, hb⟩ := h.buffer
  unfold Allocator.unmapBuffer
  rw [exec_bind_of_ok (exec_buffer_of_some hb)]
  split
  · exact ⟨m, rfl⟩
  · rename_i p _
    obtain ⟨_, m', he⟩ := returns_unmapCpu x b p m
    exact ⟨m', he⟩

theorem returns_freeGpu (b : Buffer) : Returns (do
    match ← attempt (Device.free b.gpu) with
    | .ok _ => pure ()
    | .error f =>
      error "failed to free buffer object"
        [("handle", toString b.handle), ("va", toString b.gpu), ("error", f.message)] : Op κ Unit) := by
  refine returns_bind (returns_attempt (lasts_freeDevice _)) fun r => ?_
  split
  · exact returns_pure ()
  · exact returns_error _ _

theorem exec_freeBufferRegion {x : Nat} {m : Machine κ} (h : Freeable x m) :
    ∃ m', (Allocator.freeBufferRegion x).exec m = (.ok (), m') := by
  obtain ⟨b, hb⟩ := h.buffer
  unfold Allocator.freeBufferRegion
  rw [exec_bind_of_ok (exec_buffer_of_some hb)]
  split
  · obtain ⟨_, m', he⟩ := returns_freeGpu b m
    exact ⟨m', he⟩
  · exact ⟨m, rfl⟩

/-- Freeing a buffer returns, whatever the kernel answers. -/
theorem exec_free {x : Nat} {m : Machine κ} (h : Freeable x m) :
    ∃ m', (Allocator.free x).exec m = (.ok (), m') := by
  obtain ⟨b, hb⟩ := h.buffer
  unfold Allocator.free
  rw [exec_bind_of_ok (exec_buffer_of_some hb)]
  obtain ⟨_, m₁, h₁⟩ := returns_writeHandle "memfree" b m
  have hm₁ := h.of_same ((cards_writeHandle _ _).ok h₁) ((keeps_writeHandle (R := SameDevice) _ _).ok h₁)
  rw [exec_bind_of_ok h₁]
  obtain ⟨m₂, h₂⟩ := exec_unmapBuffer hm₁
  have hm₂ := hm₁.of_same ((cards_unmapBuffer x).ok h₂) ((keeps_unmapBuffer (R := SameDevice) x).ok h₂)
  rw [exec_bind_of_ok h₂]
  obtain ⟨m₃, h₃⟩ := exec_freeBufferRegion hm₂
  have hm₃ := hm₂.of_same ((cards_freeBufferRegion x).ok h₃)
    ((keeps_freeBufferRegion (R := SameDevice) x).ok h₃)
  rw [exec_bind_of_ok h₃, exec_bind_of_ok (exec_modifyAllocator _ m₃)]
  obtain ⟨m₄, h₄⟩ := exec_freeHandle (κ := κ) (m := { m₃ with allocator := m₃.allocator.forget b.handle })
    hm₃.rules b.handle
  rw [exec_bind_of_ok h₄]
  exact ⟨_, rfl⟩

/-! ## Evicting -/

omit [Kernel κ] in
theorem Machine.freed_iff {m : Machine κ} {x : Nat} :
    m.Freed x ↔ ∃ a, m.storage.accounts[x]? = some a ∧ a.freed = true := by
  constructor
  · rintro ⟨b, hb, hfreed⟩
    exact ⟨_, Machine.accounts_of_buffer hb, hfreed⟩
  · rintro ⟨a, ha, hfreed⟩
    obtain ⟨b, hb, rfl⟩ := Machine.exists_buffer ha
    exact ⟨b, hb, hfreed⟩

omit [Kernel κ] in
/-- What keeps the cards keeps the stamps. -/
theorem SameCards.lastUsed {m m' : Machine κ} (h : SameCards m m') {x : Nat} {b : Buffer}
    (hb : m.allocator.buffers[x]? = some b) : m'.allocator.lastUsed x = m.allocator.lastUsed x := by
  obtain ⟨b', hb', hcard, -⟩ := h.kept x b hb
  rw [Allocator.lastUsed_of_buffer hb, Allocator.lastUsed_of_buffer hb']
  exact congrArg (·.2.1) hcard

/-- Some of the buffers that are listed by age are freed and leave the list, and the others stay. -/
structure Evicts (p : Nat → Prop) [DecidablePred p] (m m' : Machine κ) : Prop where
  recency : m'.allocator.cache.recency = m.allocator.cache.recency.filter fun x => ¬p x
  lastUsed : ∀ x ∈ m'.allocator.cache.recency, m'.allocator.lastUsed x = m.allocator.lastUsed x
  freed : ∀ x, m'.Freed x ↔ m.Freed x ∨ x ∈ m.allocator.cache.recency ∧ p x

omit [Kernel κ] in
/-- Nothing is freed if nothing is to be. -/
theorem Evicts.refl {p : Nat → Prop} [DecidablePred p] {m : Machine κ}
    (h : ∀ x ∈ m.allocator.cache.recency, ¬p x) : Evicts p m m where
  recency := (List.filter_eq_self.mpr fun x hx => decide_eq_true (h x hx)).symm
  lastUsed _ _ := rfl
  freed x := ⟨.inl, fun hx => hx.elim id fun hx => absurd hx.2 (h x hx.1)⟩

omit [Kernel κ] in
/-- One buffer is evicted, and then the others of some. -/
theorem Evicts.cons {p p' : Nat → Prop} [DecidablePred p] [DecidablePred p'] {m m₁ m' : Machine κ} {x : Nat}
    (h : Evicts (· = x) m m₁) (h' : Evicts p' m₁ m') (hx : x ∈ m.allocator.cache.recency) (hpx : p x)
    (hsame : ∀ y ∈ m₁.allocator.cache.recency, p' y ↔ p y) : Evicts p m m' where
  recency := by
    have hrest : (m₁.allocator.cache.recency.filter fun y => ¬p' y) =
        m₁.allocator.cache.recency.filter fun y => ¬p y :=
      List.filter_congr fun y hy => decide_eq_decide.mpr (not_congr (hsame y hy))
    rw [h'.recency, hrest, h.recency, List.filter_filter]
    refine List.filter_congr fun y _ => ?_
    by_cases hyx : y = x
    · simp [hyx, hpx]
    · simp [hyx]
  lastUsed y hy := by
    have hy₁ : y ∈ m₁.allocator.cache.recency := by
      rw [h'.recency] at hy
      exact (List.mem_filter.mp hy).1
    rw [h'.lastUsed y hy, h.lastUsed y hy₁]
  freed y := by
    have hmem : y ∈ m₁.allocator.cache.recency ↔ y ∈ m.allocator.cache.recency ∧ y ≠ x := by
      rw [h.recency, List.mem_filter, decide_eq_true_iff]
    rw [h'.freed, h.freed, or_assoc]
    refine or_congr_right ?_
    by_cases hyx : y = x
    · simp [hyx, hx, hpx]
    · by_cases hy : y ∈ m.allocator.cache.recency
      · simp [hmem, hyx, hy, hsame y (hmem.mpr ⟨hy, hyx⟩)]
      · simp [hmem, hyx, hy]

omit [Kernel κ] in
/-- The handle of a cached buffer stands for it. -/
theorem exec_cachedBuffer {m : Machine κ} {x : Nat} {b : Buffer} (hget : m.allocator.buffers[x]? = some b)
    (hlookup : m.allocator.lookup? b.handle = some x) : (Allocator.cachedBuffer x).exec m = (.ok x, m) := by
  have hcached : m.allocator.cached? x = some x := by
    rw [Allocator.cached?, hget, Option.bind_some, hlookup]
  unfold Allocator.cachedBuffer
  rw [exec_bind_of_ok (exec_allocator m), hcached]
  rfl

omit [Kernel κ] in
/-- A cached buffer can be taken out of the cache. -/
theorem exec_uncache {m : Machine κ} {x i : Nat} {b : Buffer} (hget : m.allocator.buffers[x]? = some b)
    (hcached : b.cachedIn = some i) : (Allocator.uncache x).exec m = (.ok (), { m with
      allocator := { m.allocator with cache := m.allocator.cache.remove i x }.mapBuffer x fun b =>
        { b with cachedIn := none } }) := by
  unfold Allocator.uncache
  rw [exec_bind_of_ok (exec_buffer_of_some hget), hcached]
  rfl

/-- Evicting one buffer. -/
theorem exec_evict {m : Machine κ} {ready : List Callback} {time : Int} {x : Nat} (hb : m.Books ready none)
    (ha : m.allocator.Aged time) (hrules : m.device.handles.check = none)
    (hx : x ∈ m.allocator.cache.recency) :
    ∃ m', (Allocator.evict x).exec m = (.ok (), m') ∧ Evicts (· = x) m m' := by
  obtain ⟨b, i, hget, hcached, -⟩ := hb.listed ha hx
  let a₁ : Allocator := { m.allocator with cache := m.allocator.cache.remove i x }.mapBuffer x fun b =>
    { b with cachedIn := none }
  have h₁ : (Allocator.uncache x).exec m = (.ok (), { m with allocator := a₁ }) := exec_uncache hget hcached
  let m₂ : Machine κ := { m with allocator := { a₁ with evictions := a₁.evictions + 1 } }
  have hget₂ (y : Nat) : m₂.allocator.buffers[y]? =
      if x = y then some { b with cachedIn := none } else m.allocator.buffers[y]? :=
    getElem?_modify_of_some hget y
  obtain ⟨m', h₃⟩ := exec_free (m := m₂) ⟨⟨_, (hget₂ x).trans (if_pos rfl)⟩, hrules⟩
  have hcards := (cards_free x).ok h₃
  have hrecency : m'.allocator.cache.recency = m.allocator.cache.recency.filter (· ≠ x) := by
    have hcache : m'.allocator.cache = m.allocator.cache.remove i x := congrArg (·.1) hcards.shelves
    rw [hcache]
    exact BufferCache.eraseLast_eq_filter ha.nodup
  refine ⟨m', ?_, ?_, fun y hy => ?_, fun y => ?_⟩
  · unfold Allocator.evict
    rw [exec_bind_of_ok h₁, exec_bind_of_ok (exec_modifyAllocator _ _)]
    exact h₃
  · exact hrecency
  · rw [hrecency, List.mem_filter] at hy
    have hyx : x ≠ y := fun e => by simp [e] at hy
    obtain ⟨b', _, hget', -⟩ := hb.listed ha hy.1
    have hsame : m₂.allocator.buffers[y]? = some b' := ((hget₂ y).trans (if_neg hyx)).trans hget'
    rw [hcards.lastUsed hsame, Allocator.lastUsed_of_buffer hsame, Allocator.lastUsed_of_buffer hget']
  · obtain ⟨_, -, -, -, hstorage⟩ := free_ok h₃
    rw [Machine.freed_iff, hstorage, Machine.freed_iff]
    have haccounts₂ : m₂.storage.accounts[y]? = (m₂.allocator.buffers[y]?).map Buffer.account :=
      List.getElem?_map
    have haccounts : m.storage.accounts[y]? = (m.allocator.buffers[y]?).map Buffer.account := List.getElem?_map
    show (∃ a, (m₂.storage.accounts.modify x _)[y]? = some a ∧ _) ↔ _
    rw [List.getElem?_modify, haccounts₂, hget₂]
    by_cases hxy : x = y
    · subst hxy
      simp [hx]
    · rw [if_neg hxy, ← haccounts]
      simp [hxy, Ne.symm hxy]

/-- Evicting from the front of the list by age up to the first entry that is not stale evicts what is stale.  By
induction on the list. -/
theorem exec_evictWhile {ready : List Callback} {time : Int} (now maxAge : Int) {l : List Nat} {m : Machine κ}
    (hb : m.Books ready none) (ha : m.allocator.Aged time) (hrules : m.device.handles.check = none)
    (hl : m.allocator.cache.recency = l) :
    ∃ m', (Allocator.evictWhile now maxAge l).exec m = (.ok (), m') ∧
      Evicts (fun x => maxAge < now - m.allocator.lastUsed x) m m' := by
  induction l generalizing m with
  | nil =>
    rw [Allocator.evictWhile]
    exact ⟨m, rfl, .refl (by simp [hl])⟩
  | cons x rest ih =>
    have hx : x ∈ m.allocator.cache.recency := hl ▸ List.mem_cons_self
    obtain ⟨b, i, hget, -, -, hlookup⟩ := hb.listed ha hx
    have hnodup := ha.nodup
    have hordered := ha.ordered
    rw [hl] at hnodup hordered
    rw [Allocator.evictWhile, exec_bind_of_ok (exec_cachedBuffer hget hlookup), exec_bind_of_ok (exec_buffer_of_some hget),
      ← Allocator.lastUsed_of_buffer hget]
    split
    · rename_i hyoung
      refine ⟨m, rfl, .refl fun y hy => ?_⟩
      rw [hl] at hy
      -- what is behind the first entry entered after it
      rcases List.mem_cons.mp hy with rfl | hy
      · omega
      · have := List.rel_of_pairwise_cons hordered hy
        omega
    · rename_i hstale
      obtain ⟨m₁, h₁, he₁⟩ := exec_evict hb ha hrules hx
      have hrecency₁ : m₁.allocator.cache.recency = rest := by
        rw [he₁.recency, hl, List.filter_cons_of_neg (by simp)]
        refine List.filter_eq_self.mpr fun y hy => ?_
        have hyx : y ≠ x := fun e => (List.nodup_cons.mp hnodup).1 (e ▸ hy)
        simpa using hyx
      have hremaining : BufferCache.remaining x rest = rest := by
        cases rest with
        | nil => rfl
        | cons y rest =>
          have hrest := List.nodup_cons.mp (List.nodup_cons.mp hnodup).2
          have hmem : x ∉ rest := fun h => (List.nodup_cons.mp hnodup).1 (List.mem_cons_of_mem _ h)
          rw [BufferCache.remaining, BufferCache.eraseLast_eq_filter hrest.2]
          congr 1
          refine List.filter_eq_self.mpr fun z hz => ?_
          have hzx : z ≠ x := fun e => hmem (e ▸ hz)
          simpa using hzx
      obtain ⟨m', h', he'⟩ := ih (((tidies_evict ready x).ok h₁).books hb) (((ages_evict time x).ok h₁).aged ha)
        ((keeps_evict (keeps_free lawful_freeHandle) x).ok h₁ hrules) hrecency₁
      rw [exec_bind_of_ok h₁, hremaining]
      exact ⟨m', h', he₁.cons he' hx (by omega) fun y hy => by rw [he₁.lastUsed y hy]⟩

/-- Evicting what is stale returns, and evicts what is stale. -/
theorem exec_evictStale {m : Machine κ} {ready : List Callback} {time : Int} (hb : m.Books ready none)
    (ha : m.allocator.Aged time) (hrules : m.device.handles.check = none)
    (hstarted : m.allocator.started = true) :
    ∃ m', Allocator.evictStale.exec m = (.ok (), m') ∧
      Evicts (fun x => m.allocator.options.staleSeconds < m.seconds - m.allocator.lastUsed x) m m' := by
  let m₁ : Machine κ := { m with log := ⟨.debug, "Allocator::EvictStale", []⟩ :: m.log }
  have hdebug : (debug "Allocator::EvictStale" : Op κ Unit).exec m = (.ok (), m₁) := rfl
  have hseconds : (Allocator.seconds : Op κ Int).exec m₁ = (.ok m.seconds, m₁) := rfl
  obtain ⟨m', he, hevicts⟩ :=
    exec_evictWhile (m := m₁) m.seconds m.allocator.options.staleSeconds hb ha hrules rfl
  refine ⟨m', ?_, hevicts.recency, hevicts.lastUsed, hevicts.freed⟩
  unfold Allocator.evictStale Allocator.evictOld
  rw [exec_bind_of_ok (exec_requireAllocator hstarted), exec_bind_of_ok hdebug,
    exec_bind_of_ok (exec_allocator m₁), exec_bind_of_ok hseconds]
  exact he

end Kernel

/-! ## The stale age -/

namespace AllocatorOptions

variable (o : AllocatorOptions)

/-- The fraction of the stale age is so close to one that it is rounded up in double precision. -/
def RoundsUp : Prop :=
  (second - o.staleAge.natAbs % second) * 2 ^ 53 ≤ second * 2 ^ (o.staleAge.natAbs / second).log2

instance : Decidable o.RoundsUp := inferInstanceAs (Decidable (_ ≤ _))

theorem tdiv_eq_sign_mul (a : Int) (n : Nat) : a.tdiv n = a.sign * (a.natAbs / n : Nat) := by
  obtain ⟨k, rfl | rfl⟩ := Int.eq_nat_or_neg a
  · rcases Nat.eq_zero_or_pos k with rfl | hk
    · simp
    · rw [Int.sign_eq_one_of_pos (by omega), Int.natAbs_natCast, Int.one_mul, Int.natCast_ediv,
        Int.tdiv_eq_ediv_of_nonneg (by omega)]
  · rcases Nat.eq_zero_or_pos k with rfl | hk
    · simp
    · rw [Int.sign_eq_neg_one_of_neg (by omega), Int.natAbs_neg, Int.natAbs_natCast, Int.neg_one_mul,
        Int.neg_tdiv, Int.natCast_ediv, Int.tdiv_eq_ediv_of_nonneg (by omega)]

/-- The stale age in seconds is cut off to whole ones, or is one more than that. -/
theorem staleSeconds_eq :
    o.staleSeconds = o.staleAge.tdiv second + if o.RoundsUp then o.staleAge.sign else 0 := by
  have hiff : (second - o.staleAge.natAbs % second) <<< 53 ≤
      second <<< (o.staleAge.natAbs / second).log2 ↔ o.RoundsUp := by
    rw [Nat.shiftLeft_eq, Nat.shiftLeft_eq, RoundsUp]
  rw [staleSeconds, tdiv_eq_sign_mul]
  by_cases hround : o.RoundsUp
  · have hdouble : doubleSeconds o.staleAge.natAbs = o.staleAge.natAbs / second + 1 := by
      simp only [doubleSeconds, if_pos (hiff.mpr hround)]
    rw [hdouble, if_pos hround, Int.natCast_add, Int.mul_add, Int.natCast_one, Int.mul_one]
  · have hdouble : doubleSeconds o.staleAge.natAbs = o.staleAge.natAbs / second := by
      simp only [doubleSeconds, if_neg (mt hiff.mp hround)]
    rw [hdouble, if_neg hround, Int.add_zero]

end AllocatorOptions

/-! ## Along a run -/

/-- Along every run what is cached is as it should be, so the cache passes its check.  Evicting what is stale
returns, and evicts exactly the entries whose age in seconds is past the stale age in whole seconds, which is one
more if its fraction is rounded up. -/
theorem ShelfRun.cache_sound [Kernel κ] {m : Machine κ} {es : List (Config κ × Action)} {c : Config κ}
    (hvacant : Vacant m) (hrules : m.device.handles.check = none) (h : ShelfRun ⟨m, [], none⟩ es c)
    (hmax : ∀ d ∈ es.map (·.1) ++ [c], d.progress.streams.length ≤ slotCount)
    (hbounded : ∀ d ∈ es.map (·.1) ++ [c], d.Bounded) :
    c.machine.allocator.Shelved ∧ c.machine.allocator.check = none ∧
      (c.held = none → c.machine.allocator.started = true →
        ∃ m', Allocator.evictStale.exec c.machine = (.ok (), m') ∧
          let o := c.machine.allocator.options
          Evicts (fun x => (o.staleAge.tdiv second + if o.RoundsUp then o.staleAge.sign else 0) <
            c.machine.seconds - c.machine.allocator.lastUsed x) c.machine m') := by
  have hc := h.inOrder hmax hbounded (hvacant.inOrder hrules)
  refine ⟨hc.shelved, Allocator.check_of_shelved hc.shelved hc.aged.nodup, fun hheld hstarted => ?_⟩
  have hbooks : c.machine.Books (c.ready.map (·.2.callback)) none := hheld ▸ hc.books
  dsimp only
  rw [← AllocatorOptions.staleSeconds_eq]
  exact exec_evictStale hbooks hc.aged hc.rules hstarted

namespace StaleSample

-- a table of 256 slots is evaluated
set_option maxRecDepth 20000

/-- An allocator whose stale age is 64 nanoseconds short of 1073741825 seconds. -/
def start : Machine Bench where
  kernel := {}
  allocator := { started := true, options := { staleAge := 1073741824999999936 }, cache := .empty 1 }

theorem fresh_start : Fresh start := by
  constructor
  case range => exact Int.le_refl _
  all_goals rfl

/-- A region became a buffer. -/
def wrapped : Machine Bench :=
  ((Allocator.wrapRegion ⟨⟨0, 0⟩, 0⟩ 4096 0 "sample").exec start).2

/-- The buffer was handed out. -/
def live : Machine Bench := ((Allocator.handOut 0).exec wrapped).2

/-- Its only reference went, and it entered the cache. -/
def cached : Machine Bench := ((Buffer.unreference 0).exec live).2

/-- It has been there for 1073741825 seconds. -/
def late : Machine Bench := ((sleep (1073741825 * second)).exec cached).2

def steps : List (Config Bench × Action) :=
  [(⟨start, [], none⟩, .other), (⟨wrapped, [], some 0⟩, .other), (⟨live, [], none⟩, .release 0),
    (⟨cached, [], none⟩, .other)]

theorem run_late : ShelfRun ⟨start, [], none⟩ steps ⟨late, [], none⟩ := by
  have hwrap : (Allocator.wrapRegion ⟨⟨0, 0⟩, 0⟩ 4096 0 "sample").exec start = (.ok 0, wrapped) :=
    exec_of_value (by decide)
  have hhand : (Allocator.handOut 0).exec wrapped = (.ok (), live) := exec_of_value (by decide)
  have hrelease : (Buffer.unreference 0).exec live = (.ok (), cached) := exec_of_value (by decide +kernel)
  have hsleep : (sleep (1073741825 * second)).exec cached = (.ok (), late) := exec_of_value (by decide +kernel)
  refine .cons (.stream rfl (.wrap hwrap)) ⟨by decide, ?_, ?_, nofun⟩ <|
    .cons (.stream rfl (.handOut hhand)) ⟨by decide, ?_, ?_, nofun⟩ <|
    .cons (.stream (by decide) (.release (a := BufferSample.account) (by decide) rfl hrelease))
      ⟨by decide +kernel, nofun, nofun, nofun⟩ <|
    .cons (.stream (by decide +kernel) (.quiet ((keeps_sleep _).ok hsleep)))
      ⟨by decide +kernel, ?_, ?_, nofun⟩ (.nil _)
  · exact fun _ _ _ => (cards_wrapRegion _ _ _ _).ok hwrap
  · exact fun _ _ => (keeps_wrapRegion (fun va => lawful_allocHandle va (by decide)) _ _ _ _).ok hwrap
  · exact fun _ _ _ => (cards_handOut _).ok hhand
  · exact fun _ _ => (keeps_handOut _).ok hhand
  · exact fun _ _ _ => (keeps_sleep _).ok hsleep
  · exact fun _ _ => (keeps_sleep _).ok hsleep

end StaleSample

set_option maxRecDepth 20000 in
/-- The entry is a second older than the stale age in whole seconds, and is kept. -/
theorem stale_kept_sample : StaleSample.start.allocator.options.staleAge.tdiv second <
      StaleSample.late.seconds - StaleSample.late.allocator.lastUsed 0 ∧
    ∃ m', Allocator.evictStale.exec StaleSample.late = (.ok (), m') ∧ ¬m'.Freed 0 := by
  have hmax : ∀ d ∈ StaleSample.steps.map (·.1) ++ [⟨StaleSample.late, [], none⟩],
      d.progress.streams.length ≤ slotCount := by
    decide +kernel
  have hbounded := (StaleSample.run_late.run rfl).bounded StaleSample.fresh_start (hmax _ (by simp))
    (by decide +kernel) (by decide +kernel)
  obtain ⟨-, -, hevict⟩ := ShelfRun.cache_sound StaleSample.fresh_start.vacant (by decide)
    StaleSample.run_late hmax hbounded
  obtain ⟨m', he, hevicts⟩ := hevict rfl (by decide +kernel)
  refine ⟨by decide +kernel, m', he, fun hfreed => ?_⟩
  rcases (hevicts.freed 0).mp hfreed with ⟨b, hb, hf⟩ | ⟨-, hold⟩
  · have hnot : (StaleSample.late.allocator.buffers[0]?).map (·.freed) = some false := by decide +kernel
    rw [hb, Option.map_some, hf] at hnot
    cases hnot
  · exact absurd hold (by decide +kernel)

end Mali
