import Mali.Proofs.Eviction
import Mali.Proofs.SizeClasses
import Mathlib

/-!
# Buffers that are used again

A search looks at the buffers of one class, oldest first, and takes the first that is large enough and has the
flags.  On a command stream device nothing that is cached is busy, so that is all there is to it.  The buffer
that is taken leaves both of its lists, and all others stay in their order.

The lists are in the order in which buffers were released.  At most one buffer enters the cache in a step, and it
enters at the end; nothing else changes the order of what is there.  So the first buffer that serves is the one
whose stay in the cache is the longest.

* `Allocator.serves`: a buffer is large enough and has the flags.
* `TakenOut`, `exec_reuse`: a buffer leaves the cache to be used again.
* `exec_fetchFrom`: which buffer a search takes.
* `Dwindles`, `Joins`, `ShelfStep.queues`: who enters the cache in a step.
* `enteredAt`, `ShelfRun.inOrderOfEntry`: the list by age is in order of entry.
* `ShelfRun.fetch_least_recent`: size classes and searches along every run.
-/

namespace Mali

open Op

variable {κ : Type}

/-! ## Searching -/

namespace Allocator

/-- Whether a buffer is at least of a size and has some flags. -/
def serves (a : Allocator) (size : Int64) (flags : UInt32) (x : Nat) : Bool :=
  (a.buffers[x]?).any fun b => size ≤ b.size ∧ b.flags = flags

theorem serves_of_buffer {a : Allocator} {x : Nat} {b : Buffer} (h : a.buffers[x]? = some b) (size : Int64)
    (flags : UInt32) : a.serves size flags x = true ↔ ¬(b.size < size ∨ b.flags ≠ flags) := by
  rw [serves, h, Option.any_some, decide_eq_true_iff, not_or, not_not, Int64.not_lt]

end Allocator

/-- A buffer leaves the cache with a new label, and all others stay as and where they are. -/
structure TakenOut (x : Nat) (label : String) (m m' : Machine κ) : Prop where
  recency : m'.allocator.cache.recency = m.allocator.cache.recency.filter (· ≠ x)
  bucket : ∀ i, m'.allocator.cache.bucket i = (m.allocator.cache.bucket i).filter (· ≠ x)
  buffers : m'.allocator.buffers =
    m.allocator.buffers.modify x fun b => { b with cachedIn := none, label }

section Kernel

variable [Kernel κ] {m : Machine κ} {ready : List (Nat × Link)}

/-- A buffer that is taken out of the cache leaves everything in order. -/
theorem Config.InOrder.exec_uncache {x i : Nat} {b : Buffer} (h : (⟨m, ready, none⟩ : Config κ).InOrder)
    (hget : m.allocator.buffers[x]? = some b) (hcached : b.cachedIn = some i) :
    ∃ m', (Allocator.uncache x).exec m = (.ok (), m') ∧ (⟨m', ready, some x⟩ : Config κ).InOrder ∧
      m'.allocator = { m.allocator with cache := m.allocator.cache.remove i x }.mapBuffer x fun b =>
        { b with cachedIn := none } := by
  have he := Mali.exec_uncache hget hcached
  have ht := tidies_uncache (ready.map (·.2.callback)) he
  refine ⟨_, he, ?_, rfl⟩
  constructor
  case toBooked => exact ⟨h.device.imp (fun hd => hd) fun hm => hm.of_progress rfl, ht.books h.books⟩
  case aged => exact ((ages_uncache m.seconds x).ok he).aged h.aged
  case idle => exact h.idle.tidies ht
  case rules => exact h.rules

/-- A cached buffer can be used again. -/
theorem exec_reuse {x : Nat} (label : String) (h : (⟨m, ready, none⟩ : Config κ).InOrder)
    (hx : x ∈ m.allocator.cache.recency) :
    ∃ m', (Allocator.reuse x label).exec m = (.ok (), m') ∧ TakenOut x label m m' := by
  obtain ⟨b, i, hget, hcached, -⟩ := Machine.Books.listed h.books h.aged hx
  have hclass : m.allocator.classOf x = some i := (Allocator.classOf_of_buffer hget).trans hcached
  obtain ⟨m₁, h₁, hm₁, hallocator⟩ := h.exec_uncache hget hcached
  have hcheck : (Allocator.checkCache (κ := κ)).exec m₁ = (.ok (), m₁) :=
    exec_checkRule (Allocator.check_of_shelved hm₁.shelved hm₁.aged.nodup)
  have hget₁ : m₁.allocator.buffers[x]? = some { b with cachedIn := none } := by
    rw [hallocator]
    exact (getElem?_modify_of_some hget x).trans (if_pos rfl)
  have hend {m₂ : Machine κ} (hm₂ : m₂.allocator = m₁.allocator) : ∃ m', (do
      modifyBuffer x fun b => { b with label }
      modifyAllocator fun a => { a with hits := a.hits + 1 } : Op κ Unit).exec m₂ = (.ok (), m') ∧
        TakenOut x label m m' := by
    refine ⟨_, rfl, ?_, fun j => ?_, ?_⟩
    · show m₂.allocator.cache.recency = _
      rw [hm₂, hallocator]
      exact BufferCache.eraseLast_eq_filter h.aged.nodup
    · show m₂.allocator.cache.bucket j = _
      rw [hm₂, hallocator]
      exact h.aged.bucket_remove hclass j
    · show m₂.allocator.buffers.modify x _ = _
      rw [hm₂, hallocator]
      show (m.allocator.buffers.modify x _).modify x _ = _
      rw [List.modify_modify_eq]
      rfl
  unfold Allocator.reuse
  rw [exec_bind_of_ok h₁, exec_bind_of_ok hcheck, exec_bind_of_ok (exec_get m₁),
    exec_bind_of_ok (exec_buffer_of_some hget₁)]
  split
  · exact hend rfl
  · exact hend rfl

/-- On a command stream device the first cached buffer that serves is taken.  By induction on the buffers that are
looked at. -/
theorem exec_fetchFrom (size : Int64) (flags : UInt32) (label : String) (patient : Bool)
    (h : (⟨m, ready, none⟩ : Config κ).InOrder) (hcsf : m.device.generation = .csf) {l : List Nat}
    (hl : l ⊆ m.allocator.cache.recency) :
    ∃ m', (Allocator.fetchFrom size flags label patient l).exec m =
        (.ok (l.find? (m.allocator.serves size flags)), m') ∧
      (l.find? (m.allocator.serves size flags) = none → m' = m) ∧
      ∀ x, l.find? (m.allocator.serves size flags) = some x → TakenOut x label m m' := by
  induction l with
  | nil => exact ⟨m, rfl, fun _ => rfl, nofun⟩
  | cons x rest ih =>
    have hx : x ∈ m.allocator.cache.recency := hl List.mem_cons_self
    obtain ⟨b, i, hget, -, -, hlookup⟩ := Machine.Books.listed h.books h.aged hx
    unfold Allocator.fetchFrom
    rw [exec_bind_of_ok (exec_cachedBuffer hget hlookup), exec_bind_of_ok (exec_buffer_of_some hget)]
    by_cases hserves : m.allocator.serves size flags x = true
    · have hidle : (Allocator.isIdle x patient).exec m = (.ok true, m) := by
        unfold Allocator.isIdle
        rw [exec_bind_of_ok (exec_device m), if_pos hcsf]
        rfl
      obtain ⟨m', hreuse, htaken⟩ := exec_reuse label h hx
      rw [if_neg ((Allocator.serves_of_buffer hget size flags).mp hserves), exec_bind_of_ok hidle, if_pos rfl,
        exec_bind_of_ok hreuse, List.find?_cons_of_pos hserves]
      refine ⟨m', rfl, nofun, fun y hy => ?_⟩
      cases hy
      exact htaken
    · have hskip : b.size < size ∨ b.flags ≠ flags := by
        rwa [Allocator.serves_of_buffer hget, not_not] at hserves
      rw [if_pos hskip, List.find?_cons_of_neg hserves]
      exact ih fun y hy => hl (List.mem_cons_of_mem x hy)

end Kernel

/-! ## Who enters the cache -/

/-- No buffer enters the list by age, and those that stay keep their order. -/
def Dwindles (m m' : Machine κ) : Prop :=
  m'.allocator.cache.recency.Sublist m.allocator.cache.recency

/-- At most one buffer enters the list by age, at its end, and those that stay keep their order. -/
def Joins (x : Nat) (m m' : Machine κ) : Prop :=
  m'.allocator.cache.recency.Sublist (m.allocator.cache.recency ++ [x])

instance : OfCards (Dwindles (κ := κ)) where
  refl _ := List.Sublist.refl _
  trans h h' := List.Sublist.trans h' h
  of_allocator h := by
    rw [Dwindles, h]
  of_cards {m m'} h := by
    have hcache : m'.allocator.cache = m.allocator.cache := congrArg (·.1) h.shelves
    rw [Dwindles, hcache]

/-- At most one buffer enters the list by age, at its end, and it was not there before. -/
def Queues (m m' : Machine κ) : Prop :=
  ∃ new : Option Nat, (∀ x ∈ new, x ∉ m.allocator.cache.recency) ∧
    m'.allocator.cache.recency.Sublist (m.allocator.cache.recency ++ new.toList)

theorem Dwindles.queues {m m' : Machine κ} (h : Dwindles m m') : Queues m m' :=
  ⟨none, nofun, by rwa [Option.toList_none, List.append_nil]⟩

theorem Joins.queues {x : Nat} {m m' : Machine κ} (h : Joins x m m') (hx : x ∉ m.allocator.cache.recency) :
    Queues m m' := ⟨some x, by simpa using hx, h⟩

theorem BufferCache.eraseLast_sublist (x : Nat) (l : List Nat) : (eraseLast x l).Sublist l := by
  have h : (l.reverse.erase x).reverse.Sublist l.reverse.reverse := List.erase_sublist.reverse
  rwa [List.reverse_reverse] at h

theorem dwindles_uncache (x : Nat) : Keeps (Dwindles (κ := κ)) (Allocator.uncache x) := by
  refine (faultless_uncache x).keeps fun {m m' _} he => ?_
  unfold Allocator.uncache at he
  obtain ⟨b, -, he⟩ := bind_buffer_ok he
  obtain ⟨i, -, he⟩ := bind_require_ok he
  cases he
  exact BufferCache.eraseLast_sublist x _

section Kernel

variable [Kernel κ]

/-- The end of a release, after what happens before it in the same call. -/
theorem Still.joins {x : Nat} {m m₁ m' : Machine κ} {u : Unit} (h : Still m m₁)
    (he : m' = m₁ ∨ (Allocator.finish x).exec m₁ = (.ok u, m')) : Joins x m m' := by
  have hcache : m₁.allocator.cache = m.allocator.cache := congrArg (·.1) h.shelves
  rw [Joins, ← hcache]
  rcases he with rfl | he
  · exact List.sublist_append_left _ _
  rcases finish_cases dwindles_uncache he with hend | ⟨m₂, henter, hend⟩
  · exact hend.trans (List.sublist_append_left _ _)
  · have hput : m₂.allocator.cache.recency = m₁.allocator.cache.recency ++ [x] := by
      unfold Allocator.enterCache at henter
      obtain ⟨b, -, henter⟩ := bind_buffer_ok henter
      cases henter
      rfl
    exact hput ▸ hend

variable {c c' : Config κ} {act : Action}

/-- Who enters the cache in a step. -/
theorem Step.queues (h : Step c act c') (hb : c.Books) {time : Int} (ha : c.machine.allocator.Aged time)
    (hcards : act = .other → c'.held = c.held → Quiet c.machine c'.machine → SameCards c.machine c'.machine) :
    Queues c.machine c'.machine := by
  have hloose {m : Machine κ} {ready : List Callback} {x : Nat} {a : Account} (hb : m.Books ready none)
      (ha : m.allocator.Aged time) (hx : m.storage.accounts[x]? = some a)
      (hne : a.refs ≠ 0 ∨ m.waiting ready x ≠ 0) : x ∉ m.allocator.cache.recency := by
    rw [ha.listed x, not_not]
    exact hb.loose hx hne
  have hcards' {m m' : Machine κ} (h : SameCards m m') : Queues m m' := Dwindles.queues (OfCards.of_cards h)
  cases h with
  | quiet h => exact hcards' (hcards rfl rfl h)
  | reference he => exact hcards' ((cards_reference _).ok he)
  | revive _ _ _ he => exact hcards' ((cards_revive _).ok he)
  | unreference _ _ he =>
    obtain ⟨a', ha', hneg, -⟩ := unreference_ok he
    obtain ⟨_, hstill, hend⟩ := unreference_still he
    exact (hstill.joins hend).queues (hloose hb ha ha' (.inl (Int32.ne_zero_of_pred hneg)))
  | release hx hrefs he =>
    obtain ⟨_, hstill, hend⟩ := unreference_still he
    exact (hstill.joins hend).queues (hloose hb ha hx (.inl (by rw [hrefs]; decide)))
  | enter _ _ _ _ hcached _ _ _ he => exact hcards' ((cards_addBuffer hcached).ok he)
  | abandon _ he => exact Dwindles.queues ((keeps_freeHandle _).ok he)
  | reuse he => exact Dwindles.queues ((keeps_reuse_of_cards dwindles_uncache _ _).ok he)
  | wrap he => exact hcards' ((cards_wrapRegion _ _ _ _).ok he)
  | handOut he => exact hcards' ((cards_handOut _).ok he)
  | evictStale he => exact Dwindles.queues ((keeps_evictOld (keeps_evict_of_cards dwindles_uncache)).ok he)
  | evictAll he => exact Dwindles.queues ((keeps_evictBuckets (keeps_evict_of_cards dwindles_uncache) _).ok he)
  | await he => exact Dwindles.queues ((keeps_callbackAll _).ok he)
  | attach he => exact Dwindles.queues ((keeps_attachStream _).ok he)
  | submit _ he => exact Dwindles.queues ((keeps_submitSlot _ _).ok he)
  | advance he => exact Dwindles.queues ((keeps_advanceSlot _ _).ok he)
  | update he => exact Dwindles.queues ((keeps_takeCallbacks _ _).ok he)
  | terminate _ he => exact Dwindles.queues ((keeps_clearSlot _).ok he)
  | @fire m m' i l ready he =>
    obtain ⟨n, callback⟩ := l
    cases callback with
    | report id => exact Dwindles.queues ((keeps_report _).ok he)
    | release x =>
      obtain ⟨a, _, hx, -⟩ := queueDrained_ok he
      obtain ⟨_, hstill, hend⟩ := queueDrained_still he
      exact (hstill.joins hend).queues (hloose hb ha hx (.inr (Config.waiting_ready rfl)))
  | collect _ _ he => exact hcards' ((keeps_collect cards_useBuffer _ _).ok he)

/-- Atoms leave the cache alone. -/
theorem ShelfStep.queues (h : ShelfStep c act c') (ho : Orderly c act c') (hc : c.InOrder) :
    Queues c.machine c'.machine := by
  cases h with
  | stream _ h => exact h.queues hc.books hc.aged ho.cards
  | job _ _ h => exact h.queues hc.books hc.aged ho.cards
  | @submit m m' held va requirements o handles r _ he hr =>
    have hkeeps : Keeps Dwindles (Device.submitJob (κ := κ) va requirements o handles) :=
      keeps_submitJob keeps_retireAtom (fun number slot => keeps_markAtom number slot handles) va requirements o
    exact Dwindles.queues ((hkeeps m).survives he hr)
  | event hjob he =>
    have hcalm := hc.device.resolve_left fun hd => hjob hd.1
    exact Dwindles.queues (handleJobEvent_keeps keeps_retireAtom hcalm.links he)

end Kernel

/-! ## The order of entry -/

/-- The number of configurations of a history that are past before the stay of a buffer in the cache begins that
goes on at its end. -/
def enteredAt (history : List (Config κ)) (x : Nat) : Nat :=
  (history.rdropWhile fun c => x ∈ c.machine.allocator.cache.recency).length

theorem enteredAt_concat (history : List (Config κ)) (c : Config κ) (x : Nat) :
    enteredAt (history ++ [c]) x =
      if x ∈ c.machine.allocator.cache.recency then enteredAt history x else history.length + 1 := by
  rw [enteredAt, List.rdropWhile_concat]
  simp only [decide_eq_true_eq]
  split
  · rfl
  · rw [List.length_append, List.length_singleton]

theorem enteredAt_le (history : List (Config κ)) (x : Nat) : enteredAt history x ≤ history.length :=
  (List.rdropWhile_prefix _ _).length_le

/-- The list by age is in order of entry. -/
def InOrderOfEntry (history : List (Config κ)) (c : Config κ) : Prop :=
  c.machine.allocator.cache.recency.Pairwise fun x y =>
    enteredAt (history ++ [c]) x < enteredAt (history ++ [c]) y

/-- It stays so if at most one buffer enters, at the end. -/
theorem InOrderOfEntry.queues {history : List (Config κ)} {c c' : Config κ} (h : InOrderOfEntry history c)
    (hq : Queues c.machine c'.machine) : InOrderOfEntry (history ++ [c]) c' := by
  obtain ⟨new, hnew, hsub⟩ := hq
  have hjoined : (c.machine.allocator.cache.recency ++ new.toList).Pairwise fun x y =>
      enteredAt (history ++ [c]) x < enteredAt (history ++ [c]) y := by
    rw [List.pairwise_append]
    refine ⟨h, by cases new <;> simp, fun x hx y hy => ?_⟩
    have hold : enteredAt (history ++ [c]) x ≤ history.length := by
      rw [enteredAt_concat, if_pos hx]
      exact enteredAt_le _ _
    have hlast : enteredAt (history ++ [c]) y = history.length + 1 := by
      rw [enteredAt_concat, if_neg (hnew y (Option.mem_toList.mp hy))]
    omega
  refine (hjoined.sublist hsub).imp_of_mem fun {x y} hx hy hlt => ?_
  rwa [enteredAt_concat, enteredAt_concat _ _ y, if_pos hx, if_pos hy]

/-- By induction on the run. -/
theorem ShelfRun.inOrderOfEntry [Kernel κ] {c c' : Config κ} {es : List (Config κ × Action)}
    (h : ShelfRun c es c')
    (hmax : ∀ d ∈ es.map (·.1) ++ [c'], d.progress.streams.length ≤ slotCount)
    (hbounded : ∀ d ∈ es.map (·.1) ++ [c'], d.Bounded) (hc : c.InOrder) {history : List (Config κ)}
    (hentry : InOrderOfEntry history c) : InOrderOfEntry (history ++ es.map (·.1)) c' := by
  induction h generalizing history with
  | nil => simpa using hentry
  | @cons c c₁ c' a es hs ho hr ih =>
    have hhead := hr.head_mem
    have hc₁ : c₁.InOrder := hs.inOrder ho (hmax c₁ (List.mem_cons_of_mem _ hhead))
      (fun x => Nat.lt_trans ((hbounded c List.mem_cons_self).waiting x) (by decide))
      (hbounded c₁ (List.mem_cons_of_mem _ hhead)).refs hc
    have hrest := ih (fun d hd => hmax d (List.mem_cons_of_mem _ hd))
      (fun d hd => hbounded d (List.mem_cons_of_mem _ hd)) hc₁ (hentry.queues (hs.queues ho hc))
    rwa [List.append_assoc] at hrest

/-! ## Searches along a run -/

/-- Of a list in some order, the first entry that passes comes before the others that do. -/
theorem rel_of_find? {r : Nat → Nat → Prop} {p : Nat → Bool} {l : List Nat} {x y : Nat} (h : l.Pairwise r)
    (hx : l.find? p = some x) (hy : y ∈ l) (hp : p y = true) (hne : y ≠ x) : r x y := by
  obtain ⟨-, before, after, rfl, hbefore⟩ := List.find?_eq_some_iff_append.mp hx
  rw [List.pairwise_append, List.pairwise_cons] at h
  rw [List.mem_append, List.mem_cons] at hy
  rcases hy with hy | rfl | hy
  · have := hbefore y hy
    rw [hp] at this
    cases this
  · exact absurd rfl hne
  · exact h.2.1.1 y hy

/-- Every size has a class, and along every run on a command stream device a search of the class of a size finds a
buffer exactly if one there is large enough and has the flags.  It takes the one whose stay in the cache is the
longest, and leaves the others in their order.  Strictly between the bounds that buffer is smaller than twice the
size. -/
theorem ShelfRun.fetch_least_recent [Kernel κ] {m : Machine κ} {es : List (Config κ × Action)} {c : Config κ}
    (hvacant : Vacant m) (hrules : m.device.handles.check = none) (h : ShelfRun ⟨m, [], none⟩ es c)
    (hmax : ∀ d ∈ es.map (·.1) ++ [c], d.progress.streams.length ≤ slotCount)
    (hbounded : ∀ d ∈ es.map (·.1) ++ [c], d.Bounded) (hheld : c.held = none)
    (hcsf : c.progress.generation = .csf) (size : Int64) (flags : UInt32) (label : String) (patient : Bool) :
    let a := c.machine.allocator
    let o := a.options
    let shelf := a.cache.bucket (o.bucketIndex size)
    let history := es.map (·.1) ++ [c]
    (∀ o : AllocatorOptions, o.minBucket ≤ o.maxBucket → o.Classifies) ∧
      ∃ found m', (Allocator.fetch size flags label patient).exec c.machine = (.ok found, m') ∧
        ((∃ x, found = some x) ↔ ∃ x ∈ shelf, a.serves size flags x = true) ∧
        (found = none → m' = c.machine) ∧
        ∀ x, found = some x →
          (x ∈ shelf ∧ a.serves size flags x = true ∧
            ∀ y ∈ shelf, a.serves size flags y = true → y ≠ x →
              enteredAt history x < enteredAt history y) ∧
          TakenOut x label c.machine m' ∧
          (0 < o.minBucket → o.minBucket < Nat.clog 2 size.toInt.toNat →
            Nat.clog 2 size.toInt.toNat < o.maxBucket →
            ∀ b, a.buffers[x]? = some b → b.size.toInt < 2 * size.toInt) := by
  intro a o shelf history
  have hstart := hvacant.inOrder hrules
  have hc := h.inOrder hmax hbounded hstart
  have hentry : InOrderOfEntry (es.map (·.1)) c := by
    have hempty : m.allocator.cache.recency = [] := by
      rw [show m.allocator.cache = _ from hvacant.cache]
      rfl
    have hfirst : InOrderOfEntry [] (⟨m, [], none⟩ : Config κ) := by
      rw [InOrderOfEntry, hempty]
      exact List.Pairwise.nil
    exact h.inOrderOfEntry hmax hbounded hstart hfirst
  obtain ⟨machine, ready, held⟩ := c
  subst hheld
  have hsub : shelf.Sublist a.cache.recency := hc.shelved.inOrder _
  have hordered : shelf.Pairwise fun x y => enteredAt history x < enteredAt history y :=
    List.Pairwise.sublist hsub hentry
  obtain ⟨m', he, hnone, hsome⟩ := exec_fetchFrom size flags label patient hc hcsf hsub.subset
  have hfetch : (Allocator.fetch size flags label patient).exec machine =
      (.ok (shelf.find? (a.serves size flags)), m') := by
    unfold Allocator.fetch
    rw [exec_bind_of_ok (exec_allocator machine)]
    exact he
  refine ⟨fun o ho => AllocatorOptions.classifies ho, _, m', hfetch, ?_, hnone, fun x hx => ?_⟩
  · rw [← Option.isSome_iff_exists, List.find?_isSome]
  · have hmem : x ∈ shelf := List.mem_of_find?_eq_some hx
    refine ⟨⟨hmem, List.find?_some hx, fun y hy hserves hne => ?_⟩, hsome x hx, fun hpos hmin hmax b hb => ?_⟩
    · have hlt := rel_of_find? hordered hx hy hserves hne
      exact hlt
    · obtain ⟨b', hb', -, -, hclass, -⟩ := hc.shelved.cached _ x hmem
      obtain rfl : b' = b := Option.some.inj (hb'.symm.trans hb)
      exact AllocatorOptions.lt_two_mul_of_sizeClass hpos hmin hmax hclass

namespace ReuseSample

-- a table of 256 slots is evaluated
set_option maxRecDepth 20000

/-- An allocator with the classes of 4 KiB to 4 MiB. -/
def start : Machine Bench where
  kernel := {}
  allocator := { started := true, options := { minBucket := 12, maxBucket := 22 }, cache := .empty 11 }

theorem fresh_start : Fresh start := by
  constructor
  case range => decide
  all_goals rfl

/-- A region became a buffer, and was handed out. -/
def wrapped : Machine Bench := ((Allocator.wrapRegion ⟨⟨0, 0⟩, 0⟩ 12288 0 "first").exec start).2

@[inherit_doc wrapped]
def live : Machine Bench := ((Allocator.handOut 0).exec wrapped).2

/-- So did another one. -/
def wrappedNext : Machine Bench := ((Allocator.wrapRegion ⟨⟨0, 0⟩, 0⟩ 16384 0 "second").exec live).2

@[inherit_doc wrappedNext]
def liveNext : Machine Bench := ((Allocator.handOut 1).exec wrappedNext).2

/-- The second one was released, and then the first. -/
def cached : Machine Bench := ((Buffer.unreference 1).exec liveNext).2

@[inherit_doc cached]
def cachedNext : Machine Bench := ((Buffer.unreference 0).exec cached).2

def steps : List (Config Bench × Action) :=
  [(⟨start, [], none⟩, .other), (⟨wrapped, [], some 0⟩, .other), (⟨live, [], none⟩, .other),
    (⟨wrappedNext, [], some 1⟩, .other), (⟨liveNext, [], none⟩, .release 1),
    (⟨cached, [], none⟩, .release 0)]

theorem run_cached : ShelfRun ⟨start, [], none⟩ steps ⟨cachedNext, [], none⟩ := by
  have hwrap : (Allocator.wrapRegion ⟨⟨0, 0⟩, 0⟩ 12288 0 "first").exec start = (.ok 0, wrapped) :=
    exec_of_value (by decide)
  have hhand : (Allocator.handOut 0).exec wrapped = (.ok (), live) := exec_of_value (by decide)
  have hwrap' : (Allocator.wrapRegion ⟨⟨0, 0⟩, 0⟩ 16384 0 "second").exec live = (.ok 1, wrappedNext) :=
    exec_of_value (by decide +kernel)
  have hhand' : (Allocator.handOut 1).exec wrappedNext = (.ok (), liveNext) := exec_of_value (by decide +kernel)
  have hrelease : (Buffer.unreference 1).exec liveNext = (.ok (), cached) := exec_of_value (by decide +kernel)
  have hrelease' : (Buffer.unreference 0).exec cached = (.ok (), cachedNext) := exec_of_value (by decide +kernel)
  refine .cons (.stream rfl (.wrap hwrap)) ⟨by decide, ?_, ?_, nofun⟩ <|
    .cons (.stream rfl (.handOut hhand)) ⟨by decide, ?_, ?_, nofun⟩ <|
    .cons (.stream (by decide +kernel) (.wrap hwrap')) ⟨by decide +kernel, ?_, ?_, nofun⟩ <|
    .cons (.stream (by decide +kernel) (.handOut hhand')) ⟨by decide +kernel, ?_, ?_, nofun⟩ <|
    .cons (.stream (by decide +kernel) (.release (a := { BufferSample.account with handle := 1 })
      (by decide +kernel) rfl hrelease)) ⟨by decide +kernel, nofun, nofun, nofun⟩ <|
    .cons (.stream (by decide +kernel) (.release (a := BufferSample.account) (by decide +kernel) rfl hrelease'))
      ⟨by decide +kernel, nofun, nofun, nofun⟩ (.nil _)
  · exact fun _ _ _ => (cards_wrapRegion _ _ _ _).ok hwrap
  · exact fun _ _ => (keeps_wrapRegion (fun va => lawful_allocHandle va (by decide)) _ _ _ _).ok hwrap
  · exact fun _ _ _ => (cards_handOut _).ok hhand
  · exact fun _ _ => (keeps_handOut _).ok hhand
  · exact fun _ _ _ => (cards_wrapRegion _ _ _ _).ok hwrap'
  · exact fun _ _ => (keeps_wrapRegion (fun va => lawful_allocHandle va (by decide)) _ _ _ _).ok hwrap'
  · exact fun _ _ _ => (cards_handOut _).ok hhand'
  · exact fun _ _ => (keeps_handOut _).ok hhand'

end ReuseSample

set_option maxRecDepth 20000 in
/-- Both buffers are in the class of 10000 bytes and serve; the one that was released first is taken. -/
theorem fetch_least_recent_sample : ReuseSample.cachedNext.allocator.cache.bucket 2 = [1, 0] ∧
    ∃ m', (Allocator.fetch 10000 0 "again" false).exec ReuseSample.cachedNext = (.ok (some 1), m') ∧
      m'.allocator.cache.bucket 2 = [0] := by
  have hmax : ∀ d ∈ ReuseSample.steps.map (·.1) ++ [⟨ReuseSample.cachedNext, [], none⟩],
      d.progress.streams.length ≤ slotCount := by
    decide +kernel
  have hbounded := (ReuseSample.run_cached.run rfl).bounded ReuseSample.fresh_start (hmax _ (by simp))
    (by decide +kernel) (by decide +kernel)
  have hbucket : ReuseSample.cachedNext.allocator.cache.bucket 2 = [1, 0] := by decide +kernel
  obtain ⟨-, found, m', he, hfound, -, hsome⟩ := ShelfRun.fetch_least_recent ReuseSample.fresh_start.vacant
    (by decide) ReuseSample.run_cached hmax hbounded rfl (by decide +kernel) 10000 0 "again" false
  obtain ⟨x, rfl⟩ := hfound.mpr ⟨1, by decide +kernel, by decide +kernel⟩
  obtain ⟨⟨hx, -, hfirst⟩, htaken, -⟩ := hsome x rfl
  have hshelf : ReuseSample.cachedNext.allocator.cache.bucket
      (ReuseSample.cachedNext.allocator.options.bucketIndex 10000) = [1, 0] := by
    decide +kernel
  have hx : x ∈ [1, 0] := hshelf ▸ hx
  rw [List.mem_pair] at hx
  rcases hx with rfl | rfl
  · refine ⟨hbucket, m', he, ?_⟩
    rw [htaken.bucket 2, hbucket]
    rfl
  · -- the other one was released first
    exact absurd (hfirst 1 (by decide +kernel) (by decide +kernel) (by decide)) (by decide +kernel)

end Mali
