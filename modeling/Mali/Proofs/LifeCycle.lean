import Mali.Proofs.AccountHistory

/-!
# The life cycle of buffers

Along a run the books stay in order, as long as no 32-bit count overflows.  So at every moment between
two calls each buffer is live, releasing, cached or freed, and only one of these.

The reference count is not guarded against overflow.  After `2 ^ 31` references to one buffer it is
negative, and the buffer is in none of the four phases.

* `Step.books`, `Run.books`: the books stay in order.
* `Account.Live` and so on: the four phases.
* `Run.life_cycle`: every buffer is in exactly one phase, and what is said about it elsewhere agrees.
-/

namespace Mali

open Op

theorem Int32.ofNat_pos {n : Nat} (h : 0 < n) (hlt : n < 2 ^ 31) : 0 < Int32.ofNat n := by
  rw [Int32.lt_iff_toInt_lt, Int32.toInt_ofNat_of_lt hlt]
  exact Int.ofNat_lt.mpr h

theorem Int32.one_le_of_ne_zero {r : Int32} (h : 0 ≤ r) (hne : r ≠ 0) : 1 ≤ r := by
  have hz : r.toInt ≠ 0 := fun e => hne (Int32.toInt_inj.mp e)
  rw [Int32.le_iff_toInt_le] at h ⊢
  simp only [Int32.toInt_zero, Int32.toInt_one] at h ⊢
  omega

/-! ## Uses and the books -/

section Usage

variable {S S' : Storage} {owns : Nat → Int → Prop} {held : Option Nat} {us : Nat → List Usage}
  (hget : ∀ x, S'.accounts[x]? = (S.accounts[x]?).map fun a : Account => { a with usage := us x })
include hget

/-- What holds of an account whatever its uses are still holds. -/
theorem Storage.forall_of_usage {P : Account → Prop} {x : Nat} (hP : ∀ b us, P b → P { b with usage := us })
    (h : ∀ a, S.accounts[x]? = some a → P a) (a : Account) (hx : S'.accounts[x]? = some a) : P a := by
  rw [hget] at hx
  obtain ⟨b, hb, rfl⟩ := Option.map_eq_some_iff.mp hx
  exact hP b _ (h b hb)

theorem Storage.exists_of_usage {P : Account → Prop} {x : Nat} (hP : ∀ b us, P { b with usage := us } ↔ P b) :
    (∃ a, S'.accounts[x]? = some a ∧ P a) ↔ ∃ a, S.accounts[x]? = some a ∧ P a := by
  rw [hget]
  constructor
  · rintro ⟨a, hx, ha⟩
    obtain ⟨b, hb, rfl⟩ := Option.map_eq_some_iff.mp hx
    exact ⟨b, hb, (hP b _).mp ha⟩
  · rintro ⟨b, hb, hPb⟩
    rw [hb]
    exact ⟨_, rfl, (hP b _).mpr hPb⟩

/-- Where a buffer is does not depend on its uses. -/
theorem Storage.Placed.of_usage (h : S.Placed owns held) (harena : S'.arena = S.arena) : S'.Placed owns held where
  settled x := forall_of_usage hget (fun _ _ => id) (h.settled x)
  held x hx := (exists_of_usage hget fun _ _ => Iff.rfl).mpr (h.held x hx)
  apart x := forall_of_usage hget (fun _ _ => id) (h.apart x)
  arena k x := by
    rw [harena, h.arena]
    exact (exists_of_usage hget fun _ _ => Iff.rfl).symm
  owned x := forall_of_usage hget (fun _ _ => id) (h.owned x)
  unshared x := forall_of_usage hget (fun _ _ => id) (h.unshared x)

/-- The books do not depend on the uses of buffers. -/
theorem Storage.Books.of_usage {w : Nat → Nat} (h : S.Books w owns held)
    (hrest : S' = { S with accounts := S'.accounts }) : S'.Books w owns held := by
  have hfreed : S'.accounts.map (·.freed) = S.accounts.map (·.freed) := by
    refine List.ext_getElem? fun x => ?_
    rw [List.getElem?_map, List.getElem?_map, hget]
    cases S.accounts[x]? <;> rfl
  refine { h.placed.of_usage hget (by rw [hrest]) with
    named := fun x hx => ?named
    counted := fun x => forall_of_usage hget (fun _ _ => id) (h.counted x)
    settled := fun x => forall_of_usage hget (fun _ _ => id) (h.settled x)
    active := fun x => forall_of_usage hget (fun _ _ => id) (h.active x)
    buckets := fun i x => ?buckets
    nodup := fun i => ?nodup
    classes := ?classes
    range := ?range
    frees := ?frees }
  case named =>
    have hlength := congrArg List.length hfreed
    rw [List.length_map, List.length_map] at hlength
    exact h.named x (hlength ▸ hx)
  case buckets =>
    rw [show S'.cache = S.cache by rw [hrest], h.buckets]
    exact (exists_of_usage hget fun _ _ => Iff.rfl).symm
  case nodup =>
    rw [hrest]
    exact h.nodup i
  case classes =>
    rw [hrest]
    exact h.classes
  case range =>
    rw [hrest]
    exact h.range
  case frees =>
    have hcount := congrArg (List.countP id) hfreed
    rw [List.countP_map, List.countP_map] at hcount
    rw [show S'.frees = S.frees by rw [hrest], h.frees]
    exact hcount.symm

end Usage

variable {κ : Type}

/-- The books of a configuration are in order. -/
def Config.Books (c : Config κ) : Prop :=
  c.machine.Books (c.ready.map (·.2.callback)) c.held

/-- A handle that stands for no buffer may go. -/
theorem Dropping.books {handle : Nat} {m m' : Machine κ} {ready : List Callback} {held : Option Nat}
    (h : Dropping handle m m') (hb : m.Books ready held)
    (hfree : m.allocator.lookup? handle = none) : m'.Books ready held := by
  rw [Machine.Books, h.storage, h.toUndisturbed.waiting]
  refine { hb with owned := fun x a hx hf => ?_ }
  obtain ⟨fd, howns, hneg⟩ := hb.owned x a hx hf
  refine ⟨fd, h.owns _ _ ?_ howns, hneg⟩
  rintro rfl
  have := (hb.arena a.handle x).mpr ⟨a, hx, rfl, hf⟩
  have hfree : m.storage.arena.lookup a.handle = none := hfree
  rw [this] at hfree
  cases hfree

section Kernel

variable [Kernel κ] {c c' : Config κ} {act : Action}

/-- Whether an action leaves the slots alone, but for a release. -/
def Action.Plain (act : Action) : Prop := act = .other ∨ ∃ x, act = .release x

/-- A step about buffers only keeps the books if no reference count has come to its least value, whatever
the slots are like. -/
theorem Step.books_of_plain (h : Step c act c') (hact : act.Plain) (hdrained : c.progress.Drained)
    (hrefs : ∀ x a, c'.account? x = some a → a.refs ≠ Int32.minValue) (hb : c.Books) : c'.Books := by
  cases h with
  | quiet h => exact Machine.Books.quiet hb h
  | reference he => exact books_reference he hb (hrefs _)
  | revive hlookup howns hfd he => exact books_revive he hb hlookup howns hfd (hrefs _)
  | unreference ha hlast he => exact books_unreference he hb hdrained
  | release ha hlast he => exact books_unreference he hb hdrained
  | enter hfree howns hshared hgpu hcached hfreed hone _ he =>
    exact books_addBuffer he hb hfree howns hshared hgpu hcached hfreed (by rw [hone]; decide)
  | abandon hfree he => exact ((dropping_freeHandle _).ok he).books hb hfree
  | reuse he => exact (tidies_reuse [] he).books hb
  | wrap he => exact books_wrapRegion he hb
  | handOut he => exact books_handOut he hb
  | evictStale he => exact ((tidies_evictOld []).ok he).books hb
  | evictAll he => exact ((tidies_evictBuckets [] _).ok he).books hb
  | _ => exact absurd hact (by simp [Action.Plain])

/-- A step keeps the books if no count overflows: the callbacks to come for a buffer are fewer than
`2 ^ 32`, and no reference count has come to its least value. -/
theorem Step.books (h : Step c act c') (hs : c.progress.Sound)
    (hmax : c'.progress.streams.length ≤ slotCount) (hcount : ∀ x, c.waiting x < 2 ^ 32)
    (hrefs : ∀ x a, c'.account? x = some a → a.refs ≠ Int32.minValue) (hb : c.Books) : c'.Books := by
  by_cases hact : act.Plain
  · exact h.books_of_plain hact (fun hbusy => hs.slots.waiting_of_not_busy hbusy) hrefs hb
  have hlt := h.bound_lt hs hmax
  have hstay (hfires : ∀ y, (act.fires.map (·.2.callback)).count (.release y) = 0) (y : Nat) :
      c'.waiting y = c.waiting y := by
    have hw := h.waiting y
    rwa [hfires, if_neg fun e => hact (.inr ⟨y, e⟩)] at hw
  cases h with
  | await he => exact (callbackAll_ok he).2.books hb (hstay fun _ => rfl)
  | attach he => exact ((attachStream_ok he).2 (hlt rfl)).books hb (hstay fun _ => rfl)
  | submit _ he => exact (submitSlot_ok he).books hb (hstay fun _ => rfl)
  | advance he => exact (advanceSlot_ok he).2.2.books hb (hstay fun _ => rfl)
  | update he => exact (takeCallbacks_ok he).2.2.books hb (hstay fun _ => rfl)
  | terminate _ he => exact (clearSlot_ok he).2.2.books hb (hstay fun _ => rfl)
  | @fire m m' i l ready he =>
    obtain ⟨n, callback⟩ := l
    cases callback with
    | report id =>
      exact (Moves.of_quiet ((keeps_report _).ok he)).books hb
        (hstay fun y => by simp [Action.fires])
    | release x => exact books_queueDrained he hb (hcount x)
  | @collect m m' id batch b hget _ he =>
    obtain ⟨_, hg⟩ := gathers_of_collect hget he
    have hwaiting : m'.waiting [] = m.waiting [] := funext (hstay fun _ => rfl)
    have howns : m'.Owns = m.Owns := by
      unfold Machine.Owns
      rw [hg.device]
    show m'.storage.Books (m'.waiting []) m'.Owns none
    rw [hwaiting, howns]
    exact Storage.Books.of_usage hg.accounts hb hg.storage
  | _ => exact absurd (by simp [Action.Plain]) hact

/-! ## Phases -/

/-- No 32-bit count overflows: fewer than `2 ^ 31` callbacks are to come for every buffer, and no
reference count has come to its least value. -/
structure Config.Bounded (c : Config κ) : Prop where
  waiting : ∀ x, c.waiting x < 2 ^ 31
  refs : ∀ x a, c.account? x = some a → a.refs ≠ Int32.minValue

/-- The phases in the life of a buffer. -/
inductive Phase where
  | live | releasing | cached | freed
  deriving DecidableEq

/-- Whether a buffer is in a phase. -/
def Machine.InPhase (m : Machine κ) (x : Nat) (b : Buffer) : Phase → Prop
  | .live => 1 ≤ b.refs ∧ (∀ i, x ∉ m.allocator.cache.bucket i) ∧ b.freed = false
  | .releasing =>
    b.refs = 0 ∧ 0 < b.gpuRefs ∧ (∀ i, x ∉ m.allocator.cache.bucket i) ∧ b.freed = false
  | .cached =>
    b.refs = 0 ∧ b.gpuRefs = 0 ∧ b.freed = false ∧ ∃ i, (m.allocator.cache.bucket i).count x = 1 ∧
      ∀ j, x ∈ m.allocator.cache.bucket j → j = i
  | .freed => b.freed = true ∧ ∀ i, x ∉ m.allocator.cache.bucket i

omit [Kernel κ] in
theorem Vacant.books {m : Machine κ} (h : Vacant m) : (⟨m, [], none⟩ : Config κ).Books := by
  have hget (x : Nat) : m.storage.accounts[x]? = none := by rw [h.accounts]; rfl
  have hsome {x : Nat} {a : Account} (hx : m.storage.accounts[x]? = some a) : False := by
    rw [hget] at hx
    cases hx
  have hbucket (i : Nat) : m.storage.cache.bucket i = [] := by
    rw [h.cache, BufferCache.bucket, BufferCache.empty, List.getD_eq_getElem?_getD,
      List.getElem?_replicate]
    split <;> rfl
  refine ⟨fun x _ => h.waiting x, fun _ _ hx => (hsome hx).elim, fun _ _ hx => (hsome hx).elim,
    fun _ _ hx => (hsome hx).elim, fun _ hx => (nomatch hx), fun _ _ hx => (hsome hx).elim,
    fun k x => ?_, fun _ _ hx => (hsome hx).elim, fun _ _ hx => (hsome hx).elim, fun i x => ?_,
    fun i => ?_, ?_, h.range, ?_⟩
  · rw [h.arena]
    constructor
    · exact fun hx => nomatch hx
    · rintro ⟨a, hx, -⟩
      exact (hsome hx).elim
  · rw [hbucket]
    constructor
    · exact fun hx => absurd hx List.not_mem_nil
    · rintro ⟨a, hx, -⟩
      exact (hsome hx).elim
  · rw [hbucket]
    exact List.nodup_nil
  · rw [h.cache, BufferCache.empty, List.length_replicate]
  · rw [h.frees, h.accounts]
    rfl

omit [Kernel κ] in
theorem Fresh.books {m : Machine κ} (h : Fresh m) : (⟨m, [], none⟩ : Config κ).Books := h.vacant.books

/-- By induction on the run, with the slots sound all along. -/
theorem Run.books {es : List (Config κ × Action)} (h : Run c es c') (hs : c.progress.Sound)
    (hmax : c'.progress.streams.length ≤ slotCount)
    (hbounded : ∀ d ∈ es.map (·.1) ++ [c'], d.Bounded) (hb : c.Books) : c'.Books := by
  induction h with
  | nil => exact hb
  | @cons c c₁ c' a es hstep hr ih =>
    have hmax' := Nat.le_trans hr.length_streams_le hmax
    have hc := hbounded c List.mem_cons_self
    have hc₁ := hbounded c₁ (List.mem_cons_of_mem _ hr.head_mem)
    refine ih (hstep.sound hs hmax') hmax (fun d hd => hbounded d (List.mem_cons_of_mem _ hd)) ?_
    exact hstep.books hs hmax' (fun x => Nat.lt_trans (hc.waiting x) (by decide)) hc₁.refs hb

omit [Kernel κ] in
/-- At rest, what the books say about one buffer: it is freed, or cached, or it has references, or
something is to come for it. -/
theorem Machine.Books.phase {m : Machine κ} (h : m.Books [] none) {x : Nat} {b : Buffer}
    (hx : m.allocator.buffers[x]? = some b) (hwaiting : m.waiting [] x < 2 ^ 31) :
    ∃! p : Phase, m.InPhase x b p := by
  have ha := Machine.accounts_of_buffer hx
  have hlisted (i : Nat) : x ∈ m.allocator.cache.bucket i ↔ b.cachedIn = some i := by
    refine (h.buckets i x).trans ⟨?_, fun hi => ⟨_, ha, hi⟩⟩
    rintro ⟨a, hxa, hi⟩
    rw [ha] at hxa
    cases hxa
    exact hi
  cases hfreed : b.freed with
  | true =>
    have hcached : b.cachedIn = none := h.apart x _ ha hfreed
    refine ⟨.freed, ⟨hfreed, fun i => by simp [hlisted, hcached]⟩, fun q hq => ?_⟩
    cases q with
    | live => exact absurd hq.2.2 (by simp [hfreed])
    | releasing => exact absurd hq.2.2.2 (by simp [hfreed])
    | cached => exact absurd hq.2.2.1 (by simp [hfreed])
    | freed => rfl
  | false =>
    cases hcached : b.cachedIn with
    | some i =>
      obtain ⟨hrefs, hnone⟩ := h.settled x _ ha (.inr (.inl fun e => by
        rw [show b.account.cachedIn = some i from hcached] at e
        cases e))
      have hrefs : b.refs = 0 := hrefs
      have hgpu : b.gpuRefs = 0 := by
        have := h.counted x _ ha
        rwa [hnone] at this
      have hmem := (hlisted i).mpr hcached
      refine ⟨.cached, ⟨hrefs, hgpu, hfreed, i, List.count_eq_one_of_mem (h.nodup i) hmem, fun j hj => ?_⟩,
        fun q hq => ?_⟩
      · have := (hlisted j).mp hj
        rw [hcached] at this
        exact (Option.some.inj this).symm
      · cases q with
        | live => exact absurd hmem (hq.2.1 i)
        | releasing => exact absurd hmem (hq.2.2.1 i)
        | cached => rfl
        | freed => exact absurd hmem (hq.2 i)
    | none =>
      obtain ⟨hpos, hsome⟩ := h.active x _ ha hfreed hcached nofun
      have hpos : 0 ≤ b.refs := hpos
      have hnot (i : Nat) : x ∉ m.allocator.cache.bucket i := by simp [hlisted, hcached]
      by_cases hrefs : b.refs = 0
      · have hgpu : 0 < b.gpuRefs := by
          rw [show b.gpuRefs = _ from h.counted x _ ha]
          exact Int32.ofNat_pos (Nat.pos_of_ne_zero (hsome hrefs)) hwaiting
        refine ⟨.releasing, ⟨hrefs, hgpu, hnot, hfreed⟩, fun q hq => ?_⟩
        cases q with
        | live => exact absurd (hrefs ▸ hq.1) (by decide)
        | releasing => rfl
        | cached => exact absurd (hq.2.1 ▸ hgpu) (by decide)
        | freed => exact absurd hq.1 (by simp [hfreed])
      · refine ⟨.live, ⟨Int32.one_le_of_ne_zero hpos hrefs, hnot, hfreed⟩, fun q hq => ?_⟩
        cases q with
        | live => rfl
        | releasing => exact absurd hq.1 hrefs
        | cached => exact absurd hq.1 hrefs
        | freed => exact absurd hq.1 (by simp [hfreed])

/-- Along every run from a fresh device on which at most 256 streams are attached and no count
overflows, whenever no callback is about to run and no buffer is about to be handed out: every buffer
is in exactly one phase, its count is the number of its links that wait on the slots, its handle leads
to it exactly if it is not freed, and as many buffers are freed as were given back to the kernel. -/
theorem Run.life_cycle {m : Machine κ} {es : List (Config κ × Action)} {c : Config κ}
    (hfresh : Fresh m) (hrun : Run ⟨m, [], none⟩ es c)
    (hmax : c.progress.streams.length ≤ slotCount)
    (hbounded : ∀ d ∈ es.map (·.1) ++ [c], d.Bounded) (hready : c.ready = []) (hheld : c.held = none) :
    (∀ x b, c.machine.allocator.buffers[x]? = some b → (∃! p : Phase, c.machine.InPhase x b p) ∧
      b.gpuRefs.toInt = c.progress.slots.waiting (.release x)) ∧
    (∀ k x, c.machine.allocator.lookup? k = some x ↔
      ∃ b, c.machine.allocator.buffers[x]? = some b ∧ b.handle = k ∧ b.freed = false) ∧
    c.machine.allocator.frees = c.machine.allocator.buffers.countP (·.freed) := by
  have hbooks := hrun.books hfresh.sound hmax hbounded hfresh.books
  have hlast := hbounded c (List.mem_append_right _ (List.mem_singleton_self c))
  obtain ⟨m', ready, held⟩ := c
  subst hready hheld
  have hbooks : m'.Books [] none := hbooks
  refine ⟨fun x b hx => ⟨hbooks.phase hx (hlast.waiting x), ?_⟩, fun k x => ?_, ?_⟩
  · have hcount : b.gpuRefs = Int32.ofNat (m'.waiting [] x) :=
      hbooks.counted x _ (Machine.accounts_of_buffer hx)
    rw [hcount]
    exact Int32.toInt_ofNat_of_lt (hlast.waiting x)
  · refine (hbooks.arena k x).trans ⟨?_, ?_⟩
    · rintro ⟨a, ha, hk, hf⟩
      have ha : (m'.allocator.buffers.map Buffer.account)[x]? = some a := ha
      rw [List.getElem?_map] at ha
      obtain ⟨b, hb, rfl⟩ := Option.map_eq_some_iff.mp ha
      exact ⟨b, hb, hk, hf⟩
    · rintro ⟨b, hb, hk, hf⟩
      exact ⟨_, Machine.accounts_of_buffer hb, hk, hf⟩
  · have hfrees : m'.allocator.frees = (m'.allocator.buffers.map Buffer.account).countP (·.freed) :=
      hbooks.frees
    rw [hfrees, List.countP_map]
    rfl

/-- No count overflows in fewer than `2 ^ 23` steps, if no reference count comes to its least value. -/
theorem Run.bounded {m : Machine κ} {es : List (Config κ × Action)} {c : Config κ} (hfresh : Fresh m)
    (hrun : Run ⟨m, [], none⟩ es c) (hmax : c.progress.streams.length ≤ slotCount)
    (hshort : slotCount * es.length < 2 ^ 31)
    (hrefs : ∀ d ∈ es.map (·.1) ++ [c], ∀ a ∈ d.machine.storage.accounts, a.refs ≠ Int32.minValue) :
    ∀ d ∈ es.map (·.1) ++ [c], d.Bounded := by
  intro d hd
  refine ⟨fun x => ?_, fun x a hx => hrefs d hd a (List.mem_of_getElem? hx)⟩
  obtain ⟨es₁, es₂, rfl, h₁, h₂⟩ := hrun.through hd
  have hle := h₁.waiting_le hfresh.sound (Nat.le_trans h₂.length_streams_le hmax) x
  rw [hfresh.waiting, Nat.zero_add] at hle
  rw [List.length_append, Nat.mul_add] at hshort
  omega

/-! ## Overflow -/

/-- Nothing stops a buffer from being referenced until its count overflows.  By induction on the number
of references. -/
theorem exists_run_reference {m : Machine κ} {x : Nat} {b : Buffer}
    (hx : m.allocator.buffers[x]? = some b) (hone : b.refs = 1) (n : Nat) (hn : n < 2 ^ 31) :
    ∃ es m', Run ⟨m, [], none⟩ es ⟨m', [], none⟩ ∧ m'.progress = m.progress ∧
      ∃ b', m'.allocator.buffers[x]? = some b' ∧ b'.refs = Int32.ofNat (n + 1) ∧
        b'.freed = b.freed := by
  induction n with
  | zero => exact ⟨[], m, .nil _, rfl, b, hx, hone, rfl⟩
  | succ n ih =>
    obtain ⟨es, m', hrun, hprogress, b', hb', hrefs, hfreed⟩ := ih (by omega)
    have hne : b'.refs ≠ 0 := by
      intro h
      rw [hrefs] at h
      exact absurd (Int32.eq_zero_of_ofNat (by omega) h) (Nat.succ_ne_zero n)
    refine ⟨_, _, hrun.append (.single (.reference (exec_reference hb' hne))), hprogress,
      { b' with refs := b'.refs + 1 }, ?_, ?_, hfreed⟩
    · show (m'.allocator.buffers.modify x _)[x]? = _
      rw [List.getElem?_modify_eq, hb']
      rfl
    · show b'.refs + 1 = _
      rw [hrefs, Int32.ofNat_add (n + 1) 1]
      rfl

end Kernel

set_option maxRecDepth 20000 in
/-- In the short run the buffer is in one phase while its release waits for the slot. -/
theorem life_cycle_sample : ∃ b, Sample.released.allocator.buffers[0]? = some b ∧
    (∃! p : Phase, Sample.released.InPhase 0 b p) ∧ b.gpuRefs.toInt = 1 := by
  have hrun : Run ⟨Sample.start, [], none⟩ (Sample.submission ++ [(⟨Sample.busy, [], none⟩, .release 0)])
      ⟨Sample.released, [], none⟩ := Sample.run_busy.append (.single Sample.step_released)
  have hmax : (⟨Sample.released, [], none⟩ : Config Bench).progress.streams.length ≤ slotCount := by
    decide
  have hbounded := hrun.bounded Sample.fresh_start hmax (by decide) (by decide)
  obtain ⟨hphases, -, -⟩ := Run.life_cycle Sample.fresh_start hrun hmax hbounded rfl rfl
  have hbuffer : (Sample.released.allocator.buffers[0]?).isSome = true := by decide
  obtain ⟨b, hb⟩ := Option.isSome_iff_exists.mp hbuffer
  have hgpu : (Sample.released.allocator.buffers[0]?).map (·.gpuRefs) = some 1 := by decide
  rw [hb] at hgpu
  have hgpu : b.gpuRefs = 1 := Option.some.inj hgpu
  refine ⟨b, hb, (hphases 0 b hb).1, ?_⟩
  rw [hgpu]
  rfl

set_option maxRecDepth 20000 in
/-- Without a bound on the counts the phases do not cover everything: after `2 ^ 31 - 1` more references
the count of a buffer is negative. -/
theorem not_forall_phase : ¬∀ (m : Machine Bench) (es : List (Config Bench × Action)) (c : Config Bench),
    Fresh m → Run ⟨m, [], none⟩ es c → c.progress.streams.length ≤ slotCount → c.ready = [] →
      c.held = none → ∀ x b, c.machine.allocator.buffers[x]? = some b →
        ∃! p : Phase, c.machine.InPhase x b p := by
  intro hall
  have hbuffer : (Sample.live.allocator.buffers[0]?).isSome = true := by decide
  obtain ⟨b, hb⟩ := Option.isSome_iff_exists.mp hbuffer
  have hlive : (Sample.live.allocator.buffers[0]?).map (fun b => (b.refs, b.freed)) =
      some (1, false) := by decide
  rw [hb] at hlive
  obtain ⟨hone, hfreed⟩ := Prod.mk.inj (Option.some.inj hlive)
  obtain ⟨es, m, hrun, hprogress, b', hb', hrefs, hfreed'⟩ :=
    exists_run_reference hb hone (2 ^ 31 - 1) (by decide)
  have hmax : m.progress.streams.length ≤ slotCount := by
    rw [hprogress]
    decide
  obtain ⟨p, hp, -⟩ := hall Sample.start _ ⟨m, [], none⟩ Sample.fresh_start (Sample.run_live.append hrun)
    hmax rfl rfl 0 b' hb'
  have hp : m.InPhase 0 b' p := hp
  have hrefs : b'.refs = Int32.minValue := hrefs.trans (by decide)
  cases p with
  | live => exact absurd hp.1 (by rw [hrefs]; decide)
  | releasing => exact absurd hp.1 (by rw [hrefs]; decide)
  | cached => exact absurd hp.1 (by rw [hrefs]; decide)
  | freed => exact absurd hp.1 (by rw [hfreed', hfreed]; decide)

end Mali
