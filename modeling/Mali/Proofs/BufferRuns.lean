import Mali.Kernel.Bench
import Mali.Proofs.BusyBuffers
import Mali.Proofs.Runs

/-!
# When a job manager device frees its buffers

No stream is bound on a job manager device, so the release of a buffer finds no busy queue and never
waits.  It ends at once, and nothing on the way looks at the use count of the handle.  A buffer that may
not be cached is freed although atoms in flight use it, and its handle is given out again.

Nothing else frees a buffer in use.  As long as no buffer is released while its handle is in use, nothing
is freed while its handle is in use: not by an eviction, and not by a fresh allocation that empties the
cache.  Use counts then stay right, so events can be handled.

* `Machine.Uses`, `Machine.Freed`: the use count of a buffer's handle, and whether it is freed.
* `release_ok`: a release on a device without queues.
* `BufferStep`, `BufferRun`: executions on a job manager device.
* `BufferStep.guards`: one step.
* `BufferRun.frees_unused`: what a run frees.
-/

namespace Mali

open Op

variable {κ : Type}

/-! ## Use counts of buffers -/

/-- Atoms in flight use the handle of a buffer. -/
def Machine.Uses (m : Machine κ) (x : Nat) : Prop :=
  ∃ b, m.allocator.buffers[x]? = some b ∧ (m.device.handles.get b.handle).useCount ≠ 0

/-- A buffer was given back to the kernel. -/
def Machine.Freed (m : Machine κ) (x : Nat) : Prop :=
  ∃ b, m.allocator.buffers[x]? = some b ∧ b.freed = true

/-- Where use counts are right, they say whether an atom in flight lists the handle. -/
theorem Machine.uses_iff {m : Machine κ} {x : Nat} {a : Account}
    (hb : Balanced m.jobState.table m.jobState.flights) (hx : m.storage.accounts[x]? = some a) :
    m.Uses x ↔ flightCount m.jobState.flights a.handle ≠ 0 := by
  obtain ⟨b, hget, rfl⟩ := Machine.exists_buffer hx
  have hcount := hb.toNat_useCount b.account.handle
  have hzero : (m.device.handles.get b.handle).useCount = 0 ↔
      flightCount m.jobState.flights b.account.handle = 0 := by
    rw [← hcount, ← UInt8.toNat_inj]
    rfl
  constructor
  · rintro ⟨b', hget', huse⟩
    rw [hget] at hget'
    cases hget'
    exact fun h => huse (hzero.mpr h)
  · exact fun h => ⟨b, hget, fun huse => h (hzero.mp huse)⟩

/-! ## Releases -/

theorem SlotTable.awaitAll_zero (t : SlotTable) (c : Callback) : t.awaitAll 0 c = t := by
  refine Vector.ext fun i hi => ?_
  rw [awaitAll, Vector.getElem_mapIdx]
  exact if_neg (Nat.not_lt_zero i)

theorem exec_callbackAll_of_bound {m : Machine κ} (hm : m.device.bound = 0) (c : Callback) :
    (Device.callbackAll c).exec m = (.ok 0, m) := by
  show ((.ok (m.device.slots.busy m.device.bound), { m with device :=
    { m.device with slots := m.device.slots.awaitAll m.device.bound c } }) : Except Halt Nat × _) = _
  rw [hm, SlotTable.awaitAll_zero]
  rfl

section Kernel

variable [Kernel κ]

/-- Where no slot is bound, a release ends at once. -/
theorem release_ok {x : Nat} {m m' : Machine κ} {a : Account} (hm : m.Calm)
    (hx : m.storage.accounts[x]? = some a) (hrefs : a.refs = 1)
    (he : (Buffer.unreference x).exec m = (.ok (), m')) :
    ∃ m₁, m₁.device = m.device ∧ m₁.storage = { m.storage with
        accounts := m.storage.accounts.modify x fun a => { a with refs := a.refs - 1, usage := [] } } ∧
      (Allocator.finish x).exec m₁ = (.ok (), m') := by
  unfold Buffer.unreference at he
  obtain ⟨_, m₁, h₁, he⟩ := bind_ok he
  have hlower : Edits x (fun a => { a with refs := a.refs - 1 }) m m₁ :=
    .of_modifyBuffer h₁ fun _ => rfl
  obtain ⟨b, hb, he⟩ := bind_buffer_ok he
  obtain ⟨a', ha', hab⟩ := exists_account_of_modify hlower hb
  have hsame : some a = some a' := hx.symm.trans ha'
  cases hsame
  have hzero : b.refs = 0 := by
    have : b.refs = a.refs - 1 := congrArg Account.refs hab
    rw [this, hrefs]
    rfl
  rw [if_neg (by rw [hzero]; decide), if_pos hzero] at he
  unfold Buffer.beginRelease at he
  obtain ⟨_, -, he⟩ := bind_buffer_ok he
  obtain ⟨_, m₂, h₂, he⟩ := bind_ok he
  obtain ⟨_, m₃, h₃, he⟩ := bind_ok he
  have hclear : Edits x (fun a => { a with usage := [] }) m₂ m₃ := .of_modifyBuffer h₃ fun _ => rfl
  have hedit := (hlower.quiet ((quiet_writeHandle _ _).ok h₂)).trans hclear
  have hdevice : m₃.device = m.device :=
    ((keeps_modifyBuffer (R := SameDevice) x _).ok h₃).trans
      (((keeps_writeHandle (R := SameDevice) _ _).ok h₂).trans
        ((keeps_modifyBuffer (R := SameDevice) x _).ok h₁))
  -- no slot is bound, so none is busy
  have hbound : m₃.device.bound = 0 := by
    rw [hdevice]
    exact hm.bound
  rw [exec_bind_of_ok (exec_callbackAll_of_bound hbound (.release x))] at he
  obtain ⟨_, m₄, h₄, he⟩ := bind_ok he
  have hcount : Edits x id m₃ m₄ := .of_modifyBuffer h₄ fun b => by
    rw [Buffer.account, Buffer.account]
    simp
  rw [if_pos rfl] at he
  obtain ⟨_, -, he⟩ := bind_buffer_ok he
  obtain ⟨_, m₅, h₅, he⟩ := bind_ok he
  refine ⟨m₅, ?_, ((hedit.trans hcount).quiet ((quiet_writeHandle _ _).ok h₅)).storage, he⟩
  exact ((keeps_writeHandle (R := SameDevice) _ _).ok h₅).trans
    (((keeps_modifyBuffer (R := SameDevice) x _).ok h₄).trans hdevice)

omit [Kernel κ] in
/-- Once the last reference to a buffer that nothing in flight uses is gone, it is held. -/
theorem guards_lastReference {x : Nat} {m m₁ : Machine κ} {a : Account}
    (hx : m.storage.accounts[x]? = some a) (hrefs : a.refs = 1) (hd : m₁.device = m.device)
    (hstorage : m₁.storage = { m.storage with
      accounts := m.storage.accounts.modify x fun a => { a with refs := a.refs - 1, usage := [] } })
    (hidle : flightCount m.jobState.flights a.handle = 0) : Guards none (some x) m m₁ := by
  refine .of_device hd fun hg => ?_
  obtain ⟨hfreed, hcached, -⟩ := hg.placed.live hx (by rw [hrefs]; decide)
  have hzero : a.refs - 1 = 0 := by
    rw [hrefs]
    rfl
  rw [hstorage]
  refine ⟨hg.edit hx rfl rfl rfl rfl rfl (fun y hy he => absurd (Option.some.inj he).symm hy)
    (fun _ => hzero) (fun _ => ⟨hfreed, hcached⟩) (fun _ => hcached) (fun hc => absurd hcached hc)
    fun hne _ _ _ => absurd hidle hne, .of_modify hx rfl rfl fun hf hf' => ?_⟩
  rw [hf] at hf'
  cases hf'

/-- A release frees a buffer that may not be cached, whatever its use count. -/
theorem freed_of_release {x : Nat} {m m' : Machine κ} {a : Account} {b : Buffer} (hm : m.Calm)
    (hx : m.storage.accounts[x]? = some a) (hrefs : a.refs = 1)
    (he : (Buffer.unreference x).exec m = (.ok (), m')) (hget : m.allocator.buffers[x]? = some b)
    (hmay : m.allocator.mayCache b = false) : m'.Freed x := by
  obtain ⟨m₁, -, hstorage, hfinish⟩ := release_ok hm hx hrefs he
  obtain ⟨b', hget', hfinish⟩ := finish_ok hfinish
  have hshared : b'.has BufferFlag.shared = b.has BufferFlag.shared := by
    have hb' := Machine.accounts_of_buffer hget'
    rw [hstorage, getElem?_modify_of_some (Machine.accounts_of_buffer hget), if_pos rfl] at hb'
    exact (congrArg Account.shared (Option.some.inj hb')).symm
  have hoptions : m₁.allocator.options = m.allocator.options := congrArg Storage.options hstorage
  have hmay' : m₁.allocator.mayCache b' = false := by
    rw [Allocator.mayCache, hshared, hoptions]
    exact hmay
  have hfree := (hfinish.resolve_left fun h => Bool.false_ne_true (hmay'.symm.trans h.1)).2
  obtain ⟨b'', hget'', -, -, hstorage'⟩ := free_ok hfree
  obtain ⟨c, hc, hcb⟩ := Machine.exists_buffer (m := m') (x := x)
    (a := { b''.account with usage := [], freed := true }) (by
      rw [hstorage', getElem?_modify_of_some (Machine.accounts_of_buffer hget''), if_pos rfl])
  exact ⟨c, hc, congrArg Account.freed hcb⟩

/-! ## Steps -/

/-- One step of a call on a job manager device.  An atom lists the handles of buffers that its batch
holds references to. -/
inductive BufferStep : Config κ → Action → Config κ → Prop
  | beside {m m' : Machine κ} {held : Option Nat} (h : Beside m m') :
    BufferStep ⟨m, [], held⟩ .other ⟨m', [], held⟩
  | importFile {m m' : Machine κ} {fd : Int} {handle : Nat}
    (he : (Device.importFile fd).exec m = (.ok handle, m')) :
    BufferStep ⟨m, [], none⟩ .other ⟨m', [], none⟩
  | reference {m m' : Machine κ} {x : Nat} (he : (Buffer.reference x).exec m = (.ok (), m')) :
    BufferStep ⟨m, [], none⟩ .other ⟨m', [], none⟩
  | revive {m m' : Machine κ} {x handle : Nat} {fd : Int}
    (hlookup : m.allocator.lookup? handle = some x) (howns : m.Owns handle fd) (hfd : 0 ≤ fd)
    (he : (Allocator.revive x).exec m = (.ok (), m')) : BufferStep ⟨m, [], none⟩ .other ⟨m', [], none⟩
  | unreference {m m' : Machine κ} {x : Nat} {a : Account}
    (ha : m.storage.accounts[x]? = some a) (hrefs : a.refs ≠ 1)
    (he : (Buffer.unreference x).exec m = (.ok (), m')) :
    BufferStep ⟨m, [], none⟩ .other ⟨m', [], none⟩
  | release {m m' : Machine κ} {x : Nat} {a : Account}
    (ha : m.storage.accounts[x]? = some a) (hrefs : a.refs = 1)
    (he : (Buffer.unreference x).exec m = (.ok (), m')) :
    BufferStep ⟨m, [], none⟩ (.release x) ⟨m', [], none⟩
  /-- An imported file becomes a buffer under a handle that stands for none. -/
  | enter {m m' : Machine κ} {b : Buffer} {x : Nat} {fd : Int}
    (hfree : m.allocator.lookup? b.handle = none) (howns : m.Owns b.handle fd)
    (hshared : b.has BufferFlag.shared = true) (hcached : b.cachedIn = none) (hfreed : b.freed = false)
    (he : (Allocator.addBuffer b).exec m = (.ok x, m')) : BufferStep ⟨m, [], none⟩ .other ⟨m', [], none⟩
  /-- An import is given up, and its handle goes. -/
  | abandon {m m' : Machine κ} {handle : Nat} (hfree : m.allocator.lookup? handle = none)
    (he : (Device.freeHandle handle).exec m = (.ok (), m')) :
    BufferStep ⟨m, [], none⟩ .other ⟨m', [], none⟩
  | reuse {m m' : Machine κ} {x : Nat} {label : String}
    (he : (Allocator.reuse x label).exec m = (.ok (), m')) :
    BufferStep ⟨m, [], none⟩ .other ⟨m', [], some x⟩
  | wrap {m m' : Machine κ} {region : Region} {size : Int64} {flags : UInt32} {label : String} {x : Nat}
    (he : (Allocator.wrapRegion region size flags label).exec m = (.ok x, m')) :
    BufferStep ⟨m, [], none⟩ .other ⟨m', [], some x⟩
  | handOut {m m' : Machine κ} {x : Nat} (he : (Allocator.handOut x).exec m = (.ok (), m')) :
    BufferStep ⟨m, [], some x⟩ .other ⟨m', [], none⟩
  | evictStale {m m' : Machine κ} (he : Allocator.evictOld.exec m = (.ok (), m')) :
    BufferStep ⟨m, [], none⟩ .other ⟨m', [], none⟩
  | evictAll {m m' : Machine κ} {indices : List Nat}
    (he : (Allocator.evictBuckets indices).exec m = (.ok (), m')) :
    BufferStep ⟨m, [], none⟩ .other ⟨m', [], none⟩
  | submit {m m' : Machine κ} {va : UInt64} {requirements : UInt32} {o : Option Nat}
    {handles : List Int} {r : Except Halt UInt8}
    (hlive : ∀ i ∈ handles, ∃ (x : Nat) (a : Account), m.storage.accounts[x]? = some a ∧
      (a.handle : Int) = i ∧ a.refs ≠ 0)
    (he : (Device.submitJob va requirements o handles).exec m = (r, m')) (hr : Survives r) :
    BufferStep ⟨m, [], none⟩ .other ⟨m', [], none⟩
  | event {m m' : Machine κ} {held : Option Nat} {e : JobEvent} {fine : Bool}
    (he : (Device.handleJobEvent e).exec m = (.ok fine, m')) :
    BufferStep ⟨m, [], held⟩ .other ⟨m', [], held⟩

omit [Kernel κ] in
/-- An atom takes off with handles of buffers that have references. -/
theorem Guarded.accept {s : JobState} (h : Guarded s none) {n : UInt8} {slot : JobSlot}
    {handles : List Int} {marked : HandleTable.Marked} (hlookup : s.flights.lookup n = none)
    (hmarked : s.table.markUsed handles slot n = .ok marked)
    (hlive : ∀ i ∈ handles, ∃ (x : Nat) (a : Account), s.storage.accounts[x]? = some a ∧
      (a.handle : Int) = i ∧ a.refs ≠ 0) :
    Guarded (s.submit marked.table (s.flights ++ [(n, handles)])) none := by
  refine ⟨?_, h.balanced.accept hlookup hmarked, fun k hk => ?_⟩
  · exact h.placed.mono fun _ _ => (HandleTable.owns_map_iff (HandleTable.markAll_ok hmarked).2.1
      fun k e => e.mark_fd slot n _).mpr
  · by_cases hold : flightCount s.flights k = 0
    · have hcount : flightCount (s.flights ++ [(n, handles)]) k ≠ 0 := hk
      rw [flightCount_append_singleton, hold, Nat.zero_add, ← Nat.pos_iff_ne_zero,
        List.count_pos_iff] at hcount
      obtain ⟨x, a, hx, hhandle, hrefs⟩ := hlive _ hcount
      obtain ⟨hfreed, hcached, hheld⟩ := h.placed.live hx hrefs
      exact ⟨x, a, hx, Int.ofNat_inj.mp hhandle, hfreed, hcached, hheld⟩
    · exact h.inUse k hold

omit [Kernel κ] in
/-- An atom that is refused gives its handles back. -/
theorem Guarded.refuse {s : JobState} (h : Guarded s none) {n : UInt8} {slot : JobSlot}
    {handles : List Int} {marked : HandleTable.Marked} (hlookup : s.flights.lookup n = none)
    (hmarked : s.table.markUsed handles slot n = .ok marked) {t : HandleTable}
    (ht : marked.table.release handles = .ok t) : Guarded (s.submit t s.flights) none := by
  obtain ⟨t', hrelease, hbalanced, hentries⟩ := h.balanced.refuse hlookup hmarked
  rw [hrelease] at ht
  cases ht
  refine ⟨?_, hbalanced, h.inUse⟩
  exact h.placed.mono fun _ _ => (HandleTable.owns_map_iff hentries fun k e => by
    rw [Handle.unmark_fd, Handle.mark_fd]).mpr

omit [Kernel κ] in
/-- An atom is done with its handles. -/
theorem Guarded.retire {s : JobState} {held : Option Nat} (h : Guarded s held) {atom : UInt8}
    {t : HandleTable} (ht : s.table.release (s.handles atom) = .ok t) :
    Guarded (s.retire atom t) held := by
  obtain ⟨t', hrelease, hbalanced, hentries⟩ := h.balanced.retire atom
  rw [JobState.handles, hrelease] at ht
  cases ht
  refine ⟨?_, hbalanced, fun k hk => h.inUse k fun hzero => hk ?_⟩
  · exact h.placed.mono fun _ _ => (HandleTable.owns_map_iff hentries fun k e => e.unmark_fd _).mpr
  · have := flightCount_filter (n := atom) h.balanced.numbers k
    show flightCount (s.flights.filter (·.1 ≠ atom)) k = 0
    omega

omit [Kernel κ] in
theorem Machine.Calm.of_jobState {m m' : Machine κ} (h : m.Calm) (hlinks : m'.NoLinks)
    (hgeneration : m'.jobState.generation = m.jobState.generation)
    (hbound : m'.jobState.bound = m.jobState.bound) : m'.Calm :=
  ⟨fun e => h.generation (hgeneration.symm.trans e), hbound.trans h.bound, hlinks⟩

/-- What a step does.  A release keeps what is in use only if its buffer is not in use itself. -/
theorem BufferStep.guards {c c' : Config κ} {a : Action} (h : BufferStep c a c')
    (hm : c.machine.Calm) : c'.machine.Calm ∧
      ((∀ x, a = .release x → ¬c.machine.Uses x) → Guarded c.machine.jobState c.held →
        Guarded c'.machine.jobState c'.held ∧
          Spares c.machine.jobState.flights c.machine.storage c'.machine.storage) := by
  have hguards {held held' : Option Nat} {m m' : Machine κ} (h : Guards held held' m m')
      (hm : m.Calm) {P : Prop} : m'.Calm ∧ (P → Guarded m.jobState held →
        Guarded m'.jobState held' ∧ Spares m.jobState.flights m.storage m'.storage) :=
    ⟨(h hm).1, fun _ => (h hm).2.2⟩
  -- atoms take off and land, and no buffer changes
  have hflights {held : Option Nat} {m m' : Machine κ} {t : HandleTable}
      {fs : List (UInt8 × List Int)} {n : UInt8} (hm : m.Calm) (hlinks : m'.NoLinks)
      (hstate : m'.jobState = { m.jobState with table := t, flights := fs, next := n })
      (hg : Guarded m.jobState held → Guarded { m.jobState with table := t, flights := fs, next := n } held)
      {P : Prop} : m'.Calm ∧ (P → Guarded m.jobState held →
        Guarded m'.jobState held ∧ Spares m.jobState.flights m.storage m'.storage) := by
    have hstorage : m'.storage = m.storage := congrArg JobState.storage hstate
    refine ⟨hm.of_jobState hlinks (by rw [hstate]) (by rw [hstate]), fun _ h => ?_⟩
    rw [hstate, hstorage]
    exact ⟨hg h, .refl _ _⟩
  cases h with
  | beside h => exact hguards (.of_beside h) hm
  | importFile he => exact hguards ((guards_importFile _).ok he) hm
  | reference he => exact hguards (guards_reference he) hm
  | revive hlookup howns hfd he => exact hguards (guards_revive he hlookup howns hfd) hm
  | unreference ha hrefs he => exact hguards (guards_unreference ha hrefs he) hm
  | @release m m' x a ha hrefs he =>
    obtain ⟨m₁, hd, hstorage, hfinish⟩ := release_ok hm ha hrefs he
    have hm₁ : m₁.Calm := hm.of_progress (by rw [Machine.progress, hd, Machine.progress])
    refine ⟨(guards_finish hfinish hm₁).1, fun hidle hg => ?_⟩
    have hzero : flightCount m.jobState.flights a.handle = 0 := by
      by_contra hne
      exact hidle x rfl ((Machine.uses_iff hg.balanced ha).mpr hne)
    exact (((guards_lastReference ha hrefs hd hstorage hzero).trans (guards_finish hfinish)) hm).2.2 hg
  | enter hfree howns hshared hcached hfreed he =>
    exact hguards (guards_addBuffer he hfree howns hshared hcached hfreed) hm
  | abandon hfree he => exact hguards (guards_freeHandle hfree he) hm
  | reuse he => exact hguards (guards_reuse he) hm
  | wrap he => exact hguards (guards_wrapRegion he) hm
  | handOut he => exact hguards (guards_handOut he) hm
  | evictStale he => exact hguards ((keeps_evictOld guards_evict).ok he) hm
  | evictAll he => exact hguards ((keeps_evictBuckets guards_evict _).ok he) hm
  | submit hlive he hr =>
    obtain ⟨marked, hlookup, hmarked, hlinks, ⟨-, hstate, -⟩ | ⟨f, t, -, ht, hstate⟩⟩ :=
      submitJob_cases hm.links he hr
    · exact hflights hm hlinks hstate fun hg => hg.accept hlookup hmarked hlive
    · exact hflights hm hlinks hstate fun hg => hg.refuse hlookup hmarked ht
  | event he =>
    obtain ⟨t, ht, hlinks, hstate⟩ := handleJobEvent_ok hm.links he
    exact hflights hm hlinks hstate fun hg => hg.retire ht

/-! ## Runs -/

/-- A job manager device without handles or atoms, and an allocator without buffers. -/
structure Untouched (m : Machine κ) : Prop where
  calm : m.Calm
  table : m.jobState.table = {}
  flights : m.jobState.flights = []
  accounts : m.storage.accounts = []
  arena : m.storage.arena = []

omit [Kernel κ] in
theorem Untouched.guarded {m : Machine κ} (h : Untouched m) : Guarded m.jobState none := by
  have hnone {x : Nat} {a : Account} : m.storage.accounts[x]? ≠ some a := by
    rw [h.accounts, List.getElem?_nil]
    exact nofun
  refine ⟨⟨fun _ _ hx => absurd hx hnone, nofun, fun _ _ hx => absurd hx hnone, fun k x => ?_,
    fun _ _ hx => absurd hx hnone, fun _ _ hx => absurd hx hnone⟩, ?_, fun k hk => ?_⟩
  · have harena : m.jobState.storage.arena = [] := h.arena
    rw [harena, List.lookup_nil]
    exact ⟨nofun, fun ⟨_, hx, _⟩ => absurd hx hnone⟩
  · rw [h.table, h.flights]
    exact .empty
  · rw [h.flights] at hk
    exact absurd rfl hk

/-- Steps one after the other, with a record of the configuration before each and its action, newest
first. -/
inductive BufferRun (m₀ : Machine κ) : List (Config κ × Action) → Config κ → Prop
  | start : BufferRun m₀ [] ⟨m₀, [], none⟩
  | step {es : List (Config κ × Action)} {c c' : Config κ} {a : Action} (hr : BufferRun m₀ es c)
    (hs : BufferStep c a c') : BufferRun m₀ ((c, a) :: es) c'

namespace BufferRun

variable {m₀ : Machine κ} {es : List (Config κ × Action)} {c c' : Config κ}

theorem calm (hr : BufferRun m₀ es c) (h₀ : Untouched m₀) : c.machine.Calm := by
  induction hr with
  | start => exact h₀.calm
  | step _ hs ih => exact (hs.guards ih).1

/-- What atoms in flight use stays where it is, as long as nothing is released that they use. -/
theorem guarded (hr : BufferRun m₀ es c) (h₀ : Untouched m₀)
    (hidle : ∀ e ∈ es, ∀ x, e.2 = .release x → ¬e.1.machine.Uses x) :
    Guarded c.machine.jobState c.held := by
  induction hr with
  | start => exact h₀.guarded
  | @step es c c' a hr hs ih =>
    have hg := ih fun e he => hidle e (List.mem_cons_of_mem _ he)
    exact ((hs.guards (hr.calm h₀)).2 (hidle (c, a) List.mem_cons_self) hg).1

/-- A release frees a buffer that may not be cached, whatever its use count.  Apart from that, if no
buffer was released while its handle was in use, no step frees a buffer while its handle is in use, and
events can be handled afterwards. -/
theorem frees_unused {a : Action} (h₀ : Untouched m₀) (hr : BufferRun m₀ es c)
    (hs : BufferStep c a c') :
    (∀ x b, a = .release x → c.machine.allocator.buffers[x]? = some b →
      c.machine.allocator.mayCache b = false → c'.machine.Freed x) ∧
    ((∀ e ∈ (c, a) :: es, ∀ x, e.2 = .release x → ¬e.1.machine.Uses x) →
      (∀ x, c'.machine.Freed x → ¬c.machine.Freed x → ¬c.machine.Uses x) ∧
        ∃ fine m', Device.handleEvents.exec c'.machine = (.ok fine, m')) := by
  have hcalm := hr.calm h₀
  constructor
  · rintro x b rfl hget hmay
    cases hs with
    | release ha hrefs he => exact freed_of_release hcalm ha hrefs he hget hmay
  · intro hidle
    have hg := hr.guarded h₀ fun e he => hidle e (List.mem_cons_of_mem _ he)
    obtain ⟨hcalm', hstep⟩ := hs.guards hcalm
    obtain ⟨hg', hspares⟩ := hstep (hidle (c, a) List.mem_cons_self) hg
    constructor
    · rintro x ⟨b', hget', hfreed'⟩ hlive ⟨b, hget, huse⟩
      have hx := Machine.accounts_of_buffer hget
      have hfreed : b.account.freed = false := by
        by_contra hf
        exact hlive ⟨b, hget, Bool.not_eq_false _ ▸ hf⟩
      obtain ⟨a', hx', -, hunused⟩ := hspares x b.account hx
      rw [Machine.accounts_of_buffer hget'] at hx'
      cases hx'
      exact (Machine.uses_iff hg.balanced hx).mp ⟨b, hget, huse⟩ (hunused hfreed hfreed')
    · exact exec_handleEvents hcalm'.generation hcalm'.links hg'.balanced

end BufferRun

end Kernel

namespace BufferSample

-- a table of 256 slots is evaluated
set_option maxRecDepth 20000

/-- A job manager device, with an allocator that caches nothing. -/
def start : Machine Bench where
  kernel := { model := .scripted { generation := .jm } }
  device := { generation := .jm }
  allocator := { started := true, options := { noCache := true }, cache := .empty 1 }

theorem untouched_start : Untouched start := by
  refine ⟨⟨nofun, rfl, fun i => ?_⟩, rfl, rfl, rfl, rfl⟩
  show (SlotTable.entry (Vector.replicate slotCount {}) i).links = []
  rw [SlotTable.entry_replicate]

/-- A region became a buffer. -/
def wrapped : Machine Bench :=
  ((Allocator.wrapRegion ⟨⟨0, 0⟩, 0⟩ 4096 0 "sample").exec start).2

/-- The buffer was handed out. -/
def live : Machine Bench := ((Allocator.handOut 0).exec wrapped).2

/-- An atom uses it. -/
def busy : Machine Bench := ((Device.submitJob 0x2000 0 none [0]).exec live).2

/-- Its only reference went. -/
def released : Machine Bench := ((Buffer.unreference 0).exec busy).2

/-- The account of the buffer while it is referenced. -/
def account : Account := { handle := 0, refs := 1 }

theorem run_live : BufferRun start [(⟨wrapped, [], some 0⟩, .other), (⟨start, [], none⟩, .other)]
    ⟨live, [], none⟩ := by
  have hwrap : BufferStep ⟨start, [], none⟩ .other ⟨wrapped, [], some 0⟩ :=
    .wrap (exec_of_value (a := 0) (by decide))
  have hhand : BufferStep ⟨wrapped, [], some 0⟩ .other ⟨live, [], none⟩ :=
    .handOut (exec_of_value (a := ()) (by decide))
  exact (BufferRun.start.step hwrap).step hhand

theorem step_busy : BufferStep ⟨live, [], none⟩ .other ⟨busy, [], none⟩ := by
  have hsubmit : (Device.submitJob 0x2000 0 none [0]).exec live = (.ok 0, busy) :=
    exec_of_value (by decide +kernel)
  refine .submit (fun i hi => ?_) hsubmit (survives_ok _)
  obtain rfl := List.mem_singleton.mp hi
  exact ⟨0, account, by decide, rfl, by decide⟩

theorem step_released : BufferStep ⟨busy, [], none⟩ (.release 0) ⟨released, [], none⟩ :=
  .release (a := account) (by decide +kernel) rfl (exec_of_value (a := ()) (by decide +kernel))

/-- The only reference to the buffer went before an atom used it. -/
def idle : Machine Bench := ((Buffer.unreference 0).exec live).2

theorem step_idle : BufferStep ⟨live, [], none⟩ (.release 0) ⟨idle, [], none⟩ :=
  .release (a := account) (by decide) rfl (exec_of_value (a := ()) (by decide))

theorem not_uses_live : ¬live.Uses 0 := by
  have hcount : live.allocator.buffers[0]?.map
      (fun b => (live.device.handles.get b.handle).useCount) = some 0 := by decide
  rintro ⟨b, hget, huse⟩
  rw [hget, Option.map_some] at hcount
  exact huse (Option.some.inj hcount)

/-- The buffer may not be cached, and its use count is one. -/
theorem buffer_busy : ∃ b, busy.allocator.buffers[0]? = some b ∧ busy.allocator.mayCache b = false ∧
    (busy.device.handles.get b.handle).useCount = 1 := by
  have hbuffer : busy.allocator.buffers[0]?.map
      (fun b => (busy.allocator.mayCache b, (busy.device.handles.get b.handle).useCount)) =
        some (false, 1) := by decide +kernel
  obtain ⟨b, hget, hpair⟩ := Option.map_eq_some_iff.mp hbuffer
  exact ⟨b, hget, congrArg Prod.fst hpair, congrArg Prod.snd hpair⟩

end BufferSample

/-- Without a cache, a buffer is freed although an atom in flight uses it.  If it is released before the
atom is submitted, events can be handled. -/
theorem freed_in_use_sample : (BufferSample.busy.Uses 0 ∧ BufferSample.released.Freed 0) ∧
    ∃ fine m', Device.handleEvents.exec BufferSample.idle = (.ok fine, m') := by
  constructor
  · obtain ⟨b, hget, hmay, hcount⟩ := BufferSample.buffer_busy
    obtain ⟨hfrees, -⟩ := BufferRun.frees_unused BufferSample.untouched_start
      (BufferSample.run_live.step BufferSample.step_busy) BufferSample.step_released
    exact ⟨⟨b, hget, by rw [hcount]; decide⟩, hfrees 0 b rfl hget hmay⟩
  · obtain ⟨-, hsafe⟩ := BufferRun.frees_unused BufferSample.untouched_start BufferSample.run_live
      BufferSample.step_idle
    refine (hsafe fun e he x hx => ?_).2
    rcases List.mem_cons.mp he with rfl | he
    · cases hx
      exact BufferSample.not_uses_live
    · rcases List.mem_pair.mp he with rfl | rfl
      · cases hx
      · cases hx

end Mali
