import Mali.Proofs.CacheRuns
import Mali.Proofs.Ladder
import Mali.Proofs.Stock

/-!
# What a search for a buffer passes by

While a buffer is looked for, callbacks run, cached buffers are freed and cached buffers are waited for.  None of
this concerns a buffer that somebody holds, except that a callback may have come for a release that was called off:
such a callback counts, and does nothing else.

* `Buffer.outline`: what stays with a buffer until it is handed out again.
* `Bypasses`: buffers keep their outlines, no handle comes to stand for one, and those in use are left alone, as are
  the options.
* `bypasses_evict`, `bypasses_runCallback`, `bypasses_makeRoom` and the like: what does so.
* `fetchFrom_ok`, `allocate_fault`: the rungs of the ladder.
-/

namespace Mali

open Op

/-- What stays with a buffer until it is handed out again. -/
def Buffer.outline (b : Buffer) : UInt64 × Int64 × UInt32 × Nat × Int32 := (b.gpu, b.size, b.flags, b.handle, b.refs)

variable {κ : Type}

/-- Buffers keep their outlines, and no handle comes to stand for one.  Those that have references and are not cached
keep everything but the count of what they wait for, unless an exception is made for one. -/
structure Bypasses (o : Option Nat) (m m' : Machine κ) : Prop where
  options : m'.allocator.options = m.allocator.options
  outlines : m'.allocator.buffers.map Buffer.outline = m.allocator.buffers.map Buffer.outline
  arena : ∀ h x : Nat, m'.allocator.lookup? h = some x → m.allocator.lookup? h = some x
  inUse : ∀ (x : Nat) (b : Buffer), m.allocator.buffers[x]? = some b → some x ≠ o → b.refs ≠ 0 → b.cachedIn = none →
    ∃ n, m'.allocator.buffers[x]? = some { b with gpuRefs := n }

namespace Bypasses

variable {o : Option Nat} {m m₁ m' : Machine κ}

theorem of_same (hb : m'.allocator.buffers = m.allocator.buffers) (ha : m'.allocator.arena = m.allocator.arena)
    (ho : m'.allocator.options = m.allocator.options) : Bypasses o m m' where
  options := ho
  outlines := by rw [hb]
  arena h x hx := by rwa [Allocator.lookup?, ← ha]
  inUse x b hx _ _ _ := ⟨b.gpuRefs, by rw [hb, hx]⟩

theorem trans (h : Bypasses o m m₁) (h' : Bypasses o m₁ m') : Bypasses o m m' where
  options := h'.options.trans h.options
  outlines := h'.outlines.trans h.outlines
  arena k x hx := h.arena k x (h'.arena k x hx)
  inUse x b hx ho hrefs hcached := by
    obtain ⟨n, hn⟩ := h.inUse x b hx ho hrefs hcached
    obtain ⟨n', hn'⟩ := h'.inUse x _ hn ho hrefs hcached
    exact ⟨n', hn'⟩

instance : OfAllocator (Bypasses (κ := κ) o) where
  refl _ := of_same rfl rfl rfl
  trans := trans
  of_allocator ha := of_same (by rw [ha]) (by rw [ha]) (by rw [ha])

/-- An exception may be made without need. -/
theorem weaken (h : Bypasses none m m') : Bypasses o m m' :=
  ⟨h.options, h.outlines, h.arena, fun x b hx _ => h.inUse x b hx nofun⟩

/-- An exception for a buffer that is cached, or has no references, is none. -/
theorem strengthen {x : Nat} {b : Buffer} (h : Bypasses (some x) m m') (hx : m.allocator.buffers[x]? = some b)
    (hb : b.refs = 0 ∨ b.cachedIn ≠ none) : Bypasses none m m' := by
  refine ⟨h.options, h.outlines, h.arena, fun y c hy _ hrefs hcached => h.inUse y c hy (fun heq => ?_) hrefs hcached⟩
  cases heq
  rw [hx] at hy
  cases hy
  exact hb.elim hrefs fun hne => hne hcached

/-- What is made of a buffer has its outline. -/
theorem outline {x : Nat} {b : Buffer} (h : Bypasses o m m') (hx : m.allocator.buffers[x]? = some b) :
    ∃ b', m'.allocator.buffers[x]? = some b' ∧ b'.outline = b.outline := by
  have hget := congrArg (·[x]?) h.outlines
  simp only [List.getElem?_map, hx, Option.map_some] at hget
  exact Option.map_eq_some_iff.mp hget

theorem length_buffers (h : Bypasses o m m') : m'.allocator.buffers.length = m.allocator.buffers.length := by
  simpa using congrArg List.length h.outlines

/-- A buffer that an exception is made for changes. -/
theorem of_modify {x : Nat} {f : Buffer → Buffer} (hf : ∀ b, (f b).outline = b.outline)
    (hb : m'.allocator.buffers = m.allocator.buffers.modify x f) (ha : m'.allocator.arena = m.allocator.arena)
    (hoptions : m'.allocator.options = m.allocator.options) : Bypasses (some x) m m' where
  options := hoptions
  outlines := by rw [hb, map_modify_eq _ hf]
  arena h y hy := by rwa [Allocator.lookup?, ← ha]
  inUse y b hy ho _ _ := by
    refine ⟨b.gpuRefs, ?_⟩
    rw [hb, List.getElem?_modify, hy]
    show some (if x = y then f b else b) = some b
    rw [if_neg fun e => ho (by rw [e])]

/-- A buffer waits for more or less. -/
theorem of_count {x : Nat} {g : Buffer → Int32}
    (hb : m'.allocator.buffers = m.allocator.buffers.modify x fun b => { b with gpuRefs := g b })
    (ha : m'.allocator.arena = m.allocator.arena) (hoptions : m'.allocator.options = m.allocator.options) :
    Bypasses o m m' where
  options := hoptions
  outlines := by
    rw [hb]
    exact map_modify_eq Buffer.outline (f := fun b => { b with gpuRefs := g b }) (fun _ => rfl) _ _
  arena h y hy := by rwa [Allocator.lookup?, ← ha]
  inUse y b hy _ _ _ := by
    refine ⟨if x = y then g b else b.gpuRefs, ?_⟩
    rw [hb, List.getElem?_modify, hy]
    show some (if x = y then { b with gpuRefs := g b } else b) = _
    split <;> rfl

end Bypasses

/-! ## Releases -/

variable {o : Option Nat}

theorem bypasses_modifyAllocator {f : Allocator → Allocator}
    (hf : ∀ a, ((f a).buffers, (f a).arena, (f a).options) = (a.buffers, a.arena, a.options)) :
    Keeps (Bypasses (κ := κ) o) (modifyAllocator f) :=
  keeps_modify fun m => .of_same (congrArg (·.1) (hf m.allocator)) (congrArg (·.2.1) (hf m.allocator))
    (congrArg (·.2.2) (hf m.allocator))

theorem bypasses_modifyBuffer (x : Nat) {f : Buffer → Buffer} (hf : ∀ b, (f b).outline = b.outline) :
    Keeps (Bypasses (κ := κ) (some x)) (modifyBuffer x f) := keeps_modify fun _ => .of_modify hf rfl rfl rfl

/-- A handle comes to stand for nothing. -/
theorem bypasses_forget (handle : Nat) : Keeps (Bypasses (κ := κ) o) (modifyAllocator (·.forget handle)) := by
  refine keeps_modify fun m => ⟨rfl, rfl, fun h x hx => ?_, fun x b hx _ _ _ => ⟨b.gpuRefs, hx⟩⟩
  have hx : (m.allocator.arena.filter fun e => e.1 ≠ handle).lookup h = some x := hx
  rw [lookup_filter_ne] at hx
  split at hx
  · cases hx
  · exact hx

theorem bypasses_write (name : String) (b : Buffer) (fd : Int) (imported : Option (Int × Bool)) :
    Keeps (Bypasses (κ := κ) o) (Allocator.write name b fd imported) :=
  keeps_write_of (fun _ => bypasses_modifyAllocator fun _ => rfl) name b fd imported

theorem bypasses_writeHandle (name : String) (b : Buffer) :
    Keeps (Bypasses (κ := κ) o) (Allocator.writeHandle name b) := keeps_writeHandle_of fun _ => bypasses_write _ _ _ _

section Kernel

variable [Kernel κ]

theorem bypasses_free (x : Nat) : Keeps (Bypasses (κ := κ) (some x)) (Allocator.free x) := by
  have hunmap : Keeps (Bypasses (κ := κ) (some x)) (Allocator.unmapBuffer x) :=
    keeps_unmapBuffer_of (bypasses_modifyBuffer x fun _ => rfl)
  unfold Allocator.free
  exact keeps_bind (keeps_buffer x) fun b => keeps_bind (bypasses_writeHandle _ b) fun _ => keeps_bind hunmap fun _ =>
    keeps_bind (keeps_freeBufferRegion x) fun _ => keeps_bind (bypasses_forget _) fun _ =>
    keeps_bind (keeps_freeHandle _) fun _ => keeps_bind (bypasses_modifyBuffer x fun _ => rfl) fun _ =>
    bypasses_modifyAllocator fun _ => rfl

/-- What is freed was cached. -/
theorem bypasses_evict (x : Nat) : Keeps (Bypasses (κ := κ) none) (Allocator.evict x) := by
  refine (faultless_evict x).keeps fun he => ?_
  unfold Allocator.evict Allocator.uncache at he
  rw [bind_assoc] at he
  obtain ⟨b, hx, he⟩ := bind_buffer_ok he
  rw [bind_assoc] at he
  obtain ⟨index, hindex, he⟩ := bind_require_ok he
  have hrest : Keeps (Bypasses (κ := κ) (some x)) (do
      modifyAllocator fun a => { a with cache := a.cache.remove index x }
      modifyBuffer x fun b => { b with cachedIn := none }
      modifyAllocator fun a => { a with evictions := a.evictions + 1 }
      Allocator.free x) :=
    keeps_bind (bypasses_modifyAllocator fun _ => rfl) fun _ =>
      keeps_bind (bypasses_modifyBuffer x fun _ => rfl) fun _ =>
      keeps_bind (bypasses_modifyAllocator fun _ => rfl) fun _ => bypasses_free x
  exact (hrest.ok he).strengthen hx (.inr (by rw [hindex]; exact nofun))

/-- A release ends for a buffer without references. -/
theorem bypasses_finish (x : Nat) : Keeps (Bypasses (κ := κ) (some x)) (Allocator.finish x) := by
  have henter : Keeps (Bypasses (κ := κ) (some x)) (Allocator.enterCache x) :=
    keeps_enterCache_of (fun _ => bypasses_modifyAllocator fun _ => rfl)
      fun _ _ _ => bypasses_modifyBuffer x fun _ => rfl
  have hold : Keeps (Bypasses (κ := κ) (some x)) Allocator.evictOld :=
    fun m hs => ((keeps_evictOld bypasses_evict) m hs).weaken
  exact keeps_finish_of henter hold (bypasses_modifyBuffer x fun _ => rfl) (keeps_markUnused x) (bypasses_free x)

/-! ## Callbacks -/

/-- A callback ends a release if the buffer has no references, and otherwise counts. -/
theorem bypasses_runCallback (c : Callback) : Keeps (Bypasses (κ := κ) none) (Device.runCallback c) := by
  cases c with
  | report id => exact keeps_reportCallback _
  | release x =>
    refine (faultless_runCallback _).keeps fun {m m'} _ he => ?_
    obtain ⟨_, m₁, hcount, he⟩ := bind_ok he
    obtain ⟨b, hx, he⟩ := bind_buffer_ok he
    have h₁ : Bypasses none m m₁ := by
      cases hcount
      exact .of_count rfl rfl rfl
    refine h₁.trans ?_
    split at he
    · rename_i hlast
      have hend : Keeps (Bypasses (κ := κ) (some x)) (do
          Allocator.writeHandle "gpufree" b
          Allocator.finish x) := keeps_bind (bypasses_writeHandle _ b) fun _ => bypasses_finish x
      exact (hend.ok he).strengthen hx (.inl hlast.2)
    · cases he
      exact Journey.refl (R := Bypasses none) _

/-! ## Waits -/

section Waits

variable {R : Machine κ → Machine κ → Prop}

/-- Of handling events, a relation that does not look at the slots sees the atoms that end and the callbacks that
run. -/
theorem keeps_handleEvents [Ticking R] [Asks R] (hretire : ∀ atom, Keeps R (Device.retireAtom atom))
    (hcallback : ∀ c, Keeps R (Device.runCallback c)) : Keeps R Device.handleEvents := by
  have hevent (e : JobEvent) : Keeps R (Device.handleJobEvent e) := by
    have hrest : Keeps R (do
        Device.retireAtom e.atom
        Device.advance e.atom.toNat (e.seqnum + 1)
        return (decide (e.code = JobEvent.done))) :=
      keeps_bind (hretire _) fun _ =>
        keeps_bind (keeps_bind (keeps_advanceSlot _ _) (keeps_runCallbacks_of hcallback)) fun _ => keeps_pure _
    unfold Device.handleJobEvent
    dsimp only
    split
    · exact keeps_bind (keeps_error _ _) fun _ => hrest
    · exact hrest
  have hevents (fuel : Nat) (fine : Bool) : Keeps R (Device.handleJobEvents fuel fine) := by
    induction fuel generalizing fine with
    | zero => exact keeps_pure fine
    | succ fuel ih =>
      unfold Device.handleJobEvents
      refine keeps_bind (keeps_readRecord _) fun r => ?_
      split
      · exact keeps_pure _
      · exact keeps_pure _
      · exact keeps_bind (hevent _) fun _ => ih _
  unfold Device.handleEvents
  refine keeps_bind keeps_device fun d => ?_
  split
  · unfold Device.handleStreamEvents
    refine keeps_bind keeps_readNotification fun fine => keeps_bind keeps_device fun d => ?_
    split
    · exact keeps_pure fine
    · exact keeps_bind (keeps_advanceFromRecords _) fun cs =>
        keeps_bind (keeps_runCallbacks_of hcallback cs) fun _ => keeps_pure fine
  · exact hevents _ _
  · exact hevents _ _

theorem polling_of_runCallback [Slotwise R] [Asks R] (hretire : ∀ atom, Keeps R (Device.retireAtom atom))
    (hcallback : ∀ c, Keeps R (Device.runCallback c)) : Polling (κ := κ) (Keeps R) where
  pure := keeps_pure
  bind := keeps_bind
  device := keeps_device
  now := keeps_now
  call := Asks.of_asking
  error := keeps_error
  modify f hf := keeps_modify fun m => by
    obtain ⟨_, _, _, _, hd⟩ := hf m.device
    exact Slotwise.of_slots rfl rfl rfl (by rw [hd]; rfl)
  handleEvents := keeps_handleEvents hretire hcallback

end Waits

theorem keeps_waitIdle {R : Machine κ → Machine κ → Prop} [Asks R] (hpolling : Polling (κ := κ) (Keeps R))
    (handle : Int) (timeout : Int) : Keeps R (Device.waitIdle handle timeout) := by
  refine keeps_bind (keeps_debug _ _) fun _ => keeps_bind (hpolling.waitUntil
    (keeps_bind keeps_device fun _ => keeps_pure _) timeout) fun r => ?_
  split
  · exact keeps_pure ()
  · exact keeps_fail _
  · exact keeps_fail _

/-- A wait for a buffer may find that nothing is pending on it, at least no access that writes. -/
theorem keeps_waitBuffer {R : Machine κ → Machine κ → Prop} [Asks R] (hpolling : Polling (κ := κ) (Keeps R)) {x : Nat}
    {readers : Bool} (hclear : Keeps R (modifyBuffer x fun b => { b with access := 0 }))
    (hsettle : Keeps R (modifyBuffer x (Buffer.settle readers))) (timeout : Int) :
    Keeps R (Buffer.wait x timeout readers) := by
  have hhandle : Keeps R (Buffer.waitHandle x timeout) := by
    unfold Buffer.waitHandle
    refine keeps_bind (keeps_buffer x) fun b => keeps_bind_except (keeps_attempt (keeps_waitIdle hpolling _ _))
      (fun _ => ?_) fun f => ?_
    · exact keeps_bind hclear fun _ => keeps_pure true
    · dsimp only
      split
      · exact keeps_bind (keeps_error _ _) fun _ => keeps_pure false
      · exact keeps_pure false
  have husage : Keeps R (Buffer.waitUsage x timeout readers) := by
    have hfinished : Keeps R (Buffer.usageFinished x readers) :=
      keeps_bind (keeps_buffer x) fun _ => keeps_bind keeps_device fun _ => keeps_pure _
    have hend (b : Buffer) (ready : Bool) : Keeps R (do
        if ready then modifyBuffer x (Buffer.settle readers)
        else warn "timed out waiting for buffer object" [("handle", toString b.handle), ("label", b.label)]
        return ready) := by
      split
      · exact keeps_bind hsettle fun _ => keeps_pure ready
      · exact keeps_bind (keeps_warn _ _) fun _ => keeps_pure ready
    unfold Buffer.waitUsage
    refine keeps_bind (hpolling.waitUntil (keeps_bind hfinished fun _ => keeps_pure _) timeout) fun r =>
      keeps_bind (keeps_buffer x) fun b => keeps_bind hfinished fun finished => ?_
    dsimp only
    split
    · exact keeps_bind (keeps_pollFdUntil _ _ _) fun ready => hend b ready
    · exact keeps_bind (keeps_pure _) fun ready => hend b ready
  unfold Buffer.wait
  refine keeps_bind (keeps_debug _ _) fun _ => keeps_bind (keeps_buffer x) fun b => ?_
  split
  · exact keeps_pure true
  · refine keeps_bind keeps_device fun d => ?_
    split
    · exact husage
    · exact hhandle

theorem keeps_isIdle {R : Machine κ → Machine κ → Prop} [Asks R] (hpolling : Polling (κ := κ) (Keeps R)) {x : Nat}
    (hclear : Keeps R (modifyBuffer x fun b => { b with access := 0 })) (patient : Bool) :
    Keeps R (Allocator.isIdle x patient) := by
  unfold Allocator.isIdle
  refine keeps_bind keeps_device fun d => ?_
  split
  · exact keeps_pure true
  · refine keeps_waitBuffer hpolling hclear ?_ _
    exact hclear

theorem bypasses_pause (duration : Nat) : Keeps (Bypasses (κ := κ) none) (Wait.pause duration) :=
  (polling_of_runCallback keeps_retireAtom bypasses_runCallback).pause duration

theorem bypasses_isIdle (x : Nat) (patient : Bool) :
    Keeps (Bypasses (κ := κ) (some x)) (Allocator.isIdle x patient) := by
  have hcallback (c : Callback) : Keeps (Bypasses (some x)) (Device.runCallback c : Op κ Unit) :=
    fun m hs => (bypasses_runCallback c m hs).weaken
  exact keeps_isIdle (polling_of_runCallback keeps_retireAtom hcallback) (bypasses_modifyBuffer x fun _ => rfl) patient

theorem bypasses_makeRoom : Keeps (Bypasses (κ := κ) none) Allocator.makeRoom :=
  keeps_bind ((polling_of_runCallback keeps_retireAtom bypasses_runCallback).pass) fun _ =>
    keeps_bind keeps_requireAllocator fun _ => keeps_bind (keeps_debug _ _) fun _ => keeps_bind keeps_allocator
    fun _ => keeps_evictBuckets bypasses_evict _

/-! ## The rungs -/

omit [Kernel κ] in
/-- A buffer that is used again was cached, and gets a new label. -/
theorem bypasses_reuse (x : Nat) (label : String) : Keeps (Bypasses (κ := κ) none) (Allocator.reuse x label) := by
  refine (faultless_reuse x label).keeps fun he => ?_
  unfold Allocator.reuse Allocator.uncache at he
  rw [bind_assoc] at he
  obtain ⟨b, hx, he⟩ := bind_buffer_ok he
  rw [bind_assoc] at he
  obtain ⟨index, hindex, he⟩ := bind_require_ok he
  have hend : Keeps (Bypasses (κ := κ) (some x)) (do
      modifyBuffer x fun b => { b with label }
      modifyAllocator fun a => { a with hits := a.hits + 1 }) :=
    keeps_bind (bypasses_modifyBuffer x fun _ => rfl) fun _ =>
      bypasses_modifyAllocator fun _ => rfl
  have hrest : Keeps (Bypasses (κ := κ) (some x)) (do
      modifyAllocator fun a => { a with cache := a.cache.remove index x }
      modifyBuffer x fun b => { b with cachedIn := none }
      Allocator.checkCache
      let m ← get
      let b ← buffer x
      if m.checked ∧ !(b.cpu.all m.memory.isMarked) then
        error "cached buffer object was written while unused"
          [("handle", toString b.handle), ("label", b.label)]
      modifyBuffer x fun b => { b with label }
      modifyAllocator fun a => { a with hits := a.hits + 1 }) := by
    refine keeps_bind (bypasses_modifyAllocator fun _ => rfl) fun _ =>
      keeps_bind (bypasses_modifyBuffer x fun _ => rfl) fun _ => keeps_bind (keeps_checkRule _) fun _ =>
      keeps_bind keeps_get fun m => keeps_bind (keeps_buffer x) fun b => ?_
    split
    · exact keeps_bind (keeps_error _ _) fun _ => hend
    · exact hend
  exact (hrest.ok he).strengthen hx (.inr (by rw [hindex]; exact nofun))

omit [Kernel κ] in
theorem cachedBuffer_ok {entry x : Nat} {m m' : Machine κ}
    (he : (Allocator.cachedBuffer entry).exec m = (.ok x, m')) : m.allocator.cached? entry = some x ∧ m' = m := by
  unfold Allocator.cachedBuffer at he
  rw [exec_bind_of_ok (exec_allocator m)] at he
  cases hx : m.allocator.cached? entry with
  | none =>
    rw [hx] at he
    cases he
  | some y =>
    rw [hx] at he
    cases he
    exact ⟨rfl, rfl⟩

/-- The search of a class ends with the first buffer that is large enough and has the flags: it is used again if it
is idle.  By induction on the buffers that are looked at. -/
theorem fetchFrom_ok {size : Int64} {flags : UInt32} {label : String} {patient : Bool} {entries : List Nat}
    {r : Option Nat} {m m' : Machine κ}
    (he : (Allocator.fetchFrom size flags label patient entries).exec m = (.ok r, m')) :
    (r = none ∧ m' = m) ∨ ∃ entry ∈ entries, ∃ x b, m.allocator.cached? entry = some x ∧
      m.allocator.buffers[x]? = some b ∧ size ≤ b.size ∧ b.flags = flags ∧
      ((r = none ∧ (Allocator.isIdle x patient).exec m = (.ok false, m')) ∨
        r = some x ∧ ∃ m₁, (Allocator.isIdle x patient).exec m = (.ok true, m₁) ∧
          (Allocator.reuse x label).exec m₁ = (.ok (), m')) := by
  induction entries with
  | nil =>
    cases he
    exact .inl ⟨rfl, rfl⟩
  | cons entry rest ih =>
    unfold Allocator.fetchFrom at he
    obtain ⟨x, m₁, hcached, he⟩ := bind_ok he
    obtain ⟨hcached, hsame⟩ := cachedBuffer_ok hcached
    rw [hsame] at he
    obtain ⟨b, hx, he⟩ := bind_buffer_ok he
    split at he
    · refine (ih he).imp_right ?_
      rintro ⟨e, hmem, hrest⟩
      exact ⟨e, List.mem_cons_of_mem _ hmem, hrest⟩
    · rename_i hfit
      rw [not_or, not_not] at hfit
      refine .inr ⟨entry, List.mem_cons_self, x, b, hcached, hx, Int64.not_lt.1 hfit.1, hfit.2, ?_⟩
      obtain ⟨idle, m₂, hidle, he⟩ := bind_ok he
      split at he
      · rename_i htrue
        rw [htrue] at hidle
        obtain ⟨_, m₃, hreuse, he⟩ := bind_ok he
        cases he
        exact .inr ⟨rfl, m₂, hidle, hreuse⟩
      · rename_i hfalse
        rw [Bool.not_eq_true] at hfalse
        rw [hfalse] at hidle
        cases he
        exact .inl ⟨rfl, hidle⟩

/-- A failed allocation changes nothing inside. -/
theorem allocate_fault {size : Int64} {flags : UInt32} {label : String} {m m' : Machine κ} {f : Fault}
    (he : (Allocator.allocate size flags label).exec m = (.error (.fault f), m')) : SameInside m m' := by
  obtain ⟨_, _, ⟨_, halloc, -⟩ | ⟨_, _, _, _, -, -, -, h⟩⟩ := allocate_survives he trivial
  · exact (keeps_alloc (R := SameInside) _ _ _ m).survives halloc trivial
  · cases h

omit [Kernel κ] in
/-- A new region becomes the last buffer. -/
theorem wrapRegion_buffer {region : Region} {size : Int64} {flags : UInt32} {label : String} {x : Nat}
    {m m' : Machine κ} (he : (Allocator.wrapRegion region size flags label).exec m = (.ok x, m')) :
    x = m.allocator.buffers.length ∧ ∃ b : Buffer, m'.allocator.buffers = m.allocator.buffers ++ [b] ∧
      b.size = size ∧ b.flags = flags ∧ b.label = label ∧ b.access = 0 ∧ b.gpu = region.gpu ∧
      b.cpu = some region.cpu := by
  unfold Allocator.wrapRegion at he
  rw [exec_bind_of_ok (exec_allocator m)] at he
  obtain ⟨h, m₁, halloc, he⟩ := bind_ok he
  obtain ⟨-, rfl⟩ := allocHandle_ok halloc
  cases he
  exact ⟨rfl, _, rfl, rfl, rfl, rfl, rfl, rfl, rfl⟩

end Kernel

end Mali
