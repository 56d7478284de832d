import Mali.Proofs.Submitters
import Mali.Proofs.Transfers

/-!
# What the operations of a program are made of

A relation between machines may go along with everything that a program asks of a device, its allocator and the
submission contexts on it.  Most operations are put together from few parts, so it is enough to know of these.  A
relation here also knows which buffer is still to be handed out afterwards, if there is one: an operation that finds
or makes a buffer ends before that.

Some relations go along only with what leaves certain streams, syncobjs and submission contexts alone, or makes no
context and binds no stream, or submits no batch.  A licence says what may be used and done.

* `Proceeding`: what has to be known of a relation that waits and the search for a buffer go along with.
* `Licence`: which streams, syncobjs and submission contexts may be used, and whether streams may be bound and batches
  submitted.
* `Streaming`: the same for contexts, streams, syncobjs and what runs on them.
* `Lending`: the same for references to buffers, and batches.
* `Operating`: the same for everything that can be asked for, submission contexts included.
* `Hands`: operations whose value says which buffer is still to be handed out.
* `Proceeding.hands_obtain`, `Streaming.terminateStream`, `Lending.close` and the like: the operations.
* `keepsAt_submit`, `Operating.createSubmitter`, `Operating.reset` and the like: what submission contexts do.
-/

namespace Mali

open Op

/-! ## Operations without faults -/

section Faultless

variable {κ : Type}

theorem faultless_slot (i : Int) : Faultless (Device.slot i : Op κ EventSlot) :=
  faultless_bind faultless_device fun _ => faultless_require _

theorem faultless_stream (id : Nat) : Faultless (Device.stream id : Op κ Stream) :=
  faultless_bind faultless_device fun _ => faultless_require _

theorem faultless_reference (x : Nat) : Faultless (Buffer.reference x : Op κ Unit) := by
  unfold Buffer.reference
  refine faultless_bind (faultless_modifyBuffer x _) fun _ => faultless_bind (faultless_buffer x) fun b => ?_
  split
  · exact faultless_violate _
  · exact faultless_pure ()

theorem faultless_revive (x : Nat) : Faultless (Allocator.revive x : Op κ Unit) := by
  unfold Allocator.revive
  refine faultless_bind (faultless_buffer x) fun b => ?_
  split
  · exact faultless_modifyBuffer x _
  · exact faultless_reference x

theorem faultless_reuse (x : Nat) (label : String) : Faultless (Allocator.reuse x label : Op κ Unit) := by
  have hend : Faultless (do
      modifyBuffer x fun b => { b with label }
      modifyAllocator fun a => { a with hits := a.hits + 1 } : Op κ Unit) :=
    faultless_bind (faultless_modifyBuffer x _) fun _ => faultless_modifyAllocator _
  unfold Allocator.reuse
  refine faultless_bind (faultless_uncache x) fun _ => faultless_bind (faultless_checkRule _) fun _ =>
    faultless_bind faultless_get fun m => faultless_bind (faultless_buffer x) fun b => ?_
  split
  · exact faultless_bind (faultless_error _ _) fun _ => hend
  · exact hend

theorem faultless_callbackAll (c : Callback) : Faultless (Device.callbackAll c : Op κ Nat) :=
  faultless_bind faultless_device fun _ => faultless_bind (faultless_modifyDevice _) fun _ => faultless_pure _

theorem faultless_takeCallbacks (i : Int) (n : UInt64) : Faultless (Device.takeCallbacks i n : Op κ _) := by
  unfold Device.takeCallbacks Device.traceReady
  refine faultless_bind (faultless_slot i) fun s => faultless_bind (faultless_modifyDevice _) fun _ =>
    faultless_bind ?_ fun _ => faultless_pure _
  split
  · exact faultless_trace _ _
  · exact faultless_pure ()

theorem faultless_traceFences (o : Syncobj) (fs : List Fence) : Faultless (Device.traceFences o fs : Op κ Unit) := by
  induction fs with
  | nil => exact faultless_pure ()
  | cons f fs ih =>
    refine faultless_bind (faultless_bind (faultless_slot _) fun s => ?_) fun _ => ih
    split
    · exact faultless_trace _ _
    · exact faultless_pure ()

theorem faultless_updateSyncobjs (os : List Syncobj) (i : Nat) :
    Faultless (Device.updateSyncobjs os i : Op κ Unit) := by
  induction os generalizing i with
  | nil => exact faultless_pure ()
  | cons o os ih =>
    have hone : Faultless (Device.updateSyncobj i : Op κ Unit) :=
      faultless_bind (faultless_bind faultless_device fun _ => faultless_require _) fun o =>
        faultless_bind (faultless_traceFences _ _) fun _ => faultless_modifyDevice _
    unfold Device.updateSyncobjs
    split
    · exact faultless_bind hone fun _ => ih _
    · exact ih _

theorem faultless_clearSlot (i : Nat) : Faultless (Device.clearSlot i : Op κ _) := by
  unfold Device.clearSlot
  exact faultless_bind (faultless_takeCallbacks _ _) fun _ => faultless_bind (faultless_slot _) fun _ =>
    faultless_bind (faultless_modifyDevice _) fun _ => faultless_bind faultless_device fun _ =>
    faultless_bind (faultless_updateSyncobjs _ _) fun _ => faultless_bind (faultless_modifyDevice _) fun _ =>
    faultless_pure _

theorem faultless_queueUsage (q : Queue) (writes : Bool) : Faultless (Submitter.queueUsage q writes : Op κ Usage) :=
  faultless_bind (faultless_stream _) fun _ => faultless_pure _

theorem faultless_getSubmitter (id : Nat) : Faultless (Submitter.get id : Op κ Submitter) :=
  faultless_bind faultless_get fun _ => faultless_require _

theorem faultless_addSubmitter (s : Submitter) : Faultless (Submitter.add s : Op κ Nat) :=
  faultless_bind faultless_get fun _ => faultless_bind (faultless_modify _) fun _ => faultless_pure _

theorem faultless_createSyncobj : Faultless (Device.createSyncobj : Op κ Nat) :=
  faultless_bind faultless_device fun _ => faultless_bind (faultless_modifyDevice _) fun _ => faultless_pure _

theorem faultless_getBatch (id : Nat) : Faultless (Batch.get id : Op κ Batch) :=
  faultless_bind faultless_get fun _ => faultless_require _

theorem faultless_modifyBatch (id : Nat) (f : Batch → Batch) : Faultless (Batch.modify id f : Op κ Unit) :=
  faultless_modify _

theorem faultless_useBuffer (deps : List Usage) (x : Nat) (u : Usage) :
    Faultless (Submitter.useBuffer deps x u : Op κ (List Usage)) :=
  faultless_bind (faultless_buffer x) fun _ => faultless_bind (faultless_modifyBuffer x _) fun _ => faultless_pure _

theorem faultless_useBuffers (deps : List Usage) (u : Usage) (xs : List Nat) :
    Faultless (Submitter.useBuffers deps u xs : Op κ (List Usage)) := by
  induction xs generalizing deps with
  | nil => exact faultless_pure deps
  | cons x xs ih =>
    exact faultless_bind (faultless_useBuffer deps x u) fun deps => ih deps

theorem faultless_recordUses (id batch : Nat) (ts : List UsageType) :
    Faultless (Submitter.recordUses id batch ts : Op κ Unit) := by
  induction ts with
  | nil => exact faultless_pure ()
  | cons t ts ih =>
    unfold Submitter.recordUses
    refine faultless_bind (faultless_getSubmitter id) fun s => faultless_bind (faultless_getBatch batch) fun b => ?_
    split
    · exact faultless_bind (faultless_require _) fun q => faultless_bind (faultless_queueUsage q _) fun _ =>
        faultless_bind (faultless_useBuffers _ _ _) fun _ => faultless_bind (faultless_modifyBatch _ _) fun _ => ih
    · exact faultless_bind (faultless_require _) fun q => faultless_bind (faultless_queueUsage q _) fun _ =>
        faultless_bind (faultless_useBuffers _ _ _) fun _ => faultless_bind (faultless_modifyBatch _ _) fun _ => ih

theorem faultless_collect (id batch : Nat) : Faultless (Submitter.collect id batch : Op κ Unit) := by
  have hheap : Faultless (Submitter.recordHeap id batch : Op κ Unit) := by
    unfold Submitter.recordHeap
    refine faultless_bind (faultless_getSubmitter id) fun s => ?_
    split
    · exact faultless_pure ()
    · exact faultless_bind (faultless_getBatch batch) fun _ => faultless_bind (faultless_require _) fun q =>
        faultless_bind (faultless_queueUsage q _) fun u => faultless_bind (faultless_useBuffer _ _ u) fun _ =>
        faultless_modifyBatch _ _
  have hgather : Faultless (Submitter.gather id batch : Op κ Unit) :=
    faultless_bind (faultless_modifyBatch _ _) fun _ =>
      faultless_bind (faultless_bind (faultless_getBatch batch) fun _ => faultless_modify _) fun _ =>
      faultless_bind (faultless_recordUses _ _ _) fun _ => hheap
  exact faultless_bind hgather fun _ => faultless_bind faultless_device fun _ => faultless_modifyBatch _ _

variable [Kernel κ]

theorem faultless_submitStream (id : Nat) (insert : UInt64) (o : Option Nat) (n : UInt64) :
    Faultless (Device.submitStream id insert o n : Op κ Bool) := by
  have hfence (slot : UInt32) : Faultless (Device.fenceSyncobj o slot n : Op κ Unit) := by
    cases o with
    | none => exact faultless_pure ()
    | some k => exact faultless_modifyDevice _
  have hpublish (p : Mapping) : Faultless (Device.publishInsert p insert : Op κ Unit) :=
    faultless_bind (faultless_require _) fun _ => faultless_modifyMemory _
  have hring (p : Mapping) : Faultless (Device.ringDoorbell p : Op κ Unit) := by
    refine faultless_bind faultless_device fun d => ?_
    split
    · exact faultless_bind (faultless_require _) fun _ => faultless_modifyMemory _
    · exact faultless_pure ()
  unfold Device.submitStream
  refine faultless_bind (faultless_debug _ _) fun _ => faultless_bind (faultless_stream id) fun s =>
    faultless_bind (faultless_trace _ _) fun _ => ?_
  split
  · exact faultless_pure false
  · split
    · exact faultless_pure true
    · exact faultless_bind (faultless_submitSlot _ _) fun _ => faultless_bind (hfence _) fun _ =>
        faultless_bind (hpublish _) fun _ => faultless_bind (faultless_modifyDevice _) fun _ =>
        faultless_bind (hring _) fun _ => faultless_bind (faultless_ignore _) fun _ => faultless_pure true

theorem faultless_handOut (x : Nat) : Faultless (Allocator.handOut x : Op κ Unit) := by
  have hend : Faultless (do
      modifyBuffer x fun b => { b with refs := 1, usage := [] }
      Allocator.write "alloc" (← buffer x) noFd : Op κ Unit) :=
    faultless_bind (faultless_modifyBuffer x _) fun _ => faultless_bind (faultless_buffer x) fun _ =>
      faultless_write _ _ _ _
  unfold Allocator.handOut
  refine faultless_bind (faultless_buffer x) fun b => faultless_bind faultless_allocator fun a => ?_
  split
  · exact faultless_bind (faultless_clearBuffer x) fun _ => hend
  · exact hend

theorem faultless_unreference (x : Nat) : Faultless (Buffer.unreference x : Op κ Unit) := by
  have hrelease : Faultless (Buffer.beginRelease x : Op κ Unit) := by
    unfold Buffer.beginRelease
    refine faultless_bind (faultless_buffer x) fun _ => faultless_bind (faultless_writeHandle _ _) fun _ =>
      faultless_bind (faultless_modifyBuffer x _) fun _ => faultless_bind (faultless_callbackAll _) fun added =>
      faultless_bind (faultless_modifyBuffer x _) fun _ => ?_
    split
    · exact faultless_bind (faultless_buffer x) fun _ => faultless_bind (faultless_writeHandle _ _) fun _ =>
        faultless_finish x
    · exact faultless_pure ()
  unfold Buffer.unreference
  refine faultless_bind (faultless_modifyBuffer x _) fun _ => faultless_bind (faultless_buffer x) fun b => ?_
  split
  · exact faultless_violate _
  · split
    · exact hrelease
    · exact faultless_pure ()

/-- By induction on the number of entries that are left, which evicting one makes smaller. -/
theorem faultless_evictEntries (index : Nat) (entries : List Nat) :
    Faultless (Allocator.evictEntries index entries : Op κ Unit) := by
  induction h : entries.length using Nat.strong_induction_on generalizing entries with
  | _ n ih =>
    subst h
    cases entries with
    | nil =>
      rw [Allocator.evictEntries]
      exact faultless_pure ()
    | cons entry rest =>
      rw [Allocator.evictEntries]
      refine faultless_bind (faultless_cachedBuffer entry) fun id => faultless_bind (faultless_buffer id) fun b =>
        faultless_bind (faultless_evict id) fun _ => ih _ ?_ _ rfl
      have := BufferCache.length_remaining_le id rest
      split <;> simp only [List.length_cons] <;> omega

theorem faultless_evictBuckets (indices : List Nat) : Faultless (Allocator.evictBuckets indices : Op κ Unit) := by
  induction indices with
  | nil => exact faultless_pure ()
  | cons index rest ih =>
    exact faultless_bind faultless_allocator fun _ => faultless_bind (faultless_evictEntries _ _) fun _ => ih

end Faultless

variable {κ : Type} [Kernel κ]

/-! ## Importing -/

/-- An import keeps what giving out a handle, freeing one and adding a shared buffer keep. -/
theorem keeps_importBuffer_of {R : Machine κ → Machine κ → Prop} [Domestic R] [Asks R] [Remaps R] [Closes R]
    (halloc : ∀ va fd, Keeps R (Device.allocHandle va fd))
    (hset : ∀ k p, Keeps R (modifyDevice fun d => { d with handles := d.handles.setMapping k p }))
    (hfree : ∀ handle, Keeps R (Device.freeHandle handle))
    (hadd : ∀ b : Buffer, b.flags = BufferFlag.shared → b.freed = false → Keeps R (Allocator.addBuffer b)) (fd : Int) :
    Keeps R (Allocator.importBuffer fd) := by
  have hdrop (k : Nat) (h : Handle) : Keeps R (Allocator.dropImport k h) := by
    unfold Allocator.dropImport
    split
    · exact hfree k
    · exact keeps_bind_option (keeps_unmapMemory _) (hfree k) fun _ => keeps_bind (keeps_error _ _) fun _ => hfree k
  have hwrap (k : Nat) : Keeps R (Allocator.wrapImport fd k) := by
    refine keeps_bind keeps_device fun d m => keepsAt_bind (keeps_attempt (keeps_importedBuffer _ _ _) m)
      fun answer m₁ h₁ => ?_
    cases answer with
    | ok b =>
      obtain ⟨-, _, _, _, -, rfl⟩ := importedBuffer_ok (attempt_ok h₁)
      exact hadd _ rfl rfl m₁
    | error f => exact keeps_bind (hdrop _ _) (fun _ => keeps_fail f) m₁
  have hwrite (known : Bool) (x : Nat) : Keeps R (do
      let b ← buffer x
      Allocator.write "import" b fd (some (b.dmabufFd, known))
      return x) := keeps_bind (keeps_buffer x) fun b => keeps_bind (keeps_write _ _ _ _) fun _ => keeps_pure x
  unfold Allocator.importBuffer
  refine keeps_bind keeps_requireAllocator fun _ => keeps_bind (keeps_debug _ _) fun _ =>
    keeps_bind (keeps_importFile_of halloc hset fd) fun k => keeps_bind keeps_allocator fun a => ?_
  cases a.lookup? k with
  | some x => exact keeps_bind (keeps_revive x) fun _ => keeps_bind (keeps_pure x) (hwrite true)
  | none => exact keeps_bind (hwrap k) (hwrite false)

/-! ## Waits, syncobjs and the search for a buffer -/

/-- Operations whose value says which buffer is still to be handed out. -/
def Hands (P : Option Nat → Machine κ → Machine κ → Prop) {α : Type} (h : α → Option Nat) (x : Op κ α) : Prop :=
  ∀ ⦃m m' : Machine κ⦄ ⦃r : Except Halt α⦄, x.exec m = (r, m') → Survives r → P (r.toOption.bind h) m m'

/-- How many interfaces of each context were given out, and the contexts that the streams are on. -/
def Device.bindings (d : Device) : List UInt8 × List Nat := (d.contexts.map (·.interfaces), d.streams.map (·.context))

/-- Relations that go along with what waits and the search for a buffer are made of. -/
structure Proceeding (P : Option Nat → Machine κ → Machine κ → Prop) : Prop where
  next : ∀ {m m₁ m' : Machine κ} {held : Option Nat}, P none m m₁ → P held m₁ m' → P held m m'
  /-- A change of a device that leaves alone what it holds on to, how far its slots and streams are, which interfaces
  are taken, its syncobjs, and its options. -/
  editDevice : ∀ {f : Device → Device}, (∀ d, (f d).fixtures = d.fixtures) → (∀ d, (f d).progress = d.progress) →
    (∀ d, (f d).bindings = d.bindings) → (∀ d, (f d).syncobjs = d.syncobjs) → (∀ d, (f d).options = d.options) →
    Keeps (P none) (modifyDevice f)
  countMiss : Keeps (P none) (modifyAllocator fun a => { a with misses := a.misses + 1 })
  evictOld : Keeps (P none) Allocator.evictOld
  evictBuckets : ∀ indices, Keeps (P none) (Allocator.evictBuckets indices)
  handleEvents : Keeps (P none) Device.handleEvents
  isIdle : ∀ x patient, Keeps (P none) (Allocator.isIdle x patient)
  reuse : ∀ x label, Hands P (fun _ => some x) (Allocator.reuse x label)
  /-- Only an import makes a buffer that is shared. -/
  allocate : ∀ size {flags} label, hasFlag flags BufferFlag.shared = false →
    Hands P some (Allocator.allocate size flags label)

namespace Proceeding

variable {P : Option Nat → Machine κ → Machine κ → Prop} [Plain (P none)] (h : Proceeding P)
include h

theorem polling : Polling (κ := κ) (Keeps (P none)) where
  pure := keeps_pure
  bind := keeps_bind
  device := keeps_device
  now := keeps_now
  call c hc _ := keeps_plain hc
  error := keeps_error
  modify f hf := by
    have hsame (d : Device) : (f d).fixtures = d.fixtures ∧ (f d).progress = d.progress ∧
        (f d).bindings = d.bindings ∧ (f d).syncobjs = d.syncobjs ∧ (f d).options = d.options := by
      obtain ⟨_, _, _, _, hd⟩ := hf d
      rw [hd]
      exact ⟨rfl, rfl, rfl, rfl, rfl⟩
    exact h.editDevice (fun d => (hsame d).1) (fun d => (hsame d).2.1) (fun d => (hsame d).2.2.1)
      (fun d => (hsame d).2.2.2.1) fun d => (hsame d).2.2.2.2
  handleEvents := h.handleEvents

theorem ensureHandleEvents : Keeps (P none) Device.ensureHandleEvents := h.polling.pass

theorem evictStale : Keeps (P none) Allocator.evictStale :=
  keeps_bind keeps_requireAllocator fun _ => keeps_bind (keeps_debug _ _) fun _ => h.evictOld

theorem evictAll : Keeps (P none) Allocator.evictAll :=
  keeps_bind keeps_requireAllocator fun _ => keeps_bind (keeps_debug _ _) fun _ =>
    keeps_bind keeps_allocator fun _ => h.evictBuckets _

/-! ### The search for a buffer -/

section Hands

variable {α β : Type} {g : α → Option Nat} {k : β → Option Nat}

omit h in
theorem hands_pure {b : β} (hb : k b = none) : Hands P k (pure b : Op κ β) := by
  intro m m' r he _
  cases he
  rw [show (Except.ok b : Except Halt β).toOption.bind k = none from hb]
  exact Journey.refl m

omit [Plain (P none)] in
theorem hands_bind {x : Op κ α} {f : α → Op κ β} (hx : Keeps (P none) x) (hf : ∀ a, Hands P k (f a)) :
    Hands P k (x >>= f) := by
  intro m m' r he hr
  rcases bind_survives he hr with ⟨f, h₁, rfl⟩ | ⟨a, m₁, h₁, he⟩
  · exact (hx m).survives h₁ trivial
  · exact h.next (hx.ok h₁) (hf a he hr)

omit [Plain (P none)] in
/-- A buffer that the first part hands over is handed on, and otherwise the second part looks for one. -/
theorem hands_bind_handed {x : Op κ α} {f : α → Op κ β} (hx : Hands P g x)
    (hnone : ∀ a, g a = none → Hands P k (f a)) (hsome : ∀ a y, g a = some y → ∃ b, f a = pure b ∧ k b = some y) :
    Hands P k (x >>= f) := by
  intro m m' r he hr
  rcases bind_survives he hr with ⟨f, h₁, rfl⟩ | ⟨a, m₁, h₁, he⟩
  · exact hx h₁ trivial
  · have hfirst := hx h₁ trivial
    rw [show (Except.ok a : Except Halt α).toOption.bind g = g a from rfl] at hfirst
    cases hg : g a with
    | none => exact h.next (hg ▸ hfirst) (hnone a hg he hr)
    | some y =>
      obtain ⟨b, hb, hhand⟩ := hsome a y hg
      rw [hb] at he
      cases he
      rwa [show (Except.ok b : Except Halt β).toOption.bind k = g a from hhand.trans hg.symm]

omit h [Kernel κ] [Plain (P none)] in
theorem hands_attempt {x : Op κ Nat} (hx : Hands P some x) :
    Hands P (fun r : Except Fault Nat => r.toOption) (attempt x) := by
  intro m m' r he hr
  obtain ⟨a, rfl⟩ := (faultless_attempt x).value he hr
  cases a with
  | ok y => exact hx (attempt_ok he) trivial
  | error f => exact hx (attempt_fault he) trivial

end Hands

omit [Plain (P none)] in
theorem hands_reuse (x : Nat) (label : String) : Hands P id (do
    Allocator.reuse x label
    return some x : Op κ (Option Nat)) :=
  h.hands_bind_handed (h.reuse x label) (fun _ hnone => nomatch hnone) fun _ _ hsome => ⟨_, rfl, hsome⟩

/-- By induction on the cached buffers that are looked at. -/
theorem hands_fetchFrom (size : Int64) (flags : UInt32) (label : String) (patient : Bool) (entries : List Nat) :
    Hands P id (Allocator.fetchFrom size flags label patient entries : Op κ (Option Nat)) := by
  induction entries with
  | nil => exact hands_pure rfl
  | cons entry rest ih =>
    unfold Allocator.fetchFrom
    refine h.hands_bind (keeps_cachedBuffer entry) fun x => h.hands_bind (keeps_buffer x) fun b => ?_
    split
    · exact ih
    · refine h.hands_bind (h.isIdle x patient) fun idle => ?_
      split
      · exact h.hands_reuse x label
      · exact hands_pure rfl

theorem hands_fetch (size : Int64) (flags : UInt32) (label : String) (patient : Bool) :
    Hands P id (Allocator.fetch size flags label patient : Op κ (Option Nat)) :=
  h.hands_bind keeps_allocator fun _ => h.hands_fetchFrom _ _ _ _ _

section Unshared

variable {flags : UInt32} (hflags : hasFlag flags BufferFlag.shared = false)
include hflags

theorem hands_attemptAgain (size : Int64) (label : String) :
    Hands P some (Allocator.attemptAgain size flags label : Op κ Nat) :=
  h.hands_bind h.ensureHandleEvents fun _ => h.hands_bind h.evictAll fun _ => h.allocate _ _ hflags

/-- By induction on the attempts that are left. -/
theorem hands_retry (size : Int64) (label : String) (fuel : Nat) (b : Backoff) :
    Hands P (fun r : Except Fault Nat => r.toOption)
      (Allocator.retry size flags label fuel b : Op κ (Except Fault Nat)) := by
  induction fuel generalizing b with
  | zero => exact hands_attempt (h.hands_attemptAgain hflags _ _)
  | succ fuel ih =>
    unfold Allocator.retry
    refine h.hands_bind_handed (hands_attempt (h.hands_attemptAgain hflags size label)) (fun r hr => ?_)
      fun r y hr => ?_
    · cases r with
      | ok x => cases hr
      | error f =>
        dsimp only
        split
        · exact hands_pure rfl
        · exact h.hands_bind (h.polling.pause _) fun _ => ih _
    · cases r with
      | ok x => exact ⟨_, rfl, hr⟩
      | error f => cases hr

omit hflags in
theorem hands_fetchOr (size : Int64) (label : String) (patient : Bool) {x : Op κ (Except Fault Nat)}
    (hx : Hands P (fun r => r.toOption) x) :
    Hands P (fun r : Except Fault Nat => r.toOption) (do
      match ← Allocator.fetch size flags label patient with
      | some id => return .ok id
      | none => x) := by
  refine h.hands_bind_handed (h.hands_fetch size flags label patient) (fun r hr => ?_) fun r y hr => ?_
  · cases hr
    exact hx
  · cases hr
    exact ⟨_, rfl, rfl⟩

theorem hands_obtain (size : Int64) (label : String) :
    Hands P (fun r : Except Fault Nat => r.toOption)
      (Allocator.obtain size flags label : Op κ (Except Fault Nat)) := by
  unfold Allocator.obtain
  refine h.hands_fetchOr size label _ (h.hands_bind h.countMiss fun _ => ?_)
  refine h.hands_bind_handed (hands_attempt (h.allocate size label hflags)) (fun r hr => ?_) fun r y hr => ?_
  · cases r with
    | ok x => cases hr
    | error f => exact h.hands_fetchOr size label _ (h.hands_retry hflags _ _ _ _)
  · cases r with
    | ok x => exact ⟨_, rfl, hr⟩
    | error f => cases hr

end Unshared

end Proceeding

/-! ## Contexts and streams -/

/-- Which streams may be submitted to and terminated, which syncobjs may get fences and be destroyed, which submission
contexts may submit, recover and be destroyed, whether contexts may be made and streams bound on them, and whether
batches may be submitted. -/
structure Licence where
  stream : Nat → Prop
  syncobj : Nat → Prop
  submitter : Nat → Prop
  binding : Prop
  submitting : Prop

/-- Everything may be used.  Contexts may be made and streams bound if it says so, and so may batches be submitted. -/
def Licence.wide (binding submitting : Prop) : Licence :=
  ⟨fun _ => True, fun _ => True, fun _ => True, binding, submitting⟩

/-- Everything may be used and done. -/
def Licence.full : Licence := .wide True True

/-- Relations that also go along with what contexts, streams, syncobjs and the work on them are made of. -/
structure Streaming (l : Licence) (P : Option Nat → Machine κ → Machine κ → Prop) : Prop extends Proceeding P where
  createContext : l.binding → Keeps (P none) Device.createContext
  destroyContext : ∀ id, Keeps (P none) (Device.destroyContext id)
  recreateContext : ∀ id, Keeps (P none) (Device.recreateContext id)
  bindStream : l.binding → ∀ ctx va size, Keeps (P none) (Device.bindStream ctx va size)
  rebindStream : ∀ id, Keeps (P none) (Device.rebindStream id)
  unmapStream : ∀ id, Keeps (P none) (Device.unmapStream id)
  clearSlot : ∀ {m : Machine κ} {id : Nat} {s : Stream}, l.stream id → m.device.streams[id]? = some s →
    KeepsAt (P none) (Device.clearSlot s.slot >>= Device.runCallbacks) m
  submitSlot : ∀ {m : Machine κ} {id : Nat} {s : Stream} (n : UInt64), l.stream id → m.device.streams[id]? = some s →
    KeepsAt (P none) (Device.submitSlot s.slot n) m
  createSyncobj : Keeps (P none) Device.createSyncobj
  pruneSyncobj : ∀ id,
    Keeps (P none) (modifyDevice fun d => { d with syncobjs := d.syncobjs.modify id (·.prune d.slots) })
  fenceSyncobj : ∀ id slot n, l.syncobj id → Keeps (P none) (Device.modifySyncobj id (·.updateFence slot n))
  destroySyncobj : ∀ id, l.syncobj id → Keeps (P none) (Device.destroySyncobj id)
  advance : ∀ (i : Nat) n, Keeps (P none) (Device.advance i n)
  updateCallbacks : ∀ (i : Nat) n, Keeps (P none) (Device.updateCallbacks i n)
  collect : ∀ {m : Machine κ} {id : Nat} {batch : Nat} {b : Batch}, l.submitting → l.submitter id →
    m.batches[batch]? = some b → b.submitted = false → KeepsAt (P none) (Submitter.collect id batch) m

namespace Streaming

variable {l : Licence} {P : Option Nat → Machine κ → Machine κ → Prop} [Plain (P none)] (h : Streaming l P)
include h

theorem syncobjDone (id : Nat) : Keeps (P none) (Device.syncobjDone id) :=
  keeps_bind (keeps_bind (keeps_syncobj id) fun _ => keeps_bind (keeps_traceFences _ _) fun _ => h.pruneSyncobj id)
    fun _ => keeps_bind (keeps_syncobj id) fun _ => keeps_pure _

theorem waitSyncobj (id : Nat) : Keeps (P none) (Device.waitSyncobj id) := by
  unfold Device.waitSyncobj
  refine keeps_bind (keeps_syncobj id) fun o => ?_
  split
  · exact keeps_pure true
  · refine keeps_bind keeps_device fun d => keeps_bind (h.polling.waitUntil (h.syncobjDone id) _) fun r => ?_
    split
    · exact keeps_pure true
    · exact keeps_bind (keeps_syncobj id) fun _ => keeps_bind (keeps_warn _ _) fun _ => keeps_pure false

theorem terminateStream {id : Nat} (hid : l.stream id) : Keeps (P none) (Device.terminateStream id) := by
  unfold Device.terminateStream
  refine keeps_bind (keeps_debug _ _) fun _ => keeps_bind (h.unmapStream id) fun _ m => ?_
  refine keepsAt_bind (keeps_stream id m) fun s m₁ h₁ => ?_
  obtain ⟨_, hs, h₁⟩ := bind_stream_ok (f := pure) (by rw [bind_pure]; exact h₁)
  cases h₁
  refine keepsAt_bind (keeps_ignore (keeps_streamRequest _ _ _) m) fun _ m₂ h₂ =>
    h.clearSlot hid (show m₂.device.streams[id]? = some s from ?_)
  have hsame : SameDevice m m₂ := (keeps_ignore (keeps_streamRequest _ _ _)).ok h₂
  rwa [show m₂.device = m.device from hsame]

omit [Plain (P none)] in
theorem setLastInsert (id : Nat) (insert : UInt64) : Keeps (P none) (Device.setLastInsert id insert) := by
  refine h.editDevice (fun d => ?_) (fun d => ?_) (fun d => ?_) (fun _ => rfl) fun _ => rfl
  · have hpages : (d.streams.modify id fun s => { s with lastInsert := insert }).map (·.userIo) =
        d.streams.map (·.userIo) :=
      map_modify_eq (f := fun s => { s with lastInsert := insert }) (fun s : Stream => s.userIo) (fun _ => rfl)
        d.streams id
    rw [Device.fixtures, hpages, Device.fixtures]
  · have hslots : (d.streams.modify id fun s => { s with lastInsert := insert }).map (·.slot) =
        d.streams.map (·.slot) :=
      map_modify_eq (f := fun s => { s with lastInsert := insert }) (fun s : Stream => s.slot) (fun _ => rfl)
        d.streams id
    rw [Device.progress, hslots, Device.progress]
  · have hcontexts : (d.streams.modify id fun s => { s with lastInsert := insert }).map (·.context) =
        d.streams.map (·.context) :=
      map_modify_eq (f := fun s => { s with lastInsert := insert }) (fun s : Stream => s.context) (fun _ => rfl)
        d.streams id
    rw [Device.bindings, hcontexts, Device.bindings]

theorem submitStream {id : Nat} {o : Option Nat} (hid : l.stream id) (ho : ∀ k ∈ o, l.syncobj k) (insert n : UInt64) :
    Keeps (P none) (Device.submitStream id insert o n) :=
  keeps_submitStream (fun hs => h.submitSlot n hid hs) (fun k hk slot => h.fenceSyncobj k slot n (ho k hk))
    (h.setLastInsert id insert)

theorem waitStream (id : Nat) (extract : UInt64) (o : Option Nat) :
    Keeps (P none) (Device.waitStream id extract o) := by
  unfold Device.waitStream
  refine keeps_bind (keeps_debug _ _) fun _ => keeps_bind (keeps_stream id) fun s => ?_
  split
  · exact keeps_pure false
  · refine keeps_bind (keeps_require o) fun o => keeps_bind (h.waitSyncobj o) fun fine => ?_
    split
    · exact keeps_pure true
    · exact keeps_bind keeps_get fun m => keeps_bind (keeps_require _) fun r => keeps_bind (keeps_syncobj o) fun _ =>
        keeps_bind (keeps_error _ _) fun _ => keeps_pure false

theorem submitQueue {q : Queue} {o : Option Nat} (hq : l.stream q.stream) (ho : ∀ k ∈ o, l.syncobj k) (insert : UInt64)
    (activity : Activity) : Keeps (P none) (Submitter.submitQueue q insert o activity) := by
  refine keeps_bind (h.submitStream hq ho _ _) fun ran => ?_
  split
  · exact keeps_pure _
  · exact keeps_pure _

end Streaming

/-! ## References and batches -/

/-- Relations that also go along with what references to buffers and batches are made of. -/
structure Lending (P : Option Nat → Machine κ → Machine κ → Prop) : Prop extends Proceeding P where
  reference : ∀ x, Keeps (P none) (Buffer.reference x)
  unreference : ∀ x, Keeps (P none) (Buffer.unreference x)
  /-- A buffer that is handed over gets its first reference. -/
  handOut : ∀ {m m₁ m' : Machine κ} {x : Nat}, P (some x) m m₁ → (Allocator.handOut x).exec m₁ = (.ok (), m') →
    P none m m'
  editBatch : ∀ (id : Nat) {f : Batch → Batch}, (∀ b, (f b).standing = b.standing) → Keeps (P none) (Batch.modify id f)
  startBatch : ∀ submitter, Keeps (P none) (Batch.start submitter)

/-- A buffer that can be created is not shared. -/
theorem Allocator.not_shared_of_refusal? {size : Int64} {flags : UInt32} {label : String}
    (hvalid : Allocator.refusal? size flags label = none) : hasFlag flags BufferFlag.shared = false := by
  unfold Allocator.refusal? at hvalid
  split at hvalid
  · cases hvalid
  · split at hvalid
    · cases hvalid
    · rename_i hshared
      simpa using hshared

namespace Lending

variable {P : Option Nat → Machine κ → Machine κ → Prop} [Plain (P none)] (h : Lending P)
include h

theorem create (size : Int64) (flags : UInt32) (label : String) :
    Keeps (P none) (Allocator.create size flags label) := by
  unfold Allocator.create
  refine keeps_bind keeps_requireAllocator fun _ => keeps_bind (keeps_debug _ _) fun _ => ?_
  split
  · exact keeps_fail _
  · rename_i hvalid
    have hflags := Allocator.not_shared_of_refusal? hvalid
    refine fun m => keepsAt_of_exec fun {r m'} he hr => ?_
    rcases bind_survives he hr with ⟨f, h₁, rfl⟩ | ⟨found, m₁, h₁, he⟩
    · exact h.hands_obtain hflags _ _ h₁ trivial
    have hfound := h.hands_obtain hflags _ _ h₁ trivial
    cases found with
    | ok x =>
      obtain ⟨_, m₂, h₂, he⟩ := (faultless_handOut x).bind_survives he hr
      cases he
      exact h.handOut hfound h₂
    | error f =>
      exact h.next hfound ((keeps_bind (keeps_error _ _) (fun _ => keeps_fail _) m₁).survives he hr)

theorem use (id x : Nat) (t : UsageType) : Keeps (P none) (Batch.use id x t) := by
  unfold Batch.use
  refine keeps_bind (keeps_getBatch id) fun batch => keeps_bind (keeps_buffer x) fun b => ?_
  split
  · exact keeps_bind (h.reference x) fun _ => h.editBatch id fun _ => rfl
  · exact h.editBatch id fun _ => rfl

theorem dropReferences (es : List (Nat × UInt32)) : Keeps (P none) (Batch.dropReferences es) := by
  induction es with
  | nil => exact keeps_pure ()
  | cons e es ih =>
    refine keeps_bind keeps_allocator fun a => ?_
    dsimp only
    split
    · exact keeps_bind (h.unreference _) fun _ => ih
    · exact ih

theorem close (id : Nat) : Keeps (P none) (Batch.close id) :=
  keeps_bind (keeps_getBatch id) fun _ => keeps_bind (h.dropReferences _) fun _ =>
    keeps_bind (h.editBatch id fun _ => rfl) fun _ => h.ensureHandleEvents

end Lending

/-! ## Submitting -/

/-- What a submission does on its queues, once the uses of its batch are collected. -/
def Submitter.runBatch (id batch : Nat) (vertex fragment : Queue) (o : Option Nat)
    (vertexInsert fragmentInsert : UInt64) : Op κ Unit := do
  let vertexFault ← submitQueue vertex vertexInsert o .vertexStream
  let fragmentFault ← submitQueue fragment fragmentInsert o .fragmentStream
  match Fault.first? vertexFault fragmentFault with
  | some f =>
    error "failed to submit batch" [("error", f.message)]
    fail f
  | none =>
    if (← Batch.get batch).needsSync then
      awaitBatch id vertex fragment vertexInsert fragmentInsert o

/-- A batch that waits does so for both queues, and may recover. -/
theorem keeps_awaitBatch {R : Machine κ → Machine κ → Prop} [Audible R] {id : Nat}
    (hwait : ∀ s extract o, Keeps R (Device.waitStream s extract o)) (hreset : Keeps R (Submitter.reset id))
    (vertex fragment : Queue) (vertexInsert fragmentInsert : UInt64) (o : Option Nat) :
    Keeps R (Submitter.awaitBatch id vertex fragment vertexInsert fragmentInsert o) := by
  unfold Submitter.awaitBatch
  refine keeps_bind (hwait _ _ _) fun _ => keeps_bind (hwait _ _ _) fun _ => ?_
  split
  · exact keeps_bind_option (keeps_faultOf hreset) (keeps_pure ()) fun _ => keeps_fail _
  · exact keeps_pure ()

/-- A batch runs on its queues, and may wait for both of them. -/
theorem keeps_runBatch {R : Machine κ → Machine κ → Prop} [Audible R] {id : Nat} {vertex fragment : Queue}
    {o : Option Nat} (hvertex : ∀ insert activity, Keeps R (Submitter.submitQueue vertex insert o activity))
    (hfragment : ∀ insert activity, Keeps R (Submitter.submitQueue fragment insert o activity))
    (hwait : ∀ s extract o, Keeps R (Device.waitStream s extract o)) (hreset : Keeps R (Submitter.reset id))
    (batch : Nat) (vertexInsert fragmentInsert : UInt64) :
    Keeps R (Submitter.runBatch id batch vertex fragment o vertexInsert fragmentInsert) := by
  refine keeps_bind (hvertex _ _) fun _ => keeps_bind (hfragment _ _) fun _ => ?_
  split
  · exact keeps_bind (keeps_error _ _) fun _ => keeps_fail _
  · refine keeps_bind (keeps_getBatch batch) fun b => ?_
    split
    · exact keeps_awaitBatch hwait hreset _ _ _ _ _
    · exact keeps_pure ()

/-- A batch is collected at once, but only if it was not before, and runs on the queues of its submission context. -/
theorem keepsAt_submit {R : Machine κ → Machine κ → Prop} [Audible R] {m : Machine κ} {id batch : Nat}
    (hcollect : ∀ {m₁ : Machine κ} {b : Batch}, (debug "Context::Submit" : Op κ Unit).exec m = (.ok (), m₁) →
      m₁.batches[batch]? = some b → b.submitted = false → KeepsAt R (Submitter.collect id batch) m₁)
    (hqueue : ∀ {m : Machine κ} {s : Submitter}, m.submitters[id]? = some s → (∀ m', R m m') ∨
      ∀ q ∈ s.queues, ∀ insert activity, Keeps R (Submitter.submitQueue q insert s.syncobj activity))
    (hwait : ∀ s extract o, Keeps R (Device.waitStream s extract o)) (hreset : Keeps R (Submitter.reset id))
    (vertexInsert fragmentInsert : UInt64) : KeepsAt R (Submitter.submit id batch vertexInsert fragmentInsert) m := by
  unfold Submitter.submit
  refine keepsAt_bind (keeps_debug _ _ m) fun _ m₀ h₀ => keepsAt_bind (keeps_getSubmitter id m₀) fun s m₁ h₁ => ?_
  obtain ⟨_, -, h₁⟩ := bind_getSubmitter_ok (f := pure) (by rw [bind_pure]; exact h₁)
  cases h₁
  split
  · exact keeps_fail _ m₀
  refine keepsAt_bind (keeps_getBatch batch m₀) fun b m₁ h₁ => ?_
  obtain ⟨_, hb, h₁⟩ := bind_getBatch_ok (f := pure) (by rw [bind_pure]; exact h₁)
  cases h₁
  split
  · exact keeps_fail _ m₀
  rename_i hnew
  refine keepsAt_bind (hcollect h₀ hb (by simpa using hnew)) fun _ m₁ _ => ?_
  refine keepsAt_bind (keeps_getSubmitter id m₁) fun s m₂ h₂ => ?_
  obtain ⟨_, hs, h₂⟩ := bind_getSubmitter_ok (f := pure) (by rw [bind_pure]; exact h₂)
  cases h₂
  rcases hqueue hs with hany | hqueues
  · exact fun _ => hany _
  refine keepsAt_bind (keeps_require s.vertex m₁) fun vertex m₂ h₂ => ?_
  obtain ⟨_, hvertex, h₂⟩ := bind_require_ok (f := pure) (by rw [bind_pure]; exact h₂)
  cases h₂
  refine keepsAt_bind (keeps_require s.fragment m₁) fun fragment m₂ h₂ => ?_
  obtain ⟨_, hfragment, h₂⟩ := bind_require_ok (f := pure) (by rw [bind_pure]; exact h₂)
  cases h₂
  have hmem : vertex ∈ s.queues ∧ fragment ∈ s.queues := by simp [Submitter.queues, hvertex, hfragment]
  exact keeps_runBatch (hqueues _ hmem.1) (hqueues _ hmem.2) hwait hreset batch vertexInsert fragmentInsert m₁

/-! ## Submission contexts -/

/-- A submission context has nothing but what another one has. -/
structure Submitter.Within (s' s : Submitter) : Prop where
  context : ∀ c ∈ s'.context, c ∈ s.context
  queues : s'.queues ⊆ s.queues
  syncobj : ∀ o ∈ s'.syncobj, o ∈ s.syncobj

/-- A submission context gets a queue at most. -/
structure Submitter.Gains (q : Queue) (s s' : Submitter) : Prop where
  context : s'.context = s.context
  queues : s'.queues ⊆ q :: s.queues
  syncobj : s'.syncobj = s.syncobj

/-- A submission context gets one queue after the other. -/
theorem Submitter.createQueues_eq (id ctx : Nat) (ringSize : UInt32) :
    (createQueues id ctx ringSize : Op κ Unit) =
      (orDestroy id (createQueue ctx ringSize "Vertex CS ring") >>= fun q =>
        modify id fun s => { s with vertex := some q }) >>= fun _ =>
      orDestroy id (createQueue ctx ringSize "Fragment CS ring") >>= fun q =>
        modify id fun s => { s with fragment := some q } := by
  simp only [createQueues, bind_assoc]

/-- What is done with the value of an operation is kept also if the submission context is destroyed where there is
none. -/
theorem keeps_orDestroy_bind {R : Machine κ → Machine κ → Prop} [Journey R] {α β : Type} {id : Nat} {x : Op κ α}
    {f : α → Op κ β} (hx : Keeps R x) (hf : Keeps R (x >>= f)) (hdestroy : Keeps R (Submitter.destroy id)) :
    Keeps R (Submitter.orDestroy id x >>= f) := by
  have hfirst : Keeps R (Submitter.orDestroy id x) :=
    keeps_bind_except (keeps_attempt hx) (fun _ => keeps_pure _) fun _ => keeps_bind hdestroy fun _ => keeps_fail _
  refine fun m => keepsAt_of_exec fun {r m'} he hr => ?_
  rcases bind_survives he hr with ⟨f, h₁, rfl⟩ | ⟨a, m₁, h₁, he⟩
  · exact (hfirst m).survives h₁ trivial
  · refine (hf m).survives (r := r) ?_ hr
    obtain ⟨answer, m₂, h₂, h₁⟩ := bind_ok h₁
    cases answer with
    | ok b =>
      cases h₁
      rw [exec_bind_of_ok (attempt_ok h₂), he]
    | error f =>
      obtain ⟨_, m₃, -, h₁⟩ := bind_ok h₁
      cases h₁

/-- What submission contexts ask of buffers and streams is made of what goes on with these. -/
theorem Streaming.attending {l : Licence} {P : Option Nat → Machine κ → Machine κ → Prop} [Plain (P none)]
    (hstreaming : Streaming l P) (hlending : Lending P)
    (hedit : ∀ (id : Nat) {f : Submitter → Submitter}, (∀ s, (f s).seat = s.seat) →
      Keeps (P none) (Submitter.modify id f)) : Attending (P none) where
  modify := hedit
  reference := hlending.reference
  unreference := hlending.unreference
  create := hlending.create
  rebind := hstreaming.rebindStream
  setLastInsert := hstreaming.setLastInsert
  advance := hstreaming.advance

/-- Relations that go along with everything that a program asks for within a licence. -/
structure Operating (l : Licence) (P : Option Nat → Machine κ → Machine κ → Prop) : Prop
    extends Streaming l P, Lending P where
  /-- A submission context that may be used has streams and a syncobj that may be. -/
  licensed : ∀ {m : Machine κ} {id : Nat} {s : Submitter}, l.submitter id → m.submitters[id]? = some s →
    (∀ m', P none m m') ∨ (∀ q ∈ s.queues, l.stream q.stream) ∧ ∀ o ∈ s.syncobj, l.syncobj o
  editSubmitter : ∀ (id : Nat) {f : Submitter → Submitter}, (∀ s, (f s).seat = s.seat) →
    Keeps (P none) (Submitter.modify id f)
  trimSubmitter : ∀ {id : Nat} {f : Submitter → Submitter}, l.submitter id → (∀ s, (f s).Within s) →
    Keeps (P none) (Submitter.modify id f)
  /-- A new submission context may be used. -/
  enlist : ∀ {α : Type} {s : Submitter} {f : Nat → Op κ α}, s.queues = [] → s.syncobj = none →
    (∀ id, l.submitter id → Keeps (P none) (f id)) → Keeps (P none) (Submitter.add s >>= f)
  enlistJobs : Keeps (P none) (Device.createSyncobj >>= fun o => Submitter.add { syncobj := some o })
  seatQueue : ∀ {id : Nat} {set : Queue → Submitter → Submitter} (ctx : Nat) (ringSize : UInt32) (label : String),
    l.binding → l.submitter id → (∀ (q : Queue) (s : Submitter), s.Gains q (set q s)) →
    Keeps (P none) (Submitter.createQueue ctx ringSize label >>= fun q => Submitter.modify id (set q))
  seatSyncobj : ∀ {id : Nat}, l.submitter id →
    Keeps (P none) (Device.createSyncobj >>= fun o => Submitter.modify id fun s => { s with syncobj := some o })
  importBuffer : ∀ fd, Keeps (P none) (Allocator.importBuffer fd)

namespace Operating

section Wide

variable {P : Option Nat → Machine κ → Machine κ → Prop} [Plain (P none)]

/-- Relations that no change of submission contexts breaks need no licence to use them. -/
theorem of_modify {binding submitting : Prop} (hstreaming : Streaming (.wide binding submitting) P) (hlending : Lending P)
    (hmodify : ∀ id f, Keeps (P none) (Submitter.modify id f)) (hadd : ∀ s, Keeps (P none) (Submitter.add s))
    (himport : ∀ fd, Keeps (P none) (Allocator.importBuffer fd)) : Operating (.wide binding submitting) P where
  toStreaming := hstreaming
  reference := hlending.reference
  unreference := hlending.unreference
  handOut := hlending.handOut
  editBatch := hlending.editBatch
  startBatch := hlending.startBatch
  licensed _ _ := .inr ⟨fun _ _ => trivial, fun _ _ => trivial⟩
  editSubmitter id _ _ := hmodify id _
  trimSubmitter _ _ := hmodify _ _
  enlist _ _ hf := keeps_bind (hadd _) fun id => hf id trivial
  enlistJobs := keeps_bind hstreaming.createSyncobj fun _ => hadd _
  seatQueue ctx ringSize label hbinding _ _ := by
    have hattending : Attending (P none) := hstreaming.attending hlending fun id _ _ => hmodify id _
    exact keeps_bind (hattending.createQueue (hstreaming.bindStream hbinding ctx) ringSize label) fun _ => hmodify _ _
  seatSyncobj _ := keeps_bind hstreaming.createSyncobj fun _ => hmodify _ _
  importBuffer := himport

end Wide

variable {l : Licence} {P : Option Nat → Machine κ → Machine κ → Prop} [Plain (P none)]
  (h : Operating l P)
include h

theorem attending : Attending (P none) := h.toStreaming.attending h.toLending h.editSubmitter

/-- The streams of a submission context that may be used may be terminated. -/
theorem terminateLicensed {m : Machine κ} {id : Nat} {s : Submitter} (hid : l.submitter id)
    (hs : m.submitters[id]? = some s) :
    (∀ m', P none m m') ∨ ∀ q ∈ s.queues, Keeps (P none) (Device.terminateStream q.stream) :=
  (h.licensed hid hs).imp_right fun hmay q hq => h.toStreaming.terminateStream (hmay.1 q hq)

theorem dropSyncobj {id : Nat} (hid : l.submitter id) {s : Submitter} (ho : ∀ o ∈ s.syncobj, l.syncobj o) :
    Keeps (P none) (do
      match s.syncobj with
      | some o =>
        Device.destroySyncobj o
        Submitter.modify id fun s => { s with syncobj := none }
      | none => pure ()) := by
  split
  · rename_i o hsome
    exact keeps_bind (h.destroySyncobj o (ho o hsome)) fun _ =>
      h.trimSubmitter hid fun _ => ⟨fun _ hc => hc, List.Subset.refl _, fun _ ho => absurd ho (Option.not_mem_none _)⟩
  · exact keeps_pure ()

theorem destroySubmitter {id : Nat} (hid : l.submitter id) : Keeps (P none) (Submitter.destroy id) := by
  have hleaveQueues : Keeps (P none) (Submitter.modify id fun s => { s with vertex := none, fragment := none }) :=
    h.trimSubmitter hid fun _ => ⟨fun _ hc => hc, List.nil_subset _, fun _ ho => ho⟩
  have hleaveContext : Keeps (P none) (Submitter.modify id fun s => { s with context := none }) :=
    h.trimSubmitter hid fun _ => ⟨nofun, List.Subset.refl _, fun _ ho => ho⟩
  unfold Submitter.destroy
  refine keeps_bind (keeps_debug _ _) fun _ => keeps_bind (h.attending.setHeap id none) fun _ m =>
    keepsAt_bind (keeps_getSubmitter id m) fun s m₁ h₁ => ?_
  obtain ⟨_, hs, h₁⟩ := bind_getSubmitter_ok (f := pure) (by rw [bind_pure]; exact h₁)
  cases h₁
  rcases h.licensed hid hs with hany | ⟨hqueues, ho⟩
  · exact fun _ => hany _
  refine keeps_bind (h.attending.dropRings _) (fun _ =>
    keeps_bind (keeps_terminateQueues fun q hq => h.toStreaming.terminateStream (hqueues q hq)) fun _ =>
    keeps_bind hleaveQueues fun _ => ?_) m
  cases s.context with
  | none => exact h.dropSyncobj hid ho
  | some c =>
    exact keeps_bind (h.destroyContext _) fun _ =>
      keeps_bind hleaveContext fun _ => h.dropSyncobj hid ho

theorem createSubmitter (hbinding : l.binding) (ringSize : UInt32) :
    Keeps (P none) (Submitter.create ringSize) := by
  have hqueue {id : Nat} {set : Queue → Submitter → Submitter} (ctx : Nat) (label : String) (hid : l.submitter id)
      (hset : ∀ (q : Queue) (s : Submitter), s.Gains q (set q s)) :
      Keeps (P none) (Submitter.orDestroy id (Submitter.createQueue ctx ringSize label) >>= fun q =>
        Submitter.modify id (set q)) :=
    keeps_orDestroy_bind (h.attending.createQueue (h.bindStream hbinding ctx) _ _)
      (h.seatQueue _ _ _ hbinding hid hset) (h.destroySubmitter hid)
  have hqueues (id ctx : Nat) (hid : l.submitter id) : Keeps (P none) (Submitter.createQueues id ctx ringSize) := by
    rw [Submitter.createQueues_eq]
    exact keeps_bind (hqueue ctx _ hid fun q s => ⟨rfl, by simp [Submitter.queues], rfl⟩) fun _ =>
      hqueue ctx _ hid fun q s => ⟨rfl, by simp [Submitter.queues], rfl⟩
  unfold Submitter.create
  refine keeps_bind (keeps_debug _ _) fun _ => keeps_bind keeps_device fun d => ?_
  split
  · exact h.enlistJobs
  · refine keeps_bind_except (keeps_attempt (h.createContext hbinding)) (fun ctx => h.enlist rfl rfl fun id hid =>
      keeps_bind (hqueues id ctx hid) fun _ => ?_) fun _ => keeps_fail _
    have hsplit : (do
        let o ← Device.createSyncobj
        Submitter.modify id fun s => { s with syncobj := some o }
        return id : Op κ Nat) =
        (Device.createSyncobj >>= fun o => Submitter.modify id fun s => { s with syncobj := some o }) >>= fun _ =>
          pure id := by
      simp only [bind_assoc]
    rw [hsplit]
    exact keeps_bind (h.seatSyncobj hid) fun _ => keeps_pure id

theorem reset {id : Nat} (hid : l.submitter id) : Keeps (P none) (Submitter.reset id) :=
  h.attending.recovering.reset (h.editSubmitter id fun _ => rfl) h.recreateContext fun hs =>
    h.terminateLicensed hid hs

theorem submit {id : Nat} (hsubmitting : l.submitting) (hid : l.submitter id) (batch : Nat)
    (vertexInsert fragmentInsert : UInt64) :
    Keeps (P none) (Submitter.submit id batch vertexInsert fragmentInsert) := by
  refine fun m => keepsAt_submit (fun _ => h.collect hsubmitting hid) (fun hs => ?_) h.toStreaming.waitStream
    (h.reset hid) vertexInsert fragmentInsert
  exact (h.licensed hid hs).imp_right fun hmay q hq insert activity =>
    h.toStreaming.submitQueue (hmay.1 q hq) hmay.2 insert activity

end Operating

end Mali
