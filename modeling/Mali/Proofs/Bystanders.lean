import Mali.Proofs.Submitters
import Mali.Proofs.Transfers

/-!
# What leaves the contexts alone

A context owns at most one queue group, one tiler heap and one processor queue.  Six requests make and end these,
and only making, emptying and refilling a context and the first command of a processor queue issue them.  Everything
else that is done with buffers, streams and syncobjs stands by: it issues none of the six, leaves every context what
it owns, and leaves every submission context its context.

* `Context.owned`: what the fields of a context name.
* `Bystands`: an operation that stands by on a command stream device.
* `polling_bystands`, `bystands_create`, `bystands_terminateStream` and the like: the operations that do.
* `attending_bystands`: what a submission context asks of buffers and of its streams.
-/

namespace Mali

open Op

variable {κ α : Type}

/-- What a context owns: at most one object of each kind. -/
structure Owned where
  group : Option UInt8 := none
  heap : Option UInt64 := none
  cpuQueue : Option UInt8 := none
  deriving DecidableEq, Repr

/-- What the fields of a context name. -/
def Context.owned (c : Context) : Owned where
  group := if c.uid = 0 then none else some c.group
  heap := if c.heapVa = 0 then none else some c.heapVa
  cpuQueue := c.cpuQueue

/-! ## Standing by -/

/-- Nothing that contexts own is made or ended, and every submission context keeps its context. -/
structure StandsBy (m m' : Machine κ) : Prop where
  generation : m'.device.generation = m.device.generation
  owned : m'.device.contexts.map Context.owned = m.device.contexts.map Context.owned
  contexts : m'.submitters.map (·.context) = m.submitters.map (·.context)
  calls : ∃ cs, m'.calls = cs ++ m.calls ∧ ∀ r ∈ cs, r.call.concernsObject = false

/-- On a command stream device an operation stands by. -/
def Bystands (m m' : Machine κ) : Prop := m.device.generation = .csf → StandsBy m m'

namespace StandsBy

variable {m m₁ m₂ : Machine κ}

theorem of_same (hg : m₁.device.generation = m.device.generation) (hc : m₁.device.contexts = m.device.contexts)
    (hs : m₁.submitters = m.submitters) (hcalls : m₁.calls = m.calls) : StandsBy m m₁ :=
  ⟨hg, by rw [hc], by rw [hs], [], hcalls, fun _ hr => nomatch hr⟩

theorem trans (h : StandsBy m m₁) (h' : StandsBy m₁ m₂) : StandsBy m m₂ := by
  obtain ⟨cs, hcs, hnone⟩ := h.calls
  obtain ⟨cs', hcs', hnone'⟩ := h'.calls
  refine ⟨h'.generation.trans h.generation, h'.owned.trans h.owned, h'.contexts.trans h.contexts, cs' ++ cs, ?_,
    fun r hr => ?_⟩
  · rw [hcs', hcs, List.append_assoc]
  · exact (List.mem_append.mp hr).elim (hnone' r) (hnone r)

end StandsBy

namespace Bystands

variable {m m' : Machine κ}

theorem of_same (hg : m'.device.generation = m.device.generation) (hc : m'.device.contexts = m.device.contexts)
    (hs : m'.submitters = m.submitters) (hcalls : m'.calls = m.calls) : Bystands m m' :=
  fun _ => .of_same hg hc hs hcalls

instance : Journey (Bystands (κ := κ)) where
  refl _ := of_same rfl rfl rfl rfl
  trans h h' hm := (h hm).trans (h' ((h hm).generation.trans hm))

instance : OfTrace (Bystands (κ := κ)) where
  of_trace _ hcalls hd _ hs _ := of_same (congrArg Device.generation hd) (congrArg Device.contexts hd) hs hcalls

instance : Domestic (Bystands (κ := κ)) where
  of_domestic _ hcalls _ hd _ _ hs := of_same (congrArg Device.generation hd) (congrArg Device.contexts hd) hs hcalls

instance : Slotless (Bystands (κ := κ)) where
  of_pace _ _ _ := of_same rfl rfl rfl rfl

theorem of_call [Kernel κ] {c : Syscall} (hc : c.concernsObject = false) : Keeps (Bystands (κ := κ)) (call c) :=
  fun _ _ _ => ⟨rfl, rfl, rfl, [_], rfl, fun _ hr => by rw [List.mem_singleton.mp hr]; exact hc⟩

instance [Kernel κ] : Asks (Bystands (κ := κ)) where
  of_asking _ _ hc := of_call hc

instance [Kernel κ] : Remaps (Bystands (κ := κ)) where
  of_mmap _ _ _ _ _ := of_call rfl
  of_munmap _ := of_call rfl

instance [Kernel κ] : Closes (Bystands (κ := κ)) where
  of_close _ := of_call rfl

end Bystands

/-! ## Changes of a machine -/

theorem bystands_modifyAllocator (f : Allocator → Allocator) : Keeps (Bystands (κ := κ)) (modifyAllocator f) :=
  keeps_modify fun _ => .of_same rfl rfl rfl rfl

theorem bystands_modifyBuffer (x : Nat) (f : Buffer → Buffer) : Keeps (Bystands (κ := κ)) (modifyBuffer x f) :=
  bystands_modifyAllocator _

theorem bystands_addBuffer (b : Buffer) : Keeps (Bystands (κ := κ)) (Allocator.addBuffer b) :=
  keeps_bind keeps_allocator fun _ => keeps_bind (bystands_modifyAllocator _) fun _ => keeps_pure _

/-- A change of a device that leaves the contexts alone. -/
theorem bystands_modifyDevice {f : Device → Device} (hg : ∀ d, (f d).generation = d.generation)
    (hc : ∀ d, (f d).contexts = d.contexts) : Keeps (Bystands (κ := κ)) (modifyDevice f) :=
  keeps_modify fun m => .of_same (hg m.device) (hc m.device) rfl rfl

/-- A change of a context that owns as much afterwards. -/
theorem bystands_modifyContext (c : Nat) {f : Context → Context} (hf : ∀ x, (f x).owned = x.owned) :
    Keeps (Bystands (κ := κ)) (Device.modifyContext c f) :=
  keeps_modify fun m _ => ⟨rfl, map_modify_eq Context.owned hf m.device.contexts c, rfl, [], rfl,
    fun _ hr => nomatch hr⟩

theorem bystands_modifyStream (s : Nat) (f : Stream → Stream) : Keeps (Bystands (κ := κ)) (Device.modifyStream s f) :=
  bystands_modifyDevice (fun _ => rfl) fun _ => rfl

theorem bystands_modifySubmitter (id : Nat) {f : Submitter → Submitter} (hf : ∀ s, (f s).context = s.context) :
    Keeps (Bystands (κ := κ)) (Submitter.modify id f) :=
  keeps_modify fun m _ => ⟨rfl, rfl, map_modify_eq (·.context) hf m.submitters id, [], rfl, fun _ hr => nomatch hr⟩

variable [Kernel κ]

/-! ## Freeing -/

theorem bystands_freeHandle (handle : Int) : Keeps (Bystands (κ := κ)) (Device.freeHandle handle) :=
  keeps_freeHandle_of (fun _ => bystands_modifyDevice (fun _ => rfl) fun _ => rfl) handle

theorem bystands_free (x : Nat) : Keeps (Bystands (κ := κ)) (Allocator.free x) := by
  have hunmap : Keeps (Bystands (κ := κ)) (Allocator.unmapBuffer x) :=
    keeps_unmapBuffer_of (bystands_modifyBuffer x _)
  unfold Allocator.free
  exact keeps_bind (keeps_buffer x) fun b => keeps_bind (keeps_writeHandle _ b) fun _ => keeps_bind hunmap fun _ =>
    keeps_bind (keeps_freeBufferRegion x) fun _ => keeps_bind (bystands_modifyAllocator _) fun _ =>
    keeps_bind (bystands_freeHandle _) fun _ => keeps_bind (bystands_modifyBuffer x _) fun _ =>
    bystands_modifyAllocator _

theorem bystands_unreference (x : Nat) : Keeps (Bystands (κ := κ)) (Buffer.unreference x) :=
  keeps_unreference bystands_free x

theorem bystands_evictAll : Keeps (Bystands (κ := κ)) Allocator.evictAll :=
  keeps_bind keeps_requireAllocator fun _ => keeps_bind (keeps_debug _ _) fun _ => keeps_bind keeps_allocator fun _ =>
    keeps_evictBuckets (keeps_evict bystands_free) _

/-! ## Events and waits -/

theorem bystands_handleEvents : Keeps (Bystands (κ := κ)) Device.handleEvents := by
  intro m hs hm
  rw [exec_handleEvents_of_csf hm] at hs ⊢
  exact keeps_handleStreamEvents (R := Bystands) bystands_free m hs hm

theorem polling_bystands : Polling (κ := κ) (Keeps Bystands) where
  pure := keeps_pure
  bind := keeps_bind
  device := keeps_device
  now := keeps_now
  call _ _ hc := .of_call hc
  error := keeps_error
  modify f hf := by
    refine keeps_modify fun m => ?_
    obtain ⟨_, _, _, _, hd⟩ := hf m.device
    exact .of_same (show (f m.device).generation = _ by rw [hd]) (show (f m.device).contexts = _ by rw [hd]) rfl rfl
  handleEvents := bystands_handleEvents

/-! ## Creating -/

theorem bystands_allocate (size : Int64) (flags : UInt32) (label : String) :
    Keeps (Bystands (κ := κ)) (Allocator.allocate size flags label) := by
  have hhandle (va : UInt64) (fd : Int) : Keeps (Bystands (κ := κ)) (Device.allocHandle va fd) :=
    keeps_allocHandle_of (fun _ => bystands_modifyDevice (fun _ => rfl) fun _ => rfl) va fd
  have hwrap (region : Region) : Keeps (Bystands (κ := κ)) (Allocator.wrapRegion region size flags label) :=
    keeps_bind keeps_allocator fun _ => keeps_bind (hhandle _ _) fun _ => bystands_addBuffer _
  exact keeps_bind keeps_allocator fun _ => keeps_bind (keeps_alloc _ _ _) fun region =>
    keeps_bind (hwrap region) fun _ => keeps_bind (bystands_modifyAllocator _) fun _ => keeps_pure _

/-- On a command stream device a cached buffer is always idle. -/
theorem bystands_isIdle (x : Nat) (patient : Bool) : Keeps (Bystands (κ := κ)) (Allocator.isIdle x patient) := by
  intro m _ hm
  rw [exec_isIdle_of_csf hm]
  exact Journey.refl (R := Bystands) m hm

theorem bystands_fetch (size : Int64) (flags : UInt32) (label : String) (patient : Bool) :
    Keeps (Bystands (κ := κ)) (Allocator.fetch size flags label patient) := by
  have hfrom (entries : List Nat) :
      Keeps (Bystands (κ := κ)) (Allocator.fetchFrom size flags label patient entries) := by
    induction entries with
    | nil => exact keeps_pure none
    | cons entry rest ih =>
      unfold Allocator.fetchFrom
      refine keeps_bind (keeps_cachedBuffer entry) fun x => keeps_bind (keeps_buffer x) fun b => ?_
      split
      · exact ih
      · refine keeps_bind (bystands_isIdle x patient) fun idle => ?_
        split
        · exact keeps_bind (keeps_reuse x label) fun _ => keeps_pure _
        · exact keeps_pure none
  exact keeps_bind keeps_allocator fun _ => hfrom _

theorem bystands_retry (size : Int64) (flags : UInt32) (label : String) (fuel : Nat) (b : Backoff) :
    Keeps (Bystands (κ := κ)) (Allocator.retry size flags label fuel b) := by
  have hagain : Keeps (Bystands (κ := κ)) (attempt (Allocator.attemptAgain size flags label)) :=
    keeps_attempt (keeps_bind polling_bystands.pass fun _ => keeps_bind bystands_evictAll fun _ =>
      bystands_allocate _ _ _)
  induction fuel generalizing b with
  | zero => exact hagain
  | succ fuel ih =>
    unfold Allocator.retry
    refine keeps_bind_except hagain (fun _ => keeps_pure _) fun f => ?_
    dsimp only
    split
    · exact keeps_pure _
    · exact keeps_bind (polling_bystands.pause _) fun _ => ih _

theorem bystands_create (size : Int64) (flags : UInt32) (label : String) :
    Keeps (Bystands (κ := κ)) (Allocator.create size flags label) := by
  have hobtain (size : Int64) : Keeps (Bystands (κ := κ)) (Allocator.obtain size flags label) :=
    keeps_bind_option (bystands_fetch _ _ _ _)
      (keeps_bind (bystands_modifyAllocator _) fun _ =>
        keeps_bind_except (keeps_attempt (bystands_allocate _ _ _)) (fun _ => keeps_pure _) fun _ =>
        keeps_bind_option (bystands_fetch _ _ _ _) (bystands_retry _ _ _ _ _) fun _ => keeps_pure _)
      fun _ => keeps_pure _
  unfold Allocator.create
  refine keeps_bind keeps_requireAllocator fun _ => keeps_bind (keeps_debug _ _) fun _ => ?_
  split
  · exact keeps_fail _
  · exact keeps_bind_except (hobtain _) (fun x => keeps_bind (keeps_handOut x) fun _ => keeps_pure x)
      fun _ => keeps_bind (keeps_error _ _) fun _ => keeps_fail _

/-! ## Streams and syncobjs -/

theorem bystands_bindStream (c : Nat) (va : UInt64) (size : UInt32) :
    Keeps (Bystands (κ := κ)) (Device.bindStream c va size) :=
  keeps_bindStream_of (bystands_modifyContext c fun _ => rfl)
    (fun _ => bystands_modifyDevice (fun _ => rfl) fun _ => rfl) va size

theorem bystands_unmapStream (id : Nat) : Keeps (Bystands (κ := κ)) (Device.unmapStream id) :=
  keeps_unmapStream_of (bystands_modifyStream id _)

theorem bystands_terminateStream (id : Nat) : Keeps (Bystands (κ := κ)) (Device.terminateStream id) :=
  keeps_bind (keeps_debug _ _) fun _ => keeps_bind (bystands_unmapStream id) fun _ =>
    keeps_bind (keeps_stream id) fun _ =>
    keeps_bind (keeps_ignore (keeps_streamRequest_of (fun _ => .of_call rfl) _ _)) fun _ =>
    keeps_bind (keeps_clearSlot _) fun _ => keeps_runCallbacks bystands_free _

theorem bystands_rebindStream (id : Nat) : Keeps (Bystands (κ := κ)) (Device.rebindStream id) :=
  keeps_rebindStream_of fun _ => bystands_modifyStream id _

omit [Kernel κ] in
theorem bystands_createSyncobj : Keeps (Bystands (κ := κ)) Device.createSyncobj :=
  keeps_bind keeps_device fun _ => keeps_bind (bystands_modifyDevice (fun _ => rfl) fun _ => rfl) fun _ => keeps_pure _

theorem bystands_terminateQueues (qs : List Queue) : Keeps (Bystands (κ := κ)) (Submitter.terminateQueues qs) :=
  keeps_terminateQueues fun _ _ => bystands_terminateStream _

theorem attending_bystands : Attending (Bystands (κ := κ)) where
  modify id _ hf := bystands_modifySubmitter id fun s => congrArg Prod.fst (hf s)
  reference := keeps_reference
  unreference := bystands_unreference
  create := bystands_create
  rebind := bystands_rebindStream
  setLastInsert id _ := bystands_modifyStream id _
  advance i n := keeps_advance bystands_free i n

end Mali
