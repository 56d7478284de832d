import Mali.Proofs.Holders
import Mali.Proofs.Searches

/-!
# What leaves every holder alone

Only references, batches and submission contexts change what is held on to.  Waits and the search for a buffer leave
the counts alone, and so does everything that goes on with contexts, streams and syncobjs: buffers come and go that
nobody has a reference to.

* `Unstirred`: the counts stay as they are, and so does what batches and submission contexts hold on to.
* `keeps_submitJob_of`, `keeps_retireAtom_of`: an atom changes neither the kind of a device nor its streams.
* `unstirred_finish`, `unstirred_beginRelease` and the like: a release counts nothing but what it waits for.
* `proceeding_unstirred`, `streaming_unstirred`: waits, the search for a buffer, and streams.
-/

namespace Mali

open Op

variable {κ : Type}

/-! ## Nothing disturbed -/

/-- The handle and the count of a buffer. -/
def Buffer.tag (b : Buffer) : Nat × Int32 := (b.handle, b.refs)

/-- The counts stay as they are, and so does what batches and submission contexts hold on to.  New buffers have no
references. -/
structure Unstirred (m m' : Machine κ) : Prop where
  tags : ∃ new, m'.allocator.buffers.map Buffer.tag = m.allocator.buffers.map Buffer.tag ++ new ∧
    ∀ t ∈ new, t.2 = 0
  batches : m'.batches.map Batch.set = m.batches.map Batch.set
  submitters : m'.submitters.map Submitter.post = m.submitters.map Submitter.post

namespace Unstirred

variable {m m₁ m' : Machine κ}

theorem of_tags (ha : m'.allocator.buffers.map Buffer.tag = m.allocator.buffers.map Buffer.tag)
    (hb : m'.batches.map Batch.set = m.batches.map Batch.set)
    (hs : m'.submitters.map Submitter.post = m.submitters.map Submitter.post) : Unstirred m m' :=
  ⟨⟨[], by rw [ha, List.append_nil], List.forall_mem_nil _⟩, hb, hs⟩

theorem trans (h : Unstirred m m₁) (h' : Unstirred m₁ m') : Unstirred m m' := by
  obtain ⟨new, htags, hnew⟩ := h.tags
  obtain ⟨new', htags', hnew'⟩ := h'.tags
  refine ⟨⟨new ++ new', ?_, List.forall_mem_append.mpr ⟨hnew, hnew'⟩⟩, h'.batches.trans h.batches,
    h'.submitters.trans h.submitters⟩
  rw [htags', htags, List.append_assoc]

instance : Journey (Unstirred (κ := κ)) where
  refl _ := of_tags rfl rfl rfl
  trans := trans

instance : Inward (Unstirred (κ := κ)) where
  of_eq _ ha hs hb := of_tags (by rw [ha]) (by rw [hb]) (by rw [hs])

instance : Slotless (Unstirred (κ := κ)) where
  of_pace _ _ _ := of_tags rfl rfl rfl

/-- A new buffer has no references. -/
theorem of_append {b : Buffer} (hrefs : b.refs = 0) (ha : m'.allocator.buffers = m.allocator.buffers ++ [b])
    (hb : m'.batches = m.batches) (hs : m'.submitters = m.submitters) : Unstirred m m' := by
  refine ⟨⟨[b.tag], ?_, List.forall_mem_singleton.mpr hrefs⟩, by rw [hb], by rw [hs]⟩
  rw [ha, List.map_append]
  rfl

theorem refs (h : Unstirred m m') (x : Nat) : m'.refs x = m.refs x := by
  obtain ⟨new, htags, hnew⟩ := h.tags
  have hof (m : Machine κ) : m.refs x = (((m.allocator.buffers.map Buffer.tag)[x]?).map (·.2)).getD 0 := by
    rw [Machine.refs, List.getElem?_map, Option.map_map]
    rfl
  rw [hof, hof, htags]
  rcases Nat.lt_or_ge x (m.allocator.buffers.map Buffer.tag).length with hlt | hge
  · rw [List.getElem?_append_left hlt]
  · rw [List.getElem?_append_right hge, List.getElem?_eq_none hge]
    cases hx : new[x - (m.allocator.buffers.map Buffer.tag).length]? with
    | none => rfl
    | some t => exact hnew t (List.mem_of_getElem? hx)

theorem handles (h : Unstirred m m') : ∃ new, m'.allocator.handles = m.allocator.handles ++ new := by
  obtain ⟨new, htags, -⟩ := h.tags
  have hof (a : Allocator) : a.handles = (a.buffers.map Buffer.tag).map (·.1) := by
    rw [Allocator.handles, List.map_map]
    rfl
  exact ⟨new.map (·.1), by rw [hof, hof, htags, List.map_append]⟩

end Unstirred

/-! ## Parts -/

section Unstirred

theorem unstirred_editAllocator {f : Allocator → Allocator} (hf : ∀ a, (f a).buffers = a.buffers) :
    Keeps (Unstirred (κ := κ)) (modifyAllocator f) :=
  keeps_modify fun m => .of_tags (congrArg (List.map Buffer.tag) (hf m.allocator)) rfl rfl

theorem unstirred_editBuffer (x : Nat) {f : Buffer → Buffer} (hf : ∀ b, (f b).tag = b.tag) :
    Keeps (Unstirred (κ := κ)) (modifyBuffer x f) :=
  keeps_modify fun m => .of_tags (map_modify_eq Buffer.tag hf m.allocator.buffers x) rfl rfl

theorem unstirred_modifyDevice (f : Device → Device) : Keeps (Unstirred (κ := κ)) (modifyDevice f) :=
  keeps_modify fun _ => .of_tags rfl rfl rfl

theorem unstirred_editBatch (id : Nat) {f : Batch → Batch} (hf : ∀ b, (f b).set = b.set) :
    Keeps (Unstirred (κ := κ)) (Batch.modify id f) :=
  fun m _ => .of_tags rfl (map_modify_eq Batch.set hf m.batches id) rfl

theorem unstirred_editSubmitter (id : Nat) {f : Submitter → Submitter} (hf : ∀ s, (f s).post = s.post) :
    Keeps (Unstirred (κ := κ)) (Submitter.modify id f) :=
  fun m _ => .of_tags rfl rfl (map_modify_eq Submitter.post hf m.submitters id)

theorem unstirred_write (name : String) (b : Buffer) (fd : Int) (imported : Option (Int × Bool)) :
    Keeps (Unstirred (κ := κ)) (Allocator.write name b fd imported) :=
  keeps_write_of (fun _ => unstirred_editAllocator fun _ => rfl) name b fd imported

theorem unstirred_writeHandle (name : String) (b : Buffer) :
    Keeps (Unstirred (κ := κ)) (Allocator.writeHandle name b) := keeps_writeHandle_of fun _ => unstirred_write _ _ _ _

theorem unstirred_uncache (x : Nat) : Keeps (Unstirred (κ := κ)) (Allocator.uncache x) :=
  keeps_uncache_of (fun _ => unstirred_editAllocator fun _ => rfl) (unstirred_editBuffer x fun _ => rfl)

theorem unstirred_reuse (x : Nat) (label : String) : Keeps (Unstirred (κ := κ)) (Allocator.reuse x label) :=
  keeps_reuse_of (unstirred_uncache x) (unstirred_editBuffer x fun _ => rfl) (unstirred_editAllocator fun _ => rfl)

theorem unstirred_allocHandle (va : UInt64) (fd : Int) : Keeps (Unstirred (κ := κ)) (Device.allocHandle va fd) :=
  keeps_allocHandle_of (fun _ => unstirred_modifyDevice _) va fd

section Kernel

variable [Kernel κ]

/-! ### Atoms -/

section Atoms

variable {R : Machine κ → Machine κ → Prop} [Inward R]
  (hedit : ∀ {f : Device → Device}, (∀ d, (f d).generation = d.generation) → (∀ d, (f d).streams = d.streams) →
    Keeps R (modifyDevice f))
include hedit

omit [Kernel κ] in
/-- An atom that lands changes neither the kind of a device nor its streams. -/
theorem keeps_retireAtom_of (atom : UInt8) : Keeps R (Device.retireAtom atom) := by
  unfold Device.retireAtom
  refine keeps_bind keeps_device fun d => ?_
  split
  · exact keeps_violate _
  · exact hedit (fun _ => rfl) fun _ => rfl

omit [Kernel κ] in
theorem keeps_recordAtom_of (number : UInt8) (slot : JobSlot) (handles : List Int) (d : Device) : Keeps R (do
    modifyDevice fun d => { d with inFlight := d.inFlight ++ [(number, handles)] }
    match d.handles.markUsed handles slot number with
    | .error c => violate (.root c)
    | .ok m =>
      Device.setHandles m.table
      return m) := by
  refine keeps_bind (hedit (fun _ => rfl) fun _ => rfl) fun _ => ?_
  split
  · exact keeps_violate _
  · exact keeps_bind (hedit (fun _ => rfl) fun _ => rfl) fun _ => keeps_pure _

omit [Kernel κ] in
theorem keeps_markAtom_of (number : UInt8) (slot : JobSlot) (handles : List Int) :
    Keeps R (Device.markAtom number slot handles) := by
  unfold Device.markAtom
  refine keeps_bind keeps_device fun d => ?_
  dsimp only
  split
  · exact keeps_bind (keeps_violate _) fun _ => keeps_recordAtom_of hedit number slot handles d
  · exact keeps_recordAtom_of hedit number slot handles d

/-- Nor does one that takes off. -/
theorem keeps_submitJob_of (va : UInt64) (requirements : UInt32) (o : Option Nat) (handles : List Int) :
    Keeps R (Device.submitJob va requirements o handles) := by
  have hnext : Keeps R Device.nextAtom :=
    keeps_bind keeps_device fun _ => keeps_bind (hedit (fun _ => rfl) fun _ => rfl) fun _ => keeps_pure _
  have hfence (slot : UInt32) (value : UInt64) : Keeps R (Device.fenceSyncobj o slot value) := by
    cases o with
    | none => exact keeps_pure ()
    | some id => exact hedit (fun _ => rfl) fun _ => rfl
  have hslot (i : Int) (n : UInt64) : Keeps R (Device.submitSlot i n) :=
    keeps_bind (keeps_slot i) fun _ => hedit (fun _ => rfl) fun _ => rfl
  unfold Device.submitJob
  refine keeps_bind (keeps_debug _ _) fun _ => keeps_bind hnext fun n =>
    keeps_bind (keeps_markAtom_of hedit _ _ _) fun m => keeps_bind (hslot _ _) fun _ =>
    keeps_bind (hfence _ _) fun _ => keeps_bind (keeps_trace _ _) fun _ =>
    keeps_bind (keeps_attempt (keeps_submitAtom _)) fun r => ?_
  cases r with
  | ok _ => exact keeps_pure _
  | error f => exact keeps_bind (keeps_retireAtom_of hedit _) fun _ => keeps_fail f

end Atoms

/-! ### Releases -/

theorem unstirred_freeHandle (handle : Int) : Keeps (Unstirred (κ := κ)) (Device.freeHandle handle) :=
  keeps_freeHandle_of (fun _ => unstirred_modifyDevice _) handle

theorem unstirred_free (x : Nat) : Keeps (Unstirred (κ := κ)) (Allocator.free x) := by
  have hunmap : Keeps (Unstirred (κ := κ)) (Allocator.unmapBuffer x) :=
    keeps_unmapBuffer_of (unstirred_editBuffer x fun _ => rfl)
  unfold Allocator.free
  exact keeps_bind (keeps_buffer x) fun b => keeps_bind (unstirred_writeHandle _ b) fun _ => keeps_bind hunmap fun _ =>
    keeps_bind (keeps_freeBufferRegion x) fun _ => keeps_bind (unstirred_editAllocator fun _ => rfl) fun _ =>
    keeps_bind (unstirred_freeHandle _) fun _ => keeps_bind (unstirred_editBuffer x fun _ => rfl) fun _ =>
    unstirred_editAllocator fun _ => rfl

theorem unstirred_evict (x : Nat) : Keeps (Unstirred (κ := κ)) (Allocator.evict x) :=
  keeps_bind (unstirred_uncache x) fun _ => keeps_bind (unstirred_editAllocator fun _ => rfl) fun _ => unstirred_free x

theorem unstirred_finish (x : Nat) : Keeps (Unstirred (κ := κ)) (Allocator.finish x) :=
  have henter : Keeps (Unstirred (κ := κ)) (Allocator.enterCache x) :=
    keeps_enterCache_of (fun _ => unstirred_editAllocator fun _ => rfl)
      fun _ _ _ => unstirred_editBuffer x fun _ => rfl
  keeps_finish_of henter (keeps_evictOld unstirred_evict) (unstirred_editBuffer x fun _ => rfl) (keeps_markUnused x)
    (unstirred_free x)

theorem unstirred_runCallback (c : Callback) : Keeps (Unstirred (κ := κ)) (Device.runCallback c) :=
  keeps_runCallback_of keeps_reportCallback (fun x => keeps_queueDrained_of unstirred_writeHandle (unstirred_finish x)
    (unstirred_editBuffer x fun _ => rfl)) c

theorem unstirred_runCallbacks (cs : List Callback) : Keeps (Unstirred (κ := κ)) (Device.runCallbacks cs) :=
  keeps_runCallbacks_of unstirred_runCallback cs

theorem unstirred_beginRelease (x : Nat) : Keeps (Unstirred (κ := κ)) (Buffer.beginRelease x) :=
  keeps_beginRelease_of unstirred_writeHandle (unstirred_finish x) (unstirred_editBuffer x fun _ => rfl)
    (keeps_callbackAll _) fun _ => unstirred_editBuffer x fun _ => rfl

/-! ### Streams -/

theorem unstirred_handleEvents : Keeps (Unstirred (κ := κ)) Device.handleEvents :=
  keeps_handleEvents (fun atom => keeps_retireAtom_of (fun _ _ => unstirred_modifyDevice _) atom) unstirred_runCallback

theorem polling_unstirred : Polling (κ := κ) (Keeps Unstirred) where
  pure := keeps_pure
  bind := keeps_bind
  device := keeps_device
  now := keeps_now
  call c _ _ := keeps_call c
  error := keeps_error
  modify f _ := unstirred_modifyDevice f
  handleEvents := unstirred_handleEvents

omit [Kernel κ] in
theorem unstirred_wrapRegion (region : Region) (size : Int64) (flags : UInt32) (label : String) :
    Keeps (Unstirred (κ := κ)) (Allocator.wrapRegion region size flags label) :=
  keeps_bind keeps_allocator fun _ => keeps_bind (unstirred_allocHandle _ _) fun _ =>
    keeps_bind keeps_allocator fun _ => keeps_bind (keeps_modify fun _ => .of_append rfl rfl rfl rfl) fun _ =>
    keeps_pure _

theorem proceeding_unstirred : Proceeding fun _ => Unstirred (κ := κ) where
  next := Unstirred.trans
  editDevice _ _ _ _ _ := unstirred_modifyDevice _
  countMiss := unstirred_editAllocator fun _ => rfl
  evictOld := keeps_evictOld unstirred_evict
  evictBuckets := keeps_evictBuckets unstirred_evict
  handleEvents := unstirred_handleEvents
  isIdle x := keeps_isIdle polling_unstirred (unstirred_editBuffer x fun _ => rfl)
  reuse x label m _ _ he hr := (unstirred_reuse x label m).survives he hr
  allocate size flags label _ m _ _ he hr := by
    have hall : Keeps (Unstirred (κ := κ)) (Allocator.allocate size flags label) :=
      keeps_bind keeps_allocator fun _ => keeps_bind (keeps_alloc _ _ _) fun region =>
        keeps_bind (unstirred_wrapRegion region _ _ _) fun _ =>
        keeps_bind (unstirred_editAllocator fun _ => rfl) fun _ => keeps_pure _
    exact (hall m).survives he hr

theorem unstirred_createContext : Keeps (Unstirred (κ := κ)) Device.createContext :=
  keeps_createContext_of fun _ => unstirred_modifyDevice _

theorem unstirred_recreateContext (id : Nat) : Keeps (Unstirred (κ := κ)) (Device.recreateContext id) :=
  keeps_recreateContext_of fun _ => unstirred_modifyDevice _

omit [Kernel κ] in
theorem unstirred_attachStream (s : Stream) : Keeps (Unstirred (κ := κ)) (Device.attachStream s) :=
  keeps_attachStream_of (fun _ => unstirred_modifyDevice _) s

theorem unstirred_bindStream (ctx : Nat) (va : UInt64) (size : UInt32) :
    Keeps (Unstirred (κ := κ)) (Device.bindStream ctx va size) :=
  keeps_bindStream_of (unstirred_modifyDevice _) (fun _ => unstirred_modifyDevice _) va size

theorem unstirred_unmapStream (id : Nat) : Keeps (Unstirred (κ := κ)) (Device.unmapStream id) :=
  keeps_unmapStream_of (unstirred_modifyDevice _)

omit [Kernel κ] in
theorem unstirred_collect (id batch : Nat) : Keeps (Unstirred (κ := κ)) (Submitter.collect id batch) := by
  refine keeps_collect_of (fun _ y _ => keeps_bind (keeps_buffer y) fun _ =>
    keeps_bind (unstirred_editBuffer y fun _ => rfl) fun _ => keeps_pure _)
    (fun k {f} hf => unstirred_editBatch k fun b => ?_) (fun _ k => ?_) id batch
  · exact congrArg (fun c => (c.1, c.2.1)) (hf b)
  · refine keeps_bind (keeps_getBatch k) fun b => unstirred_editSubmitter _ fun s => ?_
    unfold Submitter.post
    cases s.vertex <;> cases s.fragment <;> cases b.hasFragment <;> rfl

theorem streaming_unstirred : Streaming .full fun _ => Unstirred (κ := κ) where
  toProceeding := proceeding_unstirred
  createContext _ := unstirred_createContext
  destroyContext _ := keeps_destroyContext_of fun _ => unstirred_modifyDevice _
  recreateContext := unstirred_recreateContext
  bindStream _ := unstirred_bindStream
  rebindStream _ := keeps_rebindStream_of fun _ => unstirred_modifyDevice _
  unmapStream := unstirred_unmapStream
  clearSlot _ _ := keeps_bind (keeps_clearSlot _) (fun cs => unstirred_runCallbacks cs) _
  submitSlot _ _ _ := keeps_submitSlot _ _ _
  createSyncobj := keeps_bind keeps_device fun _ => keeps_bind (unstirred_modifyDevice _) fun _ => keeps_pure _
  pruneSyncobj _ := unstirred_modifyDevice _
  fenceSyncobj _ _ _ _ := unstirred_modifyDevice _
  destroySyncobj _ _ := unstirred_modifyDevice _
  advance i n := keeps_bind (keeps_advanceSlot i n) fun cs => unstirred_runCallbacks cs
  updateCallbacks i n := keeps_bind (keeps_takeCallbacks i n) fun cs => unstirred_runCallbacks cs
  collect _ _ _ _ := unstirred_collect _ _ _

end Kernel

end Unstirred

end Mali
