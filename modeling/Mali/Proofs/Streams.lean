import Mali.Proofs.Places
import Mali.Proofs.Waits

/-!
# Operations on streams

Binding a ring, submitting to it, terminating it and binding it again, as the callers of a device know
them: what each does to the slots and to the syncobjs.  Callbacks run on the way, but all they do to the
device is to give up handles.

A stream that is bound when every slot is taken shares the newest slot, and starts it over.

* `OnlyHandles`, `SameSyncobjs`: what callbacks leave alone.
* `Progress.next`, `Progress.join`: the slot of the next stream, and what it does to the slots.
* `Device.prepareRing`, `Device.bindStream_eq`: binding a stream up to the moment it gets a slot.
* `bindStream_ok`, `submitStream_ok`, `terminateStream_ok`, `advance_ok`: what the operations do.
-/

namespace Mali

open Op

variable {κ : Type}

/-! ## What callbacks leave alone -/

/-- The device stays as it is, apart from its handles. -/
def OnlyHandles (m m' : Machine κ) : Prop := ∃ t, m'.device = { m.device with handles := t }

theorem SameDevice.onlyHandles {m m' : Machine κ} (h : SameDevice m m') : OnlyHandles m m' :=
  ⟨m.device.handles, h⟩

instance : OfDevice (OnlyHandles (κ := κ)) where
  refl _ := ⟨_, rfl⟩
  trans h h' := by
    obtain ⟨t, ht⟩ := h
    obtain ⟨t', ht'⟩ := h'
    exact ⟨t', by rw [ht', ht]⟩
  of_device := SameDevice.onlyHandles

theorem OnlyHandles.progress {m m' : Machine κ} (h : OnlyHandles m m') : m'.progress = m.progress := by
  obtain ⟨t, ht⟩ := h
  rw [Machine.progress, ht]
  rfl

/-- The syncobjs stay as they are. -/
def SameSyncobjs (m m' : Machine κ) : Prop := m'.device.syncobjs = m.device.syncobjs

instance : OfDevice (SameSyncobjs (κ := κ)) where
  refl _ := rfl
  trans h h' := Eq.trans h' h
  of_device hd := congrArg Device.syncobjs hd

theorem OnlyHandles.syncobjs {m m' : Machine κ} (h : OnlyHandles m m') : SameSyncobjs m m' := by
  obtain ⟨t, ht⟩ := h
  rw [SameSyncobjs, ht]

/-- Collecting a batch leaves the device as it is. -/
theorem sameDevice_collect (id batch : Nat) : Keeps (SameDevice (κ := κ)) (Submitter.collect id batch) :=
  keeps_collect_of (fun _ y _ => keeps_bind (keeps_buffer y) fun _ => keeps_bind (fun _ _ => rfl) fun _ => keeps_pure _)
    (fun _ _ _ _ _ => rfl) (fun _ k => keeps_bind (keeps_getBatch k) fun _ _ _ => rfl) id batch

theorem sameSyncobjs_modifyDevice {f : Device → Device} (h : ∀ d, (f d).syncobjs = d.syncobjs) :
    Keeps (SameSyncobjs (κ := κ)) (modifyDevice f) := keeps_modify fun m => h m.device

theorem sameSyncobjs_setSlot (i : Nat) (s : EventSlot) :
    Keeps (SameSyncobjs (κ := κ)) (Device.setSlot i s) := sameSyncobjs_modifyDevice fun _ => rfl

theorem sameSyncobjs_modifyStream (id : Nat) (f : Stream → Stream) :
    Keeps (SameSyncobjs (κ := κ)) (Device.modifyStream id f) := sameSyncobjs_modifyDevice fun _ => rfl

section Kernel

variable [Kernel κ]

/-- Freeing a buffer changes the device where it frees the handle. -/
theorem keeps_free {R : Machine κ → Machine κ → Prop} [OfDriver R] [Tolerant R]
    (h : ∀ handle, Keeps R (Device.freeHandle handle)) (x : Nat) : Keeps R (Allocator.free x) := by
  unfold Allocator.free
  exact keeps_bind (keeps_buffer x) fun b => keeps_bind (keeps_writeHandle _ b) fun _ =>
    keeps_bind (keeps_unmapBuffer x) fun _ => keeps_bind (keeps_freeBufferRegion x) fun _ =>
    keeps_bind (keeps_modifyAllocator _) fun _ => keeps_bind (h _) fun _ =>
    keeps_bind (keeps_modifyBuffer x _) fun _ => keeps_modifyAllocator _

omit [Kernel κ] in
/-- A new buffer changes the device where it gets a handle. -/
theorem keeps_wrapRegion {R : Machine κ → Machine κ → Prop} [OfDriver R]
    (halloc : ∀ va, Keeps R (Device.allocHandle va noFd)) (region : Region) (size : Int64) (flags : UInt32)
    (label : String) : Keeps R (Allocator.wrapRegion region size flags label) := by
  unfold Allocator.wrapRegion
  exact keeps_bind keeps_allocator fun _ => keeps_bind (halloc _) fun _ => keeps_addBuffer _

section Freeing

variable {R : Machine κ → Machine κ → Prop} [Domestic R] (hfree : ∀ x, Keeps R (Allocator.free x))
include hfree

/-- What a release does inside the allocator keeps what freeing buffers keeps. -/
theorem keeps_evict (x : Nat) : Keeps R (Allocator.evict x) := by
  unfold Allocator.evict
  exact keeps_bind (keeps_uncache x) fun _ =>
    keeps_bind (keeps_editAllocator (fun _ => rfl) fun _ => rfl) fun _ => hfree x

theorem keeps_finish (x : Nat) : Keeps R (Allocator.finish x) :=
  keeps_finish_of (keeps_enterCache x) (keeps_evictOld (keeps_evict hfree)) (keeps_editBuffer x fun _ => rfl)
    (keeps_markUnused x) (hfree x)

theorem keeps_runCallback (c : Callback) : Keeps R (Device.runCallback c) :=
  keeps_runCallback_of keeps_reportCallback (fun x => keeps_queueDrained_of keeps_writeHandle (keeps_finish hfree x)
    (keeps_editBuffer x fun _ => rfl)) c

theorem keeps_runCallbacks (cs : List Callback) : Keeps R (Device.runCallbacks cs) :=
  keeps_runCallbacks_of (keeps_runCallback hfree) cs

variable [Ticking R]

theorem keeps_advance (i : Int) (n : UInt64) : Keeps R (Device.advance i n) :=
  keeps_bind (keeps_advanceSlot i n) fun cs => keeps_runCallbacks hfree cs

theorem keeps_handleStreamEvents [Asks R] : Keeps R Device.handleStreamEvents := by
  unfold Device.handleStreamEvents
  refine keeps_bind keeps_readNotification fun fine => keeps_bind keeps_device fun d => ?_
  split
  · exact keeps_pure fine
  · exact keeps_bind (keeps_advanceFromRecords _) fun cs =>
      keeps_bind (keeps_runCallbacks hfree cs) fun _ => keeps_pure fine

theorem keeps_unreference (x : Nat) : Keeps R (Buffer.unreference x) :=
  keeps_unreference_of (keeps_editBuffer x fun _ => rfl)
    (keeps_beginRelease_of keeps_writeHandle (keeps_finish hfree x) (keeps_editBuffer x fun _ => rfl)
      (keeps_callbackAll _) fun _ => keeps_editBuffer x fun _ => rfl)

end Freeing

theorem onlyHandles_freeHandle (handle : Int) : Keeps (OnlyHandles (κ := κ)) (Device.freeHandle handle) :=
  (faultless_freeHandle handle).keeps fun he => ⟨_, freeHandle_device he⟩

theorem onlyHandles_runCallbacks (cs : List Callback) :
    Keeps (OnlyHandles (κ := κ)) (Device.runCallbacks cs) := keeps_runCallbacks (keeps_free onlyHandles_freeHandle) cs

/-! ## Binding -/

omit [Kernel κ] in
theorem sameSyncobjs_attachStream (s : Stream) :
    Keeps (SameSyncobjs (κ := κ)) (Device.attachStream s) := by
  have htake : Keeps (SameSyncobjs (κ := κ)) Device.takeSlot := by
    have hend : Keeps (SameSyncobjs (κ := κ)) (do
        let n := (← device).bound
        modifyDevice fun d => { d with bound := d.bound + 1 }
        return n) :=
      keeps_bind keeps_device fun _ => keeps_bind (sameSyncobjs_modifyDevice fun _ => rfl) fun _ =>
        keeps_pure _
    unfold Device.takeSlot
    refine keeps_bind keeps_device fun d => ?_
    split
    · exact keeps_bind (keeps_error _ _) fun _ =>
        keeps_bind (sameSyncobjs_modifyDevice fun _ => rfl) fun _ => hend
    · exact keeps_bind (keeps_pure ()) fun _ => hend
  have hstart (i : Nat) : Keeps (SameSyncobjs (κ := κ)) (Device.startSlot i) := by
    unfold Device.startSlot
    exact keeps_bind keeps_device fun d => keeps_bind (keeps_setEventWord _ _) fun _ =>
      keeps_bind (keeps_setEventWord _ _) fun _ => keeps_bind (keeps_setEventWord _ _) fun _ =>
      keeps_bind (keeps_setEventWord _ _) fun _ => keeps_bind (keeps_slot _) fun s =>
      sameSyncobjs_modifyDevice fun _ => rfl
  unfold Device.attachStream
  exact keeps_bind htake fun i => keeps_bind (hstart i) fun _ => keeps_bind keeps_device fun d =>
    keeps_bind (sameSyncobjs_modifyDevice fun _ => rfl) fun _ => keeps_pure _

omit [Kernel κ] in
theorem faultless_attachStream (s : Stream) : Faultless (Device.attachStream s : Op κ Nat) := by
  have hword (offset : Int64) (value : UInt64) :
      Faultless (Device.setEventWord offset value : Op κ Unit) :=
    faultless_bind faultless_device fun d => faultless_bind (faultless_require _) fun _ =>
      faultless_modifyMemory _
  have hstart (i : Nat) : Faultless (Device.startSlot i : Op κ Unit) := by
    unfold Device.startSlot Device.slot
    exact faultless_bind faultless_device fun d => faultless_bind (hword _ _) fun _ =>
      faultless_bind (hword _ _) fun _ => faultless_bind (hword _ _) fun _ =>
      faultless_bind (hword _ _) fun _ =>
      faultless_bind (faultless_bind faultless_device fun d => faultless_require _) fun s =>
      faultless_modifyDevice _
  have htake : Faultless (Device.takeSlot : Op κ Nat) := by
    have hend : Faultless (do
        let n := (← device).bound
        modifyDevice fun d => { d with bound := d.bound + 1 }
        return n : Op κ Nat) :=
      faultless_bind faultless_device fun _ => faultless_bind (faultless_modifyDevice _) fun _ =>
        faultless_pure _
    unfold Device.takeSlot
    refine faultless_bind faultless_device fun d => ?_
    split
    · exact faultless_bind (faultless_error _ _) fun _ =>
        faultless_bind (faultless_modifyDevice _) fun _ => hend
    · exact hend
  unfold Device.attachStream
  exact faultless_bind htake fun i => faultless_bind (hstart i) fun _ =>
    faultless_bind faultless_device fun d => faultless_bind (faultless_modifyDevice _) fun _ =>
    faultless_pure _

/-- Everything that binding a stream does before the stream gets a slot. -/
def Device.prepareRing (ctx : Nat) (va : UInt64) (size : UInt32) : Op κ Stream := do
  debug "Device::CSBind"
  let c ← context ctx
  let s : Stream := { context := ctx, va, size, csi := c.interfaces }
  modifyContext ctx fun c => { c with interfaces := c.interfaces + 1 }
  let userIo ← bindRing s
  return { s with userIo := some userIo }

theorem Device.bindStream_eq (ctx : Nat) (va : UInt64) (size : UInt32) :
    (Device.bindStream ctx va size : Op κ Nat) =
      Device.prepareRing ctx va size >>= Device.attachStream := by
  unfold bindStream prepareRing
  simp only [bind_assoc, pure_bind]

/-- Up to there only the context counts another interface. -/
theorem keeps_prepareRing_of {R : Machine κ → Machine κ → Prop} [Asks R] [Remaps R] {ctx : Nat}
    (hcount : Keeps R (Device.modifyContext ctx fun c => { c with interfaces := c.interfaces + 1 })) (va : UInt64)
    (size : UInt32) : Keeps R (Device.prepareRing ctx va size) :=
  keeps_bind (keeps_debug _ _) fun _ => keeps_bind (keeps_context ctx) fun _ =>
    keeps_bind hcount fun _ => keeps_bind (keeps_bindRing _) fun _ => keeps_pure _

theorem quiet_prepareRing (ctx : Nat) (va : UInt64) (size : UInt32) :
    Keeps (Quiet (κ := κ)) (Device.prepareRing ctx va size) :=
  keeps_prepareRing_of (quiet_modifyContext ctx _) va size

theorem sameSyncobjs_prepareRing (ctx : Nat) (va : UInt64) (size : UInt32) :
    Keeps (SameSyncobjs (κ := κ)) (Device.prepareRing ctx va size) :=
  keeps_prepareRing_of (sameSyncobjs_modifyDevice fun _ => rfl) va size

/-- Binding a stream gives it the next slot, or fails and leaves the slots alone. -/
theorem bindStream_ok {ctx : Nat} {va : UInt64} {size : UInt32} {m m' : Machine κ}
    {r : Except Halt Nat} (he : (Device.bindStream ctx va size).exec m = (r, m')) (hr : Survives r) :
    SameSyncobjs m m' ∧ ((∃ n, r = .ok n) ∧ m'.progress = m.progress.join ∨
      (∃ f, r = .error (.fault f)) ∧ m'.progress = m.progress) := by
  rw [Device.bindStream_eq] at he
  rcases bind_survives he hr with ⟨f, h₁, rfl⟩ | ⟨s, m₁, h₁, he⟩
  · have hquiet := (quiet_prepareRing ctx va size m).survives h₁ trivial
    exact ⟨(sameSyncobjs_prepareRing ctx va size m).survives h₁ trivial, .inr ⟨⟨f, rfl⟩, hquiet.progress⟩⟩
  · have hquiet := (quiet_prepareRing ctx va size).ok h₁
    have hsame := (sameSyncobjs_prepareRing ctx va size).ok h₁
    obtain ⟨n, rfl⟩ := (faultless_attachStream s).value he hr
    refine ⟨Journey.trans hsame ((sameSyncobjs_attachStream s).ok he), .inl ⟨⟨n, rfl⟩, ?_⟩⟩
    rw [(attachStream_join he).progress, hquiet.progress]

theorem sameSyncobjs_unmapStream (id : Nat) : Keeps (SameSyncobjs (κ := κ)) (Device.unmapStream id) :=
  keeps_unmapStream_of (sameSyncobjs_modifyDevice fun _ => rfl)

theorem sameSyncobjs_rebindStream (id : Nat) : Keeps (SameSyncobjs (κ := κ)) (Device.rebindStream id) :=
  keeps_rebindStream_of fun _ => sameSyncobjs_modifyDevice fun _ => rfl

/-- Binding a stream again leaves the slots alone, and fails or succeeds. -/
theorem rebindStream_ok {id : Nat} {m m' : Machine κ} {r : Except Halt Unit}
    (he : (Device.rebindStream id).exec m = (r, m')) (hr : Survives r) :
    SameSyncobjs m m' ∧ m'.progress = m.progress := by
  have hquiet := (quiet_rebindStream (κ := κ) id m).survives he hr
  exact ⟨(sameSyncobjs_rebindStream (κ := κ) id m).survives he hr, hquiet.progress⟩

/-! ## Submitting -/

omit [Kernel κ] in
/-- A sequence that begins by reading a stream goes on from the same machine. -/
theorem bind_stream_ok {α : Type} {id : Nat} {f : Stream → Op κ α} {m m' : Machine κ} {a : α}
    (he : (Device.stream id >>= f).exec m = (.ok a, m')) :
    ∃ s, m.device.streams[id]? = some s ∧ (f s).exec m = (.ok a, m') := by
  obtain ⟨s, m₁, h₁, he⟩ := bind_ok he
  unfold Device.stream at h₁
  obtain ⟨d, m₂, h₂, h₁⟩ := bind_ok h₁
  cases h₂
  cases hs : m.device.streams[id]? with
  | none => simp [hs] at h₁
  | some s' =>
    rw [hs] at h₁
    cases h₁
    exact ⟨s, rfl, he⟩

omit [Kernel κ] in
theorem Machine.mem_streams {m : Machine κ} {id : Nat} {s : Stream}
    (h : m.device.streams[id]? = some s) : s.slot ∈ m.progress.streams :=
  List.mem_map.mpr ⟨s, List.mem_of_getElem? h, rfl⟩

/-- Submitting to a stream raises its slot and the fence of a syncobj, and writes registers. -/
theorem keeps_submitStream {R : Machine κ → Machine κ → Prop} [Plain R] {id : Nat} {o : Option Nat} {insert n : UInt64}
    (hsubmit : ∀ {m : Machine κ} {s : Stream}, m.device.streams[id]? = some s →
      KeepsAt R (Device.submitSlot s.slot n) m)
    (hfence : ∀ k ∈ o, ∀ slot, Keeps R (Device.modifySyncobj k (·.updateFence slot n)))
    (hset : Keeps R (Device.setLastInsert id insert)) : Keeps R (Device.submitStream id insert o n) := by
  unfold Device.submitStream
  refine keeps_bind (keeps_debug _ _) fun _ m => ?_
  refine keepsAt_bind (keeps_stream id m) fun s m₁ h₁ => ?_
  obtain ⟨_, hs, h₁⟩ := bind_stream_ok (f := pure) (by rw [bind_pure]; exact h₁)
  cases h₁
  refine keepsAt_bind (keeps_trace _ _ m) fun _ m₁ h₁ => ?_
  have hsame : SameDevice m m₁ := (keeps_trace _ _).ok h₁
  split
  · exact keeps_pure false m₁
  · split
    · exact keeps_pure true m₁
    · have hraise : Keeps R (Device.fenceSyncobj o (UInt32.ofNat s.slot) n) := by
        unfold Device.fenceSyncobj
        split
        · exact keeps_pure ()
        · exact hfence _ rfl _
      refine keepsAt_bind (hsubmit (show m₁.device.streams[id]? = some s from ?_)) fun _ m₂ _ => ?_
      · rwa [show m₁.device = m.device from hsame]
      · exact keeps_bind hraise (fun _ => keeps_bind (keeps_publishInsert _ _) fun _ =>
          keeps_bind hset fun _ => keeps_bind (keeps_ringDoorbell _) fun _ =>
          keeps_bind (keeps_ignore (keeps_streamRequest _ _ _)) fun _ => keeps_pure true) m₂

omit [Kernel κ] in
/-- The syncobjs after work was submitted through one of them, or through none. -/
def Device.fenced (d : Device) (o : Option Nat) (slot : Nat) (seqnum : UInt64) : List Syncobj :=
  match o with
  | none => d.syncobjs
  | some k => d.syncobjs.modify k (·.updateFence (UInt32.ofNat slot) seqnum)

omit [Kernel κ] in
theorem submitSlot_syncobjs {i : Int} {n : UInt64} {m m' : Machine κ} {u : Unit}
    (he : (Device.submitSlot i n).exec m = (.ok u, m')) :
    m'.device.syncobjs = m.device.syncobjs := by
  obtain ⟨-, -, he⟩ := bind_slot_ok he
  cases he
  rfl

omit [Kernel κ] in
theorem fenceSyncobj_ok {o : Option Nat} {slot : Nat} {n : UInt64} {m m' : Machine κ} {u : Unit}
    (he : (Device.fenceSyncobj o (UInt32.ofNat slot) n).exec m = (.ok u, m')) :
    m'.device.syncobjs = m.device.fenced o slot n := by
  cases o with
  | none =>
    cases he
    rfl
  | some k =>
    cases he
    rfl

/-- Whether a submission has something new to run. -/
def Stream.Advances (s : Stream) (insert : UInt64) : Prop := s.userIo ≠ none ∧ insert ≠ s.lastInsert

instance (s : Stream) (insert : UInt64) : Decidable (s.Advances insert) :=
  inferInstanceAs (Decidable (_ ∧ _))

/-- A submission raises the slot of its stream and the fence of its syncobj.  If the stream is not bound,
or the ring has nothing new, it does neither. -/
theorem submitStream_ok {id : Nat} {insert : UInt64} {o : Option Nat} {n : UInt64} {ran : Bool}
    {m m' : Machine κ} (he : (Device.submitStream id insert o n).exec m = (.ok ran, m')) :
    m'.storage = m.storage ∧ ∃ s, m.device.streams[id]? = some s ∧
      ((¬s.Advances insert ∧ m'.progress = m.progress ∧ SameSyncobjs m m') ∨
        (s.Advances insert ∧
          m'.progress = m.progress.put s.slot ((m.progress.slots.entry s.slot).submit n) ∧
          m'.device.syncobjs = m.device.fenced o s.slot n)) := by
  unfold Device.submitStream at he
  obtain ⟨_, m₁, h₁, he⟩ := bind_ok he
  have hm₁ : SameInside m m₁ := (keeps_debug _ _).ok h₁
  obtain ⟨s, hs, he⟩ := bind_stream_ok he
  rw [hm₁.device] at hs
  obtain ⟨_, m₂, h₂, he⟩ := bind_ok he
  have hm₂ : SameInside m m₂ := Journey.trans hm₁ ((keeps_trace _ _).ok h₂)
  have hsame : Quiet m m₂ := hm₂.inward
  have hsyncobjs : SameSyncobjs m m₂ := hm₂.inward
  split at he
  · rename_i hunbound
    cases he
    exact ⟨hsame.storage, s, hs, .inl ⟨fun h => h.1 hunbound, hsame.progress, hsyncobjs⟩⟩
  · rename_i p hbound
    split at he
    · rename_i hold
      cases he
      exact ⟨hsame.storage, s, hs, .inl ⟨fun h => h.2 hold, hsame.progress, hsyncobjs⟩⟩
    · rename_i hnew
      obtain ⟨_, m₃, h₃, he⟩ := bind_ok he
      obtain ⟨_, m₄, h₄, he⟩ := bind_ok he
      obtain ⟨_, m₅, h₅, he⟩ := bind_ok he
      obtain ⟨_, m₆, h₆, he⟩ := bind_ok he
      obtain ⟨_, m₇, h₇, he⟩ := bind_ok he
      obtain ⟨_, m₈, h₈, he⟩ := bind_ok he
      cases he
      have hsubmit := submitSlot_ok h₃
      rw [Int.toNat_natCast, hsame.progress] at hsubmit
      -- after the slot and the syncobj only registers are written
      have hquiet : Quiet m₃ m' :=
        (((quiet_fenceSyncobj _ _ _).ok h₄).trans ((keeps_publishInsert _ _).ok h₅)).trans
          ((((quiet_setLastInsert _ _).ok h₆).trans ((keeps_ringDoorbell _).ok h₇)).trans
            ((keeps_ignore (keeps_streamRequest _ _ _)).ok h₈))
      have hrest : SameSyncobjs m₄ m' :=
        Journey.trans (Journey.trans ((keeps_publishInsert _ _).ok h₅)
          ((sameSyncobjs_modifyStream _ _).ok h₆))
          (Journey.trans ((keeps_ringDoorbell _).ok h₇) ((keeps_ignore (keeps_streamRequest _ _ _)).ok h₈))
      have hm₃ : m₃.device.syncobjs = m.device.syncobjs := (submitSlot_syncobjs h₃).trans hsyncobjs
      refine ⟨by rw [hquiet.storage, hsubmit.storage, hsame.storage], s, hs, .inr ⟨⟨?_, hnew⟩,
        hquiet.progress.trans hsubmit.progress, ?_⟩⟩
      · rw [hbound]
        exact Option.some_ne_none _
      · rw [hrest, fenceSyncobj_ok h₄]
        unfold Device.fenced
        rw [hm₃]

/-! ## Reports -/

omit [Kernel κ] in
theorem sameSyncobjs_advanceSlot (i : Int) (n : UInt64) :
    Keeps (SameSyncobjs (κ := κ)) (Device.advanceSlot i n) := by
  unfold Device.advanceSlot
  refine keeps_bind (keeps_slot i) fun s => ?_
  split
  · exact keeps_bind (keeps_trace _ _) fun _ => keeps_pure _
  · exact keeps_bind (sameSyncobjs_modifyDevice fun _ => rfl) fun _ =>
      keeps_bind (keeps_traceReady _ _ _) fun _ => keeps_bind (keeps_checkRule _) fun _ => keeps_pure _

omit [Kernel κ] in
theorem advanceSlot_device {i : Int} {n : UInt64} {m m' : Machine κ} {ready : List Callback}
    (he : (Device.advanceSlot i n).exec m = (.ok ready, m')) : m'.device = { m.device with
      slots := m.device.slots.put i.toNat ((m.progress.slots.entry i.toNat).advance n).2 } := by
  obtain ⟨-, hlt, he⟩ := bind_slot_ok he
  split at he
  · rename_i hback
    obtain ⟨_, m₁, h₁, he⟩ := bind_ok he
    cases he
    have hsame : SameDevice m m' := (keeps_trace _ _).ok h₁
    have hput : m.device.slots.put i.toNat (m.progress.slots.entry i.toNat) = m.device.slots :=
      SlotTable.put_entry _ _
    rw [EventSlot.advance, if_pos hback, hput]
    exact hsame
  · obtain ⟨_, m₁, h₁, he⟩ := bind_ok he
    obtain ⟨_, m₂, h₂, he⟩ := bind_ok he
    obtain ⟨_, m₃, h₃, he⟩ := bind_ok he
    cases he
    cases h₁
    exact Journey.trans (R := SameDevice) ((keeps_traceReady _ _ _).ok h₂) ((keeps_checkRule _).ok h₃)

/-- A report moves its slot on, and the callbacks that are ready free handles at most. -/
theorem advance_device {i : Int} {n : UInt64} {m m' : Machine κ} {u : Unit}
    (he : (Device.advance i n).exec m = (.ok u, m')) : ∃ t, m'.device = { m.device with
      handles := t
      slots := m.device.slots.put i.toNat ((m.progress.slots.entry i.toNat).advance n).2 } := by
  obtain ⟨cs, m₁, h₁, he⟩ := bind_ok he
  obtain ⟨t, ht⟩ : OnlyHandles m₁ m' := (onlyHandles_runCallbacks cs).ok he
  exact ⟨t, by rw [ht, advanceSlot_device h₁]⟩

/-- A report moves its slot on, and the callbacks that are ready run. -/
theorem advance_ok {i : Int} {n : UInt64} {m m' : Machine κ} {u : Unit}
    (he : (Device.advance i n).exec m = (.ok u, m')) :
    i.toNat < slotCount ∧ SameSyncobjs m m' ∧
      m'.progress = m.progress.put i.toNat ((m.progress.slots.entry i.toNat).advance n).2 := by
  obtain ⟨t, ht⟩ := advance_device he
  obtain ⟨cs, m₁, h₁, -⟩ := bind_ok he
  refine ⟨(advanceSlot_ok h₁).1, ?_, ?_⟩
  · rw [SameSyncobjs, ht]
  · rw [Machine.progress, ht]
    rfl

theorem sameSyncobjs_handleEvents {m m' : Machine κ} {fine : Bool}
    (hcsf : m.progress.generation = .csf) (he : Device.handleEvents.exec m = (.ok fine, m')) :
    SameSyncobjs m m' := by
  have hrecords (is : List Nat) : Keeps (SameSyncobjs (κ := κ)) (Device.advanceFromRecords is) := by
    induction is with
    | nil => exact keeps_pure _
    | cons i is ih =>
      exact keeps_bind (keeps_eventSeq _) fun n => keeps_bind (keeps_slot _) fun s =>
        keeps_bind (keeps_trace _ _) fun _ => keeps_bind (sameSyncobjs_advanceSlot _ _) fun cs =>
        keeps_bind ih fun _ => keeps_pure _
  have hpass : Keeps (SameSyncobjs (κ := κ)) Device.handleStreamEvents := by
    unfold Device.handleStreamEvents
    refine keeps_bind keeps_readNotification fun fine => keeps_bind keeps_device fun d => ?_
    split
    · exact keeps_pure fine
    · exact keeps_bind (hrecords _) fun cs =>
        keeps_bind ((onlyHandles_runCallbacks cs).mono fun _ _ => OnlyHandles.syncobjs) fun _ =>
        keeps_pure fine
  unfold Device.handleEvents at he
  obtain ⟨d, m₁, h₁, he⟩ := bind_ok he
  cases h₁
  have hcsf : m.device.generation = .csf := hcsf
  rw [hcsf] at he
  exact hpass.ok he

/-! ## Terminating -/

omit [Kernel κ] in
/-- Updating a syncobj drops the fences that their slots have passed, and changes nothing else. -/
theorem updateSyncobj_device {k : Nat} {m m' : Machine κ} {u : Unit}
    (he : (Device.updateSyncobj k).exec m = (.ok u, m')) : m'.device = { m.device with
      syncobjs := m.device.syncobjs.modify k (·.prune m.device.slots) } := by
  unfold Device.updateSyncobj at he
  obtain ⟨o, m₁, h₁, he⟩ := bind_ok he
  have hm₁ : SameDevice m m₁ := (keeps_syncobj k).ok h₁
  obtain ⟨_, m₂, h₂, he⟩ := bind_ok he
  have hm₂ : m₂.device = m.device := Journey.trans (R := SameDevice) hm₁ ((keeps_traceFences _ _).ok h₂)
  cases he
  show ({ m₂.device with syncobjs := _ } : Device) = _
  rw [hm₂]

omit [Kernel κ] in
theorem updateSyncobj_ok {k : Nat} {m m' : Machine κ} {u : Unit}
    (he : (Device.updateSyncobj k).exec m = (.ok u, m')) :
    m'.progress = m.progress ∧
      m'.device.syncobjs = m.device.syncobjs.modify k (·.prune m.progress.slots) := by
  have hdevice := updateSyncobj_device he
  constructor
  · rw [Machine.progress, hdevice]
    rfl
  · rw [hdevice]
    rfl

/-- A live syncobj without the fences that their slots have passed; a destroyed one stays as it is. -/
def Syncobj.pruneLive (slots : SlotTable) (o : Syncobj) : Syncobj :=
  if o.live then o.prune slots else o

omit [Kernel κ] in
/-- Updating all live syncobjs, by induction on those that are left, which begin at an index. -/
theorem updateSyncobjs_ok {os : List Syncobj} {i : Nat} {m m' : Machine κ} {u : Unit}
    (hlive : (m.device.syncobjs.drop i).map (·.live) = os.map (·.live))
    (he : (Device.updateSyncobjs os i).exec m = (.ok u, m')) :
    m'.device.syncobjs = m.device.syncobjs.take i ++
      (m.device.syncobjs.drop i).map (·.pruneLive m.progress.slots) := by
  induction os generalizing i m with
  | nil =>
    cases he
    have hnil : m'.device.syncobjs.drop i = [] := by simpa using hlive
    rw [hnil, List.map_nil, ← hnil, List.take_append_drop]
  | cons o os ih =>
    cases hdrop : m.device.syncobjs.drop i with
    | nil => simp [hdrop] at hlive
    | cons o' rest =>
      rw [hdrop, List.map_cons, List.map_cons, List.cons.injEq] at hlive
      have hget : m.device.syncobjs[i]? = some o' := by
        rw [← Nat.add_zero i, ← List.getElem?_drop, hdrop]
        rfl
      have hrest : m.device.syncobjs.drop (i + 1) = rest := by
        rw [← List.drop_drop, hdrop]
        rfl
      -- the syncobj at the index is updated or passed over
      obtain ⟨m₁, hm₁, he⟩ : ∃ m₁, (m₁.progress = m.progress ∧
          m₁.device.syncobjs = m.device.syncobjs.modify i (·.pruneLive m.progress.slots)) ∧
          (Device.updateSyncobjs os (i + 1)).exec m₁ = (.ok u, m') := by
        unfold Device.updateSyncobjs at he
        dsimp only at he
        split at he
        · rename_i hl
          obtain ⟨_, m₁, h₁, he⟩ := bind_ok he
          obtain ⟨hp, hs⟩ := updateSyncobj_ok h₁
          refine ⟨m₁, ⟨hp, hs.trans (List.ext_getElem? fun j => ?_)⟩, he⟩
          rw [getElem?_modify_of_some hget, getElem?_modify_of_some hget, Syncobj.pruneLive,
            if_pos (hlive.1.trans hl)]
        · rename_i hl
          refine ⟨m, ⟨rfl, List.ext_getElem? fun j => ?_⟩, he⟩
          have hdead : ¬o'.live = true := by rwa [hlive.1]
          rw [getElem?_modify_of_some hget, Syncobj.pruneLive, if_neg hdead]
          split
          · subst_vars
            exact hget
          · rfl
      have hdrop₁ : m₁.device.syncobjs.drop (i + 1) = rest := by
        rw [hm₁.2, List.drop_modify_of_lt _ _ _ _ (Nat.lt_succ_self i), hrest]
      have htake₁ : m₁.device.syncobjs.take (i + 1) =
          m.device.syncobjs.take i ++ [o'.pruneLive m.progress.slots] := by
        obtain ⟨hlt, hget'⟩ := List.getElem?_eq_some_iff.mp hget
        rw [hm₁.2, List.modify_eq_take_cons_drop hlt, hget', List.append_cons]
        exact List.take_left' (by simp; omega)
      rw [ih (by rw [hdrop₁, hlive.2]) he, hdrop₁, htake₁, hm₁.1, List.append_assoc]
      rfl

omit [Kernel κ] in
/-- Clearing a slot makes the live syncobjs forget their fences on it, as if it had passed them all. -/
theorem clearSlot_syncobjs {i : Nat} {m m' : Machine κ} {ready : List Callback}
    (he : (Device.clearSlot i).exec m = (.ok ready, m')) :
    m'.device.syncobjs = m.device.syncobjs.map (·.pruneLive (m.progress.slots.put i
      { ((m.progress.slots.entry i).take Device.endOfTime).2 with last := Device.endOfTime })) := by
  unfold Device.clearSlot at he
  obtain ⟨cs, m₁, h₁, he⟩ := bind_ok he
  obtain ⟨hlt, -, hm₁⟩ := takeCallbacks_ok h₁
  rw [Int.toNat_natCast] at hlt hm₁
  have hsame₁ : SameSyncobjs m m₁ := by
    obtain ⟨-, -, h₁⟩ := bind_slot_ok h₁
    obtain ⟨_, m₀, h₀, h₁⟩ := bind_ok h₁
    obtain ⟨_, m₂, h₂, h₁⟩ := bind_ok h₁
    cases h₁
    have hset : SameSyncobjs m m₀ := (sameSyncobjs_setSlot _ _).ok h₀
    exact Journey.trans hset ((keeps_traceReady _ _ _).ok h₂)
  obtain ⟨-, -, he⟩ := bind_slot_ok he
  rw [Int.toNat_natCast] at he
  have hentry : m₁.progress.slots.entry i = ((m.progress.slots.entry i).take Device.endOfTime).2 := by
    rw [hm₁.progress, Progress.put, SlotTable.entry_put _ hlt, if_pos rfl]
  rw [hentry] at he
  obtain ⟨_, m₂, h₂, he⟩ := bind_ok he
  have hsame₂ : SameSyncobjs m₁ m₂ := (sameSyncobjs_setSlot _ _).ok h₂
  have hslots : m₂.progress.slots = m.progress.slots.put i
      { ((m.progress.slots.entry i).take Device.endOfTime).2 with last := Device.endOfTime } := by
    rw [(setSlot_ok h₂).progress, hm₁.progress]
    simp [Progress.put, SlotTable.put]
  obtain ⟨d, m₃, h₃, he⟩ := bind_ok he
  cases h₃
  obtain ⟨_, m₄, h₄, he⟩ := bind_ok he
  obtain ⟨_, m₅, h₅, he⟩ := bind_ok he
  cases he
  have hsame₅ : SameSyncobjs m₄ m' := (sameSyncobjs_setSlot _ _).ok h₅
  have hpruned := updateSyncobjs_ok (by rw [List.drop_zero]) h₄
  rw [List.take_zero, List.nil_append, List.drop_zero, hslots, hsame₂, hsame₁] at hpruned
  exact hsame₅.trans hpruned

/-- Terminating a stream starts the progress of its slot over, and makes live syncobjs forget their fences
there. -/
theorem terminateStream_ok {id : Nat} {m m' : Machine κ} {u : Unit}
    (he : (Device.terminateStream id).exec m = (.ok u, m')) :
    ∃ s, m.device.streams[id]? = some s ∧ s.slot < slotCount ∧
      m'.progress = m.progress.put s.slot
        { ((m.progress.slots.entry s.slot).take Device.endOfTime).2 with last := 0 } ∧
      m'.device.syncobjs = m.device.syncobjs.map (·.pruneLive (m.progress.slots.put s.slot
        { ((m.progress.slots.entry s.slot).take Device.endOfTime).2 with last := Device.endOfTime })) := by
  unfold Device.terminateStream at he
  obtain ⟨_, m₁, h₁, he⟩ := bind_ok he
  obtain ⟨_, m₂, h₂, he⟩ := bind_ok he
  obtain ⟨s, hs, he⟩ := bind_stream_ok he
  obtain ⟨_, m₃, h₃, he⟩ := bind_ok he
  obtain ⟨cs, m₄, h₄, he⟩ := bind_ok he
  have hquiet : Quiet m m₃ := (((keeps_debug (R := Quiet) _ _).ok h₁).trans
    ((quiet_unmapStream id).ok h₂)).trans ((keeps_ignore (keeps_streamRequest _ _ _)).ok h₃)
  have hsame : SameSyncobjs m m₃ := Journey.trans (Journey.trans ((keeps_debug _ _).ok h₁)
    ((sameSyncobjs_unmapStream id).ok h₂)) ((keeps_ignore (keeps_streamRequest _ _ _)).ok h₃)
  have hrest : OnlyHandles m₄ m' := (onlyHandles_runCallbacks cs).ok he
  obtain ⟨hlt, -, hmoves⟩ := clearSlot_ok h₄
  have hpruned := clearSlot_syncobjs h₄
  rw [hquiet.progress, hsame] at hpruned
  have hprogress := hmoves.progress
  rw [hquiet.progress] at hprogress
  -- unmapping keeps the stream on its slot
  obtain ⟨s', hs', hslot⟩ : ∃ s', m.device.streams[id]? = some s' ∧ s'.slot = s.slot := by
    have hstreams : m₂.progress.streams = m.progress.streams := by
      rw [(((keeps_debug (R := Quiet) _ _).ok h₁).trans ((quiet_unmapStream id).ok h₂)).progress]
    have hget : m.progress.streams[id]? = some s.slot := by
      rw [← hstreams]
      show (m₂.device.streams.map (·.slot))[id]? = _
      rw [List.getElem?_map, hs]
      rfl
    have hmap : (m.device.streams.map (·.slot))[id]? = some s.slot := hget
    rw [List.getElem?_map, Option.map_eq_some_iff] at hmap
    exact hmap
  refine ⟨s', hs', by rw [hslot]; exact hlt, ?_, ?_⟩
  · rw [hslot]
    exact hrest.progress.trans hprogress
  · rw [hslot]
    exact hrest.syncobjs.trans hpruned

end Kernel

end Mali
