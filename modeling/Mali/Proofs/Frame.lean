import Mali.Proofs.Ledger

/-!
# Quiet operations

Everything that talks to the kernel, writes to the log or the journal, keeps contexts, syncobjs or
waits, or reads a part of the machine is quiet.  The lemmas go through the library module by module,
in its own order; each opens one operation and puts it together from the parts before it.

What only talks to the kernel and writes to the log keeps every relation that does not look there, so the
lemmas about it are stated for all of them at once.  Making and freeing a region also tells the memory hooks.
A relation may also look at the calls: `Plain` are those that no call breaks but one that makes or ends a mapping
or closes a descriptor, and `Tolerant` those that only the last may break.  Most operations make calls of some
kinds only, and keep what these do not break: `Asks`, `Remaps` and `Closes` say so for one kind each.  An operation
that also edits a table or a buffer keeps what its edit keeps (`keeps_allocHandle_of`, `keeps_unmapBuffer_of`, ...).

Where an operation is also a part of a release, a second lemma says that it has no faults, so a release
is never left half done.

* `keeps_call`, `keeps_error` and the like: the parts that everything is made of.
* `quiet_allocHandle`, `HandleTable.owns_alloc`: a new handle takes no other one away.
* `quiet_importFile`: importing a file gives out a handle at most.
-/

namespace Mali

open Op

variable {κ α : Type}

/-! ## Logging and calls -/

section Audible

variable {R : Machine κ → Machine κ → Prop} [Audible R]

@[grind ←] theorem keeps_log (level : LogLevel) (message : String) (fields : List (String × String)) :
    Keeps R (log level message fields) := keeps_modify fun _ => Audible.of_audible rfl rfl rfl rfl rfl rfl rfl

@[grind ←] theorem keeps_debug (message : String) (fields : List (String × String)) :
    Keeps R (debug message fields) := keeps_log _ _ _

@[grind ←] theorem faultless_debug (message : String) (fields : List (String × String)) :
    Faultless (debug message fields : Op κ Unit) := faultless_modify _

@[grind ←] theorem keeps_warn (message : String) (fields : List (String × String)) :
    Keeps R (warn message fields) := keeps_log _ _ _

@[grind ←] theorem faultless_warn (message : String) (fields : List (String × String)) :
    Faultless (warn message fields : Op κ Unit) := faultless_modify _

@[grind ←] theorem keeps_error (message : String) (fields : List (String × String)) :
    Keeps R (error message fields) := keeps_log _ _ _

@[grind ←] theorem faultless_error (message : String) (fields : List (String × String)) :
    Faultless (error message fields : Op κ Unit) := faultless_modify _

/-- What a callback tells is no hook's. -/
@[grind ←] theorem keeps_reportCallback (id : Int) : Keeps R (report (.callback id)) :=
  keeps_modify fun _ => Audible.of_audible rfl rfl rfl rfl rfl rfl rfl

@[grind ←] theorem keeps_report {R : Machine κ → Machine κ → Prop} [OfTrace R] (r : Report) : Keeps R (report r) :=
  keeps_modify fun _ => OfTrace.of_trace rfl rfl rfl rfl rfl rfl

@[grind ←] theorem keeps_modifyMemory (f : Memory → Memory) :
    Keeps R (modifyMemory f) := keeps_modify fun _ => Audible.of_audible rfl rfl rfl rfl rfl rfl rfl

@[grind ←] theorem faultless_modifyMemory (f : Memory → Memory) :
    Faultless (modifyMemory f : Op κ Unit) := faultless_modify _

@[grind ←] theorem faultless_modifyDevice (f : Device → Device) :
    Faultless (modifyDevice f : Op κ Unit) := faultless_modify _

@[grind ←] theorem faultless_modifyAllocator (f : Allocator → Allocator) :
    Faultless (modifyAllocator f : Op κ Unit) := faultless_modify _

@[grind ←] theorem faultless_modifyBuffer (id : Nat) (f : Buffer → Buffer) :
    Faultless (modifyBuffer id f : Op κ Unit) := faultless_modify _

@[grind ←] theorem keeps_trace (message : String) (fields : List (String × String)) :
    Keeps R (trace message fields) := by
  unfold trace
  grind

@[grind ←] theorem faultless_trace (message : String) (fields : List (String × String)) :
    Faultless (trace message fields : Op κ Unit) := by
  unfold trace
  exact faultless_bind faultless_device fun d => by
    split
    · exact faultless_debug _ _
    · exact faultless_pure ()

end Audible

/-- Whether a call makes no mapping, ends none, and closes no descriptor. -/
@[grind] def Syscall.plain : Syscall → Bool
  | .mmap .. | .munmap _ | .close _ => false
  | _ => true

/-- Whether a call makes or ends what a context owns: a queue group, a tiler heap or a processor queue. -/
@[grind] def Syscall.concernsObject : Syscall → Bool
  | .ioctl _ (.csQueueGroupCreate _) | .ioctl _ (.csQueueGroupTerminate _) => true
  | .ioctl _ (.csTilerHeapInit _) | .ioctl _ (.csTilerHeapTerm _) => true
  | .ioctl _ .kcpuQueueCreate | .ioctl _ (.kcpuQueueDelete _) => true
  | _ => false

/-- Relations that no plain call breaks but one that makes or ends what a context owns. -/
class Asks [Kernel κ] (R : Machine κ → Machine κ → Prop) : Prop extends Audible R where
  of_asking (c : Syscall) : c.plain = true → c.concernsObject = false → Keeps R (call c)

/-- Relations that making or ending a mapping does not break. -/
class Remaps [Kernel κ] (R : Machine κ → Machine κ → Prop) : Prop extends Audible R where
  of_mmap (fd : Int) (offset length : Int64) (prot flags : Int) : Keeps R (call (.mmap fd offset length prot flags))
  of_munmap (p : Mapping) : Keeps R (call (.munmap p))

/-- Relations that closing a descriptor does not break. -/
class Closes [Kernel κ] (R : Machine κ → Machine κ → Prop) : Prop extends Audible R where
  of_close (fd : Int) : Keeps R (call (.close fd))

/-- Relations that look at the kernel, the calls and the library only, and that no plain call breaks. -/
class Plain [Kernel κ] (R : Machine κ → Machine κ → Prop) : Prop extends Audible R where
  of_plain (c : Syscall) : c.plain = true → Keeps R (call c)

/-- Whether a call closes a descriptor. -/
@[grind] def Syscall.closes : Syscall → Bool
  | .close _ => true
  | _ => false

/-- Relations that look at the kernel and the library only, and that no call breaks but one that closes a
descriptor. -/
class Tolerant [Kernel κ] (R : Machine κ → Machine κ → Prop) : Prop extends OfState R where
  of_call (c : Syscall) : c.closes = false → Keeps R (call c)

section Kernel

variable [Kernel κ]

@[grind ←] theorem keeps_call {R : Machine κ → Machine κ → Prop} [Inward R] (c : Syscall) :
    Keeps R (call c) := fun _ _ => Inward.of_eq rfl rfl rfl rfl

instance (R : Machine κ → Machine κ → Prop) [Inward R] : Tolerant R where
  of_call c _ := keeps_call c

instance (R : Machine κ → Machine κ → Prop) [Tolerant R] : Plain R where
  of_plain c hc := Tolerant.of_call c (by cases c <;> first | rfl | cases hc)

instance (R : Machine κ → Machine κ → Prop) [Plain R] : Asks R where
  of_asking c hc _ := Plain.of_plain c hc

instance (R : Machine κ → Machine κ → Prop) [Tolerant R] : Remaps R where
  of_mmap _ _ _ _ _ := Tolerant.of_call _ rfl
  of_munmap _ := Tolerant.of_call _ rfl

instance (R : Machine κ → Machine κ → Prop) [Inward R] : Closes R where
  of_close _ := keeps_call _

@[grind ←] theorem keeps_plain {R : Machine κ → Machine κ → Prop} [Plain R] {c : Syscall} (hc : c.plain = true) :
    Keeps R (call c) := Plain.of_plain c hc

section Asks

variable {R : Machine κ → Machine κ → Prop} [Asks R]

@[grind ←] theorem keeps_asking {c : Syscall} (hc : c.plain = true) (hobject : c.concernsObject = false) :
    Keeps R (call c) := Asks.of_asking c hc hobject

@[grind ←] theorem keeps_sleep (duration : Nat) : Keeps R (sleep duration) :=
  keeps_discard (keeps_asking rfl rfl)

@[grind ←] theorem keeps_await (moment : Nat) : Keeps R (await moment) := by
  unfold await
  grind

/-! ## Requests -/

/-- A request keeps what the call keeps. -/
theorem keeps_request_of {R : Machine κ → Machine κ → Prop} [Audible R] {r : Ioctl}
    (h : ∀ fd, Keeps R (call (.ioctl fd r))) (name : String) : Keeps R (Interface.request name r) :=
  keeps_bind keeps_device fun _ => keeps_bind_except (h _) (fun _ => keeps_pure _)
    fun _ => keeps_bind (keeps_error _ _) fun _ => keeps_fail _

@[grind ←] theorem keeps_request {R : Machine κ → Machine κ → Prop} [Plain R] (name : String) (r : Ioctl) :
    Keeps R (Interface.request name r) := keeps_request_of (fun _ => keeps_plain rfl) name

@[grind ←] theorem keeps_oldRequest (name : String) (r : OldIoctl) :
    Keeps R (Interface.oldRequest name r) := by
  unfold Interface.oldRequest
  refine keeps_bind (keeps_request_of (fun _ => keeps_asking rfl rfl) _) fun reply => ?_
  grind

omit [Kernel κ] in
@[grind ←] theorem keeps_unsupported {R : Machine κ → Machine κ → Prop} [Journey R] (name : String) :
    Keeps R (Interface.unsupported name : Op κ α) := keeps_fail _

theorem keeps_streamRequest_of {R : Machine κ → Machine κ → Prop} [Audible R] {r : Ioctl}
    (h : ∀ fd, Keeps R (call (.ioctl fd r))) (asking name : String) :
    Keeps R (Interface.streamRequest asking name r) := by
  unfold Interface.streamRequest
  refine keeps_bind keeps_device fun d => ?_
  cases d.generation with
  | csf => exact keeps_request_of h _
  | old => exact keeps_unsupported _
  | jm => exact keeps_unsupported _

@[grind ←] theorem keeps_streamRequest {R : Machine κ → Machine κ → Prop} [Plain R] (asking name : String)
    (r : Ioctl) : Keeps R (Interface.streamRequest asking name r) :=
  keeps_streamRequest_of (fun _ => keeps_plain rfl) asking name

@[grind ←] theorem keeps_allocRegion (r : RegionRequest) :
    Keeps R (Interface.allocRegion r) := by
  unfold Interface.allocRegion
  refine keeps_bind keeps_device fun d => ?_
  cases d.generation with
  | old => exact keeps_bind (keeps_oldRequest _ _) fun _ => keeps_pure _
  | jm => exact keeps_request_of (fun _ => keeps_asking rfl rfl) _
  | csf => exact keeps_request_of (fun _ => keeps_asking rfl rfl) _

@[grind ←] theorem keeps_freeRegion (va : UInt64) :
    Keeps R (Interface.freeRegion va) := by
  unfold Interface.freeRegion
  refine keeps_bind keeps_device fun d => ?_
  cases d.generation with
  | old => exact keeps_oldRequest _ _
  | jm => exact keeps_request_of (fun _ => keeps_asking rfl rfl) _
  | csf => exact keeps_request_of (fun _ => keeps_asking rfl rfl) _

@[grind ←] theorem keeps_importFd (fd : Int) (flags : UInt64) :
    Keeps R (Interface.importFd fd flags) := by
  unfold Interface.importFd
  refine keeps_bind keeps_device fun d => ?_
  cases d.generation with
  | old => exact keeps_oldRequest _ _
  | jm => exact keeps_request_of (fun _ => keeps_asking rfl rfl) _
  | csf => exact keeps_request_of (fun _ => keeps_asking rfl rfl) _

@[grind ←] theorem keeps_syncRange (va addr size : UInt64) (invalidate : Bool) :
    Keeps R (Interface.syncRange va addr size invalidate) := by
  unfold Interface.syncRange
  refine keeps_bind keeps_device fun d => ?_
  cases d.generation with
  | old => exact keeps_oldRequest _ _
  | jm => exact keeps_request_of (fun _ => keeps_asking rfl rfl) _
  | csf => exact keeps_request_of (fun _ => keeps_asking rfl rfl) _

end Asks

section Remaps

@[grind ←] theorem keeps_plainCall {R : Machine κ → Machine κ → Prop} [Tolerant R] {c : Syscall}
    (hc : c.closes = false) : Keeps R (call c) := Tolerant.of_call c hc

variable {R : Machine κ → Machine κ → Prop} [Remaps R]

@[grind ←] theorem keeps_mapMemory (offset length : Int64) (prot : Int) :
    Keeps R (mapMemory offset length prot) := by
  exact keeps_bind keeps_device fun d =>
    keeps_bind_except (Remaps.of_mmap _ _ _ _ _) (fun _ => keeps_pure _) fun _ => keeps_pure _

@[grind ←] theorem keeps_unmapMemory (p : Mapping) : Keeps R (unmapMemory p) := by
  exact keeps_bind_except (Remaps.of_munmap p) (fun _ => keeps_pure _) fun _ => keeps_pure _

@[grind ←] theorem faultless_unmapMemory (p : Mapping) : Faultless (unmapMemory p : Op κ _) := by
  unfold unmapMemory
  grind

/-! ## Regions -/

omit [Kernel κ] in
@[grind ←] theorem keeps_reportAllocated {R : Machine κ → Machine κ → Prop} [OfTrace R] (va : UInt64)
    (size : Int64) : Keeps R (Device.reportAllocated va size) := by
  unfold Device.reportAllocated
  grind

omit [Kernel κ] in
@[grind ←] theorem keeps_reportFreed {R : Machine κ → Machine κ → Prop} [OfTrace R] (va : UInt64) :
    Keeps R (Device.reportFreed va) := by
  unfold Device.reportFreed
  grind

@[grind ←] theorem keeps_mapShared (va : UInt64) (length : Int64) :
    Keeps R (Device.mapShared va length) := keeps_mapMemory _ _ _

end Remaps

section Asks

variable {R : Machine κ → Machine κ → Prop} [Asks R] [Remaps R]

@[grind ←] theorem keeps_mapRegion (va : UInt64) (length : Int64) (what title : String) :
    Keeps R (Device.mapRegion va length what title) := by
  exact keeps_bind_except (keeps_mapShared _ _) (fun _ => keeps_pure _) fun e =>
    keeps_bind (keeps_error _ _) fun _ => keeps_bind (keeps_ignore (keeps_freeRegion _)) fun _ => keeps_fail _

@[grind ←] theorem keeps_alloc [OfTrace R] (size : Int64) (wish : UInt32) (flags : UInt64) :
    Keeps R (Device.alloc size wish flags) := by
  unfold Device.alloc
  refine keeps_bind (keeps_debug _ _) fun _ => keeps_bind keeps_device fun d => ?_
  refine keeps_bind (keeps_allocRegion _) fun reply => ?_
  dsimp only
  split
  · refine keeps_bind (keeps_error _ _) fun _ => keeps_bind (keeps_fail _) fun _ => ?_
    exact keeps_bind (keeps_mapRegion _ _ _ _) fun cpu => by split <;> grind
  · exact keeps_bind (keeps_mapRegion _ _ _ _) fun cpu => by split <;> grind

omit [Remaps R] in
@[grind ←] theorem keeps_freeDevice [OfTrace R] (va : UInt64) :
    Keeps R (Device.free va) := by
  unfold Device.free
  grind

omit [Asks R] in
@[grind ←] theorem keeps_mapImported (va : UInt64) (size : Int64) :
    Keeps R (Device.mapImported va size) := by
  exact keeps_bind (keeps_debug _ _) fun _ =>
    keeps_bind_except (keeps_mapShared _ _) (fun _ => keeps_pure _) fun e => keeps_fail _

omit [Remaps R] in
@[grind ←] theorem keeps_syncMapping (va : UInt64) (p : Option Mapping) (invalidate : Bool) :
    Keeps R (Device.syncMapping va p invalidate) := by
  unfold Device.syncMapping
  grind

end Asks

/-! ## Handles -/

namespace HandleTable

omit [Kernel κ] in
theorem not_owns_freeIndex (t : HandleTable) (fd : Int) : ¬t.Owns t.freeIndex fd := by
  rintro ⟨h, hget, rfl, hlive⟩
  have hlt : t.freeIndex < t.entries.length := (List.getElem?_eq_some_iff.mp hget).1
  have hfreed : isFreed t.entries[t.freeIndex] = true := List.findIdx_getElem (w := hlt)
  rw [List.getElem?_eq_getElem hlt, Option.some.injEq] at hget
  rw [hget] at hfreed
  exact hlive (by simpa [isFreed] using hfreed)

omit [Kernel κ] in
/-- A new entry takes the place of none that is live. -/
theorem owns_alloc (t : HandleTable) (va : UInt64) (fd : Int) (k : Nat) (fd' : Int)
    (h : t.Owns k fd') : (t.alloc va fd).2.Owns k fd' := by
  have hne : t.freeIndex ≠ k := fun e => t.not_owns_freeIndex fd' (e ▸ h)
  obtain ⟨x, hget, hlive⟩ := h
  refine ⟨x, ?_, hlive⟩
  unfold alloc
  dsimp only
  split
  · rwa [List.getElem?_set_ne hne]
  · rwa [List.getElem?_append_left (List.getElem?_eq_some_iff.mp hget).1]

omit [Kernel κ] in
/-- The new entry is live itself, unless it is marked as freed from the start. -/
theorem owns_alloc_self (t : HandleTable) (va : UInt64) {fd : Int} (hfd : fd ≠ freedFd) :
    (t.alloc va fd).2.Owns (t.alloc va fd).1 fd := by
  refine ⟨{ va, fd }, ?_, rfl, hfd⟩
  have hle : t.freeIndex ≤ t.entries.length := List.findIdx_le_length
  unfold alloc size
  dsimp only
  split
  · rw [List.getElem?_set_self ‹_›]
  · have heq : t.freeIndex = t.entries.length := by omega
    rw [heq, List.getElem?_concat_length]

omit [Kernel κ] in
theorem owns_setMapping (t : HandleTable) (i : Nat) (p : Option Mapping) (k : Nat) (fd : Int)
    (h : t.Owns k fd) : (t.setMapping i p).Owns k fd := by
  obtain ⟨x, hget, hlive⟩ := h
  rw [Owns, setMapping]
  simp only [List.getElem?_modify, hget]
  split
  · exact ⟨_, rfl, hlive⟩
  · exact ⟨x, rfl, hlive⟩

end HandleTable

omit [Kernel κ] in
@[grind ←] theorem quiet_checkHandles : Keeps (Quiet (κ := κ)) Device.checkHandles :=
  keeps_checkRule _

omit [Kernel κ] in
/-- A new handle only sets the table. -/
theorem keeps_allocHandle_of {R : Machine κ → Machine κ → Prop} [Journey R]
    (hset : ∀ t, Keeps R (Device.setHandles t)) (va : UInt64) (fd : Int) : Keeps R (Device.allocHandle va fd) := by
  unfold Device.allocHandle
  refine keeps_bind keeps_device fun d => keeps_bind (hset _) fun _ => ?_
  dsimp only
  split
  · exact keeps_bind (keeps_checkRule _) fun _ => keeps_pure _
  · exact keeps_bind (keeps_pure ()) fun _ => keeps_pure _

omit [Kernel κ] in
theorem faultless_allocHandle (va : UInt64) (fd : Int) :
    Faultless (Device.allocHandle va fd : Op κ Nat) := by
  unfold Device.allocHandle Device.setHandles Device.checkHandles
  grind

omit [Kernel κ] in
/-- What a new handle changes, whether or not the table is checked afterwards. -/
theorem allocHandle_ok {va : UInt64} {fd : Int} {m m' : Machine κ} {handle : Nat}
    (h : (Device.allocHandle va fd).exec m = (.ok handle, m')) :
    handle = (m.device.handles.alloc va fd).1 ∧
      m' = { m with device :=
        { m.device with handles := (m.device.handles.alloc va fd).2 } } := by
  unfold Device.allocHandle at h
  obtain ⟨_, m₁, hd, h⟩ := bind_ok h
  cases hd
  obtain ⟨_, m₂, hset, h⟩ := bind_ok h
  cases hset
  dsimp only at h
  split at h
  · obtain ⟨_, m₃, hc, h⟩ := bind_ok h
    have hm := (keeps_checkRule (R := Eq) _).ok hc
    cases h
    exact ⟨rfl, hm.symm⟩
  · cases h
    exact ⟨rfl, rfl⟩

omit [Kernel κ] in
@[grind ←] theorem quiet_allocHandle (va : UInt64) (fd : Int) :
    Keeps (Quiet (κ := κ)) (Device.allocHandle va fd) := by
  intro m hs
  obtain ⟨handle, he⟩ := (faultless_allocHandle va fd).ok hs
  obtain ⟨-, hm⟩ := allocHandle_ok he
  rw [hm]
  exact ⟨.of_eq rfl rfl, rfl, HandleTable.owns_alloc _ va fd⟩

@[grind ←] theorem keeps_closeHandleFd {R : Machine κ → Machine κ → Prop} [Closes R] (handle : Nat)
    (fd : Int) : Keeps R (Device.closeHandleFd handle fd) := by
  exact keeps_bind_except (Closes.of_close fd) (fun _ => keeps_pure ()) fun e => keeps_error _ _

/-- Freeing a handle sets the table and closes the descriptor that it owned. -/
theorem keeps_freeHandle_of {R : Machine κ → Machine κ → Prop} [Closes R]
    (hset : ∀ t, Keeps R (Device.setHandles t)) (handle : Int) : Keeps R (Device.freeHandle handle) := by
  unfold Device.freeHandle
  refine keeps_bind keeps_device fun d => ?_
  split
  · exact keeps_pure ()
  · refine keeps_bind (hset _) fun _ => keeps_bind (keeps_checkRule _) fun _ => ?_
    split
    · exact keeps_closeHandleFd _ _
    · exact keeps_pure ()

@[grind ←] theorem faultless_closeHandleFd (handle : Nat) (fd : Int) :
    Faultless (Device.closeHandleFd handle fd : Op κ Unit) := by
  unfold Device.closeHandleFd
  grind

@[grind ←] theorem keeps_findFile {R : Machine κ → Machine κ → Prop} [Asks R] (fd : Int) (hs : List Handle)
    (i : Nat) :
    Keeps R (Device.findFile fd hs i) := by
  induction hs generalizing i with
  | nil => exact keeps_pure none
  | cons h hs ih =>
    unfold Device.findFile
    grind

@[grind ←] theorem keeps_closeDuplicate {R : Machine κ → Machine κ → Prop} [Closes R] (fd duplicate : Int) :
    Keeps R (Device.closeDuplicate fd duplicate) := by
  exact keeps_bind_except (Closes.of_close duplicate) (fun _ => keeps_pure ()) fun e => keeps_error _ _

@[grind ←] theorem keeps_importDuplicate {R : Machine κ → Machine κ → Prop} [Asks R] [Closes R] (fd duplicate : Int) :
    Keeps R (Device.importDuplicate fd duplicate) := by
  exact keeps_bind_except (keeps_attempt (keeps_importFd _ _)) (fun _ => keeps_pure _) fun f =>
    keeps_bind (keeps_closeDuplicate _ _) fun _ => keeps_fail f

@[grind ←] theorem keeps_mapImportReply {R : Machine κ → Machine κ → Prop} [Asks R] [Remaps R] [Closes R]
    (fd duplicate : Int)
    (reply : ImportReply) : Keeps R (Device.mapImportReply fd duplicate reply) := by
  unfold Device.mapImportReply
  split
  · exact keeps_pure none
  · refine keeps_bind keeps_device fun d => keeps_bind (keeps_mapShared _ _) fun r => ?_
    cases r with
    | ok p => exact keeps_pure (some p)
    | error e =>
      refine keeps_bind (keeps_error _ _) fun _ =>
        keeps_bind (keeps_attempt (keeps_freeRegion _)) fun r => ?_
      grind

/-- Importing a file keeps what giving out a handle with its mapping keeps.  The handle has the descriptor that the
kernel duplicated the file to. -/
theorem keeps_importFile_of_dup {R : Machine κ → Machine κ → Prop} [Asks R] [Remaps R] [Closes R] {fd : Int}
    (halloc : ∀ va d, (∃ k : κ, (Kernel.call k (.dup fd)).1.result = .ok d) → Keeps R (Device.allocHandle va d))
    (hset : ∀ k p, Keeps R (modifyDevice fun d => { d with handles := d.handles.setMapping k p })) :
    Keeps R (Device.importFile fd) := by
  unfold Device.importFile
  refine keeps_bind (keeps_debug _ _) fun _ => keeps_bind keeps_device fun d =>
    keeps_bind_option (keeps_findFile _ _ _) (fun m => ?_) fun handle => keeps_pure handle
  refine keepsAt_bind (keeps_asking rfl rfl m) fun answer m₁ hdup => ?_
  cases answer with
  | error e => exact keeps_fail _ m₁
  | ok duplicate =>
    rw [exec_call] at hdup
    refine keeps_bind (keeps_importDuplicate _ _) (fun reply => keeps_bind (keeps_mapImportReply _ _ _) fun mapping =>
      keeps_bind (halloc _ _ ⟨m.kernel, ?_⟩) fun handle => keeps_bind (hset _ _) fun _ => keeps_pure handle) m₁
    exact Except.ok.inj (Prod.mk.inj hdup).1

theorem keeps_importFile_of {R : Machine κ → Machine κ → Prop} [Asks R] [Remaps R] [Closes R]
    (halloc : ∀ va fd, Keeps R (Device.allocHandle va fd))
    (hset : ∀ k p, Keeps R (modifyDevice fun d => { d with handles := d.handles.setMapping k p })) (fd : Int) :
    Keeps R (Device.importFile fd) := keeps_importFile_of_dup (fun va d _ => halloc va d) hset

@[grind ←] theorem quiet_importFile (fd : Int) : Keeps (Quiet (κ := κ)) (Device.importFile fd) :=
  keeps_importFile_of quiet_allocHandle
    (fun k p => quiet_modifyDevice (fun _ => rfl) fun d => HandleTable.owns_setMapping d.handles k p) fd

end Kernel

/-! ## The journal -/

/-- A line about a buffer lengthens the journal, if there is one that can be written to. -/
theorem keeps_write_of {R : Machine κ → Machine κ → Prop} [Audible R]
    (hline : ∀ e : BufferEvent, Keeps R (modifyAllocator fun a => { a with journal := e :: a.journal }))
    (name : String) (b : Buffer) (fd : Int) (imported : Option (Int × Bool)) :
    Keeps R (Allocator.write name b fd imported) := by
  unfold Allocator.write
  refine keeps_bind keeps_allocator fun a => ?_
  split
  · exact keeps_pure ()
  · exact hline _
  · exact keeps_error _ _

@[grind ←] theorem quiet_write (name : String) (b : Buffer) (fd : Int)
    (imported : Option (Int × Bool)) :
    Keeps (Quiet (κ := κ)) (Allocator.write name b fd imported) :=
  keeps_write_of (fun _ => quiet_modifyAllocator fun _ => rfl) name b fd imported

@[grind ←] theorem faultless_write (name : String) (b : Buffer) (fd : Int)
    (imported : Option (Int × Bool)) :
    Faultless (Allocator.write name b fd imported : Op κ Unit) := by
  unfold Allocator.write
  grind

@[grind ←] theorem keeps_handleFd {R : Machine κ → Machine κ → Prop} [Journey R] (b : Buffer) :
    Keeps R (Allocator.handleFd b) := by
  unfold Allocator.handleFd
  grind

theorem keeps_writeHandle_of {R : Machine κ → Machine κ → Prop} [Journey R] {name : String} {b : Buffer}
    (hwrite : ∀ fd, Keeps R (Allocator.write name b fd)) : Keeps R (Allocator.writeHandle name b) :=
  keeps_bind (keeps_handleFd b) hwrite

@[grind ←] theorem quiet_writeHandle (name : String) (b : Buffer) :
    Keeps (Quiet (κ := κ)) (Allocator.writeHandle name b) := keeps_writeHandle_of fun _ => quiet_write _ _ _ _

@[grind ←] theorem faultless_writeHandle (name : String) (b : Buffer) :
    Faultless (Allocator.writeHandle name b : Op κ Unit) := by
  unfold Allocator.writeHandle Allocator.handleFd
  grind

/-! ## Event records -/

section Audible

variable {R : Machine κ → Machine κ → Prop} [Audible R]

@[grind ←] theorem keeps_slot {R : Machine κ → Machine κ → Prop} [Journey R] (index : Int) :
    Keeps R (Device.slot index) := by
  unfold Device.slot
  grind

@[grind ←] theorem keeps_traceReady (index : Int) (seqnum : UInt64) (ready : List Callback) :
    Keeps R (Device.traceReady index seqnum ready) := by
  unfold Device.traceReady
  grind

@[grind ←] theorem keeps_eventSeq {R : Machine κ → Machine κ → Prop} [Journey R] (slot : Int64) :
    Keeps R (Device.eventSeq slot) := by
  unfold Device.eventSeq Device.eventWord
  grind

@[grind ←] theorem keeps_setEventWord (offset : Int64) (value : UInt64) :
    Keeps R (Device.setEventWord offset value) := by
  unfold Device.setEventWord
  grind

@[grind ←] theorem keeps_setEventSeq (slot : Int64) (seqnum : UInt64) :
    Keeps R (Device.setEventSeq slot seqnum) := keeps_setEventWord _ _

/-! ## Syncobjs -/

@[grind ←] theorem quiet_modifySyncobj (id : Nat) (f : Syncobj → Syncobj) :
    Keeps (Quiet (κ := κ)) (Device.modifySyncobj id f) :=
  quiet_modifyDevice (fun _ => rfl) fun _ _ _ h => h

@[grind ←] theorem keeps_syncobj {R : Machine κ → Machine κ → Prop} [Journey R] (id : Nat) :
    Keeps R (Device.syncobj id) := by
  unfold Device.syncobj
  grind

@[grind ←] theorem quiet_createSyncobj : Keeps (Quiet (κ := κ)) Device.createSyncobj := by
  unfold Device.createSyncobj
  refine keeps_bind keeps_device fun d => keeps_bind ?_ fun _ => keeps_pure _
  exact quiet_modifyDevice (fun _ => rfl) fun _ _ _ h => h

@[grind ←] theorem quiet_destroySyncobj (id : Nat) :
    Keeps (Quiet (κ := κ)) (Device.destroySyncobj id) := quiet_modifySyncobj _ _

@[grind ←] theorem quiet_copySyncobj (id : Nat) :
    Keeps (Quiet (κ := κ)) (Device.copySyncobj id) := by
  unfold Device.copySyncobj
  grind

@[grind ←] theorem keeps_traceFences (o : Syncobj) (fs : List Fence) :
    Keeps R (Device.traceFences o fs) := by
  induction fs with
  | nil => exact keeps_pure ()
  | cons f fs ih =>
    unfold Device.traceFences Device.traceFence
    grind

@[grind ←] theorem quiet_updateSyncobj (id : Nat) :
    Keeps (Quiet (κ := κ)) (Device.updateSyncobj id) := by
  unfold Device.updateSyncobj
  refine keeps_bind (keeps_syncobj id) fun o => keeps_bind (keeps_traceFences _ _) fun _ => ?_
  exact quiet_modifyDevice (fun _ => rfl) fun _ _ _ h => h

@[grind ←] theorem quiet_updateSyncobjs (os : List Syncobj) (i : Nat) :
    Keeps (Quiet (κ := κ)) (Device.updateSyncobjs os i) := by
  induction os generalizing i with
  | nil => exact keeps_pure ()
  | cons o os ih =>
    unfold Device.updateSyncobjs
    grind

@[grind ←] theorem quiet_syncobjDone (id : Nat) :
    Keeps (Quiet (κ := κ)) (Device.syncobjDone id) := by
  unfold Device.syncobjDone
  grind

/-! ## Contexts and streams -/

@[grind ←] theorem keeps_context {R : Machine κ → Machine κ → Prop} [Journey R] (id : Nat) :
    Keeps R (Device.context id) := by
  unfold Device.context
  grind

@[grind ←] theorem keeps_stream {R : Machine κ → Machine κ → Prop} [Journey R] (id : Nat) :
    Keeps R (Device.stream id) := by
  unfold Device.stream
  grind

@[grind ←] theorem quiet_modifyContext (id : Nat) (f : Context → Context) :
    Keeps (Quiet (κ := κ)) (Device.modifyContext id f) :=
  quiet_modifyDevice (fun _ => rfl) fun _ _ _ h => h

@[grind ←] theorem quiet_fenceSyncobj (o : Option Nat) (slot : UInt32) (value : UInt64) :
    Keeps (Quiet (κ := κ)) (Device.fenceSyncobj o slot value) := by
  unfold Device.fenceSyncobj
  grind

@[grind ←] theorem quiet_setLastInsert (id : Nat) (insert : UInt64) :
    Keeps (Quiet (κ := κ)) (Device.setLastInsert id insert) := quiet_modifyStream id fun _ => rfl

@[grind ←] theorem keeps_publishInsert (p : Mapping) (insert : UInt64) :
    Keeps R (Device.publishInsert p insert) := by
  unfold Device.publishInsert
  grind

@[grind ←] theorem keeps_ringDoorbell (p : Mapping) :
    Keeps R (Device.ringDoorbell p) := by
  unfold Device.ringDoorbell
  grind

end Audible

section Kernel

variable [Kernel κ]

section Parts

@[grind ←] theorem keeps_endGroup {R : Machine κ → Machine κ → Prop} [Plain R] (c : Context) :
    Keeps R (Device.endGroup c) := by
  unfold Device.endGroup Interface.terminateGroup
  grind

@[grind ←] theorem keeps_endHeap {R : Machine κ → Machine κ → Prop} [Plain R] (c : Context) :
    Keeps R (Device.endHeap c) := by
  unfold Device.endHeap Interface.terminateHeap
  grind

@[grind ←] theorem keeps_endCpuQueue {R : Machine κ → Machine κ → Prop} [Plain R] (c : Context) :
    Keeps R (Device.endCpuQueue c) := by
  unfold Device.endCpuQueue Interface.deleteCpuQueue
  grind

@[grind ←] theorem keeps_fillContext {R : Machine κ → Machine κ → Prop} [Plain R] (c : Context) :
    Keeps R (Device.fillContext c) := by
  unfold Device.fillContext
  refine keeps_bind keeps_device fun d =>
    keeps_bind (keeps_attempt (keeps_streamRequest _ _ _)) fun r => ?_
  cases r with
  | error f => exact keeps_pure _
  | ok g =>
    dsimp only
    split
    · exact keeps_pure _
    · refine keeps_bind (keeps_attempt (keeps_streamRequest _ _ _)) fun r => ?_
      cases r with
      | error f => exact keeps_bind (keeps_endGroup _) fun _ => keeps_pure _
      | ok h => exact keeps_pure _

@[grind ←] theorem keeps_drainContext {R : Machine κ → Machine κ → Prop} [Plain R] (c : Context) :
    Keeps R (Device.drainContext c) := by
  unfold Device.drainContext
  grind

/-- A new context changes the device only where it joins the others. -/
theorem keeps_createContext_of {R : Machine κ → Machine κ → Prop} [Plain R]
    (hadd : ∀ c, Keeps R (modifyDevice fun d => { d with contexts := d.contexts ++ [c] })) :
    Keeps R Device.createContext := by
  unfold Device.createContext
  refine keeps_bind (keeps_debug _ _) fun _ => keeps_bind (keeps_fillContext _) fun r => ?_
  obtain ⟨c, _ | f⟩ := r
  · exact keeps_bind keeps_device fun _ => keeps_bind (hadd c) fun _ => keeps_pure _
  · exact keeps_fail f

theorem keeps_destroyContext_of {R : Machine κ → Machine κ → Prop} [Plain R] {id : Nat}
    (hset : ∀ c, Keeps R (Device.modifyContext id fun _ => c)) : Keeps R (Device.destroyContext id) :=
  keeps_bind (keeps_debug _ _) fun _ => keeps_bind (keeps_context id) fun c =>
    keeps_bind (keeps_drainContext c) fun _ => hset _

theorem keeps_recreateContext_of {R : Machine κ → Machine κ → Prop} [Plain R] {id : Nat}
    (hset : ∀ c, Keeps R (Device.modifyContext id fun _ => c)) : Keeps R (Device.recreateContext id) := by
  unfold Device.recreateContext
  refine keeps_bind (keeps_debug _ _) fun _ => keeps_bind (keeps_context id) fun c =>
    keeps_bind (keeps_drainContext c) fun c => keeps_bind (keeps_fillContext c) fun r => ?_
  obtain ⟨c, _ | f⟩ := r
  · exact keeps_bind (hset c) fun _ => keeps_pure ()
  · exact keeps_bind (hset c) fun _ => keeps_fail f

@[grind ←] theorem quiet_createContext : Keeps (Quiet (κ := κ)) Device.createContext :=
  keeps_createContext_of fun _ => quiet_modifyDevice (fun _ => rfl) fun _ _ _ h => h

@[grind ←] theorem quiet_destroyContext (id : Nat) : Keeps (Quiet (κ := κ)) (Device.destroyContext id) :=
  keeps_destroyContext_of fun _ => quiet_modifyContext id _

@[grind ←] theorem quiet_recreateContext (id : Nat) : Keeps (Quiet (κ := κ)) (Device.recreateContext id) :=
  keeps_recreateContext_of fun _ => quiet_modifyContext id _

@[grind ←] theorem keeps_bindRing {R : Machine κ → Machine κ → Prop} [Asks R] [Remaps R] (s : Stream) :
    Keeps R (Device.bindRing s) := by
  unfold Device.bindRing
  exact keeps_bind (keeps_streamRequest_of (fun _ => keeps_asking rfl rfl) _ _) fun _ =>
    keeps_bind (keeps_context _) fun c =>
    keeps_bind (keeps_streamRequest_of (fun _ => keeps_asking rfl rfl) _ _) fun cookie =>
    keeps_bind keeps_device fun d =>
    keeps_bind_except (keeps_mapMemory _ _ _) (fun _ => keeps_pure _) fun e =>
    keeps_bind (keeps_error _ _) fun _ => keeps_fail _

/-- Unmapping a stream ends a mapping and forgets it, even where the kernel refuses. -/
theorem keeps_unmapStream_of {R : Machine κ → Machine κ → Prop} [Remaps R] {id : Nat}
    (hset : Keeps R (Device.modifyStream id fun s => { s with userIo := none })) :
    Keeps R (Device.unmapStream id) := by
  unfold Device.unmapStream
  refine keeps_bind (keeps_stream id) fun s => ?_
  cases s.userIo with
  | none => exact keeps_pure ()
  | some p =>
    exact keeps_bind_option (keeps_unmapMemory p) hset fun e => keeps_bind (keeps_error _ _) fun _ => hset

@[grind ←] theorem quiet_unmapStream (id : Nat) :
    Keeps (Quiet (κ := κ)) (Device.unmapStream id) := keeps_unmapStream_of (quiet_modifyStream id fun _ => rfl)

/-- A stream that is bound again changes the device only in its pages. -/
theorem keeps_rebindStream_of {R : Machine κ → Machine κ → Prop} [Asks R] [Remaps R] {id : Nat}
    (hset : ∀ p, Keeps R (Device.modifyStream id fun s => { s with userIo := p })) :
    Keeps R (Device.rebindStream id) :=
  keeps_bind (keeps_debug _ _) fun _ => keeps_bind (keeps_unmapStream_of (hset none)) fun _ =>
    keeps_bind (keeps_stream id) fun s => keeps_bind (keeps_bindRing s) fun p =>
    keeps_bind (hset (some p)) fun _ => keeps_debug _ _

@[grind ←] theorem quiet_rebindStream (id : Nat) : Keeps (Quiet (κ := κ)) (Device.rebindStream id) :=
  keeps_rebindStream_of fun _ => quiet_modifyStream id fun _ => rfl

/-! ## Notifications -/

@[grind ←] theorem keeps_readRecord {R : Machine κ → Machine κ → Prop} [Asks R] (size : Nat) :
    Keeps R (Device.readRecord size) := by
  unfold Device.readRecord
  grind

omit [Kernel κ] in
@[grind ←] theorem keeps_logGroupError {R : Machine κ → Machine κ → Prop} [Audible R] (n : Notification) :
    Keeps R (Device.logGroupError n) := by
  unfold Device.logGroupError
  grind

@[grind ←] theorem keeps_readNotification {R : Machine κ → Machine κ → Prop} [Asks R] :
    Keeps R Device.readNotification := by
  unfold Device.readNotification
  grind

/-! ## Parts of a release -/

/-- Unmapping a buffer ends a mapping and forgets it, even where the kernel refuses. -/
theorem keeps_unmapBuffer_of {R : Machine κ → Machine κ → Prop} [Remaps R] {id : Nat}
    (hset : Keeps R (modifyBuffer id fun b => { b with cpu := none })) : Keeps R (Allocator.unmapBuffer id) := by
  unfold Allocator.unmapBuffer
  refine keeps_bind (keeps_buffer id) fun b => ?_
  cases b.cpu with
  | none => exact keeps_pure ()
  | some p =>
    exact keeps_bind_option (keeps_unmapMemory p) hset fun e => keeps_bind (keeps_error _ _) fun _ => hset

@[grind ←] theorem quiet_unmapBuffer (id : Nat) :
    Keeps (Quiet (κ := κ)) (Allocator.unmapBuffer id) := keeps_unmapBuffer_of (quiet_modifyBuffer id fun _ => rfl)

@[grind ←] theorem faultless_unmapBuffer (id : Nat) :
    Faultless (Allocator.unmapBuffer id : Op κ Unit) := by
  unfold Allocator.unmapBuffer
  grind

theorem keeps_freeBufferRegion_of {R : Machine κ → Machine κ → Prop} [Audible R]
    (hfree : ∀ va, Keeps R (Device.free va)) (id : Nat) : Keeps R (Allocator.freeBufferRegion id) := by
  unfold Allocator.freeBufferRegion
  refine keeps_bind (keeps_buffer id) fun b => ?_
  split
  · exact keeps_bind_except (keeps_attempt (hfree _)) (fun _ => keeps_pure ()) fun _ => keeps_error _ _
  · exact keeps_pure ()

@[grind ←] theorem quiet_freeBufferRegion (id : Nat) :
    Keeps (Quiet (κ := κ)) (Allocator.freeBufferRegion id) := keeps_freeBufferRegion_of keeps_freeDevice id

@[grind ←] theorem faultless_freeBufferRegion (id : Nat) :
    Faultless (Allocator.freeBufferRegion id : Op κ Unit) := by
  unfold Allocator.freeBufferRegion
  grind

@[grind ←] theorem keeps_seconds {R : Machine κ → Machine κ → Prop} [Journey R] :
    Keeps R (Allocator.seconds : Op κ Int) := by
  unfold Allocator.seconds
  grind

@[grind ←] theorem faultless_seconds : Faultless (Allocator.seconds : Op κ Int) := by
  unfold Allocator.seconds
  grind

omit [Kernel κ] in
@[grind ←] theorem keeps_cachedBuffer {R : Machine κ → Machine κ → Prop} [Journey R] (entry : Nat) :
    Keeps R (Allocator.cachedBuffer entry : Op κ Nat) := by
  unfold Allocator.cachedBuffer
  grind

omit [Kernel κ] in
@[grind ←] theorem faultless_cachedBuffer (entry : Nat) :
    Faultless (Allocator.cachedBuffer entry : Op κ Nat) := by
  unfold Allocator.cachedBuffer
  grind

omit [Kernel κ] in
/-- Unused buffers are marked in their memory only. -/
@[grind ←] theorem keeps_markUnused {R : Machine κ → Machine κ → Prop} [Audible R] (id : Nat) :
    Keeps R (Allocator.markUnused id) := by
  unfold Allocator.markUnused
  grind

omit [Kernel κ] in
@[grind ←] theorem faultless_markUnused (id : Nat) :
    Faultless (Allocator.markUnused id : Op κ Unit) := by
  unfold Allocator.markUnused
  grind

/-! ## Parts of creating and importing -/

@[grind ←] theorem keeps_maintain {R : Machine κ → Machine κ → Prop} [Asks R] (id : Nat) (offset length : Int64)
    (invalidate : Bool) :
    Keeps R (Buffer.maintain id offset length invalidate) := by
  unfold Buffer.maintain
  grind

@[grind ←] theorem keeps_clearBuffer {R : Machine κ → Machine κ → Prop} [Asks R] (id : Nat) :
    Keeps R (Allocator.clearBuffer id) := by
  unfold Allocator.clearBuffer Buffer.clean
  refine keeps_bind (keeps_buffer id) fun b => ?_
  grind

@[grind ←] theorem faultless_clearBuffer (id : Nat) :
    Faultless (Allocator.clearBuffer id : Op κ Unit) := by
  unfold Allocator.clearBuffer
  refine faultless_bind (faultless_buffer id) fun b => ?_
  grind

@[grind ←] theorem keeps_importedBuffer {R : Machine κ → Machine κ → Prop} [Asks R] [Remaps R] (fd : Int)
    (handle : Nat) (h : Handle) :
    Keeps R (Allocator.importedBuffer fd handle h) := by
  unfold Allocator.importedBuffer Allocator.fileSize
  grind

end Parts

/-! ## Submission contexts and batches -/

omit [Kernel κ] in
@[grind ←] theorem keeps_getSubmitter {R : Machine κ → Machine κ → Prop} [Journey R] (id : Nat) :
    Keeps R (Submitter.get id) := by
  unfold Submitter.get
  grind

omit [Kernel κ] in
theorem bind_getSubmitter_ok {α : Type} {id : Nat} {f : Submitter → Op κ α} {m m' : Machine κ} {a : α}
    (he : (Submitter.get id >>= f).exec m = (.ok a, m')) :
    ∃ s, m.submitters[id]? = some s ∧ (f s).exec m = (.ok a, m') := by
  obtain ⟨s, m₁, h₁, he⟩ := bind_ok he
  cases hs : m.submitters[id]? with
  | none =>
    have : (Submitter.get id : Op κ Submitter).exec m = (.error .crash, m) := by
      rw [Submitter.get, exec_bind]
      simp [hs]
    rw [this] at h₁
    cases h₁
  | some s' =>
    have : (Submitter.get id : Op κ Submitter).exec m = (.ok s', m) := by
      rw [Submitter.get, exec_bind]
      simp [hs]
    rw [this] at h₁
    cases h₁
    exact ⟨s, rfl, he⟩

omit [Kernel κ] in
@[grind ←] theorem quiet_modifySubmitter (id : Nat) (f : Submitter → Submitter) :
    Keeps (Quiet (κ := κ)) (Submitter.modify id f) := fun _ _ => .of_eq rfl rfl rfl

omit [Kernel κ] in
@[grind ←] theorem keeps_getBatch {R : Machine κ → Machine κ → Prop} [Journey R] (id : Nat) :
    Keeps R (Batch.get id) := by
  unfold Batch.get
  grind

omit [Kernel κ] in
theorem bind_getBatch_ok {α : Type} {id : Nat} {f : Batch → Op κ α} {m m' : Machine κ} {a : α}
    (he : (Batch.get id >>= f).exec m = (.ok a, m')) :
    ∃ b, m.batches[id]? = some b ∧ (f b).exec m = (.ok a, m') := by
  obtain ⟨b, m₁, h₁, he⟩ := bind_ok he
  unfold Batch.get at h₁
  obtain ⟨d, m₂, h₂, h₁⟩ := bind_ok h₁
  cases h₂
  cases hb : m.batches[id]? with
  | none => simp [hb] at h₁
  | some b' =>
    rw [hb] at h₁
    cases h₁
    exact ⟨b, rfl, he⟩

omit [Kernel κ] in
@[grind ←] theorem quiet_startBatch (submitter : Nat) :
    Keeps (Quiet (κ := κ)) (Batch.start submitter) := by
  unfold Batch.start
  refine keeps_bind keeps_requireAllocator fun _ => keeps_bind keeps_allocator fun a =>
    keeps_bind keeps_get fun m => keeps_bind ?_ fun _ => keeps_pure _
  intro m _
  exact ⟨⟨rfl, 1, by simp [Machine.standings, Batch.standing]⟩, rfl, fun _ _ h => h⟩

omit [Kernel κ] in
@[grind ←] theorem quiet_addSubmitter (s : Submitter) :
    Keeps (Quiet (κ := κ)) (Submitter.add s) := by
  unfold Submitter.add
  refine keeps_bind keeps_get fun m => keeps_bind ?_ fun _ => keeps_pure _
  exact fun m _ => .of_eq rfl rfl rfl

@[grind ←] theorem quiet_rebindQueues (qs : List Queue) :
    Keeps (Quiet (κ := κ)) (Submitter.rebindQueues qs) := by
  induction qs with
  | nil => exact keeps_pure none
  | cons q qs ih =>
    unfold Submitter.rebindQueues
    grind

end Kernel

end Mali
