import Mali.Proofs.Dependencies

/-!
# Pending accesses

A buffer knows which kinds of access are pending on it, apart from its recorded uses.  Recording a use
adds to them.  Only a wait that came true takes some away, and a buffer that enters the cache of a
command stream device forgets them all; by then it has no references.  So what is pending on a buffer
stays pending as long as the buffer is in use and nobody waits for it.

* `Access.Within`: a set of kinds of access is part of another.
* `Retains`: what is pending on a buffer stays pending.
* `SameCards`: the cache and what it goes by stay as they are, and what is pending stays pending.
* `OfAllocator`: a relation that looks at the allocator only, which slots and handles cannot change.
* `cards_free`, `cards_reference` and the like: operations that leave the cache alone.
* `retains_evict`, `retains_unreference` and the like: operations that do more.
* `collect_access`: what a batch does to a buffer is pending once its uses are collected.
* `Step.retains`: a step keeps what is pending on a buffer in use.
-/

namespace Mali

open Op

variable {κ : Type}

namespace Access

/-- Every kind of access in one set is in another. -/
def Within (a b : UInt32) : Prop := a &&& b = a

instance (a b : UInt32) : Decidable (Within a b) := inferInstanceAs (Decidable (a &&& b = a))

theorem Within.refl (a : UInt32) : Within a a := UInt32.and_self

theorem Within.trans {a b c : UInt32} (h : Within a b) (h' : Within b c) : Within a c := by
  unfold Within at *
  rw [← h, UInt32.and_assoc, h']

theorem within_or_left (a b : UInt32) : Within a (a ||| b) := by
  apply UInt32.eq_of_toBitVec_eq
  ext i hi
  simpa using Or.inl

theorem within_or_right (a b : UInt32) : Within b (a ||| b) := by
  rw [UInt32.or_comm]
  exact within_or_left b a

theorem Within.and {a b c : UInt32} (h : Within a b) (h' : Within a c) : Within a (b &&& c) := by
  unfold Within at *
  rw [← UInt32.and_assoc, h, h']

end Access

/-- The kinds of access that are pending on a buffer. -/
def Machine.access (m : Machine κ) (x : Nat) : UInt32 :=
  ((m.allocator.buffers[x]?).map (·.access)).getD 0

theorem Machine.access_of_buffer {m : Machine κ} {x : Nat} {b : Buffer}
    (h : m.allocator.buffers[x]? = some b) : m.access x = b.access := by
  rw [access, h]
  rfl

/-- Relations that look at the kernel, the allocator and the table of handles only. -/
class OfTables (R : Machine κ → Machine κ → Prop) : Prop extends Journey R where
  of_tables {m m' : Machine κ} : m'.kernel = m.kernel → m'.allocator = m.allocator →
    m'.device.handles = m.device.handles → R m m'

instance (R : Machine κ → Machine κ → Prop) [OfTables R] : OfState R where
  of_state hk hd ha _ _ := OfTables.of_tables hk ha (congrArg Device.handles hd)

/-- What a device holds on to: what opening it prepared, its handles, and the pages of its streams. -/
def Device.fixtures (d : Device) :
    (Int × Generation × Nat) × HandleTable × List (Option Mapping) × List (Option Mapping) :=
  ((d.fd, d.generation, d.setupDone), d.handles, [d.tracking, d.userRegisters, d.eventMemory],
    d.streams.map (·.userIo))

/-- Relations that look at a device only for what it holds on to. -/
class Slotwise (R : Machine κ → Machine κ → Prop) : Prop extends Journey R where
  of_slots {m m' : Machine κ} : m'.kernel = m.kernel → m'.calls = m.calls → m'.allocator = m.allocator →
    m'.device.fixtures = m.device.fixtures → R m m'

instance (R : Machine κ → Machine κ → Prop) [Slotwise R] : OfTrace R where
  of_trace hk hc hd ha _ _ := Slotwise.of_slots hk hc ha (by rw [hd])

instance (R : Machine κ → Machine κ → Prop) [OfTables R] : Slotwise R where
  of_slots hk _ ha hd := OfTables.of_tables hk ha (congrArg (·.2.1) hd)

/-- Relations that look neither at the slots, nor at how many are bound, nor at the syncobjs. -/
class Slotless (R : Machine κ → Machine κ → Prop) : Prop extends Audible R where
  of_pace {m : Machine κ} (slots : Vector EventSlot slotCount) (bound : Nat) (syncobjs : List Syncobj) :
    R m { m with device := { m.device with slots, bound, syncobjs } }

instance (R : Machine κ → Machine κ → Prop) [Slotwise R] : Slotless R where
  of_pace _ _ _ := Slotwise.of_slots rfl rfl rfl rfl

/-- Relations that do not look at the slots. -/
class Timeless (R : Machine κ → Machine κ → Prop) : Prop extends Audible R where
  of_slots {m : Machine κ} (slots : Vector EventSlot slotCount) : R m { m with device := { m.device with slots } }

instance (R : Machine κ → Machine κ → Prop) [Slotless R] : Timeless R where
  of_slots {m} slots := Slotless.of_pace slots m.device.bound m.device.syncobjs

/-- Relations that no report on a slot breaks, and no callback that comes to wait or is taken off. -/
class Ticking (R : Machine κ → Machine κ → Prop) : Prop extends Audible R where
  of_callbackAll (c : Callback) : Keeps R (Device.callbackAll c)
  of_advanceSlot (i : Int) (n : UInt64) : Keeps R (Device.advanceSlot i n)
  of_takeCallbacks (i : Int) (n : UInt64) : Keeps R (Device.takeCallbacks i n)

/-- Relations that look at the allocator only. -/
class OfAllocator (R : Machine κ → Machine κ → Prop) : Prop extends Journey R where
  of_allocator {m m' : Machine κ} : m'.allocator = m.allocator → R m m'

instance (R : Machine κ → Machine κ → Prop) [OfAllocator R] : Inward R where
  of_eq _ ha _ _ := OfAllocator.of_allocator ha

instance (R : Machine κ → Machine κ → Prop) [OfAllocator R] : OfTables R where
  of_tables _ ha _ := OfAllocator.of_allocator ha

/-- The allocator stays as it is. -/
def SameAllocator (m m' : Machine κ) : Prop := m'.allocator = m.allocator

instance : OfAllocator (SameAllocator (κ := κ)) where
  refl _ := rfl
  trans h h' := Eq.trans h' h
  of_allocator h := h

/-- What is pending on a buffer stays pending. -/
def Retains (x : Nat) (m m' : Machine κ) : Prop := Access.Within (m.access x) (m'.access x)

namespace Retains

variable {x : Nat} {m m' : Machine κ}

theorem of_buffers (h : m'.allocator.buffers = m.allocator.buffers) : Retains x m m' := by
  rw [Retains, Machine.access, Machine.access, h]
  exact .refl _

instance : OfAllocator (Retains (κ := κ) x) where
  refl _ := .refl _
  trans := .trans
  of_allocator ha := of_buffers (by rw [ha])

/-- A buffer changes. -/
theorem of_modify {y : Nat} {f : Buffer → Buffer}
    (hf : ∀ b, m.allocator.buffers[x]? = some b → x = y → Access.Within b.access (f b).access)
    (h : m'.allocator.buffers = m.allocator.buffers.modify y f) : Retains x m m' := by
  rw [Retains, Machine.access, Machine.access, h, List.getElem?_modify]
  cases hb : m.allocator.buffers[x]? with
  | none => exact .refl _
  | some b =>
    by_cases hyx : y = x
    · simpa [hyx] using hf b hb hyx.symm
    · simpa [hyx] using .refl _

end Retains

/-! ## Cards -/

/-- What the cache goes by: the size of a buffer, when it entered the cache, and its class there. -/
def Buffer.card (b : Buffer) : Int64 × Int × Option Nat := (b.size, b.lastUsed, b.cachedIn)

/-- What the cache goes by apart from the buffers. -/
def Allocator.shelves (a : Allocator) : BufferCache × AllocatorOptions × Nat :=
  (a.cache, a.options, a.epoch)

/-- The cache and what it goes by stay as they are, and so does what is pending.  New buffers are not in the
cache. -/
structure SameCards (m m' : Machine κ) : Prop where
  shelves : m'.allocator.shelves = m.allocator.shelves
  kept : ∀ (x : Nat) (b : Buffer), m.allocator.buffers[x]? = some b →
    ∃ b', m'.allocator.buffers[x]? = some b' ∧ b'.card = b.card ∧ Access.Within b.access b'.access
  fresh : ∀ (x : Nat) (b : Buffer), m.allocator.buffers[x]? = none →
    m'.allocator.buffers[x]? = some b → b.cachedIn = none

namespace SameCards

variable {m m₁ m' : Machine κ}

theorem of_buffers (hs : m'.allocator.shelves = m.allocator.shelves)
    (h : m'.allocator.buffers = m.allocator.buffers) : SameCards m m' where
  shelves := hs
  kept x b hb := ⟨b, by rwa [h], rfl, .refl _⟩
  fresh x b hnone hb := by
    rw [h, hnone] at hb
    cases hb

/-- A buffer changes. -/
theorem of_modify {y : Nat} {f : Buffer → Buffer} (hcard : ∀ b, (f b).card = b.card)
    (haccess : ∀ b, Access.Within b.access (f b).access)
    (hs : m'.allocator.shelves = m.allocator.shelves)
    (h : m'.allocator.buffers = m.allocator.buffers.modify y f) : SameCards m m' where
  shelves := hs
  kept x b hb := by
    rw [h, List.getElem?_modify, hb]
    by_cases hyx : y = x
    · exact ⟨f b, by simp [hyx], hcard b, haccess b⟩
    · exact ⟨b, by simp [hyx], rfl, .refl _⟩
  fresh x b hnone hb := by
    rw [h, List.getElem?_modify, hnone] at hb
    cases hb

/-- A new buffer takes the place of none. -/
theorem of_append {b : Buffer} (hcached : b.cachedIn = none)
    (hs : m'.allocator.shelves = m.allocator.shelves)
    (h : m'.allocator.buffers = m.allocator.buffers ++ [b]) : SameCards m m' where
  shelves := hs
  kept x b' hb := by
    refine ⟨b', ?_, rfl, .refl _⟩
    rw [h, List.getElem?_append_left (List.getElem?_eq_some_iff.mp hb).1, hb]
  fresh x b' hnone hb := by
    rw [h, List.getElem?_append_right (List.getElem?_eq_none_iff.mp hnone)] at hb
    rw [List.mem_singleton.mp (List.mem_of_getElem? hb), hcached]

theorem trans (h : SameCards m m₁) (h' : SameCards m₁ m') : SameCards m m' where
  shelves := h'.shelves.trans h.shelves
  kept x b hb := by
    obtain ⟨b₁, hb₁, hcard, haccess⟩ := h.kept x b hb
    obtain ⟨b', hb', hcard', haccess'⟩ := h'.kept x b₁ hb₁
    exact ⟨b', hb', hcard'.trans hcard, haccess.trans haccess'⟩
  fresh x b hnone hb := by
    cases hb₁ : m₁.allocator.buffers[x]? with
    | none => exact h'.fresh x b hb₁ hb
    | some b₁ =>
      obtain ⟨b', hb', hcard, -⟩ := h'.kept x b₁ hb₁
      rw [hb] at hb'
      cases hb'
      have hsame : b.cachedIn = b₁.cachedIn := congrArg (·.2.2) hcard
      rw [hsame, h.fresh x b₁ hnone hb₁]

instance : OfAllocator (SameCards (κ := κ)) where
  refl _ := of_buffers rfl rfl
  trans := trans
  of_allocator ha := of_buffers (by rw [ha]) (by rw [ha])

theorem retains (h : SameCards m m') (x : Nat) : Retains x m m' := by
  rw [Retains, Machine.access]
  cases hb : m.allocator.buffers[x]? with
  | none => exact UInt32.zero_and
  | some b =>
    obtain ⟨b', hb', -, haccess⟩ := h.kept x b hb
    rw [Machine.access_of_buffer hb']
    exact haccess

end SameCards

theorem retains_of_cards {α : Type} {op : Op κ α} (h : Keeps SameCards op) (x : Nat) : Keeps (Retains x) op :=
  h.mono fun _ _ hc => hc.retains x

section OfAllocator

variable {R : Machine κ → Machine κ → Prop} [OfAllocator R]

/-! ## What leaves the allocator alone -/

theorem keeps_modifyDevice (f : Device → Device) : Keeps R (modifyDevice f) :=
  keeps_modify fun _ => OfAllocator.of_allocator rfl

theorem keeps_allocHandle (va : UInt64) (fd : Int) : Keeps R (Device.allocHandle va fd) :=
  keeps_allocHandle_of (fun _ => keeps_modifyDevice _) va fd

theorem keeps_freeHandle [Kernel κ] (handle : Int) : Keeps R (Device.freeHandle handle) :=
  keeps_freeHandle_of (fun _ => keeps_modifyDevice _) handle

end OfAllocator

section Ticking

variable {R : Machine κ → Machine κ → Prop} [Ticking R]

theorem keeps_callbackAll (callback : Callback) : Keeps R (Device.callbackAll callback) := Ticking.of_callbackAll _

theorem keeps_advanceSlot (i : Int) (n : UInt64) : Keeps R (Device.advanceSlot i n) := Ticking.of_advanceSlot _ _

theorem keeps_takeCallbacks (i : Int) (n : UInt64) : Keeps R (Device.takeCallbacks i n) := Ticking.of_takeCallbacks _ _

theorem keeps_advanceFromRecords (is : List Nat) : Keeps R (Device.advanceFromRecords is) := by
  induction is with
  | nil => exact keeps_pure _
  | cons i is ih =>
    exact keeps_bind (keeps_eventSeq _) fun n => keeps_bind (keeps_slot _) fun s =>
      keeps_bind (keeps_trace _ _) fun _ => keeps_bind (keeps_advanceSlot _ _) fun cs =>
      keeps_bind ih fun _ => keeps_pure _

end Ticking

section Timeless

variable {R : Machine κ → Machine κ → Prop} [Timeless R]

theorem keeps_setSlot (i : Nat) (s : EventSlot) : Keeps R (Device.setSlot i s) :=
  keeps_modify fun _ => Timeless.of_slots _

instance : Ticking R where
  of_callbackAll _ :=
    keeps_bind keeps_device fun _ => keeps_bind (keeps_modify fun _ => Timeless.of_slots _) fun _ => keeps_pure _
  of_advanceSlot i n := by
    unfold Device.advanceSlot
    refine keeps_bind (keeps_slot i) fun s => ?_
    split
    · exact keeps_bind (keeps_trace _ _) fun _ => keeps_pure _
    · exact keeps_bind (keeps_setSlot _ _) fun _ => keeps_bind (keeps_traceReady _ _ _) fun _ =>
        keeps_bind (keeps_checkRule _) fun _ => keeps_pure _
  of_takeCallbacks i n := keeps_bind (keeps_slot i) fun s => keeps_bind (keeps_setSlot _ _) fun _ =>
    keeps_bind (keeps_traceReady _ _ _) fun _ => keeps_pure _

end Timeless

section Slotless

variable {R : Machine κ → Machine κ → Prop} [Slotless R]

theorem keeps_updateSyncobjs (os : List Syncobj) (i : Nat) : Keeps R (Device.updateSyncobjs os i) := by
  have hone (i : Nat) : Keeps R (Device.updateSyncobj i) :=
    keeps_bind (keeps_syncobj i) fun o => keeps_bind (keeps_traceFences _ _) fun _ =>
      keeps_modify fun _ => Slotless.of_pace _ _ _
  induction os generalizing i with
  | nil => exact keeps_pure ()
  | cons o os ih =>
    unfold Device.updateSyncobjs
    split
    · exact keeps_bind (hone i) fun _ => ih _
    · exact keeps_bind (keeps_pure ()) fun _ => ih _

theorem keeps_clearSlot (i : Nat) : Keeps R (Device.clearSlot i) := by
  unfold Device.clearSlot
  exact keeps_bind (keeps_takeCallbacks _ _) fun _ => keeps_bind (keeps_slot _) fun e =>
    keeps_bind (keeps_setSlot _ _) fun _ => keeps_bind keeps_device fun d =>
    keeps_bind (keeps_updateSyncobjs _ _) fun _ => keeps_bind (keeps_setSlot _ _) fun _ => keeps_pure _

theorem keeps_takeSlot : Keeps R Device.takeSlot := by
  have hend : Keeps R (do
      let n := (← device).bound
      modifyDevice fun d => { d with bound := d.bound + 1 }
      return n) :=
    keeps_bind keeps_device fun _ => keeps_bind (keeps_modify fun _ => Slotless.of_pace _ _ _) fun _ => keeps_pure _
  unfold Device.takeSlot
  refine keeps_bind keeps_device fun d => ?_
  split
  · exact keeps_bind (keeps_error _ _) fun _ =>
      keeps_bind (keeps_modify fun _ => Slotless.of_pace _ _ _) fun _ => hend
  · exact keeps_bind (keeps_pure ()) fun _ => hend

theorem keeps_startSlot (i : Nat) : Keeps R (Device.startSlot i) := by
  unfold Device.startSlot
  exact keeps_bind keeps_device fun d => keeps_bind (keeps_setEventWord _ _) fun _ =>
    keeps_bind (keeps_setEventWord _ _) fun _ => keeps_bind (keeps_setEventWord _ _) fun _ =>
    keeps_bind (keeps_setEventWord _ _) fun _ => keeps_bind (keeps_slot _) fun s => keeps_setSlot _ _

theorem keeps_submitSlot (i : Int) (n : UInt64) : Keeps R (Device.submitSlot i n) :=
  keeps_bind (keeps_slot i) fun _ => keeps_setSlot _ _

/-- A new stream changes the device beside its slot only where it joins the others. -/
theorem keeps_attachStream_of
    (hadd : ∀ s : Stream, Keeps R (modifyDevice fun d => { d with streams := d.streams ++ [s] })) (s : Stream) :
    Keeps R (Device.attachStream s) :=
  keeps_bind keeps_takeSlot fun i => keeps_bind (keeps_startSlot i) fun _ => keeps_bind keeps_device fun _ =>
    keeps_bind (hadd _) fun _ => keeps_pure _

theorem keeps_bindStream_of [Kernel κ] [Asks R] [Remaps R] {ctx : Nat}
    (hcount : Keeps R (Device.modifyContext ctx fun c => { c with interfaces := c.interfaces + 1 }))
    (hadd : ∀ s : Stream, Keeps R (modifyDevice fun d => { d with streams := d.streams ++ [s] })) (va : UInt64)
    (size : UInt32) : Keeps R (Device.bindStream ctx va size) :=
  keeps_bind (keeps_debug _ _) fun _ => keeps_bind (keeps_context ctx) fun _ => keeps_bind hcount fun _ =>
    keeps_bind (keeps_bindRing _) fun _ => keeps_attachStream_of hadd _

end Slotless

section Slotwise

variable {R : Machine κ → Machine κ → Prop} [Slotwise R]

/-- A change of a device that leaves alone what it holds on to. -/
theorem keeps_editSlots {f : Device → Device} (hf : ∀ d, (f d).fixtures = d.fixtures) :
    Keeps R (modifyDevice f) :=
  keeps_modify fun m => Slotwise.of_slots rfl rfl rfl (hf m.device)

theorem keeps_modifyBatch (id : Nat) (f : Batch → Batch) : Keeps R (Batch.modify id f) :=
  fun _ _ => Slotwise.of_slots rfl rfl rfl rfl

theorem keeps_numberBatch (id batch : Nat) : Keeps R (Submitter.numberBatch id batch) :=
  keeps_bind (keeps_getBatch batch) fun _ _ _ => Slotwise.of_slots rfl rfl rfl rfl

theorem keeps_cleanDeps (batch : Nat) : Keeps R (Submitter.cleanDeps batch) :=
  keeps_bind keeps_device fun _ => keeps_modifyBatch _ _

end Slotwise

section OfTables

variable {R : Machine κ → Machine κ → Prop} [OfTables R]

/-- A change of the device that leaves the handles alone. -/
theorem keeps_editDevice {f : Device → Device} (hf : ∀ d, (f d).handles = d.handles) :
    Keeps R (modifyDevice f) := keeps_modify fun m => OfTables.of_tables rfl rfl (hf m.device)

theorem keeps_attachStream (s : Stream) : Keeps R (Device.attachStream s) :=
  keeps_attachStream_of (fun _ => keeps_editDevice fun _ => rfl) s

end OfTables

variable {x : Nat}

/-! ## Changing the allocator -/

theorem retains_modifyAllocator {f : Allocator → Allocator} (hf : ∀ a, (f a).buffers = a.buffers) :
    Keeps (Retains (κ := κ) x) (modifyAllocator f) := keeps_modify fun m => .of_buffers (hf m.allocator)

/-- A change that leaves what is pending alone. -/
theorem retains_editBuffer (y : Nat) {f : Buffer → Buffer} (hf : ∀ b, (f b).access = b.access) :
    Keeps (Retains (κ := κ) x) (modifyBuffer y f) :=
  keeps_modify fun _ => .of_modify (fun b _ _ => by rw [hf]; exact .refl _) rfl

theorem cards_modifyAllocator {f : Allocator → Allocator} (hs : ∀ a, (f a).shelves = a.shelves)
    (hf : ∀ a, (f a).buffers = a.buffers) : Keeps (SameCards (κ := κ)) (modifyAllocator f) :=
  keeps_modify fun m => .of_buffers (hs m.allocator) (hf m.allocator)

theorem cards_modifyBuffer (y : Nat) {f : Buffer → Buffer} (hcard : ∀ b, (f b).card = b.card)
    (haccess : ∀ b, Access.Within b.access (f b).access) :
    Keeps (SameCards (κ := κ)) (modifyBuffer y f) :=
  keeps_modify fun _ => .of_modify hcard haccess rfl rfl

/-- A change that leaves the card and what is pending alone. -/
theorem cards_editBuffer (y : Nat) {f : Buffer → Buffer} (hcard : ∀ b, (f b).card = b.card)
    (hf : ∀ b, (f b).access = b.access) : Keeps (SameCards (κ := κ)) (modifyBuffer y f) :=
  cards_modifyBuffer y hcard fun b => by
    rw [hf]
    exact .refl _

theorem retains_modifyBuffer_of_ne {y : Nat} (hy : y ≠ x) (f : Buffer → Buffer) :
    Keeps (Retains (κ := κ) x) (modifyBuffer y f) :=
  keeps_modify fun _ => .of_modify (fun _ _ h => absurd h.symm hy) rfl

theorem cards_write (name : String) (b : Buffer) (fd : Int) (imported : Option (Int × Bool)) :
    Keeps (SameCards (κ := κ)) (Allocator.write name b fd imported) :=
  keeps_write_of (fun _ => cards_modifyAllocator (fun _ => rfl) fun _ => rfl) name b fd imported

theorem cards_writeHandle (name : String) (b : Buffer) :
    Keeps (SameCards (κ := κ)) (Allocator.writeHandle name b) := keeps_writeHandle_of fun _ => cards_write _ _ _ _

section Kernel

variable [Kernel κ]

/-! ## Freeing -/

theorem cards_unmapBuffer (y : Nat) : Keeps (SameCards (κ := κ)) (Allocator.unmapBuffer y) :=
  keeps_unmapBuffer_of (cards_editBuffer y (fun _ => rfl) fun _ => rfl)

theorem cards_freeBufferRegion (y : Nat) :
    Keeps (SameCards (κ := κ)) (Allocator.freeBufferRegion y) := keeps_freeBufferRegion_of keeps_freeDevice y

theorem cards_free (y : Nat) : Keeps (SameCards (κ := κ)) (Allocator.free y) := by
  unfold Allocator.free
  refine keeps_bind (keeps_buffer y) fun b => keeps_bind (cards_writeHandle _ _) fun _ =>
    keeps_bind (cards_unmapBuffer y) fun _ => keeps_bind (cards_freeBufferRegion y) fun _ => ?_
  refine keeps_bind (cards_modifyAllocator (fun _ => rfl) fun _ => rfl) fun _ =>
    keeps_bind (keeps_freeHandle _) fun _ => ?_
  exact keeps_bind (cards_editBuffer y (fun _ => rfl) fun _ => rfl) fun _ =>
    cards_modifyAllocator (fun _ => rfl) fun _ => rfl

omit [Kernel κ] in
theorem retains_uncache (y : Nat) : Keeps (Retains (κ := κ) x) (Allocator.uncache y) :=
  keeps_uncache_of (fun _ => retains_modifyAllocator fun _ => rfl) (retains_editBuffer y fun _ => rfl)

theorem retains_evict (y : Nat) : Keeps (Retains (κ := κ) x) (Allocator.evict y) := by
  unfold Allocator.evict
  exact keeps_bind (retains_uncache y) fun _ =>
    keeps_bind (retains_modifyAllocator fun _ => rfl) fun _ => retains_of_cards (cards_free y) x

/-! ## Releasing another buffer -/

section Other

variable {y : Nat} (hy : y ≠ x)

include hy

theorem retains_finish : Keeps (Retains (κ := κ) x) (Allocator.finish y) :=
  have henter : Keeps (Retains (κ := κ) x) (Allocator.enterCache y) :=
    keeps_enterCache_of (fun _ => retains_modifyAllocator fun _ => rfl)
      fun _ _ _ => retains_modifyBuffer_of_ne hy _
  keeps_finish_of henter (keeps_evictOld retains_evict) (retains_editBuffer y fun _ => rfl) (keeps_markUnused y)
    (retains_of_cards (cards_free y) x)

theorem retains_beginRelease : Keeps (Retains (κ := κ) x) (Buffer.beginRelease y) :=
  have hawait : Keeps (Retains (κ := κ) x) (Device.callbackAll (.release y)) :=
    keeps_bind keeps_device fun _ => keeps_bind (keeps_modifyDevice _) fun _ => keeps_pure _
  keeps_beginRelease_of (fun _ _ => retains_of_cards (cards_writeHandle _ _) x) (retains_finish hy)
    (retains_editBuffer y fun _ => rfl) hawait fun _ => retains_editBuffer y fun _ => rfl

end Other

/-! ## Counting references -/

omit [Kernel κ] in
theorem cards_reference (y : Nat) : Keeps (SameCards (κ := κ)) (Buffer.reference y) :=
  keeps_reference_of (cards_editBuffer y (fun _ => rfl) fun _ => rfl)

omit [Kernel κ] in
theorem cards_revive (y : Nat) : Keeps (SameCards (κ := κ)) (Allocator.revive y) :=
  keeps_revive_of (cards_editBuffer y (fun _ => rfl) fun _ => rfl) (cards_editBuffer y (fun _ => rfl) fun _ => rfl)

/-- A reference goes.  If it is the last one of the buffer, its release may put it into the cache. -/
theorem retains_unreference {y : Nat} {m m' : Machine κ} {u : Unit}
    (hy : ∀ a, m.storage.accounts[x]? = some a → y = x → a.refs ≠ 1)
    (he : (Buffer.unreference y).exec m = (.ok u, m')) : Retains x m m' := by
  unfold Buffer.unreference at he
  obtain ⟨_, m₁, h₁, he⟩ := bind_ok he
  have hstart : Retains x m m₁ := Keeps.ok (by exact retains_editBuffer y fun _ => rfl) h₁
  have hedit : Edits y (fun a => { a with refs := a.refs - 1 }) m m₁ :=
    .of_modifyBuffer h₁ fun _ => rfl
  obtain ⟨b, hb, he⟩ := bind_buffer_ok he
  obtain ⟨a, ha, hab⟩ := exists_account_of_modify hedit hb
  have hrefs : b.refs = a.refs - 1 := congrArg Account.refs hab
  split at he
  · simp at he
  · split at he
    · rename_i h₀
      have hne : y ≠ x := by
        rintro rfl
        exact hy a ha rfl (Int32.eq_one_of_pred (hrefs ▸ h₀))
      exact Journey.trans hstart ((retains_beginRelease hne).ok he)
    · cases he
      exact hstart

/-- A callback of a release runs.  Only for a buffer without references it may be the last one. -/
theorem retains_queueDrained {y : Nat} {m m' : Machine κ} {u : Unit}
    (hy : ∀ a, m.storage.accounts[x]? = some a → y = x → a.refs ≠ 0)
    (he : (Buffer.queueDrained y).exec m = (.ok u, m')) : Retains x m m' := by
  unfold Buffer.queueDrained at he
  obtain ⟨_, m₁, h₁, he⟩ := bind_ok he
  have hstart : Retains x m m₁ := Keeps.ok (by exact retains_editBuffer y fun _ => rfl) h₁
  have hedit : Edits y (fun a => { a with gpuRefs := a.gpuRefs - 1 }) m m₁ :=
    .of_modifyBuffer h₁ fun _ => rfl
  obtain ⟨b, hb, he⟩ := bind_buffer_ok he
  obtain ⟨a, ha, hab⟩ := exists_account_of_modify hedit hb
  have hrefs : b.refs = a.refs := congrArg Account.refs hab
  split at he
  · rename_i h₀
    have hne : y ≠ x := by
      rintro rfl
      exact hy a ha rfl (hrefs ▸ h₀.2)
    obtain ⟨_, m₂, h₂, he⟩ := bind_ok he
    have hjournal : Retains x m₁ m₂ := ((cards_writeHandle _ _).ok h₂).retains x
    exact Journey.trans hstart (Journey.trans hjournal ((retains_finish hne).ok he))
  · cases he
    exact hstart

theorem retains_runCallback {callback : Callback} {m m' : Machine κ} {u : Unit}
    (hx : ∀ a, m.storage.accounts[x]? = some a → a.refs ≠ 0)
    (he : (Device.runCallback callback).exec m = (.ok u, m')) : Retains x m m' := by
  cases callback with
  | report id => exact (keeps_report (R := Retains x) _).ok he
  | release y => exact retains_queueDrained (fun a ha _ => hx a ha) he

/-! ## New buffers -/

omit [Kernel κ] in
theorem cards_addBuffer {b : Buffer} (hcached : b.cachedIn = none) :
    Keeps (SameCards (κ := κ)) (Allocator.addBuffer b) :=
  keeps_bind keeps_allocator fun _ =>
    keeps_bind (keeps_modify fun _ => .of_append hcached rfl rfl) fun _ => keeps_pure _

omit [Kernel κ] in
theorem cards_wrapRegion (region : Region) (size : Int64) (flags : UInt32) (label : String) :
    Keeps (SameCards (κ := κ)) (Allocator.wrapRegion region size flags label) := by
  unfold Allocator.wrapRegion
  exact keeps_bind keeps_allocator fun _ => keeps_bind (keeps_allocHandle _ _) fun _ => cards_addBuffer rfl

omit [Kernel κ] in
theorem retains_reuse (y : Nat) (label : String) :
    Keeps (Retains (κ := κ) x) (Allocator.reuse y label) :=
  keeps_reuse_of (retains_uncache y) (retains_editBuffer y fun _ => rfl) (retains_modifyAllocator fun _ => rfl)

theorem cards_handOut (y : Nat) : Keeps (SameCards (κ := κ)) (Allocator.handOut y) :=
  keeps_handOut_of (keeps_clearBuffer y) (cards_editBuffer y (fun _ => rfl) fun _ => rfl)
    fun _ => cards_write _ _ _ _

/-! ## Collecting dependencies -/

/-- What a batch was asked for: its uses and buffers, whether it has fragment work, and whether it waits. -/
def Batch.contents (b : Batch) : List (UsageType × Nat) × List (Nat × UInt32) × Bool × Bool :=
  (b.uses, b.buffers, b.hasFragment, b.needsSync)

omit [Kernel κ] in
theorem cards_useBuffer (deps : List Usage) (y : Nat) (u : Usage) :
    Keeps (SameCards (κ := κ)) (Submitter.useBuffer deps y u) :=
  keeps_bind (keeps_buffer y) fun _ =>
    keeps_bind (cards_modifyBuffer y (fun _ => rfl) fun _ => Access.within_or_left _ _) fun _ => keeps_pure _

section Uses

variable {R : Machine κ → Machine κ → Prop} [Journey R]

omit [Kernel κ] in
theorem keeps_queueUsage (q : Queue) (writes : Bool) : Keeps R (Submitter.queueUsage q writes) :=
  keeps_bind (keeps_stream _) fun _ => keeps_pure _

variable (h : ∀ (deps : List Usage) (y : Nat) (u : Usage), Keeps R (Submitter.useBuffer deps y u))
include h

omit [Kernel κ] in
theorem keeps_useBuffers (u : Usage) (ys : List Nat) (deps : List Usage) :
    Keeps R (Submitter.useBuffers deps u ys) := by
  induction ys generalizing deps with
  | nil => exact keeps_pure deps
  | cons y ys ih => exact keeps_bind (h deps y u) fun deps => ih deps

variable (hbatch : ∀ (id : Nat) {f : Batch → Batch}, (∀ b, (f b).contents = b.contents) →
  Keeps R (Batch.modify id f))
include hbatch

omit [Kernel κ] in
theorem keeps_recordUses_of (id batch : Nat) (ts : List UsageType) : Keeps R (Submitter.recordUses id batch ts) := by
  induction ts with
  | nil => exact keeps_pure ()
  | cons t ts ih =>
    have hone (b : Batch) (q : Queue) (deps : List Usage) {f : List Usage → Batch → Batch}
        (hf : ∀ deps b, (f deps b).contents = b.contents) :
        Keeps R (do
          let u ← Submitter.queueUsage q t.writes
          let deps ← Submitter.useBuffers deps u (b.used t)
          Batch.modify batch (f deps)
          Submitter.recordUses id batch ts) :=
      keeps_bind (keeps_queueUsage _ _) fun u => keeps_bind (keeps_useBuffers h u _ _) fun deps =>
        keeps_bind (hbatch _ (hf deps)) fun _ => ih
    unfold Submitter.recordUses
    refine keeps_bind (keeps_getSubmitter id) fun s => keeps_bind (keeps_getBatch batch) fun b => ?_
    split
    · exact keeps_bind (keeps_require _) fun q => hone b q _ (f := fun deps b => { b with fragmentDeps := deps })
        fun _ _ => rfl
    · exact keeps_bind (keeps_require _) fun q => hone b q _ (f := fun deps b => { b with vertexDeps := deps })
        fun _ _ => rfl

omit [Kernel κ] in
theorem keeps_recordHeap_of (id batch : Nat) : Keeps R (Submitter.recordHeap id batch) := by
  unfold Submitter.recordHeap
  refine keeps_bind (keeps_getSubmitter id) fun s => ?_
  split
  · exact keeps_pure ()
  · exact keeps_bind (keeps_getBatch batch) fun b => keeps_bind (keeps_require _) fun q =>
      keeps_bind (keeps_queueUsage _ _) fun u => keeps_bind (h _ _ _) fun _ =>
      hbatch _ fun _ => rfl

omit [Kernel κ] in
/-- Collecting keeps what its changes of buffers, batches and submission contexts keep. -/
theorem keeps_collect_of (hnumber : ∀ id batch, Keeps R (Submitter.numberBatch id batch)) (id batch : Nat) :
    Keeps R (Submitter.collect id batch) := by
  have hgather : Keeps R (Submitter.gather id batch) :=
    keeps_bind (hbatch _ fun _ => rfl) fun _ => keeps_bind (hnumber id batch) fun _ =>
      keeps_bind (keeps_recordUses_of h hbatch id batch _) fun _ => keeps_recordHeap_of h hbatch id batch
  exact keeps_bind hgather fun _ => keeps_bind keeps_device fun _ => hbatch _ fun _ => rfl

end Uses

section Slotwise

variable {R : Machine κ → Machine κ → Prop} [Slotwise R]
  (h : ∀ (deps : List Usage) (y : Nat) (u : Usage), Keeps R (Submitter.useBuffer deps y u))
include h

omit [Kernel κ] in
theorem keeps_recordUses (id batch : Nat) (ts : List UsageType) : Keeps R (Submitter.recordUses id batch ts) :=
  keeps_recordUses_of h (fun id _ _ => keeps_modifyBatch id _) id batch ts

omit [Kernel κ] in
theorem keeps_recordHeap (id batch : Nat) : Keeps R (Submitter.recordHeap id batch) :=
  keeps_recordHeap_of h (fun id _ _ => keeps_modifyBatch id _) id batch

omit [Kernel κ] in
theorem keeps_collect (id batch : Nat) : Keeps R (Submitter.collect id batch) :=
  keeps_collect_of h (fun id _ _ => keeps_modifyBatch id _) keeps_numberBatch id batch

end Slotwise

omit [Kernel κ] in
/-- Recording a use makes it pending, and what is recorded afterwards keeps it so. -/
theorem useBuffers_access {u : Usage} {ys : List Nat} {m m' : Machine κ} {deps deps' : List Usage}
    (he : (Submitter.useBuffers deps u ys).exec m = (.ok deps', m')) (hx : x ∈ ys) :
    Access.Within (Access.ofWrite u.write) (m'.access x) := by
  induction ys generalizing m deps with
  | nil => exact absurd hx List.not_mem_nil
  | cons y ys ih =>
    obtain ⟨deps₁, m₁, h₁, hrest⟩ := bind_ok he
    rcases List.mem_cons.mp hx with rfl | hx
    · have hfirst : Access.Within (Access.ofWrite u.write) (m₁.access x) := by
        unfold Submitter.useBuffer at h₁
        obtain ⟨b, hb, h₁⟩ := bind_buffer_ok h₁
        cases h₁
        have hb' : (m.allocator.mapBuffer x (·.markUsed u)).buffers[x]? = some (b.markUsed u) := by
          rw [Allocator.mapBuffer, getElem?_modify_of_some hb, if_pos rfl]
        rw [Machine.access_of_buffer hb']
        exact Access.within_or_right _ _
      exact hfirst.trans (((keeps_useBuffers cards_useBuffer u ys deps₁).ok hrest).retains x)
    · exact ih hrest hx

omit [Kernel κ] in
theorem recordUses_access {id batch : Nat} {ts : List UsageType} {b : Batch} {m m' : Machine κ} {u : Unit}
    (hb : m.batches[batch]? = some b) (he : (Submitter.recordUses id batch ts).exec m = (.ok u, m'))
    {t : UsageType} (ht : t ∈ ts) (hx : (t, x) ∈ b.uses) :
    Access.Within (Access.ofWrite t.writes) (m'.access x) := by
  induction ts generalizing m b with
  | nil => exact absurd ht List.not_mem_nil
  | cons t' ts ih =>
    obtain ⟨s, q, v, deps, m₁, m₂, m₃, hs, hq, h₁, h₂, h₃, hrest⟩ := recordUses_cons_ok hb he
    rcases List.mem_cons.mp ht with rfl | ht
    · obtain ⟨-, _, -, rfl⟩ := queueUsage_ok h₁
      have hused : x ∈ b.used t := List.mem_map.mpr ⟨(t, x), List.mem_filter.mpr ⟨hx, by simp⟩, rfl⟩
      have hrecorded := useBuffers_access h₂ hused
      exact (hrecorded.trans ((keeps_modifyBatch (R := Retains x) _ _).ok h₃)).trans
        (((keeps_recordUses cards_useBuffer id batch ts).ok hrest).retains x)
    · have hone := recordUse_ok hb hs hq (fun i _ => (UInt32.ofNat i).toNat_lt) h₁ h₂ h₃
      have hlt : batch < m.batches.length := (List.getElem?_eq_some_iff.mp hb).1
      exact ih (by rw [hone.batches, List.getElem?_set_self hlt]) hrest ht (by rwa [Batch.withDeps_uses])

omit [Kernel κ] in
/-- Once the uses of a batch are collected they are pending on their buffers. -/
theorem collect_access {id batch : Nat} {b : Batch} {m m' : Machine κ} {u : Unit}
    (hb : m.batches[batch]? = some b) (he : (Submitter.collect id batch).exec m = (.ok u, m'))
    {t : UsageType} (hx : (t, x) ∈ b.uses) :
    Access.Within (Access.ofWrite t.writes) (m'.access x) := by
  obtain ⟨_, m₂, hgather, hclean⟩ := bind_ok he
  obtain ⟨m₁, huses, hheap⟩ := gather_recorded hb hgather
  have hrecorded := recordUses_access (Machine.number_batch id hb) huses t.mem_all hx
  exact (hrecorded.trans (((keeps_recordHeap cards_useBuffer id batch).ok hheap).retains x)).trans
    ((keeps_cleanDeps (R := Retains x) batch).ok hclean)

/-! ## Steps -/

/-- What is pending on a buffer stays pending while it is in use, if quiet steps leave it alone. -/
theorem Step.retains {c c' : Config κ} {act : Action} (h : Step c act c') (hx : c.InUse x)
    (hx' : c'.InUse x)
    (hquiet : act = .other → Quiet c.machine c'.machine → Retains x c.machine c'.machine) :
    Retains x c.machine c'.machine := by
  have hrefs {a : Account} (ha : c.account? x = some a) : a.refs ≠ 0 := by
    obtain ⟨_, ha', hne, -⟩ := hx
    rw [Option.mem_def, ha] at ha'
    cases ha'
    exact hne
  cases h with
  | quiet h => exact hquiet rfl h
  | reference he => exact ((cards_reference _).ok he).retains x
  | revive _ _ _ he => exact ((cards_revive _).ok he).retains x
  | unreference ha hne he =>
    refine retains_unreference (fun a' ha' hy => ?_) he
    rw [← hy, ha] at ha'
    cases ha'
    exact hne
  | @release m m' y a ha hlast he =>
    refine retains_unreference (fun a' ha' hy => ?_) he
    -- afterwards the buffer has no references
    subst hy
    obtain ⟨b, hb, hzero⟩ := Step.refs_of_release (.release ha hlast he)
    obtain ⟨_, hb', hne, -⟩ := hx'
    rw [Option.mem_def, hb] at hb'
    cases hb'
    exact absurd hzero hne
  | enter _ _ _ _ hcached _ _ _ he => exact ((cards_addBuffer hcached).ok he).retains x
  | abandon _ he => exact (keeps_freeHandle _).ok he
  | reuse he => exact (retains_reuse _ _).ok he
  | wrap he => exact ((cards_wrapRegion _ _ _ _).ok he).retains x
  | handOut he => exact ((cards_handOut _).ok he).retains x
  | evictStale he => exact (keeps_evictOld retains_evict).ok he
  | evictAll he => exact (keeps_evictBuckets retains_evict _).ok he
  | await he => exact (keeps_callbackAll _).ok he
  | attach he => exact (keeps_attachStream _).ok he
  | submit _ he => exact (keeps_submitSlot _ _).ok he
  | advance he => exact (keeps_advanceSlot _ _).ok he
  | update he => exact (keeps_takeCallbacks _ _).ok he
  | terminate _ he => exact (keeps_clearSlot _).ok he
  | fire he => exact retains_runCallback (fun _ ha => hrefs ha) he
  | collect _ _ he => exact ((keeps_collect cards_useBuffer _ _).ok he).retains x

end Kernel

end Mali
