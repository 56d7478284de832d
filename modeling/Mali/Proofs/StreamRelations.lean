import Mali.Proofs.ContextObjects
import Mali.Proofs.Workings

/-!
# Relations about streams

Some relations look at command stream devices only, and there only at the slots and the streams, the interfaces that
were taken, the syncobjs, and the submission contexts.  Buffers, handles and what the kernel answers are nothing to
them.  So they go along with waits, with the search for a buffer, with references and with batches, if they go along
with reports and with callbacks that come to wait or are taken off.

* `OfStreams`: such relations.
* `OfStreams.keeps_free`, `OfStreams.keeps_recreateContext` and the like: what they go along with anyway.
* `Yields`: what every value of an operation is like; contexts keep the count of their interfaces.
* `proceeding_of_streams`, `lending_of_streams`: waits, the search for a buffer, references and batches.
-/

namespace Mali

open Op

variable {κ : Type}

/-- Relations that look at command stream devices only, at their slots, streams, interfaces and syncobjs, and at
submission contexts. -/
class OfStreams (R : Machine κ → Machine κ → Prop) : Prop extends Journey R where
  of_other {m m' : Machine κ} : m.device.generation ≠ .csf → R m m'
  of_streams {m m' : Machine κ} : m'.device.progress = m.device.progress → m'.device.bindings = m.device.bindings →
    m'.device.syncobjs = m.device.syncobjs → m'.submitters = m.submitters → R m m'

instance (R : Machine κ → Machine κ → Prop) [OfStreams R] : Inward R where
  of_eq hd _ hs _ := OfStreams.of_streams (congrArg Device.progress hd) (congrArg Device.bindings hd)
    (congrArg Device.syncobjs hd) hs

instance (R : Machine κ → Machine κ → Prop) [OfStreams R] : OfDriver R where
  of_driver _ hd hs := OfStreams.of_streams (congrArg Device.progress hd) (congrArg Device.bindings hd)
    (congrArg Device.syncobjs hd) hs

/-! ## Contexts keep their count -/

section Yields

variable {α β : Type} {P : α → Prop} {Q : β → Prop}

/-- Every value that an operation comes to has a property. -/
def Yields (P : α → Prop) (x : Op κ α) : Prop := ∀ ⦃m m' : Machine κ⦄ ⦃a : α⦄, x.exec m = (.ok a, m') → P a

theorem yields_pure {a : α} (h : P a) : Yields P (pure a : Op κ α) := by
  intro m m' a he
  cases he
  exact h

theorem yields_bind {x : Op κ β} {f : β → Op κ α} (hx : Yields Q x) (hf : ∀ b, Q b → Yields P (f b)) :
    Yields P (x >>= f) := by
  intro m m' a he
  obtain ⟨b, m₁, h₁, he⟩ := bind_ok he
  exact hf b (hx h₁) he

/-- The first part of a sequence does not matter where the second part has the property anyway. -/
theorem yields_next {x : Op κ β} {f : β → Op κ α} (hf : ∀ b, Yields P (f b)) : Yields P (x >>= f) :=
  yields_bind (Q := fun _ => True) (fun _ _ _ _ => trivial) fun b _ => hf b

variable [Kernel κ] (c : Context)

theorem yields_endGroup : Yields (·.interfaces = c.interfaces) (Device.endGroup c : Op κ Context) := by
  unfold Device.endGroup
  split
  · exact yields_pure rfl
  · exact yields_next fun _ => yields_pure rfl

theorem yields_drainContext : Yields (·.interfaces = c.interfaces) (Device.drainContext c : Op κ Context) := by
  have hqueue : Yields (·.interfaces = c.interfaces) (Device.endCpuQueue c : Op κ Context) := by
    unfold Device.endCpuQueue
    split
    · exact yields_pure rfl
    · exact yields_next fun _ => yields_pure rfl
  have hheap (c : Context) : Yields (·.interfaces = c.interfaces) (Device.endHeap c : Op κ Context) := by
    unfold Device.endHeap
    split
    · exact yields_pure rfl
    · exact yields_next fun _ => yields_pure rfl
  refine yields_bind hqueue fun c₁ h₁ => yields_bind (hheap c₁) fun c₂ h₂ => ?_
  rw [← h₁, ← h₂]
  exact yields_endGroup c₂

theorem yields_fillContext :
    Yields (·.1.interfaces = c.interfaces) (Device.fillContext c : Op κ (Context × Option Fault)) := by
  unfold Device.fillContext
  refine yields_next fun d => yields_next fun r => ?_
  split
  · exact yields_pure rfl
  · split
    · exact yields_pure rfl
    · refine yields_next fun r => ?_
      split
      · exact yields_bind (yields_endGroup _) fun c' hc => yields_pure hc
      · exact yields_pure rfl

end Yields

/-! ## What such relations go along with -/

namespace OfStreams

variable {R : Machine κ → Machine κ → Prop} [OfStreams R]

/-- A change of a device that leaves alone what the relation looks at. -/
theorem keeps_editDevice {f : Device → Device} (hp : ∀ d, (f d).progress = d.progress)
    (hb : ∀ d, (f d).bindings = d.bindings) (ho : ∀ d, (f d).syncobjs = d.syncobjs) : Keeps R (modifyDevice f) :=
  keeps_modify fun m => of_streams (hp m.device) (hb m.device) (ho m.device) rfl

/-- A change of a stream that leaves it on its slot and its context. -/
theorem keeps_modifyStream (id : Nat) {f : Stream → Stream} (hslot : ∀ s, (f s).slot = s.slot)
    (hcontext : ∀ s, (f s).context = s.context) : Keeps R (Device.modifyStream id f) := by
  refine keeps_editDevice (fun d => ?_) (fun d => ?_) fun _ => rfl
  · have hslots := map_modify_eq (f := f) (fun s : Stream => s.slot) hslot d.streams id
    rw [Device.progress, hslots, Device.progress]
  · have hcontexts := map_modify_eq (f := f) (fun s : Stream => s.context) hcontext d.streams id
    rw [Device.bindings, hcontexts, Device.bindings]

/-- A context may be replaced by one with the same count. -/
theorem keeps_replaceContext {id : Nat} {c c' : Context} {m : Machine κ} (hc : m.device.contexts[id]? = some c)
    (h : c'.interfaces = c.interfaces) : KeepsAt R (Device.modifyContext id fun _ => c') m := by
  refine fun _ => of_streams rfl (Prod.ext (List.ext_getElem? fun i => ?_) rfl) rfl rfl
  show ((m.device.contexts.modify id _).map _)[i]? = (m.device.contexts.map _)[i]?
  rw [List.getElem?_map, List.getElem?_map, getElem?_modify_of_some hc]
  split
  · rename_i hi
    rw [← hi, hc, Option.map_some, Option.map_some, h]
  · rfl

theorem keeps_allocHandle (va : UInt64) (fd : Int) : Keeps R (Device.allocHandle va fd) :=
  keeps_allocHandle_of (fun _ => keeps_editDevice (fun _ => rfl) (fun _ => rfl) fun _ => rfl) va fd

variable [Kernel κ]

theorem keeps_freeHandle (handle : Int) : Keeps R (Device.freeHandle handle) :=
  keeps_freeHandle_of (fun _ => keeps_editDevice (fun _ => rfl) (fun _ => rfl) fun _ => rfl) handle

theorem keeps_free (x : Nat) : Keeps R (Allocator.free x) := Mali.keeps_free keeps_freeHandle x

theorem keeps_importBuffer (fd : Int) : Keeps R (Allocator.importBuffer fd) :=
  keeps_importBuffer_of keeps_allocHandle
    (fun _ _ => keeps_editDevice (fun _ => rfl) (fun _ => rfl) fun _ => rfl) keeps_freeHandle
    (fun b _ _ => keeps_addBuffer b) fd

theorem keeps_destroyContext (id : Nat) : Keeps R (Device.destroyContext id) := by
  refine keeps_bind (keeps_debug _ _) fun _ m => keepsAt_of_exec fun {r m'} he hr => ?_
  obtain ⟨c, hc, he⟩ := bind_context_survives he hr
  obtain ⟨c', m₁, h₁, he⟩ := (faultless_drainContext c).bind_survives he hr
  have hsame : SameInside m m₁ := (keeps_drainContext c).ok h₁
  have hc₁ : m₁.device.contexts[id]? = some c := by rwa [hsame.device]
  exact Journey.trans hsame.inward ((keeps_replaceContext hc₁ (yields_drainContext c h₁)).survives he hr)

theorem keeps_recreateContext (id : Nat) : Keeps R (Device.recreateContext id) := by
  refine keeps_bind (keeps_debug _ _) fun _ m => keepsAt_of_exec fun {r m'} he hr => ?_
  obtain ⟨c, hc, he⟩ := bind_context_survives he hr
  obtain ⟨c₁, m₁, h₁, he⟩ := (faultless_drainContext c).bind_survives he hr
  obtain ⟨⟨c₂, fault⟩, m₂, h₂, he⟩ := (faultless_fillContext c₁).bind_survives he hr
  have hsame : SameInside m m₂ := Journey.trans ((keeps_drainContext c).ok h₁) ((keeps_fillContext c₁).ok h₂)
  have hc₂ : m₂.device.contexts[id]? = some c := by rwa [hsame.device]
  have hcount : c₂.interfaces = c.interfaces := (yields_fillContext c₁ h₂).trans (yields_drainContext c h₁)
  refine Journey.trans hsame.inward ((keepsAt_bind (keeps_replaceContext hc₂ hcount) fun _ m₃ _ => ?_).survives he hr)
  split
  · exact keeps_fail _ m₃
  · exact keeps_pure () m₃

theorem keeps_unmapStream (id : Nat) : Keeps R (Device.unmapStream id) :=
  keeps_unmapStream_of (keeps_modifyStream id (fun _ => rfl) fun _ => rfl)

theorem keeps_rebindStream (id : Nat) : Keeps R (Device.rebindStream id) :=
  keeps_rebindStream_of fun _ => keeps_modifyStream id (fun _ => rfl) fun _ => rfl

end OfStreams

/-! ## Waits, the search for a buffer, references and batches -/

section Proceeding

variable [Kernel κ] {R : Machine κ → Machine κ → Prop} [OfStreams R] [Ticking R]

theorem proceeding_of_streams : Proceeding fun _ => R where
  next := Journey.trans
  editDevice _ hp hb ho _ := OfStreams.keeps_editDevice hp hb ho
  countMiss := keeps_modifyAllocator _
  evictOld := keeps_evictOld (keeps_evict OfStreams.keeps_free)
  evictBuckets := keeps_evictBuckets (keeps_evict OfStreams.keeps_free)
  handleEvents m hs := by
    by_cases hm : m.device.generation = .csf
    · rw [exec_handleEvents_of_csf hm] at hs ⊢
      exact keeps_handleStreamEvents OfStreams.keeps_free m hs
    · exact OfStreams.of_other hm
  isIdle x patient m _ := by
    by_cases hm : m.device.generation = .csf
    · rw [exec_isIdle_of_csf hm]
      exact Journey.refl m
    · exact OfStreams.of_other hm
  reuse x label m _ _ he hr := (keeps_reuse x label m).survives he hr
  allocate size flags label _ m _ _ he hr := by
    have hall : Keeps R (Allocator.allocate size flags label) :=
      keeps_bind keeps_allocator fun _ => keeps_bind (keeps_alloc _ _ _) fun region =>
        keeps_bind (keeps_wrapRegion (fun va => OfStreams.keeps_allocHandle va noFd) region _ _ _) fun _ =>
        keeps_bind (keeps_modifyAllocator _) fun _ => keeps_pure _
    exact (hall m).survives he hr

theorem lending_of_streams : Lending fun _ => R where
  toProceeding := proceeding_of_streams
  reference := keeps_reference
  unreference := keeps_unreference OfStreams.keeps_free
  handOut h he := Journey.trans h ((keeps_handOut _).ok he)
  editBatch _ _ _ := keeps_modify fun _ => OfStreams.of_streams rfl rfl rfl rfl
  startBatch _ :=
    keeps_bind keeps_requireAllocator fun _ => keeps_bind keeps_allocator fun _ => keeps_bind keeps_get fun _ =>
      keeps_bind (fun _ _ => OfStreams.of_streams rfl rfl rfl rfl) fun _ => keeps_pure _

end Proceeding

end Mali
