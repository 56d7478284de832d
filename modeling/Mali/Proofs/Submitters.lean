import Mali.Proofs.Frame

/-!
# What the operations of a submission context are made of

A submission context holds on to buffers, has streams on a context of its own, and binds them again or counts their
work as done when it recovers.  A relation that its parts keep is kept by all of that.

* `Submitter.seat`: the context, the queues and the syncobj that a submission context has.
* `Attending`: what has to be known of a relation that references and recovering keep.
* `Recovering`: what has to be known of one that recovering keeps.
* `Attending.createQueue`, `Recovering.reset` and the like: the operations.
-/

namespace Mali

open Op

variable {κ : Type} [Kernel κ]

/-- The context, the queues and the syncobj that a submission context has. -/
def Submitter.seat (s : Submitter) : Option Nat × Option Queue × Option Queue × Option Nat :=
  (s.context, s.vertex, s.fragment, s.syncobj)

section Heap

variable {R : Machine κ → Machine κ → Prop} [Audible R]
  (hmodify : ∀ (id : Nat) {f : Submitter → Submitter}, (∀ s, (f s).seat = s.seat) → Keeps R (Submitter.modify id f))
  (hreference : ∀ x, Keeps R (Buffer.reference x)) (hunreference : ∀ x, Keeps R (Buffer.unreference x))
include hmodify hreference hunreference

omit hreference in
theorem keeps_replaceHeap (id : Nat) (heap : Option Nat) : Keeps R (do
    match (← Submitter.get id).heap with
    | some b => Buffer.unreference b
    | none => pure ()
    Submitter.modify id fun s => { s with heap }) := by
  refine keeps_bind (keeps_getSubmitter id) fun s => ?_
  split
  · exact keeps_bind (hunreference _) fun _ => hmodify id fun _ => rfl
  · exact hmodify id fun _ => rfl

theorem keeps_setHeap (id : Nat) (heap : Option Nat) : Keeps R (Submitter.setHeap id heap) := by
  unfold Submitter.setHeap
  split
  · exact keeps_bind (hreference _) fun _ => keeps_replaceHeap hmodify hunreference id _
  · exact keeps_replaceHeap hmodify hunreference id _

end Heap

/-! ## Recovering -/

/-- Terminating queues keeps what terminating each of their streams keeps. -/
theorem keeps_terminateQueues {R : Machine κ → Machine κ → Prop} [Journey R] {qs : List Queue}
    (h : ∀ q ∈ qs, Keeps R (Device.terminateStream q.stream)) : Keeps R (Submitter.terminateQueues qs) := by
  induction qs with
  | nil => exact keeps_pure ()
  | cons q qs ih =>
    obtain ⟨hq, hqs⟩ := List.forall_mem_cons.mp h
    exact keeps_bind hq fun _ => ih hqs

/-- Relations that are kept by what recovering asks of streams once they are terminated, and by dropping the tiler
heap. -/
structure Recovering (R : Machine κ → Machine κ → Prop) : Prop where
  dropHeap : ∀ id, Keeps R (Submitter.setHeap id none)
  rebind : ∀ id, Keeps R (Device.rebindStream id)
  setLastInsert : ∀ id insert, Keeps R (Device.setLastInsert id insert)
  advance : ∀ (i : Nat) n, Keeps R (Device.advance i n)

namespace Recovering

variable {R : Machine κ → Machine κ → Prop} [Audible R] (h : Recovering R)
include h

theorem rebindQueues (qs : List Queue) : Keeps R (Submitter.rebindQueues qs) := by
  induction qs with
  | nil => exact keeps_pure none
  | cons q qs ih =>
    exact keeps_bind (keeps_faultOf (h.rebind _)) fun _ => keeps_bind ih fun _ => keeps_pure _

theorem retireQueues (qs : List Queue) : Keeps R (Submitter.retireQueues qs) := by
  induction qs with
  | nil => exact keeps_pure ()
  | cons q qs ih =>
    exact keeps_bind (h.setLastInsert _ _) fun _ => keeps_bind (keeps_stream _) fun s =>
      keeps_bind (keeps_slot _) fun e => keeps_bind (keeps_setEventSeq _ _) fun _ =>
      keeps_bind (h.advance _ _) fun _ => ih

/-- What a recovery does once the context was made anew. -/
theorem recover (id : Nat) (s : Submitter) (recreated : Option Fault) : Keeps R (do
    let rebound ←
      if recreated.isNone ∧ !(← allocator).options.sync then Submitter.rebindQueues s.queues
      else pure none
    Submitter.retireQueues s.queues
    Submitter.setHeap id none
    match Fault.first? recreated rebound with
    | some f => fail f
    | none => pure ()) := by
  have hend (rebound : Option Fault) : Keeps R (do
      Submitter.retireQueues s.queues
      Submitter.setHeap id none
      match Fault.first? recreated rebound with
      | some f => fail f
      | none => pure ()) := by
    refine keeps_bind (h.retireQueues _) fun _ => keeps_bind (h.dropHeap id) fun _ => ?_
    split
    · exact keeps_fail _
    · exact keeps_pure ()
  refine keeps_bind keeps_allocator fun a => ?_
  split
  · exact keeps_bind (h.rebindQueues _) fun rebound => hend rebound
  · exact hend none

/-- The streams that a recovery terminates are those of the submission context. -/
theorem reset {id : Nat} (hcount : Keeps R (Submitter.modify id fun s => { s with resets := s.resets + 1 }))
    (hrecreate : ∀ c, Keeps R (Device.recreateContext c))
    (hterminate : ∀ {m : Machine κ} {s : Submitter}, m.submitters[id]? = some s → (∀ m', R m m') ∨
      ∀ q ∈ s.queues, Keeps R (Device.terminateStream q.stream)) : Keeps R (Submitter.reset id) := by
  unfold Submitter.reset
  refine keeps_bind (keeps_debug _ _) fun _ m => keepsAt_bind (keeps_getSubmitter id m) fun s m₁ h₁ => ?_
  obtain ⟨_, hs, h₁⟩ := bind_getSubmitter_ok (f := pure) (by rw [bind_pure]; exact h₁)
  cases h₁
  rcases hterminate hs with hany | hqueues
  · exact fun _ => hany _
  split
  · exact keeps_fail _ m
  · refine keeps_bind (keeps_error _ _) (fun _ => keeps_bind hcount fun _ =>
      keeps_bind (keeps_terminateQueues hqueues) fun _ =>
      keeps_bind_option (keeps_faultOf (hrecreate _)) (h.recover id s none) fun f => ?_) m
    exact keeps_bind (keeps_error _ _) fun _ => h.recover id s (some f)

end Recovering

/-! ## Attending -/

/-- Relations that are kept by what a submission context asks of buffers and of the streams it has, other than to
terminate them, and by a change of a submission context that leaves it its seat. -/
structure Attending (R : Machine κ → Machine κ → Prop) : Prop where
  modify : ∀ (id : Nat) {f : Submitter → Submitter}, (∀ s, (f s).seat = s.seat) → Keeps R (Submitter.modify id f)
  reference : ∀ x, Keeps R (Buffer.reference x)
  unreference : ∀ x, Keeps R (Buffer.unreference x)
  create : ∀ size flags label, Keeps R (Allocator.create size flags label)
  rebind : ∀ id, Keeps R (Device.rebindStream id)
  setLastInsert : ∀ id insert, Keeps R (Device.setLastInsert id insert)
  advance : ∀ (i : Nat) n, Keeps R (Device.advance i n)

namespace Attending

variable {R : Machine κ → Machine κ → Prop} [Audible R] (h : Attending R)
include h

theorem setHeap (id : Nat) (heap : Option Nat) : Keeps R (Submitter.setHeap id heap) :=
  keeps_setHeap h.modify h.reference h.unreference id heap

theorem recovering : Recovering R where
  dropHeap id := h.setHeap id none
  rebind := h.rebind
  setLastInsert := h.setLastInsert
  advance := h.advance

theorem dropRings (qs : List Queue) : Keeps R (Submitter.dropRings qs) := by
  induction qs with
  | nil => exact keeps_pure ()
  | cons q qs ih => exact keeps_bind (h.unreference _) fun _ => ih

/-- A queue gets a stream of its own. -/
theorem createQueue {ctx : Nat} (hbind : ∀ va size, Keeps R (Device.bindStream ctx va size)) (ringSize : UInt32)
    (label : String) : Keeps R (Submitter.createQueue ctx ringSize label) :=
  keeps_bind (h.create _ _ _) fun _ => keeps_bind (keeps_buffer _) fun _ =>
    keeps_bind_except (keeps_attempt (hbind _ _)) (fun _ => keeps_pure _) fun _ =>
    keeps_bind (h.unreference _) fun _ => keeps_fail _

end Attending

end Mali
