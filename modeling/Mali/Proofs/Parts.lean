import Mali.Proofs.Frame

/-!
# Parts of operations on buffers

What an operation on buffers keeps is put together from what its edits keep.  The lemmas here go through each
operation once, for every relation between machines, and ask for its edits and for the operations that it is made
of; what only reads needs nothing, and what writes to the log or marks memory is kept by relations that do not look
there.

Two operations are also opened from their end, by where a run of them has gone.

* `keeps_enterCache_of`, `keeps_uncache_of`, `keeps_reuse_of`, `keeps_finish_of`: in and out of the cache.
* `keeps_reference_of`, `keeps_unreference_of`, `keeps_beginRelease_of`, `keeps_runCallback_of`: counting references.
* `finish_ok`, `cachePut_ok`: the end of a release frees the buffer or caches it, and what happens in that case.
-/

namespace Mali

open Op

variable {κ : Type}

section Journey

variable {R : Machine κ → Machine κ → Prop} [Journey R] {x : Nat}

/-! ## Counting references -/

theorem keeps_reference_of (hcount : Keeps R (modifyBuffer x fun b => { b with refs := b.refs + 1 })) :
    Keeps R (Buffer.reference x) := by
  unfold Buffer.reference
  refine keeps_bind hcount fun _ => keeps_bind (keeps_buffer x) fun b => ?_
  split
  · exact keeps_violate _
  · exact keeps_pure ()

/-- A buffer that is imported again gets its first reference or another one. -/
theorem keeps_revive_of (hfirst : Keeps R (modifyBuffer x fun b => { b with refs := 1 }))
    (hcount : Keeps R (modifyBuffer x fun b => { b with refs := b.refs + 1 })) : Keeps R (Allocator.revive x) := by
  unfold Allocator.revive
  refine keeps_bind (keeps_buffer x) fun b => ?_
  split
  · exact hfirst
  · exact keeps_reference_of hcount

/-- A new or reused buffer is cleared, counted and written about. -/
theorem keeps_handOut_of [Kernel κ] (hclear : Keeps R (Allocator.clearBuffer x))
    (hcount : Keeps R (modifyBuffer x fun b => { b with refs := 1, usage := [] }))
    (hwrite : ∀ b, Keeps R (Allocator.write "alloc" b noFd)) : Keeps R (Allocator.handOut x) := by
  have hend : Keeps R (do
      modifyBuffer x fun b => { b with refs := 1, usage := [] }
      Allocator.write "alloc" (← buffer x) noFd) :=
    keeps_bind hcount fun _ => keeps_bind (keeps_buffer x) hwrite
  unfold Allocator.handOut
  refine keeps_bind (keeps_buffer x) fun b => keeps_bind keeps_allocator fun a => ?_
  dsimp only
  split
  · exact keeps_bind hclear fun _ => hend
  · exact hend

/-! ## In and out of the cache -/

theorem keeps_uncache_of
    (hremove : ∀ index, Keeps R (modifyAllocator fun a => { a with cache := a.cache.remove index x }))
    (hleave : Keeps R (modifyBuffer x fun b => { b with cachedIn := none })) : Keeps R (Allocator.uncache x) :=
  keeps_bind (keeps_buffer x) fun _ => keeps_bind (keeps_require _) fun index =>
    keeps_bind (hremove index) fun _ => hleave

/-- A cached buffer that is used again leaves the cache and gets another label. -/
theorem keeps_reuse_of {R : Machine κ → Machine κ → Prop} [Audible R] {label : String}
    (huncache : Keeps R (Allocator.uncache x)) (hlabel : Keeps R (modifyBuffer x fun b => { b with label }))
    (hhits : Keeps R (modifyAllocator fun a => { a with hits := a.hits + 1 })) :
    Keeps R (Allocator.reuse x label) := by
  have hend : Keeps R (do
      modifyBuffer x fun b => { b with label }
      modifyAllocator fun a => { a with hits := a.hits + 1 }) := keeps_bind hlabel fun _ => hhits
  unfold Allocator.reuse
  refine keeps_bind huncache fun _ => keeps_bind (keeps_checkRule _) fun _ =>
    keeps_bind keeps_get fun m => keeps_bind (keeps_buffer x) fun b => ?_
  dsimp only
  split
  · exact keeps_bind (keeps_error _ _) fun _ => hend
  · exact hend

variable [Kernel κ]

theorem keeps_enterCache_of
    (hput : ∀ index, Keeps R (modifyAllocator fun a => { a with cache := a.cache.put index x }))
    (henter : ∀ (index : Nat) (lastUsed : Int) (d : Device), Keeps R (modifyBuffer x fun b => { b with
      cachedIn := some index
      lastUsed
      access := if d.generation = .csf then 0 else b.access })) : Keeps R (Allocator.enterCache x) :=
  keeps_bind (keeps_buffer x) fun _ => keeps_bind keeps_allocator fun _ => keeps_bind keeps_seconds fun _ =>
    keeps_bind keeps_device fun d => keeps_bind (hput _) fun _ => henter _ _ d

/-! ## Releases -/

/-- The end of a release caches the buffer, which pushes out the stale ones, or frees it. -/
theorem keeps_finish_of (henter : Keeps R (Allocator.enterCache x)) (hold : Keeps R Allocator.evictOld)
    (hlabel : Keeps R (modifyBuffer x fun b => { b with label := cachedLabel }))
    (hmark : Keeps R (Allocator.markUnused x)) (hfree : Keeps R (Allocator.free x)) :
    Keeps R (Allocator.finish x) := by
  have hput : Keeps R (Allocator.cachePut x) :=
    keeps_bind henter fun _ => keeps_bind hold fun _ => keeps_bind hlabel fun _ => keeps_bind hmark fun _ =>
      keeps_checkRule _
  unfold Allocator.finish
  refine keeps_bind keeps_allocator fun a => keeps_bind (keeps_buffer x) fun b => ?_
  split
  · exact hput
  · exact hfree

variable (hwrite : ∀ name b, Keeps R (Allocator.writeHandle name b)) (hfinish : Keeps R (Allocator.finish x))
include hwrite hfinish

/-- A release waits for the busy queues, or ends where there are none. -/
theorem keeps_beginRelease_of (hclear : Keeps R (modifyBuffer x fun b => { b with usage := [] }))
    (hawait : Keeps R (Device.callbackAll (.release x)))
    (hcount : ∀ n, Keeps R (modifyBuffer x fun b => { b with gpuRefs := b.gpuRefs + Int32.ofNat n })) :
    Keeps R (Buffer.beginRelease x) := by
  unfold Buffer.beginRelease
  refine keeps_bind (keeps_buffer x) fun b => keeps_bind (hwrite _ b) fun _ => keeps_bind hclear fun _ =>
    keeps_bind hawait fun added => keeps_bind (hcount added) fun _ => ?_
  split
  · exact keeps_bind (keeps_buffer x) fun b => keeps_bind (hwrite _ b) fun _ => hfinish
  · exact keeps_pure ()

theorem keeps_queueDrained_of (hcount : Keeps R (modifyBuffer x fun b => { b with gpuRefs := b.gpuRefs - 1 })) :
    Keeps R (Buffer.queueDrained x) := by
  unfold Buffer.queueDrained
  refine keeps_bind hcount fun _ => keeps_bind (keeps_buffer x) fun b => ?_
  split
  · exact keeps_bind (hwrite _ b) fun _ => hfinish
  · exact keeps_pure ()

omit hwrite hfinish

theorem keeps_unreference_of (hcount : Keeps R (modifyBuffer x fun b => { b with refs := b.refs - 1 }))
    (hrelease : Keeps R (Buffer.beginRelease x)) : Keeps R (Buffer.unreference x) := by
  unfold Buffer.unreference
  refine keeps_bind hcount fun _ => keeps_bind (keeps_buffer x) fun b => ?_
  split
  · exact keeps_violate _
  · split
    · exact hrelease
    · exact keeps_pure ()

omit [Journey R] in
/-- A callback tells something or counts a queue that has drained. -/
theorem keeps_runCallback_of (hreport : ∀ id, Keeps R (report (.callback id)))
    (hdrained : ∀ x, Keeps R (Buffer.queueDrained x)) (c : Callback) : Keeps R (Device.runCallback c) := by
  cases c with
  | report id => exact hreport id
  | release x => exact hdrained x

theorem keeps_runCallbacks_of (hrun : ∀ c, Keeps R (Device.runCallback c)) (cs : List Callback) :
    Keeps R (Device.runCallbacks cs) := by
  induction cs with
  | nil => exact keeps_pure ()
  | cons c cs ih => exact keeps_bind (hrun c) fun _ => ih

end Journey

section Ends

variable [Kernel κ] {x : Nat} {m m' : Machine κ} {u : Unit}

theorem finish_ok (he : (Allocator.finish x).exec m = (.ok u, m')) :
    ∃ b, m.allocator.buffers[x]? = some b ∧
      (m.allocator.mayCache b = true ∧ (Allocator.cachePut x).exec m = (.ok (), m') ∨
        m.allocator.mayCache b = false ∧ (Allocator.free x).exec m = (.ok (), m')) := by
  unfold Allocator.finish at he
  obtain ⟨_, m₁, h₁, he⟩ := bind_ok he
  cases h₁
  obtain ⟨b, hx, he⟩ := bind_buffer_ok he
  refine ⟨b, hx, ?_⟩
  split at he
  · exact .inl ⟨by assumption, he⟩
  · exact .inr ⟨Bool.eq_false_iff.mpr (by assumption), he⟩

/-- A buffer that may be cached is not shared. -/
theorem Allocator.shared_of_mayCache {a : Allocator} {b : Buffer} (h : a.mayCache b = true) :
    b.has BufferFlag.shared = false := by
  rw [Allocator.mayCache, Bool.and_eq_true] at h
  simpa using h.1

/-- After a buffer has entered the cache and pushed out the stale ones it only gets a label and is marked. -/
theorem cachePut_ok (he : (Allocator.cachePut x).exec m = (.ok u, m')) :
    ∃ m₁ m₂, (Allocator.enterCache x).exec m = (.ok (), m₁) ∧ Allocator.evictOld.exec m₁ = (.ok (), m₂) ∧
      ∀ {R : Machine κ → Machine κ → Prop} [Audible R],
        Keeps R (modifyBuffer x fun b => { b with label := cachedLabel }) → R m₂ m' := by
  unfold Allocator.cachePut at he
  obtain ⟨_, m₁, henter, he⟩ := bind_ok he
  obtain ⟨_, m₂, hold, he⟩ := bind_ok he
  exact ⟨m₁, m₂, henter, hold, fun hlabel => Keeps.ok (keeps_bind hlabel fun _ =>
    keeps_bind (keeps_markUnused x) fun _ => keeps_checkRule _) he⟩

end Ends

end Mali
