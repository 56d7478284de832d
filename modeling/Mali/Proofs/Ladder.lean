import Mali.Proofs.Workings

/-!
# The ladder of a creation

A buffer that is asked for comes from the cache, from an allocation, from the cache again, now that a busy buffer is
waited for, or from one of the late allocations, before each of which events are handled and the cache is emptied.
Nothing but an allocation that fails leads from one rung to the next.

The backoff lets a late allocation be attempted five times, so its fuel is never used up.

* `Attempt`: an allocation that was attempted.
* `Ladder`, `LateRungs`: how a buffer is looked for, with the allocations that were attempted.
* `obtain_ladder`: every search for a buffer climbs the ladder.
* `Ladder.length_le`, `Ladder.error_iff`: at most six allocations are attempted, and the search fails exactly if all
  of them do and the cache has nothing to offer.
-/

namespace Mali

open Op

/-! ## Attempts -/

/-- A request rounded up to whole pages. -/
def pageUp (size : Int64) : Int64 := alignUp size pageAlign.toUInt64

/-- An allocation that was attempted: where it began, what it came to, and how it left the machine.  Room may have been
made for it before. -/
structure Attempt (κ : Type) where
  entry : Machine κ
  before : Machine κ
  outcome : Except Fault Nat
  after : Machine κ

/-- Whether an attempt failed. -/
def Attempt.Failed {κ : Type} (a : Attempt κ) : Prop := ∃ f, a.outcome = .error f

variable {κ : Type} [Kernel κ]

/-- What goes before a late allocation: events are handled, and the cache is emptied. -/
def Allocator.makeRoom : Op κ Unit := do
  Device.ensureHandleEvents
  evictAll

theorem Allocator.attemptAgain_eq (size : Int64) (flags : UInt32) (label : String) :
    (attemptAgain size flags label : Op κ Nat) = (do
      makeRoom
      allocate size flags label) := by
  simp only [attemptAgain, makeRoom, bind_assoc]

section Request

variable (size : Int64) (flags : UInt32) (label : String)

/-- An attempt to allocate what is asked for. -/
def Attempt.For (a : Attempt κ) : Prop :=
  (attempt (Allocator.allocate size flags label)).exec a.before = (.ok a.outcome, a.after)

/-- A machine whose cache had nothing to offer. -/
def Machine.missed (m : Machine κ) : Machine κ :=
  { m with allocator := { m.allocator with misses := m.allocator.misses + 1 } }

/-- Late allocations, of which so many are left. -/
inductive LateRungs : Nat → Machine κ → List (Attempt κ) → Except Fault Nat → Machine κ → Prop
  | found {left x : Nat} {m m₁ m' : Machine κ} (hroom : Allocator.makeRoom.exec m = (.ok (), m₁))
    (ha : Attempt.For size flags label ⟨m, m₁, .ok x, m'⟩) : LateRungs (left + 1) m [⟨m, m₁, .ok x, m'⟩] (.ok x) m'
  | last {f : Fault} {m m₁ m' : Machine κ} (hroom : Allocator.makeRoom.exec m = (.ok (), m₁))
    (ha : Attempt.For size flags label ⟨m, m₁, .error f, m'⟩) : LateRungs 1 m [⟨m, m₁, .error f, m'⟩] (.error f) m'
  | again {left delay : Nat} {f : Fault} {m m₁ m₂ m₃ m' : Machine κ} {as : List (Attempt κ)} {r : Except Fault Nat}
    (hroom : Allocator.makeRoom.exec m = (.ok (), m₁)) (ha : Attempt.For size flags label ⟨m, m₁, .error f, m₂⟩)
    (hpause : (Wait.pause delay).exec m₂ = (.ok (), m₃)) (h : LateRungs (left + 1) m₃ as r m') :
    LateRungs (left + 2) m (⟨m, m₁, .error f, m₂⟩ :: as) r m'

/-- How a buffer is looked for, with the allocations that are attempted on the way. -/
inductive Ladder : Machine κ → List (Attempt κ) → Except Fault Nat → Machine κ → Prop
  | cached {x : Nat} {m m' : Machine κ}
    (hfetch : (Allocator.fetch size flags label false).exec m = (.ok (some x), m')) : Ladder m [] (.ok x) m'
  | fresh {x : Nat} {m m₁ m' : Machine κ}
    (hfetch : (Allocator.fetch size flags label false).exec m = (.ok none, m₁))
    (ha : Attempt.For size flags label ⟨m₁.missed, m₁.missed, .ok x, m'⟩) :
    Ladder m [⟨m₁.missed, m₁.missed, .ok x, m'⟩] (.ok x) m'
  | patient {x : Nat} {f : Fault} {m m₁ m₂ m' : Machine κ}
    (hfetch : (Allocator.fetch size flags label false).exec m = (.ok none, m₁))
    (ha : Attempt.For size flags label ⟨m₁.missed, m₁.missed, .error f, m₂⟩)
    (hpatient : (Allocator.fetch size flags label true).exec m₂ = (.ok (some x), m')) :
    Ladder m [⟨m₁.missed, m₁.missed, .error f, m₂⟩] (.ok x) m'
  | late {f : Fault} {m m₁ m₂ m₃ m' : Machine κ} {as : List (Attempt κ)} {r : Except Fault Nat}
    (hfetch : (Allocator.fetch size flags label false).exec m = (.ok none, m₁))
    (ha : Attempt.For size flags label ⟨m₁.missed, m₁.missed, .error f, m₂⟩)
    (hpatient : (Allocator.fetch size flags label true).exec m₂ = (.ok none, m₃))
    (h : LateRungs size flags label Backoff.attempts m₃ as r m') :
    Ladder m (⟨m₁.missed, m₁.missed, .error f, m₂⟩ :: as) r m'

end Request

/-! ## Climbing -/

variable {size : Int64} {flags : UInt32} {label : String}

/-- Handling job events, by induction on the records that may be read. -/
theorem faultless_handleJobEvents (fuel : Nat) (fine : Bool) :
    Faultless (Device.handleJobEvents fuel fine : Op κ Bool) := by
  have hrecord (size : Nat) : Faultless (Device.readRecord size : Op κ _) := by
    unfold Device.readRecord
    grind
  have hevent (e : JobEvent) : Faultless (Device.handleJobEvent e : Op κ Bool) := by
    have hrest : Faultless (do
        Device.retireAtom e.atom
        Device.advance e.atom.toNat (e.seqnum + 1)
        return (decide (e.code = JobEvent.done)) : Op κ Bool) :=
      faultless_bind (faultless_retireAtom _) fun _ => faultless_bind
        (faultless_bind (faultless_advanceSlot _ _) fun _ => faultless_runCallbacks _) fun _ => faultless_pure _
    unfold Device.handleJobEvent
    dsimp only
    split
    · exact faultless_bind (faultless_error _ _) fun _ => hrest
    · exact hrest
  induction fuel generalizing fine with
  | zero => exact faultless_pure fine
  | succ fuel ih =>
    unfold Device.handleJobEvents
    refine faultless_bind (hrecord _) fun r => ?_
    split
    · exact faultless_pure _
    · exact faultless_pure _
    · exact faultless_bind (hevent _) fun _ => ih _

theorem faultless_handleEvents : Faultless (Device.handleEvents : Op κ Bool) := by
  unfold Device.handleEvents
  refine faultless_bind faultless_device fun d => ?_
  split
  · exact faultless_handleStreamEvents
  · exact faultless_handleJobEvents _ _
  · exact faultless_handleJobEvents _ _

omit [Kernel κ] in
theorem faultless_requireAllocator : Faultless (requireAllocator : Op κ Unit) := by
  unfold requireAllocator
  refine faultless_bind faultless_allocator fun a => ?_
  split
  · exact fun _ _ => nofun
  · exact faultless_pure _

theorem faultless_makeRoom : Faultless (Allocator.makeRoom : Op κ Unit) :=
  faultless_bind (faultless_bind (faultless_map _ faultless_handleEvents) fun _ => faultless_modifyDevice _)
    fun _ => faultless_bind faultless_requireAllocator fun _ => faultless_bind (faultless_debug _ _) fun _ =>
    faultless_bind faultless_allocator fun _ => faultless_evictBuckets _

theorem polling_faultless : Polling (κ := κ) Faultless where
  pure := faultless_pure
  bind := faultless_bind
  device := faultless_device
  now := faultless_now
  call c _ _ := faultless_call c
  error := faultless_error
  modify f _ := faultless_modifyDevice f
  handleEvents := faultless_handleEvents

theorem faultless_isIdle (x : Nat) (patient : Bool) : Faultless (Allocator.isIdle x patient : Op κ Bool) := by
  have hhandle (timeout : Int) : Faultless (Buffer.waitHandle x timeout : Op κ Bool) := by
    unfold Buffer.waitHandle
    refine faultless_bind (faultless_buffer x) fun b => faultless_bind (faultless_attempt _) fun r => ?_
    split
    · exact faultless_bind (faultless_modifyBuffer x _) fun _ => faultless_pure true
    · dsimp only
      split
      · exact faultless_bind (faultless_error _ _) fun _ => faultless_pure false
      · exact faultless_pure false
  have husage (timeout : Int) : Faultless (Buffer.waitUsage x timeout true : Op κ Bool) := by
    have hfinished : Faultless (Buffer.usageFinished x true : Op κ Bool) :=
      faultless_bind (faultless_buffer x) fun _ => faultless_bind faultless_device fun _ => faultless_pure _
    have hpoll (fd deadline : Int) : Faultless (Device.pollFdUntil fd true deadline : Op κ Bool) := by
      unfold Device.pollFdUntil
      refine faultless_bind faultless_now fun _ => faultless_bind (faultless_call _) fun r => ?_
      split
      · exact faultless_pure _
      · exact faultless_bind (faultless_error _ _) fun _ => faultless_pure true
    have hend (b : Buffer) (ready : Bool) : Faultless (do
        if ready then modifyBuffer x (Buffer.settle true)
        else warn "timed out waiting for buffer object" [("handle", toString b.handle), ("label", b.label)]
        return ready : Op κ Bool) := by
      split
      · exact faultless_bind (faultless_modifyBuffer x _) fun _ => faultless_pure ready
      · exact faultless_bind (faultless_warn _ _) fun _ => faultless_pure ready
    unfold Buffer.waitUsage
    refine faultless_bind (polling_faultless.waitUntil (faultless_bind hfinished fun _ => faultless_pure _) timeout)
      fun r => faultless_bind (faultless_buffer x) fun b => faultless_bind hfinished fun finished => ?_
    dsimp only
    split
    · exact faultless_bind (hpoll _ _) fun ready => hend b ready
    · exact faultless_bind (faultless_pure _) fun ready => hend b ready
  unfold Allocator.isIdle Buffer.wait
  refine faultless_bind faultless_device fun d => ?_
  split
  · exact faultless_pure true
  · refine faultless_bind (faultless_debug _ _) fun _ => faultless_bind (faultless_buffer x) fun b => ?_
    split
    · exact faultless_pure true
    · refine faultless_bind faultless_device fun d => ?_
      split
      · exact husage _
      · exact hhandle _

theorem faultless_fetch (size : Int64) (flags : UInt32) (label : String) (patient : Bool) :
    Faultless (Allocator.fetch size flags label patient : Op κ (Option Nat)) := by
  have hfrom (entries : List Nat) : Faultless (Allocator.fetchFrom size flags label patient entries : Op κ _) := by
    induction entries with
    | nil => exact faultless_pure none
    | cons entry rest ih =>
      unfold Allocator.fetchFrom
      refine faultless_bind (faultless_cachedBuffer entry) fun x => faultless_bind (faultless_buffer x) fun b => ?_
      split
      · exact ih
      · refine faultless_bind (faultless_isIdle x patient) fun idle => ?_
        split
        · exact faultless_bind (faultless_reuse x label) fun _ => faultless_pure _
        · exact faultless_pure none
  exact faultless_bind faultless_allocator fun _ => hfrom _

/-- What a search comes to is either a buffer or the fault of the last attempt. -/
theorem faultless_obtain (size : Int64) (flags : UInt32) (label : String) :
    Faultless (Allocator.obtain size flags label : Op κ (Except Fault Nat)) := by
  have hretry (fuel : Nat) (b : Backoff) : Faultless (Allocator.retry size flags label fuel b : Op κ _) := by
    induction fuel generalizing b with
    | zero => exact faultless_attempt _
    | succ fuel ih =>
      unfold Allocator.retry
      refine faultless_bind (faultless_attempt _) fun r => ?_
      split
      · exact faultless_pure _
      · split
        · exact faultless_pure _
        · exact faultless_bind (polling_faultless.pause _) fun _ => ih _
  unfold Allocator.obtain
  refine faultless_bind (faultless_fetch _ _ _ _) fun r => ?_
  split
  · exact faultless_pure _
  · refine faultless_bind (faultless_modifyAllocator _) fun _ => faultless_bind (faultless_attempt _) fun r => ?_
    split
    · exact faultless_pure _
    · refine faultless_bind (faultless_fetch _ _ _ _) fun r => ?_
      split
      · exact faultless_pure _
      · exact hretry _ _

/-- An attempt to allocate late makes room first, which does not fail. -/
theorem attemptAgain_ok {m m' : Machine κ} {r : Except Fault Nat}
    (he : (attempt (Allocator.attemptAgain size flags label)).exec m = (.ok r, m')) :
    ∃ m₁, Allocator.makeRoom.exec m = (.ok (), m₁) ∧ Attempt.For size flags label ⟨m, m₁, r, m'⟩ := by
  rw [Allocator.attemptAgain_eq] at he
  cases r with
  | ok x =>
    obtain ⟨_, m₁, h₁, he⟩ := bind_ok (attempt_ok he)
    exact ⟨m₁, h₁, by rw [Attempt.For, exec_attempt, he]⟩
  | error f =>
    obtain ⟨_, m₁, h₁, he⟩ := faultless_makeRoom.bind_survives (attempt_fault he) trivial
    exact ⟨m₁, h₁, by rw [Attempt.For, exec_attempt, he]⟩

/-- By induction on the fuel, of which there is enough for the attempts that are left. -/
theorem retry_rungs {fuel : Nat} {b : Backoff} {m m' : Machine κ} {r : Except Fault Nat}
    (hb : b.attempt < Backoff.attempts) (hfuel : Backoff.attempts ≤ b.attempt + fuel)
    (he : (Allocator.retry size flags label fuel b).exec m = (.ok r, m')) :
    ∃ as, LateRungs size flags label (Backoff.attempts - b.attempt) m as r m' := by
  induction fuel generalizing b m with
  | zero => omega
  | succ fuel ih =>
    obtain ⟨a, m₂, h₂, he⟩ := bind_ok he
    obtain ⟨m₁, hroom, ha⟩ := attemptAgain_ok h₂
    cases a with
    | ok x =>
      cases he
      rw [show Backoff.attempts - b.attempt = Backoff.attempts - (b.attempt + 1) + 1 by omega]
      exact ⟨_, .found hroom ha⟩
    | error f =>
      by_cases hlast : Backoff.attempts ≤ b.attempt + 1
      · rw [show Backoff.attempts - b.attempt = 1 by omega]
        simp only [Backoff.next, if_pos hlast] at he
        cases he
        exact ⟨_, .last hroom ha⟩
      · simp only [Backoff.next, if_neg hlast] at he
        obtain ⟨_, m₃, hpause, he⟩ := bind_ok he
        obtain ⟨as, hrest⟩ := ih (b := ⟨b.attempt + 1⟩) (by dsimp only; omega) (by dsimp only; omega) he
        rw [show Backoff.attempts - (b.attempt + 1) = Backoff.attempts - (b.attempt + 2) + 1 by omega] at hrest
        rw [show Backoff.attempts - b.attempt = Backoff.attempts - (b.attempt + 2) + 2 by omega]
        exact ⟨_, .again hroom ha hpause hrest⟩

/-- Every search for a buffer climbs the ladder. -/
theorem obtain_ladder {m m' : Machine κ} {r : Except Fault Nat}
    (he : (Allocator.obtain size flags label).exec m = (.ok r, m')) :
    ∃ as, Ladder size flags label m as r m' := by
  obtain ⟨found, m₁, h₁, he⟩ := bind_ok he
  cases found with
  | some x =>
    cases he
    exact ⟨_, .cached h₁⟩
  | none =>
    obtain ⟨_, m₁', hmiss, he⟩ := bind_ok he
    cases hmiss
    obtain ⟨a, m₂, h₂, he⟩ := bind_ok he
    cases a with
    | ok x =>
      cases he
      exact ⟨_, .fresh h₁ h₂⟩
    | error f =>
      obtain ⟨found, m₃, h₃, he⟩ := bind_ok he
      cases found with
      | some x =>
        cases he
        exact ⟨_, .patient h₁ h₂ h₃⟩
      | none =>
        obtain ⟨as, hlate⟩ := retry_rungs (b := {}) (by decide) (by decide) he
        exact ⟨_, .late h₁ h₂ h₃ hlate⟩

/-- What a creation without refusal comes to: the ladder is climbed, and what it leads to is handed out, or there is
no memory. -/
theorem create_ladder {m m' : Machine κ} {r : Except Halt Nat} (hvalid : Allocator.refusal? size flags label = none)
    (he : (Allocator.create size flags label).exec m = (r, m')) (hr : Survives r) :
    ∃ as found m₁, Ladder (pageUp size) flags label
        { m with log := ⟨.debug, "Allocator::Create", []⟩ :: m.log } as found m₁ ∧
      ((∃ x, found = .ok x ∧ r = .ok x ∧ (Allocator.handOut x).exec m₁ = (.ok (), m')) ∨
        ∃ f, found = .error f ∧ SameInside m₁ m' ∧
          r = .error (.fault (.during (.creatingBytes label (pageUp size).toInt) (.root .outOfMemory)))) := by
  unfold Allocator.create at he
  obtain ⟨_, m₀, hrequire, he⟩ := faultless_requireAllocator.bind_survives he hr
  obtain rfl := (keeps_requireAllocator (R := Eq)).ok hrequire
  rw [exec_bind_of_ok (exec_debug _ _ _), hvalid] at he
  obtain ⟨found, m₁, hobtain, he⟩ := (faultless_obtain _ _ _).bind_survives he hr
  obtain ⟨as, hladder⟩ := obtain_ladder hobtain
  refine ⟨as, found, m₁, hladder, ?_⟩
  cases found with
  | ok x =>
    obtain ⟨_, m₂, hout, he⟩ := (faultless_handOut x).bind_survives he hr
    cases he
    exact .inl ⟨x, rfl, rfl, hout⟩
  | error f =>
    obtain ⟨_, m₂, herror, he⟩ := (faultless_error _ _).bind_survives he hr
    cases he
    exact .inr ⟨f, rfl, (keeps_error (R := SameInside) _ _).ok herror, rfl⟩

/-- A creation that comes to a buffer was not refused, and hands out what its search came to. -/
theorem create_ok {m m' : Machine κ} {x : Nat} (he : (Allocator.create size flags label).exec m = (.ok x, m')) :
    Allocator.refusal? size flags label = none ∧ ∃ as m₁, Ladder (pageUp size) flags label
      { m with log := ⟨.debug, "Allocator::Create", []⟩ :: m.log } as (.ok x) m₁ ∧
      (Allocator.handOut x).exec m₁ = (.ok (), m') := by
  have hvalid : Allocator.refusal? size flags label = none := by
    by_contra hne
    obtain ⟨f, hf⟩ := Option.ne_none_iff_exists'.1 hne
    unfold Allocator.create at he
    obtain ⟨_, m₀, -, he⟩ := bind_ok he
    rw [exec_bind_of_ok (exec_debug _ _ _), hf] at he
    cases he
  obtain ⟨as, found, m₁, hladder, ⟨y, rfl, hy, hout⟩ | ⟨_, -, -, hfault⟩⟩ := create_ladder hvalid he trivial
  · cases hy
    exact ⟨hvalid, as, m₁, hladder, hout⟩
  · cases hfault

/-! ## Attempts on the way -/

namespace LateRungs

variable {left : Nat} {m m' : Machine κ} {as : List (Attempt κ)} {r : Except Fault Nat}

theorem length_le (h : LateRungs size flags label left m as r m') : as.length ≤ left := by
  induction h with
  | found => simp
  | last => simp
  | again _ _ _ _ ih => simpa using ih

theorem attempts (h : LateRungs size flags label left m as r m') : ∀ a ∈ as, a.For size flags label := by
  induction h with
  | found _ ha => simpa using ha
  | last _ ha => simpa using ha
  | again _ ha _ _ ih => exact List.forall_mem_cons.2 ⟨ha, ih⟩

theorem error_iff (h : LateRungs size flags label left m as r m') :
    (∃ f, r = .error f) ↔ as.length = left ∧ ∀ a ∈ as, a.Failed := by
  induction h with
  | found => simp [Attempt.Failed]
  | last => simp [Attempt.Failed]
  | again _ _ _ _ ih =>
    rw [ih]
    simp [Attempt.Failed]

end LateRungs

namespace Ladder

variable {m m' : Machine κ} {as : List (Attempt κ)} {r : Except Fault Nat}

theorem length_le (h : Ladder size flags label m as r m') : as.length ≤ Backoff.attempts + 1 := by
  cases h with
  | cached => exact Nat.zero_le _
  | fresh => simp
  | patient => simp
  | late _ _ _ h => exact Nat.succ_le_succ h.length_le

theorem attempts (h : Ladder size flags label m as r m') : ∀ a ∈ as, a.For size flags label := by
  cases h with
  | cached => exact fun _ => nofun
  | fresh _ ha => simpa using ha
  | patient _ ha => simpa using ha
  | late _ ha _ h => exact List.forall_mem_cons.2 ⟨ha, h.attempts⟩

/-- A search fails exactly if as many allocations as there may be are attempted and all of them fail. -/
theorem error_iff (h : Ladder size flags label m as r m') :
    (∃ f, r = .error f) ↔ as.length = Backoff.attempts + 1 ∧ ∀ a ∈ as, a.Failed := by
  cases h with
  | cached => simp [Backoff.attempts]
  | fresh => simp [Backoff.attempts]
  | patient => simp [Backoff.attempts]
  | late _ _ _ h =>
    rw [h.error_iff]
    simp [Attempt.Failed]

end Ladder

end Mali
