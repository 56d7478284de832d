import Mali.Allocator.Wait
import Mali.Proofs.Access
import Mali.Proofs.Passes
import Mali.Proofs.Polls

/-!
# Waiting for buffers

While a wait is open events are handled, and nothing else happens: slots move on and callbacks fire.  A
buffer that is in use keeps its uses and what is pending on it.  In the end a wait that comes true has
seen every use that matters complete, or found that none was pending.

* `Action.Passive`, `Lingers`: what goes on while a wait is open.
* `polling_lingers`: waiting for a condition does nothing else.
* `Settles`, `wait_ok`: what a wait for a buffer comes to.
* `wait_run`: a wait is a run.
-/

namespace Mali

open Op

/-- Actions that no caller asks for. -/
def Action.Passive : Action → Prop
  | .advance _ _ | .fire _ _ | .other => True
  | _ => False

theorem Action.OfPass.passive {reported : Nat → Option UInt64} {a : Action} (h : a.OfPass reported) :
    a.Passive := by
  cases a with
  | advance | fire | other => trivial
  | _ => exact h

variable {κ α : Type}

/-! ## Buffers in use -/

/-- A buffer stays as it is, apart from its count of callbacks, and keeps what is pending on it. -/
structure Stays (x : Nat) (m m' : Machine κ) : Prop where
  account : ∀ a, m.storage.accounts[x]? = some a →
    ∃ n, m'.storage.accounts[x]? = some { a with gpuRefs := n }
  retains : Retains x m m'

namespace Stays

variable {x : Nat} {m m₁ m₂ : Machine κ}

theorem of_storage (hs : m₁.storage = m.storage) (hr : Retains x m m₁) : Stays x m m₁ :=
  ⟨fun a ha => ⟨a.gpuRefs, by rw [hs, ha]⟩, hr⟩

theorem trans (h : Stays x m m₁) (h' : Stays x m₁ m₂) : Stays x m m₂ where
  account a ha := by
    obtain ⟨n, hn⟩ := h.account a ha
    obtain ⟨n', hn'⟩ := h'.account { a with gpuRefs := n } hn
    exact ⟨n', hn'⟩
  retains := Journey.trans h.retains h'.retains

theorem inUse (h : Stays x m m₁) (hx : (⟨m, [], none⟩ : Config κ).InUse x) :
    (⟨m₁, [], none⟩ : Config κ).InUse x := by
  obtain ⟨a, ha, hlive⟩ := hx
  obtain ⟨n, hn⟩ := h.account a ha
  exact ⟨_, hn, hlive⟩

theorem usage (h : Stays x m m₁) (hx : (⟨m, [], none⟩ : Config κ).InUse x) : m₁.usage x = m.usage x := by
  obtain ⟨a, ha, -⟩ := hx
  obtain ⟨n, hn⟩ := h.account a ha
  rw [Machine.usage_of_account ha, Machine.usage_of_account hn]

end Stays

/-- A buffer in use stays so, and keeps its recorded uses and what is pending on it. -/
def Steady (m m' : Machine κ) : Prop := ∀ x, (⟨m, [], none⟩ : Config κ).InUse x → Stays x m m'

namespace Steady

variable {m m' : Machine κ}

theorem of_storage (hs : m'.storage = m.storage) (hr : ∀ x, Retains x m m') : Steady m m' :=
  fun x _ => .of_storage hs (hr x)

instance : OfAllocator (Steady (κ := κ)) where
  refl _ := of_storage rfl fun _ => Journey.refl _
  trans h h' x hx := (h x hx).trans (h' x ((h x hx).inUse hx))
  of_allocator h := of_storage (by rw [Machine.storage, h, Machine.storage])
    fun _ => OfAllocator.of_allocator h

end Steady

section Kernel

variable [Kernel κ]

theorem faultless_runCallback (c : Callback) : Faultless (Device.runCallback c : Op κ Unit) := by
  cases c with
  | report id => exact faultless_modify _
  | release x =>
    refine faultless_bind (faultless_modifyBuffer x _) fun _ =>
      faultless_bind (faultless_buffer x) fun b => ?_
    split
    · exact faultless_bind (faultless_writeHandle _ _) fun _ => faultless_finish x
    · exact faultless_pure ()

theorem faultless_runCallbacks (cs : List Callback) : Faultless (Device.runCallbacks cs : Op κ Unit) := by
  induction cs with
  | nil => exact faultless_pure ()
  | cons c cs ih => exact faultless_bind (faultless_runCallback c) fun _ => ih

/-- A callback changes no buffer in use, apart from its count of callbacks: for one with references a
release does not go on. -/
theorem steady_queueDrained {y : Nat} {m m' : Machine κ} {u : Unit}
    (he : (Buffer.queueDrained y).exec m = (.ok u, m')) : Steady m m' := by
  intro x hx
  obtain ⟨b, hb, hrefs, hcached, hfreed⟩ := hx
  have hb : m.storage.accounts[x]? = some b := hb
  have hretains : Retains x m m' := by
    refine retains_queueDrained (fun a ha _ => ?_) he
    rw [hb] at ha
    cases ha
    exact hrefs
  obtain ⟨a, m₁, ha, hedit, hend⟩ := queueDrained_ok he
  -- the account is the same, or has another count
  obtain ⟨n, hb'⟩ : ∃ n, m'.storage.accounts[x]? = some { b with gpuRefs := n } := by
    rcases eq_or_ne x y with rfl | hxy
    · rw [hb] at ha
      cases ha
      rcases hend with ⟨-, rfl⟩ | ⟨-, hzero, -⟩
      · exact ⟨_, hedit.account hb⟩
      · exact absurd hzero hrefs
    · have hb₁ : m₁.storage.accounts[x]? = some b := by rwa [hedit.account_of_ne hxy]
      rcases hend with ⟨-, rfl⟩ | ⟨-, -, m₂, hq, hf⟩
      · exact ⟨b.gpuRefs, hb₁⟩
      · refine ⟨b.gpuRefs, (tidies_finish [] hf).kept x b (by rwa [hq.storage]) hcached ?_⟩
        simpa using hxy.symm
  refine ⟨fun a ha => ⟨n, ?_⟩, hretains⟩
  rw [hb] at ha
  cases ha
  exact hb'

theorem steady_runCallbacks (cs : List Callback) :
    Keeps (Steady (κ := κ)) (Device.runCallbacks cs) := by
  have hone (c : Callback) : Keeps (Steady (κ := κ)) (Device.runCallback c) := by
    refine (faultless_runCallback c).keeps fun {m m' _} he => ?_
    cases c with
    | report id => exact (keeps_report _).ok he
    | release x => exact steady_queueDrained he
  exact keeps_runCallbacks_of hone cs

theorem steady_handleStreamEvents : Keeps (Steady (κ := κ)) Device.handleStreamEvents := by
  unfold Device.handleStreamEvents
  refine keeps_bind keeps_readNotification fun fine => keeps_bind keeps_device fun d => ?_
  split
  · exact keeps_pure fine
  · exact keeps_bind (keeps_advanceFromRecords _) fun cs =>
      keeps_bind (steady_runCallbacks cs) fun _ => keeps_pure fine

/-! ## Passes without faults -/

theorem faultless_readNotification : Faultless (Device.readNotification : Op κ Bool) := by
  have hgroup (n : Notification) : Faultless (Device.logGroupError n : Op κ Unit) := by
    unfold Device.logGroupError
    dsimp only
    repeat' split
    all_goals exact faultless_error _ _
  have hrecord (size : Nat) : Faultless (Device.readRecord size : Op κ _) := by
    unfold Device.readRecord
    refine faultless_bind faultless_device fun d => faultless_bind (faultless_call _) fun r => ?_
    split
    · exact faultless_pure _
    · exact faultless_bind (faultless_error _ _) fun _ => faultless_pure _
    · split
      · exact faultless_pure _
      · exact faultless_bind (faultless_error _ _) fun _ => faultless_pure _
  unfold Device.readNotification
  refine faultless_bind (hrecord _) fun r => ?_
  split
  · exact faultless_pure _
  · dsimp only
    split
    · exact faultless_bind (faultless_trace _ _) fun _ => faultless_pure _
    · split
      · exact faultless_bind (hgroup _) fun _ => faultless_pure _
      · split
        · exact faultless_bind (faultless_modify _) fun _ => faultless_pure _
        · exact faultless_bind (faultless_modify _) fun _ => faultless_pure _

omit [Kernel κ] in
theorem faultless_advanceSlot (i : Int) (n : UInt64) :
    Faultless (Device.advanceSlot i n : Op κ (List Callback)) := by
  have hready (n : UInt64) (cs : List Callback) : Faultless (Device.traceReady i n cs : Op κ Unit) := by
    unfold Device.traceReady
    split
    · exact faultless_trace _ _
    · exact faultless_pure ()
  unfold Device.advanceSlot Device.slot
  refine faultless_bind (faultless_bind faultless_device fun d => faultless_require _) fun s => ?_
  split
  · exact faultless_bind (faultless_trace _ _) fun _ => faultless_pure _
  · exact faultless_bind (faultless_modifyDevice _) fun _ => faultless_bind (hready _ _) fun _ =>
      faultless_bind (faultless_checkRule _) fun _ => faultless_pure _

theorem faultless_handleStreamEvents : Faultless (Device.handleStreamEvents : Op κ Bool) := by
  have hadvance (is : List Nat) : Faultless (Device.advanceFromRecords is : Op κ (List Callback)) := by
    induction is with
    | nil => exact faultless_pure _
    | cons i is ih =>
      unfold Device.advanceFromRecords Device.eventSeq Device.eventWord Device.slot
      exact faultless_bind (faultless_bind faultless_get fun m =>
          faultless_bind (faultless_require _) fun _ => faultless_pure _) fun n =>
        faultless_bind (faultless_bind faultless_device fun d => faultless_require _) fun s =>
        faultless_bind (faultless_trace _ _) fun _ => faultless_bind (faultless_advanceSlot _ _) fun _ =>
        faultless_bind ih fun _ => faultless_pure _
  unfold Device.handleStreamEvents
  refine faultless_bind faultless_readNotification fun fine => faultless_bind faultless_device fun d => ?_
  split
  · exact faultless_pure fine
  · exact faultless_bind (hadvance _) fun cs => faultless_bind (faultless_runCallbacks cs) fun _ => faultless_pure fine

/-! ## While a wait is open -/

/-- No stream is attached unasked. -/
theorem Run.length_streams_of_passive {c c' : Config κ} {es : List (Config κ × Action)} (h : Run c es c')
    (hacts : ∀ a ∈ es.map (·.2), a.Passive) :
    c'.progress.streams.length = c.progress.streams.length := by
  induction h with
  | nil => rfl
  | @cons c c₁ c' a es hstep hr ih =>
    have ha : a.Passive := hacts a List.mem_cons_self
    rw [ih fun a ha => hacts a (List.mem_cons_of_mem _ ha), hstep.length_streams, if_neg, Nat.add_zero]
    rintro rfl
    exact ha.elim

/-- Slots move on and callbacks fire. -/
structure Lingering (m m' : Machine κ) : Prop where
  generation : m'.progress.generation = .csf
  run : ∃ es, Run ⟨m, [], none⟩ es ⟨m', [], none⟩ ∧ ∀ a ∈ es.map (·.2), a.Passive
  steady : Steady m m'

/-- On a command stream device nothing but that happens. -/
def Lingers (m m' : Machine κ) : Prop := m.progress.generation = .csf → Lingering m m'

namespace Lingers

variable {m m' : Machine κ}

theorem of_quiet (hq : Quiet m m') (hr : ∀ x, Retains x m m') : Lingers m m' := by
  intro hcsf
  refine ⟨by rw [hq.progress, hcsf], ⟨_, .single (.quiet hq), ?_⟩, .of_storage hq.storage hr⟩
  exact fun a ha => List.mem_singleton.mp ha ▸ trivial

instance : Inward (Lingers (κ := κ)) where
  refl m hcsf := ⟨hcsf, ⟨[], .nil _, fun _ ha => nomatch ha⟩, Journey.refl m⟩
  trans h h' hcsf := by
    obtain ⟨hcsf₁, ⟨es₁, hrun₁, hacts₁⟩, hsteady₁⟩ := h hcsf
    obtain ⟨hcsf₂, ⟨es₂, hrun₂, hacts₂⟩, hsteady₂⟩ := h' hcsf₁
    refine ⟨hcsf₂, ⟨es₁ ++ es₂, hrun₁.append hrun₂, fun a ha => ?_⟩, Journey.trans hsteady₁ hsteady₂⟩
    rw [List.map_append, List.mem_append] at ha
    exact ha.elim (hacts₁ a) (hacts₂ a)
  of_eq hd ha _ hb := of_quiet (.of_eq hd ha hb) fun _ => OfAllocator.of_allocator ha

end Lingers

/-- On a command stream device events are those of streams. -/
theorem exec_handleEvents_of_csf {m : Machine κ} (hcsf : m.device.generation = .csf) :
    Device.handleEvents.exec m = Device.handleStreamEvents.exec m := by
  unfold Device.handleEvents
  rw [exec_bind_of_ok (exec_device m), hcsf]

/-- On a command stream device a cached buffer is always idle. -/
theorem exec_isIdle_of_csf {m : Machine κ} (hcsf : m.device.generation = .csf) (x : Nat) (patient : Bool) :
    (Allocator.isIdle x patient).exec m = (.ok true, m) := by
  unfold Allocator.isIdle
  rw [exec_bind_of_ok (exec_device m), if_pos hcsf]
  rfl

theorem lingers_handleEvents : Keeps (Lingers (κ := κ)) Device.handleEvents := by
  intro m hs hcsf
  have hsame : Device.handleEvents.exec m = Device.handleStreamEvents.exec m := exec_handleEvents_of_csf hcsf
  rw [hsame] at hs
  obtain ⟨fine, he⟩ := faultless_handleStreamEvents.ok hs
  rw [hsame]
  obtain ⟨es, hpass, -⟩ := handleStreamEvents_ok he
  have hacts : ∀ a ∈ es.map (·.2), a.Passive := fun a ha => (hpass.acts a ha).passive
  exact ⟨hpass.run.generation.trans hcsf, ⟨es, hpass.run, hacts⟩,
    steady_handleStreamEvents.ok he⟩

/-- Everything that waits are made of lets slots move on and callbacks fire, and does nothing else. -/
theorem polling_lingers : Polling (κ := κ) (Keeps Lingers) where
  pure := keeps_pure
  bind := keeps_bind
  device := keeps_device
  now := keeps_now
  call c _ _ := keeps_call c
  error := keeps_error
  modify f hf := by
    refine keeps_modify fun m => .of_quiet ⟨.of_eq ?_ rfl, rfl, fun k fd ho => ?_⟩
      fun _ => OfAllocator.of_allocator rfl
    · obtain ⟨_, _, _, _, hd⟩ := hf m.device
      show (f m.device).progress = m.device.progress
      rw [hd]
      rfl
    · obtain ⟨_, _, _, _, hd⟩ := hf m.device
      show (f m.device).handles.Owns k fd
      rwa [hd]
  handleEvents := lingers_handleEvents

/-! ## What a wait comes to -/

omit [Kernel κ] in
/-- Nothing inside the library changes. -/
structure SameInside (m m' : Machine κ) : Prop where
  device : m'.device = m.device
  allocator : m'.allocator = m.allocator
  submitters : m'.submitters = m.submitters
  batches : m'.batches = m.batches

omit [Kernel κ] in
instance : Inward (SameInside (κ := κ)) where
  refl _ := ⟨rfl, rfl, rfl, rfl⟩
  trans h h' := ⟨h'.device.trans h.device, h'.allocator.trans h.allocator,
    h'.submitters.trans h.submitters, h'.batches.trans h.batches⟩
  of_eq := SameInside.mk

omit [Kernel κ] in
theorem SameInside.inward {R : Machine κ → Machine κ → Prop} [Inward R] {m m' : Machine κ}
    (h : SameInside m m') : R m m' := Inward.of_eq h.device h.allocator h.submitters h.batches

omit [Kernel κ] in
/-- Looking whether every use that matters is complete changes nothing. -/
theorem usageFinished_ok {x : Nat} {readers r : Bool} {m m' : Machine κ}
    (he : (Buffer.usageFinished x readers).exec m = (.ok r, m')) :
    m' = m ∧ r = Usage.finished m.device.slots m.device.bound (m.usage x) readers := by
  unfold Buffer.usageFinished at he
  obtain ⟨b, hb, he⟩ := bind_buffer_ok he
  cases he
  exact ⟨rfl, by rw [Machine.usage_of_account (Machine.accounts_of_buffer hb)]; rfl⟩

/-- A wait for a buffer ends with every use that matters complete, and what it waited for is no longer
pending. -/
structure Settles (x : Nat) (readers : Bool) (m m' : Machine κ) : Prop extends Quiet m m' where
  finished : Usage.finished m.device.slots m.device.bound (m.usage x) readers = true
  access : m'.access x = if readers then 0 else m.access x &&& Access.read
  others : ∀ y, y ≠ x → Retains y m m'

omit [Kernel κ] in
/-- Forgetting pending accesses changes nothing else that matters. -/
theorem settles_of_modify {x : Nat} {readers : Bool} {m m' : Machine κ} {b : Buffer} {u : Unit}
    (hb : m.allocator.buffers[x]? = some b)
    (hfinished : Usage.finished m.device.slots m.device.bound (m.usage x) readers = true)
    (he : (modifyBuffer x (Buffer.settle readers)).exec m = (.ok u, m')) :
    Settles x readers m m' where
  toQuiet := Keeps.ok (by exact quiet_modifyBuffer x fun _ => rfl) he
  finished := hfinished
  access := by
    cases he
    have hb' : (m.allocator.mapBuffer x (Buffer.settle readers)).buffers[x]? =
        some (b.settle readers) := by
      rw [Allocator.mapBuffer, getElem?_modify_of_some hb, if_pos rfl]
    rw [Machine.access_of_buffer hb', Machine.access_of_buffer hb]
    rfl
  others y hy := (retains_modifyBuffer_of_ne hy.symm _).ok he

theorem keeps_pollFdUntil {R : Machine κ → Machine κ → Prop} [Asks R] (fd deadline : Int)
    (shared : Bool) : Keeps R (Device.pollFdUntil fd shared deadline) := by
  unfold Device.pollFdUntil
  refine keeps_bind keeps_now fun time => keeps_bind (keeps_asking rfl rfl) fun r => ?_
  split
  · exact keeps_pure _
  · exact keeps_bind (keeps_error _ _) fun _ => keeps_pure _

/-- By the time that a wait gives its answer it has looked a last time, and only the fences of an imported
buffer may say no when every use is complete. -/
theorem waitUsage_ok {x : Nat} {timeout : Int} {readers r : Bool} {m m' : Machine κ}
    (he : (Buffer.waitUsage x timeout readers).exec m = (.ok r, m')) :
    (r = false ∧ Lingers m m' ∧ ∃ m₁ b, Lingers m m₁ ∧ m₁.allocator.buffers[x]? = some b ∧
        (b.has BufferFlag.shared = false →
          Usage.finished m₁.device.slots m₁.device.bound (m₁.usage x) readers = false)) ∨
      (r = true ∧ ∃ m₁, Lingers m m₁ ∧ Settles x readers m₁ m') := by
  have hcheck : Keeps (Lingers (κ := κ)) (do
      return if ← Buffer.usageFinished x readers then some () else none) := by
    refine keeps_bind ?_ fun _ => keeps_pure _
    exact keeps_bind (keeps_buffer x) fun _ => keeps_bind keeps_device fun _ => keeps_pure _
  unfold Buffer.waitUsage at he
  obtain ⟨⟨_, deadline⟩, m₁, h₁, hrest⟩ := bind_ok he
  have hwait : Lingers m m₁ := (polling_lingers.waitUntil hcheck timeout).ok h₁
  obtain ⟨b, hb, hrest⟩ := bind_buffer_ok hrest
  obtain ⟨finished, m₂, h₂, hrest⟩ := bind_ok hrest
  obtain ⟨hm₂, hfinished⟩ := usageFinished_ok h₂
  rw [hm₂] at hrest
  -- the fences of an imported buffer may say no, but never yes on their own
  obtain ⟨ready, m₃, hinside, hready, hown, hend⟩ : ∃ ready m₃, SameInside m₁ m₃ ∧
      (ready = true → finished = true) ∧
      (b.has BufferFlag.shared = false → finished = true → ready = true) ∧ (do
        if ready then modifyBuffer x (Buffer.settle readers)
        else
          warn "timed out waiting for buffer object"
            [("handle", toString b.handle), ("label", b.label)]
        return ready : Op κ Bool).exec m₃ = (.ok r, m') := by
    dsimp only at hrest
    split at hrest
    · rename_i hshared
      obtain ⟨ready, m₃, h₃, hrest⟩ := bind_ok hrest
      refine ⟨ready, m₃, (keeps_pollFdUntil _ _ _).ok h₃, fun _ => hshared.1, fun hno => ?_, hrest⟩
      rw [hshared.2] at hno
      cases hno
    · exact ⟨finished, m₁, Journey.refl _, id, fun _ => id, hrest⟩
  have hlinger : Lingers m m₃ := Journey.trans hwait hinside.inward
  cases hr : ready with
  | true =>
    rw [hr, if_pos rfl] at hend
    obtain ⟨_, m₄, h₄, hend⟩ := bind_ok hend
    cases hend
    refine .inr ⟨rfl, m₃, hlinger, settles_of_modify (b := b) (by rwa [hinside.allocator]) ?_ h₄⟩
    have husage : m₃.usage x = m₁.usage x := by
      rw [Machine.usage, Machine.storage, hinside.allocator]
      rfl
    rw [hinside.device, husage, ← hfinished]
    exact hready hr
  | false =>
    rw [hr, if_neg Bool.false_ne_true] at hend
    obtain ⟨_, m₄, h₄, hend⟩ := bind_ok hend
    cases hend
    refine .inl ⟨rfl, Journey.trans hlinger ((keeps_warn _ _).ok h₄), m₁, b, hwait, hb, fun hno => ?_⟩
    rw [← hfinished, Bool.eq_false_iff]
    intro hyes
    rw [hown hno hyes] at hr
    cases hr

/-- A wait for a buffer fails, or finds nothing pending, or sees every use that matters complete. -/
theorem wait_ok {x : Nat} {timeout : Int} {readers r : Bool} {m m' : Machine κ}
    (hcsf : m.progress.generation = .csf)
    (he : (Buffer.wait x timeout readers).exec m = (.ok r, m')) :
    (Lingers m m' ∧ (r = true → ∃ b, m.allocator.buffers[x]? = some b ∧ b.isQuiet readers = true)) ∨
      (r = true ∧ ∃ m₁, Lingers m m₁ ∧ Settles x readers m₁ m') := by
  unfold Buffer.wait at he
  obtain ⟨_, m₁, h₁, he⟩ := bind_ok he
  have hinside : SameInside m m₁ := (keeps_debug _ _).ok h₁
  have hstart : Lingers m m₁ := hinside.inward
  obtain ⟨b, hb, he⟩ := bind_buffer_ok he
  rw [hinside.allocator] at hb
  split at he
  · rename_i hquiet
    cases he
    exact .inl ⟨hstart, fun _ => ⟨b, hb, hquiet⟩⟩
  · obtain ⟨d, m₂, h₂, he⟩ := bind_ok he
    cases h₂
    have hcsf : m₁.device.generation = .csf := by
      rw [hinside.device]
      exact hcsf
    rw [if_pos hcsf] at he
    rcases waitUsage_ok he with ⟨rfl, hlinger, -⟩ | ⟨rfl, m₂, hlinger, hsettles⟩
    · exact .inl ⟨Journey.trans hstart hlinger, nofun⟩
    · exact .inr ⟨rfl, m₂, Journey.trans hstart hlinger, hsettles⟩

/-- A wait is a run in which slots move on and callbacks fire, whatever it comes to. -/
theorem wait_run {x : Nat} {timeout : Int} {readers r : Bool} {m m' : Machine κ}
    (hcsf : m.progress.generation = .csf)
    (he : (Buffer.wait x timeout readers).exec m = (.ok r, m')) :
    ∃ es, Run ⟨m, [], none⟩ es ⟨m', [], none⟩ ∧ ∀ a ∈ es.map (·.2), a.Passive := by
  rcases wait_ok hcsf he with ⟨hlinger, -⟩ | ⟨-, m₁, hlinger, hsettles⟩
  · exact (hlinger hcsf).run
  · obtain ⟨es, hrun, hacts⟩ := (hlinger hcsf).run
    refine ⟨_, hrun.append (.single (.quiet hsettles.toQuiet)), fun a ha => ?_⟩
    rw [List.map_append, List.mem_append] at ha
    rcases ha with ha | ha
    · exact hacts a ha
    · rw [List.mem_singleton.mp ha]
      trivial

/-- A wait changes no recorded use of a buffer in use. -/
theorem wait_usage {x y : Nat} {timeout : Int} {readers r : Bool} {m m' : Machine κ}
    (hcsf : m.progress.generation = .csf)
    (he : (Buffer.wait y timeout readers).exec m = (.ok r, m'))
    (hx : (⟨m, [], none⟩ : Config κ).InUse x) : m'.usage x = m.usage x := by
  rcases wait_ok hcsf he with ⟨hlinger, -⟩ | ⟨-, m₁, hlinger, hsettles⟩
  · exact ((hlinger hcsf).steady x hx).usage hx
  · rw [← ((hlinger hcsf).steady x hx).usage hx, Machine.usage, hsettles.storage, Machine.usage]

end Kernel

end Mali
