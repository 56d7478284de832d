import Mali.Device.Wait
import Mali.Proofs.Frame

/-!
# What waits are made of

A wait looks at the device and at the time, calls the kernel, writes to the log, keeps what belongs to waits
and polls, and handles events.  A property of operations that holds of these parts, and of sequences of what
it holds of, holds of whole waits.

* `SamePolls`: a change of a device that is none but for its waits and polls.
* `Polling`: properties of operations that waits have if handling events does.
* `Polling.loop`, `Polling.waitUntil`: whole waits.
* `Polling.waitUntil_some`: a wait that has an outcome found it by looking.
-/

namespace Mali

open Op

variable {κ : Type} [Kernel κ]

/-- A device changes only in what waits and polls keep there. -/
def SamePolls (d d' : Device) : Prop :=
  ∃ waiters passes poller leaving, d' = { d with waiters, passes, poller, leaving }

/-- A property of operations that holds of the parts of a wait, and of sequences. -/
structure Polling (P : ∀ {α : Type}, Op κ α → Prop) : Prop where
  pure : ∀ {α : Type} (a : α), P (pure a)
  bind : ∀ {α β : Type} {x : Op κ α} {f : α → Op κ β}, P x → (∀ a, P (f a)) → P (x >>= f)
  device : P device
  now : P now
  call : ∀ c : Syscall, c.plain = true → c.concernsObject = false → P (call c)
  error : ∀ (message : String) (fields : List (String × String)), P (error message fields)
  modify : ∀ f : Device → Device, (∀ d, SamePolls d (f d)) → P (modifyDevice f)
  handleEvents : P Device.handleEvents

namespace Polling

variable {P : ∀ {α : Type}, Op κ α → Prop} (h : Polling P)
include h

theorem await (moment : Nat) : P (Op.await moment) := by
  unfold Op.await
  refine h.bind (h.call _ rfl rfl) fun r => ?_
  cases r with
  | ok woken => exact h.pure woken
  | error _ => exact h.pure false

theorem sleep (duration : Nat) : P (Op.sleep duration) := h.bind (h.call _ rfl rfl) fun _ => h.pure _

theorem pass : P Wait.pass :=
  h.bind (h.bind h.handleEvents fun _ => h.pure _) fun _ => h.modify _ fun _ => ⟨_, _, _, _, rfl⟩

theorem setPoller (p : Poller) : P (Wait.setPoller p) := h.modify _ fun _ => ⟨_, _, _, _, rfl⟩

theorem enter : P Wait.enter := by
  unfold Wait.enter
  refine h.bind h.device fun d => ?_
  split
  · refine h.bind (h.call _ rfl rfl) fun r => ?_
    cases r with
    | error e => exact h.bind (h.error _ _) fun _ => h.bind h.pass fun _ => h.setPoller _
    | ok ready =>
      refine h.bind h.now fun time => ?_
      have hend (answered : Bool) : P (do
          if answered then
            Wait.pass
            Wait.setPoller .looping
          else Wait.setPoller (.polling (time + d.options.pollInterval.toNat))) := by
        split
        · exact h.bind h.pass fun _ => h.setPoller _
        · exact h.setPoller _
      dsimp only
      split
      · exact h.bind (h.pure true) fun answered => hend answered
      · exact h.bind (h.await time) fun answered => hend answered
  · exact h.pure ()

theorem endOldest : P Wait.endOldest := by
  unfold Wait.endOldest
  refine h.bind h.device fun d => ?_
  split
  · exact h.bind (h.modify _ fun _ => ⟨_, _, _, _, rfl⟩) fun _ => h.pass
  · exact h.bind (h.setPoller _) fun _ => h.pass

theorem dismiss : P Wait.dismiss := by
  have hleave : P (modifyDevice fun d => { d with leaving := Wait.polls d, poller := .fresh }) :=
    h.modify _ fun _ => ⟨_, _, _, _, rfl⟩
  unfold Wait.dismiss
  refine h.bind h.device fun d => ?_
  split
  · exact h.bind h.enter fun _ => hleave
  · exact hleave

theorem pauseWith (moment : Nat) (ends : List Nat) : P (Wait.pauseWith moment ends) := by
  induction ends with
  | nil => exact h.bind h.now fun _ => h.sleep _
  | cons stop ends ih =>
    refine h.bind (h.await _) fun woken => ?_
    split
    · exact h.bind h.endOldest fun _ => ih
    · exact h.pure ()

theorem pause (duration : Nat) : P (Wait.pause duration) :=
  h.bind h.now fun _ => h.bind h.device fun _ => h.pauseWith _ _

theorem finishWith (ends : List Nat) : P (Wait.finishWith ends) := by
  induction ends with
  | nil => exact h.pure ()
  | cons stop ends ih =>
    exact h.bind (h.bind (h.await _) fun _ => h.pure _) fun _ => h.bind h.endOldest fun _ => ih

theorem rest (deadline : Int) : P (Wait.rest deadline) := by
  unfold Wait.rest
  refine h.bind h.device fun d => ?_
  split
  · refine h.bind h.now fun time => h.bind (h.pause _) fun _ => ?_
    split
    · exact h.setPoller _
    · exact h.pure ()
  · exact h.pure ()

theorem awaitPass (deadline : Int) : P (Wait.awaitPass deadline) := by
  unfold Wait.awaitPass
  refine h.bind h.device fun d => ?_
  split
  · exact h.pure ()
  · refine h.bind (h.await _) fun woken => ?_
    split
    · exact h.endOldest
    · exact h.pure ()

theorem block (w : Wait) : P w.block := by
  unfold Wait.block
  refine h.bind h.device fun d => ?_
  split
  · exact h.bind h.now fun _ => h.bind (h.sleep _) fun _ => h.pure false
  · refine h.bind (h.rest _) fun _ => h.bind h.now fun time => ?_
    split
    · exact h.pure false
    · refine h.bind h.enter fun _ => h.bind h.device fun d' => ?_
      split
      · exact h.bind (h.awaitPass _) fun _ => h.bind h.device fun _ => h.bind h.now fun _ => h.pure _
      · exact h.bind h.device fun _ => h.bind h.now fun _ => h.pure _

theorem next (w : Wait) : P w.next := by
  unfold Wait.next
  refine h.bind h.device fun d => ?_
  dsimp only
  split
  · exact h.pure _
  · refine h.bind h.now fun time => ?_
    split
    · exact h.pure _
    · split
      · exact h.pure _
      · refine h.bind (h.block w) fun again => ?_
        split
        · exact h.bind h.device fun _ => h.pure _
        · exact h.pure _

theorem start (timeout : Int) : P (Wait.start timeout) :=
  h.bind (h.modify _ fun _ => ⟨_, _, _, _, rfl⟩) fun _ => h.bind h.now fun _ => h.pure _

theorem done (w : Wait) : P w.done := by
  unfold Wait.done
  split
  · refine h.bind (h.modify _ fun _ => ⟨_, _, _, _, rfl⟩) fun _ => h.bind h.device fun d => ?_
    split
    · exact h.bind h.dismiss fun _ => h.pure _
    · exact h.pure _
  · exact h.pure _

/-- By induction on the checks that there is room for. -/
theorem loop {α : Type} {check : Op κ (Option α)} (hcheck : P check) (fuel : Nat) (w : Wait) :
    P (Wait.loop check fuel w) := by
  induction fuel generalizing w with
  | zero => exact h.pure _
  | succ fuel ih =>
    unfold Wait.loop
    refine h.bind (h.next w) fun r => ?_
    split
    · exact h.pure _
    · refine h.bind hcheck fun outcome => ?_
      split
      · exact h.pure _
      · exact ih _

/-- Waiting for a condition has the property if looking at the condition does. -/
theorem waitUntil {α : Type} {check : Op κ (Option α)} (hcheck : P check) (timeout : Int) :
    P (Device.waitUntil timeout check) :=
  h.bind (h.start timeout) fun w => h.bind (h.loop hcheck _ w) fun _ =>
    h.bind (h.bind (h.done _) fun _ => h.pure _) fun _ => h.pure _

end Polling

/-! ## Outcomes of waits -/

namespace Polling

variable {R : Machine κ → Machine κ → Prop} [Journey R] (h : Polling (κ := κ) (Keeps R)) {α : Type}
  {check : Op κ (Option α)} {m m' : Machine κ} {a : α}
include h

/-- The outcome of the checks is that of the last one.  By induction on the checks that there is room for. -/
theorem loop_some (hcheck : Keeps R check) {fuel : Nat} {w w' : Wait}
    (he : (Wait.loop check fuel w).exec m = (.ok (some a, w'), m')) :
    ∃ m₁, R m m₁ ∧ check.exec m₁ = (.ok (some a), m') := by
  induction fuel generalizing w m with
  | zero => cases he
  | succ fuel ih =>
    obtain ⟨⟨again, w₁⟩, m₁, hnext, he⟩ := bind_ok he
    have hbefore : R m m₁ := (h.next w).ok hnext
    cases again with
    | false => cases he
    | true =>
      obtain ⟨outcome, m₂, hout, he⟩ := bind_ok he
      cases outcome with
      | some b =>
        cases he
        exact ⟨m₁, hbefore, hout⟩
      | none =>
        obtain ⟨m₃, hrest, hlast⟩ := ih he
        exact ⟨m₃, Journey.trans hbefore (Journey.trans (hcheck.ok hout) hrest), hlast⟩

/-- A wait that has an outcome found it by looking. -/
theorem waitUntil_some (hcheck : Keeps R check) {timeout deadline : Int}
    (he : (Device.waitUntil timeout check).exec m = (.ok (some a, deadline), m')) :
    ∃ m₁ m₂, R m m₁ ∧ check.exec m₁ = (.ok (some a), m₂) ∧ R m₂ m' := by
  obtain ⟨w, m₁, hstart, he⟩ := bind_ok he
  obtain ⟨⟨outcome, w'⟩, m₂, hloop, he⟩ := bind_ok he
  obtain ⟨_, m₃, hdone, he⟩ := bind_ok he
  obtain ⟨_, _, hdone, hend⟩ := bind_ok (x := w'.done) (f := fun _ => Pure.pure ()) hdone
  cases hend
  cases he
  obtain ⟨m₄, hlooked, hfound⟩ := h.loop_some hcheck hloop
  exact ⟨m₄, m₂, Journey.trans ((h.start timeout).ok hstart) hlooked, hfound, (h.done w').ok hdone⟩

end Polling

end Mali
