import Mali.Machine
import Mathlib

/-!
# Executing operations

What an operation does to a machine is a function: `Op.exec` gives the value or the halt it comes to,
together with the machine it leaves behind.  A caught fault leaves its changes in place, so a statement
about every way to go on after an operation has to cover faults as well as values.

Four kinds of statements about operations follow.  Each is closed under sequencing, so that a long
operation is treated by treating its parts.

* `Op.exec`, `Op.exec_bind`, `Op.exec_attempt`: running an operation, and how parts are put together.
* `Op.bind_ok`: the intermediate machine of a sequence that came to a value.
* `Op.Survives`: outcomes after which the program goes on.
* `Op.Keeps`: every surviving execution moves the machine along a relation.
* `Op.Faultless`: no execution ends in a fault.
* `Op.Returns`: every execution comes to a value, and `Op.Lasts`: to a value or a fault.
-/

namespace Mali

/-- Whether a report comes from a memory hook. -/
def Report.fromHook : Report → Bool
  | callback _ => false
  | allocated .. => true
  | freed _ => true

/-- What the memory hooks told, newest first. -/
def Machine.hookReports {κ : Type} (m : Machine κ) : List Report := m.reports.filter Report.fromHook

namespace Op

variable {κ α β : Type}

/-! ## Running an operation -/

/-- The outcome of an operation on a machine, and the machine it leaves. -/
def exec (x : Op κ α) (m : Machine κ) : Except Halt α × Machine κ := x.run.run m

@[simp] theorem exec_pure (a : α) (m : Machine κ) : (pure a : Op κ α).exec m = (.ok a, m) := rfl

@[simp] theorem exec_get (m : Machine κ) : (get : Op κ (Machine κ)).exec m = (.ok m, m) := rfl

@[simp] theorem exec_modify (f : Machine κ → Machine κ) (m : Machine κ) :
    (modify f : Op κ Unit).exec m = (.ok (), f m) := rfl

@[simp] theorem exec_modifyGet (f : Machine κ → α × Machine κ) (m : Machine κ) :
    (modifyGet f : Op κ α).exec m = (.ok (f m).1, (f m).2) := rfl

@[simp] theorem exec_throw (h : Halt) (m : Machine κ) :
    (throw h : Op κ α).exec m = (.error h, m) := rfl

/-- A sequence stops where its first part stops. -/
theorem exec_bind (x : Op κ α) (f : α → Op κ β) (m : Machine κ) :
    (x >>= f).exec m = match x.exec m with
      | (.ok a, m') => (f a).exec m'
      | (.error h, m') => (.error h, m') := by
  show ExceptT.bindCont f (x.exec m).1 (x.exec m).2 = _
  rcases x.exec m with ⟨_ | _, m'⟩ <;> rfl

theorem exec_map (f : α → β) (x : Op κ α) (m : Machine κ) :
    (f <$> x).exec m = match x.exec m with
      | (.ok a, m') => (.ok (f a), m')
      | (.error h, m') => (.error h, m') :=
  exec_bind x (fun a => pure (f a)) m

theorem exec_tryCatch (x : Op κ α) (f : Halt → Op κ α) (m : Machine κ) :
    (tryCatch x f).exec m = match x.exec m with
      | (.ok a, m') => (.ok a, m')
      | (.error h, m') => (f h).exec m' := by
  unfold exec
  rw [ExceptT.run_tryCatch, StateT.run_bind]
  rcases x.run.run m with ⟨_ | _, m'⟩ <;> rfl

/-- An attempt turns a fault into a value, and lets the other halts pass. -/
theorem exec_attempt (x : Op κ α) (m : Machine κ) :
    (attempt x).exec m = match x.exec m with
      | (.ok a, m') => (.ok (.ok a), m')
      | (.error (.fault f), m') => (.ok (.error f), m')
      | (.error h, m') => (.error h, m') := by
  rw [attempt, exec_tryCatch, exec_map]
  rcases x.exec m with ⟨h | a, m'⟩
  · cases h <;> rfl
  · rfl

/-- An attempt that came to a value is an operation that did. -/
theorem attempt_ok {x : Op κ α} {m m' : Machine κ} {a : α}
    (h : (attempt x).exec m = (.ok (.ok a), m')) : x.exec m = (.ok a, m') := by
  rw [exec_attempt] at h
  rcases hx : x.exec m with ⟨f | b, m₁⟩
  · rw [hx] at h
    cases f <;> cases h
  · rw [hx] at h
    cases h
    rfl

/-- An attempt that came to a fault is an operation that did. -/
theorem attempt_fault {x : Op κ α} {m m' : Machine κ} {f : Fault} (h : (attempt x).exec m = (.ok (.error f), m')) :
    x.exec m = (.error (.fault f), m') := by
  rw [exec_attempt] at h
  rcases hx : x.exec m with ⟨e | a, m₁⟩
  · rw [hx] at h
    cases e <;> cases h
    rfl
  · rw [hx] at h
    cases h

/-- A sequence that came to a value did so part by part. -/
theorem bind_ok {x : Op κ α} {f : α → Op κ β} {m m' : Machine κ} {b : β}
    (h : (x >>= f).exec m = (.ok b, m')) :
    ∃ a m₁, x.exec m = (.ok a, m₁) ∧ (f a).exec m₁ = (.ok b, m') := by
  rw [exec_bind] at h
  rcases hx : x.exec m with ⟨_ | a, m₁⟩
  · simp [hx] at h
  · exact ⟨a, m₁, rfl, by simpa [hx] using h⟩

/-- What comes to a value leaves the machine that it leaves. -/
theorem exec_of_value {x : Op κ α} {m : Machine κ} {a : α}
    (h : (x.exec m).1.toOption = some a) : x.exec m = (.ok a, (x.exec m).2) := by
  rcases hx : x.exec m with ⟨_ | b, m'⟩
  · rw [hx] at h
    cases h
  · rw [hx] at h
    cases h
    rfl

/-- What stops leaves the machine that it leaves. -/
theorem exec_of_error {x : Op κ α} {m : Machine κ} {h : Halt} (he : (x.exec m).1 = .error h) :
    x.exec m = (.error h, (x.exec m).2) := Prod.ext he rfl

/-- A sequence whose first part came to a value goes on with the second. -/
theorem exec_bind_of_ok {x : Op κ α} {f : α → Op κ β} {m m₁ : Machine κ} {a : α}
    (h : x.exec m = (.ok a, m₁)) : (x >>= f).exec m = (f a).exec m₁ := by
  rw [exec_bind, h]

theorem exec_discard_of_ok {x : Op κ α} {m m₁ : Machine κ} {a : α} (h : x.exec m = (.ok a, m₁)) :
    (discard x : Op κ Unit).exec m = (.ok (), m₁) := by
  show ((fun _ => ()) <$> x : Op κ Unit).exec m = _
  rw [exec_map, h]

/-! ## Parts of a machine -/

@[simp] theorem exec_fail (f : Fault) (m : Machine κ) :
    (fail f : Op κ α).exec m = (.error (.fault f), m) := rfl

@[simp] theorem exec_violate (f : Fault) (m : Machine κ) :
    (violate f : Op κ α).exec m = (.error (.panic f), m) := rfl

@[simp] theorem exec_crash (m : Machine κ) : (crash : Op κ α).exec m = (.error .crash, m) := rfl

@[simp] theorem exec_require_some (a : α) (m : Machine κ) :
    (require (some a) : Op κ α).exec m = (.ok a, m) := rfl

@[simp] theorem exec_require_none (m : Machine κ) :
    (require none : Op κ α).exec m = (.error .crash, m) := rfl

@[simp] theorem exec_device (m : Machine κ) : (device : Op κ Device).exec m = (.ok m.device, m) := rfl

@[simp] theorem exec_allocator (m : Machine κ) :
    (allocator : Op κ Allocator).exec m = (.ok m.allocator, m) := rfl

@[simp] theorem exec_modifyDevice (f : Device → Device) (m : Machine κ) :
    (modifyDevice f : Op κ Unit).exec m = (.ok (), { m with device := f m.device }) := rfl

@[simp] theorem exec_modifyAllocator (f : Allocator → Allocator) (m : Machine κ) :
    (modifyAllocator f : Op κ Unit).exec m = (.ok (), { m with allocator := f m.allocator }) := rfl

@[simp] theorem exec_modifyBuffer (id : Nat) (f : Buffer → Buffer) (m : Machine κ) :
    (modifyBuffer id f : Op κ Unit).exec m =
      (.ok (), { m with allocator := m.allocator.mapBuffer id f }) := rfl

@[simp] theorem exec_call [Kernel κ] (c : Syscall) (m : Machine κ) :
    (call c : Op κ _).exec m =
      (.ok (Kernel.call m.kernel c).1.result,
        { m with
          kernel := (Kernel.call m.kernel c).2
          memory := (Kernel.call m.kernel c).1.stores.foldl Memory.apply m.memory
          calls := ⟨c, (Kernel.call m.kernel c).1.result⟩ :: m.calls }) := rfl

theorem exec_debug (message : String) (fields : List (String × String)) (m : Machine κ) :
    (debug message fields : Op κ Unit).exec m =
      (.ok (), { m with log := ⟨.debug, message, fields⟩ :: m.log }) := rfl

theorem exec_error (message : String) (fields : List (String × String)) (m : Machine κ) :
    (error message fields : Op κ Unit).exec m =
      (.ok (), { m with log := ⟨.error, message, fields⟩ :: m.log }) := rfl

theorem exec_buffer (id : Nat) (m : Machine κ) :
    (buffer id : Op κ Buffer).exec m = (require m.allocator.buffers[id]? : Op κ Buffer).exec m := rfl

theorem exec_buffer_of_some {id : Nat} {m : Machine κ} {b : Buffer} (h : m.allocator.buffers[id]? = some b) :
    (buffer id : Op κ Buffer).exec m = (.ok b, m) := by
  rw [exec_buffer, h]
  rfl

theorem exec_requireAllocator {m : Machine κ} (h : m.allocator.started = true) :
    (requireAllocator : Op κ Unit).exec m = (.ok (), m) := by
  unfold requireAllocator
  rw [exec_bind_of_ok (exec_allocator m), h]
  rfl

/-- A rule that is not broken stops nothing. -/
theorem exec_checkRule {rule : Machine κ → Option Cause} {m : Machine κ} (h : rule m = none) :
    (checkRule rule).exec m = (.ok (), m) := by
  unfold checkRule
  rw [exec_bind_of_ok (exec_get m), h]
  split
  · rfl
  · rfl

/-- A sequence that begins by reading a buffer goes on from the same machine. -/
theorem bind_buffer_ok {id : Nat} {f : Buffer → Op κ α} {m m' : Machine κ} {a : α}
    (h : (buffer id >>= f).exec m = (.ok a, m')) :
    ∃ b, m.allocator.buffers[id]? = some b ∧ (f b).exec m = (.ok a, m') := by
  rw [exec_bind, exec_buffer] at h
  cases hb : m.allocator.buffers[id]? with
  | none => simp [hb] at h
  | some b => exact ⟨b, rfl, by simpa [hb] using h⟩

theorem bind_require_ok {o : Option α} {f : α → Op κ β} {m m' : Machine κ} {b : β}
    (h : (require o >>= f).exec m = (.ok b, m')) : ∃ a, o = some a ∧ (f a).exec m = (.ok b, m') := by
  cases o with
  | none => simp [exec_bind] at h
  | some a => exact ⟨a, rfl, by simpa [exec_bind] using h⟩

/-! ## Surviving -/

/-- Outcomes after which the program goes on: values, and faults for the caller. -/
def Survives : Except Halt α → Prop
  | .ok _ => True
  | .error (.fault _) => True
  | .error _ => False

@[simp] theorem survives_ok (a : α) : Survives (.ok a) := trivial

@[simp] theorem survives_fault (f : Fault) : Survives (.error (.fault f) : Except Halt α) := trivial

@[simp] theorem not_survives_panic (f : Fault) :
    ¬Survives (.error (.panic f) : Except Halt α) := id

@[simp] theorem not_survives_crash : ¬Survives (.error .crash : Except Halt α) := id

theorem Survives.fault {h : Halt} (hs : Survives (.error h : Except Halt α)) : ∃ f, h = .fault f := by
  cases h with
  | fault f => exact ⟨f, rfl⟩
  | panic f => exact absurd hs (not_survives_panic f)
  | crash => exact absurd hs not_survives_crash

/-- A sequence that survives stops at a fault of its first part, or goes on after it. -/
theorem bind_survives {x : Op κ α} {f : α → Op κ β} {m m' : Machine κ} {r : Except Halt β}
    (he : (x >>= f).exec m = (r, m')) (hr : Survives r) :
    (∃ h, x.exec m = (.error (.fault h), m') ∧ r = .error (.fault h)) ∨
      ∃ a m₁, x.exec m = (.ok a, m₁) ∧ (f a).exec m₁ = (r, m') := by
  rw [exec_bind] at he
  rcases hx : x.exec m with ⟨e | a, m₁⟩ <;> simp only [hx] at he
  · cases he
    obtain ⟨h, rfl⟩ := hr.fault
    exact .inl ⟨h, rfl, rfl⟩
  · exact .inr ⟨a, m₁, rfl, he⟩

/-- Relations that an operation can move along in several steps. -/
class Journey (R : Machine κ → Machine κ → Prop) : Prop where
  refl (m : Machine κ) : R m m
  trans {m₁ m₂ m₃ : Machine κ} : R m₁ m₂ → R m₂ m₃ → R m₁ m₃

/-- Moving along equality is leaving everything as it is. -/
instance : Journey (Eq (α := Machine κ)) := ⟨fun _ => rfl, Eq.trans⟩

/-- Relations that look at the kernel, the calls, what memory hooks told and the library only: not at the memory, the
log and the other reports. -/
class Audible (R : Machine κ → Machine κ → Prop) : Prop extends Journey R where
  of_audible {m m' : Machine κ} : m'.kernel = m.kernel → m'.calls = m.calls → m'.hookReports = m.hookReports →
    m'.device = m.device → m'.allocator = m.allocator → m'.submitters = m.submitters → m'.batches = m.batches → R m m'

/-- Relations that look at the kernel, the calls and the library only: not at the memory, the log and the
reports. -/
class OfTrace (R : Machine κ → Machine κ → Prop) : Prop extends Journey R where
  of_trace {m m' : Machine κ} : m'.kernel = m.kernel → m'.calls = m.calls → m'.device = m.device →
    m'.allocator = m.allocator → m'.submitters = m.submitters → m'.batches = m.batches → R m m'

instance (R : Machine κ → Machine κ → Prop) [OfTrace R] : Audible R where
  of_audible hk hc _ := OfTrace.of_trace hk hc

/-- Relations that look at the kernel and the library only: not at the memory, the calls, the log and the
reports. -/
class OfState (R : Machine κ → Machine κ → Prop) : Prop extends Journey R where
  of_state {m m' : Machine κ} : m'.kernel = m.kernel → m'.device = m.device → m'.allocator = m.allocator →
    m'.submitters = m.submitters → m'.batches = m.batches → R m m'

instance (R : Machine κ → Machine κ → Prop) [OfState R] : OfTrace R where
  of_trace hk _ := OfState.of_state hk

/-- Relations that do not look outside the library: at the kernel, the memory, the calls, the log and
the reports. -/
class Inward (R : Machine κ → Machine κ → Prop) : Prop extends Journey R where
  of_eq {m m' : Machine κ} : m'.device = m.device → m'.allocator = m.allocator →
    m'.submitters = m.submitters → m'.batches = m.batches → R m m'

instance (R : Machine κ → Machine κ → Prop) [Inward R] : OfState R where
  of_state _ := Inward.of_eq

/-- Every surviving execution from a machine moves along a relation. -/
def KeepsAt (R : Machine κ → Machine κ → Prop) (x : Op κ α) (m : Machine κ) : Prop :=
  Survives (x.exec m).1 → R m (x.exec m).2

/-- Every surviving execution moves the machine along a relation. -/
def Keeps (R : Machine κ → Machine κ → Prop) (x : Op κ α) : Prop := ∀ m, KeepsAt R x m

section Keeps

variable {R S : Machine κ → Machine κ → Prop}

/-- Every outcome that an execution survives is looked at. -/
theorem keepsAt_of_exec {x : Op κ α} {m : Machine κ} (h : ∀ {r m'}, x.exec m = (r, m') → Survives r → R m m') :
    KeepsAt R x m := h rfl

theorem Keeps.mono {x : Op κ α} (h : Keeps R x) (hRS : ∀ m m', R m m' → S m m') : Keeps S x :=
  fun m hs => hRS _ _ (h m hs)

theorem KeepsAt.survives {x : Op κ α} {m m' : Machine κ} {r : Except Halt α} (h : KeepsAt R x m)
    (he : x.exec m = (r, m')) (hr : Survives r) : R m m' := by
  rw [KeepsAt, he] at h
  exact h hr

theorem Keeps.ok {x : Op κ α} (h : Keeps R x) {m m' : Machine κ} {a : α}
    (he : x.exec m = (.ok a, m')) : R m m' := (h m).survives he trivial

@[grind ←] theorem keeps_attempt {x : Op κ α} (hx : Keeps R x) : Keeps R (attempt x) := by
  intro m hs
  have h := hx m
  rw [KeepsAt] at h
  rw [exec_attempt] at hs ⊢
  rcases he : x.exec m with ⟨f | a, m'⟩ <;> simp only [he] at hs h ⊢
  · cases f with
    | fault f => exact h trivial
    | panic f => exact absurd hs (not_survives_panic f)
    | crash => exact absurd hs not_survives_crash
  · exact h trivial

@[grind ←] theorem keeps_violate (f : Fault) : Keeps R (violate f : Op κ α) :=
  fun _ hs => absurd hs (not_survives_panic f)

@[grind ←] theorem keeps_crash : Keeps R (crash : Op κ α) :=
  fun _ hs => absurd hs not_survives_crash

/-- A change moves along a relation that holds before and after it. -/
theorem keeps_modify {f : Machine κ → Machine κ} (h : ∀ m, R m (f m)) :
    Keeps R (modify f : Op κ Unit) := fun m _ => h m

variable [Journey R]

/-- A sequence moves as its parts do, each from where the one before came to. -/
theorem keepsAt_bind {x : Op κ α} {f : α → Op κ β} {m : Machine κ} (hx : KeepsAt R x m)
    (hf : ∀ a m', x.exec m = (.ok a, m') → KeepsAt R (f a) m') : KeepsAt R (x >>= f) m := by
  refine keepsAt_of_exec fun {r m'} he hr => ?_
  rcases bind_survives he hr with ⟨_, h₁, -⟩ | ⟨a, m₁, h₁, he⟩
  · exact hx.survives h₁ trivial
  · exact Journey.trans (hx.survives h₁ trivial) ((hf a m₁ h₁).survives he hr)

@[grind ←] theorem keeps_bind {x : Op κ α} {f : α → Op κ β} (hx : Keeps R x)
    (hf : ∀ a, Keeps R (f a)) : Keeps R (x >>= f) :=
  fun m => keepsAt_bind (hx m) fun a m' _ => hf a m'

/-- An outcome is looked at, and either way the relation is kept. -/
theorem keeps_bind_except {ε : Type} {x : Op κ (Except ε α)} {f : Except ε α → Op κ β} (hx : Keeps R x)
    (hok : ∀ a, Keeps R (f (.ok a))) (herror : ∀ e, Keeps R (f (.error e))) : Keeps R (x >>= f) :=
  keeps_bind hx fun
    | .ok a => hok a
    | .error e => herror e

theorem keeps_bind_option {x : Op κ (Option α)} {f : Option α → Op κ β} (hx : Keeps R x)
    (hnone : Keeps R (f none)) (hsome : ∀ a, Keeps R (f (some a))) : Keeps R (x >>= f) :=
  keeps_bind hx fun
    | none => hnone
    | some a => hsome a

@[grind ←] theorem keeps_pure (a : α) : Keeps R (pure a : Op κ α) := fun m _ => Journey.refl m

@[grind ←] theorem keeps_map {x : Op κ α} (f : α → β) (hx : Keeps R x) : Keeps R (f <$> x) :=
  keeps_bind hx fun a => keeps_pure (f a)

@[grind ←] theorem keeps_discard {x : Op κ α} (hx : Keeps R x) : Keeps R (discard x) :=
  keeps_map _ hx

@[grind ←] theorem keeps_ignore {x : Op κ α} (hx : Keeps R x) : Keeps R (ignore x) :=
  keeps_discard (keeps_attempt hx)

@[grind ←] theorem keeps_faultOf {x : Op κ α} (hx : Keeps R x) : Keeps R (faultOf x) := by
  refine keeps_bind (keeps_attempt hx) fun r => ?_
  cases r with
  | ok a => exact keeps_pure none
  | error f => exact keeps_pure (some f)

@[grind ←] theorem keeps_fail (f : Fault) : Keeps R (fail f : Op κ α) := fun m _ => Journey.refl m

@[grind ←] theorem keeps_require (a : Option α) : Keeps R (require a : Op κ α) := by
  cases a with
  | none => exact keeps_crash
  | some a => exact keeps_pure a

@[grind ←] theorem keeps_get : Keeps R (get : Op κ (Machine κ)) := fun m _ => Journey.refl m

@[grind ←] theorem keeps_device : Keeps R (device : Op κ Device) := fun m _ => Journey.refl m

@[grind ←] theorem keeps_allocator : Keeps R (allocator : Op κ Allocator) :=
  fun m _ => Journey.refl m

@[grind ←] theorem keeps_now [Kernel κ] : Keeps R (now : Op κ Nat) := fun m _ => Journey.refl m

@[grind ←] theorem keeps_buffer (id : Nat) : Keeps R (buffer id : Op κ Buffer) :=
  keeps_bind keeps_allocator fun _ => keeps_require _

@[grind ←] theorem keeps_checkRule (rule : Machine κ → Option Cause) : Keeps R (checkRule rule) := by
  unfold checkRule
  grind

@[grind ←] theorem keeps_requireAllocator : Keeps R (requireAllocator : Op κ Unit) := by
  unfold requireAllocator
  grind

end Keeps

/-! ## Operations without faults -/

/-- No execution ends in a fault. -/
def Faultless (x : Op κ α) : Prop := ∀ m f, (x.exec m).1 ≠ .error (.fault f)

/-- An operation without faults that survives comes to a value. -/
theorem Faultless.ok {x : Op κ α} (hx : Faultless x) {m : Machine κ} (hs : Survives (x.exec m).1) :
    ∃ a, x.exec m = (.ok a, (x.exec m).2) := by
  have h := hx m
  rcases he : x.exec m with ⟨_ | a, m'⟩ <;> simp only [he] at hs h
  · obtain ⟨f, rfl⟩ := hs.fault
    exact absurd rfl (h f)
  · exact ⟨a, rfl⟩

/-- What it comes to, if it survives, is a value. -/
theorem Faultless.value {x : Op κ α} (hx : Faultless x) {m m' : Machine κ} {r : Except Halt α}
    (he : x.exec m = (r, m')) (hr : Survives r) : ∃ a, r = .ok a := by
  obtain ⟨a, hok⟩ := hx.ok (m := m) (by rwa [he])
  rw [he] at hok
  exact ⟨a, (Prod.mk.inj hok).1⟩

/-- Without faults only values have to be looked at. -/
theorem Faultless.keepsAt {R : Machine κ → Machine κ → Prop} {x : Op κ α} {m : Machine κ} (hx : Faultless x)
    (h : ∀ {m' a}, x.exec m = (.ok a, m') → R m m') : KeepsAt R x m := by
  intro hs
  obtain ⟨a, he⟩ := hx.ok hs
  exact h he

theorem Faultless.keeps {R : Machine κ → Machine κ → Prop} {x : Op κ α} (hx : Faultless x)
    (h : ∀ {m m' a}, x.exec m = (.ok a, m') → R m m') : Keeps R x := fun _ => hx.keepsAt h

@[grind ←] theorem faultless_bind {x : Op κ α} {f : α → Op κ β} (hx : Faultless x)
    (hf : ∀ a, Faultless (f a)) : Faultless (x >>= f) := by
  intro m e
  rw [exec_bind]
  have h := hx m e
  rcases he : x.exec m with ⟨_ | a, m'⟩ <;> simp only [he] at h ⊢
  · simpa using h
  · exact hf a m' e

@[grind ←] theorem faultless_pure (a : α) : Faultless (pure a : Op κ α) := by
  intro m f
  simp

@[grind ←] theorem faultless_map {x : Op κ α} (f : α → β) (hx : Faultless x) : Faultless (f <$> x) :=
  faultless_bind hx fun a => faultless_pure (f a)

@[grind ←] theorem faultless_modify (f : Machine κ → Machine κ) :
    Faultless (modify f : Op κ Unit) := by
  intro m e
  simp

@[grind ←] theorem faultless_attempt (x : Op κ α) : Faultless (attempt x) := by
  intro m f
  rw [exec_attempt]
  rcases x.exec m with ⟨h | a, m'⟩
  · cases h <;> simp
  · simp

theorem faultless_ignore (x : Op κ α) : Faultless (ignore x) := faultless_map _ (faultless_attempt x)

@[grind ←] theorem faultless_violate (f : Fault) : Faultless (violate f : Op κ α) := by
  intro m e
  simp

@[grind ←] theorem faultless_require (a : Option α) : Faultless (require a : Op κ α) := by
  intro m f
  cases a <;> simp

@[grind ←] theorem faultless_get : Faultless (get : Op κ (Machine κ)) := by
  intro m f
  simp

@[grind ←] theorem faultless_device : Faultless (device : Op κ Device) := by
  intro m f
  simp

@[grind ←] theorem faultless_allocator : Faultless (allocator : Op κ Allocator) := by
  intro m f
  simp

@[grind ←] theorem faultless_now [Kernel κ] : Faultless (now : Op κ Nat) :=
  faultless_bind faultless_get fun _ => faultless_pure _

@[grind ←] theorem faultless_buffer (id : Nat) : Faultless (buffer id : Op κ Buffer) :=
  faultless_bind faultless_allocator fun _ => faultless_require _

@[grind ←] theorem faultless_call [Kernel κ] (c : Syscall) : Faultless (call c : Op κ _) := by
  intro m f
  simp

@[grind ←] theorem faultless_checkRule (rule : Machine κ → Option Cause) :
    Faultless (checkRule rule) := by
  unfold checkRule
  grind

/-- If the first part of a sequence has no faults and the sequence survives, the first part came to a
value. -/
theorem Faultless.bind_survives {x : Op κ α} {f : α → Op κ β} (hx : Faultless x) {m m' : Machine κ}
    {r : Except Halt β} (he : (x >>= f).exec m = (r, m')) (hr : Survives r) :
    ∃ a m₁, x.exec m = (.ok a, m₁) ∧ (f a).exec m₁ = (r, m') := by
  rcases Op.bind_survives he hr with ⟨h, hfault, -⟩ | hrest
  · exact absurd (congrArg Prod.fst hfault) (hx m h)
  · exact hrest

/-! ## Operations that always return -/

/-- Every execution comes to a value. -/
def Returns (x : Op κ α) : Prop := ∀ m, ∃ a m', x.exec m = (.ok a, m')

@[grind ←] theorem returns_pure (a : α) : Returns (pure a : Op κ α) := fun m => ⟨a, m, rfl⟩

@[grind ←] theorem returns_bind {x : Op κ α} {f : α → Op κ β} (hx : Returns x)
    (hf : ∀ a, Returns (f a)) : Returns (x >>= f) := by
  intro m
  obtain ⟨a, m₁, he⟩ := hx m
  rw [exec_bind_of_ok he]
  exact hf a m₁

@[grind ←] theorem returns_device : Returns (device : Op κ Device) := fun m => ⟨m.device, m, rfl⟩

@[grind ←] theorem returns_log (level : LogLevel) (message : String)
    (fields : List (String × String)) : Returns (log level message fields : Op κ Unit) :=
  fun _ => ⟨(), _, rfl⟩

@[grind ←] theorem returns_debug (message : String) (fields : List (String × String)) :
    Returns (debug message fields : Op κ Unit) := returns_log _ _ _

@[grind ←] theorem returns_error (message : String) (fields : List (String × String)) :
    Returns (error message fields : Op κ Unit) := returns_log _ _ _

@[grind ←] theorem returns_trace (message : String) (fields : List (String × String)) :
    Returns (trace message fields : Op κ Unit) := by
  unfold trace debug
  grind

@[grind ←] theorem returns_call [Kernel κ] (c : Syscall) : Returns (call c : Op κ _) :=
  fun m => ⟨_, _, exec_call c m⟩

/-- Every execution comes to a value or a fault. -/
def Lasts (x : Op κ α) : Prop := ∀ m, Survives (x.exec m).1

theorem Returns.lasts {x : Op κ α} (hx : Returns x) : Lasts x := by
  intro m
  obtain ⟨a, m', he⟩ := hx m
  rw [he]
  trivial

theorem lasts_fail (f : Fault) : Lasts (fail f : Op κ α) := fun _ => trivial

theorem lasts_bind {x : Op κ α} {f : α → Op κ β} (hx : Lasts x) (hf : ∀ a, Lasts (f a)) :
    Lasts (x >>= f) := by
  intro m
  have h := hx m
  rw [exec_bind]
  rcases he : x.exec m with ⟨e | a, m'⟩
  · rw [he] at h
    obtain ⟨f, rfl⟩ := h.fault
    trivial
  · exact hf a m'

/-- What does not stop for good can be tried. -/
theorem returns_attempt {x : Op κ α} (hx : Lasts x) : Returns (attempt x) := by
  intro m
  have h := hx m
  rw [exec_attempt]
  rcases he : x.exec m with ⟨e | a, m'⟩
  · rw [he] at h
    obtain ⟨f, rfl⟩ := h.fault
    exact ⟨_, _, rfl⟩
  · exact ⟨_, _, rfl⟩

end Op

end Mali
