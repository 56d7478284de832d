import Mali.Proofs.Mappings

/-!
# The calls that operations make

Operations that only make calls leave the library as it is.  Such an operation is said to make calls by its outcome: to
each value or fault belong the calls that lead to it, newest first, with their answers.  Sequences make the calls of
their parts.

* `Called`: calls were made, and the library stays as it is.
* `Calls`, `Calls.bind`, `Calls.attempt`: the calls that an operation makes, by its outcome.
* `calls_request`, `calls_oldRequest`, `calls_streamRequest`, `calls_mapMemory`: single calls with their error handling.
-/

namespace Mali

open Op

variable {κ α β : Type}

/-- Calls were made, newest first, and the library and what it told stay as they are. -/
structure Called (cs : List CallRecord) (m m' : Machine κ) : Prop extends SameInside m m' where
  calls : m'.calls = cs ++ m.calls
  reports : m'.reports = m.reports

namespace Called

variable {cs ds : List CallRecord} {m m₁ m' : Machine κ}

theorem refl (m : Machine κ) : Called [] m m := ⟨⟨rfl, rfl, rfl, rfl⟩, rfl, rfl⟩

theorem trans (h : Called cs m m₁) (h' : Called ds m₁ m') : Called (ds ++ cs) m m' where
  toSameInside := Journey.trans h.toSameInside h'.toSameInside
  calls := by rw [h'.calls, h.calls, List.append_assoc]
  reports := h'.reports.trans h.reports

/-- The log does not matter. -/
theorem log (m : Machine κ) (log : List LogRecord) : Called [] m { m with log } :=
  ⟨⟨rfl, rfl, rfl, rfl⟩, rfl, rfl⟩

end Called

/-- On a device, an operation comes to a value or a fault, and its calls go with that. -/
def Calls (d : Device) (x : Op κ α) (S : Except Fault α → List CallRecord → Prop) : Prop :=
  ∀ m : Machine κ, m.device = d →
    ∃ r cs m', x.exec m = (r.mapError Halt.fault, m') ∧ Called cs m m' ∧ S r cs

namespace Calls

variable {d : Device} {x : Op κ α} {f : α → Op κ β} {S : Except Fault α → List CallRecord → Prop}
  {T : Except Fault β → List CallRecord → Prop}

theorem mono (h : Calls d x S) {S' : Except Fault α → List CallRecord → Prop} (hS : ∀ r cs, S r cs → S' r cs) :
    Calls d x S' := by
  intro m hm
  obtain ⟨r, cs, m', he, hcalled, hr⟩ := h m hm
  exact ⟨r, cs, m', he, hcalled, hS r cs hr⟩

theorem pure {a : α} (h : S (.ok a) []) : Calls d (Pure.pure a : Op κ α) S :=
  fun m _ => ⟨.ok a, [], m, rfl, .refl m, h⟩

theorem fail {f : Fault} (h : S (.error f) []) : Calls d (Op.fail f : Op κ α) S :=
  fun m _ => ⟨.error f, [], m, rfl, .refl m, h⟩

/-- A sequence stops at a fault of its first part, or makes the calls of its second part after those of the first. -/
theorem bind (hx : Calls d x S) (herror : ∀ h cs, S (.error h) cs → T (.error h) cs)
    (hok : ∀ a cs, S (.ok a) cs → Calls d (f a) fun r ds => T r (ds ++ cs)) : Calls d (x >>= f) T := by
  intro m hm
  obtain ⟨r, cs, m₁, he, hcalled, hr⟩ := hx m hm
  cases r with
  | error h =>
    refine ⟨.error h, cs, m₁, ?_, hcalled, herror h cs hr⟩
    rw [exec_bind, he]
    rfl
  | ok a =>
    obtain ⟨r', ds, m', he', hcalled', hr'⟩ := hok a cs hr m₁ (hcalled.device.trans hm)
    exact ⟨r', ds ++ cs, m', (exec_bind_of_ok he).trans he', hcalled.trans hcalled', hr'⟩

/-- What goes before comes to a value and makes no call. -/
theorem next {P : α → Prop} (hx : Calls d x fun r cs => cs = [] ∧ ∃ a, r = .ok a ∧ P a)
    (hf : ∀ a, P a → Calls d (f a) T) : Calls d (x >>= f) T := by
  refine hx.bind ?_ ?_
  · rintro h cs ⟨-, a, ha, -⟩
    cases ha
  · rintro a cs ⟨rfl, a', ha, hP⟩
    cases ha
    exact (hf a hP).mono fun r ds hr => by rwa [List.append_nil]

theorem attempt (hx : Calls d x S) : Calls d (Op.attempt x) fun r cs => ∃ r', r = .ok r' ∧ S r' cs := by
  intro m hm
  obtain ⟨r, cs, m', he, hcalled, hr⟩ := hx m hm
  refine ⟨.ok r, cs, m', ?_, hcalled, r, rfl, hr⟩
  rw [exec_attempt, he]
  cases r <;> rfl

theorem ignore (hx : Calls d x S) : Calls d (Op.ignore x) fun r cs => r = .ok () ∧ ∃ r', S r' cs := by
  show Calls d (Op.attempt x >>= fun _ => Pure.pure ()) _
  refine hx.attempt.bind ?_ ?_
  · rintro h cs ⟨r', hr, -⟩
    cases hr
  · rintro a cs ⟨r', -, hr⟩
    exact .pure ⟨rfl, r', by rwa [List.nil_append]⟩

end Calls

section

variable {d : Device}

theorem calls_device : Calls d (device : Op κ Device) fun r cs => cs = [] ∧ ∃ a, r = .ok a ∧ a = d :=
  fun m hm => ⟨.ok m.device, [], m, rfl, .refl m, rfl, _, rfl, hm⟩

theorem calls_log (level : LogLevel) (message : String) (fields : List (String × String)) :
    Calls d (log level message fields : Op κ Unit) fun r cs => cs = [] ∧ ∃ a, r = .ok a ∧ True :=
  fun m _ => ⟨.ok (), [], _, rfl, .log m _, rfl, _, rfl, trivial⟩

theorem calls_debug (message : String) (fields : List (String × String)) :
    Calls d (debug message fields : Op κ Unit) fun r cs => cs = [] ∧ ∃ a, r = .ok a ∧ True := calls_log _ _ _

theorem calls_error (message : String) (fields : List (String × String)) :
    Calls d (error message fields : Op κ Unit) fun r cs => cs = [] ∧ ∃ a, r = .ok a ∧ True := calls_log _ _ _

variable [Kernel κ]

theorem calls_call (c : Syscall) :
    Calls d (call c : Op κ _) fun r cs => ∃ answer, r = .ok answer ∧ cs = [⟨c, answer⟩] :=
  fun m _ => ⟨.ok _, _, _, exec_call c m, ⟨⟨rfl, rfl, rfl, rfl⟩, rfl, rfl⟩, _, rfl, rfl⟩

/-- A request is one call, and comes to its answer. -/
theorem calls_request (name : String) (r : Ioctl) : Calls d (Interface.request name r : Op κ r.Reply) fun out cs =>
    ∃ answer, cs = [⟨.ioctl d.fd r, answer⟩] ∧ out = answer.mapError fun e =>
      .during (.request name) (.ofErrno e) := by
  unfold Interface.request
  refine calls_device.next fun _ hd => ?_
  subst hd
  refine (calls_call _).bind (by rintro h cs ⟨answer, hr, -⟩; cases hr) ?_
  rintro a cs ⟨answer, hr, rfl⟩
  cases hr
  cases a with
  | ok reply => exact .pure ⟨_, rfl, rfl⟩
  | error e => exact (calls_error _ _).next fun _ _ => .fail ⟨_, rfl, rfl⟩

/-- A request of the oldest generation is one call, and succeeds if no code was answered.  Otherwise it comes to an error
number. -/
theorem calls_oldRequest (name : String) (r : OldIoctl) :
    Calls d (Interface.oldRequest name r : Op κ r.Reply) fun out cs =>
      ∃ answer, cs = [⟨.ioctl d.fd (.old r.command.headerId r), answer⟩] ∧
        ((∃ reply : Coded r.Reply, answer = .ok reply ∧ reply.code = 0 ∧ out = .ok reply.value) ∨
          ((∀ reply : Coded r.Reply, answer = .ok reply → reply.code ≠ 0) ∧
            ∃ f e, out = .error f ∧ f.cause = .errno e)) := by
  unfold Interface.oldRequest
  refine (calls_request _ _).bind ?_ ?_
  · rintro h cs ⟨answer, rfl, hout⟩
    cases answer with
    | ok reply => cases hout
    | error e =>
      cases hout
      exact ⟨_, rfl, .inr ⟨nofun, _, e, rfl, rfl⟩⟩
  · rintro reply cs ⟨answer, rfl, hout⟩
    cases answer with
    | error e => cases hout
    | ok reply' =>
      cases hout
      split
      · exact .pure ⟨_, rfl, .inl ⟨reply, rfl, ‹_›, rfl⟩⟩
      · refine (calls_error _ _).next fun _ _ => .fail ⟨_, rfl, .inr ⟨fun reply' h => ?_, _, _, rfl, rfl⟩⟩
        cases h
        assumption

/-- Where there are command streams, their requests are requests like any other. -/
theorem calls_streamRequest (hcsf : d.generation = .csf) (asking name : String) (r : Ioctl) :
    Calls d (Interface.streamRequest asking name r : Op κ r.Reply) fun out cs =>
      ∃ answer, cs = [⟨.ioctl d.fd r, answer⟩] ∧ out = answer.mapError fun e =>
        .during (.request name) (.ofErrno e) := by
  unfold Interface.streamRequest
  refine calls_device.next fun _ hd => ?_
  subst hd
  rw [hcsf]
  exact calls_request name r

/-- Mapping a part of the device file is one call, which fails as a value. -/
theorem calls_mapMemory (offset length : Int64) (prot : Int) :
    Calls d (mapMemory offset length prot : Op κ _) fun out cs =>
      ∃ answer, cs = [⟨.mmap d.fd offset length prot mapShared, answer⟩] ∧
        out = .ok (answer.map fun addr => ⟨addr, length.toInt.toNat⟩) := by
  unfold mapMemory
  refine calls_device.next fun _ hd => ?_
  subst hd
  refine (calls_call _).bind (by rintro h cs ⟨answer, hr, -⟩; cases hr) ?_
  rintro a cs ⟨answer, hr, rfl⟩
  cases hr
  cases a with
  | ok addr => exact .pure ⟨_, rfl, rfl⟩
  | error e => exact .pure ⟨_, rfl, rfl⟩

end

end Mali
