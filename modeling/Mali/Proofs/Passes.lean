import Mali.Proofs.AccountHistory

/-!
# Passes of event handling

A pass of a command stream device reads one notification, moves every bound slot on to the number in its
event record, and runs the callbacks that came off the slots on the way.  Reading the notification is the
only part that lets the kernel act, so the records stay as they are from there on, and the order in which
the slots are visited makes no difference to what is read.

Seen step by step a pass is a run in which slots are advanced and callbacks fire, and nothing else.

* `Machine.record?`, `Machine.reported?`: the number in an event record, now and when a pass reads it.
* `Pass`: a run of advances and callbacks.
* `handleEvents_ok`: handling events is such a run, and advances every bound slot that has a record.
-/

namespace Mali

open Op

variable {κ : Type}

/-! ## Event records -/

/-- The number in the event record of a slot, if the slot has one. -/
def Machine.record? (m : Machine κ) (i : Nat) : Option UInt64 :=
  (m.device.eventWord? (Device.recordOffset (Int64.ofNat i))).map m.memory.word

/-- The memory and the place of the event records stay as they are. -/
structure SameRecords (m m' : Machine κ) : Prop where
  memory : m'.memory = m.memory
  place : m'.device.eventMemory = m.device.eventMemory

namespace SameRecords

variable {m₁ m₂ m₃ : Machine κ}

theorem record? (h : SameRecords m₁ m₂) : m₂.record? = m₁.record? := by
  funext i
  unfold Machine.record? Device.eventWord?
  rw [h.memory, h.place]

instance : Journey (SameRecords (κ := κ)) where
  refl _ := ⟨rfl, rfl⟩
  trans h h' := ⟨h'.memory.trans h.memory, h'.place.trans h.place⟩

end SameRecords

theorem eventSeq_ok {i : Nat} {n : UInt64} {m m' : Machine κ}
    (he : (Device.eventSeq (Int64.ofNat i)).exec m = (.ok n, m')) : m' = m ∧ m.record? i = some n := by
  unfold Device.eventSeq Device.eventWord at he
  obtain ⟨_, m₁, h₁, he⟩ := bind_ok he
  cases h₁
  obtain ⟨addr, haddr, he⟩ := bind_require_ok he
  rw [exec_pure, Prod.mk.injEq, Except.ok.injEq] at he
  obtain ⟨rfl, rfl⟩ := he
  exact ⟨rfl, by rw [Machine.record?, haddr, Option.map_some]⟩

@[grind ←] theorem sameRecords_trace (message : String) (fields : List (String × String)) :
    Keeps (SameRecords (κ := κ)) (trace message fields) := by
  have hlog : Keeps (SameRecords (κ := κ)) (debug message fields) := keeps_modify fun _ => ⟨rfl, rfl⟩
  unfold trace
  grind

theorem sameRecords_advanceSlot (i : Int) (n : UInt64) :
    Keeps (SameRecords (κ := κ)) (Device.advanceSlot i n) := by
  have hset (s : EventSlot) : Keeps (SameRecords (κ := κ)) (Device.setSlot i.toNat s) :=
    keeps_modify fun _ => ⟨rfl, rfl⟩
  unfold Device.advanceSlot Device.traceReady
  refine keeps_bind (keeps_slot i) fun s => ?_
  split
  · exact keeps_bind (sameRecords_trace _ _) fun _ => keeps_pure _
  · refine keeps_bind (hset _) fun _ => keeps_bind ?_ fun _ =>
      keeps_bind (keeps_checkRule _) fun _ => keeps_pure _
    grind

section Kernel

variable [Kernel κ]

/-- The number in the event record of a slot when a pass comes to read it. -/
def Machine.reported? (m : Machine κ) (i : Nat) : Option UInt64 :=
  (Device.readNotification.exec m).2.record? i

/-! ## Steps of a pass -/

/-- What a pass does, given the numbers that it reads. -/
def Action.OfPass (reported : Nat → Option UInt64) : Action → Prop
  | .advance i n => reported i = some n
  | .fire _ _ | .other => True
  | _ => False

/-- Nothing happened but plain calls: whatever these keep is kept. -/
def Plainly (m m' : Machine κ) : Prop := ∀ (R : Machine κ → Machine κ → Prop) [Plain R], R m m'

theorem Plainly.quiet {m m' : Machine κ} (h : Plainly m m') : Quiet m m' := h Quiet

/-- Slots move on and callbacks fire, with plain calls between. -/
inductive Pass (reported : Nat → Option UInt64) :
    Config κ → List (Config κ × Action) → Config κ → Prop
  | nil (c : Config κ) : Pass reported c [] c
  | quiet {m m₁ : Machine κ} {ready : List (Nat × Link)} {es : List (Config κ × Action)} {c' : Config κ}
    (hp : Plainly m m₁) (h : Pass reported ⟨m₁, ready, none⟩ es c') :
    Pass reported ⟨m, ready, none⟩ ((⟨m, ready, none⟩, .other) :: es) c'
  | advance {m m₁ : Machine κ} {i : Nat} {n : UInt64} {ready : List (Nat × Link)}
    {taken : List Callback} {es : List (Config κ × Action)} {c' : Config κ}
    (hn : reported i = some n) (he : (Device.advanceSlot i n).exec m = (.ok taken, m₁))
    (h : Pass reported ⟨m₁, ready ++ (Action.advance i n).takes m.progress, none⟩ es c') :
    Pass reported ⟨m, ready, none⟩ ((⟨m, ready, none⟩, .advance i n) :: es) c'
  | fire {m m₁ : Machine κ} {i : Nat} {l : Link} {ready : List (Nat × Link)}
    {es : List (Config κ × Action)} {c' : Config κ}
    (he : (Device.runCallback l.callback).exec m = (.ok (), m₁))
    (h : Pass reported ⟨m₁, ready, none⟩ es c') :
    Pass reported ⟨m, (i, l) :: ready, none⟩ ((⟨m, (i, l) :: ready, none⟩, .fire i l) :: es) c'

namespace Pass

variable {reported : Nat → Option UInt64} {c c₁ c' : Config κ} {es es' : List (Config κ × Action)}

theorem append (h : Pass reported c es c₁) (h' : Pass reported c₁ es' c') :
    Pass reported c (es ++ es') c' := by
  induction h with
  | nil => exact h'
  | quiet hp _ ih => exact .quiet hp (ih h')
  | advance hn he _ ih => exact .advance hn he (ih h')
  | fire he _ ih => exact .fire he (ih h')

theorem run (h : Pass reported c es c') : Run c es c' := by
  induction h with
  | nil => exact .nil _
  | quiet hp _ ih => exact .cons (.quiet hp.quiet) ih
  | advance _ he _ ih => exact .cons (.advance he) ih
  | fire he _ ih => exact .cons (.fire he) ih

theorem acts (h : Pass reported c es c') : ∀ a ∈ es.map (·.2), a.OfPass reported := by
  induction h with
  | nil => exact fun _ ha => nomatch ha
  | quiet _ _ ih => exact List.forall_mem_cons.mpr ⟨trivial, ih⟩
  | advance hn _ _ ih => exact List.forall_mem_cons.mpr ⟨hn, ih⟩
  | fire _ _ ih => exact List.forall_mem_cons.mpr ⟨trivial, ih⟩

/-- No stream is attached in a pass. -/
theorem length_streams (h : Pass reported c es c') :
    c'.progress.streams.length = c.progress.streams.length := by
  induction h with
  | nil => rfl
  | quiet hp _ ih =>
    rw [ih, Step.length_streams (.quiet hp.quiet)]
    rfl
  | advance _ he _ ih =>
    rw [ih, Step.length_streams (.advance he)]
    rfl
  | fire he _ ih =>
    rw [ih, Step.length_streams (.fire he)]
    rfl

/-- What holds where the storage stays as it is, and where a callback runs, holds from the start of a
pass to every configuration of it, and from there to its end. -/
theorem relate {R : Machine κ → Machine κ → Prop} [Journey R]
    (hstorage : ∀ {m m' : Machine κ}, m'.storage = m.storage → R m m')
    (hfire : ∀ {callback : Callback} {m m' : Machine κ},
      (Device.runCallback callback).exec m = (.ok (), m') → R m m')
    (h : Pass reported c es c') :
    R c.machine c'.machine ∧
      ∀ d ∈ es.map (·.1), R c.machine d.machine ∧ R d.machine c'.machine := by
  have hcons {c c₁ c' : Config κ} {act : Action} {es : List (Config κ × Action)}
      (hstep : R c.machine c₁.machine) (ih : R c₁.machine c'.machine ∧
        ∀ d ∈ es.map (·.1), R c₁.machine d.machine ∧ R d.machine c'.machine) :
      R c.machine c'.machine ∧ ∀ d ∈ ((c, act) :: es).map (·.1),
        R c.machine d.machine ∧ R d.machine c'.machine := by
    have hall := Journey.trans hstep ih.1
    refine ⟨hall, List.forall_mem_cons.mpr ⟨⟨Journey.refl _, hall⟩, fun d hd => ?_⟩⟩
    exact ⟨Journey.trans hstep (ih.2 d hd).1, (ih.2 d hd).2⟩
  induction h with
  | nil => exact ⟨Journey.refl _, fun _ hd => nomatch hd⟩
  | quiet hp _ ih => exact hcons (hstorage hp.quiet.storage) ih
  | advance _ he _ ih => exact hcons (hstorage (advanceSlot_ok he).2.2.storage) ih
  | fire he _ ih => exact hcons (hfire he) ih

end Pass

/-! ## The parts of a pass -/

/-- By induction on the callbacks: each that is ready fires in its turn. -/
theorem runCallbacks_ok (reported : Nat → Option UInt64) {ready : List (Nat × Link)}
    {m m' : Machine κ} {u : Unit}
    (he : (Device.runCallbacks (ready.map (·.2.callback))).exec m = (.ok u, m')) :
    ∃ es, Pass reported ⟨m, ready, none⟩ es ⟨m', [], none⟩ := by
  induction ready generalizing m with
  | nil =>
    cases he
    exact ⟨[], .nil _⟩
  | cons r ready ih =>
    obtain ⟨_, m₁, h₁, he⟩ := bind_ok he
    obtain ⟨es, hes⟩ := ih he
    exact ⟨_, .fire h₁ hes⟩

/-- By induction on the slots to visit: the records are the same for each of them. -/
theorem advanceFromRecords_ok {is : List Nat} {m m' : Machine κ} {cs : List Callback}
    (ready : List (Nat × Link)) (he : (Device.advanceFromRecords is).exec m = (.ok cs, m')) :
    ∃ es taken, Pass m.record? ⟨m, ready, none⟩ es ⟨m', ready ++ taken, none⟩ ∧
      taken.map (·.2.callback) = cs ∧
      ∀ i ∈ is, ∃ n, m.record? i = some n ∧ .advance i n ∈ es.map (·.2) := by
  induction is generalizing m cs ready with
  | nil =>
    cases he
    exact ⟨[], [], by rw [List.append_nil]; exact .nil _, rfl, fun i hi => nomatch hi⟩
  | cons i is ih =>
    obtain ⟨n, m₁, h₁, hrest⟩ := bind_ok he
    obtain ⟨hm₁, hn⟩ := eventSeq_ok h₁
    obtain ⟨s, m₂, h₂, hrest⟩ := bind_ok hrest
    have hm₂ := (keeps_slot (R := Eq) _).ok h₂
    rw [← hm₂, hm₁] at hrest
    obtain ⟨_, m₃, h₃, hrest⟩ := bind_ok hrest
    obtain ⟨cs₁, m₄, h₄, hrest⟩ := bind_ok hrest
    obtain ⟨cs₂, m₅, h₅, hrest⟩ := bind_ok hrest
    cases hrest
    have hsame : SameRecords m m₄ :=
      Journey.trans ((sameRecords_trace _ _).ok h₃) ((sameRecords_advanceSlot _ _).ok h₄)
    have hmoves := (advanceSlot_ok h₄).2
    let taken₁ := (Action.advance i n).takes m₃.progress
    have htaken : taken₁.map (·.2.callback) = cs₁ := by
      show (((m₃.progress.slots.entry i).advanced n).map (i, ·)).map (·.2.callback) = _
      rw [hmoves.1, List.map_map, EventSlot.advanced, EventSlot.advance, Int.toNat_natCast]
      split <;> rfl
    obtain ⟨es, taken, hpass, hcs, hall⟩ := ih (ready ++ taken₁) h₅
    rw [hsame.record?, List.append_assoc] at hpass
    rw [hsame.record?] at hall
    refine ⟨_, taken₁ ++ taken, .quiet (fun _ _ => (keeps_trace _ _).ok h₃) (.advance hn h₄ hpass), ?_, ?_⟩
    · rw [List.map_append, htaken, hcs]
    · intro j hj
      rcases List.mem_cons.mp hj with rfl | hj
      · exact ⟨n, hn, List.mem_cons_of_mem _ List.mem_cons_self⟩
      · obtain ⟨k, hk, hmem⟩ := hall j hj
        exact ⟨k, hk, List.mem_cons_of_mem _ (List.mem_cons_of_mem _ hmem)⟩

/-- One pass of a command stream device: every bound slot that has a record moves on to the number
there. -/
theorem handleStreamEvents_ok {m m' : Machine κ} {fine : Bool}
    (he : Device.handleStreamEvents.exec m = (.ok fine, m')) :
    ∃ es, Pass m.reported? ⟨m, [], none⟩ es ⟨m', [], none⟩ ∧
      ∀ i < m.progress.bound, ∀ n, m.reported? i = some n → .advance i n ∈ es.map (·.2) := by
  unfold Device.handleStreamEvents at he
  obtain ⟨fine', m₁, h₁, he⟩ := bind_ok he
  have hp : Plainly m m₁ := fun _ _ => keeps_readNotification.ok h₁
  have hreported : m.reported? = m₁.record? := by
    funext i
    rw [Machine.reported?, h₁]
  rw [hreported]
  obtain ⟨d, m₂, h₂, he⟩ := bind_ok he
  cases h₂
  split at he
  · rename_i hnone
    cases he
    refine ⟨_, .quiet hp (.nil _), fun i _ n hn => ?_⟩
    rw [Option.isNone_iff_eq_none] at hnone
    rw [Machine.record?, Device.eventWord?, hnone] at hn
    cases hn
  · obtain ⟨cs, m₃, h₃, he⟩ := bind_ok he
    obtain ⟨_, m₄, h₄, he⟩ := bind_ok he
    cases he
    obtain ⟨es, taken, hpass, rfl, hall⟩ := advanceFromRecords_ok [] h₃
    obtain ⟨es', hpass'⟩ := runCallbacks_ok m₁.record? h₄
    refine ⟨_, .quiet hp (hpass.append hpass'), fun i hi n hn => ?_⟩
    have hi : i < m₁.device.bound := by
      have : m₁.progress.bound = m.progress.bound := by rw [hp.quiet.progress]
      exact Nat.lt_of_lt_of_eq hi this.symm
    obtain ⟨k, hk, hmem⟩ := hall i (List.mem_range.mpr hi)
    obtain rfl : k = n := Option.some.inj (hk.symm.trans hn)
    rw [List.map_cons, List.map_append]
    exact List.mem_cons_of_mem _ (List.mem_append_left _ hmem)

theorem handleEvents_ok {m m' : Machine κ} {fine : Bool} (hcsf : m.progress.generation = .csf)
    (he : Device.handleEvents.exec m = (.ok fine, m')) :
    ∃ es, Pass m.reported? ⟨m, [], none⟩ es ⟨m', [], none⟩ ∧
      ∀ i < m.progress.bound, ∀ n, m.reported? i = some n → .advance i n ∈ es.map (·.2) := by
  unfold Device.handleEvents at he
  obtain ⟨d, m₁, h₁, he⟩ := bind_ok he
  cases h₁
  have hcsf : m.device.generation = .csf := hcsf
  rw [hcsf] at he
  exact handleStreamEvents_ok he

/-! ## The generation of the device -/

theorem Step.generation {c c' : Config κ} {a : Action} (h : Step c a c') :
    c'.progress.generation = c.progress.generation := by
  by_cases ha : a = .attach
  · subst ha
    cases h with
    | attach he =>
      show (Machine.progress _).generation = _
      rw [(attachStream_join he).progress]
      rfl
  · rw [h.progress fun e => absurd e ha]
    cases a <;> rfl

/-- A run does not change what kind of device it is about. -/
theorem Run.generation {c c' : Config κ} {es : List (Config κ × Action)} (h : Run c es c') :
    c'.progress.generation = c.progress.generation := by
  induction h with
  | nil => rfl
  | cons hs _ ih => exact ih.trans hs.generation

end Kernel

end Mali
