import Mali.Proofs.Runs

/-!
# The history of event slots

Along a run every slot goes only forward, except that terminating its stream starts its progress over,
and every link that was ever put on it has fired, is about to, or still waits, each once and in order.

Both are read off one description of a step, `Step.slot`: what the action does to a single slot.

* `Action.act`, `Step.slot`: what a step does to one slot.
* `Action.registers`: the links that an action puts on a slot.
* `Step.links`, `Step.ready`: no link is lost or doubled between the slot, the callbacks that are ready
  and those that ran.
* `Run.slots_sound`: the slots along a run.
-/

namespace Mali

/-- The links of one slot. -/
def linksOn (i : Nat) (ls : List (Nat × Link)) : List Link := (ls.filter (·.1 = i)).map (·.2)

@[simp] theorem linksOn_nil (i : Nat) : linksOn i [] = [] := rfl

@[simp] theorem linksOn_append (i : Nat) (ls ls' : List (Nat × Link)) :
    linksOn i (ls ++ ls') = linksOn i ls ++ linksOn i ls' := by simp [linksOn]

theorem linksOn_map (i j : Nat) (ls : List Link) :
    linksOn i (ls.map (j, ·)) = if i = j then ls else [] := by
  unfold linksOn
  rw [List.filter_map, List.map_map]
  split
  · subst_vars
    rw [List.filter_eq_self.mpr fun _ _ => by simp]
    simp [Function.comp_def]
  · rename_i hne
    rw [List.filter_eq_nil_iff.mpr fun _ _ => by simpa using Ne.symm hne]
    rfl

/-- What an action does to one slot. -/
def Action.act (bound i : Nat) (s : EventSlot) : Action → EventSlot
  | .release x => if i < bound then s.await (.release x) else s
  | .await id => if i < bound then s.await (.report id) else s
  | .attach => if i = bound then { s with last := 1, lastSubmit := 1 } else s
  | .submit j n => if i = j then s.submit n else s
  | .advance j n => if i = j then (s.advance n).2 else s
  | .update j n => if i = j then (s.take n).2 else s
  | .terminate j => if i = j then { (s.take Device.endOfTime).2 with last := 0 } else s
  | .fire _ _ | .collect _ _ | .other => s

/-- The callback that an action makes wait on the busy slots. -/
def Action.callback? : Action → Option Callback
  | .release x => some (.release x)
  | .await id => some (.report id)
  | _ => none

/-- The links that an action puts on a slot: one for the last submission, if the slot is busy. -/
def Action.registers (p : Progress) (i : Nat) (a : Action) : List Link :=
  match a.callback? with
  | some c =>
    if i < p.bound ∧ (p.slots.entry i).isIdle = false then
      [⟨(p.slots.entry i).lastSubmit - 1, c⟩] else []
  | none => []

/-- The callback that an action runs, with its slot. -/
def Action.fires : Action → List (Nat × Link)
  | .fire i l => [(i, l)]
  | _ => []

theorem Action.count_fires {act : Action} {c : Callback} (h : ∀ i n, act ≠ .fire i ⟨n, c⟩) :
    (act.fires.map (·.2.callback)).count c = 0 := by
  refine List.count_eq_zero.mpr fun hmem => ?_
  obtain ⟨⟨i, l⟩, hl, rfl⟩ := List.mem_map.mp hmem
  cases act with
  | fire j k =>
    obtain ⟨rfl, rfl⟩ := Prod.mk.inj (List.mem_singleton.mp hl)
    exact h i l.seqnum rfl
  | _ => cases hl

variable {κ : Type}

/-- The links that were put on a slot in the course of a run. -/
def registered (i : Nat) (es : List (Config κ × Action)) : List Link :=
  es.flatMap fun e => e.2.registers e.1.progress i

/-- The links of a slot that fired in the course of a run. -/
def fired (i : Nat) (es : List (Config κ × Action)) : List Link :=
  linksOn i (es.flatMap fun e => e.2.fires)

@[simp] theorem registered_nil (i : Nat) : registered i ([] : List (Config κ × Action)) = [] := rfl

@[simp] theorem registered_cons (i : Nat) (e : Config κ × Action) (es : List (Config κ × Action)) :
    registered i (e :: es) = e.2.registers e.1.progress i ++ registered i es := rfl

@[simp] theorem fired_nil (i : Nat) : fired i ([] : List (Config κ × Action)) = [] := rfl

@[simp] theorem fired_cons (i : Nat) (e : Config κ × Action) (es : List (Config κ × Action)) :
    fired i (e :: es) = linksOn i e.2.fires ++ fired i es := by
  rw [fired, List.flatMap_cons, linksOn_append, fired]

section Kernel

variable [Kernel κ] {c c' : Config κ} {a : Action}

/-! ## One step -/

/-- What a step does to one slot. -/
theorem Step.slot (h : Step c a c') (hs : c.progress.Sound)
    (hmax : c'.progress.streams.length ≤ slotCount) (i : Nat) :
    c'.slot i = a.act c.progress.bound i (c.slot i) := by
  have hlt := h.bound_lt hs hmax
  have hput {j : Nat} (hj : j < slotCount) (f : EventSlot → EventSlot) :
      (c.progress.put j (f (c.slot j))).slots.entry i = if i = j then f (c.slot i) else c.slot i := by
    rw [Progress.put, SlotTable.entry_put _ hj]
    rcases eq_or_ne i j with rfl | hne
    · rw [if_pos rfl, if_pos rfl]
    · rw [if_neg hne, if_neg hne.symm]
      rfl
  have hstream {j : Nat} (hj : j ∈ c.progress.streams) : j < slotCount := by
    rw [hs.streams, List.mem_range] at hj
    exact Nat.lt_of_lt_of_le hj hs.slots.bound_le
  rw [Config.slot, h.progress hlt]
  cases h with
  | release => exact SlotTable.entry_awaitAll ..
  | await => exact SlotTable.entry_awaitAll ..
  | attach => exact hput (hlt rfl) fun s => { s with last := 1, lastSubmit := 1 }
  | submit hi => exact hput (hstream hi) fun s => s.submit _
  | advance he => exact hput (advanceSlot_ok he).1 fun s => (s.advance _).2
  | update he => exact hput (takeCallbacks_ok he).1 fun s => (s.take _).2
  | terminate hi =>
    exact hput (hstream hi) fun s => { (s.take Device.endOfTime).2 with last := 0 }
  | _ => rfl

/-- A slot that is attached was never used, so even there nothing goes back. -/
theorem Step.lastSubmit_le (h : Step c a c') (hs : c.progress.Sound)
    (hmax : c'.progress.streams.length ≤ slotCount) (i : Nat) :
    (c.slot i).lastSubmit ≤ (c'.slot i).lastSubmit := by
  have hite {p : Prop} [Decidable p] {s : EventSlot} (h : p → (c.slot i).lastSubmit ≤ s.lastSubmit) :
      (c.slot i).lastSubmit ≤ (if p then s else c.slot i).lastSubmit := by
    split
    · exact h ‹_›
    · exact UInt64.le_refl _
  rw [h.slot hs hmax]
  cases a with
  | release x => exact hite fun _ => UInt64.le_of_eq (EventSlot.await_lastSubmit ..).symm
  | await id => exact hite fun _ => UInt64.le_of_eq (EventSlot.await_lastSubmit ..).symm
  | attach =>
    refine hite fun hi => ?_
    rw [Config.slot, hs.slots.rest i (Nat.le_of_eq hi.symm)]
    exact UInt64.zero_le
  | submit j n => exact hite fun _ => EventSlot.le_submit_lastSubmit _ n
  | advance j n => exact hite fun _ => UInt64.le_of_eq (EventSlot.advance_lastSubmit ..).symm
  | update j n => exact hite fun _ => UInt64.le_refl _
  | terminate j => exact hite fun _ => UInt64.le_refl _
  | _ => exact UInt64.le_refl _

/-- A slot that is bound is submitted to only by a submission. -/
theorem Step.lastSubmit_eq (h : Step c a c') (hs : c.progress.Sound)
    (hmax : c'.progress.streams.length ≤ slotCount) {i : Nat} (hi : i < c.progress.bound)
    (ha : ∀ n, a ≠ .submit i n) : (c'.slot i).lastSubmit = (c.slot i).lastSubmit := by
  rw [h.slot hs hmax]
  have hite {p : Prop} [Decidable p] {s : EventSlot} (h : p → s.lastSubmit = (c.slot i).lastSubmit) :
      (if p then s else c.slot i).lastSubmit = (c.slot i).lastSubmit := by
    split
    · exact h ‹_›
    · rfl
  cases a with
  | attach => exact hite fun e => absurd e (Nat.ne_of_lt hi)
  | submit j n =>
    refine hite ?_
    rintro rfl
    exact absurd rfl (ha n)
  | release x => exact hite fun _ => EventSlot.await_lastSubmit ..
  | await id => exact hite fun _ => EventSlot.await_lastSubmit ..
  | advance j n => exact hite fun _ => EventSlot.advance_lastSubmit ..
  | update j n => exact hite fun _ => EventSlot.take_lastSubmit ..
  | terminate j => exact hite fun _ => rfl
  | _ => rfl

theorem Step.bound_le (h : Step c a c') (hs : c.progress.Sound)
    (hmax : c'.progress.streams.length ≤ slotCount) : c.progress.bound ≤ c'.progress.bound := by
  have := h.length_streams
  rw [hs.length_streams, (h.sound hs hmax).length_streams] at this
  omega

theorem Step.last_le (h : Step c a c') (hs : c.progress.Sound)
    (hmax : c'.progress.streams.length ≤ slotCount) {i : Nat} (ha : a ≠ .terminate i) :
    (c.slot i).last ≤ (c'.slot i).last := by
  have hite {p : Prop} [Decidable p] {s : EventSlot} (h : p → (c.slot i).last ≤ s.last) :
      (c.slot i).last ≤ (if p then s else c.slot i).last := by
    split
    · exact h ‹_›
    · exact UInt64.le_refl _
  have hbehind : (c.slot i).last ≤ (c.slot i).lastSubmit := by
    rcases Nat.lt_or_ge i c.progress.bound with hi | hi
    · exact (hs.slots.started i hi).behind
    · rw [Config.slot, hs.slots.rest i hi]
      exact UInt64.le_refl _
  rw [h.slot hs hmax]
  cases a with
  | release x => exact hite fun _ => UInt64.le_of_eq (EventSlot.await_last ..).symm
  | await id => exact hite fun _ => UInt64.le_of_eq (EventSlot.await_last ..).symm
  | attach =>
    refine hite fun hi => ?_
    rw [Config.slot, hs.slots.rest i (Nat.le_of_eq hi.symm)]
    exact UInt64.zero_le
  | submit j n => exact hite fun _ => UInt64.le_of_eq (EventSlot.submit_last ..).symm
  | advance j n => exact hite fun _ => EventSlot.le_advance_last _ n hbehind
  | update j n => exact hite fun _ => UInt64.le_refl _
  | terminate j =>
    refine hite fun hi => ?_
    rw [hi] at ha
    exact absurd rfl ha
  | _ => exact UInt64.le_refl _

/-- What is on a slot, and what is put there, is taken off it or stays. -/
theorem Step.links (h : Step c a c') (hs : c.progress.Sound)
    (hmax : c'.progress.streams.length ≤ slotCount) (i : Nat) :
    (c.slot i).links ++ a.registers c.progress i =
      linksOn i (a.takes c.progress) ++ (c'.slot i).links := by
  have hawait (cb : Callback) : (c.slot i).links ++ (if i < c.progress.bound ∧
      (c.slot i).isIdle = false then [⟨(c.slot i).lastSubmit - 1, cb⟩] else []) =
      (if i < c.progress.bound then (c.slot i).await cb else c.slot i).links := by
    by_cases hi : i < c.progress.bound
    · rw [if_pos hi, EventSlot.await_links]
      cases (c.slot i).isIdle <;> simp [hi]
    · simp [hi]
  rw [h.slot hs hmax]
  cases a with
  | release x => exact hawait _
  | await id => exact hawait _
  | attach =>
    unfold Action.act
    dsimp only
    split <;> exact List.append_nil _
  | submit j n =>
    unfold Action.act
    dsimp only
    split
    · rw [EventSlot.submit_links]
      exact List.append_nil _
    · exact List.append_nil _
  | advance j n =>
    refine (List.append_nil _).trans ?_
    unfold Action.act Action.takes
    dsimp only
    rw [linksOn_map]
    split
    · subst_vars
      exact EventSlot.links_advance _ n
    · rfl
  | update j n =>
    refine (List.append_nil _).trans ?_
    unfold Action.act Action.takes
    dsimp only
    rw [linksOn_map]
    split
    · subst_vars
      exact EventSlot.links_take _ n
    · rfl
  | terminate j =>
    refine (List.append_nil _).trans ?_
    unfold Action.act Action.takes
    dsimp only
    rw [linksOn_map]
    split
    · subst_vars
      exact EventSlot.links_take _ Device.endOfTime
    · rfl
  | fire j l => exact List.append_nil _
  | collect id b => exact List.append_nil _
  | other => exact List.append_nil _

/-- What is ready, and what is taken off a slot, runs or stays ready. -/
theorem Step.ready (h : Step c a c') :
    c.ready ++ a.takes c.progress = a.fires ++ c'.ready := by
  cases h <;> first | rfl | exact List.append_nil _

/-! ## Callbacks to come -/

omit [Kernel κ] in
/-- A stream leaves what waits on its slot alone, also if it shares the slot. -/
theorem Progress.waiting_join (p : Progress) (c : Callback) : p.join.slots.waiting c = p.slots.waiting c := by
  have hsame : ({ p.slots.entry p.next with last := 1, lastSubmit := 1 } : EventSlot).links =
    (p.slots.entry p.next).links := rfl
  exact SlotTable.waiting_put_same _ hsame c

/-- What a step does to the number of callbacks to come for a buffer: a release makes one wait on every
busy slot, and a callback that runs is no longer to come. -/
theorem Step.waiting (h : Step c a c') (y : Nat) :
    c'.waiting y + (a.fires.map (·.2.callback)).count (.release y) =
      c.waiting y + if a = .release y then c.progress.slots.busy c.progress.bound else 0 := by
  have hslots : c'.progress.slots.waiting (.release y) +
      ((a.takes c.progress).map (·.2.callback)).count (.release y) =
      c.progress.slots.waiting (.release y) +
        if a = .release y then c.progress.slots.busy c.progress.bound else 0 := by
    have hput {j : Nat} (hj : j < slotCount) (ls : List Link) {s : EventSlot}
        (h : (c.slot j).links = ls ++ s.links) :
        (c.progress.put j s).slots.waiting (.release y) +
          ((ls.map (j, ·)).map (·.2.callback)).count (.release y) =
        c.progress.slots.waiting (.release y) := by
      rw [List.map_map]
      exact SlotTable.waiting_put_of_links _ hj h _
    have hmove (hne : a ≠ .attach) : c'.progress = Action.move c.progress a :=
      h.progress fun e => absurd e hne
    cases h with
    | release =>
      rw [hmove nofun]
      refine (SlotTable.waiting_awaitAll ..).trans ?_
      simp
    | await =>
      rw [hmove nofun]
      refine (SlotTable.waiting_awaitAll ..).trans ?_
      simp
    | @attach m m' _ _ he =>
      have hjoin : (⟨m', [], none⟩ : Config κ).progress = m.progress.join := (attachStream_join he).progress
      rw [hjoin]
      exact m.progress.waiting_join _
    | submit =>
      rw [hmove nofun]
      exact SlotTable.waiting_put_same _ (EventSlot.submit_links _ _) _
    | advance he =>
      rw [hmove nofun]
      exact hput (advanceSlot_ok he).1 _ (EventSlot.links_advance _ _)
    | update he =>
      rw [hmove nofun]
      exact hput (takeCallbacks_ok he).1 _ (EventSlot.links_take _ _)
    | terminate _ he =>
      rw [hmove nofun]
      exact hput (clearSlot_ok he).1 _ (EventSlot.links_take _ _)
    | _ =>
      rw [hmove nofun]
      rfl
  have hready := congrArg (fun ls => (ls.map (·.2.callback)).count (.release y)) h.ready
  simp only [List.map_append, List.count_append] at hready
  unfold Config.waiting Machine.waiting
  unfold Config.progress at hslots hready ⊢
  omega

omit [Kernel κ] in
theorem Vacant.waiting {m : Machine κ} (h : Vacant m) (x : Nat) :
    (⟨m, [], none⟩ : Config κ).waiting x = 0 := by
  show m.progress.slots.waiting (.release x) + 0 = 0
  refine SlotTable.waiting_eq_zero.mpr fun i l hl => ?_
  rw [h.slots, SlotTable.entry_replicate] at hl
  exact absurd hl List.not_mem_nil

omit [Kernel κ] in
theorem Fresh.waiting {m : Machine κ} (h : Fresh m) (x : Nat) :
    (⟨m, [], none⟩ : Config κ).waiting x = 0 := h.vacant.waiting x

/-! ## Runs -/

namespace Run

variable {es : List (Config κ × Action)}

/-- What holds between the ends of every step, and can be put together, holds between the ends of a
run. -/
theorem relate {R : Config κ → Config κ → Prop} (hrefl : ∀ c, R c c)
    (htrans : ∀ c₁ c₂ c₃, R c₁ c₂ → R c₂ c₃ → R c₁ c₃) (h : Run c es c') (hs : c.progress.Sound)
    (hmax : c'.progress.streams.length ≤ slotCount)
    (hstep : ∀ c₁ a c₂, (c₁, a) ∈ es → Step c₁ a c₂ → c₁.progress.Sound →
      c₂.progress.streams.length ≤ slotCount → R c₁ c₂) : R c c' := by
  induction h with
  | nil => exact hrefl _
  | cons hstep' hr ih =>
    have hmax' := Nat.le_trans hr.length_streams_le hmax
    exact htrans _ _ _ (hstep _ _ _ List.mem_cons_self hstep' hs hmax')
      (ih (hstep'.sound hs hmax') hmax fun c₁ a c₂ he => hstep c₁ a c₂ (List.mem_cons_of_mem _ he))

theorem lastSubmit_le (h : Run c es c') (hs : c.progress.Sound)
    (hmax : c'.progress.streams.length ≤ slotCount) (i : Nat) :
    (c.slot i).lastSubmit ≤ (c'.slot i).lastSubmit :=
  h.relate (R := fun c c' => (c.slot i).lastSubmit ≤ (c'.slot i).lastSubmit)
    (fun _ => UInt64.le_refl _) (fun _ _ _ => UInt64.le_trans) hs hmax
    fun _ _ _ _ hstep hs hmax => hstep.lastSubmit_le hs hmax i

theorem bound_le (h : Run c es c') (hs : c.progress.Sound)
    (hmax : c'.progress.streams.length ≤ slotCount) : c.progress.bound ≤ c'.progress.bound := by
  have := h.length_streams_le
  rwa [hs.length_streams, (h.sound hs hmax).length_streams] at this

theorem lastSubmit_eq (h : Run c es c') (hs : c.progress.Sound)
    (hmax : c'.progress.streams.length ≤ slotCount) {i : Nat} (hi : i < c.progress.bound)
    (hacts : ∀ n, .submit i n ∉ es.map (·.2)) : (c'.slot i).lastSubmit = (c.slot i).lastSubmit := by
  induction h with
  | nil => rfl
  | cons hstep hr ih =>
    have hmax' := Nat.le_trans hr.length_streams_le hmax
    rw [ih (hstep.sound hs hmax') hmax (Nat.lt_of_lt_of_le hi (hstep.bound_le hs hmax'))
      fun n hn => hacts n (List.mem_cons_of_mem _ hn)]
    refine hstep.lastSubmit_eq hs hmax' hi ?_
    rintro n rfl
    exact hacts n List.mem_cons_self

theorem last_le (h : Run c es c') (hs : c.progress.Sound)
    (hmax : c'.progress.streams.length ≤ slotCount) {i : Nat} (hi : .terminate i ∉ es.map (·.2)) :
    (c.slot i).last ≤ (c'.slot i).last := by
  refine h.relate (R := fun c c' => (c.slot i).last ≤ (c'.slot i).last)
    (fun _ => UInt64.le_refl _) (fun _ _ _ => UInt64.le_trans) hs hmax
    fun c₁ a c₂ he hstep hs hmax => hstep.last_le hs hmax ?_
  rintro rfl
  exact hi (List.mem_map_of_mem he)

/-- A step makes at most one callback for each slot wait, so it takes a long run to make many. -/
theorem waiting_le (h : Run c es c') (hs : c.progress.Sound)
    (hmax : c'.progress.streams.length ≤ slotCount) (x : Nat) :
    c'.waiting x ≤ c.waiting x + slotCount * es.length := by
  induction h with
  | nil => exact Nat.le_refl _
  | @cons c c₁ c' a es hstep hr ih =>
    have hmax' := Nat.le_trans hr.length_streams_le hmax
    have hone := hstep.waiting x
    have hbusy := Nat.le_trans (c.progress.slots.busy_le c.progress.bound) hs.slots.bound_le
    have hrest := ih (hstep.sound hs hmax') hmax
    rw [List.length_cons, Nat.mul_succ]
    split at hone <;> omega

/-- By induction on the run: the first step moves links from the slot to the callbacks that are ready,
or runs one of these, and the rest of the run accounts for what it leaves. -/
theorem registered_eq (h : Run c es c') (hs : c.progress.Sound)
    (hmax : c'.progress.streams.length ≤ slotCount) (i : Nat) :
    linksOn i c.ready ++ (c.slot i).links ++ registered i es =
      fired i es ++ linksOn i c'.ready ++ (c'.slot i).links := by
  induction h with
  | nil => simp
  | @cons c c₁ c' a es hstep hr ih =>
    have hmax' := Nat.le_trans hr.length_streams_le hmax
    have hlinks := hstep.links hs hmax' i
    have hready := congrArg (linksOn i) hstep.ready
    rw [linksOn_append, linksOn_append] at hready
    rw [registered_cons, fired_cons]
    calc linksOn i c.ready ++ (c.slot i).links ++ (a.registers c.progress i ++ registered i es)
        = linksOn i c.ready ++ ((c.slot i).links ++ a.registers c.progress i) ++ registered i es := by
          simp only [List.append_assoc]
      _ = linksOn i c.ready ++ linksOn i (a.takes c.progress) ++ (c₁.slot i).links ++
            registered i es := by
          rw [hlinks]
          simp only [List.append_assoc]
      _ = linksOn i a.fires ++ (linksOn i c₁.ready ++ (c₁.slot i).links ++ registered i es) := by
          rw [hready]
          simp only [List.append_assoc]
      _ = linksOn i a.fires ++ fired i es ++ linksOn i c'.ready ++ (c'.slot i).links := by
          rw [ih (hstep.sound hs hmax') hmax]
          simp only [List.append_assoc]

/-- Along every run from a fresh device on which at most 256 streams are attached, through `c₁` to
`c₂`: the bound slots are sound, submissions never go back and progress does only where a stream is
terminated, and the links that were put on a slot are those that fired, then those about to, then those
that wait, in the order in which they were put there. -/
theorem slots_sound {m : Machine κ} {c₁ c₂ : Config κ} {es₁ es₂ : List (Config κ × Action)}
    (hfresh : Fresh m) (h₁ : Run ⟨m, [], none⟩ es₁ c₁) (h₂ : Run c₁ es₂ c₂)
    (hmax : c₂.progress.streams.length ≤ slotCount) :
    (∀ i < c₂.progress.bound, 1 ≤ (c₂.slot i).lastSubmit ∧
      (c₂.slot i).last ≤ (c₂.slot i).lastSubmit ∧
      ((c₂.slot i).links.Pairwise fun l l' => l.seqnum ≤ l'.seqnum) ∧
      (∀ l ∈ (c₂.slot i).links, (c₂.slot i).last ≤ l.seqnum ∧ l.seqnum < (c₂.slot i).lastSubmit) ∧
      ((c₂.slot i).last = (c₂.slot i).lastSubmit → (c₂.slot i).links = [])) ∧
    (∀ i, (c₁.slot i).lastSubmit ≤ (c₂.slot i).lastSubmit) ∧
    (∀ i, .terminate i ∉ es₂.map (·.2) → (c₁.slot i).last ≤ (c₂.slot i).last) ∧
    ∀ i, registered i (es₁ ++ es₂) =
      fired i (es₁ ++ es₂) ++ linksOn i c₂.ready ++ (c₂.slot i).links := by
  have hs₁ := h₁.sound hfresh.sound (Nat.le_trans h₂.length_streams_le hmax)
  have hs₂ := h₂.sound hs₁ hmax
  refine ⟨fun i hi => ?_, h₂.lastSubmit_le hs₁ hmax, fun i hi => h₂.last_le hs₁ hmax hi, fun i => ?_⟩
  · have h := hs₂.slots.started i hi
    exact ⟨h.started, h.behind, h.ordered, h.pending, fun hidle =>
      h.links_eq_nil (beq_iff_eq.mpr hidle)⟩
  · have h := (h₁.append h₂).registered_eq hfresh.sound hmax i
    have hslot : (⟨m, [], none⟩ : Config κ).slot i = {} := by
      show m.progress.slots.entry i = {}
      rw [hfresh.slots, SlotTable.entry_replicate]
    rwa [hslot, linksOn_nil, List.append_nil, List.nil_append] at h

end Run

end Kernel

set_option maxRecDepth 20000 in
/-- In the short run one link was put on the slot, and it fired. -/
theorem slots_sound_sample :
    Fresh Sample.start ∧ (⟨Sample.freed, [], none⟩ : Config Bench).progress.streams.length ≤ slotCount ∧
    (⟨Sample.freed, [], none⟩ : Config Bench).slot 0 = { last := 6, lastSubmit := 6 } ∧
    fired 0 (Sample.submission ++ Sample.draining) = [Sample.link] ∧
    registered 0 (Sample.submission ++ Sample.draining) = [Sample.link] := by
  have hmax : (⟨Sample.freed, [], none⟩ : Config Bench).progress.streams.length ≤ slotCount := by
    decide
  have hslot : (⟨Sample.freed, [], none⟩ : Config Bench).slot 0 = { last := 6, lastSubmit := 6 } := rfl
  have hfired : fired 0 (Sample.submission ++ Sample.draining) = [Sample.link] := rfl
  obtain ⟨-, -, -, hlinks⟩ := Run.slots_sound Sample.fresh_start Sample.run_busy Sample.run_freed hmax
  refine ⟨Sample.fresh_start, hmax, hslot, hfired, ?_⟩
  rw [hlinks 0, hslot, hfired, linksOn_nil, List.append_nil, List.append_nil]

end Mali
