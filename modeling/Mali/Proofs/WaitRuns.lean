import Mali.Proofs.Waits

/-!
# What a wait that comes true says

A run may also wait for buffers.  While a buffer is in use, a use that was recorded on it is covered and
pending until a wait comes true that it matters for, and such a wait has found an entry complete that
stands for the use.

An entry stands for work of several batches.  If the last of them was skipped its number is past the last
submission, and then the entry counts as complete although the earlier work may still run.  This is the
only way in which a wait comes true too early.

* `WaitRun`: steps and waits one after the other.
* `Config.Owes`: a use is covered and pending.
* `WaitRun.owes_or_answered`: it stays so until a wait answers for it.
* `Config.Overtaken`, `WaitRun.lt_last_or_overtaken`: what is complete after a wait.
-/

namespace Mali

open Op

variable {κ : Type}

/-- A step of a run, or a wait for a buffer and what it said. -/
inductive WaitEvent where
  | step (act : Action)
  | wait (buffer : Nat) (readers answer : Bool)
  deriving DecidableEq

/-- A use is covered by what is recorded on a buffer, and pending on it. -/
structure Config.Owes (c : Config κ) (x : Nat) (u : Usage) : Prop where
  covered : Usage.Covers (c.machine.usage x) u
  pending : Access.Within (Access.ofWrite u.write) (c.machine.access x)

/-- An entry that stands for a use counts as complete. -/
def Config.Answered (c : Config κ) (x : Nat) (u : Usage) : Prop :=
  ∃ e ∈ c.machine.usage x, u.Within e ∧ Usage.isFinished c.progress.slots e = true

/-- An entry for a slot stands for a number, and is past the last submission there. -/
def Config.Overtaken (c : Config κ) (x q : Nat) (s : UInt64) : Prop :=
  ∃ e ∈ c.machine.usage x, e.queue = UInt32.ofNat q ∧ s ≤ e.seqnum ∧ (c.slot q).lastSubmit < e.seqnum

/-- What a wait is about is no reason for it to give up at once. -/
theorem Access.not_isQuiet {b : Buffer} {readers writes : Bool} (hmatters : readers = true ∨ writes = true)
    (h : Within (ofWrite writes) b.access) : ¬b.isQuiet readers = true := by
  have hread : Within read b.access := by
    refine Within.trans ?_ h
    cases writes
    · exact .refl _
    · decide
  intro hquiet
  rw [Buffer.isQuiet, Bool.and_eq_true, Bool.or_eq_true, beq_iff_eq] at hquiet
  rcases hquiet.2 with hzero | hno
  · rw [hzero] at hread
    exact absurd hread (by decide)
  · rw [Bool.and_eq_true, Bool.not_eq_true', beq_iff_eq] at hno
    rcases hmatters with hreaders | rfl
    · rw [hreaders] at hno
      cases hno.1
    · have hwrite : Within write b.access := Within.trans (by decide) h
      rw [Within, UInt32.and_comm, hno.2] at hwrite
      cases hwrite

/-- A wait that comes true has seen every use complete that it is about. -/
theorem Usage.isFinished_of_finished {slots : SlotTable} {bound : Nat} {us : List Usage} {readers : Bool}
    (h : finished slots bound us readers = true) (hbelow : Below bound us) {e : Usage} (he : e ∈ us)
    (hrelevant : relevant readers e = true) : isFinished slots e = true := by
  rw [finished, onBound_eq fun v hv => hbelow v (List.mem_filter.mp hv).1, List.all_eq_true] at h
  exact h e (List.mem_filter.mpr ⟨he, hrelevant⟩)

section Kernel

variable [Kernel κ]

/-- Steps and waits one after the other, with the configuration before each.  A quiet step leaves what is
pending alone. -/
inductive WaitRun : Config κ → List (Config κ × WaitEvent) → Config κ → Prop
  | nil (c : Config κ) : WaitRun c [] c
  | step {c c₁ c' : Config κ} {act : Action} {es : List (Config κ × WaitEvent)} (hs : Step c act c₁)
    (hquiet : act = .other → Quiet c.machine c₁.machine → ∀ x, Retains x c.machine c₁.machine)
    (hr : WaitRun c₁ es c') : WaitRun c ((c, .step act) :: es) c'
  | wait {m m₁ : Machine κ} {c' : Config κ} {x : Nat} {timeout : Int} {readers answer : Bool}
    {es : List (Config κ × WaitEvent)} (hcsf : m.progress.generation = .csf)
    (he : (Buffer.wait x timeout readers).exec m = (.ok answer, m₁))
    (hr : WaitRun ⟨m₁, [], none⟩ es c') :
    WaitRun ⟨m, [], none⟩ ((⟨m, [], none⟩, .wait x readers answer) :: es) c'

/-! ## A wait and a use -/

/-- A wait leaves a use covered and pending, unless it comes true and is about it: then it has seen an entry
complete that stands for the use. -/
theorem wait_owes {x y : Nat} {u : Usage} {timeout : Int} {readers answer : Bool} {m m' : Machine κ}
    (hcsf : m.progress.generation = .csf)
    (he : (Buffer.wait y timeout readers).exec m = (.ok answer, m'))
    (hx : (⟨m, [], none⟩ : Config κ).InUse x) (ho : (⟨m, [], none⟩ : Config κ).Owes x u)
    (hbelow : Usage.Below m'.progress.bound (m'.usage x)) :
    ((⟨m', [], none⟩ : Config κ).Owes x u ∧
        ¬(y = x ∧ answer = true ∧ (readers = true ∨ u.write = true))) ∨
      (y = x ∧ answer = true ∧ (⟨m', [], none⟩ : Config κ).Answered x u) := by
  have husage := wait_usage hcsf he hx
  have hcovered : Usage.Covers (m'.usage x) u := by
    rw [husage]
    exact ho.covered
  rcases wait_ok hcsf he with ⟨hlinger, hquiet⟩ | ⟨rfl, m₁, hlinger, hsettles⟩
  · have hpending := ho.pending.trans ((hlinger hcsf).steady x hx).retains
    refine .inl ⟨⟨hcovered, hpending⟩, ?_⟩
    rintro ⟨rfl, hanswer, hmatters⟩
    obtain ⟨b, hb, hb'⟩ := hquiet hanswer
    have hpending : Access.Within (Access.ofWrite u.write) (m.access y) := ho.pending
    rw [Machine.access_of_buffer hb] at hpending
    exact Access.not_isQuiet hmatters hpending hb'
  · have hpending : Access.Within (Access.ofWrite u.write) (m₁.access x) :=
      ho.pending.trans ((hlinger hcsf).steady x hx).retains
    rcases eq_or_ne x y with rfl | hxy
    · obtain ⟨e, hmem, hin⟩ := id hcovered
      by_cases hrelevant : Usage.relevant readers e = true
      · -- the entry is one of those that the wait has looked at
        refine .inr ⟨rfl, rfl, e, hmem, hin, ?_⟩
        have hfinished := hsettles.finished
        have hslots : m'.progress.slots = m₁.device.slots := congrArg Progress.slots hsettles.progress
        have hbound : m'.progress.bound = m₁.device.bound := congrArg Progress.bound hsettles.progress
        have husage₁ : m'.usage x = m₁.usage x := by
          rw [Machine.usage, hsettles.storage, Machine.usage]
        rw [← hslots, ← hbound, ← husage₁] at hfinished
        exact Usage.isFinished_of_finished hfinished hbelow hmem hrelevant
      · -- the wait is about writes only, and the use only reads
        rw [Usage.relevant, Bool.or_eq_true, not_or] at hrelevant
        have hreaders : readers = false := Bool.eq_false_iff.mpr hrelevant.1
        have hwrite : u.write = false := Bool.eq_false_iff.mpr fun hu => hrelevant.2 (hin.write hu)
        refine .inl ⟨⟨hcovered, ?_⟩, ?_⟩
        · show Access.Within _ (m'.access x)
          rw [hsettles.access, hreaders, hwrite, if_neg Bool.false_ne_true]
          rw [hwrite] at hpending
          exact hpending.and (.refl _)
        · rintro ⟨-, -, hmatters⟩
          rw [hreaders, hwrite] at hmatters
          exact hmatters.elim Bool.false_ne_true Bool.false_ne_true
    · refine .inl ⟨⟨hcovered, hpending.trans (hsettles.others x hxy)⟩, ?_⟩
      rintro ⟨rfl, -⟩
      exact hxy rfl

/-- A run without quiet steps is one without waits. -/
theorem Run.waits {c c' : Config κ} {es : List (Config κ × Action)} (h : Run c es c')
    (hother : .other ∉ es.map (·.2)) : WaitRun c (es.map fun e => (e.1, .step e.2)) c' := by
  induction h with
  | nil => exact .nil _
  | @cons _ _ _ a _ hs _ ih =>
    rw [List.map_cons, List.mem_cons, not_or] at hother
    exact .step hs (fun ha => absurd ha.symm hother.1) (ih hother.2)

namespace WaitRun

variable {c c₁ c' : Config κ} {es es' : List (Config κ × WaitEvent)} {x : Nat} {u : Usage}

/-- With every wait taken apart, it is a run; only what no caller asks for is added. -/
theorem run (h : WaitRun c es c') : ∃ es', Run c es' c' ∧
    (∀ a ∈ es'.map (·.2), a.Passive ∨ .step a ∈ es.map (·.2)) ∧
      ∀ a, .step a ∈ es.map (·.2) → a ∈ es'.map (·.2) := by
  induction h with
  | nil c =>
    exact ⟨[], .nil c, fun _ ha => absurd ha List.not_mem_nil, fun _ ha => absurd ha List.not_mem_nil⟩
  | step hs _ _ ih =>
    obtain ⟨es', hrun, hacts, hall⟩ := ih
    refine ⟨_, .cons hs hrun, List.forall_mem_cons.mpr ⟨.inr List.mem_cons_self, fun a ha => ?_⟩,
      fun a ha => ?_⟩
    · exact (hacts a ha).imp_right (List.mem_cons_of_mem _)
    · rcases List.mem_cons.mp ha with ha | ha
      · cases ha
        exact List.mem_cons_self
      · exact List.mem_cons_of_mem _ (hall a ha)
  | wait hcsf he _ ih =>
    obtain ⟨es', hrun, hacts, hall⟩ := ih
    obtain ⟨ws, hwait, hpassive⟩ := wait_run hcsf he
    refine ⟨_, hwait.append hrun, fun a ha => ?_, fun a ha => ?_⟩
    · rw [List.map_append, List.mem_append] at ha
      rcases ha with ha | ha
      · exact .inl (hpassive a ha)
      · exact (hacts a ha).imp_right (List.mem_cons_of_mem _)
    · rw [List.map_append, List.mem_append]
      rcases List.mem_cons.mp ha with ha | ha
      · cases ha
      · exact .inr (hall a ha)

theorem append (h : WaitRun c es c₁) (h' : WaitRun c₁ es' c') : WaitRun c (es ++ es') c' := by
  induction h with
  | nil => exact h'
  | step hs hquiet _ ih => exact .step hs hquiet (ih h')
  | wait hcsf he _ ih => exact .wait hcsf he (ih h')

theorem head_mem (h : WaitRun c es c') : c ∈ es.map (·.1) ++ [c'] := by
  cases h with
  | nil => exact List.mem_singleton_self _
  | step => exact List.mem_cons_self
  | wait => exact List.mem_cons_self

theorem length_streams_le (h : WaitRun c es c') :
    c.progress.streams.length ≤ c'.progress.streams.length := by
  obtain ⟨_, hrun, -⟩ := h.run
  exact hrun.length_streams_le

theorem last_le (h : WaitRun c es c') (hs : c.progress.Sound)
    (hmax : c'.progress.streams.length ≤ slotCount) {i : Nat}
    (hi : .step (.terminate i) ∉ es.map (·.2)) : (c.slot i).last ≤ (c'.slot i).last := by
  obtain ⟨_, hrun, hacts, -⟩ := h.run
  exact hrun.last_le hs hmax fun hmem => (hacts _ hmem).elim id hi

/-- A buffer in use is not held, so it does not come to be. -/
theorem held_ne (h : WaitRun c es c') (hinuse : ∀ d ∈ es.map (·.1) ++ [c'], d.InUse x)
    (hheld : c.held ≠ some x) : c'.held ≠ some x := by
  induction h with
  | nil => exact hheld
  | @step c c₁ c' act es hstep hquiet hr ih =>
    obtain ⟨a, ha, -, hcached, -⟩ := hinuse c List.mem_cons_self
    exact ih (fun d hd => hinuse d (List.mem_cons_of_mem _ hd)) (hstep.held_ne ha hcached hheld)
  | wait hcsf he hr ih => exact ih (fun d hd => hinuse d (List.mem_cons_of_mem _ hd)) nofun

/-- By induction on the run: a step keeps the use covered and pending, and so does a wait, up to the first
that answers for it. -/
theorem owes_or_answered (h : WaitRun c es c') (hs : c.progress.Sound)
    (hmax : c'.progress.streams.length ≤ slotCount) (hrecorded : c.Recorded)
    (hinuse : ∀ d ∈ es.map (·.1) ++ [c'], d.InUse x) (hheld : c.held ≠ some x) (ho : c.Owes x u) :
    c'.Owes x u ∨ ∃ es₁ m₁ timeout readers m₂ es₂,
      es = es₁ ++ (⟨m₁, [], none⟩, .wait x readers true) :: es₂ ∧ WaitRun c es₁ ⟨m₁, [], none⟩ ∧
      m₁.progress.generation = .csf ∧ (Buffer.wait x timeout readers).exec m₁ = (.ok true, m₂) ∧
      WaitRun ⟨m₂, [], none⟩ es₂ c' ∧ (⟨m₂, [], none⟩ : Config κ).Answered x u := by
  induction h with
  | nil => exact .inl ho
  | @step c c₁ c' act es hstep hquiet hr ih =>
    have hmax' := Nat.le_trans hr.length_streams_le hmax
    have hc := hinuse c List.mem_cons_self
    have hc₁ := hinuse c₁ (List.mem_cons_of_mem _ hr.head_mem)
    obtain ⟨a, ha, -, hcached, -⟩ := id hc
    have ho₁ : c₁.Owes x u :=
      ⟨hstep.covers (hstep.bound_lt hs hmax') hc hc₁ hheld ho.covered,
        ho.pending.trans (hstep.retains hc hc₁ fun ha hq => hquiet ha hq x)⟩
    rcases ih (hstep.sound hs hmax') hmax (hstep.recorded hs hmax' hrecorded)
        (fun d hd => hinuse d (List.mem_cons_of_mem _ hd)) (hstep.held_ne ha hcached hheld) ho₁ with
      ho' | ⟨es₁, m₁, timeout, readers, m₂, es₂, rfl, hbefore, hwait⟩
    · exact .inl ho'
    · exact .inr ⟨_ :: es₁, m₁, timeout, readers, m₂, es₂, rfl, .step hstep hquiet hbefore, hwait⟩
  | @wait m m₁ c' y timeout readers answer es hcsf he hr ih =>
    have hmax' := Nat.le_trans hr.length_streams_le hmax
    obtain ⟨ws, hrun, -⟩ := wait_run hcsf he
    have hs₁ := hrun.sound hs hmax'
    have hrecorded₁ := hrun.recorded hs hmax' hrecorded
    rcases wait_owes hcsf he (hinuse _ List.mem_cons_self) ho (hrecorded₁.below x) with
      ⟨ho₁, -⟩ | ⟨rfl, rfl, hanswered⟩
    · rcases ih hs₁ hmax hrecorded₁ (fun d hd => hinuse d (List.mem_cons_of_mem _ hd)) nofun ho₁ with
        ho' | ⟨es₁, m₂, timeout', readers', m₃, es₂, rfl, hbefore, hwait⟩
      · exact .inl ho'
      · exact .inr ⟨_ :: es₁, m₂, timeout', readers', m₃, es₂, rfl, .wait hcsf he hbefore, hwait⟩
    · exact .inr ⟨[], m, timeout, readers, m₁, es, rfl, .nil _, hcsf, he, hr, hanswered⟩

/-- A wait that answers for work that was submitted finds it complete, and complete it stays, or finds a
number there that is past the last submission. -/
theorem lt_last_or_overtaken {m₁ m₂ : Machine κ} {q : Nat} {timeout : Int} {readers : Bool}
    (hbefore : WaitRun c es ⟨m₁, [], none⟩) (hcsf : m₁.progress.generation = .csf)
    (he : (Buffer.wait x timeout readers).exec m₁ = (.ok true, m₂))
    (hafter : WaitRun ⟨m₂, [], none⟩ es' c') (hs : c.progress.Sound)
    (hmax : c'.progress.streams.length ≤ slotCount) (hq : q < c.progress.bound)
    (hu : u.queue = UInt32.ofNat q) (hsubmitted : u.seqnum < (c.slot q).lastSubmit)
    (hx : (⟨m₁, [], none⟩ : Config κ).InUse x) (hlive : .step (.terminate q) ∉ es'.map (·.2))
    (h : (⟨m₂, [], none⟩ : Config κ).Answered x u) :
    u.seqnum < (c'.slot q).last ∨ (⟨m₁, [], none⟩ : Config κ).Overtaken x q u.seqnum := by
  obtain ⟨fs, hrun, -⟩ := hbefore.run
  obtain ⟨ws, hwait, hpassive⟩ := wait_run hcsf he
  have hmax₂ := Nat.le_trans hafter.length_streams_le hmax
  have hmax₁ := Nat.le_trans hwait.length_streams_le hmax₂
  have hs₁ := hrun.sound hs hmax₁
  have hs₂ := hwait.sound hs₁ hmax₂
  have hq₁ := Nat.lt_of_lt_of_le hq (hrun.bound_le hs hmax₁)
  have hlast : ((⟨m₂, [], none⟩ : Config κ).slot q).lastSubmit =
      ((⟨m₁, [], none⟩ : Config κ).slot q).lastSubmit :=
    hwait.lastSubmit_eq hs₁ hmax₂ hq₁ fun n hmem => hpassive _ hmem
  obtain ⟨e, hmem, hin, hfinished⟩ := h
  have hslot : (⟨m₂, [], none⟩ : Config κ).slot q = m₂.progress.slots.entry e.queue.toNat := by
    rw [hin.queue, hu, UInt32.toNat_ofNat_of_lt']
    · rfl
    · exact Nat.lt_of_lt_of_le hq₁ (Nat.le_trans hs₁.slots.bound_le (by decide))
  have hsubmitted : u.seqnum < e.lastSubmit m₂.progress.slots := by
    rw [Usage.lastSubmit_eq, ← hslot, hlast]
    exact UInt64.lt_of_lt_of_le hsubmitted (hrun.lastSubmit_le hs hmax₁ q)
  by_cases hle : e.seqnum ≤ e.lastSubmit m₂.progress.slots
  · have hdone : u.seqnum < e.last m₂.progress.slots :=
      Usage.lt_last_of_isFinished hfinished hsubmitted hin.seqnum hle
    rw [Usage.last_eq, ← hslot] at hdone
    exact .inl (UInt64.lt_of_lt_of_le hdone (hafter.last_le hs₂ hmax hlive))
  · refine .inr ⟨e, ?_, hin.queue.trans hu, hin.seqnum, ?_⟩
    · show e ∈ m₁.usage x
      rw [← wait_usage hcsf he hx]
      exact hmem
    · rw [← hlast, hslot, ← Usage.lastSubmit_eq]
      exact UInt64.not_le.mp hle

end WaitRun

/-- Once a batch was collected a buffer owes what the batch does to it. -/
theorem Step.owes {c c' : Config κ} {id k x q : Nat} {b : Batch} {t : UsageType} {s : UInt64}
    (h : Step c (.collect id k) c') (hb : c.machine.batches[k]? = some b) (hx : (t, x) ∈ b.uses)
    (hjob : c'.machine.job? id t.isFragment = some (q, s)) :
    c'.Owes x ⟨UInt32.ofNat q, t.writes, s⟩ := by
  cases h with
  | collect hget _ he =>
    rw [hget] at hb
    cases hb
    obtain ⟨_, hg⟩ := gathers_of_collect hget he
    obtain ⟨i, n, hjob', hcovers⟩ := hg.recorded t x hx
    rw [hjob] at hjob'
    cases hjob'
    exact ⟨hcovers, collect_access hget he hx⟩

/-- A batch used a buffer under the number `s` on the slot `q`, and its work was submitted.  If the buffer
was in use ever since, and then a wait for it comes true that is about that use, the work is complete, or
some wait that came true did so with an entry that stands for the work and is past the last submission:
it was merged with the number of work that was skipped. -/
theorem WaitRun.wait_sound {m m₄ m₅ : Machine κ} {c₁ c₂ c₃ : Config κ} {es₁ : List (Config κ × Action)}
    {es₂ es₃ : List (Config κ × WaitEvent)} {id k x q : Nat} {b : Batch} {t : UsageType} {s : UInt64}
    {timeout : Int} {readers : Bool} (hfresh : Fresh m) (h₁ : Run ⟨m, [], none⟩ es₁ c₁)
    (hcollect : Step c₁ (.collect id k) c₂) (hb : c₁.machine.batches[k]? = some b)
    (hx : (t, x) ∈ b.uses) (hjob : c₂.machine.job? id t.isFragment = some (q, s))
    (h₂ : WaitRun c₂ es₂ c₃) (hsubmit : .step (.submit q s) ∈ es₂.map (·.2)) (hs : s + 1 ≠ 0)
    (hnone : ∀ r answer, .wait x r answer ∉ es₂.map (·.2)) (h₃ : WaitRun c₃ es₃ ⟨m₄, [], none⟩)
    (hlive : .step (.terminate q) ∉ es₃.map (·.2))
    (hinuse : ∀ d ∈ (es₂ ++ es₃).map (·.1) ++ [⟨m₄, [], none⟩], d.InUse x)
    (he : (Buffer.wait x timeout readers).exec m₄ = (.ok true, m₅))
    (hmatters : readers = true ∨ t.writes = true) (hmax : m₄.progress.streams.length ≤ slotCount) :
    s < ((⟨m₅, [], none⟩ : Config κ).slot q).last ∨
      ∃ d r, (d, .wait x r true) ∈ es₃ ++ [(⟨m₄, [], none⟩, .wait x readers true)] ∧
        d.Overtaken x q s := by
  obtain ⟨fs₂, hrun₂, -, hall₂⟩ := h₂.run
  obtain ⟨fs₃, hrun₃, -, -⟩ := h₃.run
  have hmax₃ := Nat.le_trans h₃.length_streams_le hmax
  have hmax₂ := Nat.le_trans h₂.length_streams_le hmax₃
  have hrun₁ := h₁.append (.single hcollect)
  have hs₂ := hrun₁.sound hfresh.sound hmax₂
  have hs₃ := hrun₂.sound hs₂ hmax₃
  have hrecorded₂ := hrun₁.recorded hfresh.sound hmax₂ hfresh.recorded
  have hrecorded₃ := hrun₂.recorded hs₂ hmax₃ hrecorded₂
  have hcsf : m₄.progress.generation = .csf :=
    ((hrun₁.append (hrun₂.append hrun₃)).generation).trans hfresh.generation
  obtain ⟨ws, hwait, hpassive⟩ := wait_run hcsf he
  have hmax₅ := Nat.le_trans (Nat.le_of_eq (hwait.length_streams_of_passive hpassive)) hmax
  have hinuse₃ : ∀ d ∈ es₃.map (·.1) ++ [⟨m₄, [], none⟩], d.InUse x := by
    intro d hd
    refine hinuse d ?_
    rw [List.map_append, List.append_assoc]
    exact List.mem_append_right _ hd
  have hinuse₂ : ∀ d ∈ es₂.map (·.1) ++ [c₃], d.InUse x := by
    intro d hd
    rcases List.mem_append.mp hd with hd | hd
    · refine hinuse d ?_
      rw [List.map_append, List.append_assoc]
      exact List.mem_append_left _ hd
    · rw [List.mem_singleton.mp hd]
      exact hinuse₃ c₃ h₃.head_mem
  have hx₄ := hinuse₃ _ (List.mem_append_right _ (List.mem_singleton_self _))
  have hq₃ : q < c₃.progress.bound := by
    have hmem : q ∈ c₂.progress.streams := Machine.mem_streams_of_job hjob
    rw [hs₂.streams, List.mem_range] at hmem
    exact Nat.lt_of_lt_of_le hmem (hrun₂.bound_le hs₂ hmax₃)
  have hsubmitted : s < (c₃.slot q).lastSubmit := hrun₂.lt_lastSubmit hs₂ hmax₃ (hall₂ _ hsubmit) hs
  -- until the work is submitted no wait can answer for it
  have hheld₂ : c₂.held ≠ some x := by
    cases hcollect
    nofun
  have ho₃ : c₃.Owes x ⟨UInt32.ofNat q, t.writes, s⟩ := by
    rcases h₂.owes_or_answered hs₂ hmax₃ hrecorded₂ hinuse₂ hheld₂ (hcollect.owes hb hx hjob) with
      ho | ⟨_, _, _, r, _, _, rfl, -⟩
    · exact ho
    · refine absurd ?_ (hnone r true)
      rw [List.map_append]
      exact List.mem_append_right _ List.mem_cons_self
  -- from then on one of the waits does
  rcases h₃.owes_or_answered hs₃ hmax hrecorded₃ hinuse₃ (h₂.held_ne hinuse₂ hheld₂) ho₃ with
    ho₄ | ⟨es₄, m₆, _, r, m₇, es₅, rfl, hbefore, hcsf₆, he₆, hafter, hanswered⟩
  · have hrecorded₅ := hwait.recorded (hrun₃.sound hs₃ hmax) hmax₅ (hrun₃.recorded hs₃ hmax hrecorded₃)
    rcases wait_owes hcsf he hx₄ ho₄ (hrecorded₅.below x) with ⟨-, hno⟩ | ⟨-, -, hanswered⟩
    · exact absurd ⟨rfl, rfl, hmatters⟩ hno
    · refine (h₃.lt_last_or_overtaken hcsf he (.nil _) hs₃ hmax₅ hq₃ rfl hsubmitted hx₄
        List.not_mem_nil hanswered).imp_right fun hover => ⟨_, readers, ?_, hover⟩
      exact List.mem_append_right _ (List.mem_singleton_self _)
  · have hx₆ : (⟨m₆, [], none⟩ : Config κ).InUse x := by
      refine hinuse₃ _ (List.mem_append_left _ ?_)
      rw [List.map_append]
      exact List.mem_append_right _ List.mem_cons_self
    have hlive₅ : WaitEvent.step (.terminate q) ∉
        (es₅ ++ [((⟨m₄, [], none⟩ : Config κ), WaitEvent.wait x readers true)]).map (·.2) := by
      rw [List.map_append, List.mem_append, not_or]
      refine ⟨fun hmem => hlive ?_, fun hmem => absurd (List.mem_singleton.mp hmem) nofun⟩
      rw [List.map_append]
      exact List.mem_append_right _ (List.mem_cons_of_mem _ hmem)
    refine (hbefore.lt_last_or_overtaken hcsf₆ he₆ (hafter.append (.wait hcsf he (.nil _))) hs₃ hmax₅ hq₃
      rfl hsubmitted hx₆ hlive₅ hanswered).imp_right fun hover => ⟨_, r, ?_, hover⟩
    exact List.mem_append_left _ (List.mem_append_right _ List.mem_cons_self)

end Kernel

namespace Sample

/-- A wait for the buffer, after the work of the first writer was queued and that of two more skipped. -/
@[irreducible] def waited : Machine Bench := ((Buffer.wait 0 0 true).exec again).2

end Sample

/-- Two batches that are skipped make a wait for a buffer come true although the work that writes it was
submitted and runs.  The number of the last one is past the last submission. -/
theorem idle_too_early_sample :
    WaitRun ⟨Sample.numbered, [], none⟩ (Sample.between.map fun e => (e.1, .step e.2))
      ⟨Sample.again, [], none⟩ ∧
    (Buffer.wait 0 0 true).exec Sample.again = (.ok true, Sample.waited) ∧
    (⟨Sample.waited, [], none⟩ : Config Bench).slot 0 = { last := 1, lastSubmit := 2 } ∧
    (⟨Sample.again, [], none⟩ : Config Bench).Overtaken 0 0 1 := by
  obtain ⟨hinuse, hjob, hwait, hslot, hmax⟩ :
      (∀ d ∈ Sample.between.map (·.1) ++ [⟨Sample.again, [], none⟩], d.InUse 0) ∧
      Sample.numbered.job? 0 false = some (0, 1) ∧
      ((Buffer.wait 0 0 true).exec Sample.again).1.toOption = some true ∧
      (⟨Sample.waited, [], none⟩ : Config Bench).slot 0 = { last := 1, lastSubmit := 2 } ∧
      Sample.again.progress.streams.length ≤ slotCount := by
    decide +kernel
  have hwait : (Buffer.wait 0 0 true).exec Sample.again = (.ok true, Sample.waited) := by
    rw [Sample.waited]
    exact exec_of_value hwait
  obtain ⟨hfirst, hbetween, -⟩ := Sample.run_between
  refine ⟨hbetween.waits (by decide), hwait, hslot, ?_⟩
  cases hbetween with
  | cons hsubmit hskips =>
    rcases WaitRun.wait_sound Sample.fresh_start Sample.run_batched hfirst rfl (List.mem_singleton_self _)
        hjob ((Run.single hsubmit).waits (by decide)) List.mem_cons_self (by decide) (by decide)
        (hskips.waits (by decide)) (by decide) hinuse hwait (.inl rfl) hmax with hlast | ⟨d, r, hd, hover⟩
    · rw [hslot] at hlast
      exact absurd hlast (by decide)
    · rcases List.mem_append.mp hd with hd | hd
      · obtain ⟨_, -, he⟩ := List.mem_map.mp hd
        cases he
      · cases List.mem_singleton.mp hd
        exact hover

end Mali
