import Mali.Proofs.Binding
import Mali.Proofs.Cleaning
import Mali.Proofs.WaitRuns

/-!
# When a wait need not look

A buffer says twice what the GPU may still do with it: by its recorded uses, and by two bits for pending
reads and writes.  A wait that finds the bits clear comes true at once.  The bits are set when a use is
recorded, and a wait that saw the uses complete clears them, so the two can drift apart in two ways.

* Two uses on one queue are kept as one entry, which writes if either does and has the later number.  So a
  read that is recorded after the writes were seen complete lends its number to an entry that writes.  The
  bits are right then: the entry only stands for a pending read.
* A wait counts a use whose work was not submitted yet as complete, and clears its bits.  When the work is
  submitted later, the next wait comes true while it runs.

Apart from these, clear bits mean that the recorded uses are complete.  So to look at the uses while bits are
clear is to look at the entries that were waited for too early, or hold a number that is borrowed.

* `Progress.Forward`: slots go on, and nobody submits.
* `UseEvent`, `UseStep`, `UseRun`: the users of a device in any order.
* `Late`, `Borrowed`: the two exceptions, read off what was done.
* `Pending`: what the bits of a buffer say of its uses.
* `UseRun.shortcut_exact`: what clear bits leave to look at.
* `shortcut_inexact_late`, `shortcut_inexact_borrowed`: both exceptions happen.
-/

namespace Mali

open Op

/-! ## Recorded uses -/

namespace Usage

theorem isFinished_of_sorted {slots : SlotTable} {bound : Nat} {us : List Usage} {readers : Bool}
    (h : finished slots bound us readers = true) (hs : Sorted us) {e : Usage} (he : e ∈ us)
    (hlt : e.queue.toNat < bound) (hrelevant : relevant readers e = true) : isFinished slots e = true := by
  rw [finished_eq hs, List.all_eq_true] at h
  exact h e (List.mem_filter.mpr ⟨List.mem_filter.mpr ⟨he, decide_eq_true hlt⟩, hrelevant⟩)

theorem finished_of_forall {slots : SlotTable} {bound : Nat} {us : List Usage} {readers : Bool}
    (h : ∀ e ∈ us, e.queue.toNat < bound → relevant readers e = true → isFinished slots e = true) :
    finished slots bound us readers = true := by
  rw [finished, List.all_eq_true]
  intro e he
  have hlt := List.mem_takeWhile_imp he
  obtain ⟨hmem, hrelevant⟩ := List.mem_filter.mp ((List.takeWhile_prefix _).subset he)
  exact h e hmem (by simpa using hlt) hrelevant

/-- The slot has passed the work of a use. -/
def Complete (slots : SlotTable) (e : Usage) : Prop := e.seqnum < (slots.entry e.queue.toNat).last

/-- The work of a use was not submitted yet, or is being submitted. -/
def Unsubmitted (slots : SlotTable) (e : Usage) : Prop :=
  (slots.entry e.queue.toNat).lastSubmit ≤ e.seqnum

instance (slots : SlotTable) (e : Usage) : Decidable (Unsubmitted slots e) :=
  inferInstanceAs (Decidable (_ ≤ _))

theorem isFinished_of_complete {slots : SlotTable} {e : Usage}
    (hbehind : (slots.entry e.queue.toNat).last ≤ (slots.entry e.queue.toNat).lastSubmit)
    (h : Complete slots e) : isFinished slots e = true := by
  have hlt : e.seqnum < e.lastSubmit slots := by
    rw [lastSubmit_eq]
    exact UInt64.lt_of_lt_of_le h hbehind
  unfold isFinished submitted?
  rw [if_neg ((UInt64.ne_of_lt hlt).symm), if_neg (UInt64.not_lt.mpr (UInt64.le_of_lt hlt))]
  dsimp only
  rw [last_eq]
  exact decide_eq_true h

/-- A use counts as complete only if it is, or if its work was not submitted. -/
theorem complete_of_isFinished {slots : SlotTable} {e : Usage} (h : isFinished slots e = true) :
    Complete slots e ∨ Unsubmitted slots e := by
  by_cases hsubmitted : Unsubmitted slots e
  · exact .inr hsubmitted
  · rw [Unsubmitted, ← lastSubmit_eq, UInt64.not_le] at hsubmitted
    unfold isFinished submitted? at h
    rw [if_neg ((UInt64.ne_of_lt hsubmitted).symm), if_neg (UInt64.not_lt.mpr (UInt64.le_of_lt hsubmitted))] at h
    dsimp only at h
    rw [last_eq] at h
    have hlt := of_decide_eq_true h
    exact .inl hlt

/-- What counts as complete goes on to count so while slots go on and nothing is submitted. -/
theorem isFinished_of_le {slots slots' : SlotTable} {e : Usage} (h : isFinished slots e = true)
    (hlast : (slots.entry e.queue.toNat).last ≤ (slots'.entry e.queue.toNat).last)
    (hsubmit : (slots'.entry e.queue.toNat).lastSubmit = (slots.entry e.queue.toNat).lastSubmit) :
    isFinished slots' e = true := by
  unfold isFinished at h ⊢
  rw [lastSubmit_eq, hsubmit, ← lastSubmit_eq]
  cases hs : submitted? e.seqnum (e.lastSubmit slots) with
  | none => rfl
  | some n =>
    rw [hs] at h
    dsimp only at h ⊢
    rw [decide_eq_true_eq, last_eq] at h ⊢
    exact UInt64.lt_of_lt_of_le h hlast

end Usage

variable {κ : Type}

/-! ## Slots that go on -/

/-- Bound slots may go on, and submissions stay as they are or are raised. -/
structure Progress.Forward (p p' : Progress) : Prop where
  bound : p'.bound = p.bound
  last : ∀ i, (p.slots.entry i).last ≤ (p'.slots.entry i).last

namespace Progress.Forward

variable {p p₁ p₂ : Progress}

theorem refl (p : Progress) : p.Forward p := ⟨rfl, fun _ => UInt64.le_refl _⟩

theorem trans (h : p.Forward p₁) (h' : p₁.Forward p₂) : p.Forward p₂ :=
  ⟨h'.bound.trans h.bound, fun i => UInt64.le_trans (h.last i) (h'.last i)⟩

theorem put {i : Nat} {s : EventSlot} (hs : (p.slots.entry i).last ≤ s.last) : p.Forward (p.put i s) where
  bound := rfl
  last j := by
    rcases p.slots.entry_put_or i s j with ⟨rfl, hput⟩ | hput
    · rwa [Progress.put, hput]
    · rw [Progress.put, hput]
      exact UInt64.le_refl _

theorem complete (h : p.Forward p₁) {e : Usage} (he : e.Complete p.slots) : e.Complete p₁.slots :=
  UInt64.lt_of_lt_of_le he (h.last _)

end Progress.Forward

section Kernel

variable [Kernel κ]

/-- Unasked, slots go on and nothing is submitted. -/
theorem Run.forward_of_passive {c c' : Config κ} {es : List (Config κ × Action)} (h : Run c es c')
    (hacts : ∀ a ∈ es.map (·.2), a.Passive) (hfits : c.progress.Fits) :
    c.progress.Forward c'.progress ∧
      ∀ i, (c'.progress.slots.entry i).lastSubmit = (c.progress.slots.entry i).lastSubmit := by
  induction h with
  | nil => exact ⟨.refl _, fun _ => rfl⟩
  | @cons c c₁ c' a es hstep hr ih =>
    have ha : a.Passive := hacts a List.mem_cons_self
    have hmove : c₁.progress = a.move c.progress := hstep.progress (by rintro rfl; exact ha.elim)
    have hone : c.progress.Forward c₁.progress ∧
        ∀ i, (c₁.progress.slots.entry i).lastSubmit = (c.progress.slots.entry i).lastSubmit := by
      rw [hmove]
      cases a with
      | advance i n =>
        refine ⟨.put (EventSlot.le_advance_last _ n (hfits.behind i)), fun j => ?_⟩
        show ((c.progress.slots.put i _).entry j).lastSubmit = _
        rcases c.progress.slots.entry_put_or i ((c.progress.slots.entry i).advance n).2 j with
          ⟨rfl, hput⟩ | hput
        · rw [hput, EventSlot.advance_lastSubmit]
        · rw [hput]
      | fire => exact ⟨.refl _, fun _ => rfl⟩
      | other => exact ⟨.refl _, fun _ => rfl⟩
      | _ => exact ha.elim
    obtain ⟨hforward, hsubmit⟩ := ih (fun a ha => hacts a (List.mem_cons_of_mem _ ha)) (hstep.fits hfits)
    exact ⟨hone.1.trans hforward, fun i => (hsubmit i).trans (hone.2 i)⟩

/-- On the way of a wait slots go on. -/
theorem Lingers.forward {m m' : Machine κ} (h : Lingers m m') (hcsf : m.progress.generation = .csf)
    (hfits : m.progress.Fits) : m'.progress.Fits ∧ m.progress.Forward m'.progress ∧
      ∀ i, (m'.progress.slots.entry i).lastSubmit = (m.progress.slots.entry i).lastSubmit := by
  obtain ⟨es, hrun, hacts⟩ := (h hcsf).run
  exact ⟨hrun.fits hfits, hrun.forward_of_passive hacts hfits⟩

/-! ## The users of a device -/

omit [Kernel κ] in
/-- What a user does, as far as the recorded uses of buffers are concerned. -/
inductive UseEvent where
  /-- A use is recorded. -/
  | mark (buffer : Nat) (u : Usage)
  /-- A wait for a buffer, for its writers or also for its readers, gave an answer. -/
  | wait (buffer : Nat) (readers answer : Bool)
  | other
  deriving DecidableEq

/-- One step of a user. -/
inductive UseStep : Machine κ → UseEvent → Machine κ → Prop
  | mark {m m' : Machine κ} {y : Nat} {u : Usage}
    (he : (modifyBuffer y (·.markUsed u)).exec m = (.ok (), m')) : UseStep m (.mark y u) m'
  | wait {m m' : Machine κ} {y : Nat} {timeout : Int} {readers answer : Bool}
    (he : (Buffer.wait y timeout readers).exec m = (.ok answer, m')) :
    UseStep m (.wait y readers answer) m'
  | submit {m m' : Machine κ} {id : Nat} {insert : UInt64} {o : Option Nat} {n : UInt64} {ran : Bool}
    (he : (Device.submitStream id insert o n).exec m = (.ok ran, m')) : UseStep m .other m'
  | advance {m m' : Machine κ} {i : Int} {n : UInt64} (he : (Device.advance i n).exec m = (.ok (), m')) :
    UseStep m .other m'
  | handle {m m' : Machine κ} {fine : Bool} (he : Device.handleEvents.exec m = (.ok fine, m')) :
    UseStep m .other m'

/-- Steps of users one after the other, with the machine before each.  The last step comes last, since what
is said of a machine looks back. -/
inductive UseRun (m : Machine κ) : List (Machine κ × UseEvent) → Machine κ → Prop
  | nil : UseRun m [] m
  | snoc {es : List (Machine κ × UseEvent)} {m₁ m' : Machine κ} {e : UseEvent} (hr : UseRun m es m₁)
    (hs : UseStep m₁ e m') : UseRun m (es ++ [(m₁, e)]) m'

theorem steady_submitStream (id : Nat) (insert : UInt64) (o : Option Nat) (n : UInt64) :
    Keeps (Steady (κ := κ)) (Device.submitStream id insert o n) :=
  keeps_submitStream (fun _ => keeps_submitSlot _ _ _) (fun _ _ _ => keeps_modifyDevice _) (keeps_modifyDevice _)

/-- A report by hand leaves buffers in use alone. -/
theorem steady_advance (i : Int) (n : UInt64) : Keeps (Steady (κ := κ)) (Device.advance i n) :=
  keeps_bind (keeps_advanceSlot i n) steady_runCallbacks

/-- Whatever a user does, slots only go on. -/
theorem UseStep.forward {m m' : Machine κ} {e : UseEvent} (h : UseStep m e m')
    (hcsf : m.progress.generation = .csf) (hfits : m.progress.Fits) :
    m'.progress.generation = .csf ∧ m'.progress.Fits ∧ m.progress.Forward m'.progress := by
  cases h with
  | mark he =>
    cases he
    exact ⟨hcsf, hfits, .refl _⟩
  | wait he =>
    rcases wait_ok hcsf he with ⟨hlinger, -⟩ | ⟨-, m₁, hlinger, hsettles⟩
    · obtain ⟨hfits', hforward, -⟩ := hlinger.forward hcsf hfits
      exact ⟨(hlinger hcsf).generation, hfits', hforward⟩
    · obtain ⟨hfits', hforward, -⟩ := hlinger.forward hcsf hfits
      rw [hsettles.progress]
      exact ⟨(hlinger hcsf).generation, hfits', hforward⟩
  | submit he =>
    obtain ⟨-, s, -, ⟨-, hp, -⟩ | ⟨-, hp, -⟩⟩ := submitStream_ok he
    · rw [hp]
      exact ⟨hcsf, hfits, .refl _⟩
    · rw [hp]
      refine ⟨hcsf, hfits.put fun hs => EventSlot.behind_submit hs _, .put ?_⟩
      rw [EventSlot.submit_last]
      exact UInt64.le_refl _
  | advance he =>
    obtain ⟨-, -, hp⟩ := advance_ok he
    rw [hp]
    exact ⟨hcsf, hfits.put fun hs => EventSlot.behind_advance hs _,
      .put (EventSlot.le_advance_last _ _ (hfits.behind _))⟩
  | handle he =>
    have hlinger : Lingers m m' := lingers_handleEvents.ok he
    obtain ⟨hfits', hforward, -⟩ := hlinger.forward hcsf hfits
    exact ⟨(hlinger hcsf).generation, hfits', hforward⟩

/-! ## Uses and bits -/

omit [Kernel κ] in
/-- A wait that the entry mattered for came true before the work of the entry was submitted. -/
def Late (es : List (Machine κ × UseEvent)) (x : Nat) (e : Usage) : Prop :=
  ∃ m readers, (m, .wait x readers true) ∈ es ∧ e ∈ m.usage x ∧ Usage.relevant readers e = true ∧
    e.Unsubmitted m.progress.slots

omit [Kernel κ] in
/-- The number is that of a read, recorded over writes on its queue when no write was pending. -/
def Borrowed (es : List (Machine κ × UseEvent)) (x : Nat) (e : Usage) : Prop :=
  ∃ m, (m, .mark x ⟨e.queue, false, e.seqnum⟩) ∈ es ∧ ¬Access.Within Access.write (m.access x) ∧
    ∃ d ∈ m.usage x, d.queue = e.queue ∧ d.write = true

omit [Kernel κ] in
/-- Every entry of a buffer is complete or pending, up to the two exceptions. -/
structure Pending (es : List (Machine κ × UseEvent)) (x : Nat) (m : Machine κ) : Prop where
  inUse : (⟨m, [], none⟩ : Config κ).InUse x
  sorted : Usage.Sorted (m.usage x)
  told : ∀ e ∈ m.usage x, e.queue.toNat < m.progress.bound →
    e.Complete m.progress.slots ∨ Late es x e ∨
      (Access.Within Access.read (m.access x) ∧
        (e.write = true → Access.Within Access.write (m.access x) ∨ Borrowed es x e))

namespace Pending

variable {es : List (Machine κ × UseEvent)} {x : Nat} {m m' : Machine κ}

omit [Kernel κ] in
theorem late_append {e : Usage} (h : Late es x e) (es' : List (Machine κ × UseEvent)) :
    Late (es ++ es') x e := by
  obtain ⟨m, readers, hm, hrest⟩ := h
  exact ⟨m, readers, List.mem_append_left _ hm, hrest⟩

omit [Kernel κ] in
theorem borrowed_append {e : Usage} (h : Borrowed es x e) (es' : List (Machine κ × UseEvent)) :
    Borrowed (es ++ es') x e := by
  obtain ⟨m, hm, hrest⟩ := h
  exact ⟨m, List.mem_append_left _ hm, hrest⟩

omit [Kernel κ] in
/-- While a buffer stays as it is and slots go on, what was told stays so. -/
theorem stays (h : Pending es x m) (hs : Stays x m m') (hf : m.progress.Forward m'.progress)
    (es' : List (Machine κ × UseEvent)) : Pending (es ++ es') x m' where
  inUse := hs.inUse h.inUse
  sorted := by
    rw [hs.usage h.inUse]
    exact h.sorted
  told e he hlt := by
    rw [hs.usage h.inUse] at he
    rw [hf.bound] at hlt
    rcases h.told e he hlt with hdone | hlate | ⟨hread, hwrite⟩
    · exact .inl (hf.complete hdone)
    · exact .inr (.inl (late_append hlate es'))
    · refine .inr (.inr ⟨hread.trans hs.retains, fun hw => ?_⟩)
      exact (hwrite hw).imp (fun h => h.trans hs.retains) fun h => borrowed_append h es'

omit [Kernel κ] in
/-- A use is recorded on the buffer itself. -/
theorem mark {u : Usage} (h : Pending es x m)
    (he : (modifyBuffer x (·.markUsed u)).exec m = (.ok (), m')) :
    Pending (es ++ [(m, .mark x u)]) x m' := by
  obtain ⟨_, ha, hlive⟩ := h.inUse
  obtain ⟨b, hb, rfl⟩ := Machine.exists_buffer ha
  have hb' : m'.allocator.buffers[x]? = some (b.markUsed u) := by
    cases he
    show (m.allocator.buffers.modify x _)[x]? = _
    rw [getElem?_modify_of_some hb, if_pos rfl]
  have hprogress : m'.progress = m.progress := by
    cases he
    rfl
  have husage : m.usage x = b.usage := Machine.usage_of_account (Machine.accounts_of_buffer hb)
  have husage' : m'.usage x = Usage.record b.usage u :=
    Machine.usage_of_account (Machine.accounts_of_buffer hb')
  have haccess : m'.access x = m.access x ||| Access.ofWrite u.write := by
    rw [Machine.access_of_buffer hb', Machine.access_of_buffer hb]
    rfl
  have hold : Access.Within (m.access x) (m'.access x) := by
    rw [haccess]
    exact Access.within_or_left _ _
  have hnew : Access.Within (Access.ofWrite u.write) (m'.access x) := by
    rw [haccess]
    exact Access.within_or_right _ _
  have hread : Access.Within Access.read (m'.access x) := by
    refine Access.Within.trans ?_ hnew
    cases u.write
    · exact .refl _
    · decide
  have hsorted := h.sorted
  rw [husage] at hsorted
  refine ⟨⟨_, Machine.accounts_of_buffer hb', hlive⟩, ?_, fun e he hlt => ?_⟩
  · rw [husage', Usage.record_eq]
    exact Usage.sorted_insert u hsorted
  · rw [hprogress] at hlt ⊢
    rw [husage', Usage.record_eq] at he
    -- what was known of an entry stays known, as the bits only grow
    have htold (d : Usage) (hd : d ∈ b.usage) (hlt : d.queue.toNat < m.progress.bound) :
        d.Complete m.progress.slots ∨ Late (es ++ [(m, .mark x u)]) x d ∨
          (Access.Within Access.read (m'.access x) ∧ (d.write = true →
            Access.Within Access.write (m'.access x) ∨ Borrowed (es ++ [(m, .mark x u)]) x d)) := by
      rcases h.told d (by rwa [husage]) hlt with hdone | hlate | ⟨-, hwrite⟩
      · exact .inl hdone
      · exact .inr (.inl (late_append hlate _))
      · refine .inr (.inr ⟨hread, fun hw => ?_⟩)
        exact (hwrite hw).imp (fun h => h.trans hold) fun h => borrowed_append h _
    have hfresh (hw : u.write = true) : Access.Within Access.write (m'.access x) := by
      refine Access.Within.trans ?_ hnew
      rw [hw]
      decide
    rcases Usage.mem_insert he with he | rfl | ⟨d, hd, hq, rfl⟩
    · exact htold e he hlt
    · exact .inr (.inr ⟨hread, fun hw => .inl (hfresh hw)⟩)
    · by_cases hw : u.write = true
      · exact .inr (.inr ⟨hread, fun _ => .inl (hfresh hw)⟩)
      · have hu : u.write = false := Bool.eq_false_iff.mpr hw
        by_cases hlater : d.seqnum < u.seqnum
        · -- a read that lends its number
          refine .inr (.inr ⟨hread, fun hwrites => ?_⟩)
          by_cases hpending : Access.Within Access.write (m.access x)
          · exact .inl (hpending.trans hold)
          · refine .inr ⟨m, List.mem_append_right _ ?_, hpending, d, by rwa [husage], rfl, ?_⟩
            swap
            · rwa [Usage.merge, hu, Bool.or_false] at hwrites
            rw [List.mem_singleton, Prod.mk.injEq, UseEvent.mark.injEq]
            refine ⟨rfl, rfl, ?_⟩
            rw [Usage.merge, if_pos hlater, hq, ← hu]
        · have hsame : d.merge u = d := by
            rw [Usage.merge, if_neg hlater, hu, Bool.or_false]
          rw [hsame] at hlt ⊢
          exact htold d hd hlt

omit [Kernel κ] in
/-- A wait for the buffer itself saw every use complete that it is about, or not submitted. -/
theorem settle {m₁ : Machine κ} {readers : Bool} (h : Pending es x m) (hs : Stays x m m₁)
    (hf : m.progress.Forward m₁.progress)
    (hsubmit : ∀ i, (m₁.progress.slots.entry i).lastSubmit = (m.progress.slots.entry i).lastSubmit)
    (hsettles : Settles x readers m₁ m') : Pending (es ++ [(m, .wait x readers true)]) x m' := by
  have h₁ := h.stays hs hf [(m, .wait x readers true)]
  have husage : m₁.usage x = m.usage x := hs.usage h.inUse
  have husage' : m'.usage x = m₁.usage x := by
    rw [Machine.usage, hsettles.storage, Machine.usage]
  -- an entry that was looked at
  have hseen (e : Usage) (he : e ∈ m₁.usage x) (hlt : e.queue.toNat < m₁.progress.bound)
      (hrelevant : Usage.relevant readers e = true) :
      e.Complete m₁.progress.slots ∨ Late (es ++ [(m, .wait x readers true)]) x e := by
    refine (Usage.complete_of_isFinished
      (Usage.isFinished_of_sorted hsettles.finished h₁.sorted he hlt hrelevant)).imp_right fun hnew => ?_
    refine ⟨m, readers, List.mem_append_right _ (List.mem_singleton_self _), by rwa [← husage],
      hrelevant, ?_⟩
    rw [Usage.Unsubmitted, ← hsubmit]
    exact hnew
  refine ⟨?_, ?_, fun e he hlt => ?_⟩
  · obtain ⟨a, ha, hlive⟩ := h₁.inUse
    refine ⟨a, ?_, hlive⟩
    show m'.storage.accounts[x]? = some a
    rw [hsettles.storage]
    exact ha
  · rw [husage']
    exact h₁.sorted
  · rw [hsettles.progress] at hlt ⊢
    rw [husage'] at he
    by_cases hrelevant : Usage.relevant readers e = true
    · exact (hseen e he hlt hrelevant).imp_right .inl
    · -- only reads are left out, and only if their bit stays
      rw [Usage.relevant, Bool.or_eq_true, not_or] at hrelevant
      rcases h₁.told e he hlt with hdone | hlate | ⟨hread, -⟩
      · exact .inl hdone
      · exact .inr (.inl hlate)
      · refine .inr (.inr ⟨?_, fun hw => absurd hw hrelevant.2⟩)
        rw [hsettles.access, if_neg hrelevant.1]
        exact hread.and (.refl _)

omit [Kernel κ] in
/-- Recording a use on another buffer is of no concern. -/
theorem stays_modifyBuffer_of_ne {y : Nat} (hy : y ≠ x) (f : Buffer → Buffer) {u : Unit}
    (he : (modifyBuffer y f).exec m = (.ok u, m')) : Stays x m m' := by
  refine ⟨fun a ha => ⟨a.gpuRefs, ?_⟩, (retains_modifyBuffer_of_ne hy f).ok he⟩
  obtain ⟨b, hb, rfl⟩ := Machine.exists_buffer ha
  cases he
  refine Machine.accounts_of_buffer ?_
  show (m.allocator.buffers.modify y f)[x]? = some b
  rw [List.getElem?_modify_ne f _ hy, hb]

/-- What the users of a device do keeps entries complete or pending. -/
theorem step {e : UseEvent} (h : Pending es x m) (hs : UseStep m e m')
    (hcsf : m.progress.generation = .csf) (hfits : m.progress.Fits) : Pending (es ++ [(m, e)]) x m' := by
  have hforward := (hs.forward hcsf hfits).2.2
  cases hs with
  | @mark _ y u he =>
    rcases eq_or_ne y x with rfl | hy
    · exact h.mark he
    · exact h.stays (stays_modifyBuffer_of_ne hy _ he) hforward _
  | @wait _ y timeout readers answer he =>
    rcases wait_ok hcsf he with ⟨hlinger, -⟩ | ⟨rfl, m₁, hlinger, hsettles⟩
    · exact h.stays ((hlinger hcsf).steady x h.inUse) hforward _
    · have hstays := (hlinger hcsf).steady x h.inUse
      obtain ⟨-, hforward₁, hsubmit⟩ := hlinger.forward hcsf hfits
      rcases eq_or_ne y x with rfl | hy
      · exact h.settle hstays hforward₁ hsubmit hsettles
      · refine h.stays (hstays.trans ?_) hforward _
        exact .of_storage hsettles.storage (hsettles.others x hy.symm)
  | submit he => exact h.stays ((steady_submitStream _ _ _ _).ok he x h.inUse) hforward _
  | advance he => exact h.stays ((steady_advance _ _).ok he x h.inUse) hforward _
  | handle he =>
    exact h.stays ((((lingers_handleEvents (κ := κ)).ok he) hcsf).steady x h.inUse) hforward _

end Pending

/-- Whatever the users of a device do, an entry of a buffer in use is complete or pending. -/
theorem UseRun.pending {x : Nat} {es : List (Machine κ × UseEvent)} {m m' : Machine κ}
    (h : UseRun m es m') (hcsf : m.progress.generation = .csf) (hfits : m.progress.Fits)
    (hx : (⟨m, [], none⟩ : Config κ).InUse x) (hunused : m.usage x = []) :
    m'.progress.generation = .csf ∧ m'.progress.Fits ∧ Pending es x m' := by
  induction h with
  | nil =>
    refine ⟨hcsf, hfits, hx, ?_, fun e he => ?_⟩
    · rw [hunused]
      exact .nil
    · rw [hunused] at he
      cases he
  | snoc hr hs ih =>
    obtain ⟨hcsf₁, hfits₁, hpending⟩ := ih
    obtain ⟨hcsf', hfits', -⟩ := hs.forward hcsf₁ hfits₁
    exact ⟨hcsf', hfits', hpending.step hs hcsf₁ hfits₁⟩

omit [Kernel κ] in
/-- If no access is pending, an entry is complete or was waited for too early. -/
theorem Pending.complete_or_late {x : Nat} {es : List (Machine κ × UseEvent)} {m : Machine κ} {b : Buffer}
    (h : Pending es x m) (hb : m.allocator.buffers[x]? = some b) (hclear : b.access = 0) {e : Usage}
    (he : e ∈ b.usage) (hlt : e.queue.toNat < m.progress.bound) :
    e.Complete m.progress.slots ∨ Late es x e := by
  have husage : m.usage x = b.usage := Machine.usage_of_account (Machine.accounts_of_buffer hb)
  rcases h.told e (by rwa [husage]) hlt with hdone | hlate | ⟨hread, -⟩
  · exact .inl hdone
  · exact .inr hlate
  · rw [Machine.access_of_buffer hb, hclear] at hread
    exact absurd hread (by decide)

omit [Kernel κ] in
/-- If no write is pending, an entry that writes is complete, was waited for too early, or has borrowed its
number. -/
theorem Pending.complete_or_borrowed {x : Nat} {es : List (Machine κ × UseEvent)} {m : Machine κ} {b : Buffer}
    (h : Pending es x m) (hb : m.allocator.buffers[x]? = some b) (hclear : b.access &&& Access.write = 0)
    {e : Usage} (he : e ∈ b.usage) (hlt : e.queue.toNat < m.progress.bound) (hw : e.write = true) :
    e.Complete m.progress.slots ∨ Late es x e ∨ Borrowed es x e := by
  have husage : m.usage x = b.usage := Machine.usage_of_account (Machine.accounts_of_buffer hb)
  rcases h.told e (by rwa [husage]) hlt with hdone | hlate | ⟨-, hwrite⟩
  · exact .inl hdone
  · exact .inr (.inl hlate)
  · rcases hwrite hw with hpending | hborrowed
    · rw [Machine.access_of_buffer hb, Access.Within, UInt32.and_comm, hclear] at hpending
      exact absurd hpending (by decide)
    · exact .inr (.inr hborrowed)

omit [Kernel κ] in
theorem exec_usageFinished {x : Nat} {m : Machine κ} {b : Buffer} (readers : Bool)
    (hb : m.allocator.buffers[x]? = some b) : (Buffer.usageFinished x readers).exec m =
      (.ok (Usage.finished m.device.slots m.device.bound b.usage readers), m) := by
  have hbuffer : (buffer x : Op κ Buffer).exec m = (.ok b, m) := by rw [exec_buffer, hb, exec_require_some]
  rw [Buffer.usageFinished, exec_bind_of_ok hbuffer]
  rfl

omit [Kernel κ] in
/-- A look at the uses finds them complete exactly if each one that matters is. -/
theorem usageFinished_iff {x : Nat} {m : Machine κ} {b : Buffer} {readers : Bool}
    (hb : m.allocator.buffers[x]? = some b) (hs : Usage.Sorted b.usage) :
    (Buffer.usageFinished x readers).exec m = (.ok true, m) ↔
      ∀ e ∈ b.usage, e.queue.toNat < m.device.bound → Usage.relevant readers e = true →
        Usage.isFinished m.device.slots e = true := by
  have hanswer : (Buffer.usageFinished x readers).exec m = (.ok true, m) ↔
      Usage.finished m.device.slots m.device.bound b.usage readers = true := by
    rw [exec_usageFinished readers hb, Prod.mk.injEq, Except.ok.injEq]
    exact and_iff_left rfl
  rw [hanswer]
  exact ⟨fun h _ he hlt hrelevant => Usage.isFinished_of_sorted h hs he hlt hrelevant,
    Usage.finished_of_forall⟩

/-- A condition that holds at once is found to hold, and nothing else happens unless a poll is due. -/
theorem exec_waitUntil {α : Type} {check : Op κ (Option α)} {a : α} {m : Machine κ} (timeout : Int)
    (hpoller : m.device.poller ≠ .looping)
    (hcheck : ∀ n, check.exec { m with device := { m.device with waiters := n } } =
      (.ok (some a), { m with device := { m.device with waiters := n } })) :
    ∃ deadline m', (Device.waitUntil timeout check).exec m = (.ok (some a, deadline), m') ∧
      m'.progress = m.progress ∧ m'.allocator = m.allocator := by
  set m₁ : Machine κ := { m with device := { m.device with waiters := m.device.waiters + 1 } } with hm₁
  obtain ⟨w, hstart, hunseen⟩ : ∃ w, (Wait.start timeout).exec m = (.ok w, m₁) ∧ w.seen = none ∧
      w.finished = false := ⟨_, rfl, rfl, rfl⟩
  have hnext : w.next.exec m₁ = (.ok (true, { w with seen := some m.device.passes }), m₁) := by
    unfold Wait.next
    rw [exec_bind_of_ok (exec_device m₁), hunseen.1]
    rfl
  have hloop : (Wait.loop check Device.passLimit w).exec m₁ =
      (.ok (some a, { w with seen := some m.device.passes }), m₁) := by
    have hlimit : Device.passLimit = (2 ^ 32 - 1) + 1 := by decide
    rw [hlimit, Wait.loop, exec_bind_of_ok hnext]
    dsimp only
    rw [exec_bind_of_ok (hcheck _)]
    rfl
  have hdone : ∃ m', (Wait.done { w with seen := some m.device.passes }).exec m₁ =
      (.ok { w with seen := some m.device.passes, finished := true }, m') ∧
      m'.progress = m.progress ∧ m'.allocator = m.allocator := by
    obtain ⟨m₂, hdismiss, hm₂⟩ : ∃ m₂, Wait.dismiss.exec m = (.ok (), m₂) ∧ m₂.progress = m.progress ∧
        m₂.allocator = m.allocator := by
      rw [Wait.dismiss, exec_bind_of_ok (exec_device m), if_neg hpoller]
      exact ⟨_, rfl, rfl, rfl⟩
    unfold Wait.done
    dsimp only
    rw [hunseen.2, Bool.not_false, if_pos rfl]
    have hclose : (modifyDevice fun d => { d with waiters := d.waiters - 1 }).exec m₁ = (.ok (), m) := rfl
    rw [exec_bind_of_ok hclose, exec_bind_of_ok (exec_device m)]
    by_cases hlast : m.device.waiters = 0
    · refine ⟨m₂, ?_, hm₂⟩
      rw [if_pos hlast, exec_bind_of_ok hdismiss]
      rfl
    · refine ⟨m, ?_, rfl, rfl⟩
      rw [if_neg hlast]
      rfl
  obtain ⟨m', hdone, hprogress, hallocator⟩ := hdone
  refine ⟨w.deadline, m', ?_, hprogress, hallocator⟩
  unfold Device.waitUntil
  rw [exec_bind_of_ok hstart, exec_bind_of_ok hloop]
  dsimp only
  have hdiscard : (discard (Wait.done { w with seen := some m.device.passes })).exec m₁ = (.ok (), m') := by
    exact (exec_map _ _ _).trans (by rw [hdone])
  rw [exec_bind_of_ok hdiscard]
  rfl

/-- If every use that matters is complete, looking comes true at once. -/
theorem exec_waitUsage {x : Nat} {readers : Bool} {m : Machine κ} {b : Buffer} (timeout : Int)
    (hpoller : m.device.poller ≠ .looping) (hb : m.allocator.buffers[x]? = some b)
    (hshared : b.has BufferFlag.shared = false)
    (hfinished : Usage.finished m.device.slots m.device.bound b.usage readers = true) :
    ∃ m', (Buffer.waitUsage x timeout readers).exec m = (.ok true, m') := by
  have hlook (m₁ : Machine κ) (hp : m₁.progress = m.progress) (ha : m₁.allocator = m.allocator) :
      (Buffer.usageFinished x readers).exec m₁ = (.ok true, m₁) := by
    rw [exec_usageFinished readers (b := b) (by rwa [ha])]
    show (Except.ok (Usage.finished m₁.progress.slots m₁.progress.bound b.usage readers), m₁) = _
    rw [hp]
    exact congrArg (fun r => (Except.ok r, m₁)) hfinished
  have hcheck (m₁ : Machine κ) (hp : m₁.progress = m.progress) (ha : m₁.allocator = m.allocator) :
      (do return if ← Buffer.usageFinished x readers then some () else none : Op κ (Option Unit)).exec m₁ =
        (.ok (some ()), m₁) := by
    rw [exec_bind_of_ok (hlook m₁ hp ha)]
    rfl
  have hseen (n : Nat) := hcheck { m with device := { m.device with waiters := n } } rfl rfl
  obtain ⟨deadline, m₁, hwait, hp, ha⟩ := exec_waitUntil timeout hpoller hseen
  have hbuffer : (buffer x : Op κ Buffer).exec m₁ = (.ok b, m₁) := by
    rw [exec_buffer, ha, hb, exec_require_some]
  unfold Buffer.waitUsage
  rw [exec_bind_of_ok hwait]
  dsimp only
  rw [exec_bind_of_ok hbuffer, exec_bind_of_ok (hlook m₁ hp ha), if_neg (by simp [hshared])]
  exact ⟨_, rfl⟩

/-- Clear bits are as good as a look, up to the two exceptions.  If no access to a buffer is pending, a look
finds the uses complete exactly if it finds those complete that were waited for before their work was submitted.
If no write is pending, a look at the writes finds them complete exactly if it finds those complete that were
waited for too early or hold the number of a read that was recorded when no write was pending.  A wait that
comes true because of the bits would have come true by looking wherever a look finds the uses complete. -/
theorem UseRun.shortcut_exact {m₀ m m' : Machine κ} {es₀ : List (Config κ × Action)} {x : Nat}
    {es : List (Machine κ × UseEvent)} {b : Buffer} (hfresh : Fresh m₀)
    (hreach : Run ⟨m₀, [], none⟩ es₀ ⟨m, [], none⟩) (hx : (⟨m, [], none⟩ : Config κ).InUse x)
    (hunused : m.usage x = []) (hr : UseRun m es m') (hb : m'.allocator.buffers[x]? = some b)
    (hshared : b.has BufferFlag.shared = false) :
    (b.access = 0 → ∀ readers, (Buffer.usageFinished x readers).exec m' = (.ok true, m') ↔
      ∀ e ∈ b.usage, e.queue.toNat < m'.device.bound → Usage.relevant readers e = true → Late es x e →
        Usage.isFinished m'.device.slots e = true) ∧
    (b.access &&& Access.write = 0 → ((Buffer.usageFinished x false).exec m' = (.ok true, m') ↔
      ∀ e ∈ b.usage, e.queue.toNat < m'.device.bound → e.write = true → Late es x e ∨ Borrowed es x e →
        Usage.isFinished m'.device.slots e = true)) ∧
    ∀ timeout readers, b.isQuiet readers = true →
      (∃ m₁, (Buffer.wait x timeout readers).exec m' = (.ok true, m₁)) ∧
      ((Buffer.usageFinished x readers).exec m' = (.ok true, m') →
        (∀ r m₁, (Buffer.waitUsage x timeout readers).exec m' = (.ok r, m₁) → r = true) ∧
        (m'.device.poller ≠ .looping →
          ∃ m₁, (Buffer.waitUsage x timeout readers).exec m' = (.ok true, m₁))) := by
  have hcsf : m.progress.generation = .csf := hreach.generation.trans hfresh.generation
  have hfits : m.progress.Fits := hreach.fits hfresh.fits
  obtain ⟨hcsf', hfits', hpending⟩ := hr.pending hcsf hfits hx hunused
  have hsorted : Usage.Sorted b.usage := by
    have husage : m'.usage x = b.usage := Machine.usage_of_account (Machine.accounts_of_buffer hb)
    rw [← husage]
    exact hpending.sorted
  have hcomplete {e : Usage} (h : e.Complete m'.progress.slots) :
      Usage.isFinished m'.device.slots e = true := Usage.isFinished_of_complete (hfits'.behind _) h
  refine ⟨fun hclear readers => ?_, fun hclear => ?_, fun timeout readers hquiet => ⟨?_, fun hlook => ?_⟩⟩
  · rw [usageFinished_iff hb hsorted]
    refine ⟨fun hall e he hlt hrelevant _ => hall e he hlt hrelevant, fun hlate e he hlt hrelevant => ?_⟩
    exact (hpending.complete_or_late hb hclear he hlt).elim hcomplete (hlate e he hlt hrelevant)
  · rw [usageFinished_iff hb hsorted]
    refine ⟨fun hall e he hlt hw _ => hall e he hlt hw, fun hexcept e he hlt hw => ?_⟩
    exact (hpending.complete_or_borrowed hb hclear he hlt hw).elim hcomplete (hexcept e he hlt hw)
  · -- the bits are looked at first
    have hbuffer (m₁ : Machine κ) (ha : m₁.allocator = m'.allocator) :
        (buffer x : Op κ Buffer).exec m₁ = (.ok b, m₁) := by
      rw [exec_buffer, ha, hb, exec_require_some]
    unfold Buffer.wait
    obtain ⟨m₁, hlog, ha⟩ : ∃ m₁, (debug "BO::Wait").exec m' = (.ok (), m₁) ∧
        m₁.allocator = m'.allocator := ⟨_, rfl, rfl⟩
    refine ⟨m₁, ?_⟩
    rw [exec_bind_of_ok hlog, exec_bind_of_ok (hbuffer m₁ ha), if_pos hquiet, exec_pure]
  · rw [usageFinished_iff hb hsorted] at hlook
    refine ⟨fun r m₁ he => ?_, fun hpoller => exec_waitUsage timeout hpoller hb hshared
      (Usage.finished_of_forall hlook)⟩
    -- a wait that gives up has looked a last time, and nothing was submitted on its way
    rcases waitUsage_ok he with ⟨-, -, m₂, b₂, hlinger, hb₂, hno⟩ | ⟨rfl, -⟩
    · exfalso
      obtain ⟨-, hforward, hsubmit⟩ := hlinger.forward hcsf' hfits'
      have hstays := (hlinger hcsf').steady x hpending.inUse
      obtain ⟨n, hn⟩ := hstays.account _ (Machine.accounts_of_buffer hb)
      have haccount : b₂.account = { b.account with gpuRefs := n } := by
        rw [Machine.accounts_of_buffer hb₂] at hn
        exact Option.some.inj hn
      have hunshared : b₂.has BufferFlag.shared = false :=
        (congrArg Account.shared haccount).trans hshared
      have husage : m₂.usage x = b.usage := Machine.usage_of_account hn
      refine absurd (Usage.finished_of_forall fun e he hlt hrelevant => ?_)
        (Bool.eq_false_iff.mp (hno hunshared))
      rw [husage] at he
      exact Usage.isFinished_of_le (hlook e he (Nat.lt_of_lt_of_eq hlt hforward.bound) hrelevant) (hforward.last _) (hsubmit _)
    · rfl

end Kernel

namespace Sample

-- a table of 256 slots is evaluated
set_option maxRecDepth 20000

/-- A region became a buffer of a device with a stream. -/
def pooled : Machine Bench := ((Allocator.wrapRegion ⟨⟨0, 0⟩, 0⟩ 4096 0 "sample").exec streamed).2

/-- The buffer was handed out. -/
def ready : Machine Bench := ((Allocator.handOut 0).exec pooled).2

/-- The buffer, with what is recorded of its uses. -/
def page (usage : List Usage) (access : UInt32) : Buffer :=
  { gpu := 0, cpu := some ⟨0, 0⟩, size := 4096, flags := 0, label := "sample", handle := 0, refs := 1,
    usage, access }

/-- A write was recorded. -/
def marked : Machine Bench := ((modifyBuffer 0 (·.markUsed ⟨0, true, 1⟩)).exec ready).2

/-- The work that writes was submitted. -/
def launched : Machine Bench := ((Device.submitStream 0 64 none 1).exec marked).2

/-- The work is complete. -/
def completed : Machine Bench := ((Device.advance 0 2).exec launched).2

/-- A wait came true. -/
def settled : Machine Bench := ((Buffer.wait 0 0 true).exec completed).2

/-- A read was recorded. -/
def remarked : Machine Bench := ((modifyBuffer 0 (·.markUsed ⟨0, false, 2⟩)).exec settled).2

/-- The work that reads was submitted. -/
def borrowed : Machine Bench := ((Device.submitStream 0 128 none 2).exec remarked).2

/-- A wait came true before the work that writes was submitted. -/
def hasty : Machine Bench := ((Buffer.wait 0 0 true).exec marked).2

/-- The work that writes was submitted after that. -/
def running : Machine Bench := ((Device.submitStream 0 64 none 1).exec hasty).2

theorem run_ready : ∃ es, Run ⟨grouped, [], none⟩ es ⟨ready, [], none⟩ := by
  have hbind : (Device.bindStream 0 0 4096).exec grouped = (.ok 0, streamed) := exec_of_value (by decide)
  obtain ⟨es, hrun⟩ := run_bindStream hbind
  have hwrap : Step ⟨streamed, [], none⟩ .other ⟨pooled, [], some 0⟩ :=
    .wrap (exec_of_value (a := 0) (by decide))
  have hready : Step ⟨pooled, [], some 0⟩ .other ⟨ready, [], none⟩ :=
    .handOut (exec_of_value (a := ()) (by decide))
  exact ⟨_, hrun.append (.cons hwrap (.single hready))⟩

theorem run_settled : UseRun ready [(ready, .mark 0 ⟨0, true, 1⟩), (marked, .other), (launched, .other),
    (completed, .wait 0 true true)] settled := by
  have hwait : (Buffer.wait 0 0 true).exec completed = (.ok true, settled) :=
    exec_of_value (by decide +kernel)
  exact .snoc (.snoc (.snoc (.snoc .nil
    (.mark (exec_of_value (a := ()) (by decide))))
    (.submit (exec_of_value (a := true) (by decide))))
    (.advance (exec_of_value (a := ()) (by decide))))
    (.wait hwait)

theorem run_borrowed : UseRun ready ([(ready, .mark 0 ⟨0, true, 1⟩), (marked, .other), (launched, .other),
    (completed, .wait 0 true true)] ++ [(settled, .mark 0 ⟨0, false, 2⟩)] ++ [(remarked, .other)]) borrowed :=
  .snoc (.snoc run_settled
    (.mark (exec_of_value (a := ()) (by decide +kernel))))
    (.submit (exec_of_value (a := true) (by decide +kernel)))

theorem run_running : UseRun ready ([(ready, .mark 0 ⟨0, true, 1⟩)] ++ [(marked, .wait 0 true true)] ++
    [(hasty, .other)]) running := by
  have hwait : (Buffer.wait 0 0 true).exec marked = (.ok true, hasty) := exec_of_value (by decide +kernel)
  exact .snoc (.snoc (.snoc .nil
    (.mark (exec_of_value (a := ()) (by decide))))
    (.wait hwait))
    (.submit (exec_of_value (a := true) (by decide +kernel)))

end Sample

set_option maxRecDepth 20000 in
/-- Once a wait has seen a write complete, the next wait comes true at once, and would if it looked. -/
theorem shortcut_exact_sample :
    Sample.settled.allocator.buffers[0]? = some (Sample.page [⟨0, true, 1⟩] 0) ∧
    (Buffer.usageFinished 0 true).exec Sample.settled = (.ok true, Sample.settled) ∧
    (∃ m, (Buffer.wait 0 0 true).exec Sample.settled = (.ok true, m)) ∧
    ∃ m, (Buffer.waitUsage 0 0 true).exec Sample.settled = (.ok true, m) := by
  obtain ⟨es₀, hreach⟩ := Sample.run_ready
  have hb : Sample.settled.allocator.buffers[0]? = some (Sample.page [⟨0, true, 1⟩] 0) := by
    decide +kernel
  obtain ⟨hclear, -, hquiet⟩ := UseRun.shortcut_exact Sample.fresh_grouped hreach
    ⟨{ handle := 0, refs := 1 }, by decide, by decide⟩ (by decide) Sample.run_settled hb (by decide)
  -- the only wait came after the work was submitted
  have hlate (e : Usage) (he : e ∈ (Sample.page [⟨0, true, 1⟩] 0).usage) :
      ¬Late [(Sample.ready, .mark 0 ⟨0, true, 1⟩), (Sample.marked, .other), (Sample.launched, .other),
        (Sample.completed, .wait 0 true true)] 0 e := by
    obtain rfl := List.mem_singleton.mp he
    rintro ⟨m, readers, hmem, -, -, hnew⟩
    obtain ⟨rfl, -⟩ : m = Sample.completed ∧ readers = true := by simpa using hmem
    exact absurd hnew (by decide +kernel)
  have hlook := (hclear rfl true).mpr fun e he _ _ h => absurd h (hlate e he)
  obtain ⟨hfirst, hagree⟩ := hquiet 0 true (by decide)
  exact ⟨hb, hlook, hfirst, (hagree hlook).2 (by decide +kernel)⟩

set_option maxRecDepth 20000 in
/-- A wait before the work is submitted comes true and clears the bits.  The work that writes the buffer runs
then, and the next wait comes true at once, and would not if it looked. -/
theorem shortcut_inexact_late :
    ∃ es₀ es b, Fresh Sample.grouped ∧ Run ⟨Sample.grouped, [], none⟩ es₀ ⟨Sample.ready, [], none⟩ ∧
      (⟨Sample.ready, [], none⟩ : Config Bench).InUse 0 ∧ Sample.ready.usage 0 = [] ∧
      UseRun Sample.ready es Sample.running ∧ Sample.running.allocator.buffers[0]? = some b ∧
      b.has BufferFlag.shared = false ∧ b.access = 0 ∧
      (Buffer.usageFinished 0 true).exec Sample.running = (.ok false, Sample.running) ∧
      ((Buffer.wait 0 0 true).exec Sample.running).1.toOption = some true ∧
      ((Buffer.waitUsage 0 0 true).exec Sample.running).1.toOption = some false := by
  obtain ⟨es₀, hreach⟩ := Sample.run_ready
  have hb : Sample.running.allocator.buffers[0]? = some (Sample.page [⟨0, true, 1⟩] 0) := by
    decide +kernel
  have hlook : (Buffer.usageFinished 0 true).exec Sample.running = (.ok false, Sample.running) := by
    rw [exec_usageFinished true hb]
    exact congrArg (fun r => (Except.ok r, Sample.running)) (by decide +kernel)
  exact ⟨es₀, _, _, Sample.fresh_grouped, hreach, ⟨{ handle := 0, refs := 1 }, by decide, by decide⟩,
    by decide, Sample.run_running, hb, by decide, by decide, hlook, by decide +kernel, by decide +kernel⟩

set_option maxRecDepth 20000 in
/-- A read that is recorded after the writes before it were seen complete lends its number to their entry.
No write is pending then, but the entry writes and is not complete.  So a wait for writes comes true at once,
and would not if it looked. -/
theorem shortcut_inexact_borrowed :
    ∃ es₀ es b, Fresh Sample.grouped ∧ Run ⟨Sample.grouped, [], none⟩ es₀ ⟨Sample.ready, [], none⟩ ∧
      (⟨Sample.ready, [], none⟩ : Config Bench).InUse 0 ∧ Sample.ready.usage 0 = [] ∧
      UseRun Sample.ready es Sample.borrowed ∧ Sample.borrowed.allocator.buffers[0]? = some b ∧
      b.has BufferFlag.shared = false ∧ b.access &&& Access.write = 0 ∧
      (Buffer.usageFinished 0 false).exec Sample.borrowed = (.ok false, Sample.borrowed) ∧
      ((Buffer.wait 0 0 false).exec Sample.borrowed).1.toOption = some true ∧
      ((Buffer.waitUsage 0 0 false).exec Sample.borrowed).1.toOption = some false := by
  obtain ⟨es₀, hreach⟩ := Sample.run_ready
  have hb : Sample.borrowed.allocator.buffers[0]? = some (Sample.page [⟨0, true, 2⟩] 1) := by
    decide +kernel
  have hlook : (Buffer.usageFinished 0 false).exec Sample.borrowed = (.ok false, Sample.borrowed) := by
    rw [exec_usageFinished false hb]
    exact congrArg (fun r => (Except.ok r, Sample.borrowed)) (by decide +kernel)
  exact ⟨es₀, _, _, Sample.fresh_grouped, hreach, ⟨{ handle := 0, refs := 1 }, by decide, by decide⟩,
    by decide, Sample.run_borrowed, hb, by decide, by decide, hlook, by decide +kernel, by decide +kernel⟩

end Mali
