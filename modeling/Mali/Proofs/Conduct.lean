import Mali.Proofs.ChronicleRuns
import Mali.Proofs.Sessions

/-!
# How the steps of a program behave

Runs through the cache and runs that keep a journal ask more of a step than what it does: the clock does not go back,
the table of handles keeps its rules, and what leaves every account alone leaves the cards alone too and writes about
imports only.  The operations of a program come to such steps and to no others, if no call takes the clock of the
kernel back and duplicates are descriptors.

One thing is left to those who submit batches: a batch is submitted while the buffers that it uses are in use, and with
them the tiler heap.  Nothing else than a submission collects a batch, and it does so at once.

* `Regular`, `Demure`: changes that keep the rules, and those that the cache and the journal do not notice.
* `Proper`, `ProperRun`: steps and runs of which this is known.
* `Machine.Backs`, `usage_collect`: a batch records uses only on its buffers and on the tiler heap.
* `operating_behaves`: everything that a program asks for is a proper run.
* `submit_behaves`: the batch that is collected is the one that was submitted.
* `OnwardSession.runs`: so a session is a run of the cache, and one that keeps a journal.
-/

namespace Mali

open Op

variable {κ : Type} [Kernel κ]

/-! ## Changes that keep the rules -/

/-- Kernels whose clock no call takes back. -/
class Forward (κ : Type) [Kernel κ] : Prop where
  now_le (k : κ) (c : Syscall) : Kernel.now k ≤ Kernel.now (Kernel.call k c).2

/-- The clock does not go back. -/
def Onward (m m' : Machine κ) : Prop := Kernel.now m.kernel ≤ Kernel.now m'.kernel

instance : OfFiles (Onward (κ := κ)) where
  refl _ := Nat.le_refl _
  trans := Nat.le_trans
  of_files hk _ := Nat.le_of_eq (congrArg Kernel.now hk.symm)

/-- The clock does not go back, and the table of handles keeps its rules. -/
structure Regular (m m' : Machine κ) : Prop where
  clock : Onward m m'
  rules : Lawful m m'

instance : OfFiles (Regular (κ := κ)) where
  refl m := ⟨Journey.refl m, Journey.refl m⟩
  trans h h' := ⟨Journey.trans h.clock h'.clock, Journey.trans h.rules h'.rules⟩
  of_files hk ht := ⟨OfFiles.of_files hk ht, .of_table ht⟩

theorem regular_allocHandle (va : UInt64) {fd : Int} (hfd : fd ≠ freedFd) :
    Keeps (Regular (κ := κ)) (Device.allocHandle va fd) := fun m hs =>
  ⟨keeps_allocHandle_of (R := Onward) (fun _ => keeps_modify fun _ => Nat.le_refl _) va fd m hs,
    lawful_allocHandle va hfd m hs⟩

section Forward

variable [Forward κ]

theorem onward_call (c : Syscall) : Keeps (Onward (κ := κ)) (call c) := fun m _ => Forward.now_le m.kernel c

instance : Closes (Onward (κ := κ)) where
  of_close _ := onward_call _

instance : Tolerant (Regular (κ := κ)) where
  of_call c _ m hs := ⟨onward_call c m hs, id⟩

theorem regular_freeHandle (handle : Int) : Keeps (Regular (κ := κ)) (Device.freeHandle handle) := fun m hs =>
  ⟨keeps_freeHandle_of (R := Onward) (fun _ => keeps_modify fun _ => Nat.le_refl _) handle m hs,
    lawful_freeHandle handle m hs⟩

end Forward

/-! ## Changes that go unnoticed -/

/-- Neither the cache nor the journal notices anything, but for lines about imports. -/
structure Demure (m m' : Machine κ) : Prop extends Regular m m' where
  cards : SameCards m m'
  lines : Murmurs m m'

namespace Demure

variable {m m' : Machine κ}

theorem of_silent (hr : Regular m m') (hc : SameCards m m') (hw : Writes [] m m') : Demure m m' :=
  ⟨hr, hc, [], hw, List.forall_mem_nil _⟩

/-- The allocator stays as it is. -/
theorem of_regular (hr : Regular m m') (ha : SameAllocator m m') : Demure m m' :=
  of_silent hr (OfAllocator.of_allocator ha) (.of_allocator ha)

instance : OfTables (Demure (κ := κ)) where
  refl m := of_regular (Journey.refl m) rfl
  trans h h' := by
    obtain ⟨ls, hw, hls⟩ := h.lines
    obtain ⟨ls', hw', hls'⟩ := h'.lines
    exact ⟨Journey.trans h.toRegular h'.toRegular, h.cards.trans h'.cards, ls' ++ ls, hw.trans hw',
      List.forall_mem_append.mpr ⟨hls', hls⟩⟩
  of_tables hk ha ht := of_regular (OfFiles.of_files hk ht) ha

end Demure

theorem demure_modifyAllocator {f : Allocator → Allocator} (hs : ∀ a, (f a).shelves = a.shelves)
    (hb : ∀ a, (f a).buffers = a.buffers) (hj : ∀ a, (f a).journal = a.journal) :
    Keeps (Demure (κ := κ)) (modifyAllocator f) := fun m h =>
  .of_silent ⟨Nat.le_refl _, id⟩ (cards_modifyAllocator hs hb m h)
    (silent_modifyAllocator (fun a => congrArg (·.2.1) (hs a)) (fun a => by rw [hb]) hj m h)

/-- A line about an import is about no buffer. -/
theorem demure_write (b : Buffer) (fd : Int) (imported : Option (Int × Bool)) :
    Keeps (Demure (κ := κ)) (Allocator.write "import" b fd imported) := by
  refine (faultless_write _ b fd imported).keeps fun {m m'} _ he => ?_
  have hregular : Regular m m' := ⟨(keeps_write (R := Onward) _ b fd imported).ok he,
    (keeps_write (R := Lawful) _ b fd imported).ok he⟩
  refine ⟨hregular, (cards_write _ b fd imported).ok he, ?_⟩
  unfold Allocator.write at he
  rw [exec_bind_of_ok (exec_allocator m)] at he
  split at he
  · cases he
    exact ⟨[], Journey.refl _, List.forall_mem_nil _⟩
  · cases he
    exact ⟨[⟨none, _⟩], ⟨rfl, List.prefix_refl _, rfl, List.forall_mem_singleton.mpr rfl⟩,
      List.forall_mem_singleton.mpr rfl⟩
  · exact ⟨[], (keeps_error _ _).ok he, List.forall_mem_nil _⟩

section Forward

variable [Forward κ]

theorem demure_call (c : Syscall) : Keeps (Demure (κ := κ)) (call c) := fun m hs =>
  .of_regular ⟨onward_call c m hs, id⟩ rfl

instance : Tolerant (Demure (κ := κ)) where
  of_call c _ := demure_call c

instance : Closes (Demure (κ := κ)) where
  of_close _ := demure_call _

/-- A file gets a handle with the descriptor that it was duplicated to. -/
theorem demure_importFile (hdup : ∀ (k : κ) (fd d : Int), (Kernel.call k (.dup fd)).1.result = .ok d → 0 ≤ d)
    (fd : Int) : Keeps (Demure (κ := κ)) (Device.importFile fd) := by
  refine keeps_importFile_of_dup (fun va d ⟨k, hd⟩ m hs => ?_) fun k p => keeps_modify fun m => ?_
  · have hne : d ≠ freedFd := by
      rintro rfl
      exact absurd (hdup k fd _ hd) (by decide)
    exact .of_regular (regular_allocHandle va hne m hs) (keeps_allocHandle va d m hs)
  · exact .of_regular ⟨Nat.le_refl _, fun hm => HandleTable.check_setMapping hm k p⟩ rfl

end Forward

/-! ## Proper steps -/

/-- Beside what a step does, the clock does not go back, the table of handles keeps its rules, and what leaves every
account alone goes unnoticed.  Something is known of a batch that is collected. -/
structure Proper (Q : Machine κ → Nat → Nat → Prop) (c : Config κ) (act : Action) (c' : Config κ) : Prop
    extends Regular c.machine c'.machine where
  demure : act = .other → c'.held = c.held → Quiet c.machine c'.machine → Demure c.machine c'.machine
  collected : ∀ id k, act = .collect id k → Q c.machine id k

/-- Proper steps one after the other. -/
inductive ProperRun (Q : Machine κ → Nat → Nat → Prop) : Config κ → List (Config κ × Action) → Config κ → Prop
  | nil (c : Config κ) : ProperRun Q c [] c
  | cons {c c₁ c' : Config κ} {a : Action} {es : List (Config κ × Action)} (hs : Step c a c₁) (hp : Proper Q c a c₁)
    (hr : ProperRun Q c₁ es c') : ProperRun Q c ((c, a) :: es) c'

section

variable {Q Q' : Machine κ → Nat → Nat → Prop} {c c₁ c' : Config κ} {act : Action} {es es' : List (Config κ × Action)}

theorem Step.proper [Forward κ] (h : Step c act c')
    (hquiet : act = .other → c'.held = c.held → Quiet c.machine c'.machine → Demure c.machine c'.machine)
    (hcollected : ∀ id k, act = .collect id k → Q c.machine id k) : Proper Q c act c' where
  toRegular := h.keeps regular_freeHandle (fun va => regular_allocHandle va (by decide))
    fun hact hheld hq => (hquiet hact hheld hq).toRegular
  demure := hquiet
  collected := hcollected

namespace ProperRun

theorem single (hs : Step c act c') (hp : Proper Q c act c') : ProperRun Q c [(c, act)] c' := .cons hs hp (.nil _)

theorem append (h : ProperRun Q c es c₁) (h' : ProperRun Q c₁ es' c') : ProperRun Q c (es ++ es') c' := by
  induction h with
  | nil => exact h'
  | cons hs hp _ ih => exact .cons hs hp (ih h')

theorem mono (h : ProperRun Q c es c') (hQ : ∀ m id k, Q m id k → Q' m id k) : ProperRun Q' c es c' := by
  induction h with
  | nil => exact .nil _
  | cons hs hp _ ih =>
    exact .cons hs { hp with collected := fun id k hact => hQ _ _ _ (hp.collected id k hact) } ih

theorem run (h : ProperRun Q c es c') : Run c es c' := by
  induction h with
  | nil => exact .nil _
  | cons hs _ _ ih => exact .cons hs ih

end ProperRun

/-- A pass is proper: between its steps there are plain calls only. -/
theorem Pass.proper [Forward κ] {reported : Nat → Option UInt64} (h : Pass reported c es c') : ProperRun Q c es c' := by
  induction h with
  | nil => exact .nil _
  | quiet hp _ ih =>
    exact .cons (.quiet hp.quiet) (Step.proper (.quiet hp.quiet) (fun _ _ _ => hp Demure) nofun) ih
  | advance _ he _ ih => exact .cons (.advance he) (Step.proper (.advance he) nofun nofun) ih
  | fire he _ ih => exact .cons (.fire he) (Step.proper (.fire he) nofun nofun) ih

end

/-! ## What a batch uses -/

/-- The uses that are recorded on a buffer stay as they are. -/
def SameUses (x : Nat) (m m' : Machine κ) : Prop := m'.usage x = m.usage x

instance (x : Nat) : OfAllocator (SameUses (κ := κ) x) where
  refl _ := rfl
  trans h h' := Eq.trans h' h
  of_allocator ha := by rw [SameUses, Machine.usage, Machine.storage, ha, Machine.usage, Machine.storage]

section Uses

variable {m m' : Machine κ} {id k x : Nat} {b : Batch} {u : Unit}

omit [Kernel κ] in
theorem sameUses_useBuffers {ys : List Nat} (hx : x ∉ ys) (deps : List Usage) (v : Usage) :
    Keeps (SameUses (κ := κ) x) (Submitter.useBuffers deps v ys) := by
  induction ys generalizing deps with
  | nil => exact keeps_pure deps
  | cons y ys ih =>
    rw [List.mem_cons, not_or] at hx
    obtain ⟨hne, hys⟩ := hx
    refine keeps_bind (keeps_bind (keeps_buffer y) fun _ => keeps_bind ?_ fun _ => keeps_pure _) fun deps => ih hys deps
    refine (faultless_modifyBuffer y _).keeps fun {m m'} _ he => ?_
    have hedit : Edits y (fun a => { a with usage := Usage.record a.usage v }) m m' := .of_modifyBuffer he fun _ => rfl
    rw [SameUses, Machine.usage, hedit.account_of_ne hne, Machine.usage]

omit [Kernel κ] in
/-- By induction on the types of usage. -/
theorem sameUses_recordUses {ts : List UsageType} (hb : m.batches[k]? = some b) (hx : ∀ t, (t, x) ∉ b.uses)
    (he : (Submitter.recordUses id k ts).exec m = (.ok u, m')) : SameUses x m m' := by
  induction ts generalizing m b with
  | nil =>
    cases he
    rfl
  | cons t ts ih =>
    obtain ⟨s, q, v, deps, m₁, m₂, m₃, hs, hq, h₁, h₂, h₃, hrest⟩ := recordUses_cons_ok hb he
    have hone := recordUse_ok hb hs hq (fun i _ => (UInt32.ofNat i).toNat_lt) h₁ h₂ h₃
    have hlt : k < m.batches.length := (List.getElem?_eq_some_iff.mp hb).1
    have hused : x ∉ b.used t := by
      intro hmem
      obtain ⟨⟨t', y⟩, hfilter, rfl⟩ := List.mem_map.mp hmem
      exact hx t' (List.mem_filter.mp hfilter).1
    have hfirst : SameUses x m m₃ := Journey.trans ((keeps_queueUsage _ _).ok h₁)
      (Journey.trans ((sameUses_useBuffers hused _ _).ok h₂) ((keeps_modifyBatch _ _).ok h₃))
    have hb₃ : m₃.batches[k]? = some (b.withDeps t.isFragment deps) := by
      rw [hone.batches, List.getElem?_set_self hlt]
    exact Journey.trans hfirst (ih hb₃ (by rwa [Batch.withDeps_uses]) hrest)

omit [Kernel κ] in
theorem sameUses_recordHeap (hx : ∀ s, m.submitters[id]? = some s → s.heap ≠ some x)
    (he : (Submitter.recordHeap id k).exec m = (.ok u, m')) : SameUses x m m' := by
  unfold Submitter.recordHeap at he
  obtain ⟨s, hs, he⟩ := bind_getSubmitter_ok he
  split at he
  · cases he
    rfl
  · rename_i heap hheap
    have hne : x ∉ [heap] := by
      rw [List.mem_singleton]
      rintro rfl
      exact hx s hs hheap
    have hone (deps : List Usage) (v : Usage) : Keeps (SameUses (κ := κ) x) (Submitter.useBuffer deps heap v) := by
      have h := sameUses_useBuffers (κ := κ) hne deps v
      unfold Submitter.useBuffers Submitter.useBuffers at h
      rwa [bind_pure] at h
    obtain ⟨_, -, he⟩ := bind_getBatch_ok he
    obtain ⟨q, -, he⟩ := bind_require_ok he
    obtain ⟨v, m₁, h₁, he⟩ := bind_ok he
    obtain ⟨deps, m₂, h₂, he⟩ := bind_ok he
    exact Journey.trans ((keeps_queueUsage _ _).ok h₁)
      (Journey.trans ((hone _ _).ok h₂) ((keeps_modifyBatch _ _).ok he))

omit [Kernel κ] in
/-- Collecting records uses only on the buffers of the batch, and on the tiler heap of the submission context. -/
theorem usage_collect (hb : m.batches[k]? = some b) (hx : ∀ t, (t, x) ∉ b.uses)
    (hheap : ∀ s, m.submitters[id]? = some s → s.heap ≠ some x)
    (he : (Submitter.collect id k).exec m = (.ok u, m')) : m'.usage x = m.usage x := by
  obtain ⟨_, m₂, hgather, hclean⟩ := bind_ok he
  obtain ⟨m₁, huses, hrecord⟩ := gather_recorded hb hgather
  have hbatch := Machine.number_batch id hb
  obtain ⟨_, hcollects⟩ := recordUses_ok hbatch (fun i _ => (UInt32.ofNat i).toNat_lt) huses
  -- numbering a batch leaves the tiler heap of its submission context alone
  have hheap₁ (s : Submitter) (hs : m₁.submitters[id]? = some s) : s.heap ≠ some x := by
    rw [hcollects.submitters, Machine.number, List.getElem?_modify_eq] at hs
    obtain ⟨s₀, hs₀, rfl⟩ := Option.map_eq_some_iff.mp hs
    exact hheap s₀ hs₀
  have hrecorded : SameUses x (m.number id k b) m₁ := sameUses_recordUses hbatch hx huses
  exact Journey.trans hrecorded (Journey.trans (sameUses_recordHeap hheap₁ hrecord) ((keeps_cleanDeps k).ok hclean))

end Uses

/-- The buffers that a batch uses are in use, and so is the tiler heap of the submission context that it runs on. -/
structure Machine.Backs (m : Machine κ) (id k : Nat) : Prop where
  uses : ∀ b, m.batches[k]? = some b → ∀ t x, (t, x) ∈ b.uses → (⟨m, [], none⟩ : Config κ).InUse x
  heap : ∀ s, m.submitters[id]? = some s → ∀ x, s.heap = some x → (⟨m, [], none⟩ : Config κ).InUse x

omit [Kernel κ] in
theorem Machine.Backs.of_same {m m' : Machine κ} {id k : Nat} (h : m.Backs id k) (hsame : SameInside m m') :
    m'.Backs id k := by
  have hstorage : m'.storage = m.storage := congrArg Allocator.storage hsame.allocator
  have huse {x : Nat} (hx : (⟨m, [], none⟩ : Config κ).InUse x) : (⟨m', [], none⟩ : Config κ).InUse x := by
    obtain ⟨a, ha, hrest⟩ := hx
    exact ⟨a, (congrArg (·.accounts[x]?) hstorage).trans ha, hrest⟩
  exact ⟨fun b hb t x hx => huse (h.uses b (hsame.batches ▸ hb) t x hx),
    fun s hs x hx => huse (h.heap s (hsame.submitters ▸ hs) x hx)⟩

/-- So a batch whose buffers are in use records none on others. -/
theorem Machine.Backs.usage {c c' : Config κ} {id k : Nat} (h : c.machine.Backs id k) (hs : Step c (.collect id k) c')
    {x : Nat} (hx : ¬c.InUse x) : c'.machine.usage x = c.machine.usage x := by
  cases hs with
  | collect hb _ he =>
    exact usage_collect hb (fun t ht => hx (h.uses _ hb t x ht)) (fun s hs hheap => hx (h.heap s hs x hheap)) he

/-! ## Runs of the journal and of the cache -/

namespace ProperRun

variable {Q : Machine κ → Nat → Nat → Prop} {c c' : Config κ} {es : List (Config κ × Action)}

/-- A proper run keeps a journal. -/
theorem journal (h : ProperRun Q c es c') (hcsf : c.progress.generation = .csf) : JournalRun c es c' := by
  induction h with
  | nil c => exact .nil c
  | cons hs hp _ ih =>
    exact .cons (.stream hcsf hs) (fun hact hheld hq => (hp.demure hact hheld hq).lines)
      (ih (hs.generation.trans hcsf))

/-- It is a run through the cache if batches are collected while their buffers are in use. -/
theorem shelf (h : ProperRun Machine.Backs c es c') (hcsf : c.progress.generation = .csf) : ShelfRun c es c' := by
  induction h with
  | nil c => exact .nil c
  | cons hs hp _ ih =>
    refine .cons (.stream hcsf hs) ?_ (ih (hs.generation.trans hcsf))
    exact {
      clock := hp.clock
      cards := fun hact hheld hq => (hp.demure hact hheld hq).cards
      rules := fun _ _ => hp.rules
      uses := by
        rintro id k rfl x hx
        exact (hp.collected id k rfl).usage hs hx }

end ProperRun

/-! ## Freeing what is cached -/

/-- Buffers are freed, or the allocator stays as it is. -/
def Culls (m m' : Machine κ) : Prop :=
  m.storage.frees ≤ m'.storage.frees ∧ (m'.storage.frees = m.storage.frees → SameAllocator m m')

omit [Kernel κ] in
instance : Journey (Culls (κ := κ)) where
  refl _ := ⟨Nat.le_refl _, fun _ => rfl⟩
  trans h h' := ⟨Nat.le_trans h.1 h'.1, fun heq =>
    have hfirst := Nat.le_antisymm (Nat.le_trans h'.1 (Nat.le_of_eq heq)) h.1
    Journey.trans (h.2 hfirst) (h'.2 (heq.trans hfirst.symm))⟩

theorem culls_evict (x : Nat) : Keeps (Culls (κ := κ)) (Allocator.evict x) := by
  refine (faultless_evict x).keeps fun {m m'} _ he => ?_
  obtain ⟨_, m₁, h₁, he⟩ := bind_ok he
  obtain ⟨_, m₂, h₂, he⟩ := bind_ok he
  obtain ⟨_, _, -, -, -, -, huncached⟩ := uncache_ok h₁
  obtain ⟨_, -, -, -, hfreed⟩ := free_ok he
  have hcount : m₂.storage = m₁.storage := by
    cases h₂
    rfl
  have hfrees : m'.storage.frees = m.storage.frees + 1 := by rw [hfreed, hcount, huncached]
  exact ⟨by omega, fun h => absurd h (by omega)⟩

/-- What frees no buffer leaves the allocator as it is. -/
theorem Culls.demure {m m' : Machine κ} (h : Culls m m') (hr : Regular m m') (hq : Quiet m m') : Demure m m' :=
  .of_regular hr (h.2 (congrArg Storage.frees hq.storage))

/-! ## What operations come to -/

/-- On a command stream device an operation is a proper run.  Afterwards one buffer is still to be handed out, or
none. -/
def Behaves (Q : Machine κ → Nat → Nat → Prop) (held : Option Nat) (m m' : Machine κ) : Prop :=
  m.device.generation = .csf → ∃ es, ProperRun Q ⟨m, [], none⟩ es ⟨m', [], held⟩

variable {Q Q' : Machine κ → Nat → Nat → Prop}

namespace Behaves

variable {m m₁ m' : Machine κ} {held : Option Nat} {act : Action}

theorem mono (h : Behaves Q held m m') (hQ : ∀ m id k, Q m id k → Q' m id k) : Behaves Q' held m m' := fun hcsf =>
  (h hcsf).imp fun _ hrun => hrun.mono hQ

theorem next (h : Behaves Q none m m₁) (h' : Behaves Q held m₁ m') : Behaves Q held m m' := by
  intro hcsf
  obtain ⟨es, hrun⟩ := h hcsf
  obtain ⟨es', hrun'⟩ := h' (hrun.run.generation.trans hcsf)
  exact ⟨es ++ es', hrun.append hrun'⟩

instance : Journey (Behaves Q none) where
  refl _ _ := ⟨[], .nil _⟩
  trans := next

variable [Forward κ]

theorem of_step (hs : Step ⟨m, [], none⟩ act ⟨m', [], held⟩)
    (hquiet : act = .other → held = none → Quiet m m' → Demure m m')
    (hcollected : ∀ id k, act = .collect id k → Q m id k) : Behaves Q held m m' :=
  fun _ => ⟨_, .single hs (hs.proper hquiet hcollected)⟩

theorem of_demure (hq : Quiet m m') (hd : Demure m m') : Behaves Q none m m' :=
  of_step (.quiet hq) (fun _ _ _ => hd) nofun

instance : OfTrace (Behaves Q none) where
  of_trace hk hc hd ha hs hb := of_demure (Inward.of_eq hd ha hs hb) (OfTrace.of_trace hk hc hd ha hs hb)

instance : Plain (Behaves Q none) where
  of_plain c hc m hs := of_demure (keeps_call c m hs) (Plain.of_plain c hc m hs)

instance : Remaps (Behaves Q none) where
  of_mmap _ _ _ _ _ m hs := of_demure (keeps_call _ m hs) (Remaps.of_mmap _ _ _ _ _ m hs)
  of_munmap _ m hs := of_demure (keeps_call _ m hs) (Remaps.of_munmap _ m hs)

end Behaves

section Forward

variable [Forward κ]

theorem behaves_of_demure {α : Type} {x : Op κ α} (hq : Keeps Quiet x) (hd : Keeps Demure x) :
    Keeps (Behaves Q none) x := fun m hs => .of_demure (hq m hs) (hd m hs)

theorem behaves_modifyDevice {f : Device → Device} (hp : ∀ d, (f d).progress = d.progress)
    (hh : ∀ d, (f d).handles = d.handles) : Keeps (Behaves (κ := κ) Q none) (modifyDevice f) :=
  behaves_of_demure (quiet_modifyDevice hp fun d _ _ ho => by rwa [hh d]) (keeps_editDevice hh)

/-! ### Waits and the search for a buffer -/

theorem behaves_evictOld : Keeps (Behaves (κ := κ) Q none) Allocator.evictOld :=
  faultless_evictOld.keeps fun he => .of_step (.evictStale he) (fun _ _ hq =>
    Culls.demure ((keeps_evictOld culls_evict).ok he)
      ((keeps_evictOld (keeps_evict (keeps_free regular_freeHandle))).ok he) hq) nofun

theorem behaves_evictBuckets (indices : List Nat) : Keeps (Behaves (κ := κ) Q none) (Allocator.evictBuckets indices) :=
  (faultless_evictBuckets indices).keeps fun he => .of_step (.evictAll he) (fun _ _ hq =>
    Culls.demure ((keeps_evictBuckets culls_evict indices).ok he)
      ((keeps_evictBuckets (keeps_evict (keeps_free regular_freeHandle)) indices).ok he) hq) nofun

theorem behaves_handleEvents : Keeps (Behaves (κ := κ) Q none) Device.handleEvents := by
  intro m hs hcsf
  have hsame : Device.handleEvents.exec m = Device.handleStreamEvents.exec m := exec_handleEvents_of_csf hcsf
  rw [hsame] at hs ⊢
  obtain ⟨fine, he⟩ := faultless_handleStreamEvents.ok hs
  obtain ⟨es, hpass, -⟩ := handleStreamEvents_ok he
  exact ⟨es, hpass.proper⟩

omit [Forward κ] in
theorem behaves_isIdle (x : Nat) (patient : Bool) : Keeps (Behaves (κ := κ) Q none) (Allocator.isIdle x patient) := by
  intro m _ hcsf
  rw [exec_isIdle_of_csf hcsf]
  exact ⟨[], .nil _⟩

theorem behaves_reuse (x : Nat) (label : String) :
    Hands (Behaves Q) (fun _ => some x) (Allocator.reuse x label : Op κ Unit) := by
  intro m m' r he hr
  obtain ⟨u, rfl⟩ := (faultless_reuse x label).value he hr
  exact .of_step (.reuse he) nofun nofun

/-- A new region is asked for, and then becomes a buffer. -/
theorem behaves_allocate (size : Int64) (flags : UInt32) (label : String) :
    Hands (Behaves Q) some (Allocator.allocate size flags label : Op κ Nat) := by
  intro m m' r he hr
  have hask (size : Int64) (wish : UInt32) (f : UInt64) : Keeps (Behaves (κ := κ) Q none) (Device.alloc size wish f) :=
    behaves_of_demure (keeps_alloc _ _ _) (keeps_alloc _ _ _)
  have hquiet : Keeps (Quiet (κ := κ)) (modifyAllocator fun a => { a with allocations := a.allocations + 1 }) :=
    quiet_modifyAllocator fun _ => rfl
  have hdemure : Keeps (Demure (κ := κ)) (modifyAllocator fun a => { a with allocations := a.allocations + 1 }) :=
    demure_modifyAllocator (fun _ => rfl) (fun _ => rfl) fun _ => rfl
  obtain ⟨wish, memFlags, ⟨f, h₁, rfl⟩ | ⟨region, x, m₁, m₂, h₁, h₂, h₃, rfl⟩⟩ := allocate_survives he hr
  · exact (hask _ _ _ m).survives h₁ trivial
  have hwrap : Step ⟨m₁, [], none⟩ .other ⟨m₂, [], some x⟩ := .wrap h₂
  have hcount : Step ⟨m₂, [], some x⟩ .other ⟨m', [], some x⟩ := .quiet (hquiet.ok h₃)
  exact Behaves.next ((hask _ _ _).ok h₁) fun _ =>
    ⟨_, .cons hwrap (hwrap.proper nofun nofun) (.single hcount (hcount.proper (fun _ _ _ => hdemure.ok h₃) nofun))⟩

theorem proceeding_behaves : Proceeding (Behaves (κ := κ) Q) where
  next := .next
  editDevice hf hp _ _ _ := behaves_modifyDevice hp fun d => congrArg (·.2.1) (hf d)
  countMiss := behaves_of_demure (quiet_modifyAllocator fun _ => rfl)
    (demure_modifyAllocator (fun _ => rfl) (fun _ => rfl) fun _ => rfl)
  evictOld := behaves_evictOld
  evictBuckets := behaves_evictBuckets
  handleEvents := behaves_handleEvents
  isIdle := behaves_isIdle
  reuse x label := behaves_reuse x label
  allocate size flags label _ := behaves_allocate size flags label

/-! ### Streams -/

/-- What a step takes off a slot runs after it. -/
theorem behaves_runCallbacks {x : Op κ (List Callback)} {m : Machine κ} {act : Action} (hx : Faultless x)
    (hs : ∀ {m' taken}, x.exec m = (.ok taken, m') → Takes act taken m m') (hother : act ≠ .other)
    (hcollect : ∀ id k, act ≠ .collect id k) : KeepsAt (Behaves Q none) (x >>= Device.runCallbacks) m := by
  refine keepsAt_of_exec fun {r m'} he hr _ => ?_
  obtain ⟨taken, m₁, es, -, -, hstep, hpass⟩ := bind_runCallbacks_survives hx hs he hr
  have hproper : Proper Q _ act _ := hstep.proper (fun h => absurd h hother) fun id k h => absurd h (hcollect id k)
  exact ⟨_, .cons hstep hproper hpass.proper⟩

theorem behaves_modifyContext (id : Nat) (f : Context → Context) :
    Keeps (Behaves (κ := κ) Q none) (Device.modifyContext id f) := behaves_modifyDevice (fun _ => rfl) fun _ => rfl

theorem behaves_modifyStream (id : Nat) {f : Stream → Stream} (hf : ∀ s, (f s).slot = s.slot) :
    Keeps (Behaves (κ := κ) Q none) (Device.modifyStream id f) :=
  behaves_of_demure (quiet_modifyStream id hf) (keeps_editDevice fun _ => rfl)

theorem behaves_bindStream (ctx : Nat) (va : UInt64) (size : UInt32) :
    Keeps (Behaves (κ := κ) Q none) (Device.bindStream ctx va size) := by
  rw [Device.bindStream_eq]
  exact keeps_bind (keeps_prepareRing_of (behaves_modifyContext ctx _) va size) fun s =>
    (faultless_attachStream s).keeps fun he => .of_step (.attach he) nofun nofun

theorem streaming_behaves : Streaming (.wide True (∀ m id k, Q m id k)) (Behaves (κ := κ) Q) where
  toProceeding := proceeding_behaves
  createContext _ := keeps_createContext_of fun _ => behaves_modifyDevice (fun _ => rfl) fun _ => rfl
  destroyContext id := keeps_destroyContext_of fun _ => behaves_modifyContext id _
  recreateContext id := keeps_recreateContext_of fun _ => behaves_modifyContext id _
  bindStream _ := behaves_bindStream
  rebindStream id := keeps_rebindStream_of fun _ => behaves_modifyStream id fun _ => rfl
  unmapStream id := keeps_unmapStream_of (behaves_modifyStream id fun _ => rfl)
  clearSlot _ hs := behaves_runCallbacks (faultless_clearSlot _) (takes_clearSlot (Machine.mem_streams hs)) nofun
    nofun
  submitSlot {_ _ s} n _ hs := (faultless_submitSlot s.slot n).keepsAt fun he =>
    .of_step (.submit (Machine.mem_streams hs) he) nofun nofun
  createSyncobj := keeps_bind keeps_device fun _ =>
    keeps_bind (behaves_modifyDevice (fun _ => rfl) fun _ => rfl) fun _ => keeps_pure _
  pruneSyncobj _ := behaves_modifyDevice (fun _ => rfl) fun _ => rfl
  fenceSyncobj _ _ _ _ := behaves_modifyDevice (fun _ => rfl) fun _ => rfl
  destroySyncobj _ _ := behaves_modifyDevice (fun _ => rfl) fun _ => rfl
  advance i n _ := behaves_runCallbacks (faultless_advanceSlot i n) takes_advanceSlot nofun nofun
  updateCallbacks i n _ := behaves_runCallbacks (faultless_takeCallbacks i n) takes_takeCallbacks nofun nofun
  collect {m id batch _} hcollected _ hb hnew := (faultless_collect id batch).keepsAt fun he =>
    .of_step (.collect hb hnew he) nofun fun _ _ _ => hcollected m _ _

/-! ### References, batches and imports -/

theorem behaves_unreference (x : Nat) : Keeps (Behaves (κ := κ) Q none) (Buffer.unreference x) := by
  refine (faultless_unreference x).keeps fun {m m'} _ he => ?_
  obtain ⟨a, ha, -⟩ := unreference_ok he
  by_cases hlast : a.refs = 1
  · exact .of_step (.release ha hlast he) nofun nofun
  · refine .of_step (.unreference ha hlast he) (fun _ _ hq => ?_) nofun
    -- a count that went down is not what it was
    obtain ⟨-, -, hedit⟩ := unreference_other ha hlast he
    have hsame := hedit.account ha
    rw [hq.storage, ha, Option.some.injEq] at hsame
    have hrefs : a.refs = a.refs - 1 := congrArg Account.refs hsame
    grind

theorem lending_behaves : Lending (Behaves (κ := κ) Q) where
  toProceeding := proceeding_behaves
  reference x := (faultless_reference x).keeps fun he => .of_step (.reference he) (fun _ _ _ =>
    .of_silent ((keeps_reference x).ok he) ((cards_reference x).ok he) ((silent_reference x).ok he)) nofun
  unreference := behaves_unreference
  handOut h he hcsf := by
    obtain ⟨es, hrun⟩ := h hcsf
    have hs : Step _ _ _ := .handOut he
    exact ⟨_, hrun.append (.single hs (hs.proper nofun nofun))⟩
  editBatch id {f} hf := behaves_of_demure (quiet_modifyBatch id hf) (keeps_modifyBatch id f)
  startBatch submitter := behaves_of_demure (quiet_startBatch submitter) <|
    keeps_bind keeps_requireAllocator fun _ => keeps_bind keeps_allocator fun _ => keeps_bind keeps_get fun _ =>
    keeps_bind (fun _ _ => Slotwise.of_slots rfl rfl rfl rfl) fun _ => keeps_pure _

section Import

variable (hdup : ∀ (k : κ) (fd d : Int), (Kernel.call k (.dup fd)).1.result = .ok d → 0 ≤ d)
include hdup

theorem admitting_behaves : Admitting (Behaves (κ := κ) Q none) where
  importFile fd := behaves_of_demure (quiet_importFile fd) (demure_importFile hdup fd)
  writeLine b fd imported := behaves_of_demure (quiet_write _ b fd imported) (demure_write b fd imported)
  revive {_ _ x _ _} hx hown hd he := .of_step (.revive hx hown hd he) (fun _ _ _ =>
    .of_silent ((keeps_revive x).ok he) ((cards_revive x).ok he) ((silent_revive x).ok he)) nofun
  enter {_ _ b _ _} hnone hown hb he := by
    have hcached : b.cachedIn = none := congrArg Account.cachedIn hb
    refine .of_step (.enter hnone hown (congrArg Account.shared hb) (congrArg Account.gpuRefs hb) hcached
      (congrArg Account.freed hb) (congrArg Account.refs hb) (congrArg Account.usage hb) he) (fun _ _ _ => ?_) nofun
    exact .of_silent ((keeps_addBuffer b).ok he) ((cards_addBuffer hcached).ok he) ((silent_addBuffer b).ok he)
  abandon hnone he := .of_step (.abandon hnone he) (fun _ _ _ =>
    .of_regular ((regular_freeHandle _).ok he) ((keeps_freeHandle _).ok he)) nofun

/-- Everything that a program asks of a command stream device is a proper run. -/
theorem operating_behaves : Operating (.wide True (∀ m id k, Q m id k)) (Behaves (κ := κ) Q) :=
  .of_modify streaming_behaves lending_behaves
    (fun id f => behaves_of_demure (quiet_modifySubmitter id f) fun _ _ => Slotwise.of_slots rfl rfl rfl rfl)
    (fun s => behaves_of_demure (quiet_addSubmitter s) (keeps_bind keeps_get fun _ =>
      keeps_bind (fun _ _ => Slotwise.of_slots rfl rfl rfl rfl) fun _ => keeps_pure _))
    ((admitting_behaves hdup).importBuffer hdup)

/-- Nothing but a submission collects a batch. -/
theorem behaves_of_submits {op : Operation} (hop : op.submits = false) : Keeps (Behaves (κ := κ) Q none) op.run := by
  have hnone : Operating (.wide True (∀ m id k, False)) (Behaves (κ := κ) fun _ _ _ => False) := operating_behaves hdup
  refine Keeps.mono (hnone.operation (Operation.within_wide (fun _ => trivial) fun h => ?_)) fun _ _ h =>
    h.mono fun _ _ _ => False.elim
  rw [hop] at h
  cases h

/-- A submission collects its batch at once, and no other one. -/
theorem submit_behaves {m : Machine κ} {id batch : Nat} (hcollected : ∀ m₁, SameInside m m₁ → Q m₁ id batch)
    (vertexInsert fragmentInsert : UInt64) :
    KeepsAt (Behaves Q none) (Submitter.submit id batch vertexInsert fragmentInsert) m := by
  have hnone : Operating (.wide True (∀ m id k, False)) (Behaves (κ := κ) fun _ _ _ => False) := operating_behaves hdup
  have hrest {α : Type} {x : Op κ α} (hx : Keeps (Behaves (fun _ _ _ => False) none) x) : Keeps (Behaves Q none) x :=
    hx.mono fun _ _ h => h.mono fun _ _ _ => False.elim
  refine keepsAt_submit (fun {m₁ _} hdebug hb hnew => ?_) (fun _ => .inr fun q _ insert activity => ?_)
    (fun s extract o => hrest (hnone.toStreaming.waitStream s extract o)) (hrest (hnone.reset trivial)) _ _
  · have hsame : SameInside m m₁ := (keeps_debug _ _).ok hdebug
    refine (faultless_collect id batch).keepsAt fun he => .of_step (.collect hb hnew he) nofun fun _ _ hact => ?_
    cases hact
    exact hcollected m₁ hsame
  · exact hrest (hnone.toStreaming.submitQueue trivial (fun _ _ => trivial) insert activity)

end Import

end Forward

/-! ## Sessions in which the clock goes on -/

/-- A batch is submitted only while its buffers are in use. -/
def Operation.Backed (m : Machine κ) : Operation → Prop
  | submit s b .. => m.Backs s b
  | _ => True

/-- Operations one after the other, each of which comes to a value or fails.  In between time passes.  If it says so,
each batch is submitted while its buffers are in use. -/
inductive OnwardSession (backed : Prop) : Machine κ → Machine κ → Prop
  | nil (m : Machine κ) : OnwardSession backed m m
  | work {m m₁ m' : Machine κ} {r : Except Halt Unit} (op : Operation) (hop : backed → op.Backed m)
    (he : op.run.exec m = (r, m₁)) (hr : Survives r) (h : OnwardSession backed m₁ m') : OnwardSession backed m m'
  | idle {m m₁ m' : Machine κ} (hsame : SameInside m m₁) (hclock : Onward m m₁) (h : OnwardSession backed m₁ m') :
    OnwardSession backed m m'

section Session

variable [Forward κ] (hdup : ∀ (k : κ) (fd d : Int), (Kernel.call k (.dup fd)).1.result = .ok d → 0 ≤ d)
include hdup

theorem Operation.behaves {backed : Prop} {op : Operation} {m : Machine κ} (hop : backed → op.Backed m) :
    KeepsAt (Behaves (fun m id k => backed → m.Backs id k) none) op.run m := by
  cases hsubmits : op.submits with
  | false => exact behaves_of_submits hdup hsubmits m
  | true =>
    cases op with
    | submit s b vertexInsert fragmentInsert =>
      exact submit_behaves hdup (fun _ hsame hbacked => (hop hbacked).of_same hsame) vertexInsert fragmentInsert
    | _ => cases hsubmits

theorem OnwardSession.behaves {backed : Prop} {m m' : Machine κ} (h : OnwardSession backed m m') :
    Behaves (fun m id k => backed → m.Backs id k) none m m' := by
  induction h with
  | nil m => exact Journey.refl m
  | work op hop he hr _ ih => exact Journey.trans ((Operation.behaves hdup hop).survives he hr) ih
  | idle hsame hclock _ ih =>
    have hregular : Regular _ _ := ⟨hclock, .of_table (by rw [hsame.device])⟩
    exact Journey.trans (.of_demure hsame.inward (.of_regular hregular hsame.allocator)) ih

/-- What goes on with a command stream device is a run of steps that keeps a journal, whatever is asked for and
whatever the kernel answers.  It is a run through the cache if each batch is submitted while its buffers are in use. -/
theorem OnwardSession.runs {backed : Prop} {m m' : Machine κ} (h : OnwardSession backed m m')
    (hcsf : m.device.generation = .csf) : ∃ es, JournalRun ⟨m, [], none⟩ es ⟨m', [], none⟩ ∧
      (backed → ShelfRun ⟨m, [], none⟩ es ⟨m', [], none⟩) := by
  obtain ⟨es, hrun⟩ := h.behaves hdup hcsf
  exact ⟨es, hrun.journal hcsf, fun hbacked => (hrun.mono fun _ _ _ h => h hbacked).shelf hcsf⟩

end Session

/-! ## A generous kernel -/

/-- Its clock stands still. -/
instance : Forward Generous where
  now_le _ _ := Nat.le_refl _

/-- So whatever is asked of it is a run through the cache, if batches are submitted while their buffers are in use. -/
example {m m' : Machine Generous} (h : OnwardSession True m m') (hcsf : m.device.generation = .csf) :
    ∃ es, ShelfRun ⟨m, [], none⟩ es ⟨m', [], none⟩ := by
  obtain ⟨es, -, hshelf⟩ := h.runs Generous.dup_nonneg hcsf
  exact ⟨es, hshelf trivial⟩

end Mali
