import Mali.Proofs.Proceedings
import Mali.Proofs.Totals

/-!
# Sessions

A session on a command stream device starts when the device was opened and an allocator made, and goes on with
operations in any order, each of which comes to a value or fails, and with time that passes in between.  Along it
every mapping that was made is held or was ended: by the three pages of the device, by the buffers that are not
freed, and by the streams that are bound.  No mapping is ended that is not there.

A buffer that is not freed has its place in the arena as long as every release ends once.  The slots see to that
while each of them is started at most once and no count overflows.

* `Operation`: what can be asked for, and `Operation.proceeds`: every one of them is a run of steps.
* `Operating.operation`: what goes along with the parts of operations goes along with all of them.
* `Session`: operations one after the other, and `Operating.session`: what goes along with them.
* `Machine.Books.length_arena`: the arena has the buffers that are not freed.
* `Session.mappings_balance`: what was made and not ended is what the device, the streams and the buffers hold.
-/

namespace Mali

open Op

variable {κ : Type}

/-! ## Operations -/

/-- What can be asked of a command stream device, an allocator on it and the submission contexts. -/
inductive Operation where
  | create (size : Int64) (flags : UInt32) (label : String)
  | importFile (fd : Int)
  | reference (buffer : Nat)
  | unreference (buffer : Nat)
  | evictStale
  | evictAll
  | createContext
  | destroyContext (context : Nat)
  | recreateContext (context : Nat)
  | bind (context : Nat) (va : UInt64) (size : UInt32)
  | rebind (stream : Nat)
  | terminate (stream : Nat)
  | submitStream (stream : Nat) (insert : UInt64) (syncobj : Option Nat) (seqnum : UInt64)
  | waitStream (stream : Nat) (extract : UInt64) (syncobj : Option Nat)
  | createSyncobj
  | waitSyncobj (syncobj : Nat)
  | createSubmitter (ringSize : UInt32)
  | setHeap (submitter : Nat) (heap : Option Nat)
  | reset (submitter : Nat)
  | destroy (submitter : Nat)
  | startBatch (submitter : Nat)
  | use (batch buffer : Nat) (type : UsageType)
  | addFragment (batch : Nat)
  | requireSync (batch : Nat)
  | submit (submitter batch : Nat) (vertexInsert fragmentInsert : UInt64)
  | closeBatch (batch : Nat)
  | handleEvents
  | ensureHandleEvents
  | advance (slot : Nat) (seqnum : UInt64)
  | updateCallbacks (slot : Nat) (seqnum : UInt64)
  deriving DecidableEq, Repr

section Kernel

variable [Kernel κ]

/-- Does what is asked for, and forgets the answer. -/
def Operation.run : Operation → Op κ Unit
  | create size flags label => discard (Allocator.create size flags label)
  | importFile fd => discard (Allocator.importBuffer fd)
  | reference x => Buffer.reference x
  | unreference x => Buffer.unreference x
  | evictStale => Allocator.evictStale
  | evictAll => Allocator.evictAll
  | createContext => discard Device.createContext
  | destroyContext c => Device.destroyContext c
  | recreateContext c => Device.recreateContext c
  | bind c va size => discard (Device.bindStream c va size)
  | rebind s => Device.rebindStream s
  | terminate s => Device.terminateStream s
  | submitStream s insert o n => discard (Device.submitStream s insert o n)
  | waitStream s extract o => discard (Device.waitStream s extract o)
  | createSyncobj => discard Device.createSyncobj
  | waitSyncobj o => discard (Device.waitSyncobj o)
  | createSubmitter ringSize => discard (Submitter.create ringSize)
  | setHeap s heap => Submitter.setHeap s heap
  | reset s => Submitter.reset s
  | destroy s => Submitter.destroy s
  | startBatch s => discard (Batch.start s)
  | use b x t => Batch.use b x t
  | addFragment b => Batch.addFragment b
  | requireSync b => Batch.requireSync b
  | submit s b vertexInsert fragmentInsert => Submitter.submit s b vertexInsert fragmentInsert
  | closeBatch b => Batch.close b
  | handleEvents => discard Device.handleEvents
  | ensureHandleEvents => Device.ensureHandleEvents
  | advance i n => Device.advance i n
  | updateCallbacks i n => Device.updateCallbacks i n

/-- Whether an operation uses and does nothing but what a licence says. -/
def Operation.Within (l : Licence) : Operation → Prop
  | terminate s => l.stream s
  | submitStream s _ o _ => l.stream s ∧ ∀ k ∈ o, l.syncobj k
  | reset s | destroy s => l.submitter s
  | submit s .. => l.submitting ∧ l.submitter s
  | createContext | bind .. | createSubmitter _ => l.binding
  | _ => True

/-- Whether an operation makes contexts or binds streams. -/
def Operation.binds : Operation → Bool
  | createContext | bind .. | createSubmitter _ => true
  | _ => false

/-- Whether an operation submits a batch. -/
def Operation.submits : Operation → Bool
  | submit .. => true
  | _ => false

theorem Operation.within_wide {binding submitting : Prop} {op : Operation} (hbinds : op.binds = true → binding)
    (hsubmits : op.submits = true → submitting) : op.Within (.wide binding submitting) := by
  cases op with
  | createContext | bind | createSubmitter => exact hbinds rfl
  | submit => exact ⟨hsubmits rfl, trivial⟩
  | submitStream s insert o n => exact ⟨trivial, fun _ _ => trivial⟩
  | _ => trivial

theorem Operation.within_full (op : Operation) : op.Within .full := within_wide (fun _ => trivial) fun _ => trivial

/-- A relation that goes along with the parts of operations goes along with every operation. -/
theorem Operating.operation {l : Licence} {P : Option Nat → Machine κ → Machine κ → Prop} [Plain (P none)]
    (h : Operating l P) {op : Operation} (hop : op.Within l) : Keeps (P none) op.run := by
  cases op with
  | create size flags label => exact keeps_discard (h.toLending.create size flags label)
  | importFile fd => exact keeps_discard (h.importBuffer fd)
  | reference x => exact h.reference x
  | unreference x => exact h.unreference x
  | evictStale => exact h.toProceeding.evictStale
  | evictAll => exact h.toProceeding.evictAll
  | createContext => exact keeps_discard (h.createContext hop)
  | destroyContext c => exact h.destroyContext c
  | recreateContext c => exact h.recreateContext c
  | bind c va size => exact keeps_discard (h.bindStream hop c va size)
  | rebind s => exact h.rebindStream s
  | terminate s => exact h.toStreaming.terminateStream hop
  | submitStream s insert o n => exact keeps_discard (h.toStreaming.submitStream hop.1 hop.2 insert n)
  | waitStream s extract o => exact keeps_discard (h.toStreaming.waitStream s extract o)
  | createSyncobj => exact keeps_discard h.createSyncobj
  | waitSyncobj o => exact keeps_discard (h.toStreaming.waitSyncobj o)
  | createSubmitter ringSize => exact keeps_discard (h.createSubmitter hop ringSize)
  | setHeap s heap => exact h.attending.setHeap s heap
  | reset s => exact h.reset hop
  | destroy s => exact h.destroySubmitter hop
  | startBatch s => exact keeps_discard (h.startBatch s)
  | use b x t => exact h.toLending.use b x t
  | addFragment b => exact h.editBatch b fun _ => rfl
  | requireSync b => exact h.editBatch b fun _ => rfl
  | submit s b vertexInsert fragmentInsert => exact h.submit hop.1 hop.2 b vertexInsert fragmentInsert
  | closeBatch b => exact h.toLending.close b
  | handleEvents => exact keeps_discard h.handleEvents
  | ensureHandleEvents => exact h.toProceeding.ensureHandleEvents
  | advance i n => exact h.advance i n
  | updateCallbacks i n => exact h.updateCallbacks i n

/-- Whatever is asked for is a run of steps that leaves no mapping behind, if duplicates are descriptors. -/
theorem Operation.proceeds
    (hdup : ∀ (k : κ) (fd d : Int), (Kernel.call k (.dup fd)).1.result = .ok d → 0 ≤ d) (op : Operation) :
    Keeps (Proceeds (κ := κ) none) op.run := (operating_proceeds hdup).operation op.within_full

/-- Operations one after the other, each of which comes to a value or fails.  In between time passes, and the GPU
writes to memory. -/
inductive Session : Machine κ → Machine κ → Prop
  | nil (m : Machine κ) : Session m m
  | work {m m₁ m' : Machine κ} {r : Except Halt Unit} (op : Operation) (he : op.run.exec m = (r, m₁))
    (hr : Survives r) (h : Session m₁ m') : Session m m'
  | idle {m m₁ m' : Machine κ} (hsame : SameInside m m₁) (hcalls : m₁.calls = m.calls) (h : Session m₁ m') :
    Session m m'

/-- What goes along with the parts of operations, and with what passes in between, goes along with a session.  By
induction on the session. -/
theorem Operating.session {P : Option Nat → Machine κ → Machine κ → Prop} [Plain (P none)]
    (h : Operating .full P) (hidle : ∀ {m m₁ : Machine κ}, SameInside m m₁ → m₁.calls = m.calls → P none m m₁)
    {m m' : Machine κ} (hsession : Session m m') : P none m m' := by
  induction hsession with
  | nil m => exact Journey.refl m
  | work op he hr _ ih => exact Journey.trans ((h.operation op.within_full _).survives he hr) ih
  | idle hsame hcalls _ ih => exact Journey.trans (hidle hsame hcalls) ih

theorem Session.proceeds
    (hdup : ∀ (k : κ) (fd d : Int), (Kernel.call k (.dup fd)).1.result = .ok d → 0 ≤ d) {m m' : Machine κ}
    (h : Session m m') : Proceeds none m m' :=
  (operating_proceeds hdup).session (fun hsame hcalls =>
    have hput : StaysPut _ _ := ⟨.of_inside hsame, .of_calls hcalls⟩
    .of_quiet hput.conserves hsame.inward) h

end Kernel

/-! ## The start of a session -/

/-- The pages of a device that has them all. -/
theorem Preparation.length_pages {d : Device} (hcsf : d.generation = .csf) (h : d.Paged SetupStep.all) :
    d.preparation.pages.length = 3 := by
  have hpage (step : SetupStep) (hmem : step ∈ SetupStep.paged) : d.preparation.page step ≠ none := by
    refine h step (by cases step <;> decide) hmem ?_
    rw [hcsf]
    cases step <;> first | rfl | exact absurd hmem (by decide)
  obtain ⟨p, hp⟩ := Option.ne_none_iff_exists'.mp (hpage .tracking (by decide))
  obtain ⟨q, hq⟩ := Option.ne_none_iff_exists'.mp (hpage .userRegisters (by decide))
  obtain ⟨r, hr⟩ := Option.ne_none_iff_exists'.mp (hpage .eventMemory (by decide))
  rw [Preparation.pages, show d.preparation.tracking = some p from hp,
    show d.preparation.userRegisters = some q from hq, show d.preparation.eventMemory = some r from hr]
  rfl

/-- What opening mapped are the pages. -/
theorem Preparation.pages_perm (p : Preparation) : (SetupStep.all.reverse.filterMap p.page).Perm p.pages := by
  have heq : SetupStep.all.reverse.filterMap p.page =
      p.eventMemory.toList ++ (p.userRegisters.toList ++ p.tracking.toList) := by
    obtain ⟨_, _, _, tracking, userRegisters, eventMemory⟩ := p
    cases tracking <;> cases userRegisters <;> cases eventMemory <;> rfl
  rw [heq, Preparation.pages]
  exact List.perm_append_comm.trans (List.perm_append_comm.append_right _)

theorem AllocatorOptions.minBucket_le_withDefaults (o : AllocatorOptions) :
    o.withDefaults.minBucket ≤ o.withDefaults.maxBucket := by
  unfold withDefaults
  dsimp only
  split <;> omega

section Kernel

variable [Kernel κ]

/-- Starting an allocator replaces the one that was there, and asks for nothing. -/
theorem exec_start (o : AllocatorOptions) (m : Machine κ) :
    (Allocator.start o).exec m = (.ok (), { m with allocator :=
      { started := true, options := o.withDefaults, epoch := Kernel.now m.kernel
        cache := .empty o.withDefaults.bucketCount } }) := rfl

/-- A session starts with nothing in use, and with what was mapped in its place. -/
theorem Opening.start {m₀ m m' : Machine κ} {fd : Int} {o : AllocatorOptions} {u : Unit}
    (h : Opening m₀ fd SetupStep.all m) (hcsf : m.device.generation = .csf) (hbatches : m₀.batches = [])
    (he : (Allocator.start o).exec m = (.ok u, m')) :
    Fresh m' ∧ m'.Housed ∧ m'.device.preparation = m.device.preparation ∧
      ∃ setup, m'.calls = setup ++ m₀.calls ∧ Leaves setup 0 m'.mappings := by
  rw [exec_start] at he
  cases he
  obtain ⟨setup, hsetup, hkeep, hmade⟩ := h.calls
  have hslots : m.device.slots = Vector.replicate slotCount {} := congrArg Progress.slots h.progress
  have hbound : m.device.bound = 0 := congrArg Progress.bound h.progress
  have hstreams : m.device.streams.map (·.slot) = [] := congrArg Progress.streams h.progress
  have hrings : m.device.rings = [] := by rw [Device.rings, List.map_eq_nil_iff.mp hstreams, List.filterMap_nil]
  have howns (k : Nat) (d : Int) : ¬m.device.handles.Owns k d := by
    rintro ⟨x, hx, -⟩
    rw [h.handles] at hx
    cases hx
  refine ⟨⟨hcsf, hslots, hbound, hstreams, rfl, rfl, rfl, rfl, o.minBucket_le_withDefaults, h.batches.trans hbatches⟩,
    ⟨hcsf, fun k d ho => absurd ho (howns k d), fun k x hx => ?_, fun k hk => ?_, fun b hb => ?_, List.nodup_nil⟩,
    rfl, setup, hsetup, ?_⟩
  · cases hx
  · cases hk
  · cases hb
  · have hleaves : Leaves setup 0 (↑(madeBy setup) + 0) :=
      .of_made fun r hr => CallRecord.ended_of_releases (hkeep r hr)
    rw [hmade, Multiset.coe_eq_coe.mpr (Preparation.pages_perm _)] at hleaves
    have hmappings : (↑m.device.preparation.pages + ↑m.device.rings + ↑([] : List Mapping) : Multiset Mapping) =
        ↑m.device.preparation.pages + 0 := by rw [hrings, Multiset.coe_nil, Multiset.add_zero]
    rw [← hmappings] at hleaves
    exact hleaves

end Kernel

/-! ## Counting -/

theorem Config.length_streams (m : Machine κ) (ready : List (Nat × Link)) (held : Option Nat) :
    (⟨m, ready, held⟩ : Config κ).progress.streams.length = m.device.streams.length := List.length_map _

/-- Every buffer that is not freed has a mapping. -/
theorem Machine.Housed.length_mapped {m : Machine κ} {o : Option Nat} (h : m.Housed o) :
    m.allocator.mapped.length = m.allocator.buffers.countP (!·.freed) := by
  rw [Allocator.mapped, List.length_filterMap_eq_countP]
  exact List.countP_congr fun b hb => by rw [h.buffers b hb]

/-! ## Balance -/

section Kernel

variable [Kernel κ]

/-- Along a session, the mappings that were made and not ended are the three pages of the device, one for each buffer
that is not freed and one for each stream that is bound, whatever the kernel answers, and a mapping is ended only if
it was made more often than it was ended before.  The buffers that are not freed are those of the arena, as long as
every stream has a slot of its own and no count overflows along a run of the steps that the session is made of. -/
theorem Session.mappings_balance
    (hdup : ∀ (k : κ) (fd d : Int), (Kernel.call k (.dup fd)).1.result = .ok d → 0 ≤ d)
    {standIn : κ} {fd : Int} {options : DeviceOptions} {o : AllocatorOptions} {m₀ m₁ m₂ m : Machine κ}
    (hbatches : m₀.batches = []) (hopen : (Device.openFile standIn fd options).exec m₀ = (.ok (), m₁))
    (hcsf : m₁.device.generation = .csf) (hstart : (Allocator.start o).exec m₁ = (.ok (), m₂))
    (hsession : Session m₂ m) :
    ∃ cs, m.calls = cs ++ m₀.calls ∧
      (madeBy cs).length = (endedBy cs).length +
        (3 + m.allocator.buffers.countP (!·.freed) + m.device.streams.countP (·.userIo.isSome)) ∧
      (∀ later r earlier p, cs = later ++ r :: earlier → r.ended = some p →
        (endedBy earlier).count p < (madeBy earlier).count p) ∧
      (∃ es, Run ⟨m₂, [], none⟩ es ⟨m, [], none⟩) ∧
      ∀ es, Run ⟨m₂, [], none⟩ es ⟨m, [], none⟩ → m.device.streams.length ≤ slotCount →
        (∀ d ∈ es.map (·.1) ++ [⟨m, [], none⟩], d.Bounded) →
        (madeBy cs).length = (endedBy cs).length +
          (3 + m.allocator.arena.length + m.device.streams.countP (·.userIo.isSome)) := by
  obtain ⟨-, hopening, hpaged⟩ | ⟨_, hfault, -⟩ := openFile_ok hopen trivial
  · obtain ⟨hfresh, hhoused, hpreparation, setup, hsetup, hleaves⟩ := hopening.start hcsf hbatches hstart
    obtain ⟨hhoused', hcarries, hrun⟩ := hsession.proceeds hdup hhoused
    obtain ⟨cs, hcs, hleaves'⟩ := hcarries.calls
    rw [zero_add, zero_add] at hleaves'
    have hall := hleaves.trans hleaves'
    have hpages : m.device.preparation.pages.length = 3 := by
      rw [hcarries.preparation, hpreparation]
      exact Preparation.length_pages hcsf hpaged
    have hrings : m.device.rings.length = m.device.streams.countP (·.userIo.isSome) :=
      List.length_filterMap_eq_countP
    have hbalance := congrArg Multiset.card hall.balance
    simp only [Machine.mappings, Multiset.card_add, Multiset.coe_card, Multiset.card_zero, hpages, hrings,
      hhoused'.length_mapped] at hbalance
    refine ⟨cs ++ setup, by rw [hcs, hsetup, List.append_assoc], by omega, ?_, hrun, ?_⟩
    · rintro later r earlier p heq hended
      rw [heq] at hall
      simpa using hall.count_ended_lt hended
    · intro es hrun hmax hbounded
      have hstreams : (⟨m, [], none⟩ : Config κ).progress.streams.length ≤ slotCount :=
        le_of_eq_of_le (Config.length_streams m _ _) hmax
      have hbooks := hrun.books hfresh.sound hstreams hbounded hfresh.books
      have harena : m.allocator.arena.length = m.allocator.buffers.countP (!·.freed) :=
        Machine.Books.length_arena hbooks hhoused'.arena
      omega
  · cases hfault

end Kernel

/-! ## A generous kernel -/

/-- A kernel behind a file that grants what is asked for.  Every mapping gets an address of its own. -/
structure Generous where
  next : UInt64

instance : Kernel Generous where
  call k
    | .ioctl _ (.versionCheck _) => ({ result := .ok {} }, k)
    | .ioctl _ (.setFlags _) => ({ result := .ok () }, k)
    | .ioctl _ (.getGpuProps _ _) => ({ result := .ok ⟨1, [0]⟩ }, k)
    | .ioctl _ (.memExecInit _) => ({ result := .ok () }, k)
    | .ioctl _ (.memJitInit ..) => ({ result := .ok () }, k)
    | .ioctl _ (.memAlloc _) => ({ result := .ok ⟨MemFlag.sameVa, 0x41000⟩ }, k)
    | .ioctl _ (.memImport _) => ({ result := .ok ⟨MemFlag.needMmap, 0x42000, 1⟩ }, k)
    | .ioctl _ (.csQueueRegister ..) => ({ result := .ok () }, k)
    | .ioctl _ (.csQueueBind ..) => ({ result := .ok 0x43000 }, k)
    | .ioctl _ (.csQueueTerminate _) => ({ result := .ok () }, k)
    | .ioctl _ (.csQueueGroupCreate _) => ({ result := .ok ⟨0, 1⟩ }, k)
    | .ioctl _ (.csTilerHeapInit _) => ({ result := .ok ⟨0x44000, 0x45000⟩ }, k)
    | .mmap .. => ({ result := .ok k.next }, { k with next := k.next + 0x10000 })
    | .munmap _ => ({ result := .ok () }, k)
    | .dup _ => ({ result := .ok 51 }, k)
    | .seek .. => ({ result := .ok 4096 }, k)
    | _ => ({ result := .error .inval }, k)
  now _ := 0
  pageSize _ := 4096
  simulated _ := false

namespace Generous

theorem dup_nonneg (k : Generous) (fd d : Int) (h : (Kernel.call k (.dup fd)).1.result = .ok d) : 0 ≤ d := by
  obtain rfl : 51 = d := Except.ok.inj h
  decide

-- a table of 256 slots is evaluated
set_option maxRecDepth 20000

/-- Nothing was opened yet. -/
def closed : Machine Generous where
  kernel := ⟨0x10000⟩

/-- Three pages are mapped. -/
def opened : Machine Generous := ((Device.openFile ⟨0⟩ 3 {}).exec closed).2

/-- A session begins. -/
def started : Machine Generous := ((Allocator.start {}).exec opened).2

def grouped : Machine Generous := (Device.createContext.exec started).2

/-- A ring is bound and mapped, and has no slot yet. -/
def prepared : Machine Generous := ((Device.prepareRing 0 0x20000 4096).exec grouped).2

def ring : Stream where
  context := 0
  va := 0x20000
  size := 4096
  csi := 0
  userIo := some ⟨0x40000, 0x3000⟩

def bound : Machine Generous := ((Device.attachStream ring).exec prepared).2

/-- A file has a handle and is mapped. -/
def filing : Op Generous Nat := do
  debug "Allocator::Import"
  Device.importFile 50

def filed : Machine Generous := (filing.exec bound).2

def handle : Handle := { va := 0x50000, mapping := some ⟨0x50000, 4096⟩, fd := 51 }

/-- Its size was read. -/
def measured : Machine Generous := ((Allocator.importedBuffer 50 0 handle).exec filed).2

/-- The buffer of the file. -/
def shared : Buffer where
  gpu := 0x50000
  cpu := some ⟨0x50000, 4096⟩
  size := 4096
  flags := BufferFlag.shared
  handle := 0
  refs := 1
  cachedCpu := true
  dmabufFd := 51

def entered : Machine Generous := ((Allocator.addBuffer shared).exec measured).2

/-- The ring is unmapped. -/
def unmapping : Op Generous Unit := do
  debug "Device::CSTerm"
  Device.unmapStream 0
  ignore (Interface.terminateQueue 0x20000)

def unmapped : Machine Generous := (unmapping.exec entered).2

/-- The stream is terminated. -/
def ended : Machine Generous := ((Device.clearSlot 0).exec unmapped).2

theorem outcomes :
    ((Device.openFile ⟨0⟩ 3 {}).exec closed).1.toOption = some () ∧
    opened.device.generation = .csf ∧
    (Device.createContext.exec started).1.toOption = some 0 ∧
    ((Device.prepareRing 0 0x20000 4096).exec grouped).1.toOption = some ring ∧
    ((Device.attachStream ring).exec prepared).1.toOption = some 0 ∧
    (filing.exec bound).1.toOption = some 0 ∧
    measured.allocator.lookup? shared.handle = none ∧
    ((measured.device.handles.entries[0]?).map (·.fd) == some 51) = true ∧
    ((Allocator.addBuffer shared).exec measured).1.toOption = some 0 ∧
    (unmapping.exec entered).1.toOption = some () ∧
    unmapped.progress.streams = [0] ∧
    ((Device.clearSlot 0).exec unmapped).1.toOption = some [] := by
  decide +kernel

theorem toOption_measured :
    ((Allocator.importedBuffer 50 0 handle).exec filed).1.toOption = some shared := by decide +kernel

theorem exec_import : (Operation.importFile 50).run.exec bound = (.ok (), entered) := by cbv

theorem exec_terminate : (Operation.terminate 0).run.exec entered = (.ok (), ended) := by cbv

def steps : List (Config Generous × Action) :=
  [(⟨started, [], none⟩, .other), (⟨grouped, [], none⟩, .other), (⟨prepared, [], none⟩, .attach),
    (⟨bound, [], none⟩, .other), (⟨filed, [], none⟩, .other), (⟨measured, [], none⟩, .other),
    (⟨entered, [], none⟩, .other), (⟨unmapped, [], none⟩, .terminate 0)]

/-- A context, a stream and a buffer are made, and the stream is terminated. -/
theorem session_ended : Session started ended := by
  obtain ⟨-, -, hgroup, hprepare, hattach, -⟩ := outcomes
  have hbind : (Operation.bind 0 0x20000 4096).run.exec grouped = (.ok (), bound) := by
    refine exec_discard_of_ok (a := 0) ?_
    rw [Device.bindStream_eq, exec_bind_of_ok (exec_of_value hprepare)]
    exact exec_of_value hattach
  exact .work .createContext (exec_discard_of_ok (exec_of_value hgroup)) trivial <|
    .work (.bind 0 0x20000 4096) hbind trivial <| .work (.importFile 50) exec_import trivial <|
    .work (.terminate 0) exec_terminate trivial (.nil _)

/-- The steps that the session is made of. -/
theorem run_ended : Run ⟨started, [], none⟩ steps ⟨ended, [], none⟩ := by
  obtain ⟨-, -, hgroup, hprepare, hattach, hfile, hfree, hfd, henter, hunmap, hstreams, hclear⟩ := outcomes
  have hfiling : Keeps Quiet filing := keeps_bind (keeps_debug _ _) fun _ => quiet_importFile 50
  have hunmapping : Keeps Quiet unmapping := keeps_bind (keeps_debug _ _) fun _ =>
    keeps_bind (quiet_unmapStream 0) fun _ => keeps_ignore (keeps_streamRequest _ _ _)
  have howns : measured.Owns 0 51 := by
    obtain ⟨h, hh, hfd⟩ := Option.map_eq_some_iff.mp (eq_of_beq hfd)
    exact ⟨h, hh, hfd, by decide⟩
  have hgrouped : Quiet started grouped := quiet_createContext.ok (exec_of_value hgroup)
  have hprepared : Quiet grouped prepared := (quiet_prepareRing _ _ _).ok (exec_of_value hprepare)
  have hattached : (Device.attachStream ring).exec prepared = (.ok 0, bound) := exec_of_value hattach
  have hfiled : Quiet bound filed := hfiling.ok (exec_of_value hfile)
  have hmeasured : Quiet filed measured := (keeps_importedBuffer 50 0 handle).ok (exec_of_value toOption_measured)
  have hentered : (Allocator.addBuffer shared).exec measured = (.ok 0, entered) := exec_of_value henter
  have hunmapped : Quiet entered unmapped := hunmapping.ok (exec_of_value hunmap)
  have hended : (Device.clearSlot 0).exec unmapped = (.ok [], ended) := exec_of_value hclear
  have hmem : 0 ∈ unmapped.progress.streams := by rw [hstreams]; decide
  have hshared : shared.has BufferFlag.shared = true := by decide
  refine .cons (.quiet hgrouped) <| .cons (.quiet hprepared) <| .cons (.attach hattached) <|
    .cons (.quiet hfiled) <| .cons (.quiet hmeasured) <|
    .cons (.enter hfree howns hshared rfl rfl rfl rfl rfl hentered) <| .cons (.quiet hunmapped) <|
    .cons ?_ (.nil _)
  -- no callback waits on the slot
  obtain ⟨hstep, htakes⟩ := takes_clearSlot hmem hended
  rw [List.map_eq_nil_iff.mp htakes] at hstep
  exact hstep

theorem streams_ended : ended.device.streams.length ≤ slotCount := by
  have hlength : ended.device.streams.length = 1 := by decide +kernel
  rw [hlength]
  decide

/-- The accounts along the steps. -/
theorem accounts_steps :
    [started.storage.accounts, grouped.storage.accounts, prepared.storage.accounts, bound.storage.accounts,
      filed.storage.accounts, measured.storage.accounts, entered.storage.accounts, unmapped.storage.accounts,
      ended.storage.accounts] =
    [[], [], [], [], [], [], [shared.account], [shared.account], [shared.account]] := by decide +kernel

theorem refs_ended : ∀ d ∈ steps.map (·.1) ++ [⟨ended, [], none⟩], ∀ a ∈ d.machine.storage.accounts,
    a.refs ≠ Int32.minValue := by
  have h := accounts_steps
  simp only [List.cons.injEq, and_true] at h
  obtain ⟨h₁, h₂, h₃, h₄, h₅, h₆, h₇, h₈, h₉⟩ := h
  simp only [steps, List.map_cons, List.map_nil, List.cons_append, List.nil_append, List.forall_mem_cons,
    h₁, h₂, h₃, h₄, h₅, h₆, h₇, h₈, h₉]
  decide

theorem exec_opened : (Device.openFile ⟨0⟩ 3 {}).exec closed = (.ok (), opened) := exec_of_value outcomes.1

theorem exec_started : (Allocator.start {}).exec opened = (.ok (), started) := by rw [started, exec_start]

theorem fresh_started : Fresh started := by
  obtain ⟨-, hopening, -⟩ | ⟨_, hfault, -⟩ := openFile_ok exec_opened trivial
  · exact (hopening.start outcomes.2.1 rfl exec_started).1
  · cases hfault

theorem bounded_ended : ∀ d ∈ steps.map (·.1) ++ [⟨ended, [], none⟩], d.Bounded := by
  have hstreams : (⟨ended, [], none⟩ : Config Generous).progress.streams.length ≤ slotCount :=
    le_of_eq_of_le (Config.length_streams _ _ _) streams_ended
  have hshort : slotCount * steps.length < 2 ^ 31 := by
    simp only [steps, List.length_cons, List.length_nil]
    decide
  exact run_ended.bounded fresh_started hstreams hshort refs_ended

end Generous

/-- Three pages, a ring and a buffer were mapped, and the ring was unmapped. -/
theorem mappings_balance_sample : Session Generous.started Generous.ended ∧
    Run ⟨Generous.started, [], none⟩ Generous.steps ⟨Generous.ended, [], none⟩ ∧
    (∀ d ∈ Generous.steps.map (·.1) ++ [⟨Generous.ended, [], none⟩], d.Bounded) ∧
    (madeBy Generous.ended.calls).length = (endedBy Generous.ended.calls).length +
      (3 + Generous.ended.allocator.arena.length + Generous.ended.device.streams.countP (·.userIo.isSome)) := by
  obtain ⟨cs, hcs, -, -, -, hbalance⟩ := Session.mappings_balance Generous.dup_nonneg rfl Generous.exec_opened
    Generous.outcomes.2.1 Generous.exec_started Generous.session_ended
  obtain rfl : Generous.ended.calls = cs := hcs.trans (List.append_nil cs)
  exact ⟨Generous.session_ended, Generous.run_ended, Generous.bounded_ended,
    hbalance _ Generous.run_ended Generous.streams_ended Generous.bounded_ended⟩

end Mali
