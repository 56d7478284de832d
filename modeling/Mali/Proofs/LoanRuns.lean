import Mali.Proofs.Sessions
import Mali.Proofs.StreamRelations
import Mali.Proofs.SubmitterLoans

/-!
# Runs of users that hold on to buffers

Users make and import buffers, take references and give back those that they have.  Meanwhile batches are filled,
submitted and closed, submission contexts get heaps and rings, recover and are destroyed, and time passes.  Along all
of this the count of every buffer is the number of those who hold on to it, and the handles in the set of a batch stand
for the buffers that it used.

This holds as long as every stream has a slot of its own and no count overflows.  Streams that share a slot may end a
release twice, and then a buffer goes that a batch holds on to.

* `LoanRun`: what users do, with the references that they hold directly.
* `honors_operation`: every operation leaves all references accounted for.
* `LoanRun.accountable`: so does a run.
* `Machine.count_charges`, `chargesOf_eq_lookups`: who holds on to a buffer, counted one by one.
* `LoanRun.references_held`: the count of a buffer, what handles in a set stand for, and what closing a batch gives back.
-/

namespace Mali

open Op

variable {κ : Type}

/-! ## Holders counted one by one -/

section Counting

theorem count_flatMap_of {α : Type} {l : List α} {g : α → List Nat} {p : α → Bool} {x : Nat}
    (h : ∀ a ∈ l, (g a).count x = if p a then 1 else 0) : (l.flatMap g).count x = l.countP p := by
  induction l with
  | nil => rfl
  | cons a l ih =>
    obtain ⟨ha, hl⟩ := List.forall_mem_cons.mp h
    rw [List.flatMap_cons, List.count_append, List.countP_cons, ih hl, ha, Nat.add_comm]

variable {m : Machine κ} {c : Batch} {b : Buffer} {x : Nat}

/-- A batch holds one reference to a buffer whose handle is in its set, and none to others. -/
theorem count_chargesOf {handles : List Nat} {set : List (UsageType × Nat) × List (Nat × UInt32)} {k : Nat}
    (h : FiledUnder handles set) (hx : handles[x]? = some k)
    (howner : k ∈ set.2.map (·.1) → ownerOf handles set.1 k = some x) :
    (chargesOf handles set).count x = if k ∈ set.2.map (·.1) then 1 else 0 := by
  have hkeys : (set.2.map (·.1)).countP (fun k' => ownerOf handles set.1 k' == some x) =
      (set.2.map (·.1)).count k := by
    refine List.countP_congr fun k' hk' => ?_
    rw [beq_iff_eq, beq_iff_eq]
    constructor
    · intro hk
      exact Option.some.inj ((ownerOf_some hk).1.symm.trans hx)
    · rintro rfl
      exact howner hk'
  rw [chargesOf, List.count_filterMap, hkeys, h.nodup.count]

/-- What batches and submission contexts hold of a buffer: one reference for each batch with its handle, one for each
submission context with it as its tiler heap, and one for each queue with it as its ring. -/
theorem Machine.count_charges (h : m.Filed) (hb : m.allocator.buffers[x]? = some b)
    (howner : ∀ c ∈ m.batches, c.contains b.handle → c.owner? m.allocator b.handle = some x) :
    m.charges.count x = m.batches.countP (·.contains b.handle) + m.submitters.countP (·.heap = some x) +
      (m.submitters.flatMap (·.queues)).countP (·.ring = x) := by
  have hx : m.allocator.handles[x]? = some b.handle := by rw [Allocator.handles, List.getElem?_map, hb, Option.map_some]
  have hbatches : (m.batches.flatMap fun c => chargesOf m.allocator.handles c.set).count x =
      m.batches.countP (·.contains b.handle) := by
    refine count_flatMap_of fun c hc => ?_
    have hone := count_chargesOf (h c hc) hx fun hk => howner c hc ((c.contains_iff _).mpr hk)
    rw [hone, if_congr (c.contains_iff _).symm rfl rfl]
  have hsubmitters (ss : List Submitter) : (ss.flatMap fun s => postedOf s.post).count x =
      ss.countP (·.heap = some x) + (ss.flatMap (·.queues)).countP (·.ring = x) := by
    induction ss with
    | nil => rfl
    | cons s ss ih =>
      have hheap : s.heap.toList.count x = if s.heap = some x then 1 else 0 := by
        cases s.heap with
        | none => rfl
        | some y =>
          have hsame : (y == x) = true ↔ some y = some x := by simp
          rw [Option.toList_some, List.count_singleton, if_congr hsame rfl rfl]
      have hrings : (s.queues.map (·.ring)).count x = s.queues.countP (·.ring = x) := by
        rw [List.count_eq_countP, List.countP_map]
        exact List.countP_congr fun q _ => by simp
      rw [List.flatMap_cons, List.count_append, ih, List.countP_cons, List.flatMap_cons, List.countP_append,
        count_postedOf, hheap, hrings]
      simp only [decide_eq_true_eq]
      omega
  rw [charges, List.count_append, List.flatMap_map, List.flatMap_map, hbatches, hsubmitters]
  omega

end Counting

/-! ## What accounts say -/

section Accounts

variable {m : Machine κ} {held : List Nat}

namespace Machine.Accountable

/-- A handle in the set of a batch stands for the buffer that the batch took a reference to under it. -/
theorem owner (h : m.Accountable held) {c : Batch} (hc : c ∈ m.batches) {k : Nat} (hk : c.contains k) :
    ∃ x, c.owner? m.allocator k = some x ∧ m.allocator.lookup? k = some x := by
  have hmem : k ∈ c.set.2.map (·.1) := (c.contains_iff k).mp hk
  obtain ⟨x, hx⟩ := (h.filed c hc).exists_owner hmem
  have hcharged : x ∈ m.charges := by
    refine List.mem_append_left _ (List.mem_flatMap.mpr ⟨c.set, List.mem_map_of_mem hc, ?_⟩)
    exact List.mem_filterMap.mpr ⟨k, hmem, hx⟩
  obtain ⟨b, hb, -, hlookup⟩ := h.square.live (List.mem_append_right held hcharged)
  have hhandle : b.handle = k := by
    have hget := (ownerOf_some hx).1
    rw [Allocator.handles, List.getElem?_map, hb] at hget
    exact Option.some.inj hget
  exact ⟨x, hx, hhandle ▸ hlookup⟩

/-- The count of a buffer that is not freed is the number of those who hold on to it. -/
theorem refs_eq (h : m.Accountable held) {x : Nat} {b : Buffer} (hb : m.allocator.buffers[x]? = some b)
    (hfreed : b.freed = false) :
    b.refs.toInt = held.count x + m.batches.countP (·.contains b.handle) + m.submitters.countP (·.heap = some x) +
      (m.submitters.flatMap (·.queues)).countP (·.ring = x) := by
  have hlookup : m.allocator.lookup? b.handle = some x :=
    (h.square.poised.books.arena b.handle x).mpr ⟨b.account, Machine.accounts_of_buffer hb, rfl, hfreed⟩
  have hcharges := Machine.count_charges h.filed hb fun c hc hk => by
    obtain ⟨y, hy, hlookup'⟩ := h.owner hc hk
    rw [hy, ← hlookup', hlookup]
  have hrefs := h.square.refs x
  rw [Machine.refs_of_buffer hb, List.count_append, hcharges] at hrefs
  omega

/-- What a batch holds is what the handles in its set stand for. -/
theorem chargesOf_eq_lookups (h : m.Accountable held) {c : Batch} (hc : c ∈ m.batches) :
    chargesOf m.allocator.handles c.set = c.buffers.filterMap (m.allocator.lookup? ·.1) := by
  rw [chargesOf, List.filterMap_map]
  refine List.filterMap_congr fun e he => ?_
  have hk : c.contains e.1 := (c.contains_iff e.1).mpr (List.mem_map_of_mem he)
  obtain ⟨x, hx, hlookup⟩ := h.owner hc hk
  exact Eq.trans hx hlookup.symm

end Machine.Accountable

end Accounts

/-! ## Closing binds nothing -/

/-- A command stream device stays one, and has as many streams as it had. -/
def SameStreamCount (m m' : Machine κ) : Prop :=
  m.device.generation = .csf → m'.device.generation = .csf ∧ m'.device.streams.length = m.device.streams.length

namespace SameStreamCount

theorem of_progress {m m' : Machine κ} (h : m'.device.progress = m.device.progress) : SameStreamCount m m' := by
  have hlength := congrArg (·.streams.length) h
  simp only [Device.progress, List.length_map] at hlength
  exact fun hcsf => ⟨(congrArg Progress.generation h).trans hcsf, hlength⟩

instance : OfStreams (SameStreamCount (κ := κ)) where
  refl _ := of_progress rfl
  trans h h' hm := ⟨(h' (h hm).1).1, (h' (h hm).1).2.trans (h hm).2⟩
  of_other hm hcsf := absurd hcsf hm
  of_streams hp _ _ _ := of_progress hp

instance : Slotless (SameStreamCount (κ := κ)) where
  of_pace _ _ _ := fun hcsf => ⟨hcsf, rfl⟩

end SameStreamCount

variable [Kernel κ] {m₀ m m' : Machine κ} {ms : List (Machine κ)} {held : List Nat}

/-- Streams fit after a batch was closed if they fitted before. -/
theorem fits_close {id : Nat} {r : Except Halt Unit} (hfits : m.Fits) (he : (Batch.close id).exec m = (r, m'))
    (hr : Survives r) : m'.Fits := by
  have hreach : Reaches m m' := (lending_reaches.close id m).survives he hr
  have hcount : SameStreamCount m m' := (lending_of_streams.close id m).survives he hr
  have hlength : m'.device.streams.length = m.device.streams.length := by
    by_cases hcsf : m.device.generation = .csf
    · exact (hcount hcsf).2
    · exact hreach.still hcsf
  rwa [Machine.Fits, hlength, hreach.generation]

/-! ## Runs -/

/-- Whether an operation changes which references users hold directly. -/
def Operation.Lends : Operation → Prop
  | create .. | importFile _ | reference _ | unreference _ => True
  | _ => False

/-- Every other operation leaves all references accounted for. -/
theorem honors_operation {op : Operation} (hop : ¬op.Lends) (hspare : m.Spacious) :
    KeepsAt (Honors held held) op.run m := by
  cases op with
  | create size flags label => exact absurd trivial hop
  | importFile fd => exact absurd trivial hop
  | reference x => exact absurd trivial hop
  | unreference x => exact absurd trivial hop
  | evictStale => exact honors_of_abides proceeding_abides.evictStale m
  | evictAll => exact honors_of_abides proceeding_abides.evictAll m
  | createContext => exact keeps_discard (honors_of_abides (streaming_abides.createContext trivial)) m
  | destroyContext c => exact honors_of_abides (streaming_abides.destroyContext c) m
  | recreateContext c => exact honors_of_abides (streaming_abides.recreateContext c) m
  | bind c va size => exact keeps_discard (honors_of_abides (streaming_abides.bindStream trivial c va size)) m
  | rebind s => exact honors_of_abides (streaming_abides.rebindStream s) m
  | terminate s => exact honors_of_abides (streaming_abides.terminateStream trivial) m
  | submitStream s insert o n =>
    exact keeps_discard (honors_of_abides (streaming_abides.submitStream trivial (fun _ _ => trivial) insert n)) m
  | waitStream s extract o => exact keeps_discard (honors_of_abides (streaming_abides.waitStream s extract o)) m
  | createSyncobj => exact keeps_discard (honors_of_abides streaming_abides.createSyncobj) m
  | waitSyncobj o => exact keeps_discard (honors_of_abides (streaming_abides.waitSyncobj o)) m
  | createSubmitter ringSize => exact keeps_discard (honors_createSubmitter ringSize) m
  | setHeap s heap => exact honors_setHeap s heap fun x _ => hspare.refs x
  | reset s => exact honors_reset s m
  | destroy s => exact honors_destroy s m
  | startBatch s => exact keeps_discard (honors_startBatch s) m
  | use b x t => exact honors_use b x t hspare
  | addFragment b =>
    have hedit : Keeps (Honors held held) (Batch.addFragment b : Op κ Unit) := honors_editBatch b fun _ => rfl
    exact hedit m
  | requireSync b =>
    have hedit : Keeps (Honors held held) (Batch.requireSync b : Op κ Unit) := honors_editBatch b fun _ => rfl
    exact hedit m
  | submit s b vertexInsert fragmentInsert => exact honors_submit s b vertexInsert fragmentInsert m
  | closeBatch b => exact honors_close b m
  | handleEvents => exact keeps_discard (honors_of_abides proceeding_abides.handleEvents) m
  | ensureHandleEvents => exact honors_of_abides proceeding_abides.ensureHandleEvents m
  | advance i n => exact honors_of_abides (streaming_abides.advance i n) m
  | updateCallbacks i n => exact honors_of_abides (streaming_abides.updateCallbacks i n) m

/-- What users do, with the machines before each step, and the references that users hold directly in the end.  Users
give back only what they hold, and run no jobs on a command stream device with a submission context that was
destroyed.  In between time passes, and the GPU writes to memory. -/
inductive LoanRun (m₀ : Machine κ) : List (Machine κ) → List Nat → Machine κ → Prop
  | start : LoanRun m₀ [] [] m₀
  | create {ms : List (Machine κ)} {held : List Nat} {m m' : Machine κ} {size : Int64} {flags : UInt32} {label : String}
    {r : Except Halt Nat} (h : LoanRun m₀ ms held m) (he : (Allocator.create size flags label).exec m = (r, m'))
    (hr : Survives r) : LoanRun m₀ (m :: ms) (r.toOption.toList ++ held) m'
  | importFile {ms : List (Machine κ)} {held : List Nat} {m m' : Machine κ} {fd : Int} {r : Except Halt Nat}
    (h : LoanRun m₀ ms held m) (he : (Allocator.importBuffer fd).exec m = (r, m')) (hr : Survives r) :
    LoanRun m₀ (m :: ms) (r.toOption.toList ++ held) m'
  | reference {ms : List (Machine κ)} {held : List Nat} {m m' : Machine κ} {x : Nat} (h : LoanRun m₀ ms held m)
    (he : (Buffer.reference x).exec m = (.ok (), m')) : LoanRun m₀ (m :: ms) (x :: held) m'
  | unreference {ms : List (Machine κ)} {held : List Nat} {m m' : Machine κ} {x : Nat} (h : LoanRun m₀ ms held m)
    (hx : x ∈ held) (he : (Buffer.unreference x).exec m = (.ok (), m')) : LoanRun m₀ (m :: ms) (held.erase x) m'
  | work {ms : List (Machine κ)} {held : List Nat} {m m' : Machine κ} {op : Operation} {r : Except Halt Unit}
    (h : LoanRun m₀ ms held m) (hop : ¬op.Lends) (he : op.run.exec m = (r, m')) (hr : Survives r) :
    LoanRun m₀ (m :: ms) held m'
  | submitJobs {ms : List (Machine κ)} {held : List Nat} {m m' : Machine κ} {id batch : Nat} {jobChain : UInt64}
    {requirements : UInt32} {r : Except Halt UInt8} (h : LoanRun m₀ ms held m)
    (hjob : m.device.generation = .csf → ∀ s, m.submitters[id]? = some s → s.context.isSome)
    (he : (Submitter.submitJobs id batch jobChain requirements).exec m = (r, m')) (hr : Survives r) :
    LoanRun m₀ (m :: ms) held m'
  | idle {ms : List (Machine κ)} {held : List Nat} {m m' : Machine κ} (h : LoanRun m₀ ms held m)
    (hsame : SameInside m m') : LoanRun m₀ (m :: ms) held m'

omit [Kernel κ] in
/-- At the start nobody holds on to anything. -/
theorem Vacant.accountable (h : Vacant m) (hbatches : m.batches = []) (hsubmitters : m.submitters = []) :
    m.Accountable [] where
  square := by
    have hcharges : m.charges = [] := by rw [Machine.charges, hbatches, hsubmitters]; rfl
    rw [hcharges]
    refine ⟨h.poised, fun x => ?_, fun x => ?_⟩
    · have hnothing : m.waiting [] x = 0 := h.waiting x
      rw [hnothing, List.append_nil, List.count_nil, if_pos rfl]
      decide
    · rw [Machine.refs_of_accounts_none (by rw [h.accounts]; rfl)]
      rfl
  filed := by
    rw [Machine.Filed, hbatches]
    exact List.forall_mem_nil _

namespace LoanRun

/-- No step takes a stream away. -/
theorem reaches (h : LoanRun m₀ ms held m) : Reaches m₀ m := by
  induction h with
  | start => exact Journey.refl _
  | create _ he hr ih => exact ih.trans ((lending_reaches.create _ _ _ _).survives he hr)
  | importFile _ he hr ih => exact ih.trans ((operating_reaches.importBuffer _ _).survives he hr)
  | reference _ he ih => exact ih.trans ((lending_reaches.reference _).ok he)
  | unreference _ _ he ih => exact ih.trans ((lending_reaches.unreference _).ok he)
  | work _ _ he hr ih => exact ih.trans ((operating_reaches.operation (Operation.within_full _) _).survives he hr)
  | @submitJobs _ _ m m' _ _ _ _ _ _ hjob he hr ih =>
    have hhonors : Honors [] [] m m' := (honors_submitJobs _ _ _ hjob).survives he hr
    exact ih.trans hhonors.reaches
  | idle _ hsame ih => exact ih.trans (OfDevice.of_device hsame.device)

/-- Streams fit if there are no more of them than slots. -/
theorem fits (h : LoanRun m₀ ms held m) (hvacant : Vacant m₀) (hmax : m.device.streams.length ≤ slotCount) :
    m.Fits := by
  have hnone : m₀.device.streams.length = 0 := by
    have hlength := congrArg List.length hvacant.streams
    rwa [show m₀.progress.streams.length = m₀.device.streams.length from List.length_map ..] at hlength
  unfold Machine.Fits Generation.room
  split
  · exact hmax
  · rename_i hjob
    rw [h.reaches.still (h.reaches.generation ▸ hjob), hnone]

/-- Along a run every reference is accounted for.  By induction on the run. -/
theorem accountable (hdup : ∀ (k : κ) (fd d : Int), (Kernel.call k (.dup fd)).1.result = .ok d → 0 ≤ d)
    (h : LoanRun m₀ ms held m) (hstart : m₀.Accountable []) (hfits : m.Fits) (hspare : ∀ d ∈ ms, d.Spacious) :
    m.Accountable held := by
  have hstep {m m' : Machine κ} {ms : List (Machine κ)} {held held' : List Nat}
      (ih : m.Fits → (∀ d ∈ ms, d.Spacious) → m.Accountable held) (hfits : m'.Fits)
      (hspare : ∀ d ∈ m :: ms, d.Spacious) (hh : m.Spacious → Honors held held' m m') : m'.Accountable held' := by
    obtain ⟨hm, hms⟩ := List.forall_mem_cons.mp hspare
    have hh := hh hm
    exact hh.accountable hfits (ih (hh.reaches.fits hfits) hms)
  induction h with
  | start => exact hstart
  | create _ he hr ih =>
    refine hstep ih hfits hspare fun _ => .of_shifts fun owed => ?_
    rw [List.append_assoc]
    exact .of_create he hr _
  | importFile _ he hr ih =>
    refine hstep ih hfits hspare fun hm => .of_shifts fun owed => ?_
    rw [List.append_assoc]
    exact .of_import hdup hm he hr _
  | @reference _ _ _ _ x _ he ih =>
    exact hstep ih hfits hspare fun hm => .of_shifts fun owed => .of_reference (hm.refs x) he _
  | unreference _ hx he ih =>
    refine hstep ih hfits hspare fun _ => .of_shifts fun owed => .of_perm ?_ (.of_unreference he _)
    exact (List.perm_cons_erase hx).append_right owed
  | work _ hop he hr ih => exact hstep ih hfits hspare fun hm => (honors_operation hop hm).survives he hr
  | submitJobs _ hjob he hr ih => exact hstep ih hfits hspare fun _ => (honors_submitJobs _ _ _ hjob).survives he hr
  | idle _ hsame ih => exact hstep ih hfits hspare fun _ => hsame.inward

/-- Along a run, from a device of any kind and an allocator without anything on them, the count of a buffer that is not
freed is the number of references that users hold directly, batches with its handle in their sets, submission contexts
with it as their tiler heap and queues with it as their ring.  A handle in the set of a batch stands for the buffer
that it was added for.  A batch that is closed gives back one reference for each handle in its set and no other, and
its set is empty then.  No more streams may be bound than there are slots, and no count may overflow. -/
theorem references_held (hdup : ∀ (k : κ) (fd d : Int), (Kernel.call k (.dup fd)).1.result = .ok d → 0 ≤ d)
    (hvacant : Vacant m₀) (hbatches : m₀.batches = []) (hsubmitters : m₀.submitters = [])
    (h : LoanRun m₀ ms held m) (hmax : m.device.streams.length ≤ slotCount) (hspare : ∀ d ∈ ms, d.Spacious) :
    (∀ (x : Nat) (b : Buffer), m.allocator.buffers[x]? = some b → b.freed = false →
      b.refs.toInt = held.count x + m.batches.countP (·.contains b.handle) + m.submitters.countP (·.heap = some x) +
        (m.submitters.flatMap (·.queues)).countP (·.ring = x)) ∧
    (∀ c ∈ m.batches, ∀ k, c.contains k →
      ∃ x, c.owner? m.allocator k = some x ∧ m.allocator.lookup? k = some x) ∧
    ∀ {id : Nat} {c : Batch} {r : Except Halt Unit} {m' : Machine κ}, m.batches[id]? = some c →
      (Batch.close id).exec m = (r, m') → Survives r →
      (∃ c', m'.batches[id]? = some c' ∧ c'.buffers = []) ∧
      ∀ x, (m.refs x).toInt = (m'.refs x).toInt + (c.buffers.filterMap (m.allocator.lookup? ·.1)).count x := by
  have hfits := h.fits hvacant hmax
  have hm := h.accountable hdup (hvacant.accountable hbatches hsubmitters) hfits hspare
  refine ⟨fun x b hb hfreed => hm.refs_eq hb hfreed, fun c hc k hk => hm.owner hc hk, ?_⟩
  intro id c r m' hc he hr
  obtain ⟨hm', ⟨c', hc', hset⟩, hcount⟩ := close_accountable hc he hr (fits_close hfits he hr) hm
  refine ⟨⟨c', hc', (Prod.mk.inj hset).2⟩, fun x => ?_⟩
  have hone := hcount x
  rw [hm.chargesOf_eq_lookups (List.mem_of_getElem? hc)] at hone
  rw [hm.square.refs, hm'.square.refs, List.count_append, List.count_append, ← hone]
  omega

end LoanRun

/-! ## A buffer with three holders -/

omit [Kernel κ] in
/-- A machine is spacious where nothing waits on a slot and no count is at its end. -/
theorem Machine.Spacious.of_all (hlinks : m.device.slots.toList.all (·.links.isEmpty))
    (hrefs : m.allocator.buffers.all (·.refs ≠ Int32.maxValue)) : m.Spacious where
  refs x := by
    cases hx : m.allocator.buffers[x]? with
    | none =>
      rw [Machine.refs, hx]
      decide
    | some b =>
      rw [Machine.refs_of_buffer hx]
      simpa using List.all_eq_true.mp hrefs b (List.mem_of_getElem? hx)
  waiting x := by
    have hnone : m.NoLinks := by
      intro i
      show (m.device.slots[i]?.getD {}).links = []
      cases hi : m.device.slots[i]? with
      | none => rfl
      | some s =>
        have hmem : s ∈ m.device.slots.toList := Vector.mem_toList_iff.mpr (Vector.mem_of_getElem? hi)
        simpa using List.all_eq_true.mp hlinks s hmem
    rw [Machine.waiting, hnone.waiting, List.count_nil]
    decide

namespace Borrower

-- a table of 256 slots is evaluated
set_option maxRecDepth 20000

/-- A device that has records for its slots, and an empty allocator. -/
def start : Machine Generous where
  kernel := ⟨0x10000⟩
  device := { eventMemory := some ⟨0x1000, 8192⟩ }
  allocator := { started := true, cache := .empty 1 }

theorem vacant_start : Vacant start := by
  constructor
  case range => exact Int.le_refl _
  all_goals rfl

/-- Users hold a buffer. -/
def made : Machine Generous := ((Allocator.create 4096 0 "sample").exec start).2

/-- A submission context has two rings. -/
def seated : Machine Generous := ((Operation.createSubmitter 4096).run.exec made).2

/-- The buffer is its tiler heap. -/
def heaped : Machine Generous := ((Operation.setHeap 0 (some 0)).run.exec seated).2

def begun : Machine Generous := ((Operation.startBatch 0).run.exec heaped).2

/-- A batch reads the buffer. -/
def read : Machine Generous := ((Operation.use 0 0 .readVertex).run.exec begun).2

/-- It also writes it. -/
def written : Machine Generous := ((Operation.use 0 0 .writeFragment).run.exec read).2

def passed : List (Machine Generous) := [read, begun, heaped, seated, made, start]

theorem outcomes :
    ((Allocator.create 4096 0 "sample").exec start).1.toOption = some 0 ∧
    ((Operation.createSubmitter 4096).run.exec made).1.toOption = some () ∧
    ((Operation.setHeap 0 (some 0)).run.exec seated).1.toOption = some () ∧
    ((Operation.startBatch 0).run.exec heaped).1.toOption = some () ∧
    ((Operation.use 0 0 .readVertex).run.exec begun).1.toOption = some () ∧
    ((Operation.use 0 0 .writeFragment).run.exec read).1.toOption = some () := by decide +kernel

theorem run_written : LoanRun start passed [0] written := by
  obtain ⟨hmake, hseat, hheap, hbegin, hread, hwrite⟩ := outcomes
  have hmade : LoanRun start [start] [0] made := .create .start (exec_of_value hmake) trivial
  have hseated : LoanRun start [made, start] [0] seated :=
    .work hmade (show ¬(Operation.createSubmitter 4096).Lends from id) (exec_of_value hseat) trivial
  have hheaped : LoanRun start [seated, made, start] [0] heaped :=
    .work hseated (show ¬(Operation.setHeap 0 (some 0)).Lends from id) (exec_of_value hheap) trivial
  have hbegun : LoanRun start [heaped, seated, made, start] [0] begun :=
    .work hheaped (show ¬(Operation.startBatch 0).Lends from id) (exec_of_value hbegin) trivial
  have hreading : LoanRun start [begun, heaped, seated, made, start] [0] read :=
    .work hbegun (show ¬(Operation.use 0 0 .readVertex).Lends from id) (exec_of_value hread) trivial
  exact .work hreading (show ¬(Operation.use 0 0 .writeFragment).Lends from id) (exec_of_value hwrite) trivial

theorem spacious_passed : ∀ d ∈ passed, d.Spacious := by
  have hall : passed.all fun d => d.device.slots.toList.all (·.links.isEmpty) &&
      d.allocator.buffers.all (·.refs ≠ Int32.maxValue) := by decide +kernel
  intro d hd
  obtain ⟨hlinks, hrefs⟩ := (Bool.and_eq_true ..).mp (List.all_eq_true.mp hall d hd)
  exact .of_all hlinks hrefs

end Borrower

set_option maxRecDepth 20000 in
/-- A buffer that users hold, that is a tiler heap and that a batch reads and writes has three references, and one less
when the batch is closed. -/
theorem references_held_sample : LoanRun Borrower.start Borrower.passed [0] Borrower.written ∧
    (∀ d ∈ Borrower.passed, d.Spacious) ∧
    (∃ b, Borrower.written.allocator.buffers[0]? = some b ∧ b.refs.toInt = 1 + 1 + 1 + 0) ∧
    ∀ {r : Except Halt Unit} {m' : Machine Generous}, (Batch.close 0).exec Borrower.written = (r, m') → Survives r →
      (Borrower.written.refs 0).toInt = (m'.refs 0).toInt + 1 := by
  have hmax : Borrower.written.device.streams.length ≤ slotCount := by decide +kernel
  obtain ⟨hrefs, -, hclose⟩ := LoanRun.references_held Generous.dup_nonneg Borrower.vacant_start rfl rfl
    Borrower.run_written hmax Borrower.spacious_passed
  refine ⟨Borrower.run_written, Borrower.spacious_passed, ?_, ?_⟩
  · have hbuffer : (Borrower.written.allocator.buffers[0]?).map (fun b => (b.handle, b.freed)) = some (0, false) := by
      decide +kernel
    obtain ⟨b, hb, hpair⟩ := Option.map_eq_some_iff.mp hbuffer
    obtain ⟨hhandle, hfreed⟩ := Prod.mk.inj hpair
    have hcount := hrefs 0 b hb hfreed
    have hbatches : Borrower.written.batches.countP (·.contains 0) = 1 := by decide +kernel
    have hheaps : Borrower.written.submitters.countP (·.heap = some 0) = 1 := by decide +kernel
    have hrings : (Borrower.written.submitters.flatMap (·.queues)).countP (·.ring = 0) = 0 := by decide +kernel
    rw [hhandle, hbatches, hheaps, hrings] at hcount
    exact ⟨b, hb, hcount⟩
  · have hset : (Borrower.written.batches[0]?).map (fun c =>
        (c.buffers.filterMap (Borrower.written.allocator.lookup? ·.1)).count 0) = some 1 := by decide +kernel
    obtain ⟨c, hc, hone⟩ := Option.map_eq_some_iff.mp hset
    intro r m' he hr
    have hgiven := (hclose hc he hr).2 0
    rwa [hone] at hgiven

end Mali
