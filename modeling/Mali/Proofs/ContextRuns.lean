import Mali.Proofs.ContextObjects

/-!
# Contexts along a run

Contexts are made, emptied and made anew, by hand and by submission contexts, and get processor queues from the
commands given to them.  Whatever the kernel answers, and as often as it refuses, the calls made for each context come
to what its fields name: nothing is made twice, nothing is ended twice, and nothing is left behind.

* `ContextOperation`: the operations that make or end objects, and `ContextOperation.target`: the context each is for.
* `Tenancy`: operations in any order, with the calls of each.
* `Owned.count_created`: what was made was ended or is owned.
* `Tenancy.objects_balance`: the calls for a context come to what it owns.
-/

namespace Mali

open Op

/-! ## What is owned, as a count -/

theorem CallRecord.terminated_of_created {r : CallRecord} {x : KernelObject} (h : r.created = some x) :
    r.terminated = none := by
  obtain ⟨c, answer⟩ := r
  cases c with
  | ioctl fd request => cases request <;> first | rfl | cases h
  | _ => rfl

namespace Owned

/-- Whether an object is owned. -/
def names (o : Owned) : KernelObject → Bool
  | .group handle => o.group == some handle
  | .heap va => o.heap == some va
  | .cpuQueue id => o.cpuQueue == some id

theorem names_put {o o' : Owned} {y : KernelObject} (h : o.put y = some o') (x : KernelObject) :
    (o'.names x).toNat = (o.names x).toNat + if y = x then 1 else 0 := by
  cases y <;> simp only [put, Option.ite_none_right_eq_some, Option.some.injEq] at h <;> obtain ⟨hnone, rfl⟩ := h <;>
    cases x <;> simp [names, hnone, Bool.toNat, Bool.cond_eq_ite]

theorem names_take {o o' : Owned} {y : KernelObject} (h : o.take y = some o') (x : KernelObject) :
    (o.names x).toNat = (o'.names x).toNat + if y = x then 1 else 0 := by
  cases y <;> simp only [take, Option.ite_none_right_eq_some, Option.some.injEq] at h <;> obtain ⟨hsome, rfl⟩ := h <;>
    cases x <;> simp [names, hsome, Bool.toNat, Bool.cond_eq_ite]

/-- As often as an object was made it was ended, but for one that is owned. -/
theorem count_created {o : Owned} {cs : List CallRecord} {o' : Owned} (h : o.through cs = some o') (x : KernelObject) :
    cs.countP (·.created = some x) + (o.names x).toNat = cs.countP (·.terminated = some x) + (o'.names x).toNat := by
  induction cs generalizing o' with
  | nil =>
    cases h
    rfl
  | cons r cs ih =>
    obtain ⟨o₁, h₁, hafter⟩ := Option.bind_eq_some_iff.mp h
    have hih := ih h₁
    rw [List.countP_cons, List.countP_cons]
    unfold after at hafter
    cases hcreated : r.created with
    | some y =>
      rw [hcreated] at hafter
      have hput := names_put hafter x
      simp only [CallRecord.terminated_of_created hcreated, Option.some.injEq, reduceCtorEq, decide_false,
        decide_eq_true_eq, Bool.false_eq_true, if_false]
      omega
    | none =>
      rw [hcreated] at hafter
      cases hterminated : r.terminated with
      | some y =>
        rw [hterminated] at hafter
        have htake := names_take hafter x
        simp only [Option.some.injEq, reduceCtorEq, decide_false, decide_eq_true_eq, Bool.false_eq_true, if_false]
        omega
      | none =>
        rw [hterminated] at hafter
        cases hafter
        simpa using hih

/-- What a call asks to end was made more often than it was ended before. -/
theorem count_terminated_lt {later earlier : List CallRecord} {r : CallRecord} {o : Owned}
    (h : ({} : Owned).through (later ++ r :: earlier) = some o) {x : KernelObject} (hx : r.terminated = some x) :
    earlier.countP (·.terminated = some x) < earlier.countP (·.created = some x) := by
  rw [through_append] at h
  obtain ⟨o₂, h₂, -⟩ := Option.bind_eq_some_iff.mp h
  obtain ⟨o₁, h₁, hafter⟩ := Option.bind_eq_some_iff.mp h₂
  have hcount := count_created h₁ x
  have hnone : r.created = none := by
    cases hcreated : r.created with
    | none => rfl
    | some y => rw [CallRecord.terminated_of_created hcreated] at hx; cases hx
  rw [after, hnone, hx] at hafter
  have htake := names_take hafter x
  have hempty : ({} : Owned).names x = false := by cases x <;> rfl
  rw [hempty, Bool.toNat_false] at hcount
  rw [if_pos rfl] at htake
  omega

end Owned

variable {κ : Type}

/-! ## Operations -/

/-- What makes and ends the objects of contexts. -/
inductive ContextOperation where
  | create
  | recreate (context : Nat)
  | destroy (context : Nat)
  | exportFence (context : Nat)
  | importFence (context : Nat) (fd : Int)
  | setSyncWord (context : Nat) (addr value : UInt64)
  | waitSyncWord (context : Nat) (addr value : UInt64)
  | createSubmitter (ringSize : UInt32)
  | reset (submitter : Nat)
  | destroySubmitter (submitter : Nat)
  deriving DecidableEq, Repr

namespace ContextOperation

/-- Whether an operation makes a context, or makes one anew. -/
def creates : ContextOperation → Bool
  | create | recreate _ | createSubmitter _ => true
  | _ => false

/-- The context that an operation is for: the next one if it makes one, and none if a submission context has none. -/
def target (op : ContextOperation) (m : Machine κ) : Option Nat :=
  match op with
  | create | createSubmitter _ => some m.device.contexts.length
  | recreate c | destroy c | exportFence c | importFence c _ | setSyncWord c _ _ | waitSyncWord c _ _ => some c
  | reset s | destroySubmitter s => m.contextOf s

variable [Kernel κ]

/-- Does what is asked for, and forgets the answer. -/
def run : ContextOperation → Op κ Unit
  | create => discard Device.createContext
  | recreate c => Device.recreateContext c
  | destroy c => Device.destroyContext c
  | exportFence c => discard (Device.exportFence c)
  | importFence c fd => Device.importFence c fd
  | setSyncWord c addr value => Device.setSyncWord c addr value
  | waitSyncWord c addr value => Device.waitSyncWord c addr value
  | createSubmitter ringSize => discard (Submitter.create ringSize)
  | reset s => Submitter.reset s
  | destroySubmitter s => Submitter.destroy s

omit [Kernel κ] in
theorem keepsAt_discard {α : Type} {R : Machine κ → Machine κ → Prop} [Journey R] {x : Op κ α} {m : Machine κ}
    (h : KeepsAt R x m) : KeepsAt R (discard x) m := keepsAt_bind h fun _ m₁ _ => keeps_pure () m₁

/-- Every operation is for its target. -/
theorem serves (hkernel : Numbering κ) (op : ContextOperation) (m : Machine κ) :
    KeepsAt (Serves (op.target m)) op.run m := by
  have hdebug (c : Nat) (message : String) : Keeps (Serves (κ := κ) (some c)) (debug message) :=
    serves_of_bystands (keeps_debug _ _)
  cases op with
  | create => exact keepsAt_discard (serves_createContext hkernel m)
  | recreate c => exact serves_recreateContext hkernel c m
  | destroy c => exact serves_destroyContext c m
  | exportFence c =>
    exact keeps_discard (keeps_bind (hdebug c _) fun _ =>
      keeps_bind (serves_enqueueCommand c _) fun _ => keeps_pure _) m
  | importFence c fd => exact keeps_bind (hdebug c _) (fun _ => keeps_discard (serves_enqueueCommand c _)) m
  | setSyncWord c addr value => exact keeps_bind (hdebug c _) (fun _ => keeps_discard (serves_enqueueCommand c _)) m
  | waitSyncWord c addr value => exact keeps_bind (hdebug c _) (fun _ => keeps_discard (serves_enqueueCommand c _)) m
  | createSubmitter ringSize =>
    exact keepsAt_discard (keepsAt_of_exec fun he hr hcsf => (createSubmitter_ok hkernel hcsf he hr).1)
  | reset s => exact serves_reset hkernel s m
  | destroySubmitter s =>
    exact (faultless_destroy s).keepsAt fun he hcsf => (destroy_ok hcsf he).1

/-- A creation that fails leaves nothing behind. -/
theorem owned_of_fault (hkernel : Numbering κ) {op : ContextOperation} (hop : op.creates = true) {m m' : Machine κ}
    {i : Nat} {f : Fault} (hi : op.target m = some i) (hcsf : m.device.generation = .csf)
    (he : op.run.exec m = (.error (.fault f), m')) : m'.owned i = {} := by
  cases op with
  | recreate c =>
    cases hi
    exact (recreateContext_ok hkernel hcsf he trivial).2 _ rfl
  | create =>
    cases hi
    rcases bind_survives he trivial with ⟨f, h₁, -⟩ | ⟨n, m₁, -, he⟩
    · obtain ⟨-, -, hcontexts⟩ := createContext_ok hkernel hcsf h₁ trivial
      rw [← show m'.device.contexts = m.device.contexts from hcontexts]
      exact Machine.owned_of_length_le le_rfl
    · cases he
  | createSubmitter ringSize =>
    cases hi
    rcases bind_survives he trivial with ⟨f, h₁, -⟩ | ⟨n, m₁, -, he⟩
    · exact (createSubmitter_ok hkernel hcsf h₁ trivial).2 _ rfl
    · cases he
  | _ => cases hop

end ContextOperation

/-! ## Runs -/

section Kernel

variable [Kernel κ]

/-- Operations one after the other, each of which comes to a value or fails, and what stands by in between.  The log
has the calls of each with the context that they were made for, the latest first. -/
inductive Tenancy (m : Machine κ) : List (Option Nat × List CallRecord) → Machine κ → Prop
  | nil : Tenancy m [] m
  | work {log : List (Option Nat × List CallRecord)} {m₁ m₂ : Machine κ} (h : Tenancy m log m₁) (op : ContextOperation)
    {r : Except Halt Unit} (he : op.run.exec m₁ = (r, m₂)) (hr : Survives r) {cs : List CallRecord}
    (hcs : m₂.calls = cs ++ m₁.calls) : Tenancy m ((op.target m₁, cs) :: log) m₂
  | other {log : List (Option Nat × List CallRecord)} {m₁ m₂ : Machine κ} (h : Tenancy m log m₁) (hb : Bystands m₁ m₂)
    {cs : List CallRecord} (hcs : m₂.calls = cs ++ m₁.calls) : Tenancy m ((none, cs) :: log) m₂

omit [Kernel κ] in
/-- The calls that were made for a context, the latest first. -/
def callsFor (i : Nat) (log : List (Option Nat × List CallRecord)) : List CallRecord :=
  (log.filter (·.1 = some i)).flatMap (·.2)

/-- What has come of the calls in a log: the calls for each context come to what it owns. -/
structure Settled (m : Machine κ) (log : List (Option Nat × List CallRecord)) (m' : Machine κ) : Prop where
  generation : m'.device.generation = .csf
  calls : m'.calls = log.flatMap (·.2) ++ m.calls
  unconcerned : ∀ cs, (none, cs) ∈ log → ∀ r ∈ cs, r.call.concernsObject = false
  owned : ∀ i, (m.owned i).through (callsFor i log) = some (m'.owned i)

omit [Kernel κ] in
/-- One operation more. -/
theorem Settled.next {m m₁ m₂ : Machine κ} {log : List (Option Nat × List CallRecord)} {o : Option Nat}
    {cs : List CallRecord} (h : Settled m log m₁) (hserved : Tended o m₁ m₂) (hcs : m₂.calls = cs ++ m₁.calls) :
    Settled m ((o, cs) :: log) m₂ := by
  obtain ⟨cs', hcs', hnone, hsome⟩ := hserved.calls
  obtain rfl : cs = cs' := List.append_cancel_right (hcs.symm.trans hcs')
  refine ⟨hserved.generation, by rw [hcs, h.calls, List.flatMap_cons, List.append_assoc], fun ds hmem => ?_,
    fun i => ?_⟩
  · rcases List.mem_cons.mp hmem with heq | hmem
    · cases heq
      exact hnone rfl
    · exact h.unconcerned ds hmem
  · by_cases hi : o = some i
    · rw [callsFor, List.filter_cons_of_pos (by simpa using hi), List.flatMap_cons, Owned.through_append]
      rw [show List.flatMap _ _ = callsFor i log from rfl, h.owned i, Option.bind_some, hsome i hi]
    · rw [callsFor, List.filter_cons_of_neg (by simpa using hi), hserved.others i hi]
      exact h.owned i

/-- By induction on the run. -/
theorem Tenancy.settled (hkernel : Numbering κ) {m m' : Machine κ} {log : List (Option Nat × List CallRecord)}
    (h : Tenancy m log m') (hcsf : m.device.generation = .csf) : Settled m log m' := by
  induction h with
  | nil => exact ⟨hcsf, rfl, nofun, fun _ => rfl⟩
  | work h op he hr hcs ih => exact ih.next ((op.serves hkernel _).survives he hr ih.generation) hcs
  | other h hb hcs ih => exact ih.next ((hb ih.generation).tended ih.generation) hcs

/-- Along a run of operations on contexts, which may fail wherever the kernel refuses something, every call that makes
or ends an object was made for one context.  The calls for a context made at most one object of each kind that was not
ended, and ended only what was there; what is there is what its fields name, so every object was made as often as it
was ended but for those.  A creation that fails leaves nothing behind, and neither does one that makes a context anew. -/
theorem Tenancy.objects_balance (hkernel : Numbering κ) {m m' : Machine κ} {log : List (Option Nat × List CallRecord)}
    (h : Tenancy m log m') (hcsf : m.device.generation = .csf) (hcontexts : m.device.contexts = []) :
    m'.calls = log.flatMap (·.2) ++ m.calls ∧
      (∀ cs, (none, cs) ∈ log → ∀ r ∈ cs, r.call.concernsObject = false) ∧
      (∀ i, ({} : Owned).through (callsFor i log) = some (m'.owned i)) ∧
      (∀ i x, (callsFor i log).countP (·.created = some x) =
        (callsFor i log).countP (·.terminated = some x) + ((m'.owned i).names x).toNat) ∧
      (∀ i later r earlier x, callsFor i log = later ++ r :: earlier → r.terminated = some x →
        earlier.countP (·.terminated = some x) < earlier.countP (·.created = some x)) ∧
      ∀ (op : ContextOperation) (i : Nat) (f : Fault) (m'' : Machine κ), op.creates = true → op.target m' = some i →
        op.run.exec m' = (.error (.fault f), m'') → m''.owned i = {} := by
  have hsettled := h.settled hkernel hcsf
  have hthrough (i : Nat) : ({} : Owned).through (callsFor i log) = some (m'.owned i) := by
    rw [← hsettled.owned i, Machine.owned_of_length_le (by rw [hcontexts]; exact Nat.zero_le i)]
  refine ⟨hsettled.calls, hsettled.unconcerned, hthrough, fun i x => ?_, fun i later r earlier x heq hx => ?_,
    fun op i f m'' hop hi he => ?_⟩
  · have hcount := Owned.count_created (hthrough i) x
    rwa [show ({} : Owned).names x = false by cases x <;> rfl, Bool.toNat_false, Nat.add_zero] at hcount
  · exact Owned.count_terminated_lt (heq ▸ hthrough i) hx
  · exact ContextOperation.owned_of_fault hkernel hop hi hsettled.generation he

/-- Whether operations one after the other all come to a value or fail. -/
def ContextOperation.allSurvive : List ContextOperation → Machine κ → Bool
  | [], _ => true
  | op :: ops, m =>
    (match (op.run.exec m).1 with
      | .ok _ | .error (.fault _) => true
      | _ => false) && allSurvive ops (op.run.exec m).2

/-- The machine that operations one after the other leave. -/
def ContextOperation.afterAll : List ContextOperation → Machine κ → Machine κ
  | [], m => m
  | op :: ops, m => afterAll ops (op.run.exec m).2

/-- Operations that come to a value or fail are a run. -/
theorem Tenancy.afterAll (hkernel : Numbering κ) {m m₁ : Machine κ} {log : List (Option Nat × List CallRecord)}
    (h : Tenancy m log m₁) (hcsf : m.device.generation = .csf) {ops : List ContextOperation}
    (hops : ContextOperation.allSurvive ops m₁ = true) :
    ∃ log', Tenancy m log' (ContextOperation.afterAll ops m₁) := by
  induction ops generalizing m₁ log with
  | nil => exact ⟨log, h⟩
  | cons op ops ih =>
    obtain ⟨hfirst, hrest⟩ := Bool.and_eq_true_iff.mp hops
    have hr : Survives (op.run.exec m₁).1 := by
      revert hfirst
      cases (op.run.exec m₁).1 with
      | ok _ => exact fun _ => trivial
      | error e => cases e <;> first | exact fun _ => trivial | exact nofun
    obtain ⟨cs, hcs, -⟩ := ((op.serves hkernel m₁) hr (h.settled hkernel hcsf).generation).calls
    exact ih (.work h op rfl hr hcs) hrest

end Kernel

/-! ## A landlord -/

/-- A kernel that refuses every second heap, and has no memory. -/
structure Landlord where
  heaps : Nat

instance : Kernel Landlord where
  call k
    | .ioctl _ (.csQueueGroupCreate _) => ({ result := .ok ⟨7, 1⟩ }, k)
    | .ioctl _ (.csTilerHeapInit _) =>
      ({ result := if k.heaps % 2 = 0 then .ok ⟨0x44000, 0x45000⟩ else .error .nomem }, ⟨k.heaps + 1⟩)
    | .ioctl _ .kcpuQueueCreate => ({ result := .ok 3 }, k)
    | .ioctl _ (.kcpuQueueEnqueue ..) => ({ result := .ok [] }, k)
    | _ => ({ result := .error .inval }, k)
  now _ := 0
  pageSize _ := 4096
  simulated _ := false

namespace Landlord

theorem numbering : Numbering Landlord where
  group _ _ _ reply h := by
    obtain rfl : (⟨7, 1⟩ : GroupReply) = reply := Except.ok.inj h
    decide
  heap k _ _ reply h := by
    have h : (if k.heaps % 2 = 0 then .ok ⟨0x44000, 0x45000⟩ else .error .nomem : Except Errno HeapReply) =
      .ok reply := h
    split at h
    · cases h
      decide
    · cases h

def start : Machine Landlord where
  kernel := ⟨0⟩
  allocator := { started := true }

/-- A context is made, gets a processor queue, fails to be made anew, is destroyed, made anew and destroyed twice.  In
between a second context and a submission context fail. -/
def operations : List ContextOperation :=
  [.create, .exportFence 0, .recreate 0, .destroy 0, .recreate 0, .create, .createSubmitter 4096, .destroy 0,
    .destroy 0]

-- a table of 256 slots is evaluated
set_option maxRecDepth 20000

theorem outcomes : ContextOperation.allSurvive operations start = true ∧
    (((ContextOperation.afterAll operations start).calls.map (·.created)).countP (·.isSome) = 9) ∧
    (ContextOperation.afterAll operations start).device.contexts.length = 2 := by
  decide +kernel

end Landlord

/-- Objects are made and ended, and nothing is left. -/
theorem objects_balance_sample : ∃ log,
    Tenancy Landlord.start log (ContextOperation.afterAll Landlord.operations Landlord.start) ∧
    ((log.flatMap (·.2)).map (·.created)).countP (·.isSome) = 9 ∧
    ∀ i, ({} : Owned).through (callsFor i log) =
      some ((ContextOperation.afterAll Landlord.operations Landlord.start).owned i) := by
  obtain ⟨hsurvive, hmade, -⟩ := Landlord.outcomes
  obtain ⟨log, hlog⟩ := Tenancy.nil.afterAll Landlord.numbering rfl hsurvive
  obtain ⟨hcalls, -, hthrough, -⟩ := Tenancy.objects_balance Landlord.numbering hlog rfl rfl
  rw [hcalls, show Landlord.start.calls = [] from rfl, List.append_nil] at hmade
  exact ⟨log, hlog, hmade, hthrough⟩

end Mali
