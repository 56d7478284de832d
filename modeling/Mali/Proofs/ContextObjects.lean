import Mali.Device.CpuQueue
import Mali.Proofs.Bystanders
import Mali.Proofs.Proceedings

/-!
# The kernel objects of contexts

What a context owns can be computed from the calls made for it: an object is there from the answer that gave it out
until the request to end it, whatever the kernel answers to that.  The computation stops at a call that makes a second
object of a kind, and at one that ends an object that is not there.  It never stops, and what it comes to is what the
fields of the context name, as long as the kernel gives no group the number zero and no heap the address zero.

* `CallRecord.created`, `CallRecord.terminated`: what a call made, and what it asked to end.
* `Owned.through`: what is owned after some calls.
* `Turns`: calls that make of one context what it is afterwards.
* `Serves`: an operation for one context, which leaves the others alone.
* `serves_destroyContext`, `serves_reset` and the like: the operations that make or end objects.
-/

namespace Mali

open Op

/-- What a context can own. -/
inductive KernelObject where
  | group (handle : UInt8)
  | heap (va : UInt64)
  | cpuQueue (id : UInt8)
  deriving DecidableEq, Repr

/-- The object that a call made. -/
def CallRecord.created : CallRecord → Option KernelObject
  | ⟨.ioctl _ (.csQueueGroupCreate _), .ok reply⟩ => some (.group reply.handle)
  | ⟨.ioctl _ (.csTilerHeapInit _), .ok reply⟩ => some (.heap reply.heapVa)
  | ⟨.ioctl _ .kcpuQueueCreate, .ok id⟩ => some (.cpuQueue id)
  | _ => none

/-- The object that a call asked to end. -/
def CallRecord.terminated : CallRecord → Option KernelObject
  | ⟨.ioctl _ (.csQueueGroupTerminate handle), _⟩ => some (.group handle)
  | ⟨.ioctl _ (.csTilerHeapTerm va), _⟩ => some (.heap va)
  | ⟨.ioctl _ (.kcpuQueueDelete id), _⟩ => some (.cpuQueue id)
  | _ => none

namespace Owned

/-- Owning one object more, if there is room for it. -/
def put (o : Owned) : KernelObject → Option Owned
  | .group handle => if o.group = none then some { o with group := some handle } else none
  | .heap va => if o.heap = none then some { o with heap := some va } else none
  | .cpuQueue id => if o.cpuQueue = none then some { o with cpuQueue := some id } else none

/-- Owning one object less, if it is there. -/
def take (o : Owned) : KernelObject → Option Owned
  | .group handle => if o.group = some handle then some { o with group := none } else none
  | .heap va => if o.heap = some va then some { o with heap := none } else none
  | .cpuQueue id => if o.cpuQueue = some id then some { o with cpuQueue := none } else none

/-- What is owned after a call, if there is room for what it made and what it asked to end is there. -/
def after (o : Owned) (r : CallRecord) : Option Owned :=
  match r.created, r.terminated with
  | some x, _ => o.put x
  | none, some x => o.take x
  | none, none => some o

/-- What is owned after some calls, the latest first. -/
def through (o : Owned) : List CallRecord → Option Owned
  | [] => some o
  | r :: earlier => (o.through earlier).bind (·.after r)

theorem through_append (o : Owned) (later earlier : List CallRecord) :
    o.through (later ++ earlier) = (o.through earlier).bind (·.through later) := by
  induction later with
  | nil => simp [through]
  | cons r later ih =>
    rw [List.cons_append, through, ih, Option.bind_assoc]
    rfl

/-- Calls that do not concern objects change nothing. -/
theorem after_of_unconcerned (o : Owned) {r : CallRecord} (hr : r.call.concernsObject = false) :
    o.after r = some o := by
  obtain ⟨c, answer⟩ := r
  unfold after
  cases c with
  | ioctl fd request => cases request <;> first | rfl | cases hr
  | _ => rfl

theorem through_of_unconcerned (o : Owned) {cs : List CallRecord} (hcs : ∀ r ∈ cs, r.call.concernsObject = false) :
    o.through cs = some o := by
  induction cs with
  | nil => rfl
  | cons r cs ih =>
    rw [through, ih fun r hr => hcs r (List.mem_cons_of_mem _ hr), Option.bind_some,
      o.after_of_unconcerned (hcs r List.mem_cons_self)]

end Owned

variable {κ : Type}

/-- What a context owns, by its number. -/
def Machine.owned (m : Machine κ) (i : Nat) : Owned := (m.device.contexts.map Context.owned)[i]?.getD {}

theorem Machine.owned_of_context {m : Machine κ} {i : Nat} {c : Context} (h : m.device.contexts[i]? = some c) :
    m.owned i = c.owned := by
  rw [owned, List.getElem?_map, h]
  rfl

/-- A number that no context has yet owns nothing. -/
theorem Machine.owned_of_length_le {m : Machine κ} {i : Nat} (h : m.device.contexts.length ≤ i) : m.owned i = {} := by
  rw [owned, List.getElem?_eq_none (by rwa [List.length_map])]
  rfl

/-! ## Calls for one context -/

/-- Calls that turn what is owned into something else, and leave everything inside the library as it is. -/
structure Turns (o o' : Owned) (m m' : Machine κ) : Prop where
  inside : SameInside m m'
  calls : ∃ cs, m'.calls = cs ++ m.calls ∧ o.through cs = some o'

namespace Turns

variable {o o₁ o' : Owned} {m m₁ m' : Machine κ}

theorem refl (o : Owned) (m : Machine κ) : Turns o o m m := ⟨Journey.refl m, [], rfl, rfl⟩

theorem trans (h : Turns o o₁ m m₁) (h' : Turns o₁ o' m₁ m') : Turns o o' m m' := by
  obtain ⟨cs, hcs, hthrough⟩ := h.calls
  obtain ⟨cs', hcs', hthrough'⟩ := h'.calls
  refine ⟨Journey.trans h.inside h'.inside, cs' ++ cs, ?_, ?_⟩
  · rw [hcs', hcs, List.append_assoc]
  · rw [Owned.through_append, hthrough, Option.bind_some, hthrough']

/-- One call is made. -/
theorem of_call {r : CallRecord} (hinside : SameInside m m') (hcalls : m'.calls = r :: m.calls)
    (hafter : o.after r = some o') : Turns o o' m m' := ⟨hinside, [r], hcalls, by rw [Owned.through, Owned.through,
      Option.bind_some, hafter]⟩

theorem generation (h : Turns o o' m m') (hcsf : m.device.generation = .csf) : m'.device.generation = .csf :=
  (congrArg Device.generation h.inside.device).trans hcsf

end Turns

variable [Kernel κ]

/-- On a command stream device a request that is tried is one call. -/
theorem attemptRequest_ok {asking name : String} {r : Ioctl} {m m' : Machine κ} {a : Except Fault r.Reply}
    (hcsf : m.device.generation = .csf)
    (he : (attempt (Interface.streamRequest asking name r)).exec m = (.ok a, m')) :
    SameInside m m' ∧ ∃ answer : Except Errno r.Reply,
      m'.calls = ⟨.ioctl m.device.fd r, answer⟩ :: m.calls ∧
      (Kernel.call m.kernel (.ioctl m.device.fd r)).1.result = answer ∧
      ∀ reply, a = .ok reply ↔ answer = .ok reply := by
  have hrequest : (Interface.streamRequest asking name r).exec m = (Interface.request name r).exec m := by
    unfold Interface.streamRequest
    rw [exec_bind_of_ok (exec_device m), hcsf]
  rw [exec_attempt, hrequest] at he
  unfold Interface.request at he
  rw [exec_bind_of_ok (exec_device m), exec_bind_of_ok (exec_call _ m)] at he
  cases hanswer : (Kernel.call m.kernel (.ioctl m.device.fd r)).1.result with
  | ok reply =>
    rw [hanswer] at he
    cases he
    exact ⟨⟨rfl, rfl, rfl, rfl⟩, .ok reply, rfl, rfl, fun _ => ⟨fun h => by cases h; rfl, fun h => by cases h; rfl⟩⟩
  | error e =>
    rw [hanswer] at he
    dsimp only at he
    rw [exec_bind_of_ok (exec_error _ _ _)] at he
    cases he
    exact ⟨⟨rfl, rfl, rfl, rfl⟩, .error e, rfl, rfl, fun _ => ⟨nofun, nofun⟩⟩

/-- A request whose failure does not matter. -/
theorem ignoreRequest_ok {asking name : String} {r : Ioctl} {m m' : Machine κ} {u : Unit}
    (hcsf : m.device.generation = .csf)
    (he : (ignore (Interface.streamRequest asking name r)).exec m = (.ok u, m')) :
    SameInside m m' ∧ ∃ answer : Except Errno r.Reply, m'.calls = ⟨.ioctl m.device.fd r, answer⟩ :: m.calls := by
  obtain ⟨a, m₁, h₁, he⟩ := bind_ok he
  cases he
  obtain ⟨hinside, answer, hcalls, -⟩ := attemptRequest_ok hcsf h₁
  exact ⟨hinside, answer, hcalls⟩

/-! ## Emptying and filling a context -/

/-- What a kernel never answers: a group with the number zero, or a heap at the address zero. -/
structure Numbering (κ : Type) [Kernel κ] : Prop where
  group : ∀ (k : κ) (fd : Int) (r : GroupRequest) (reply : GroupReply),
    (Kernel.call k (.ioctl fd (.csQueueGroupCreate r))).1.result = .ok reply → reply.uid ≠ 0
  heap : ∀ (k : κ) (fd : Int) (r : HeapRequest) (reply : HeapReply),
    (Kernel.call k (.ioctl fd (.csTilerHeapInit r))).1.result = .ok reply → reply.heapVa ≠ 0

section Contexts

variable {m m' : Machine κ} {c c' : Context}

theorem endGroup_ok (hcsf : m.device.generation = .csf) (he : (Device.endGroup c).exec m = (.ok c', m')) :
    Turns c.owned c'.owned m m' ∧ c'.owned = { c.owned with group := none } := by
  unfold Device.endGroup at he
  split at he
  · rename_i huid
    cases he
    exact ⟨.refl _ _, by simp [Context.owned, huid]⟩
  · rename_i huid
    obtain ⟨_, m₁, h₁, he⟩ := bind_ok he
    cases he
    obtain ⟨hinside, answer, hcalls⟩ := ignoreRequest_ok hcsf h₁
    refine ⟨.of_call hinside hcalls ?_, by simp [Context.owned]⟩
    simp [Owned.after, CallRecord.created, CallRecord.terminated, Owned.take, Context.owned, huid]

theorem endHeap_ok (hcsf : m.device.generation = .csf) (he : (Device.endHeap c).exec m = (.ok c', m')) :
    Turns c.owned c'.owned m m' ∧ c'.owned = { c.owned with heap := none } := by
  unfold Device.endHeap at he
  split at he
  · rename_i hva
    cases he
    exact ⟨.refl _ _, by simp [Context.owned, hva]⟩
  · rename_i hva
    obtain ⟨_, m₁, h₁, he⟩ := bind_ok he
    cases he
    obtain ⟨hinside, answer, hcalls⟩ := ignoreRequest_ok hcsf h₁
    refine ⟨.of_call hinside hcalls ?_, by simp [Context.owned]⟩
    simp [Owned.after, CallRecord.created, CallRecord.terminated, Owned.take, Context.owned, hva]

theorem endCpuQueue_ok (hcsf : m.device.generation = .csf) (he : (Device.endCpuQueue c).exec m = (.ok c', m')) :
    Turns c.owned c'.owned m m' ∧ c'.owned = { c.owned with cpuQueue := none } := by
  unfold Device.endCpuQueue at he
  split at he
  · rename_i hqueue
    cases he
    exact ⟨.refl _ _, by simp [Context.owned, hqueue]⟩
  · rename_i id hqueue
    obtain ⟨_, m₁, h₁, he⟩ := bind_ok he
    cases he
    obtain ⟨hinside, answer, hcalls⟩ := ignoreRequest_ok hcsf h₁
    refine ⟨.of_call hinside hcalls ?_, by simp [Context.owned]⟩
    simp [Owned.after, CallRecord.created, CallRecord.terminated, Owned.take, Context.owned, hqueue]

/-- A context that is emptied owns nothing. -/
theorem drainContext_ok (hcsf : m.device.generation = .csf) (he : (Device.drainContext c).exec m = (.ok c', m')) :
    Turns c.owned {} m m' ∧ c'.owned = {} := by
  obtain ⟨c₁, m₁, h₁, he⟩ := bind_ok he
  obtain ⟨c₂, m₂, h₂, he⟩ := bind_ok he
  obtain ⟨hturns₁, howned₁⟩ := endCpuQueue_ok hcsf h₁
  obtain ⟨hturns₂, howned₂⟩ := endHeap_ok (hturns₁.generation hcsf) h₂
  obtain ⟨hturns₃, howned₃⟩ := endGroup_ok (hturns₂.generation (hturns₁.generation hcsf)) he
  have hnone : c'.owned = {} := by rw [howned₃, howned₂, howned₁]
  exact ⟨hnone ▸ (hturns₁.trans hturns₂).trans hturns₃, hnone⟩

/-- A context that owns nothing gets a group and a heap, or still owns nothing. -/
theorem fillContext_ok (hkernel : Numbering κ) (hcsf : m.device.generation = .csf) (hc : c.owned = {})
    {fault : Option Fault} (he : (Device.fillContext c).exec m = (.ok (c', fault), m')) :
    Turns {} c'.owned m m' ∧ (fault.isSome → c'.owned = {}) := by
  have hheap : c.heapVa = 0 := by simpa [Context.owned] using congrArg Owned.heap hc
  have hqueue : c.cpuQueue = none := congrArg Owned.cpuQueue hc
  unfold Device.fillContext at he
  rw [exec_bind_of_ok (exec_device m)] at he
  obtain ⟨g, m₁, h₁, he⟩ := bind_ok he
  obtain ⟨hinside₁, answer, hcalls₁, hkernel₁, hreply⟩ := attemptRequest_ok hcsf h₁
  cases g with
  | error f =>
    cases he
    refine ⟨hc ▸ .of_call hinside₁ hcalls₁ ?_, fun _ => hc⟩
    cases answer with
    | error e => rfl
    | ok reply => exact absurd ((hreply reply).mpr rfl) nofun
  | ok g =>
    cases (hreply g).mp rfl
    have huid : g.uid ≠ 0 := hkernel.group _ _ _ g hkernel₁
    dsimp only at he
    rw [if_neg huid] at he
    -- the group is there
    have hturns₁ : Turns {} { group := some g.handle } m m₁ := .of_call hinside₁ hcalls₁ rfl
    have hfilled : ({ c with group := g.handle, uid := g.uid } : Context).owned = { group := some g.handle } := by
      simp [Context.owned, huid, hheap, hqueue]
    obtain ⟨h, m₂, h₂, he⟩ := bind_ok he
    obtain ⟨hinside₂, answer, hcalls₂, hkernel₂, hreply₂⟩ := attemptRequest_ok (hturns₁.generation hcsf) h₂
    cases h with
    | error f =>
      have hturns₂ : Turns { group := some g.handle } { group := some g.handle } m₁ m₂ := by
        refine .of_call hinside₂ hcalls₂ ?_
        cases answer with
        | error e => rfl
        | ok reply => exact absurd ((hreply₂ reply).mpr rfl) nofun
      obtain ⟨c₂, m₃, h₃, he⟩ := bind_ok he
      cases he
      obtain ⟨hturns₃, howned₃⟩ := endGroup_ok (hturns₂.generation (hturns₁.generation hcsf)) h₃
      rw [hfilled] at hturns₃ howned₃
      exact ⟨(hturns₁.trans hturns₂).trans hturns₃, fun _ => howned₃⟩
    | ok h =>
      cases (hreply₂ h).mp rfl
      have hva : h.heapVa ≠ 0 := hkernel.heap _ _ _ h hkernel₂
      cases he
      have hfull : ({ c with group := g.handle, uid := g.uid, heapVa := h.heapVa, heapHeader := h.firstChunkVa } :
          Context).owned = { group := some g.handle, heap := some h.heapVa } := by
        simp [Context.owned, huid, hva, hqueue]
      exact ⟨hfull ▸ hturns₁.trans (.of_call hinside₂ hcalls₂ rfl), nofun⟩

end Contexts

/-! ## Operations for one context -/

/-- An operation for one context, or for none: the calls turn what the context owns into what it owns afterwards, and
the other contexts are left alone. -/
structure Tended (o : Option Nat) (m m' : Machine κ) : Prop where
  generation : m'.device.generation = .csf
  others : ∀ j, o ≠ some j → m'.owned j = m.owned j
  calls : ∃ cs, m'.calls = cs ++ m.calls ∧ (o = none → ∀ r ∈ cs, r.call.concernsObject = false) ∧
    ∀ i, o = some i → (m.owned i).through cs = some (m'.owned i)

/-- On a command stream device an operation is for one context, or for none. -/
def Serves (o : Option Nat) (m m' : Machine κ) : Prop := m.device.generation = .csf → Tended o m m'

section Serves

omit [Kernel κ]

variable {o : Option Nat} {i : Nat} {m m₁ m' : Machine κ}

theorem Tended.trans (h : Tended o m m₁) (h' : Tended o m₁ m') : Tended o m m' := by
  obtain ⟨cs, hcs, hnone, hsome⟩ := h.calls
  obtain ⟨cs', hcs', hnone', hsome'⟩ := h'.calls
  refine ⟨h'.generation, fun j hj => (h'.others j hj).trans (h.others j hj), cs' ++ cs, ?_, fun ho r hr => ?_,
    fun i hi => ?_⟩
  · rw [hcs', hcs, List.append_assoc]
  · exact (List.mem_append.mp hr).elim (hnone' ho r) (hnone ho r)
  · rw [Owned.through_append, hsome i hi, Option.bind_some, hsome' i hi]

theorem StandsBy.owned_eq (h : StandsBy m m') (j : Nat) : m'.owned j = m.owned j := by
  rw [Machine.owned, h.owned, Machine.owned]

theorem StandsBy.tended (h : StandsBy m m') (hcsf : m.device.generation = .csf) : Tended o m m' := by
  obtain ⟨cs, hcs, hnone⟩ := h.calls
  exact ⟨h.generation.trans hcsf, fun j _ => h.owned_eq j, cs, hcs, fun _ => hnone,
    fun i _ => by rw [h.owned_eq, Owned.through_of_unconcerned _ hnone]⟩

instance : Journey (Serves (κ := κ) o) where
  refl _ hcsf := StandsBy.tended (.of_same rfl rfl rfl rfl) hcsf
  trans h h' hcsf := (h hcsf).trans (h' (h hcsf).generation)

theorem serves_of_bystands {α : Type} {x : Op κ α} (h : Keeps Bystands x) : Keeps (Serves o) x :=
  h.mono fun _ _ hb hcsf => (hb hcsf).tended hcsf

/-- The calls for a context made of it what takes its place. -/
theorem Turns.tended {c c' : Context} (h : Turns c.owned c'.owned m m₁) (hcsf : m.device.generation = .csf)
    (hc : m.device.contexts[i]? = some c)
    (hd : m'.device = { m₁.device with contexts := m₁.device.contexts.modify i fun _ => c' })
    (hcalls : m'.calls = m₁.calls) : Tended (some i) m m' := by
  obtain ⟨cs, hcs, hthrough⟩ := h.calls
  have hcontexts : m'.device.contexts = m.device.contexts.modify i fun _ => c' := by rw [hd, h.inside.device]
  refine ⟨by rw [hd]; exact h.generation hcsf, fun j hj => ?_, cs, by rw [hcalls, hcs], nofun, fun k hk => ?_⟩
  · have hne : i ≠ j := fun he => hj (congrArg some he)
    rw [Machine.owned, hcontexts, List.getElem?_map, List.getElem?_modify_ne _ _ hne, Machine.owned, List.getElem?_map]
  · cases hk
    have hc' : m'.device.contexts[i]? = some c' := by rw [hcontexts, List.getElem?_modify_eq, hc]; rfl
    rw [Machine.owned_of_context hc, Machine.owned_of_context hc', hthrough]

end Serves

/-! ## Contexts of a device -/

omit [Kernel κ] in
theorem faultless_context (i : Nat) : Faultless (Device.context i : Op κ Context) :=
  faultless_bind faultless_device fun _ => faultless_require _

omit [Kernel κ] in
/-- A sequence that begins by reading a context goes on from the same machine. -/
theorem bind_context_survives {α : Type} {i : Nat} {f : Context → Op κ α} {m m' : Machine κ} {r : Except Halt α}
    (he : (Device.context i >>= f).exec m = (r, m')) (hr : Survives r) :
    ∃ c, m.device.contexts[i]? = some c ∧ (f c).exec m = (r, m') := by
  unfold Device.context at he
  rw [bind_assoc, exec_bind_of_ok (exec_device m)] at he
  cases hc : m.device.contexts[i]? with
  | none =>
    rw [hc, exec_bind] at he
    cases he
    exact absurd hr not_survives_crash
  | some c =>
    rw [hc, exec_bind_of_ok (exec_require_some c m)] at he
    exact ⟨c, rfl, he⟩

theorem faultless_endGroup (c : Context) : Faultless (Device.endGroup c : Op κ Context) := by
  unfold Device.endGroup
  split
  · exact faultless_pure c
  · exact faultless_bind (faultless_ignore _) fun _ => faultless_pure _

theorem faultless_drainContext (c : Context) : Faultless (Device.drainContext c : Op κ Context) := by
  have hqueue : Faultless (Device.endCpuQueue c : Op κ Context) := by
    unfold Device.endCpuQueue
    split
    · exact faultless_pure c
    · exact faultless_bind (faultless_ignore _) fun _ => faultless_pure _
  have hheap (c : Context) : Faultless (Device.endHeap c : Op κ Context) := by
    unfold Device.endHeap
    split
    · exact faultless_pure c
    · exact faultless_bind (faultless_ignore _) fun _ => faultless_pure _
  exact faultless_bind hqueue fun c => faultless_bind (hheap c) fun c => faultless_endGroup c

theorem faultless_fillContext (c : Context) : Faultless (Device.fillContext c : Op κ _) := by
  unfold Device.fillContext
  refine faultless_bind faultless_device fun d => faultless_bind (faultless_attempt _) fun g => ?_
  cases g with
  | error f => exact faultless_pure _
  | ok g =>
    dsimp only
    split
    · exact faultless_pure _
    · refine faultless_bind (faultless_attempt _) fun h => ?_
      cases h with
      | error f => exact faultless_bind (faultless_endGroup _) fun _ => faultless_pure _
      | ok h => exact faultless_pure _

section Contexts

variable {m m' : Machine κ} {r : Except Halt Unit}

/-- A context that is destroyed owns nothing afterwards. -/
theorem destroyContext_ok {i : Nat} {u : Unit} (hcsf : m.device.generation = .csf)
    (he : (Device.destroyContext i).exec m = (.ok u, m')) :
    Tended (some i) m m' ∧ m'.owned i = {} ∧ m'.submitters = m.submitters := by
  obtain ⟨_, m₁, h₁, he⟩ := bind_ok he
  have hstill : Turns (m.owned i) (m.owned i) m m₁ := by
    rw [exec_debug] at h₁
    cases h₁
    exact ⟨⟨rfl, rfl, rfl, rfl⟩, [], rfl, rfl⟩
  obtain ⟨c, hc, he⟩ := bind_context_survives he trivial
  obtain ⟨c', m₂, h₂, he⟩ := bind_ok he
  obtain ⟨hturns, howned⟩ := drainContext_ok (hstill.generation hcsf) h₂
  cases he
  have hc₀ : m.device.contexts[i]? = some c := by rwa [← hstill.inside.device]
  rw [Machine.owned_of_context hc₀] at hstill
  have hall : Turns c.owned c'.owned m m₂ := howned ▸ hstill.trans hturns
  refine ⟨hall.tended hcsf hc₀ rfl rfl, ?_, hall.inside.submitters⟩
  have hc' : (m₂.device.contexts.modify i fun _ => c')[i]? = some c' := by
    rw [hall.inside.device, List.getElem?_modify_eq, hc₀]
    rfl
  exact (Machine.owned_of_context hc').trans howned

theorem faultless_destroyContext (i : Nat) : Faultless (Device.destroyContext i : Op κ Unit) :=
  faultless_bind (faultless_debug _ _) fun _ => faultless_bind (faultless_context i) fun c =>
    faultless_bind (faultless_drainContext c) fun _ => faultless_modifyDevice _

theorem serves_destroyContext (i : Nat) : Keeps (Serves (κ := κ) (some i)) (Device.destroyContext i) :=
  (faultless_destroyContext i).keeps fun he hcsf => (destroyContext_ok hcsf he).1

/-- A context that is made anew is emptied first, and stays empty if that fails. -/
theorem recreateContext_ok (hkernel : Numbering κ) {i : Nat} {r : Except Halt Unit} (hcsf : m.device.generation = .csf)
    (he : (Device.recreateContext i).exec m = (r, m')) (hr : Survives r) :
    Tended (some i) m m' ∧ ∀ f, r = .error f → m'.owned i = {} := by
  obtain ⟨_, m₁, h₁, he⟩ := (faultless_debug _ _).bind_survives he hr
  have hstill : Turns (m.owned i) (m.owned i) m m₁ := by
    rw [exec_debug] at h₁
    cases h₁
    exact ⟨⟨rfl, rfl, rfl, rfl⟩, [], rfl, rfl⟩
  obtain ⟨c, hc, he⟩ := bind_context_survives he hr
  obtain ⟨c₁, m₂, h₂, he⟩ := (faultless_drainContext c).bind_survives he hr
  obtain ⟨hturns, howned⟩ := drainContext_ok (hstill.generation hcsf) h₂
  obtain ⟨⟨c₂, fault⟩, m₃, h₃, he⟩ := (faultless_fillContext c₁).bind_survives he hr
  obtain ⟨hturns₂, hempty⟩ := fillContext_ok hkernel (hturns.generation (hstill.generation hcsf)) howned h₃
  obtain ⟨_, m₄, h₄, he⟩ := (faultless_modifyDevice _).bind_survives he hr
  rw [exec_modifyDevice] at h₄
  cases h₄
  have hc₀ : m.device.contexts[i]? = some c := by rwa [← hstill.inside.device]
  rw [Machine.owned_of_context hc₀] at hstill
  have hall : Turns c.owned c₂.owned m m₃ := (hstill.trans hturns).trans hturns₂
  have hserved : Tended (some i) m { m₃ with device :=
      { m₃.device with contexts := m₃.device.contexts.modify i fun _ => c₂ } } := hall.tended hcsf hc₀ rfl rfl
  cases fault with
  | none =>
    cases he
    exact ⟨hserved, nofun⟩
  | some f =>
    cases he
    have hc₂ : (m₃.device.contexts.modify i fun _ => c₂)[i]? = some c₂ := by
      rw [hall.inside.device, List.getElem?_modify_eq, hc₀]
      rfl
    exact ⟨hserved, fun _ _ => (Machine.owned_of_context hc₂).trans (hempty rfl)⟩

theorem serves_recreateContext (hkernel : Numbering κ) (i : Nat) :
    Keeps (Serves (κ := κ) (some i)) (Device.recreateContext i) := fun _ =>
  keepsAt_of_exec fun he hr hcsf => (recreateContext_ok hkernel hcsf he hr).1

/-- A new context is filled before it gets a number, and does not get one if that fails. -/
theorem createContext_ok (hkernel : Numbering κ) {a : Except Halt Nat} (hcsf : m.device.generation = .csf)
    (he : Device.createContext.exec m = (a, m')) (ha : Survives a) :
    Tended (some m.device.contexts.length) m m' ∧ m'.submitters = m.submitters ∧
      match a with
      | .ok n => n = m.device.contexts.length ∧ m'.device.contexts.length = n + 1
      | .error _ => m'.device.contexts = m.device.contexts := by
  obtain ⟨_, m₁, h₁, he⟩ := (faultless_debug _ _).bind_survives he ha
  have hstill : Turns {} {} m m₁ := by
    rw [exec_debug] at h₁
    cases h₁
    exact ⟨⟨rfl, rfl, rfl, rfl⟩, [], rfl, rfl⟩
  obtain ⟨⟨c, fault⟩, m₂, h₂, he⟩ := (faultless_fillContext {}).bind_survives he ha
  obtain ⟨hturns, hfault⟩ := fillContext_ok hkernel (hstill.generation hcsf) rfl h₂
  have hall := hstill.trans hturns
  obtain ⟨cs, hcs, hthrough⟩ := hall.calls
  have hnew : m.owned m.device.contexts.length = {} := Machine.owned_of_length_le le_rfl
  cases fault with
  | some f =>
    cases he
    have howned (j : Nat) : m'.owned j = m.owned j := by rw [Machine.owned, hall.inside.device, Machine.owned]
    refine ⟨⟨hall.generation hcsf, fun j _ => howned j, cs, hcs, nofun, fun i hi => ?_⟩, hall.inside.submitters,
      congrArg Device.contexts hall.inside.device⟩
    cases hi
    rw [howned, hnew, hthrough, hfault rfl]
  | none =>
    dsimp only at he
    rw [exec_bind_of_ok (exec_device m₂), exec_bind_of_ok (exec_modifyDevice _ m₂)] at he
    cases he
    have hcontexts : m₂.device.contexts = m.device.contexts := congrArg Device.contexts hall.inside.device
    have howned (j : Nat) : Machine.owned { m₂ with device := { m₂.device with
        contexts := m₂.device.contexts ++ [c] } } j =
        ((m.device.contexts.map Context.owned ++ [c.owned])[j]?).getD {} := by
      rw [Machine.owned, hcontexts, List.map_append]
      rfl
    refine ⟨⟨hall.generation hcsf, fun j hj => ?_, cs, hcs, nofun, fun i hi => ?_⟩, hall.inside.submitters,
      by rw [hcontexts], by rw [hcontexts, List.length_append]; rfl⟩
    · have hne : m.device.contexts.length ≠ j := fun he => hj (congrArg some he)
      rw [howned, Machine.owned]
      rcases Nat.lt_or_ge j m.device.contexts.length with hlt | hge
      · rw [List.getElem?_append_left (by rwa [List.length_map])]
      · rw [List.getElem?_eq_none (by simp; omega), List.getElem?_eq_none (by simpa using hge)]
    · cases hi
      rw [howned, hnew, hthrough, ← List.length_map Context.owned, List.getElem?_concat_length]
      rfl

theorem serves_createContext (hkernel : Numbering κ) (m : Machine κ) :
    KeepsAt (Serves (some m.device.contexts.length)) Device.createContext m :=
  keepsAt_of_exec fun he hr hcsf => (createContext_ok hkernel hcsf he hr).1

/-! ## Processor queues -/

/-- A context gets a processor queue once. -/
theorem serves_cpuQueue (i : Nat) : Keeps (Serves (κ := κ) (some i)) (Device.cpuQueue i) := by
  refine fun m => keepsAt_of_exec fun {r m'} he hr hcsf => ?_
  obtain ⟨c, hc, he⟩ := bind_context_survives he hr
  cases hqueue : c.cpuQueue with
  | some id =>
    rw [hqueue] at he
    cases he
    exact Journey.refl (R := Serves (some i)) m hcsf
  | none =>
    rw [hqueue] at he
    rcases bind_survives he hr with ⟨f, h₁, rfl⟩ | ⟨id, m₁, h₁, he⟩
    · have hattempt : (attempt (Interface.createCpuQueue (κ := κ))).exec m = (.ok (.error f), m') := by
        rw [exec_attempt, h₁]
      obtain ⟨hinside, answer, hcalls, -, hreply⟩ := attemptRequest_ok hcsf hattempt
      have hturns : Turns c.owned c.owned m m' := by
        refine .of_call hinside hcalls ?_
        cases answer with
        | error e => rfl
        | ok reply => exact absurd ((hreply reply).mpr rfl) nofun
      refine hturns.tended hcsf hc ?_ rfl
      rw [hinside.device]
      have hsame : (m.device.contexts.modify i fun _ => c) = m.device.contexts := by
        refine List.ext_getElem? fun j => ?_
        rcases eq_or_ne i j with rfl | hne
        · rw [List.getElem?_modify_eq, hc]
          rfl
        · rw [List.getElem?_modify_ne _ _ hne]
      rw [hsame]
    · have hattempt : (attempt (Interface.createCpuQueue (κ := κ))).exec m = (.ok (.ok id), m₁) := by
        rw [exec_attempt, h₁]
      obtain ⟨hinside, answer, hcalls, -, hreply⟩ := attemptRequest_ok hcsf hattempt
      cases (hreply id).mp rfl
      have hturns : Turns c.owned ({ c with cpuQueue := some id } : Context).owned m m₁ := by
        refine .of_call hinside hcalls ?_
        simp [Owned.after, CallRecord.created, Owned.put, Context.owned, hqueue]
      cases he
      refine hturns.tended hcsf hc ?_ rfl
      have hsame : (m₁.device.contexts.modify i fun c => { c with cpuQueue := some id }) =
          m₁.device.contexts.modify i fun _ => { c with cpuQueue := some id } := by
        rw [hinside.device]
        refine List.ext_getElem? fun j => ?_
        rcases eq_or_ne i j with rfl | hne
        · rw [List.getElem?_modify_eq, List.getElem?_modify_eq, hc]
          rfl
        · rw [List.getElem?_modify_ne _ _ hne, List.getElem?_modify_ne _ _ hne]
      exact congrArg (fun cs => { m₁.device with contexts := cs }) hsame

theorem serves_enqueueCommand (i : Nat) (command : QueueCommand) :
    Keeps (Serves (κ := κ) (some i)) (Device.enqueueCommand i command) := by
  have honce (id : UInt8) : Keeps (Bystands (κ := κ)) (Device.enqueueOnce id command) := by
    have henqueue : Keeps (Bystands (κ := κ)) (Interface.enqueue id command) := by
      refine keeps_bind keeps_device fun d => ?_
      cases d.generation with
      | csf =>
        exact keeps_bind keeps_device fun _ => keeps_bind_except (.of_call rfl) (fun _ => keeps_pure _)
          fun _ => keeps_fail _
      | old => exact keeps_unsupported _
      | jm => exact keeps_unsupported _
    exact keeps_bind_except (keeps_attempt henqueue) (fun _ => keeps_pure _) fun _ => keeps_pure _
  have hfault (f : Fault) : Keeps (Bystands (κ := κ)) (Device.enqueueFault f) :=
    keeps_bind (keeps_error _ _) fun _ => keeps_fail _
  refine keeps_bind (serves_cpuQueue i) fun id => serves_of_bystands (keeps_bind (honce id) fun answer => ?_)
  split
  · exact keeps_pure _
  · exact hfault _
  · refine keeps_bind (polling_bystands.waitUntil (honce id) _) fun answer => ?_
    split
    · exact keeps_pure _
    · exact hfault _
    · exact keeps_bind (keeps_warn _ _) fun _ => keeps_fail _

end Contexts

/-! ## Submission contexts -/

/-- The context of a submission context. -/
def Machine.contextOf (m : Machine κ) (id : Nat) : Option Nat := (m.submitters.map (·.context))[id]?.join

section Submitters

variable {m m₁ m' : Machine κ}

omit [Kernel κ] in
theorem StandsBy.contextOf_eq (h : StandsBy m m₁) (id : Nat) : m₁.contextOf id = m.contextOf id := by
  rw [Machine.contextOf, h.contexts, Machine.contextOf]

omit [Kernel κ] in
theorem Machine.contextOf_of_submitter {id : Nat} {s : Submitter} (h : m.submitters[id]? = some s) :
    m.contextOf id = s.context := by
  rw [contextOf, List.getElem?_map, h]
  rfl

theorem faultless_terminateStream (id : Nat) : Faultless (Device.terminateStream id : Op κ Unit) :=
  faultless_bind (faultless_debug _ _) fun _ => faultless_bind (faultless_unmapStream id) fun _ =>
    faultless_bind (faultless_stream id) fun _ => faultless_bind (faultless_ignore _) fun _ =>
    faultless_bind (faultless_clearSlot _) fun _ => faultless_runCallbacks _

omit [Kernel κ] in
theorem faultless_modifySubmitter (id : Nat) (f : Submitter → Submitter) :
    Faultless (Submitter.modify id f : Op κ Unit) := faultless_modify _

theorem faultless_dropHeap (id : Nat) : Faultless (Submitter.setHeap id none : Op κ Unit) := by
  refine faultless_bind (faultless_getSubmitter id) fun s => ?_
  dsimp only
  split
  · exact faultless_bind (faultless_unreference _) fun _ => faultless_modifySubmitter id _
  · exact faultless_modifySubmitter id _

theorem faultless_dropRings (qs : List Queue) : Faultless (Submitter.dropRings qs : Op κ Unit) := by
  induction qs with
  | nil => exact faultless_pure ()
  | cons q qs ih => exact faultless_bind (faultless_unreference _) fun _ => ih

theorem faultless_terminateQueues (qs : List Queue) : Faultless (Submitter.terminateQueues qs : Op κ Unit) := by
  induction qs with
  | nil => exact faultless_pure ()
  | cons q qs ih => exact faultless_bind (faultless_terminateStream _) fun _ => ih

omit [Kernel κ] in
/-- A change of a submission context and of syncobjs leaves contexts alone. -/
theorem Tended.of_contexts {o : Option Nat} (hcsf : m.device.generation = .csf)
    (hg : m'.device.generation = m.device.generation) (hd : m'.device.contexts = m.device.contexts)
    (hcalls : m'.calls = m.calls) : Tended o m m' := by
  have howned (j : Nat) : m'.owned j = m.owned j := by rw [Machine.owned, hd, Machine.owned]
  exact ⟨hg.trans hcsf, fun j _ => howned j, [], hcalls, fun _ _ hr => absurd hr List.not_mem_nil,
    fun i _ => by rw [howned]; rfl⟩

omit [Kernel κ] in
theorem serves_modifySubmitter {o : Option Nat} (id : Nat) (f : Submitter → Submitter) :
    Keeps (Serves (κ := κ) o) (Submitter.modify id f) := fun _ _ hcsf => .of_contexts hcsf rfl rfl rfl

omit [Kernel κ] in
theorem faultless_dropSyncobj (id : Nat) (s : Submitter) : Faultless (do
    match s.syncobj with
    | some o =>
      Device.destroySyncobj o
      Submitter.modify id fun s => { s with syncobj := none }
    | none => pure () : Op κ Unit) := by
  split
  · exact faultless_bind (faultless_modifyDevice _) fun _ => faultless_modifySubmitter id _
  · exact faultless_pure ()

theorem faultless_destroy (id : Nat) : Faultless (Submitter.destroy id : Op κ Unit) := by
  unfold Submitter.destroy
  refine faultless_bind (faultless_debug _ _) fun _ => faultless_bind (faultless_dropHeap id) fun _ =>
    faultless_bind (faultless_getSubmitter id) fun s => faultless_bind (faultless_dropRings _) fun _ =>
    faultless_bind (faultless_terminateQueues _) fun _ => faultless_bind (faultless_modifySubmitter id _) fun _ => ?_
  cases s.context with
  | none => exact faultless_dropSyncobj id s
  | some c =>
    exact faultless_bind (faultless_destroyContext c) fun _ => faultless_bind (faultless_modifySubmitter id _) fun _ =>
      faultless_dropSyncobj id s

omit [Kernel κ] in
theorem bystands_dropSyncobj (id : Nat) (s : Submitter) : Keeps (Bystands (κ := κ)) (do
    match s.syncobj with
    | some o =>
      Device.destroySyncobj o
      Submitter.modify id fun s => { s with syncobj := none }
    | none => pure ()) := by
  split
  · exact keeps_bind (bystands_modifyDevice (fun _ => rfl) fun _ => rfl) fun _ =>
      bystands_modifySubmitter id fun _ => rfl
  · exact keeps_pure ()

/-- A submission context that is destroyed takes what its context owns with it. -/
theorem destroy_ok {id : Nat} {u : Unit} (hcsf : m.device.generation = .csf)
    (he : (Submitter.destroy id).exec m = (.ok u, m')) :
    Tended (m.contextOf id) m m' ∧ ∀ i, m.contextOf id = some i → m'.owned i = {} := by
  unfold Submitter.destroy at he
  obtain ⟨_, m₁, h₁, he₁⟩ := bind_ok he
  obtain ⟨_, m₂, h₂, he₂⟩ := bind_ok he₁
  obtain ⟨s, m₃, h₃, he₃⟩ := bind_ok he₂
  obtain ⟨_, m₄, h₄, he₄⟩ := bind_ok he₃
  obtain ⟨_, m₅, h₅, he₅⟩ := bind_ok he₄
  obtain ⟨_, m₆, h₆, he₆⟩ := bind_ok he₅
  have hbefore : Bystands m m₂ :=
    Journey.trans ((keeps_debug _ _).ok h₁) ((Attending.setHeap attending_bystands id none).ok h₂)
  have hafter : Bystands m₂ m₆ := by
    refine Journey.trans ((keeps_getSubmitter id).ok h₃)
      (Journey.trans ((Attending.dropRings attending_bystands _).ok h₄) ?_)
    exact Journey.trans ((bystands_terminateQueues _).ok h₅)
      ((bystands_modifySubmitter id (f := fun s => { s with vertex := none, fragment := none }) fun _ => rfl).ok h₆)
  have hfirst : StandsBy m m₆ := Journey.trans (R := Bystands) hbefore hafter hcsf
  have hcontext : m.contextOf id = s.context := by
    rw [← (hbefore hcsf).contextOf_eq id]
    obtain ⟨s', hs, h₃⟩ := bind_getSubmitter_ok (f := pure) (by rw [bind_pure]; exact h₃)
    cases h₃
    exact Machine.contextOf_of_submitter hs
  rw [hcontext]
  cases hc : s.context with
  | none =>
    rw [hc] at he₆
    exact ⟨Journey.trans (R := Serves none) (fun h => hfirst.tended h)
      ((serves_of_bystands (bystands_dropSyncobj id s)).ok he₆) hcsf, nofun⟩
  | some c =>
    rw [hc] at he₆
    obtain ⟨_, m₇, h₇, he₇⟩ := bind_ok he₆
    obtain ⟨_, m₈, h₈, he₈⟩ := bind_ok he₇
    have hcsf₆ : m₆.device.generation = .csf := hfirst.generation.trans hcsf
    obtain ⟨hserved, hnone, -⟩ := destroyContext_ok hcsf₆ h₇
    have hlast : Tended none m₇ m' :=
      Journey.trans (R := Serves none) ((serves_modifySubmitter id _).ok h₈)
        ((serves_of_bystands (bystands_dropSyncobj id s)).ok he₈) hserved.generation
    refine ⟨((hfirst.tended hcsf).trans hserved).trans ?_, fun i hi => ?_⟩
    · exact Journey.trans (R := Serves (some c)) ((serves_modifySubmitter id _).ok h₈)
        ((serves_of_bystands (bystands_dropSyncobj id s)).ok he₈) hserved.generation
    · cases hi
      rw [hlast.others c nofun, hnone]

/-- A recovery is for the context that the submission context has. -/
theorem serves_reset (hkernel : Numbering κ) (id : Nat) (m : Machine κ) :
    KeepsAt (Serves (m.contextOf id)) (Submitter.reset id) m := by
  refine keepsAt_of_exec fun {r m'} he hr => ?_
  unfold Submitter.reset at he
  obtain ⟨_, m₁, h₁, he₁⟩ := (faultless_debug _ _).bind_survives he hr
  obtain ⟨s, m₂, h₂, he₂⟩ := (faultless_getSubmitter id).bind_survives he₁ hr
  have hcontext : m.contextOf id = s.context := by
    obtain ⟨s', hs, h₂⟩ := bind_getSubmitter_ok (f := pure) (by rw [bind_pure]; exact h₂)
    cases h₂
    rw [← Machine.contextOf_of_submitter hs, Machine.contextOf, Machine.contextOf,
      show m₁.submitters = m.submitters by rw [exec_debug] at h₁; cases h₁; rfl]
  have hfirst : Bystands m m₂ := Journey.trans ((keeps_debug _ _).ok h₁) ((keeps_getSubmitter id).ok h₂)
  rw [hcontext]
  cases hc : s.context with
  | none =>
    rw [hc] at he₂
    cases he₂
    exact fun hcsf => (hfirst hcsf).tended hcsf
  | some c =>
    rw [hc] at he₂
    refine Journey.trans (fun hcsf => (hfirst hcsf).tended hcsf) (KeepsAt.survives ?_ he₂ hr)
    refine keeps_bind (serves_of_bystands (keeps_error _ _)) (fun _ => keeps_bind (serves_modifySubmitter id _) fun _ =>
      keeps_bind (serves_of_bystands (bystands_terminateQueues _)) fun _ =>
      keeps_bind_option (keeps_faultOf (serves_recreateContext hkernel c))
        (serves_of_bystands (Recovering.recover (Attending.recovering attending_bystands) id s none)) fun f => ?_) m₂
    exact keeps_bind (serves_of_bystands (keeps_error _ _)) fun _ =>
      serves_of_bystands (Recovering.recover (Attending.recovering attending_bystands) id s (some f))

/-- Either nothing concerns contexts, or the submission context is destroyed with what its context owns. -/
theorem orDestroy_ok {α : Type} {x : Op κ α} (hx : Keeps Bystands x) {id i : Nat} {r : Except Halt α}
    (hcsf : m.device.generation = .csf) (hi : m.contextOf id = some i)
    (he : (Submitter.orDestroy id x).exec m = (r, m')) (hr : Survives r) :
    (∃ a, r = .ok a ∧ StandsBy m m') ∨ (∃ f, r = .error f ∧ Tended (some i) m m' ∧ m'.owned i = {}) := by
  obtain ⟨answer, m₁, h₁, he₁⟩ := (faultless_attempt x).bind_survives he hr
  have hfirst : StandsBy m m₁ := (keeps_attempt hx).ok h₁ hcsf
  cases answer with
  | ok a =>
    cases he₁
    exact .inl ⟨a, rfl, hfirst⟩
  | error f =>
    obtain ⟨_, m₂, h₂, he₂⟩ := (faultless_destroy id).bind_survives he₁ hr
    cases he₂
    obtain ⟨hserved, hnone⟩ := destroy_ok (hfirst.generation.trans hcsf) h₂
    rw [hfirst.contextOf_eq, hi] at hserved hnone
    exact .inr ⟨_, rfl, (hfirst.tended hcsf).trans hserved, hnone i rfl⟩

/-- A submission context gets its queues, or is destroyed. -/
theorem createQueues_ok {id i : Nat} {ringSize : UInt32} {r : Except Halt Unit} (hcsf : m.device.generation = .csf)
    (hi : m.contextOf id = some i) (he : (Submitter.createQueues id i ringSize).exec m = (r, m')) (hr : Survives r) :
    (r = .ok () ∧ StandsBy m m') ∨ (∃ f, r = .error f ∧ Tended (some i) m m' ∧ m'.owned i = {}) := by
  have hqueue (label : String) : Keeps (Bystands (κ := κ)) (Submitter.createQueue i ringSize label) :=
    Attending.createQueue attending_bystands (bystands_bindStream i) ringSize label
  rcases bind_survives he hr with ⟨f, h₁, rfl⟩ | ⟨vertex, m₁, h₁, he₁⟩
  · obtain ⟨_, ha, -⟩ | ⟨_, -, hrest⟩ := orDestroy_ok (hqueue _) hcsf hi h₁ trivial
    · cases ha
    · exact .inr ⟨_, rfl, hrest⟩
  obtain ⟨_, -, hfirst⟩ | ⟨_, hf, -⟩ := orDestroy_ok (hqueue _) hcsf hi h₁ trivial
  on_goal 2 => cases hf
  obtain ⟨_, m₂, h₂, he₂⟩ := (faultless_modifySubmitter id _).bind_survives he₁ hr
  have hset : Keeps (Bystands (κ := κ)) (Submitter.modify id fun s => { s with vertex := some vertex }) :=
    bystands_modifySubmitter id fun _ => rfl
  have hsecond : StandsBy m m₂ := hfirst.trans (hset.ok h₂ (hfirst.generation.trans hcsf))
  have hcsf₂ : m₂.device.generation = .csf := hsecond.generation.trans hcsf
  have hi₂ : m₂.contextOf id = some i := (hsecond.contextOf_eq id).trans hi
  rcases bind_survives he₂ hr with ⟨f, h₃, rfl⟩ | ⟨fragment, m₃, h₃, he₃⟩
  · obtain ⟨_, ha, -⟩ | ⟨_, -, hserved, hnone⟩ := orDestroy_ok (hqueue _) hcsf₂ hi₂ h₃ trivial
    · cases ha
    · exact .inr ⟨_, rfl, (hsecond.tended hcsf).trans hserved, hnone⟩
  obtain ⟨_, -, hthird⟩ | ⟨_, hf, -⟩ := orDestroy_ok (hqueue _) hcsf₂ hi₂ h₃ trivial
  on_goal 2 => cases hf
  have hset' : Keeps (Bystands (κ := κ)) (Submitter.modify id fun s => { s with fragment := some fragment }) :=
    bystands_modifySubmitter id fun _ => rfl
  cases he₃
  exact .inl ⟨rfl, (hsecond.trans hthird).trans (hset'.ok rfl (hthird.generation.trans hcsf₂))⟩

omit [Kernel κ] in
theorem exec_add (s : Submitter) (m : Machine κ) : (Submitter.add s).exec m =
    (.ok m.submitters.length, { m with submitters := m.submitters ++ [s] }) := rfl

omit [Kernel κ] in
theorem contextOf_add (s : Submitter) (m : Machine κ) :
    Machine.contextOf { m with submitters := m.submitters ++ [s] } m.submitters.length = s.context :=
  Machine.contextOf_of_submitter List.getElem?_concat_length

/-- A new submission context has a new context of its own, which owns nothing if it fails. -/
theorem createSubmitter_ok (hkernel : Numbering κ) {ringSize : UInt32} {r : Except Halt Nat}
    (hcsf : m.device.generation = .csf) (he : (Submitter.create ringSize).exec m = (r, m')) (hr : Survives r) :
    Tended (some m.device.contexts.length) m m' ∧
      ∀ f, r = .error f → m'.owned m.device.contexts.length = {} := by
  unfold Submitter.create at he
  obtain ⟨_, m₁, h₁, he₁⟩ := (faultless_debug _ _).bind_survives he hr
  have hdebug : StandsBy m m₁ := (keeps_debug (R := Bystands) _ _).ok h₁ hcsf
  have hcsf₁ : m₁.device.generation = .csf := hdebug.generation.trans hcsf
  have hlength : m₁.device.contexts.length = m.device.contexts.length := by
    rw [← List.length_map Context.owned, hdebug.owned, List.length_map]
  rw [exec_bind_of_ok (exec_device _), if_neg (not_not.mpr hcsf₁)] at he₁
  obtain ⟨answer, m₂, h₂, he₂⟩ := (faultless_attempt _).bind_survives he₁ hr
  rw [← hlength]
  cases answer with
  | error f =>
    cases he₂
    obtain ⟨hserved, -, hcontexts⟩ := createContext_ok hkernel hcsf₁ (attempt_fault h₂) trivial
    refine ⟨(hdebug.tended hcsf).trans hserved, fun _ _ => Machine.owned_of_length_le ?_⟩
    rw [hcontexts]
  | ok i =>
    obtain ⟨hserved, -, hi⟩ := createContext_ok hkernel hcsf₁ (attempt_ok h₂) trivial
    obtain ⟨rfl, -⟩ := hi
    rw [exec_bind_of_ok (exec_add _ m₂)] at he₂
    have hcontext := contextOf_add { context := some m₁.device.contexts.length } m₂
    have hadded : Tended (some m₁.device.contexts.length) m
        { m₂ with submitters := m₂.submitters ++ [{ context := some m₁.device.contexts.length }] } :=
      ((hdebug.tended hcsf).trans hserved).trans (.of_contexts hserved.generation rfl rfl rfl)
    rcases bind_survives he₂ hr with ⟨f, h₃, rfl⟩ | ⟨_, m₃, h₃, he₃⟩
    · obtain ⟨hok, -⟩ | ⟨_, -, hserved₃, hnone⟩ := createQueues_ok hadded.generation hcontext h₃ trivial
      · cases hok
      · exact ⟨hadded.trans hserved₃, fun _ _ => hnone⟩
    obtain ⟨-, hstands⟩ | ⟨_, hf, -⟩ := createQueues_ok hadded.generation hcontext h₃ trivial
    on_goal 2 => cases hf
    have hthird := hadded.trans (hstands.tended hadded.generation)
    have hend : Faultless (do
        let o ← Device.createSyncobj
        Submitter.modify m₂.submitters.length fun s => { s with syncobj := some o }
        return m₂.submitters.length : Op κ Nat) :=
      faultless_bind (faultless_bind faultless_device fun _ => faultless_bind (faultless_modifyDevice _) fun _ =>
        faultless_pure _) fun _ => faultless_bind (faultless_modifySubmitter _ _) fun _ => faultless_pure _
    obtain ⟨_, rfl⟩ := hend.value he₃ hr
    refine ⟨hthird.trans (KeepsAt.survives (R := Serves _) ?_ he₃ hr hthird.generation), nofun⟩
    exact keeps_bind (serves_of_bystands bystands_createSyncobj) (fun _ => keeps_bind (serves_modifySubmitter _ _)
      fun _ => keeps_pure _) m₃

end Submitters

end Mali
