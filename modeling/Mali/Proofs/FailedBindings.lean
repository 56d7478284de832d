import Mali.Proofs.Binding
import Mali.Proofs.ContextObjects
import Mali.Proofs.Requests
import Mali.Proofs.Sessions
import Mali.Proofs.StreamRelations

/-!
# Streams that cannot be bound

A ring is registered with the kernel and bound to the next interface of its context, and then its pages are mapped.  If
one of the three fails, no slot is taken and nothing is written to a record.  But the interface stays taken, and a ring
that was registered stays registered: it is not terminated.  So the interfaces of a context are numbered by the attempts
to bind a stream to it, and not by its streams.

* `BindCourse`: the ways that binding a ring can go.
* `leavesRegistered`: whether calls leave a ring registered.
* `bindStream_fault`: what a failure leaves behind.
* `BindingRun`: what happened, told by its bindings, and `BindingRun.nextInterface`: how many interfaces are taken then.
* `SameBindings`, `operating_sameBindings`: operations that bind no stream.
* `BindsOn`, `createSubmitter_binds`: what a submission context binds.
* `BindSession`, `Session.bindSession`: a session told with the contexts that a stream could not be bound on.
* `Session.bind_skips`: what a binding takes and leaves after any session.
-/

namespace Mali

open Op

variable {κ : Type}

/-! ## The ways that binding a ring can go -/

/-- The request that registers a ring. -/
def Stream.registration (s : Stream) : Ioctl := .csQueueRegister s.va s.size 1

/-- The ways that binding a ring to an interface of a group can go, with the calls, newest first. -/
inductive BindCourse (fd : Int) (s : Stream) (group : UInt8) : Except Fault Mapping → List CallRecord → Prop
  /-- The ring is not registered. -/
  | unregistered (f : Fault) (e : Errno) : BindCourse fd s group (.error f) [⟨.ioctl fd s.registration, .error e⟩]
  /-- The ring is registered, and not bound. -/
  | unbound (f : Fault) (e : Errno) : BindCourse fd s group (.error f)
    [⟨.ioctl fd (.csQueueBind s.va group s.csi), .error e⟩, ⟨.ioctl fd s.registration, .ok ()⟩]
  /-- The ring is bound, and its pages are not mapped. -/
  | unmapped (f : Fault) (e : Errno) (cookie : UInt64) (length : Int64) : BindCourse fd s group (.error f)
    [⟨.mmap fd cookie.toInt64 length protReadWrite mapShared, .error e⟩,
      ⟨.ioctl fd (.csQueueBind s.va group s.csi), .ok cookie⟩, ⟨.ioctl fd s.registration, .ok ()⟩]
  /-- The ring is bound. -/
  | bound (p : Mapping) (cookie : UInt64) (length : Int64) : BindCourse fd s group (.ok p)
    [⟨.mmap fd cookie.toInt64 length protReadWrite mapShared, .ok p.addr⟩,
      ⟨.ioctl fd (.csQueueBind s.va group s.csi), .ok cookie⟩, ⟨.ioctl fd s.registration, .ok ()⟩]

/-- Whether calls, newest first, leave the ring at an address registered. -/
def leavesRegistered (va : UInt64) : List CallRecord → Bool
  | [] => false
  | ⟨.ioctl _ (.csQueueRegister va' _ _), .ok _⟩ :: earlier => va' == va || leavesRegistered va earlier
  | ⟨.ioctl _ (.csQueueTerminate va'), _⟩ :: earlier => va' != va && leavesRegistered va earlier
  | _ :: earlier => leavesRegistered va earlier

/-- A ring stays registered if it was registered. -/
theorem BindCourse.leavesRegistered_iff {fd : Int} {s : Stream} {group : UInt8} {r : Except Fault Mapping}
    {cs : List CallRecord} (h : BindCourse fd s group r cs) :
    leavesRegistered s.va cs = true ↔ ⟨.ioctl fd s.registration, .ok ()⟩ ∈ cs := by
  cases h with
  | unregistered f e =>
    refine iff_of_false Bool.false_ne_true fun hmem => ?_
    cases List.mem_singleton.mp hmem
  | unbound | unmapped | bound => simp [leavesRegistered, Stream.registration]

section

variable [Kernel κ] {d : Device} {s : Stream} {c : Context}

omit [Kernel κ] in
theorem calls_context {id : Nat} (hc : d.contexts[id]? = some c) :
    Calls d (Device.context id : Op κ Context) fun r cs => cs = [] ∧ ∃ a, r = .ok a ∧ a = c := by
  unfold Device.context
  refine calls_device.next fun _ hd => ?_
  subst hd
  rw [hc]
  exact .pure ⟨rfl, c, rfl, rfl⟩

/-- Binding a ring goes one of these ways. -/
theorem calls_bindRing (hcsf : d.generation = .csf) (hc : d.contexts[s.context]? = some c) :
    Calls d (Device.bindRing s : Op κ Mapping) (BindCourse d.fd s c.group) := by
  unfold Device.bindRing Interface.registerQueue Interface.bindQueue
  refine (calls_streamRequest hcsf _ _ _).bind ?_ ?_
  · rintro f cs ⟨_ | e, rfl, hout⟩
    · exact .unregistered f _
    · cases hout
  rintro _ cs ⟨_ | _, rfl, hout⟩
  · cases hout
  refine (calls_context hc).next fun _ hgroup => ?_
  subst hgroup
  refine (calls_streamRequest hcsf _ _ _).bind ?_ ?_
  · rintro f cs ⟨_ | cookie, rfl, hout⟩
    · exact .unbound f _
    · cases hout
  rintro cookie cs ⟨_ | _, rfl, hout⟩
  · cases hout
  cases hout
  refine calls_device.next fun _ hd => ?_
  subst hd
  refine (calls_mapMemory _ _ _).bind (by rintro f cs ⟨answer, -, hout⟩; cases hout) ?_
  rintro a cs ⟨_ | addr, rfl, hout⟩
  · cases hout
    exact (calls_error _ _).next fun _ _ => .fail (.unmapped _ _ _ _)
  · cases hout
    exact .pure (.bound ⟨addr, _⟩ cookie _)

end

/-! ## Bindings -/

/-- A device whose context has one more interface taken. -/
def Device.takeInterface (d : Device) (ctx : Nat) : Device :=
  { d with contexts := d.contexts.modify ctx fun c => { c with interfaces := c.interfaces + 1 } }

/-- A ring for the next interface of a context. -/
def Context.nextRing (c : Context) (ctx : Nat) (va : UInt64) (size : UInt32) : Stream :=
  { context := ctx, va, size, csi := c.interfaces }

/-- The generation, the contexts and the streams stay as they are. -/
def SameParts (m m' : Machine κ) : Prop :=
  m'.device.generation = m.device.generation ∧ m'.device.contexts = m.device.contexts ∧
    m'.device.streams = m.device.streams

instance : OfDevice (SameParts (κ := κ)) where
  refl _ := ⟨rfl, rfl, rfl⟩
  trans h h' := ⟨h'.1.trans h.1, h'.2.1.trans h.2.1, h'.2.2.trans h.2.2⟩
  of_device hd := ⟨congrArg Device.generation hd, congrArg Device.contexts hd, congrArg Device.streams hd⟩

instance : Slotless (SameParts (κ := κ)) where
  of_pace _ _ _ := ⟨rfl, rfl, rfl⟩

section

variable [Kernel κ] {m m' : Machine κ} {ctx : Nat} {va : UInt64} {size : UInt32}

omit [Kernel κ] in
/-- A stream that is attached comes last. -/
theorem attachStream_parts {s : Stream} {n : Nat} (he : (Device.attachStream s).exec m = (.ok n, m')) :
    m'.device.generation = m.device.generation ∧ m'.device.contexts = m.device.contexts ∧
      n = m.device.streams.length ∧ ∃ i, m'.device.streams = m.device.streams ++ [{ s with slot := i }] := by
  unfold Device.attachStream at he
  obtain ⟨i, m₁, h₁, he⟩ := bind_ok he
  obtain ⟨_, m₂, h₂, he⟩ := bind_ok he
  obtain ⟨hg, hcontexts, hstreams⟩ : SameParts m m₂ := Journey.trans (keeps_takeSlot.ok h₁) ((keeps_startSlot i).ok h₂)
  cases he
  exact ⟨hg, hcontexts, congrArg List.length hstreams, i, congrArg (· ++ _) hstreams⟩

/-- A binding takes the next interface of its context first, and then binds the ring. -/
theorem prepareRing_survives {r : Except Halt Stream} (he : (Device.prepareRing ctx va size).exec m = (r, m'))
    (hr : Survives r) :
    ∃ c m₁, m.device.contexts[ctx]? = some c ∧ Called [] { m with device := m.device.takeInterface ctx } m₁ ∧
      (do
        let p ← Device.bindRing (c.nextRing ctx va size)
        return { c.nextRing ctx va size with userIo := some p } : Op κ Stream).exec m₁ = (r, m') := by
  obtain ⟨_, m₁, h₁, he⟩ := (faultless_debug _ _).bind_survives he hr
  cases h₁
  obtain ⟨c, hc, he⟩ := bind_context_survives he hr
  exact ⟨c, _, hc, .log _ _, he⟩

/-- A stream that is bound has the interface that was next. -/
theorem bindStream_parts {n : Nat} (he : (Device.bindStream ctx va size).exec m = (.ok n, m')) :
    ∃ c s, m.device.contexts[ctx]? = some c ∧ m'.device.generation = m.device.generation ∧
      m'.device.contexts = (m.device.takeInterface ctx).contexts ∧ n = m.device.streams.length ∧
      m'.device.streams = m.device.streams ++ [s] ∧ s.context = ctx ∧ s.csi = c.interfaces := by
  rw [Device.bindStream_eq] at he
  obtain ⟨s, m₁, h₁, he⟩ := bind_ok he
  obtain ⟨c, m₂, hc, hcalled, h₁⟩ := prepareRing_survives h₁ trivial
  obtain ⟨p, m₃, h₃, h₁⟩ := bind_ok h₁
  cases h₁
  have hdevice : m₁.device = m.device.takeInterface ctx :=
    ((keeps_bindRing (R := SameDevice) _).ok h₃).trans hcalled.device
  obtain ⟨hg, hcontexts, hn, i, hstreams⟩ := attachStream_parts he
  rw [hdevice] at hg hcontexts hn hstreams
  exact ⟨c, _, hc, hg, hcontexts, hn, hstreams, rfl, rfl⟩

/-- A binding that fails takes an interface of its context, and else leaves what its calls leave. -/
theorem bindStream_fault {f : Fault} (hcsf : m.device.generation = .csf)
    (he : (Device.bindStream ctx va size).exec m = (.error (.fault f), m')) :
    ∃ c cs, m.device.contexts[ctx]? = some c ∧ Called cs { m with device := m.device.takeInterface ctx } m' ∧
      Served m m' ∧ BindCourse m.device.fd (c.nextRing ctx va size) c.group (.error f) cs := by
  rw [Device.bindStream_eq] at he
  rcases bind_survives he trivial with ⟨f, h₁, hf⟩ | ⟨s, m₁, -, he⟩
  · cases hf
    have hserved : Served m m' := (served_prepareRing ctx va size m).survives h₁ trivial
    obtain ⟨c, m₁, hc, hcalled, h₁⟩ := prepareRing_survives h₁ trivial
    have hc' : (m.device.takeInterface ctx).contexts[ctx]? = some { c with interfaces := c.interfaces + 1 } := by
      show (m.device.contexts.modify ctx _)[ctx]? = _
      rw [List.getElem?_modify, hc]
      simp
    have hcourses := calls_bindRing (κ := κ) (d := m.device.takeInterface ctx) (s := c.nextRing ctx va size) hcsf hc'
    obtain ⟨r, cs, m₂, h₂, hcalled', hcourse⟩ := hcourses m₁ hcalled.device
    have hall : Called cs { m with device := m.device.takeInterface ctx } m₂ := by
      simpa using hcalled.trans hcalled'
    cases r with
    | ok p =>
      rw [exec_bind_of_ok h₂] at h₁
      cases h₁
    | error f' =>
      rw [exec_bind, h₂] at h₁
      cases h₁
      exact ⟨c, cs, hc, hall, hserved, hcourse⟩
  · obtain ⟨n, hn⟩ := (faultless_attachStream s).ok (m := m₁) (by rw [he]; trivial)
    rw [he] at hn
    cases hn

end

/-! ## Sessions told by their bindings -/

/-- The interface that is next on a context. -/
def Machine.nextInterface (m : Machine κ) (ctx : Nat) : UInt8 := (m.device.bindings.1[ctx]?).getD 0

/-- How many streams were bound on a context. -/
def Machine.streamsOn (m : Machine κ) (ctx : Nat) : Nat := m.device.bindings.2.count ctx

variable [Kernel κ]

/-- What happened, told by the contexts that were made and the streams that were bound.  The contexts that a stream could
not be bound on are listed in their order. -/
inductive BindingRun : List Nat → Machine κ → Machine κ → Prop
  | nil (m : Machine κ) : BindingRun [] m m
  | other {fs : List Nat} {m m₁ m' : Machine κ} (hb : m₁.device.bindings = m.device.bindings)
    (h : BindingRun fs m₁ m') : BindingRun fs m m'
  | context {fs : List Nat} {n : Nat} {m m₁ m' : Machine κ} (he : Device.createContext.exec m = (.ok n, m₁))
    (h : BindingRun fs m₁ m') : BindingRun fs m m'
  | bound {fs : List Nat} {ctx n : Nat} {va : UInt64} {size : UInt32} {m m₁ m' : Machine κ}
    (he : (Device.bindStream ctx va size).exec m = (.ok n, m₁)) (h : BindingRun fs m₁ m') : BindingRun fs m m'
  | failed {fs : List Nat} {ctx : Nat} {va : UInt64} {size : UInt32} {f : Fault} {m m₁ m' : Machine κ}
    (hcsf : m.device.generation = .csf) (he : (Device.bindStream ctx va size).exec m = (.error (.fault f), m₁))
    (h : BindingRun fs m₁ m') : BindingRun (ctx :: fs) m m'

/-- By induction on the first run. -/
theorem BindingRun.append {fs gs : List Nat} {m m₁ m' : Machine κ} (h : BindingRun fs m m₁)
    (h' : BindingRun gs m₁ m') : BindingRun (fs ++ gs) m m' := by
  induction h with
  | nil => exact h'
  | other hb _ ih => exact .other hb (ih h')
  | context he _ ih => exact .context he (ih h')
  | bound he _ ih => exact .bound he (ih h')
  | failed hcsf he _ ih => exact .failed hcsf he (ih h')

/-! ### Counting -/

section

variable {m m' : Machine κ} {ctx : Nat} {va : UInt64} {size : UInt32}

omit [Kernel κ] in
theorem nextInterface_of_context {c : Context} (hc : m.device.contexts[ctx]? = some c) :
    m.nextInterface ctx = c.interfaces := by
  rw [Machine.nextInterface, Device.bindings, List.getElem?_map, hc]
  rfl

omit [Kernel κ] in
/-- Taking an interface counts on its context only. -/
theorem nextInterface_takeInterface {c : Context} (hc : m.device.contexts[ctx]? = some c)
    (h : m'.device.contexts = (m.device.takeInterface ctx).contexts) (i : Nat) :
    m'.nextInterface i = m.nextInterface i + .ofNat ([ctx].count i) := by
  rw [Machine.nextInterface, Device.bindings, List.getElem?_map, h]
  show (((m.device.contexts.modify ctx _)[i]?).map _).getD 0 = _
  rw [getElem?_modify_of_some hc, List.count_singleton]
  by_cases hi : ctx = i
  · subst hi
    rw [if_pos rfl, beq_self_eq_true, if_pos rfl, nextInterface_of_context hc]
    rfl
  · rw [if_neg hi, beq_false_of_ne hi, Machine.nextInterface, Device.bindings, List.getElem?_map]
    exact (UInt8.add_zero _).symm

omit [Kernel κ] in
theorem streamsOn_append {s : Stream} (h : m'.device.streams = m.device.streams ++ [s]) (i : Nat) :
    m'.streamsOn i = m.streamsOn i + [s.context].count i := by
  rw [Machine.streamsOn, Device.bindings, h, List.map_append, List.count_append]
  rfl

/-- A new context comes last, and has no interface taken. -/
theorem createContext_bindings {n : Nat} (he : Device.createContext.exec m = (.ok n, m')) :
    m'.device.generation = m.device.generation ∧
      m'.device.bindings = (m.device.bindings.1 ++ [0], m.device.bindings.2) ∧ n = m.device.contexts.length := by
  obtain ⟨_, m₁, h₁, he⟩ := bind_ok he
  obtain ⟨⟨c, fault⟩, m₂, h₂, he⟩ := bind_ok he
  have hdevice : SameDevice m m₂ := Journey.trans ((keeps_debug _ _).ok h₁) ((keeps_fillContext _).ok h₂)
  have hnone : c.interfaces = 0 := yields_fillContext _ h₂
  cases fault with
  | some f => cases he
  | none =>
    cases he
    rw [SameDevice] at hdevice
    simp [Device.bindings, hdevice, hnone]

end

/-- The next interface of a context is the number of streams that were bound on it and of those that could not be.
By induction on the run. -/
theorem BindingRun.nextInterface {fs : List Nat} {m m' : Machine κ} (h : BindingRun fs m m') (i : Nat) {k : Nat}
    (hm : m.nextInterface i = .ofNat (m.streamsOn i + k)) :
    m'.nextInterface i = .ofNat (m'.streamsOn i + (k + fs.count i)) := by
  induction h generalizing k with
  | nil => simpa using hm
  | other hb _ ih =>
    refine ih ?_
    rwa [Machine.nextInterface, Machine.streamsOn, hb]
  | @context fs n m m₁ m' he _ ih =>
    obtain ⟨-, hbindings, -⟩ := createContext_bindings he
    have hnext : m₁.nextInterface i = m.nextInterface i := by
      rw [Machine.nextInterface, hbindings, Machine.nextInterface, List.getElem?_append]
      split
      · rfl
      · rw [List.getElem?_eq_none (l := m.device.bindings.1) (by omega)]
        cases i - m.device.bindings.1.length <;> rfl
    refine ih ?_
    rwa [hnext, Machine.streamsOn, hbindings]
  | @bound fs ctx n va size m m₁ m' he _ ih =>
    obtain ⟨c, s, hc, -, hcontexts, -, hstreams, hctx, -⟩ := bindStream_parts he
    refine ih ?_
    rw [nextInterface_takeInterface hc hcontexts, streamsOn_append hstreams, hctx, hm, ← UInt8.ofNat_add]
    congr 1
    omega
  | @failed fs ctx va size f m m₁ m' hcsf he _ ih =>
    obtain ⟨c, cs, hc, hcalled, -⟩ := bindStream_fault hcsf he
    have hcount : m₁.streamsOn i = m.streamsOn i := by
      rw [Machine.streamsOn, hcalled.device]
      rfl
    rw [← List.singleton_append, List.count_append, ← Nat.add_assoc k]
    refine ih ?_
    rw [nextInterface_takeInterface hc (congrArg Device.contexts hcalled.device), hcount, hm, ← UInt8.ofNat_add]
    congr 1
    omega

/-! ### Operations that bind no stream -/

/-- On a command stream device the interfaces that were taken and the contexts of the streams stay as they are. -/
def SameBindings (m m' : Machine κ) : Prop :=
  m.device.generation = .csf → m'.device.generation = .csf ∧ m'.device.bindings = m.device.bindings

namespace SameBindings

variable {m m' : Machine κ}

omit [Kernel κ] in
theorem of_bindings (hg : m'.device.generation = m.device.generation) (hb : m'.device.bindings = m.device.bindings) :
    SameBindings m m' := fun hm => ⟨hg.trans hm, hb⟩

instance : OfStreams (SameBindings (κ := κ)) where
  refl _ := of_bindings rfl rfl
  trans h h' hm := by
    obtain ⟨hm₁, hb⟩ := h hm
    obtain ⟨hm', hb'⟩ := h' hm₁
    exact ⟨hm', hb'.trans hb⟩
  of_other hm hcsf := absurd hcsf hm
  of_streams hp hb _ _ := of_bindings (congrArg Progress.generation hp) hb

instance : Slotless (SameBindings (κ := κ)) where
  of_pace _ _ _ := of_bindings rfl rfl

theorem run (h : SameBindings m m') (hcsf : m.device.generation = .csf) :
    m'.device.generation = .csf ∧ BindingRun [] m m' := ⟨(h hcsf).1, .other (h hcsf).2 (.nil m')⟩

end SameBindings

theorem operating_sameBindings : Operating (κ := κ) (.wide False True) fun _ => SameBindings := by
  have hany (f : Device → Device) (hp : ∀ d, (f d).generation = d.generation) (hb : ∀ d, (f d).bindings = d.bindings) :
      Keeps (SameBindings (κ := κ)) (modifyDevice f) := keeps_modify fun m => .of_bindings (hp m.device) (hb m.device)
  have hfree (x : Nat) : Keeps (SameBindings (κ := κ)) (Allocator.free x) := OfStreams.keeps_free x
  have hstreaming : Streaming (κ := κ) (.wide False True) fun _ => SameBindings := {
    proceeding_of_streams with
    createContext := False.elim
    destroyContext := OfStreams.keeps_destroyContext
    recreateContext := OfStreams.keeps_recreateContext
    bindStream := False.elim
    rebindStream := OfStreams.keeps_rebindStream
    unmapStream := OfStreams.keeps_unmapStream
    clearSlot := fun _ _ => keeps_bind (keeps_clearSlot _) (fun cs => keeps_runCallbacks hfree cs) _
    submitSlot := fun _ _ _ => keeps_submitSlot _ _ _
    createSyncobj := keeps_bind keeps_device fun _ =>
      keeps_bind (hany _ (fun _ => rfl) fun _ => rfl) fun _ => keeps_pure _
    pruneSyncobj := fun _ => hany _ (fun _ => rfl) fun _ => rfl
    fenceSyncobj := fun _ _ _ _ => hany _ (fun _ => rfl) fun _ => rfl
    destroySyncobj := fun _ _ => hany _ (fun _ => rfl) fun _ => rfl
    advance := fun i n => keeps_advance hfree i n
    updateCallbacks := fun i n => keeps_bind (keeps_takeCallbacks i n) fun cs => keeps_runCallbacks hfree cs
    collect := fun {m id batch b} _ _ _ _ hs => by
      have hsame : SameDevice m _ := sameDevice_collect id batch m hs
      exact .of_bindings (congrArg Device.generation hsame) (congrArg Device.bindings hsame) }
  exact .of_modify hstreaming lending_of_streams
    (fun _ _ => keeps_modify fun _ => .of_bindings rfl rfl)
    (fun _ => keeps_bind keeps_get fun _ => keeps_bind (fun _ _ => .of_bindings rfl rfl) fun _ => keeps_pure _)
    OfStreams.keeps_importBuffer

theorem Operation.within_unbinding {op : Operation} (h : op.binds = false) : op.Within (.wide False True) :=
  within_wide (fun hbinds => absurd hbinds (by simp [h])) fun _ => trivial

/-! ### Operations on one context -/

/-- An operation binds streams on one context only.  It fails at the first one that cannot be bound. -/
def BindsOn (ctx : Nat) {α : Type} (x : Op κ α) : Prop :=
  ∀ ⦃m m' : Machine κ⦄ ⦃r : Except Halt α⦄, x.exec m = (r, m') → Survives r → m.device.generation = .csf →
    m'.device.generation = .csf ∧ ∃ fs, BindingRun fs m m' ∧ (fs = [] ∨ r.toOption = none ∧ fs = [ctx])

section BindsOn

variable {α β : Type} {ctx : Nat}

theorem bindsOn_of_keeps {x : Op κ α} (hx : Keeps SameBindings x) : BindsOn ctx x := by
  intro m m' r he hr hm
  obtain ⟨hm', hrun⟩ := SameBindings.run ((hx m).survives he hr) hm
  exact ⟨hm', [], hrun, .inl rfl⟩

/-- What follows on an operation that comes to a value goes on where no binding failed. -/
theorem BindsOn.next {x : Op κ α} {a : α} {m m₁ : Machine κ} (hx : BindsOn ctx x) (he : x.exec m = (.ok a, m₁))
    (hm : m.device.generation = .csf) : m₁.device.generation = .csf ∧ BindingRun [] m m₁ := by
  obtain ⟨hm₁, fs, hrun, rfl | ⟨hnone, -⟩⟩ := hx he trivial hm
  · exact ⟨hm₁, hrun⟩
  · cases hnone

theorem bindsOn_bind {x : Op κ α} {f : α → Op κ β} (hx : BindsOn ctx x) (hf : ∀ a, BindsOn ctx (f a)) :
    BindsOn ctx (x >>= f) := by
  intro m m' r he hr hm
  rcases bind_survives he hr with ⟨f, h₁, rfl⟩ | ⟨a, m₁, h₁, he⟩
  · obtain ⟨hm', fs, hrun, hfs⟩ := hx h₁ trivial hm
    exact ⟨hm', fs, hrun, hfs.imp_right fun h => ⟨rfl, h.2⟩⟩
  · obtain ⟨hm₁, hfirst⟩ := hx.next h₁ hm
    obtain ⟨hm', fs, hrun, hfs⟩ := hf a he hr hm₁
    exact ⟨hm', fs, hfirst.append hrun, hfs⟩

/-- A fault that is looked at is passed on, after something that binds no stream. -/
theorem bindsOn_attempt {x : Op κ α} {f : Except Fault α → Op κ β} (hx : BindsOn ctx x)
    (hok : ∀ a, BindsOn ctx (f (.ok a)))
    (hfault : ∀ e, Keeps SameBindings (f (.error e)) ∧ Yields (fun _ => False) (f (.error e))) :
    BindsOn ctx (attempt x >>= f) := by
  intro m m' r he hr hm
  obtain ⟨answer, m₁, h₁, he⟩ := (faultless_attempt x).bind_survives he hr
  cases answer with
  | ok a =>
    obtain ⟨hm₁, hfirst⟩ := hx.next (attempt_ok h₁) hm
    obtain ⟨hm', fs, hrun, hfs⟩ := hok a he hr hm₁
    exact ⟨hm', fs, hfirst.append hrun, hfs⟩
  | error e =>
    obtain ⟨hm₁, fs, hrun, hfs⟩ := hx (attempt_fault h₁) trivial hm
    obtain ⟨hm', hlast⟩ := SameBindings.run (((hfault e).1 m₁).survives he hr) hm₁
    have hnone : r.toOption = none := by
      cases r with
      | ok b => exact ((hfault e).2 he).elim
      | error _ => rfl
    exact ⟨hm', fs, by simpa using hrun.append hlast, hfs.imp_right fun h => ⟨hnone, h.2⟩⟩

omit [Kernel κ] in
theorem yields_fail {P : α → Prop} (f : Fault) : Yields P (fail f : Op κ α) := by
  intro m m' a he
  cases he

theorem bindsOn_bindStream (va : UInt64) (size : UInt32) : BindsOn ctx (Device.bindStream ctx va size : Op κ Nat) := by
  intro m m' r he hr hm
  cases r with
  | ok n =>
    obtain ⟨c, s, -, hg, -⟩ := bindStream_parts he
    exact ⟨hg.trans hm, [], .bound he (.nil m'), .inl rfl⟩
  | error e =>
    obtain ⟨f, rfl⟩ := hr.fault
    obtain ⟨c, cs, -, hcalled, -⟩ := bindStream_fault hm he
    exact ⟨by rw [hcalled.device]; exact hm, [ctx], .failed hm he (.nil m'), .inr ⟨rfl, rfl⟩⟩

/-- A queue gets a stream on the context of its submission context. -/
theorem bindsOn_createQueue (ringSize : UInt32) (label : String) :
    BindsOn ctx (Submitter.createQueue ctx ringSize label : Op κ Queue) := by
  unfold Submitter.createQueue
  refine bindsOn_bind (bindsOn_of_keeps (operating_sameBindings.toLending.create _ _ _)) fun ring =>
    bindsOn_bind (bindsOn_of_keeps (keeps_buffer ring)) fun b =>
    bindsOn_attempt (bindsOn_bindStream _ _) (fun _ => bindsOn_of_keeps (keeps_pure _)) fun f => ⟨?_, ?_⟩
  · exact keeps_bind (operating_sameBindings.unreference ring) fun _ => keeps_fail _
  · exact yields_next fun _ => yields_fail _

theorem bindsOn_createQueues (id : Nat) (ringSize : UInt32) :
    BindsOn ctx (Submitter.createQueues id ctx ringSize : Op κ Unit) := by
  have hqueue (label : String) :
      BindsOn ctx (Submitter.orDestroy id (Submitter.createQueue ctx ringSize label) : Op κ Queue) :=
    bindsOn_attempt (bindsOn_createQueue ringSize label) (fun _ => bindsOn_of_keeps (keeps_pure _)) fun f =>
      ⟨keeps_bind (operating_sameBindings.destroySubmitter trivial) fun _ => keeps_fail _,
        yields_next fun _ => yields_fail _⟩
  have hseat (f : Submitter → Submitter) : BindsOn ctx (Submitter.modify id f : Op κ Unit) :=
    bindsOn_of_keeps (keeps_modify fun _ => .of_bindings rfl rfl)
  exact bindsOn_bind (hqueue _) fun _ => bindsOn_bind (hseat _) fun _ =>
    bindsOn_bind (hqueue _) fun _ => hseat _

end BindsOn

section

variable {m m' : Machine κ}

/-- Making a context is told by it. -/
theorem createContext_binds {r : Except Halt Nat} (hcsf : m.device.generation = .csf)
    (he : Device.createContext.exec m = (r, m')) (hr : Survives r) :
    m'.device.generation = .csf ∧ BindingRun [] m m' := by
  cases r with
  | ok n => exact ⟨(createContext_bindings he).1.trans hcsf, .context he (.nil m')⟩
  | error e =>
    obtain ⟨_, m₁, h₁, he⟩ := (faultless_debug _ _).bind_survives he hr
    obtain ⟨⟨c, fault⟩, m₂, h₂, he⟩ := (faultless_fillContext _).bind_survives he hr
    have hsame : SameBindings m m₂ := Journey.trans ((keeps_debug _ _).ok h₁) ((keeps_fillContext _).ok h₂)
    cases fault with
    | some f =>
      cases he
      exact hsame.run hcsf
    | none => cases he

/-- A submission context binds its streams on a context of its own, and is not made if one of them cannot be bound. -/
theorem createSubmitter_binds {ringSize : UInt32} {r : Except Halt Nat} (hcsf : m.device.generation = .csf)
    (he : (Submitter.create ringSize).exec m = (r, m')) (hr : Survives r) :
    m'.device.generation = .csf ∧
      ∃ fs, BindingRun fs m m' ∧ (fs = [] ∨ r.toOption = none ∧ fs = [m.device.contexts.length]) := by
  obtain ⟨_, m₁, h₁, he⟩ := (faultless_debug _ _).bind_survives he hr
  have hdevice : SameDevice m m₁ := (keeps_debug _ _).ok h₁
  rw [SameDevice] at hdevice
  have hcsf₁ : m₁.device.generation = .csf := by rwa [hdevice]
  have hstart : BindingRun [] m m₁ := .other (congrArg Device.bindings hdevice) (.nil m₁)
  rw [exec_bind_of_ok (exec_device m₁), if_neg (not_not.mpr hcsf₁)] at he
  obtain ⟨answer, m₂, h₂, he⟩ := (faultless_attempt _).bind_survives he hr
  cases answer with
  | error f =>
    cases he
    obtain ⟨hcsf', hrun⟩ := createContext_binds hcsf₁ (attempt_fault h₂) trivial
    exact ⟨hcsf', [], hstart.append hrun, .inl rfl⟩
  | ok ctx =>
    obtain ⟨hcsf₂, hrun⟩ := createContext_binds hcsf₁ (attempt_ok h₂) trivial
    obtain ⟨-, -, hctx⟩ := createContext_bindings (attempt_ok h₂)
    have hmodify (id : Nat) (f : Submitter → Submitter) : Keeps (SameBindings (κ := κ)) (Submitter.modify id f) :=
      keeps_modify fun _ => .of_bindings rfl rfl
    have hrest (s : Submitter) : BindsOn ctx (do
        let id ← Submitter.add s
        Submitter.createQueues id ctx ringSize
        let o ← Device.createSyncobj
        Submitter.modify id fun s => { s with syncobj := some o }
        return id : Op κ Nat) :=
      bindsOn_bind (bindsOn_of_keeps (keeps_bind keeps_get fun _ =>
        keeps_bind (fun _ _ => .of_bindings rfl rfl) fun _ => keeps_pure _)) fun id =>
      bindsOn_bind (bindsOn_createQueues id ringSize) fun _ =>
      bindsOn_of_keeps (keeps_bind operating_sameBindings.createSyncobj fun _ =>
        keeps_bind (hmodify id _) fun _ => keeps_pure id)
    obtain ⟨hcsf', fs, hlast, hfs⟩ := hrest _ he hr hcsf₂
    rw [hctx, hdevice] at hfs
    exact ⟨hcsf', fs, hstart.append (hrun.append hlast), hfs⟩

end

/-! ### Sessions -/

/-- A session told with the contexts that a stream could not be bound on, in their order. -/
inductive BindSession : List Nat → Machine κ → Machine κ → Prop
  | nil (m : Machine κ) : BindSession [] m m
  | work {fs : List Nat} {m m₁ m' : Machine κ} {r : Except Halt Unit} (op : Operation) (hop : op.binds = false)
    (he : op.run.exec m = (r, m₁)) (hr : Survives r) (h : BindSession fs m₁ m') : BindSession fs m m'
  | context {fs : List Nat} {m m₁ m' : Machine κ} {r : Except Halt Nat} (he : Device.createContext.exec m = (r, m₁))
    (hr : Survives r) (h : BindSession fs m₁ m') : BindSession fs m m'
  | bound {fs : List Nat} {ctx n : Nat} {va : UInt64} {size : UInt32} {m m₁ m' : Machine κ}
    (he : (Device.bindStream ctx va size).exec m = (.ok n, m₁)) (h : BindSession fs m₁ m') : BindSession fs m m'
  | failed {fs : List Nat} {ctx : Nat} {va : UInt64} {size : UInt32} {f : Fault} {m m₁ m' : Machine κ}
    (he : (Device.bindStream ctx va size).exec m = (.error (.fault f), m₁)) (h : BindSession fs m₁ m') :
    BindSession (ctx :: fs) m m'
  /-- A submission context binds its streams on a context of its own, and is made only if all can be bound. -/
  | submitter {fs gs : List Nat} {ringSize : UInt32} {m m₁ m' : Machine κ} {r : Except Halt Nat}
    (he : (Submitter.create ringSize).exec m = (r, m₁)) (hr : Survives r) (hrun : BindingRun gs m m₁)
    (hgs : gs = [] ∨ r.toOption = none ∧ gs = [m.device.contexts.length]) (h : BindSession fs m₁ m') :
    BindSession (gs ++ fs) m m'
  | idle {fs : List Nat} {m m₁ m' : Machine κ} (hsame : SameInside m m₁) (hcalls : m₁.calls = m.calls)
    (h : BindSession fs m₁ m') : BindSession fs m m'

omit [Kernel κ] in
/-- What is done and forgotten is done. -/
theorem discard_survives {α : Type} {x : Op κ α} {r : Except Halt Unit} {m m' : Machine κ}
    (he : (discard x).exec m = (r, m')) (hr : Survives r) : ∃ r', x.exec m = (r', m') ∧ Survives r' := by
  change (x >>= fun _ => pure ()).exec m = (r, m') at he
  rcases bind_survives he hr with ⟨f, h₁, -⟩ | ⟨a, m₁, h₁, he⟩
  · exact ⟨_, h₁, trivial⟩
  · cases he
    exact ⟨_, h₁, trivial⟩

/-- A session can start with any operation. -/
theorem Operation.bindSession {op : Operation} {m m₁ : Machine κ} {r : Except Halt Unit}
    (hcsf : m.device.generation = .csf) (he : op.run.exec m = (r, m₁)) (hr : Survives r) :
    m₁.device.generation = .csf ∧
      ∃ gs, ∀ {fs : List Nat} {m' : Machine κ}, BindSession fs m₁ m' → BindSession (gs ++ fs) m m' := by
  cases hop : op.binds with
  | false =>
    have hsame : SameBindings m m₁ := (operating_sameBindings.operation (Operation.within_unbinding hop) m).survives he hr
    exact ⟨(hsame hcsf).1, [], fun h => .work op hop he hr h⟩
  | true =>
    cases op with
    | createContext =>
      obtain ⟨r', hx, hr'⟩ := discard_survives he hr
      exact ⟨(createContext_binds hcsf hx hr').1, [], fun h => .context hx hr' h⟩
    | bind ctx va size =>
      obtain ⟨r', hx, hr'⟩ := discard_survives he hr
      refine ⟨(bindsOn_bindStream va size hx hr' hcsf).1, ?_⟩
      match r', hr' with
      | .ok n, _ => exact ⟨[], fun h => .bound hx h⟩
      | .error (.fault f), _ => exact ⟨[ctx], fun h => .failed hx h⟩
    | createSubmitter ringSize =>
      obtain ⟨r', hx, hr'⟩ := discard_survives he hr
      obtain ⟨hcsf₁, gs, hrun, hgs⟩ := createSubmitter_binds hcsf hx hr'
      exact ⟨hcsf₁, gs, fun h => .submitter hx hr' hrun hgs h⟩
    | _ => cases hop

/-- Every session can be told so.  By induction on the session. -/
theorem Session.bindSession {m m' : Machine κ} (h : Session m m') (hcsf : m.device.generation = .csf) :
    ∃ fs, BindSession fs m m' := by
  induction h with
  | nil m => exact ⟨[], .nil m⟩
  | work op he hr _ ih =>
    obtain ⟨hcsf₁, gs, hstart⟩ := Operation.bindSession hcsf he hr
    obtain ⟨fs, hrest⟩ := ih hcsf₁
    exact ⟨gs ++ fs, hstart hrest⟩
  | idle hsame hcalls _ ih =>
    obtain ⟨fs, hrest⟩ := ih (by rw [hsame.device]; exact hcsf)
    exact ⟨fs, .idle hsame hcalls hrest⟩

/-- It is told by its bindings then.  By induction on the session. -/
theorem BindSession.bindingRun {fs : List Nat} {m m' : Machine κ} (h : BindSession fs m m')
    (hcsf : m.device.generation = .csf) : m'.device.generation = .csf ∧ BindingRun fs m m' := by
  induction h with
  | nil m => exact ⟨hcsf, .nil m⟩
  | work op hop he hr _ ih =>
    have hsame : SameBindings _ _ := (operating_sameBindings.operation (Operation.within_unbinding hop) _).survives he hr
    obtain ⟨hcsf₁, hrun⟩ := hsame.run hcsf
    exact (ih hcsf₁).imp_right hrun.append
  | context he hr _ ih =>
    obtain ⟨hcsf₁, hrun⟩ := createContext_binds hcsf he hr
    exact (ih hcsf₁).imp_right hrun.append
  | bound he _ ih =>
    obtain ⟨hcsf₁, -⟩ := bindsOn_bindStream _ _ he trivial hcsf
    exact (ih hcsf₁).imp_right (.bound he)
  | failed he _ ih =>
    obtain ⟨hcsf₁, -⟩ := bindsOn_bindStream _ _ he trivial hcsf
    exact (ih hcsf₁).imp_right (.failed hcsf he)
  | submitter he hr hrun _ _ ih =>
    obtain ⟨hcsf₁, -⟩ := createSubmitter_binds hcsf he hr
    exact (ih hcsf₁).imp_right hrun.append
  | idle hsame _ _ ih =>
    have hdevice := hsame.device
    exact (ih (by rw [hdevice]; exact hcsf)).imp_right (.other (congrArg Device.bindings hdevice))

/-- After any session, the next interface of a context is the number of streams that were bound on it and of those that
could not be.  A stream that is bound gets that interface.  A binding that fails leaves the slots, the streams and the
records as they were, but takes the interface, and leaves a ring that was registered as it is. -/
theorem Session.bind_skips {m₀ m : Machine κ} (hcsf : m₀.device.generation = .csf)
    (hcontexts : m₀.device.contexts = []) (hstreams : m₀.device.streams = []) (h : Session m₀ m) (ctx : Nat)
    (va : UInt64) (size : UInt32) :
    ∃ fs, BindSession fs m₀ m ∧ BindingRun fs m₀ m ∧ m.nextInterface ctx = .ofNat (m.streamsOn ctx + fs.count ctx) ∧
      (m.nextInterface ctx = .ofNat (m.streamsOn ctx) ↔ 256 ∣ fs.count ctx) ∧
      (∀ n m', (Device.bindStream ctx va size).exec m = (.ok n, m') →
        ∃ s, m'.device.streams[n]? = some s ∧ s.context = ctx ∧ s.csi = m.nextInterface ctx ∧
          m'.streamsOn ctx = m.streamsOn ctx + 1) ∧
      ∀ f m', (Device.bindStream ctx va size).exec m = (.error (.fault f), m') →
        ∃ c cs, m.device.contexts[ctx]? = some c ∧
          Called cs { m with device := m.device.takeInterface ctx } m' ∧ Served m m' ∧
          BindCourse m.device.fd (c.nextRing ctx va size) c.group (.error f) cs ∧
          (leavesRegistered va cs = true ↔
            ⟨.ioctl m.device.fd (c.nextRing ctx va size).registration, .ok ()⟩ ∈ cs) := by
  obtain ⟨fs, hsession⟩ := h.bindSession hcsf
  obtain ⟨hcsf', hrun⟩ := hsession.bindingRun hcsf
  have hnext : m.nextInterface ctx = .ofNat (m.streamsOn ctx + fs.count ctx) := by
    refine (hrun.nextInterface ctx (k := 0) ?_).trans (by rw [Nat.zero_add])
    simp [Machine.nextInterface, Machine.streamsOn, Device.bindings, hcontexts, hstreams]
  refine ⟨fs, hsession, hrun, hnext, ?_, fun n m' he => ?_, fun f m' he => ?_⟩
  · rw [hnext, ← UInt8.toNat_inj, UInt8.toNat_ofNat', UInt8.toNat_ofNat']
    omega
  · obtain ⟨c, s, hc, -, -, rfl, hstreams, hctx, hcsi⟩ := bindStream_parts he
    refine ⟨s, by rw [hstreams, List.getElem?_concat_length], hctx, ?_, ?_⟩
    · rw [hcsi, nextInterface_of_context hc]
    · rw [streamsOn_append hstreams, hctx, List.count_singleton_self]
  · obtain ⟨c, cs, hc, hcalled, hserved, hcourse⟩ := bindStream_fault hcsf' he
    exact ⟨c, cs, hc, hcalled, hserved, hcourse, hcourse.leavesRegistered_iff⟩

namespace Sample

/-- A device whose kernel refuses to bind a ring once. -/
def refusing : Machine Bench where
  kernel := { model := .scripted {}, plans := [(.command .csQueueBind, { answer := .inval, count := 1 })] }
  device := { generation := .csf, options := { pageSize := 4096 }, eventMemory := some ⟨0x1000, 8192⟩ }

/-- A context was made. -/
def hosted : Machine Bench := (Device.createContext.exec refusing).2

/-- A ring could not be bound. -/
def refused : Machine Bench := ((Device.bindStream 0 0x10000 4096).exec hosted).2

/-- Another one was bound. -/
def rebound : Machine Bench := ((Device.bindStream 0 0x20000 4096).exec refused).2

theorem session_refused : Session refusing refused :=
  .work .createContext (exec_discard_of_ok (a := 0) (exec_of_value (by decide))) trivial <|
    .work (.bind 0 0x10000 4096) (exec_of_error rfl) trivial (.nil _)

end Sample

/-- The ring that was refused stays registered, and the first one that can be bound gets the second interface. -/
theorem Session.bind_skips_refused :
    Sample.refusing.device.generation = .csf ∧ Sample.refusing.device.contexts = [] ∧
      Sample.refusing.device.streams = [] ∧ Session Sample.refusing Sample.refused ∧
      Sample.refused.streamsOn 0 = 0 ∧ leavesRegistered 0x10000 Sample.refused.calls = true ∧
      ∃ s m', (Device.bindStream 0 0x20000 4096).exec Sample.refused = (.ok 0, m') ∧
        m'.device.streams[0]? = some s ∧ s.context = 0 ∧ s.csi = 1 := by
  have he : (Device.bindStream 0 0x20000 4096).exec Sample.refused = (.ok 0, Sample.rebound) :=
    exec_of_value (by decide)
  obtain ⟨fs, -, -, -, -, hbound, -⟩ := Session.bind_skips rfl rfl rfl Sample.session_refused 0 0x20000 4096
  obtain ⟨s, hs, hctx, hcsi, -⟩ := hbound 0 _ he
  have hnext : Sample.refused.nextInterface 0 = 1 := by decide
  exact ⟨rfl, rfl, rfl, Sample.session_refused, by decide, by decide, s, _, he, hs, hctx, hcsi.trans hnext⟩

end Mali
