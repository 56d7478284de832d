import Mali.Proofs.Workings

/-!
# What the operations of a program come to

Every operation that a program asks of a command stream device and its allocator is a run of steps, and leaves no
mapping behind.  Those that change references only are runs of plain steps, which can be made on any device.

* `Ambles`: what the plain operations come to, with a buffer still to be handed out or with none.
* `Proceeds`: what an operation comes to on a command stream device.
* `streaming_proceeds`, `lending_proceeds`, `operating_proceeds`: everything goes along with it.
* `Takes`: steps that take callbacks off a slot, which run afterwards.
* `Admitting`, `admitting_ambles`, `conserves_importBuffer`: importing, which is put together otherwise.
-/

namespace Mali

open Op

variable {κ : Type} [Kernel κ]

/-! ## Runs of plain steps -/

/-- An operation is a run of steps about buffers.  Afterwards one buffer is still to be handed out, or none. -/
def Ambles (held : Option Nat) (m m' : Machine κ) : Prop :=
  ∃ es, Run ⟨m, [], none⟩ es ⟨m', [], held⟩ ∧ ∀ e ∈ es, e.2.Plain

namespace Ambles

variable {m m₁ m' : Machine κ} {held : Option Nat}

theorem next (h : Ambles none m m₁) (h' : Ambles held m₁ m') : Ambles held m m' := by
  obtain ⟨es, hrun, hplain⟩ := h
  obtain ⟨es', hrun', hplain'⟩ := h'
  exact ⟨es ++ es', hrun.append hrun', List.forall_mem_append.mpr ⟨hplain, hplain'⟩⟩

theorem of_step {act : Action} (hs : Step ⟨m, [], none⟩ act ⟨m', [], held⟩) (hact : act.Plain := by exact .inl rfl) :
    Ambles held m m' := ⟨_, .single hs, List.forall_mem_singleton.mpr hact⟩

theorem of_quiet (hq : Quiet m m') : Ambles none m m' := of_step (.quiet hq)

instance : Journey (Ambles (κ := κ) none) where
  refl _ := ⟨[], .nil _, List.forall_mem_nil _⟩
  trans := next

instance : Inward (Ambles (κ := κ) none) where
  of_eq hd ha hs hb := of_quiet (Inward.of_eq hd ha hs hb)

end Ambles

/-- What has no faults and is one plain step when it comes to a value. -/
theorem Op.Faultless.ambles {α : Type} {x : Op κ α} (hx : Faultless x)
    (hs : ∀ {m m' : Machine κ} {a : α}, x.exec m = (.ok a, m') →
      ∃ act : Action, act.Plain ∧ Step ⟨m, [], none⟩ act ⟨m', [], none⟩) : Keeps (Ambles none) x :=
  hx.keeps fun he => by
    obtain ⟨act, hact, hstep⟩ := hs he
    exact .of_step hstep hact

theorem ambles_evictOld : Keeps (Ambles (κ := κ) none) Allocator.evictOld :=
  faultless_evictOld.ambles fun he => ⟨_, .inl rfl, .evictStale he⟩

theorem ambles_evictBuckets (indices : List Nat) : Keeps (Ambles (κ := κ) none) (Allocator.evictBuckets indices) :=
  (faultless_evictBuckets _).ambles fun he => ⟨_, .inl rfl, .evictAll he⟩

theorem ambles_reference (x : Nat) : Keeps (Ambles (κ := κ) none) (Buffer.reference x) :=
  (faultless_reference x).ambles fun he => ⟨_, .inl rfl, .reference he⟩

theorem ambles_unreference (x : Nat) : Keeps (Ambles (κ := κ) none) (Buffer.unreference x) := by
  refine (faultless_unreference x).ambles fun he => ?_
  obtain ⟨a, ha, -⟩ := unreference_ok he
  by_cases hlast : a.refs = 1
  · exact ⟨_, .inr ⟨x, rfl⟩, .release ha hlast he⟩
  · exact ⟨_, .inl rfl, .unreference ha hlast he⟩

theorem ambles_reuse (x : Nat) (label : String) :
    Hands Ambles (fun _ => some x) (Allocator.reuse x label : Op κ Unit) := by
  intro m m' r he hr
  obtain ⟨u, rfl⟩ := (faultless_reuse x label).value he hr
  exact .of_step (.reuse he)

/-- A new region is asked for, and then becomes a buffer. -/
theorem ambles_allocate (size : Int64) (flags : UInt32) (label : String) :
    Hands Ambles some (Allocator.allocate size flags label : Op κ Nat) := by
  intro m m' r he hr
  obtain ⟨_, _, ⟨f, h₁, rfl⟩ | ⟨region, x, m₁, m₂, h₁, h₂, h₃, rfl⟩⟩ := allocate_survives he hr
  · exact .of_quiet ((keeps_alloc _ _ _ m).survives h₁ trivial)
  cases h₃
  have hwrap : Step ⟨m₁, [], none⟩ .other ⟨m₂, [], some x⟩ := .wrap h₂
  refine Ambles.next (.of_quiet ((keeps_alloc _ _ _).ok h₁)) ⟨_, .cons hwrap (.single (.quiet ?_)), ?_⟩
  · exact ⟨.of_eq rfl rfl, rfl, fun _ _ ho => ho⟩
  · simp [Action.Plain]

/-! ### Importing -/

/-- Relations that go along with what an import is made of. -/
structure Admitting (R : Machine κ → Machine κ → Prop) : Prop where
  importFile : ∀ fd, Keeps R (Device.importFile fd)
  writeLine : ∀ b fd imported, Keeps R (Allocator.write "import" b fd imported)
  /-- The handle of the file stands for a buffer. -/
  revive : ∀ {m m' : Machine κ} {x k : Nat} {d : Int}, m.allocator.lookup? k = some x → m.Owns k d → 0 ≤ d →
    (Allocator.revive x).exec m = (.ok (), m') → R m m'
  /-- It stands for none yet. -/
  enter : ∀ {m m' : Machine κ} {b : Buffer} {x : Nat} {d : Int}, m.allocator.lookup? b.handle = none →
    m.Owns b.handle d → b.account = { handle := b.handle, shared := true, refs := 1 } →
    (Allocator.addBuffer b).exec m = (.ok x, m') → R m m'
  /-- The import is given up. -/
  abandon : ∀ {m m' : Machine κ} {k : Nat}, m.allocator.lookup? k = none →
    (Device.freeHandle k).exec m = (.ok (), m') → R m m'

theorem admitting_ambles : Admitting (Ambles (κ := κ) none) where
  importFile fd m hs := .of_quiet (quiet_importFile fd m hs)
  writeLine b fd imported m hs := .of_quiet (quiet_write _ b fd imported m hs)
  revive hx hown hd he := .of_step (.revive hx hown hd he)
  enter hnone hown hb he := .of_step <| .enter hnone hown (congrArg Account.shared hb) (congrArg Account.gpuRefs hb)
    (congrArg Account.cachedIn hb) (congrArg Account.freed hb) (congrArg Account.refs hb) (congrArg Account.usage hb) he
  abandon hnone he := .of_step (.abandon hnone he)

section Wrapping

variable {R : Machine κ → Machine κ → Prop} [Plain R] [Remaps R] (h : Admitting R)
include h

/-- An import that is undone ends a mapping at most, and gives its handle up. -/
theorem Admitting.dropImport {m m' : Machine κ} {k : Nat} {handle : Handle} {u : Unit}
    (hfree : m.allocator.lookup? k = none) (he : (Allocator.dropImport k handle).exec m = (.ok u, m')) : R m m' := by
  have hend {m₁ : Machine κ} (hr : R m m₁) (ha : SameAllocator m m₁)
      (he : (Device.freeHandle k).exec m₁ = (.ok u, m')) : R m m' := by
    refine Journey.trans hr (h.abandon ?_ he)
    rw [show m₁.allocator = m.allocator from ha]
    exact hfree
  unfold Allocator.dropImport at he
  split at he
  · exact hend (Journey.refl m) rfl he
  · obtain ⟨_ | e, m₁, h₁, he⟩ := bind_ok he
    · exact hend ((keeps_unmapMemory _).ok h₁) ((keeps_unmapMemory _).ok h₁) he
    · obtain ⟨_, m₂, h₂, he⟩ := bind_ok he
      have ha : SameAllocator m m₂ := Journey.trans ((keeps_unmapMemory _).ok h₁) ((keeps_error _ _).ok h₂)
      exact hend (Journey.trans ((keeps_unmapMemory _).ok h₁) ((keeps_error _ _).ok h₂)) ha he

/-- A file that was just imported becomes a buffer, or its handle goes. -/
theorem Admitting.wrapImport {m : Machine κ} {fd d : Int} {k : Nat} (hnone : m.allocator.lookup? k = none)
    (hown : m.Owns k d) : KeepsAt R (Allocator.wrapImport fd k) m := by
  refine keepsAt_of_exec fun {r m'} he hr => ?_
  unfold Allocator.wrapImport at he
  rw [exec_bind_of_ok (exec_device m)] at he
  dsimp only at he
  obtain ⟨answer, m₁, h₁, he⟩ := (faultless_attempt _).bind_survives he hr
  refine Journey.trans ((keeps_attempt (keeps_importedBuffer _ _ _)).ok h₁) ?_
  cases answer with
  | ok b =>
    obtain ⟨hsame, p, size, freeRegion, -, rfl⟩ := importedBuffer_ok (attempt_ok h₁)
    obtain ⟨x, rfl⟩ := (faultless_addBuffer _).value he hr
    have hshared : hasFlag BufferFlag.shared BufferFlag.shared = true := by decide
    exact h.enter ((hsame.lookup? k).trans hnone) (hsame.owns_iff.mpr hown)
      (by rw [Buffer.account, Buffer.has, hshared]) he
  | error f =>
    obtain ⟨hsame, -⟩ := importedBuffer_fault 0 (attempt_fault h₁)
    obtain ⟨_, m₂, h₂, he⟩ := (faultless_dropImport _ _).bind_survives he hr
    cases he
    exact h.dropImport ((hsame.lookup? k).trans hnone) h₂

end Wrapping

section Import

variable (hdup : ∀ (k : κ) (fd d : Int), (Kernel.call k (.dup fd)).1.result = .ok d → 0 ≤ d)
include hdup

/-- An imported file has a handle with a descriptor. -/
theorem importFile_owns {m m' : Machine κ} {fd : Int} {k : Nat} (he : (Device.importFile fd).exec m = (.ok k, m')) :
    ∃ d, m'.Owns k d ∧ 0 ≤ d := by
  unfold Device.importFile at he
  obtain ⟨_, m₁, -, he⟩ := bind_ok he
  rw [exec_bind_of_ok (exec_device m₁)] at he
  obtain ⟨found, m₂, h₂, he⟩ := bind_ok he
  have hput : StaysPut m₁ m₂ := (keeps_findFile _ _ _).ok h₂
  cases found with
  | some k =>
    cases he
    obtain ⟨j, h, rfl, hj, hfd⟩ := findFile_ok h₂
    refine ⟨h.fd, ?_, hfd⟩
    rw [Machine.Owns, hput.handles, Nat.zero_add]
    exact ⟨h, hj, rfl, fun hfreed => absurd (hfreed ▸ hfd) (by decide)⟩
  | none =>
    obtain ⟨answer, m₃, h₃, he⟩ := bind_ok he
    cases answer with
    | error e => cases he
    | ok d =>
      have hd : 0 ≤ d := by
        rw [exec_call] at h₃
        exact hdup _ _ _ (Except.ok.inj (Prod.mk.inj h₃).1)
      dsimp only at he
      obtain ⟨reply, m₄, -, he⟩ := bind_ok he
      obtain ⟨p, m₅, -, he⟩ := bind_ok he
      obtain ⟨k, m₆, h₆, he⟩ := bind_ok he
      cases he
      obtain ⟨rfl, rfl⟩ := allocHandle_ok h₆
      have hnew : d ≠ freedFd := by
        rintro rfl
        exact absurd hd (show ¬(0 : Int) ≤ -2 by decide)
      exact ⟨d, HandleTable.owns_setMapping_iff.mpr (HandleTable.owns_alloc_self _ _ hnew), hd⟩

/-- An import finds the buffer of the file or makes one, if duplicates are descriptors. -/
theorem Admitting.importBuffer {R : Machine κ → Machine κ → Prop} [Plain R] [Remaps R] (h : Admitting R) (fd : Int) :
    Keeps R (Allocator.importBuffer fd) := by
  have hwrite (known : Bool) (x : Nat) : Keeps R (do
      let b ← buffer x
      Allocator.write "import" b fd (some (b.dmabufFd, known))
      return x) :=
    keeps_bind (keeps_buffer x) fun b => keeps_bind (h.writeLine _ _ _) fun _ => keeps_pure x
  unfold Allocator.importBuffer
  refine keeps_bind keeps_requireAllocator fun _ => keeps_bind (keeps_debug _ _) fun _ m => ?_
  refine keepsAt_bind (h.importFile fd m) fun k m₁ h₁ => ?_
  obtain ⟨d, hown, hd⟩ := importFile_owns hdup h₁
  refine keepsAt_bind (keeps_allocator m₁) fun a m₂ h₂ => ?_
  cases h₂
  cases hx : m₁.allocator.lookup? k with
  | some x =>
    have hrevive : KeepsAt R (Allocator.revive x) m₁ :=
      (faultless_revive x).keepsAt fun he => h.revive hx hown hd he
    exact keepsAt_bind hrevive fun _ m₂ _ => keeps_bind (keeps_pure x) (hwrite true) m₂
  | none => exact keepsAt_bind (h.wrapImport hx hown) fun x m₂ _ => hwrite false x m₂

end Import

/-! ## Proceeding -/

/-- An operation is a run of steps that leaves no mapping behind.  Afterwards one buffer is still to be handed out,
or none. -/
def Proceeds (held : Option Nat) (m m' : Machine κ) : Prop :=
  m.Housed → m'.Housed ∧ Carries 0 0 m m' ∧ ∃ es, Run ⟨m, [], none⟩ es ⟨m', [], held⟩

namespace Proceeds

variable {m m₁ m' : Machine κ} {held : Option Nat}

theorem next (h : Proceeds none m m₁) (h' : Proceeds held m₁ m') : Proceeds held m m' := by
  intro hm
  obtain ⟨hm₁, hcarries, es, hrun⟩ := h hm
  obtain ⟨hm', hcarries', es', hrun'⟩ := h' hm₁
  exact ⟨hm', hcarries.trans hcarries', es ++ es', hrun.append hrun'⟩

theorem of_run {es : List (Config κ × Action)} (hc : Conserves m m') (hrun : Run ⟨m, [], none⟩ es ⟨m', [], held⟩) :
    Proceeds held m m' := fun hm => ⟨(hc hm).1, (hc hm).2, es, hrun⟩

theorem of_ambles (hc : Conserves m m') (h : Ambles held m m') : Proceeds held m m' := by
  obtain ⟨es, hrun, -⟩ := h
  exact of_run hc hrun

theorem of_step {act : Action} (hc : Conserves m m') (hs : Step ⟨m, [], none⟩ act ⟨m', [], held⟩) :
    Proceeds held m m' := of_run hc (.single hs)

theorem of_quiet (hc : Conserves m m') (hq : Quiet m m') : Proceeds none m m' := of_step hc (.quiet hq)

instance : Journey (Proceeds (κ := κ) none) where
  refl _ hm := ⟨hm, .of_eq rfl rfl rfl, [], .nil _⟩
  trans := next

instance : OfTrace (Proceeds (κ := κ) none) where
  of_trace hk hc hd ha hs hb := of_quiet (OfTrace.of_trace hk hc hd ha hs hb) (Inward.of_eq hd ha hs hb)

instance : Plain (Proceeds (κ := κ) none) where
  of_plain c hc m hs := of_quiet (Plain.of_plain c hc m hs) (Plain.of_plain c hc m hs)

end Proceeds

/-- What is quiet and leaves no mapping behind. -/
theorem proceeds_of_quiet {α : Type} {x : Op κ α} (hc : Keeps Conserves x) (hq : Keeps Quiet x) :
    Keeps (Proceeds none) x := fun m hs => .of_quiet (hc m hs) (hq m hs)

theorem proceeds_modifySubmitter (id : Nat) (f : Submitter → Submitter) :
    Keeps (Proceeds (κ := κ) none) (Submitter.modify id f) :=
  proceeds_of_quiet (fun _ _ => Slotwise.of_slots rfl rfl rfl rfl) (quiet_modifySubmitter id f)

/-- What is a run of plain steps, and leaves no mapping behind. -/
theorem proceeds_of_ambles {α : Type} {x : Op κ α} (hc : Keeps Conserves x) (ha : Keeps (Ambles none) x) :
    Keeps (Proceeds none) x := fun m hs => .of_ambles (hc m hs) (ha m hs)

/-! ## Waits and the search for a buffer -/

theorem proceeds_handleEvents : Keeps (Proceeds (κ := κ) none) Device.handleEvents := by
  intro _ hs hm
  obtain ⟨hm', hcarries⟩ := conserves_handleEvents _ hs hm
  obtain ⟨-, ⟨es, hrun, -⟩, -⟩ := lingers_handleEvents _ hs hm.generation
  exact ⟨hm', hcarries, es, hrun⟩

/-- On a command stream device a cached buffer is always idle. -/
theorem proceeds_isIdle (x : Nat) (patient : Bool) : Keeps (Proceeds (κ := κ) none) (Allocator.isIdle x patient) := by
  intro m _ hm
  rw [exec_isIdle_of_csf hm.generation]
  exact Journey.refl (R := Proceeds none) m hm

/-- A change of a device that leaves alone what it holds on to, and how far its slots and streams are. -/
theorem proceeds_editDevice {f : Device → Device} (hf : ∀ d, (f d).fixtures = d.fixtures)
    (hp : ∀ d, (f d).progress = d.progress) : Keeps (Proceeds (κ := κ) none) (modifyDevice f) := by
  refine proceeds_of_quiet (keeps_editSlots hf) (quiet_modifyDevice hp fun d k fd ho => ?_)
  rwa [show (f d).handles = d.handles from congrArg (·.2.1) (hf d)]

theorem proceeding_proceeds : Proceeding (Proceeds (κ := κ)) where
  next := .next
  editDevice hf hp _ _ _ := proceeds_editDevice hf hp
  countMiss := proceeds_of_quiet (keeps_editAllocator (fun _ => rfl) fun _ => rfl) (quiet_modifyAllocator fun _ => rfl)
  evictOld := proceeds_of_ambles (keeps_evictOld (keeps_evict conserves_free)) ambles_evictOld
  evictBuckets indices :=
    proceeds_of_ambles (keeps_evictBuckets (keeps_evict conserves_free) _) (ambles_evictBuckets indices)
  handleEvents := proceeds_handleEvents
  isIdle := proceeds_isIdle
  reuse x label m _ _ he hr := .of_ambles ((keeps_reuse x label m).survives he hr) (ambles_reuse x label he hr)
  allocate size _ label _ m _ _ he hr :=
    .of_ambles ((conserves_allocate size _ label m).survives he hr) (ambles_allocate size _ label he hr)

/-! ## Streams -/

/-- A step takes callbacks off a slot. -/
def Takes (act : Action) (taken : List Callback) (m m' : Machine κ) : Prop :=
  Step ⟨m, [], none⟩ act ⟨m', act.takes m.progress, none⟩ ∧ (act.takes m.progress).map (·.2.callback) = taken

theorem takes_clearSlot {m m' : Machine κ} {i : Nat} {taken : List Callback} (hi : i ∈ m.progress.streams)
    (he : (Device.clearSlot i).exec m = (.ok taken, m')) : Takes (.terminate i) taken m m' := by
  refine ⟨@Step.terminate _ _ m _ i [] _ hi he, ?_⟩
  rw [(clearSlot_ok he).2.1, Action.takes, List.map_map]
  rfl

theorem takes_advanceSlot {m m' : Machine κ} {i : Nat} {n : UInt64} {taken : List Callback}
    (he : (Device.advanceSlot i n).exec m = (.ok taken, m')) : Takes (.advance i n) taken m m' := by
  refine ⟨@Step.advance _ _ m _ i n [] _ he, ?_⟩
  rw [(advanceSlot_ok he).2.1, Int.toNat_natCast, Action.takes, List.map_map, EventSlot.advanced, EventSlot.advance]
  split <;> rfl

theorem takes_takeCallbacks {m m' : Machine κ} {i : Nat} {n : UInt64} {taken : List Callback}
    (he : (Device.takeCallbacks i n).exec m = (.ok taken, m')) : Takes (.update i n) taken m m' := by
  refine ⟨@Step.update _ _ m _ i n [] _ he, ?_⟩
  rw [(takeCallbacks_ok he).2.1, Int.toNat_natCast, Action.takes, List.map_map]
  rfl

/-- What a step takes runs after it. -/
theorem bind_runCallbacks_survives {x : Op κ (List Callback)} {m m' : Machine κ} {act : Action} {r : Except Halt Unit}
    (hx : Faultless x) (hs : ∀ {m' taken}, x.exec m = (.ok taken, m') → Takes act taken m m')
    (he : (x >>= Device.runCallbacks).exec m = (r, m')) (hr : Survives r) :
    ∃ taken m₁ es, x.exec m = (.ok taken, m₁) ∧ (Device.runCallbacks taken).exec m₁ = (.ok (), m') ∧
      Step ⟨m, [], none⟩ act ⟨m₁, act.takes m.progress, none⟩ ∧
      Pass (fun _ => none) ⟨m₁, act.takes m.progress, none⟩ es ⟨m', [], none⟩ := by
  obtain ⟨taken, m₁, h₁, he⟩ := hx.bind_survives he hr
  obtain ⟨hstep, rfl⟩ := hs h₁
  obtain ⟨u, rfl⟩ := (faultless_runCallbacks _).value he hr
  obtain ⟨es, hpass⟩ := runCallbacks_ok (fun _ => none) he
  exact ⟨_, m₁, es, h₁, he, hstep, hpass⟩

theorem proceeds_runCallbacks {x : Op κ (List Callback)} {m : Machine κ} {act : Action} (hx : Faultless x)
    (hc : KeepsAt Conserves x m) (hs : ∀ {m' taken}, x.exec m = (.ok taken, m') → Takes act taken m m') :
    KeepsAt (Proceeds none) (x >>= Device.runCallbacks) m := by
  refine keepsAt_of_exec fun {r m'} he hr hm => ?_
  obtain ⟨taken, m₁, es, h₁, hrun, hstep, hpass⟩ := bind_runCallbacks_survives hx hs he hr
  obtain ⟨hm₁, hcarries⟩ := hc.survives h₁ trivial hm
  obtain ⟨hm', hcarries'⟩ := (keeps_runCallbacks conserves_free _).ok hrun hm₁
  exact ⟨hm', hcarries.trans hcarries', _, .cons hstep hpass.run⟩

theorem proceeds_bindStream (ctx : Nat) (va : UInt64) (size : UInt32) :
    Keeps (Proceeds (κ := κ) none) (Device.bindStream ctx va size) := by
  refine fun m => keepsAt_of_exec fun {r m'} he hr hm => ?_
  obtain ⟨hm', hcarries⟩ := (conserves_bindStream ctx va size m).survives he hr hm
  refine ⟨hm', hcarries, ?_⟩
  rw [Device.bindStream_eq] at he
  rcases bind_survives he hr with ⟨f, h₁, rfl⟩ | ⟨s, m₁, h₁, he⟩
  · exact ⟨_, .single (.quiet ((quiet_prepareRing ctx va size m).survives h₁ trivial))⟩
  · obtain ⟨n, rfl⟩ := (faultless_attachStream s).value he hr
    exact ⟨_, .cons (.quiet ((quiet_prepareRing ctx va size).ok h₁)) (.single (.attach he))⟩

omit [Kernel κ] in
theorem conserves_collect (id batch : Nat) : Keeps (Conserves (κ := κ)) (Submitter.collect id batch) :=
  keeps_collect (fun _ y _ => keeps_bind (keeps_buffer y) fun _ => keeps_bind (keeps_editBuffer y fun _ => rfl)
    fun _ => keeps_pure _) id batch

theorem proceeds_modifyContext (id : Nat) (f : Context → Context) :
    Keeps (Proceeds (κ := κ) none) (Device.modifyContext id f) := proceeds_editDevice (fun _ => rfl) fun _ => rfl

theorem streaming_proceeds : Streaming .full (Proceeds (κ := κ)) where
  toProceeding := proceeding_proceeds
  createContext _ := keeps_createContext_of fun _ => proceeds_editDevice (fun _ => rfl) fun _ => rfl
  destroyContext id := keeps_destroyContext_of fun _ => proceeds_modifyContext id _
  recreateContext id := keeps_recreateContext_of fun _ => proceeds_modifyContext id _
  bindStream _ := proceeds_bindStream
  rebindStream id := proceeds_of_quiet (conserves_rebindStream id) (quiet_rebindStream id)
  unmapStream id := proceeds_of_quiet (conserves_unmapStream id) (quiet_unmapStream id)
  clearSlot {m _ _} _ hs :=
    proceeds_runCallbacks (faultless_clearSlot _) (keeps_clearSlot _ m) (takes_clearSlot (Machine.mem_streams hs))
  submitSlot {_ _ s} n _ hs := (faultless_submitSlot s.slot n).keepsAt fun he =>
    .of_step ((keeps_submitSlot _ _).ok he) (.submit (Machine.mem_streams hs) he)
  createSyncobj := keeps_bind keeps_device fun _ =>
    keeps_bind (proceeds_editDevice (fun _ => rfl) fun _ => rfl) fun _ => keeps_pure _
  pruneSyncobj _ := proceeds_editDevice (fun _ => rfl) fun _ => rfl
  fenceSyncobj _ _ _ _ := proceeds_editDevice (fun _ => rfl) fun _ => rfl
  destroySyncobj _ _ := proceeds_editDevice (fun _ => rfl) fun _ => rfl
  advance i n m := proceeds_runCallbacks (faultless_advanceSlot i n) (keeps_advanceSlot i n m) takes_advanceSlot
  updateCallbacks i n m :=
    proceeds_runCallbacks (faultless_takeCallbacks i n) (keeps_takeCallbacks i n m) takes_takeCallbacks
  collect {_ id batch _} _ _ hb hnew := (faultless_collect id batch).keepsAt fun he =>
    .of_step ((conserves_collect id batch).ok he) (.collect hb hnew he)

/-! ## References and batches -/

theorem lending_proceeds : Lending (Proceeds (κ := κ)) where
  toProceeding := proceeding_proceeds
  reference x := proceeds_of_ambles (keeps_reference x) (ambles_reference x)
  unreference x := proceeds_of_ambles (keeps_unreference conserves_free x) (ambles_unreference x)
  handOut {m m₁ m' x} h he hm := by
    obtain ⟨hm₁, hcarries, es, hrun⟩ := h hm
    obtain ⟨hm', hcarries'⟩ := (keeps_handOut (R := Conserves) x).ok he hm₁
    exact ⟨hm', hcarries.trans hcarries', _, hrun.append (.single (.handOut he))⟩
  editBatch id {f} hf := proceeds_of_quiet (keeps_modifyBatch id f) (quiet_modifyBatch id hf)
  startBatch submitter :=
    proceeds_of_quiet (keeps_bind keeps_requireAllocator fun _ => keeps_bind keeps_allocator fun _ =>
      keeps_bind keeps_get fun _ => keeps_bind (fun _ _ => Slotwise.of_slots rfl rfl rfl rfl) fun _ => keeps_pure _)
      (quiet_startBatch submitter)

/-- An import leaves no mapping behind: it finds a buffer, or puts the mapping of a new one away. -/
theorem conserves_importBuffer
    (hdup : ∀ (k : κ) (fd d : Int), (Kernel.call k (.dup fd)).1.result = .ok d → 0 ≤ d) (fd : Int) :
    Keeps (Conserves (κ := κ)) (Allocator.importBuffer fd) := by
  have hwrite (known : Bool) (x : Nat) : Keeps (Conserves (κ := κ)) (do
      let b ← buffer x
      Allocator.write "import" b fd (some (b.dmabufFd, known))
      return x) := keeps_bind (keeps_buffer x) fun b => keeps_bind (keeps_write _ _ _ _) fun _ => keeps_pure x
  unfold Allocator.importBuffer
  refine keeps_bind keeps_requireAllocator fun _ => keeps_bind (keeps_debug _ _) fun _ m =>
    keepsAt_of_exec fun {r m'} he hr hm => ?_
  rcases bind_survives he hr with ⟨f, h₁, rfl⟩ | ⟨k, m₁, h₁, he⟩
  · exact importFile_imported hdup hm h₁ trivial
  rw [exec_bind_of_ok (exec_allocator m₁)] at he
  rcases importFile_imported hdup hm h₁ trivial with ⟨⟨d, hown, hd⟩, hm₁, hcarries⟩ | ⟨hm₁, hcarries⟩
  · obtain ⟨x, hx⟩ := (hm₁.imports k d hown hd).resolve_left nofun
    rw [hx] at he
    have hrest : Keeps (Conserves (κ := κ)) (Allocator.revive x) := keeps_revive x
    obtain ⟨hm', hcarries'⟩ := (keeps_bind hrest (fun _ => keeps_bind (keeps_pure x) (hwrite true)) m₁).survives
      he hr hm₁
    exact ⟨hm', hcarries.trans hcarries'⟩
  · rw [(hm₁.pending k rfl).1] at he
    rcases bind_survives he hr with ⟨f, h₂, rfl⟩ | ⟨x, m₂, h₂, he⟩
    · obtain ⟨hm', hrest⟩ := wrapImport_carries hm₁ h₂ trivial
      exact ⟨hm', hcarries.trans hrest⟩
    · obtain ⟨hm₂, hrest⟩ := wrapImport_carries hm₁ h₂ trivial
      obtain ⟨hm', hlast⟩ := (hwrite _ x m₂).survives he hr hm₂
      exact ⟨hm', (hcarries.trans hrest).trans hlast⟩

/-! ## Everything that can be asked for -/

theorem operating_proceeds
    (hdup : ∀ (k : κ) (fd d : Int), (Kernel.call k (.dup fd)).1.result = .ok d → 0 ≤ d) :
    Operating .full (Proceeds (κ := κ)) :=
  .of_modify streaming_proceeds lending_proceeds proceeds_modifySubmitter
    (fun s => proceeds_of_quiet (keeps_bind keeps_get fun _ =>
      keeps_bind (fun _ _ => Slotwise.of_slots rfl rfl rfl rfl) fun _ => keeps_pure _) (quiet_addSubmitter s))
    fun fd => proceeds_of_ambles (conserves_importBuffer hdup fd) (admitting_ambles.importBuffer hdup fd)

end Mali
