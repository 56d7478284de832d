import Mali.Proofs.SearchBooks
import Mali.Proofs.Unstirred

/-!
# Operations between loans

Nothing that goes on between references, batches and submission contexts makes the books go wrong, if every stream can
have a slot of its own.  No count overflows meanwhile: references stay as they are, and nothing is added to what is
still to come.

* `Machine.Fits`: every stream can have a slot of its own.
* `Reaches`, `operating_reaches`: no operation takes a stream away, so what fits afterwards fitted before, and a device
  without command streams gets none.
* `Abides`: an operation that leaves all holders alone and keeps the books.
* `streaming_abides`, `abides_submitJob`: waits, the search for a buffer, and all that goes on with streams and atoms.
-/

namespace Mali

open Op

variable {κ : Type}

/-! ## Streams that fit -/

/-- How many streams a device has slots for.  A job manager device has no streams. -/
def Generation.room (g : Generation) : Nat := if g = .csf then slotCount else 0

/-- Every stream can have a slot of its own. -/
def Machine.Fits (m : Machine κ) : Prop := m.device.streams.length ≤ m.device.generation.room

theorem Machine.Fits.length_streams {m : Machine κ} (h : m.Fits) : m.progress.streams.length ≤ slotCount := by
  have hroom : m.device.generation.room ≤ slotCount := by
    unfold Generation.room
    split
    · exact Nat.le_refl _
    · exact Nat.zero_le _
  exact Nat.le_trans (Nat.le_of_eq (List.length_map ..)) (Nat.le_trans h hroom)

/-- The device stays of its kind, and no stream goes.  Only a command stream device gets streams. -/
structure Reaches (m m' : Machine κ) : Prop where
  generation : m'.device.generation = m.device.generation
  streams : m.device.streams.length ≤ m'.device.streams.length
  still : m.device.generation ≠ .csf → m'.device.streams.length = m.device.streams.length

namespace Reaches

variable {m m₁ m' : Machine κ}

theorem of_length (hg : m'.device.generation = m.device.generation)
    (hs : m'.device.streams.length = m.device.streams.length) : Reaches m m' :=
  ⟨hg, Nat.le_of_eq hs.symm, fun _ => hs⟩

theorem of_progress (h : m'.device.progress = m.device.progress) : Reaches m m' := by
  have hlength := congrArg (·.streams.length) h
  simp only [Device.progress, List.length_map] at hlength
  exact of_length (congrArg Progress.generation h) hlength

theorem trans (h : Reaches m m₁) (h' : Reaches m₁ m') : Reaches m m' where
  generation := h'.generation.trans h.generation
  streams := Nat.le_trans h.streams h'.streams
  still hm := (h'.still (h.generation ▸ hm)).trans (h.still hm)

instance : OfDevice (Reaches (κ := κ)) where
  refl _ := of_progress rfl
  trans := trans
  of_device h := of_progress (congrArg Device.progress h)

instance : Slotwise (Reaches (κ := κ)) where
  refl := Journey.refl
  trans := trans
  of_slots {m m'} _ _ _ hf := by
    have hlength : (m'.device.streams.map (·.userIo)).length = (m.device.streams.map (·.userIo)).length :=
      congrArg (fun f => f.2.2.2.length) hf
    rw [List.length_map, List.length_map] at hlength
    exact of_length (congrArg (·.1.2.1) hf) hlength

/-- What fits in the end fitted before. -/
theorem fits (h : Reaches m m') (hm : m'.Fits) : m.Fits := by
  unfold Machine.Fits at hm ⊢
  rw [h.generation] at hm
  exact Nat.le_trans h.streams hm

end Reaches

section Reaches

theorem reaches_modifyDevice {f : Device → Device} (hg : ∀ d, (f d).generation = d.generation)
    (hs : ∀ d, (f d).streams = d.streams) : Keeps (Reaches (κ := κ)) (modifyDevice f) :=
  keeps_modify fun m => .of_length (hg m.device) (congrArg List.length (hs m.device))

variable [Kernel κ]

theorem reaches_freeHandle (handle : Int) : Keeps (Reaches (κ := κ)) (Device.freeHandle handle) :=
  (faultless_freeHandle handle).keeps fun he => .of_progress (by rw [freeHandle_device he]; rfl)

omit [Kernel κ] in
theorem reaches_allocHandle (va : UInt64) (fd : Int) : Keeps (Reaches (κ := κ)) (Device.allocHandle va fd) :=
  keeps_allocHandle_of (fun _ => reaches_modifyDevice (fun _ => rfl) fun _ => rfl) va fd

theorem reaches_free (x : Nat) : Keeps (Reaches (κ := κ)) (Allocator.free x) := keeps_free reaches_freeHandle x

theorem reaches_handleEvents : Keeps (Reaches (κ := κ)) Device.handleEvents :=
  keeps_handleEvents (keeps_retireAtom_of reaches_modifyDevice) (keeps_runCallback reaches_free)

theorem polling_reaches : Polling (κ := κ) (Keeps Reaches) where
  pure := keeps_pure
  bind := keeps_bind
  device := keeps_device
  now := keeps_now
  call c _ _ := keeps_call c
  error := keeps_error
  modify f hf := keeps_modify fun m => by
    obtain ⟨_, _, _, _, hd⟩ := hf m.device
    exact .of_progress (by rw [hd]; rfl)
  handleEvents := reaches_handleEvents

theorem streamRequest_csf {m m' : Machine κ} {asking name : String} {r : Ioctl} {reply : r.Reply}
    (he : (Interface.streamRequest asking name r).exec m = (.ok reply, m')) : m.device.generation = .csf := by
  unfold Interface.streamRequest at he
  rw [exec_bind_of_ok (exec_device m)] at he
  cases hg : m.device.generation with
  | csf => rfl
  | old => rw [hg] at he; cases he
  | jm => rw [hg] at he; cases he

/-- Only a command stream device binds a stream. -/
theorem prepareRing_csf {ctx : Nat} {va : UInt64} {size : UInt32} {s : Stream} {m m' : Machine κ}
    (he : (Device.prepareRing ctx va size).exec m = (.ok s, m')) : m.device.generation = .csf := by
  obtain ⟨_, m₁, h₁, he⟩ := bind_ok he
  obtain ⟨c, m₂, h₂, he⟩ := bind_ok he
  obtain ⟨_, m₃, h₃, he⟩ := bind_ok he
  obtain ⟨_, m₄, h₄, -⟩ := bind_ok he
  obtain ⟨_, m₅, h₅, -⟩ := bind_ok h₄
  have hread : Quiet m m₂ := Journey.trans ((keeps_debug _ _).ok h₁) ((keeps_context ctx).ok h₂)
  have hquiet : Quiet m m₃ := Journey.trans hread ((quiet_modifyContext ctx _).ok h₃)
  exact (Reaches.of_progress hquiet.progress).generation.symm.trans (streamRequest_csf h₅)

theorem reaches_bindStream (ctx : Nat) (va : UInt64) (size : UInt32) :
    Keeps (Reaches (κ := κ)) (Device.bindStream ctx va size) := by
  refine fun m => keepsAt_of_exec fun {r m'} he hr => ?_
  obtain ⟨-, ⟨⟨n, rfl⟩, hp⟩ | ⟨-, hp⟩⟩ := bindStream_ok he hr
  · rw [Device.bindStream_eq] at he
    obtain ⟨s, m₁, h₁, -⟩ := bind_ok he
    have hlength : m'.progress.streams.length = m.progress.streams.length + 1 := by
      rw [hp]
      exact List.length_append
    simp only [Machine.progress, Device.progress, List.length_map] at hlength
    exact ⟨congrArg Progress.generation hp, by omega, fun hcsf => absurd (prepareRing_csf h₁) hcsf⟩
  · exact .of_progress hp

omit [Kernel κ] in
theorem reaches_editDevice {f : Device → Device} (hf : ∀ d, (f d).progress = d.progress) :
    Keeps (Reaches (κ := κ)) (modifyDevice f) := keeps_modify fun m => .of_progress (hf m.device)

theorem streaming_reaches : Streaming .full fun _ => Reaches (κ := κ) where
  next := Reaches.trans
  editDevice _ hp _ _ _ := reaches_editDevice hp
  countMiss := keeps_modifyAllocator _
  evictOld := keeps_evictOld (keeps_evict reaches_free)
  evictBuckets := keeps_evictBuckets (keeps_evict reaches_free)
  handleEvents := reaches_handleEvents
  isIdle x := keeps_isIdle polling_reaches (keeps_modifyBuffer x _)
  reuse x label m _ _ he hr := (keeps_reuse x label m).survives he hr
  allocate size flags label _ m _ _ he hr := by
    have hall : Keeps (Reaches (κ := κ)) (Allocator.allocate size flags label) :=
      keeps_bind keeps_allocator fun _ => keeps_bind (keeps_alloc _ _ _) fun region =>
        keeps_bind (keeps_wrapRegion (fun va => reaches_allocHandle va noFd) region _ _ _) fun _ =>
        keeps_bind (keeps_modifyAllocator _) fun _ => keeps_pure _
    exact (hall m).survives he hr
  createContext _ := quiet_createContext.mono fun _ _ h => .of_progress h.progress
  destroyContext id := (quiet_destroyContext id).mono fun _ _ h => .of_progress h.progress
  recreateContext id := (quiet_recreateContext id).mono fun _ _ h => .of_progress h.progress
  bindStream _ := reaches_bindStream
  rebindStream id := (quiet_rebindStream id).mono fun _ _ h => .of_progress h.progress
  unmapStream id := (quiet_unmapStream id).mono fun _ _ h => .of_progress h.progress
  clearSlot _ _ := keeps_bind (keeps_clearSlot _) (fun cs => keeps_runCallbacks reaches_free cs) _
  submitSlot _ _ _ := keeps_submitSlot _ _ _
  createSyncobj := quiet_createSyncobj.mono fun _ _ h => .of_progress h.progress
  pruneSyncobj _ := reaches_editDevice fun _ => rfl
  fenceSyncobj _ _ _ _ := reaches_editDevice fun _ => rfl
  destroySyncobj _ _ := reaches_editDevice fun _ => rfl
  advance i n := keeps_advance reaches_free i n
  updateCallbacks i n := keeps_bind (keeps_takeCallbacks i n) fun cs => keeps_runCallbacks reaches_free cs
  collect {m id batch _} _ _ _ _ hs := .of_progress (congrArg Device.progress (sameDevice_collect id batch m hs))

theorem lending_reaches : Lending fun _ => Reaches (κ := κ) where
  toProceeding := streaming_reaches.toProceeding
  reference x := keeps_reference x
  unreference x := keeps_unreference reaches_free x
  handOut h he := h.trans ((keeps_handOut _).ok he)
  editBatch id _ _ := keeps_modifyBatch id _
  startBatch _ := keeps_bind keeps_requireAllocator fun _ => keeps_bind keeps_allocator fun _ =>
    keeps_bind keeps_get fun _ => keeps_bind (fun _ _ => OfDevice.of_device rfl) fun _ => keeps_pure _

theorem operating_reaches : Operating .full fun _ => Reaches (κ := κ) :=
  .of_modify streaming_reaches lending_reaches (fun _ _ _ _ => OfDevice.of_device rfl)
    (fun _ => keeps_bind keeps_get fun _ => keeps_bind (fun _ _ => OfDevice.of_device rfl) fun _ => keeps_pure _)
    fun fd => keeps_importBuffer_of reaches_allocHandle (fun _ _ => reaches_editDevice fun _ => rfl)
      reaches_freeHandle (fun b _ _ => keeps_addBuffer b) fd

end Reaches

/-! ## What leaves all holders alone -/

/-- An operation leaves all holders alone.  It keeps a machine poised where streams fit, and adds nothing to what is
still to come.  Afterwards one buffer is still to be handed out, or none. -/
structure Abides (held : Option Nat) (m m' : Machine κ) : Prop where
  reaches : Reaches m m'
  unstirred : Unstirred m m'
  eases : m'.Fits → Config.Eases ⟨m, [], none⟩ ⟨m', [], held⟩

section Abides

variable [Kernel κ]

namespace Abides

variable {m m₁ m' : Machine κ} {held : Option Nat}

omit [Kernel κ] in
theorem next (h : Abides none m m₁) (h' : Abides held m₁ m') : Abides held m m' where
  reaches := h.reaches.trans h'.reaches
  unstirred := h.unstirred.trans h'.unstirred
  eases hm' := (h.eases (h'.reaches.fits hm')).trans (h'.eases hm')

theorem of_quiet (hu : Unstirred m m') (hq : Quiet m m') : Abides none m m' where
  reaches := .of_progress hq.progress
  unstirred := hu
  eases _ := Config.Eases.of_quiet hq

instance : Inward (Abides (κ := κ) none) where
  refl m := .of_quiet (Journey.refl m) (Journey.refl m)
  trans := next
  of_eq hd ha hs hb := .of_quiet (Inward.of_eq hd ha hs hb) (Inward.of_eq hd ha hs hb)

end Abides

theorem abides_of_quiet {α : Type} {x : Op κ α} (hu : Keeps Unstirred x) (hq : Keeps Quiet x) :
    Keeps (Abides none) x := fun m hs => .of_quiet (hu m hs) (hq m hs)

omit [Kernel κ] in
/-- Counts that stay as they are do not come to their end. -/
theorem Unstirred.ne_minValue {m m' : Machine κ} {ready : List Callback} {held : Option Nat} (h : Unstirred m m')
    (hb : m.Books ready held) :
    ∀ (x : Nat) (a : Account), m'.storage.accounts[x]? = some a → a.refs ≠ Int32.minValue := by
  intro x a hx hmin
  obtain ⟨b', hb', rfl⟩ := Machine.exists_buffer hx
  have hrefs := h.refs x
  rw [Machine.refs_of_buffer hb', show b'.refs = Int32.minValue from hmin] at hrefs
  cases hbuffer : m.allocator.buffers[x]? with
  | none =>
    rw [Machine.refs, hbuffer] at hrefs
    exact absurd hrefs (by decide)
  | some b =>
    rw [Machine.refs_of_buffer hbuffer] at hrefs
    have hle := hb.refs_nonneg (Machine.accounts_of_buffer hbuffer)
    rw [show b.account.refs = Int32.minValue from hrefs.symm] at hle
    exact absurd hle (by decide)

/-- On a command stream device any step but a release eases a configuration, if streams fit afterwards and counts
stay as they are. -/
theorem Config.Eases.of_stream {c c' : Config κ} {act : Action} (h : Step c act c')
    (hcsf : c.progress.generation = .csf) (hmax : c'.progress.streams.length ≤ slotCount)
    (hne : ∀ x, act ≠ .release x) (hu : Unstirred c.machine c'.machine) : c.Eases c' := by
  intro hc
  obtain ⟨-, hs⟩ := hc.device.resolve_right fun hm => hm.generation hcsf
  have hwaiting (x : Nat) : c'.waiting x ≤ c.waiting x := h.waiting_le (hne x)
  refine ⟨?_, hwaiting⟩
  constructor
  case toBooked =>
    exact ⟨.inl ⟨h.generation.trans hcsf, h.sound hs hmax⟩, h.books hs hmax hc.waiting (hu.ne_minValue hc.books)
      hc.books⟩
  case streams => exact fun _ => hmax
  case waiting => exact fun x => Nat.lt_of_le_of_lt (hwaiting x) (hc.waiting x)
  case listed => exact hc.lists h hc.listed

omit [Kernel κ] in
/-- A slot without links moves on where nothing waits. -/
theorem Moves.calm {i : Nat} {s : EventSlot} {m m' : Machine κ} (h : Moves (m.progress.put i s) m m')
    (hlt : i < slotCount) (hs : s.links = []) (hm : m.Calm) : m'.Calm where
  generation := by
    rw [h.progress]
    exact hm.generation
  bound := by
    rw [h.progress]
    exact hm.bound
  links k := by
    rw [h.progress, Progress.put, SlotTable.entry_put _ hlt]
    split
    · exact hs
    · exact hm.links k

/-- The callbacks that a step takes off a slot run after it.  On a job manager device it takes none. -/
theorem abides_runCallbacks {x : Op κ (List Callback)} {m : Machine κ} (act : Action) (hx : Faultless x)
    (hreaches : KeepsAt Reaches x m) (hunstirred : KeepsAt Unstirred x m) (hne : ∀ y, act ≠ .release y)
    (hs : ∀ {m' taken}, x.exec m = (.ok taken, m') → Takes act taken m m')
    (hjob : ∀ {m' : Machine κ} {taken : List Callback}, m.Calm → m'.Fits → x.exec m = (.ok taken, m') →
      ∃ i s, i < slotCount ∧ s.links = [] ∧ taken = [] ∧ Moves (m.progress.put i s) m m') :
    KeepsAt (Abides none) (x >>= Device.runCallbacks) m := by
  refine keepsAt_of_exec fun {r m'} he hr => ?_
  obtain ⟨taken, m₁, es, h₁, he, hstep, hpass⟩ := bind_runCallbacks_survives hx hs he hr
  have hreach : Reaches m m₁ := hreaches.survives h₁ trivial
  have hrest : Reaches m₁ m' := (keeps_runCallbacks reaches_free taken).ok he
  have hstill : Unstirred m m₁ := hunstirred.survives h₁ trivial
  refine ⟨hreach.trans hrest, hstill.trans ((unstirred_runCallbacks taken).ok he), fun hfits => ?_⟩
  by_cases hcsf : m.device.generation = .csf
  · have hmax : m₁.progress.streams.length ≤ slotCount := by
      have hfits₁ := hrest.fits hfits
      rw [Machine.Fits, hreach.generation, hcsf] at hfits₁
      simpa [Machine.progress, Device.progress, Generation.room] using hfits₁
    exact (Config.Eases.of_stream hstep hcsf hmax hne hstill).trans
      (.of_pass hpass (hstep.generation.trans hcsf))
  · intro hc
    have hm := hc.device.resolve_left fun hd => hcsf hd.1
    obtain ⟨i, s, hlt, hlinks, hnone, hmoves⟩ := hjob hm (hrest.fits hfits) h₁
    rw [hnone] at he
    cases he
    have hm' := hmoves.calm hlt hlinks hm
    refine ⟨hc.of_atoms hm hm' hmoves.storage hmoves.owns, fun x => ?_⟩
    rw [Config.waiting, Machine.waiting, hm'.links.waiting]
    exact Nat.zero_le _

/-! ### Streams -/

omit [Kernel κ] in
/-- Where streams fit, only a command stream device has any. -/
theorem Machine.Fits.csf_of_pos {m : Machine κ} (h : m.Fits) (hpos : 0 < m.device.streams.length) :
    m.device.generation = .csf := by
  by_contra hcsf
  rw [Machine.Fits, Generation.room, if_neg hcsf] at h
  omega

omit [Kernel κ] in
theorem Machine.Fits.csf_of_stream {m m' : Machine κ} (h : m'.Fits) (hreach : Reaches m m') {id : Nat} {s : Stream}
    (hs : m.device.streams[id]? = some s) : m.device.generation = .csf :=
  (hreach.fits h).csf_of_pos (Nat.zero_lt_of_lt (List.getElem?_eq_some_iff.mp hs).1)

omit [Kernel κ] in
theorem Machine.Fits.streams_le {m : Machine κ} (h : m.Fits) (hcsf : m.device.generation = .csf) :
    m.progress.streams.length ≤ slotCount := by
  rw [Machine.Fits, Generation.room, if_pos hcsf] at h
  exact Nat.le_trans (Nat.le_of_eq (List.length_map ..)) h

theorem abides_editDevice {f : Device → Device} (hp : ∀ d, (f d).progress = d.progress)
    (hh : ∀ d, (f d).handles = d.handles) : Keeps (Abides (κ := κ) none) (modifyDevice f) :=
  abides_of_quiet (unstirred_modifyDevice f) (quiet_modifyDevice hp fun d k fd ho => by rwa [hh])

theorem proceeding_abides : Proceeding (Abides (κ := κ)) where
  next := .next
  editDevice hf hp _ _ _ := abides_editDevice hp fun d => congrArg (·.2.1) (hf d)
  countMiss := abides_of_quiet proceeding_unstirred.countMiss (quiet_modifyAllocator fun _ => rfl)
  evictOld m hs := ⟨streaming_reaches.evictOld m hs, proceeding_unstirred.evictOld m hs, fun _ =>
    proceeding_upholds.evictOld m hs⟩
  evictBuckets indices m hs := ⟨streaming_reaches.evictBuckets indices m hs,
    proceeding_unstirred.evictBuckets indices m hs, fun _ => proceeding_upholds.evictBuckets indices m hs⟩
  handleEvents m hs := ⟨streaming_reaches.handleEvents m hs, proceeding_unstirred.handleEvents m hs, fun _ =>
    proceeding_upholds.handleEvents m hs⟩
  isIdle x patient m hs := ⟨streaming_reaches.isIdle x patient m hs, proceeding_unstirred.isIdle x patient m hs,
    fun _ => proceeding_upholds.isIdle x patient m hs⟩
  reuse x label _ _ _ he hr := ⟨streaming_reaches.reuse x label he hr, proceeding_unstirred.reuse x label he hr,
    fun _ => proceeding_upholds.reuse x label he hr⟩
  allocate size _ label hflags _ _ _ he hr := ⟨streaming_reaches.allocate size label hflags he hr,
    proceeding_unstirred.allocate size label hflags he hr,
    fun _ => proceeding_upholds.allocate size label hflags he hr⟩

theorem abides_bindStream (ctx : Nat) (va : UInt64) (size : UInt32) :
    Keeps (Abides (κ := κ) none) (Device.bindStream ctx va size) := by
  refine fun m => keepsAt_of_exec fun {r m'} he hr => ?_
  refine ⟨(reaches_bindStream ctx va size m).survives he hr, (unstirred_bindStream ctx va size m).survives he hr,
    fun hfits => ?_⟩
  rw [Device.bindStream_eq] at he
  rcases bind_survives he hr with ⟨f, h₁, rfl⟩ | ⟨s, m₁, h₁, he⟩
  · exact .of_quiet ((quiet_prepareRing ctx va size m).survives h₁ trivial)
  · obtain ⟨n, rfl⟩ := (faultless_attachStream s).value he hr
    have hstep : Step ⟨m₁, [], none⟩ .attach ⟨m', [], none⟩ := .attach he
    have hlength : m'.progress.streams.length = m₁.progress.streams.length + 1 := (attachStream_ok he).1
    have hcsf : m'.device.generation = .csf := hfits.csf_of_pos <| by
      simp only [Machine.progress, Device.progress, List.length_map] at hlength
      omega
    have hattach : Unstirred m₁ m' := (unstirred_attachStream s).ok he
    exact (Config.Eases.of_quiet ((quiet_prepareRing ctx va size).ok h₁)).trans <|
      .of_stream hstep (hstep.generation.symm.trans hcsf) (hfits.streams_le hcsf) (by rintro _ ⟨⟩) hattach

theorem abides_collect {m : Machine κ} {id batch : Nat} {b : Batch} (hb : m.batches[batch]? = some b)
    (hnew : b.submitted = false) : KeepsAt (Abides none) (Submitter.collect id batch) m := by
  refine keepsAt_of_exec fun {r m'} he hr => ?_
  have hu := (unstirred_collect id batch m).survives he hr
  obtain ⟨_, rfl⟩ := (faultless_collect id batch).value he hr
  have hreach : Reaches m m' := (streaming_reaches.collect trivial trivial hb hnew).survives he hr
  refine ⟨hreach, hu, fun hfits => ?_⟩
  by_cases hcsf : m.device.generation = .csf
  · exact .of_stream (.collect hb hnew he) hcsf (hfits.streams_le (hreach.generation.trans hcsf)) nofun hu
  · intro hc
    obtain ⟨_, hg⟩ := gathers_of_collect hb he
    have hm := hc.device.resolve_left fun hd => hcsf hd.1
    have hm' : m'.Calm := hm.of_progress (congrArg Device.progress hg.device)
    have hwaiting : m'.waiting [] = m.waiting [] := funext fun x => by
      rw [Machine.waiting, Machine.waiting, hm'.links.waiting, hm.links.waiting]
    have howns : m'.Owns = m.Owns := by
      unfold Machine.Owns
      rw [hg.device]
    refine ⟨⟨⟨.inr hm', ?_⟩, fun hstreams => absurd hstreams hm'.generation, fun x => ?_, ?_⟩, fun x => ?_⟩
    · show m'.storage.Books (m'.waiting []) m'.Owns none
      rw [hwaiting, howns]
      exact Storage.Books.of_usage hg.accounts hc.books hg.storage
    · exact Nat.lt_of_le_of_lt (Nat.le_of_eq (congrFun hwaiting x)) (hc.waiting x)
    · exact (keeps_collect lists_useBuffer _ _).ok he hc.listed
    · exact Nat.le_of_eq (congrFun hwaiting x)

theorem streaming_abides : Streaming .full (Abides (κ := κ)) where
  toProceeding := proceeding_abides
  createContext _ := abides_of_quiet unstirred_createContext quiet_createContext
  destroyContext id := abides_of_quiet (streaming_unstirred.destroyContext id) (quiet_destroyContext id)
  recreateContext id := abides_of_quiet (unstirred_recreateContext id) (quiet_recreateContext id)
  bindStream _ := abides_bindStream
  rebindStream id := abides_of_quiet (streaming_unstirred.rebindStream id) (quiet_rebindStream id)
  unmapStream id := abides_of_quiet (unstirred_unmapStream id) (quiet_unmapStream id)
  clearSlot {m id s} hid hs :=
    abides_runCallbacks (.terminate s.slot) (faultless_clearSlot _) (keeps_clearSlot _ m) (keeps_clearSlot _ m)
      (by rintro _ ⟨⟩) (takes_clearSlot (Machine.mem_streams hs))
      fun hm hfits he => absurd (hfits.csf_of_stream ((keeps_clearSlot _).ok he) hs) hm.generation
  submitSlot {m id s} n _ hs := by
    refine keepsAt_of_exec fun {r m'} he hr => ?_
    have hreach : Reaches m m' := (keeps_submitSlot _ _ m).survives he hr
    have hu : Unstirred m m' := (keeps_submitSlot _ _ m).survives he hr
    obtain ⟨_, rfl⟩ := (faultless_submitSlot s.slot n).value he hr
    refine ⟨hreach, hu, fun hfits => ?_⟩
    have hcsf := hfits.csf_of_stream hreach hs
    exact .of_stream (.submit (Machine.mem_streams hs) he) hcsf (hfits.streams_le (hreach.generation.trans hcsf))
      (by rintro _ ⟨⟩) hu
  createSyncobj := abides_of_quiet streaming_unstirred.createSyncobj quiet_createSyncobj
  pruneSyncobj _ := abides_editDevice (fun _ => rfl) fun _ => rfl
  fenceSyncobj _ _ _ _ := abides_editDevice (fun _ => rfl) fun _ => rfl
  destroySyncobj _ _ := abides_editDevice (fun _ => rfl) fun _ => rfl
  advance i n := by
    refine fun m => abides_runCallbacks (.advance i n) (faultless_advanceSlot i n) (keeps_advanceSlot i n m)
      (keeps_advanceSlot i n m) (by rintro _ ⟨⟩) takes_advanceSlot fun hm _ he => ?_
    obtain ⟨hlt, htaken, hmoves⟩ := advanceSlot_ok he
    obtain ⟨hnone, hlinks⟩ := EventSlot.advance_of_links (hm.links (i : Int).toNat) n
    exact ⟨_, _, hlt, hlinks, htaken.trans hnone, hmoves⟩
  updateCallbacks i n := by
    refine fun m => abides_runCallbacks (.update i n) (faultless_takeCallbacks i n) (keeps_takeCallbacks i n m)
      (keeps_takeCallbacks i n m) (by rintro _ ⟨⟩) takes_takeCallbacks fun hm _ he => ?_
    obtain ⟨hlt, htaken, hmoves⟩ := takeCallbacks_ok he
    have hnone : (m.progress.slots.entry i).links = [] := hm.links i
    refine ⟨_, _, hlt, ?_, ?_, hmoves⟩
    · rw [Int.toNat_natCast, EventSlot.take, hnone]
      rfl
    · rw [htaken, Int.toNat_natCast, EventSlot.take, hnone]
      rfl
  collect _ _ hb hnew := abides_collect hb hnew

/-! ### Atoms -/

/-- A job manager device takes an atom, or refuses it. -/
theorem abides_submitJob {m : Machine κ} (hjob : m.device.generation ≠ .csf) (va : UInt64) (requirements : UInt32)
    (o : Option Nat) (handles : List Int) :
    KeepsAt (Abides none) (Device.submitJob va requirements o handles) m := by
  refine keepsAt_of_exec fun {r m'} he hr => ?_
  have hu : Unstirred m m' :=
    (keeps_submitJob_of (fun _ _ => unstirred_modifyDevice _) va requirements o handles m).survives he hr
  have hreach : Reaches m m' := (keeps_submitJob_of reaches_modifyDevice va requirements o handles m).survives he hr
  refine ⟨hreach, hu, fun hfits hc => ?_⟩
  have hstep : ShelfStep ⟨m, [], none⟩ .other ⟨m', [], none⟩ := .submit hjob he hr
  have hm' : m'.Calm := hstep.calm (hc.device.resolve_left fun hd => hjob hd.1)
  have hnothing (x : Nat) : (⟨m', [], none⟩ : Config κ).waiting x = 0 := by
    rw [Config.waiting, Machine.waiting, hm'.links.waiting]
    rfl
  refine ⟨hc.step hstep ?_ ⟨fun x => ?_, ?_⟩, fun x => ?_⟩
  · exact hfits.length_streams
  · rw [hnothing]
    decide
  · exact hu.ne_minValue hc.books
  · rw [hnothing]
    exact Nat.zero_le _

end Abides

end Mali
