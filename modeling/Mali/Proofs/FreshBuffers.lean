import Mali.Proofs.EventRecords
import Mali.Proofs.OutOfMemory

/-!
# Created buffers are fresh

A buffer that a creation hands out comes from the cache, where nobody holds it, or from the kernel, where nobody knows
it.  A cached buffer that is taken out has been seen idle, so nothing that a buffer from the kernel would not have is
recorded on it but its references and uses, which are reset.  What others hold, the search on the way bypasses.

* `Ladder.obtained`: what a search comes to was found in the cache or allocated, after rungs that were climbed in vain.
* `Secures`: nobody held the buffer, nothing is pending on it, and what others hold is left alone.
* `handOut_fresh`: what is handed out is reset, and zero if buffers are cleared.
* `Machine.Pristine`: what a creation promises of the buffer that it hands out.
* `Course.create_pristine`: it keeps that promise along every run.
-/

namespace Mali

open Op

variable {κ : Type} [Kernel κ] {size : Int64} {flags : UInt32} {label : String} {m m' : Machine κ} {x : Nat}

/-! ## Where a buffer comes from -/

/-- A buffer was found in the cache, or allocated. -/
def Obtained (size : Int64) (flags : UInt32) (label : String) (x : Nat) (m m' : Machine κ) : Prop :=
  (∃ patient, (Allocator.fetch size flags label patient).exec m = (.ok (some x), m')) ∨
    (Allocator.allocate size flags label).exec m = (.ok x, m')

/-- Late allocations before the one that succeeds are in vain.  By induction on them. -/
theorem LateRungs.obtained {left : Nat} {as : List (Attempt κ)} (h : LateRungs size flags label left m as (.ok x) m') :
    ∃ m₁, InVain m m₁ ∧ Obtained size flags label x m₁ m' := by
  generalize hr : (.ok x : Except Fault Nat) = r at h
  induction h with
  | found hroom ha =>
    cases hr
    exact ⟨_, inVain_makeRoom hroom, .inr (attempt_ok ha)⟩
  | last => cases hr
  | again hroom ha hpause _ ih =>
    obtain ⟨m₁, hvain, hfound⟩ := ih hr
    exact ⟨m₁, (((inVain_makeRoom hroom).trans (inVain_attempt ha)).trans (inVain_pause hpause)).trans hvain, hfound⟩

/-- What a search comes to was found in the cache or allocated, after rungs that were climbed in vain. -/
theorem Ladder.obtained {as : List (Attempt κ)} (h : Ladder size flags label m as (.ok x) m')
    (hm : (⟨m, [], none⟩ : Config κ).Poised) : ∃ m₁, InVain m m₁ ∧ Obtained size flags label x m₁ m' := by
  cases h with
  | cached hfetch => exact ⟨m, Journey.refl _, .inl ⟨false, hfetch⟩⟩
  | fresh hfetch ha =>
    exact ⟨_, (inVain_fetch hm hfetch).trans (inVain_missed _), .inr (attempt_ok ha)⟩
  | patient hfetch ha hpatient =>
    exact ⟨_, ((inVain_fetch hm hfetch).trans (inVain_missed _)).trans (inVain_attempt ha), .inl ⟨true, hpatient⟩⟩
  | late hfetch ha hpatient h =>
    have hfirst := ((inVain_fetch hm hfetch).trans (inVain_missed _)).trans (inVain_attempt ha)
    obtain ⟨m₁, hvain, hfound⟩ := h.obtained
    exact ⟨m₁, (hfirst.trans (inVain_fetch (hfirst.poised hm) hpatient)).trans hvain, hfound⟩

/-! ## What is handed out -/

omit [Kernel κ] in
/-- A buffer that is used again leaves the cache under a new label. -/
theorem reuse_buffers (he : (Allocator.reuse x label).exec m = (.ok (), m')) :
    m'.allocator.buffers = m.allocator.buffers.modify x fun b => { b with cachedIn := none, label } := by
  unfold Allocator.reuse at he
  obtain ⟨_, m₁, huncache, he⟩ := bind_ok he
  obtain ⟨_, m₂, hcheck, he⟩ := bind_ok he
  obtain rfl := (keeps_checkRule (R := Eq) _).ok hcheck
  obtain ⟨_, _, hget, he⟩ := bind_ok he
  cases hget
  obtain ⟨b, -, he⟩ := bind_buffer_ok he
  have hend {m₂ : Machine κ} (he : (do
      modifyBuffer x fun b => { b with label }
      modifyAllocator fun a => { a with hits := a.hits + 1 } : Op κ Unit).exec m₂ = (.ok (), m')) :
      m'.allocator.buffers = m₂.allocator.buffers.modify x fun b => { b with label } := by
    cases he
    rfl
  have hlabel : m'.allocator.buffers = m₁.allocator.buffers.modify x fun b => { b with label } := by
    dsimp only at he
    split at he
    · obtain ⟨_, m₂, herror, he⟩ := bind_ok he
      rw [hend he, (keeps_error (R := SameInside) _ _).ok herror |>.allocator]
    · exact hend he
  unfold Allocator.uncache at huncache
  obtain ⟨b, hx, huncache⟩ := bind_buffer_ok huncache
  obtain ⟨index, -, huncache⟩ := bind_require_ok huncache
  cases huncache
  rw [hlabel]
  exact List.modify_modify_eq ..

/-- A buffer that nobody held came to be up for being handed out, and what others hold was bypassed. -/
structure Secures (flags : UInt32) (label : String) (x : Nat) (m m' : Machine κ) : Prop where
  options : m'.allocator.options = m.allocator.options
  upholds : Upholds (some x) m m'
  minds : Minds m m'
  reset : ∃ b, m'.allocator.buffers[x]? = some b ∧ b.flags = flags ∧ b.label = label ∧ b.access = 0
  free : ∀ b, m.allocator.buffers[x]? = some b → b.refs = 0
  others : ∀ (y : Nat) (b : Buffer), m.allocator.buffers[y]? = some b → b.refs ≠ 0 → b.cachedIn = none →
    ∃ n, m'.allocator.buffers[y]? = some { b with gpuRefs := n }

namespace Secures

omit [Kernel κ] in
theorem after {m₁ : Machine κ} (h : Secures flags label x m₁ m') (hvain : InVain m m₁) :
    Secures flags label x m m' where
  options := h.options.trans hvain.bypasses.options
  upholds := hvain.upholds.next h.upholds
  minds := hvain.minds.trans h.minds
  reset := h.reset
  free b hx := by
    obtain ⟨b₁, hx₁, houtline⟩ := hvain.bypasses.outline hx
    exact (congrArg (·.2.2.2.2) houtline).symm.trans (h.free b₁ hx₁)
  others y b hy hrefs hcached := by
    obtain ⟨n, hn⟩ := hvain.bypasses.inUse y b hy nofun hrefs hcached
    obtain ⟨n', hn'⟩ := h.others y _ hn hrefs hcached
    exact ⟨n', hn'⟩

end Secures

/-- A look at a cached buffer that finds it idle finds nothing pending on it. -/
theorem isIdle_access {i : Nat} {b : Buffer} {patient : Bool} (hm : (⟨m, [], none⟩ : Config κ).Poised)
    (hmarked : m.Marked) (hx : m.allocator.buffers[x]? = some b) (hcached : b.cachedIn = some i)
    (he : (Allocator.isIdle x patient).exec m = (.ok true, m')) : m'.access x = 0 := by
  have hclass : b.cachedIn ≠ none := by
    rw [hcached]
    exact nofun
  rcases isIdle_ok he with ⟨hcsf, rfl⟩ | ⟨-, -, hidle⟩
  · rw [Machine.access_of_buffer hx]
    exact hmarked.rested hcsf b (List.mem_of_getElem? hx) hclass
  · exact hidle rfl b hx (hm.books.unshared x _ (Machine.accounts_of_buffer hx) hclass)

/-- A cached buffer is secured by a look that finds it idle. -/
theorem fetch_secures {patient : Bool} (hm : (⟨m, [], none⟩ : Config κ).Poised) (hmarked : m.Marked)
    (he : (Allocator.fetch size flags label patient).exec m = (.ok (some x), m')) : Secures flags label x m m' := by
  unfold Allocator.fetch at he
  rw [exec_bind_of_ok (exec_allocator m)] at he
  rcases fetchFrom_ok he with ⟨hnone, -⟩ | ⟨entry, hentry, y, b, hentered, hx, -, hflags, hend⟩
  · cases hnone
  rcases hend with ⟨hnone, -⟩ | ⟨hfound, m₁, hidle, hreuse⟩
  · cases hnone
  obtain rfl : x = y := Option.some.inj hfound
  obtain ⟨b', hx', hcached, hrefs⟩ := hm.fetched hentry hentered
  rw [hx] at hx'
  cases hx'
  have hlooked : InVain m m₁ := inVain_isIdle hx (by rw [hcached]; exact nofun) hidle
  obtain ⟨b₁, hx₁, houtline⟩ := hlooked.bypasses.outline hx
  refine Secures.after ?_ hlooked
  constructor
  case options => exact ((bypasses_reuse x label).ok hreuse).options
  case upholds => exact proceeding_upholds.reuse x label hreuse trivial
  case minds => exact (minds_reuse x label).ok hreuse
  case reset =>
    refine ⟨{ b₁ with cachedIn := none, label }, ?_, (congrArg (·.2.2.1) houtline).trans hflags, rfl, ?_⟩
    · rw [reuse_buffers hreuse, getElem?_modify_of_some hx₁, if_pos rfl]
    · exact (Machine.access_of_buffer hx₁).symm.trans (isIdle_access hm hmarked hx hcached hidle)
  case free =>
    intro c hc
    rw [hx₁] at hc
    cases hc
    exact (congrArg (·.2.2.2.2) houtline).trans hrefs
  case others => exact fun y c hy => ((bypasses_reuse x label).ok hreuse).inUse y c hy nofun

/-- A buffer that is allocated was not there. -/
theorem allocate_secures (he : (Allocator.allocate size flags label).exec m = (.ok x, m')) :
    Secures flags label x m m' := by
  have hupholds : Upholds (some x) m m' := upholds_allocate size flags label he trivial
  obtain ⟨wish, memFlags, region, m₁, m₂, halloc, hwrap, rfl⟩ := allocate_ok he
  have hsame : SameInside m m₁ := (keeps_alloc _ _ _).ok halloc
  obtain ⟨rfl, b, hbuffers, -, hflags, hlabel, haccess, -, -⟩ := wrapRegion_buffer hwrap
  have hoptions : m₂.allocator.options = m.allocator.options := by
    obtain ⟨_, -, -, -, hopens⟩ := wrapRegion_ok hwrap
    rw [← hsame.allocator]
    exact congrArg Storage.options hopens.storage
  constructor
  case options => exact hoptions
  case upholds => exact hupholds
  case minds =>
    have hminds : Minds m m₂ := Minds.trans hsame.inward ((minds_wrapRegion _ _ _ _).ok hwrap)
    exact hminds.trans (.of_handles rfl rfl fun _ hk => hk)
  case reset =>
    refine ⟨b, ?_, hflags, hlabel, haccess⟩
    show m₂.allocator.buffers[_]? = _
    rw [hbuffers, List.getElem?_concat_length]
  case free =>
    intro c hc
    rw [hsame.allocator, List.getElem?_eq_none (Nat.le_refl _)] at hc
    cases hc
  case others =>
    intro y c hy _ _
    refine ⟨c.gpuRefs, ?_⟩
    show m₂.allocator.buffers[y]? = some c
    rw [hbuffers, hsame.allocator, List.getElem?_append_left (List.getElem?_eq_some_iff.mp hy).1, hy]

theorem Obtained.secures (h : Obtained size flags label x m m') (hm : (⟨m, [], none⟩ : Config κ).Poised)
    (hmarked : m.Marked) : Secures flags label x m m' := by
  rcases h with ⟨patient, hfetch⟩ | halloc
  · exact fetch_secures hm hmarked hfetch
  · exact allocate_secures halloc

/-- So does a whole search that finds a buffer. -/
theorem Ladder.secures {as : List (Attempt κ)} (h : Ladder size flags label m as (.ok x) m')
    (hm : (⟨m, [], none⟩ : Config κ).Poised) (hmarked : m.Marked) : Secures flags label x m m' := by
  obtain ⟨m₁, hvain, hobtained⟩ := h.obtained hm
  exact (hobtained.secures (hvain.poised hm) (hvain.minds.marked hmarked)).after hvain

/-! ## Handing out -/

/-- A range that was made zero is zero, and the rest stays. -/
theorem Memory.byte_clear (μ : Memory) (addr length a : Nat) :
    (μ.clear addr length).byte a = if addr ≤ a ∧ a < addr + length then 0 else μ.byte a := by
  unfold clear byte
  rw [Std.HashMap.getD_filter', Std.HashMap.getD_eq_getD_getElem?]
  cases μ.bytes[a]? with
  | none => simp
  | some v =>
    by_cases ha : addr ≤ a ∧ a < addr + length
    · simp [ha.1, ha.2]
    · rw [if_neg ha]
      have hkeep : (!(decide (addr ≤ a) && decide (a < addr + length))) = true := by
        rw [not_and_or] at ha
        simpa using ha
      simp [Option.filter, hkeep]

/-- Whether a call cleans or invalidates a range. -/
def Syscall.syncs : Syscall → Bool
  | .ioctl _ (.memSync _) | .ioctl _ (.old _ (.memSync _)) => true
  | _ => false

/-- Kernels that write no memory while they clean or invalidate a range. -/
def SyncsOnly (κ : Type) [Kernel κ] : Prop :=
  ∀ (k : κ) (c : Syscall), c.syncs = true → (Kernel.call k c).1.stores = []

/-- The buffers and the memory are the same. -/
structure SameContents (m m' : Machine κ) : Prop where
  buffers : m'.allocator.buffers = m.allocator.buffers
  memory : m'.memory = m.memory

omit [Kernel κ] in
instance : Journey (SameContents (κ := κ)) where
  refl _ := ⟨rfl, rfl⟩
  trans h h' := ⟨h'.buffers.trans h.buffers, h'.memory.trans h.memory⟩

omit [Kernel κ] in
theorem contents_error (message : String) (fields : List (String × String)) :
    Keeps (SameContents (κ := κ)) (error message fields) := fun _ _ => ⟨rfl, rfl⟩

theorem contents_syncRange (hsync : SyncsOnly κ) (va addr size : UInt64) (invalidate : Bool) :
    Keeps (SameContents (κ := κ)) (Interface.syncRange va addr size invalidate) := by
  have hrequest (name : String) {r : Ioctl} (hr : ∀ fd, (Syscall.ioctl fd r).syncs = true) :
      Keeps (SameContents (κ := κ)) (Interface.request name r) := by
    have hcall (fd : Int) : Keeps (SameContents (κ := κ)) (call (.ioctl fd r)) := by
      intro m _
      refine ⟨rfl, ?_⟩
      show (Kernel.call m.kernel (.ioctl fd r)).1.stores.foldl Memory.apply m.memory = m.memory
      rw [hsync m.kernel _ (hr fd), List.foldl_nil]
    exact keeps_bind keeps_device fun d => keeps_bind_except (hcall _) (fun _ => keeps_pure _) fun e =>
      keeps_bind (contents_error _ _) fun _ => keeps_fail _
  unfold Interface.syncRange
  refine keeps_bind keeps_device fun d => ?_
  split
  · refine keeps_bind (hrequest _ fun _ => rfl) fun reply => ?_
    split
    · exact keeps_pure _
    · exact keeps_bind (contents_error _ _) fun _ => keeps_fail _
  · exact hrequest _ fun _ => rfl
  · exact hrequest _ fun _ => rfl

theorem contents_clean (hsync : SyncsOnly κ) (offset length : Int64) :
    Keeps (SameContents (κ := κ)) (Buffer.clean x offset length) := by
  unfold Buffer.clean Buffer.maintain
  refine keeps_bind (keeps_buffer x) fun b => ?_
  split
  · exact keeps_fail _
  · split
    · refine keeps_bind (keeps_require _) fun range => ?_
      unfold Device.syncMapping
      split
      · exact keeps_pure ()
      · exact contents_syncRange hsync _ _ _ _
    · exact keeps_pure ()

theorem contents_cleanCleared (hsync : SyncsOnly κ) (x : Nat) (b : Buffer) : Keeps (SameContents (κ := κ)) (do
    match ← attempt (Buffer.clean x 0 b.size) with
    | .ok _ => pure ()
    | .error f =>
      error "failed to clean cleared buffer object"
        [("handle", toString b.handle), ("error", f.message)]) :=
  keeps_bind_except (keeps_attempt (contents_clean hsync 0 b.size)) (fun _ => keeps_pure _) fun _ =>
    contents_error _ _

/-- A buffer that is cleared is zero all over its mapping. -/
theorem clearBuffer_zero {b : Buffer} {p : Mapping} (hsync : SyncsOnly κ) (hx : m.allocator.buffers[x]? = some b)
    (hcpu : b.cpu = some p) (he : (Allocator.clearBuffer x).exec m = (.ok (), m')) :
    ∀ a, p.Covers a → m'.memory.byte a = 0 := by
  unfold Allocator.clearBuffer at he
  obtain ⟨c, hc, he⟩ := bind_buffer_ok he
  rw [hx] at hc
  cases hc
  rw [hcpu] at he
  obtain ⟨_, m₁, hclear, he⟩ := bind_ok he
  cases hclear
  intro a ha
  have hin : p.addr.toNat ≤ a ∧ a < p.addr.toNat + p.length := ha
  rw [((contents_cleanCleared hsync x b).ok he).memory, Memory.byte_clear, if_pos hin]

/-- A buffer is handed out with one reference and without uses, and zero if buffers are cleared and it is visible. -/
theorem handOut_fresh {b : Buffer} (hx : m.allocator.buffers[x]? = some b)
    (he : (Allocator.handOut x).exec m = (.ok (), m')) :
    m'.allocator.buffers = m.allocator.buffers.modify x (fun b => { b with refs := 1, usage := [] }) ∧
      (SyncsOnly κ → m.allocator.options.clearOnCreate = true → b.has BufferFlag.invisible = false →
        ∀ p, b.cpu = some p → ∀ a, p.Covers a → m'.memory.byte a = 0) := by
  have hend {m₁ : Machine κ} (he : (do
      modifyBuffer x fun b => { b with refs := 1, usage := [] }
      Allocator.write "alloc" (← buffer x) noFd : Op κ Unit).exec m₁ = (.ok (), m')) :
      m'.allocator.buffers = m₁.allocator.buffers.modify x (fun b => { b with refs := 1, usage := [] }) ∧
        m'.memory = m₁.memory := by
    have hwrite (name : String) (b : Buffer) (fd : Int) :
        Keeps (SameContents (κ := κ)) (Allocator.write name b fd) := by
      unfold Allocator.write
      refine keeps_bind keeps_allocator fun a => ?_
      split
      · exact keeps_pure ()
      · exact fun _ _ => ⟨rfl, rfl⟩
      · exact contents_error _ _
    obtain ⟨_, m₂, hedit, he⟩ := bind_ok he
    obtain ⟨c, -, he⟩ := bind_buffer_ok he
    have hsame := (hwrite _ _ _).ok he
    cases hedit
    exact ⟨hsame.buffers, hsame.memory⟩
  unfold Allocator.handOut at he
  obtain ⟨c, hc, he⟩ := bind_buffer_ok he
  rw [hx] at hc
  cases hc
  rw [exec_bind_of_ok (exec_allocator m)] at he
  dsimp only at he
  split at he
  · obtain ⟨_, m₁, hclear, he⟩ := bind_ok he
    obtain ⟨hbuffers, hmemory⟩ := hend he
    have hallocator : SameAllocator m m₁ := (keeps_clearBuffer x).ok hclear
    refine ⟨by rw [hbuffers, hallocator], fun hsync _ _ p hp a ha => ?_⟩
    rw [hmemory]
    exact clearBuffer_zero hsync hx hp hclear a ha
  · rename_i hkeep
    obtain ⟨hbuffers, -⟩ := hend he
    refine ⟨hbuffers, fun _ hclear hvisible => absurd ⟨hclear, ?_⟩ hkeep⟩
    rw [hvisible]
    rfl

/-! ## Creation -/

/-- A buffer as a creation hands it out: it has one reference and nothing pending, it is in no list of the cache, and
its handle stands for it and is idle. -/
structure Machine.Pristine (m : Machine κ) (flags : UInt32) (label : String) (x : Nat) (b : Buffer) : Prop where
  here : m.allocator.buffers[x]? = some b
  flags : b.flags = flags
  label : b.label = label
  refs : b.refs = 1
  gpuRefs : b.gpuRefs = 0
  usage : b.usage = []
  access : b.access = 0
  freed : b.freed = false
  cachedIn : b.cachedIn = none
  buckets : ∀ i, x ∉ m.allocator.cache.bucket i
  recency : x ∉ m.allocator.cache.recency
  arena : m.allocator.lookup? b.handle = some x
  idle : (m.device.handles.get b.handle).useCount = 0

/-- What was secured is handed out. -/
theorem Secures.pristine {m₀ : Machine κ} (h : Secures flags label x m₀ m) (hm₀ : (⟨m₀, [], none⟩ : Config κ).Poised)
    (hmarked : m₀.Marked) (he : (Allocator.handOut x).exec m = (.ok (), m')) : ∃ b, m'.Pristine flags label x b := by
  obtain ⟨b, hx, hflags, hlabel, haccess⟩ := h.reset
  have hm := h.upholds.poised hm₀
  have hbuffers := (handOut_fresh hx he).1
  have hstakes : SameStakes m m' := (stakes_handOut x).ok he
  obtain ⟨_, -, hedit⟩ := handOut_ok he
  have haccount := Machine.accounts_of_buffer hx
  obtain ⟨a, ha, hfreed, hcached⟩ := hm.books.held x rfl
  have ha : m.storage.accounts[x]? = some a := ha
  rw [haccount] at ha
  cases ha
  have hwaiting := (hm.books.settled x _ haccount (.inr (.inr rfl))).2
  have hcache : m'.allocator.cache = m.allocator.cache := congrArg Storage.cache hedit.storage
  refine ⟨{ b with refs := 1, usage := [] }, ?_⟩
  constructor
  case here => rw [hbuffers, getElem?_modify_of_some hx, if_pos rfl]
  case flags => exact hflags
  case label => exact hlabel
  case refs => rfl
  case gpuRefs => exact (hm.books.counted x _ haccount).trans (congrArg Int32.ofNat hwaiting)
  case usage => rfl
  case access => exact haccess
  case freed => exact hfreed
  case cachedIn => exact hcached
  case buckets =>
    intro i hmem
    rw [hcache] at hmem
    obtain ⟨a, ha, hi⟩ := (hm.books.buckets i x).mp hmem
    have ha : m.storage.accounts[x]? = some a := ha
    rw [haccount] at ha
    cases ha
    exact Option.some_ne_none i (hi.symm.trans hcached)
  case recency =>
    have hcount : m.allocator.cache.recency.count x = _ := hm.listed x
    rw [if_pos ((Storage.place?_of_account haccount).trans hcached)] at hcount
    rw [hcache]
    exact List.count_eq_zero.mp hcount
  case arena =>
    have harena : m'.allocator.arena = m.allocator.arena := congrArg Storage.arena hedit.storage
    rw [Allocator.lookup?, harena]
    exact (hm.books.arena b.handle x).mpr ⟨b.account, haccount, rfl, hfreed⟩
  case idle =>
    refine HandleTable.useCount_eq_zero fun huse => ?_
    rw [hstakes.handles] at huse
    obtain ⟨-, y, c, hy, hlive, hhandle, hpending⟩ := (h.minds.marked hmarked).atoms _ huse
    obtain rfl : y = x := hm.books.placed.handle_inj (Machine.accounts_of_buffer hy) haccount hlive hfreed hhandle
    rw [hx] at hy
    cases hy
    exact hpending haccess

/-- What a creation hands out, along every run of callers who hold what they use, with at most 256 streams and no count
that overflows: a pristine buffer that nobody held before, zero all over its mapping if it is visible and buffers are
cleared.  Buffers that somebody holds are as they were, but may wait for less. -/
theorem Course.create_pristine {m₀ : Machine κ} {es : List (Config κ × Action)} (hvacant : Vacant m₀)
    (hidle : ∀ k, ¬m₀.device.handles.InUse k) (h : Course CarefulStep ⟨m₀, [], none⟩ es ⟨m, [], none⟩)
    (hmax : ∀ d ∈ es.map (·.1) ++ [⟨m, [], none⟩], d.progress.streams.length ≤ slotCount)
    (hbounded : ∀ d ∈ es.map (·.1) ++ [⟨m, [], none⟩], d.Bounded) (hsync : SyncsOnly κ)
    (he : (Allocator.create size flags label).exec m = (.ok x, m')) :
    ∃ b', m'.Pristine flags label x b' ∧ (∀ b, m.allocator.buffers[x]? = some b → b.refs = 0) ∧
      (m.allocator.options.clearOnCreate = true → hasFlag flags BufferFlag.invisible = false →
        ∀ p, b'.cpu = some p → ∀ a, p.Covers a → m'.memory.byte a = 0) ∧
      ∀ (y : Nat) (b : Buffer), m.allocator.buffers[y]? = some b → b.refs ≠ 0 →
        ∃ n ≤ b.gpuRefs, m'.allocator.buffers[y]? = some { b with gpuRefs := n } := by
  have hm : (⟨m, [], none⟩ : Config κ).Poised := (h.mono CarefulStep.shelf).poised hmax hbounded hvacant.poised
  have hmarked : m.Marked := h.marked hvacant.csf_or_calm (hvacant.marked hidle)
  obtain ⟨-, as, m₁, hladder, hout⟩ := create_ok he
  have hdebug : InVain m { m with log := ⟨.debug, "Allocator::Create", []⟩ :: m.log } := Inward.of_eq rfl rfl rfl rfl
  have hsecured := (hladder.secures (hdebug.poised hm) (hdebug.minds.marked hmarked)).after hdebug
  obtain ⟨b', hpristine⟩ := hsecured.pristine hm hmarked hout
  obtain ⟨b₁, hx₁, -⟩ := hsecured.reset
  obtain ⟨hbuffers, hzero⟩ := handOut_fresh hx₁ hout
  have hb' : b' = { b₁ with refs := 1, usage := [] } := by
    have hhere := hpristine.here
    rw [hbuffers, getElem?_modify_of_some hx₁, if_pos rfl] at hhere
    exact (Option.some.inj hhere).symm
  refine ⟨b', hpristine, hsecured.free, fun hclear hvisible => ?_, fun y b hy hrefs => ?_⟩
  · subst hb'
    have hflags : b₁.flags = flags := hpristine.flags
    exact hzero hsync (hsecured.options ▸ hclear) (by rwa [Buffer.has, hflags])
  · have haccount := Machine.accounts_of_buffer hy
    have hcached : b.cachedIn = none := by
      by_contra hne
      exact hrefs (hm.books.settled y _ haccount (.inr (.inl hne))).1
    obtain ⟨n, hn⟩ := hsecured.others y b hy hrefs hcached
    have hyx : x ≠ y := by
      rintro rfl
      exact hrefs (hsecured.free b hy)
    obtain ⟨hm₁, hwaiting⟩ := hsecured.upholds hm
    have hbefore : b.gpuRefs = Int32.ofNat _ := hm.books.counted y _ haccount
    have hafter : n = Int32.ofNat _ := hm₁.books.counted y _ (Machine.accounts_of_buffer hn)
    have hlt := (hbounded _ (List.mem_append_right _ (List.mem_singleton_self _))).waiting y
    refine ⟨n, ?_, by rw [hbuffers, getElem?_modify_of_some hx₁, if_neg hyx, hn]⟩
    rw [hbefore, hafter, Int32.ofNat_le_iff_le]
    · exact hwaiting y
    · exact Nat.lt_of_le_of_lt (hwaiting y) hlt
    · exact hlt

/-- The benches store nothing meanwhile. -/
theorem Bench.syncsOnly : SyncsOnly Bench := by
  have hioctl {r : Ioctl} (hidle : ∀ b s, (idleRequest b s r).1.stores = [])
      (hscript : ∀ b s, (scriptIoctl b s r).1.stores = []) (b : Bench) (fd : Int) :
      (b.perform (.ioctl fd r)).1.stores = [] := by
    unfold perform
    dsimp only
    split
    · unfold idleIoctl
      dsimp only
      split
      · rfl
      · exact hidle _ _
    · exact hscript _ _
  intro k c hc
  have hperform (b : Bench) : (b.perform c).1.stores = [] := by
    unfold Syscall.syncs at hc
    split at hc
    · exact hioctl (fun _ _ => rfl) (fun _ _ => rfl) b _
    · refine hioctl (fun _ _ => rfl) (fun _ _ => ?_) b _
      unfold scriptIoctl
      dsimp only
      split <;> rfl
    · cases hc
  show (call k c).1.stores = []
  unfold call
  split
  · exact hperform k
  · split
    · rfl
    · exact hperform _

namespace Reused

-- a table of 256 slots is evaluated
set_option maxRecDepth 20000

/-- A job manager device, with an allocator that clears what it hands out. -/
def start : Machine Bench where
  kernel := { model := .scripted { generation := .jm } }
  device := { generation := .jm }
  allocator :=
    { started := true, options := { minBucket := 12, maxBucket := 13, clearOnCreate := true }, cache := .empty 2 }

theorem vacant_start : Vacant start := by
  constructor
  case range => decide
  all_goals rfl

/-- A mapped page became a buffer. -/
def wrapped : Machine Bench :=
  ((Allocator.wrapRegion ⟨⟨0x1000, 4096⟩, 0x1000⟩ 4096 0 "page").exec start).2

/-- It was handed out. -/
def live : Machine Bench := ((Allocator.handOut 0).exec wrapped).2

/-- An access is pending on it. -/
def marked : Machine Bench := ((modifyBuffer 0 (·.markAccess Access.readWrite)).exec live).2

/-- An atom uses it. -/
def busy : Machine Bench := ((Device.submitJob 0x2000 0 none [0]).exec marked).2

/-- Its only reference went, and it entered the cache. -/
def cached : Machine Bench := ((Buffer.unreference 0).exec busy).2

/-- The atom is done. -/
def landed : Machine Bench := ((Device.handleJobEvent { code := JobEvent.done }).exec cached).2

def steps : List (Config Bench × Action) :=
  [(⟨start, [], none⟩, .other), (⟨wrapped, [], some 0⟩, .other), (⟨live, [], none⟩, .other),
    (⟨marked, [], none⟩, .other), (⟨busy, [], none⟩, .release 0), (⟨cached, [], none⟩, .other)]

theorem outcomes :
    ((Allocator.wrapRegion ⟨⟨0x1000, 4096⟩, 0x1000⟩ 4096 0 "page").exec start).1.toOption = some 0 ∧
    ((Allocator.handOut 0).exec wrapped).1.toOption = some () ∧
    ((modifyBuffer 0 (·.markAccess Access.readWrite)).exec live).1.toOption = some () ∧
    ((Device.submitJob 0x2000 0 none [0]).exec marked).1.toOption = some 0 ∧
    ((Buffer.unreference 0).exec busy).1.toOption = some () ∧
    ((Device.handleJobEvent { code := JobEvent.done }).exec cached).1.toOption = some true ∧
    ((Allocator.create 4096 0 "again").exec landed).1.toOption = some 0 := by
  decide +kernel

theorem run_landed : Course CarefulStep ⟨start, [], none⟩ steps ⟨landed, [], none⟩ := by
  obtain ⟨hwrap, hhand, hmark, hsubmit, hrelease, hevent, -⟩ := outcomes
  have hwrapped : (Allocator.wrapRegion ⟨⟨0x1000, 4096⟩, 0x1000⟩ 4096 0 "page").exec start = (.ok 0, wrapped) :=
    exec_of_value hwrap
  have hlive : (Allocator.handOut 0).exec wrapped = (.ok (), live) := exec_of_value hhand
  have hmarked : (modifyBuffer 0 (·.markAccess Access.readWrite)).exec live = (.ok (), marked) := exec_of_value hmark
  have hbusy : (Device.submitJob 0x2000 0 none [0]).exec marked = (.ok 0, busy) := exec_of_value hsubmit
  have hcached : (Buffer.unreference 0).exec busy = (.ok (), cached) := exec_of_value hrelease
  have hlanded : (Device.handleJobEvent { code := JobEvent.done }).exec cached = (.ok true, landed) :=
    exec_of_value hevent
  refine .cons (.job (by decide) (.inl rfl) (.wrap hwrapped) fun _ => ?_) <|
    .cons (.job (by decide) (.inl rfl) (.handOut hlive) fun _ => ?_) <|
    .cons (.job (by decide +kernel) (.inl rfl) (.quiet ?_) fun _ => ?_) <|
    .cons (.submit (by decide +kernel) (fun k hk => ?_) hbusy trivial) <|
    .cons (.job (by decide +kernel) (.inr ⟨0, rfl⟩) (.release (a := BufferSample.account) ?_ rfl hcached)
      fun _ => ?_) <|
    .cons (.event (by decide +kernel) hlanded) (.nil _)
  · exact (minds_wrapRegion _ _ _ _).ok hwrapped
  · exact (minds_of_stakes (stakes_handOut 0)).ok hlive
  · exact Keeps.ok (by exact quiet_modifyBuffer 0 fun _ => rfl) hmarked
  · exact minds_markAccess (by decide +kernel) hmarked
  · obtain rfl : k = 0 := by simpa using hk
    have hstands : marked.allocator.buffers[0]?.map (fun b => (b.freed, b.handle, b.access)) = some (false, 0, 3) := by
      decide +kernel
    obtain ⟨b, hx, hb⟩ := Option.map_eq_some_iff.mp hstands
    refine ⟨0, b, hx, congrArg (·.1) hb, congrArg (·.2.1) hb, ?_⟩
    rw [show b.access = 3 from congrArg (·.2.2) hb]
    decide
  · decide +kernel
  · exact (minds_unreference 0).ok hcached

theorem bounded_steps : ∀ d ∈ steps.map (·.1) ++ [⟨landed, [], none⟩], d.Bounded := by
  have hready : ∀ d ∈ steps.map (·.1) ++ [⟨landed, [], none⟩], d.ready = [] := by decide +kernel
  have hrefs : ∀ d ∈ steps.map (·.1) ++ [⟨landed, [], none⟩], ∀ a ∈ d.machine.storage.accounts,
    a.refs ≠ Int32.minValue := by decide +kernel
  have hcalm := (run_landed.mono CarefulStep.shelf).calm (vacant_start.csf_or_calm.resolve_left (by decide))
  exact fun d hd => (hcalm d hd).bounded (hready d hd) (hrefs d hd)

end Reused

/-- A page is used again once the atom that used it is done, and then it is zero all over. -/
theorem create_pristine_sample : Vacant Reused.start ∧ SyncsOnly Bench ∧ ∃ m' b,
    (Allocator.create 4096 0 "again").exec Reused.landed = (.ok 0, m') ∧ m'.Pristine 0 "again" 0 b ∧
      ∀ p, b.cpu = some p → ∀ a, p.Covers a → m'.memory.byte a = 0 := by
  have he : (Allocator.create 4096 0 "again").exec Reused.landed =
      (.ok 0, ((Allocator.create 4096 0 "again").exec Reused.landed).2) :=
    exec_of_value Reused.outcomes.2.2.2.2.2.2
  have hidle : ∀ k, ¬Reused.start.device.handles.InUse k := by
    rintro k ⟨e, hk, -⟩
    cases hk
  have hmax : ∀ d ∈ Reused.steps.map (·.1) ++ [⟨Reused.landed, [], none⟩],
      d.progress.streams.length ≤ slotCount := by
    decide +kernel
  obtain ⟨b, hpristine, -, hzero, -⟩ := Course.create_pristine Reused.vacant_start hidle Reused.run_landed hmax
    Reused.bounded_steps Bench.syncsOnly he
  exact ⟨Reused.vacant_start, Bench.syncsOnly, _, b, he, hpristine, hzero (by decide +kernel) (by decide)⟩

end Mali
