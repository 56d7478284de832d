import Mali.Proofs.EventRecords
import Mali.Proofs.Eviction
import Mali.Proofs.OpenFiles
import Mali.Proofs.SearchBooks
import Mali.Proofs.Termination

/-!
# What becomes of a released buffer

The last callback of a release ends it.  The buffer is freed if it may not be cached, because it is shared or nothing is
cached at all.  Otherwise it enters the cache with the present second, and what is stale by then is freed.

All of this returns, whatever the kernel answers, and takes no time if giving memory and descriptors back takes none.

* `Prompt`, `sameTime_free`: freeing a buffer takes no time.
* `Sheds`, `Mild`: the handles of what is freed go with it, and changes that free nothing.
* `Machine.Cacheable`, `Machine.Stale`: what may be cached, and what is freed when something is.
* `Ends`, `exec_cachePut`, `exec_finish`: how a release ends.
-/

namespace Mali

open Op

variable {κ : Type}

/-! ## Time -/

/-- Giving something back takes no time. -/
def Prompt (κ : Type) [Kernel κ] : Prop :=
  ∀ (k : κ) (c : Syscall), c.givesBack = true → Kernel.now (Kernel.call k c).2 = Kernel.now k

section Kernel

variable [Kernel κ]

/-- The clock stands still. -/
def SameTime (m m' : Machine κ) : Prop := Kernel.now m'.kernel = Kernel.now m.kernel

instance : OfDriver (SameTime (κ := κ)) where
  refl _ := rfl
  trans h h' := Eq.trans h' h
  of_driver hk _ _ := congrArg Kernel.now hk

theorem sameTime_call (hprompt : Prompt κ) {c : Syscall} (hc : c.givesBack = true) :
    Keeps (SameTime (κ := κ)) (call c) := fun m _ => hprompt m.kernel c hc

theorem sameTime_freeRegion (hprompt : Prompt κ) (va : UInt64) :
    Keeps (SameTime (κ := κ)) (Interface.freeRegion va) := by
  have hrequest (name : String) {r : Ioctl} (hr : ∀ fd, (Syscall.ioctl fd r).givesBack = true) :
      Keeps (SameTime (κ := κ)) (Interface.request name r) :=
    keeps_bind keeps_device fun d => keeps_bind_except (sameTime_call hprompt (hr _)) (fun _ => keeps_pure _)
      fun e => keeps_bind (keeps_error _ _) fun _ => keeps_fail _
  unfold Interface.freeRegion
  refine keeps_bind keeps_device fun d => ?_
  split
  · refine keeps_bind (hrequest _ fun _ => rfl) fun reply => ?_
    split
    · exact keeps_pure _
    · exact keeps_bind (keeps_error _ _) fun _ => keeps_fail _
  · exact hrequest _ fun _ => rfl
  · exact hrequest _ fun _ => rfl

theorem sameTime_freeHandle (hprompt : Prompt κ) (handle : Int) :
    Keeps (SameTime (κ := κ)) (Device.freeHandle handle) := by
  have hset (t : HandleTable) : Keeps (SameTime (κ := κ)) (Device.setHandles t) := keeps_modify fun _ => rfl
  unfold Device.freeHandle Device.checkHandles Device.closeHandleFd
  refine keeps_bind keeps_device fun d => ?_
  split
  · exact keeps_pure _
  · refine keeps_bind (hset _) fun _ => keeps_bind (keeps_checkRule _) fun _ => ?_
    split
    · exact keeps_bind_except (sameTime_call hprompt rfl) (fun _ => keeps_pure _) fun _ => keeps_error _ _
    · exact keeps_pure _

/-- Freeing a buffer takes no time. -/
theorem sameTime_free (hprompt : Prompt κ) (x : Nat) : Keeps (SameTime (κ := κ)) (Allocator.free x) := by
  have hunmap : Keeps (SameTime (κ := κ)) (Allocator.unmapBuffer x) := by
    unfold Allocator.unmapBuffer unmapMemory
    refine keeps_bind (keeps_buffer x) fun b => ?_
    split
    · exact keeps_pure _
    · refine keeps_bind_option ?_ (keeps_modifyBuffer _ _) fun e =>
        keeps_bind (keeps_error _ _) fun _ => keeps_modifyBuffer _ _
      exact keeps_bind_except (sameTime_call hprompt rfl) (fun _ => keeps_pure _) fun _ => keeps_pure _
  have hregion : Keeps (SameTime (κ := κ)) (Allocator.freeBufferRegion x) := by
    unfold Allocator.freeBufferRegion Device.free
    refine keeps_bind (keeps_buffer x) fun b => ?_
    split
    · refine keeps_bind_except (keeps_attempt ?_) (fun _ => keeps_pure _) fun _ => keeps_error _ _
      exact keeps_bind (keeps_debug _ _) fun _ => keeps_bind (sameTime_freeRegion hprompt _) fun _ =>
        keeps_reportFreed _
    · exact keeps_pure _
  unfold Allocator.free
  exact keeps_bind (keeps_buffer x) fun b => keeps_bind (keeps_writeHandle _ b) fun _ =>
    keeps_bind hunmap fun _ => keeps_bind hregion fun _ => keeps_bind (keeps_modifyAllocator _) fun _ =>
    keeps_bind (sameTime_freeHandle hprompt _) fun _ => keeps_bind (keeps_modifyBuffer x _) fun _ =>
    keeps_modifyAllocator _

end Kernel

/-! ## What freeing takes along -/

/-- What no release changes of an account. -/
def Account.title (a : Account) : Nat × Bool × Int32 := (a.handle, a.shared, a.refs)

/-- Buffers may be freed, and exactly their handles go with them. -/
structure Sheds (m m' : Machine κ) : Prop where
  options : m'.allocator.options = m.allocator.options
  titles : m'.storage.accounts.map Account.title = m.storage.accounts.map Account.title
  freed : ∀ x, m.Freed x → m'.Freed x
  owns : ∀ k fd, m'.Owns k fd ↔
    m.Owns k fd ∧ ∀ x, m.allocator.handleOf x = k → m'.Freed x → m.Freed x

/-- The handle of a buffer is that of its account. -/
theorem Machine.handleOf_eq (m : Machine κ) (x : Nat) :
    m.allocator.handleOf x = ((m.storage.accounts.map Account.title)[x]?.map (·.1)).getD 0 := by
  have haccounts : m.storage.accounts = m.allocator.buffers.map Buffer.account := rfl
  rw [haccounts, List.getElem?_map, List.getElem?_map, Option.map_map, Option.map_map]
  rfl

namespace Sheds

variable {m m₁ m' : Machine κ}

theorem handleOf (h : Sheds m m') (x : Nat) : m'.allocator.handleOf x = m.allocator.handleOf x := by
  rw [m'.handleOf_eq, h.titles, ← m.handleOf_eq]

instance : Journey (Sheds (κ := κ)) where
  refl m := ⟨rfl, rfl, fun _ hx => hx, fun _ _ => ⟨fun ho => ⟨ho, fun _ _ hx => hx⟩, And.left⟩⟩
  trans {m m₁ m'} h h' := by
    refine ⟨h'.options.trans h.options, h'.titles.trans h.titles, fun x hx => h'.freed x (h.freed x hx),
      fun k fd => ?_⟩
    rw [h'.owns, h.owns, and_assoc]
    refine and_congr_right fun _ => ⟨fun ⟨hfirst, hsecond⟩ x hk hx => ?_, fun hboth => ⟨?_, ?_⟩⟩
    · exact hfirst x hk (hsecond x ((h.handleOf x).trans hk) hx)
    · exact fun x hk hx => hboth x hk (h'.freed x hx)
    · exact fun x hk hx => h.freed x (hboth x ((h.handleOf x).symm.trans hk) hx)

theorem references (h : Sheds m m') : SameReferences m m' := by
  have hrefs (m : Machine κ) :
      m.storage.accounts.map Account.refs = (m.storage.accounts.map Account.title).map (·.2.2) := by
    rw [List.map_map]
    rfl
  rw [SameReferences, hrefs, hrefs, h.titles]

/-- No buffer comes or goes. -/
theorem exists_account (h : Sheds m m') (x : Nat) :
    (∃ a, m'.storage.accounts[x]? = some a) ↔ ∃ a, m.storage.accounts[x]? = some a := by
  have hsome (m : Machine κ) : (∃ a, m.storage.accounts[x]? = some a) ↔
      ∃ t, (m.storage.accounts.map Account.title)[x]? = some t := by
    rw [List.getElem?_map]
    cases m.storage.accounts[x]? <;> simp
  rw [hsome, hsome, h.titles]

end Sheds

/-- Nothing comes to its end: no buffer is freed, and what the cache goes by stays as it is. -/
structure Mild (m m' : Machine κ) : Prop where
  kernel : m'.kernel = m.kernel
  table : m'.device.handles = m.device.handles
  cards : SameCards m m'
  titles : m'.storage.accounts.map Account.title = m.storage.accounts.map Account.title
  marks : m'.storage.accounts.map (·.freed) = m.storage.accounts.map (·.freed)

namespace Mild

variable {m m₁ m' : Machine κ}

instance : Journey (Mild (κ := κ)) where
  refl _ := ⟨rfl, rfl, Journey.refl _, rfl, rfl⟩
  trans h h' := ⟨h'.kernel.trans h.kernel, h'.table.trans h.table, h.cards.trans h'.cards,
    h'.titles.trans h.titles, h'.marks.trans h.marks⟩

instance : Slotwise (Mild (κ := κ)) where
  of_slots hk _ ha hd := by
    refine ⟨hk, congrArg (·.2.1) hd, .of_buffers (by rw [ha]) (by rw [ha]), ?_, ?_⟩
    · rw [Machine.storage, ha, Machine.storage]
    · rw [Machine.storage, ha, Machine.storage]

theorem freed_iff (h : Mild m m') (x : Nat) : m'.Freed x ↔ m.Freed x := by
  have hmark (m : Machine κ) : m.Freed x ↔ (m.storage.accounts.map (·.freed))[x]? = some true := by
    rw [Machine.freed_iff, List.getElem?_map, Option.map_eq_some_iff]
  rw [hmark, h.marks, ← hmark]

theorem recency (h : Mild m m') : m'.allocator.cache.recency = m.allocator.cache.recency :=
  congrArg (·.1.recency) h.cards.shelves

theorem sheds (h : Mild m m') : Sheds m m' where
  options := congrArg (·.2.1) h.cards.shelves
  titles := h.titles
  freed x := (h.freed_iff x).mpr
  owns k fd := by
    rw [Machine.Owns, h.table]
    exact ⟨fun ho => ⟨ho, fun x _ hx => (h.freed_iff x).mp hx⟩, And.left⟩

end Mild

/-- A change of a buffer that neither its title nor its card shows. -/
theorem mild_editBuffer (x : Nat) {f : Buffer → Buffer} {g : Account → Account} (hcard : ∀ b, (f b).card = b.card)
    (haccess : ∀ b, (f b).access = b.access) (haccount : ∀ b, (f b).account = g b.account)
    (htitle : ∀ a, (g a).title = a.title) (hfreed : ∀ a, (g a).freed = a.freed) :
    Keeps (Mild (κ := κ)) (modifyBuffer x f) := by
  intro m hs
  have hstorage : (m.allocator.mapBuffer x f).storage.accounts = m.storage.accounts.modify x g :=
    congrArg Storage.accounts (m.allocator.storage_mapBuffer x haccount)
  refine ⟨rfl, rfl, cards_editBuffer x hcard haccess m hs, ?_, ?_⟩
  · exact (congrArg _ hstorage).trans (map_modify_eq Account.title htitle _ x)
  · exact (congrArg _ hstorage).trans (map_modify_eq Account.freed hfreed _ x)

section Kernel

variable [Kernel κ] {m m' : Machine κ} {x : Nat}

omit [Kernel κ] in
theorem mild_writeHandle (name : String) (b : Buffer) :
    Keeps (Mild (κ := κ)) (Allocator.writeHandle name b) := by
  intro m hs
  have hstill := still_writeHandle name b m hs
  have hquiet := quiet_writeHandle name b m hs
  have hdevice : SameDevice m ((Allocator.writeHandle name b).exec m).2 := keeps_writeHandle name b m hs
  exact ⟨hstill.kernel, congrArg Device.handles hdevice, hstill.toSameCards, by rw [hquiet.storage],
    by rw [hquiet.storage]⟩

/-- A buffer that is freed is freed, and no other one. -/
theorem freed_free (he : (Allocator.free x).exec m = (.ok (), m')) (y : Nat) : m'.Freed y ↔ m.Freed y ∨ y = x := by
  obtain ⟨b, hget, -, -, hstorage⟩ := free_ok he
  rw [Machine.freed_iff, Machine.freed_iff, hstorage]
  show (∃ a, (m.storage.accounts.modify x _)[y]? = some a ∧ _) ↔ _
  rw [getElem?_modify_of_some (Machine.accounts_of_buffer hget)]
  by_cases hxy : x = y
  · simp [hxy]
  · simp [hxy, Ne.symm hxy]

theorem sheds_free (hx : ¬m.Freed x) (he : (Allocator.free x).exec m = (.ok (), m')) : Sheds m m' := by
  obtain ⟨b, hget, -, -, hstorage⟩ := free_ok he
  have hdevice := free_device hget he
  have hhandle : m.allocator.handleOf x = b.handle := Allocator.handleOf_of_buffer hget
  refine ⟨congrArg Storage.options hstorage, ?_, fun y hy => (freed_free he y).mpr (.inl hy), fun k fd => ?_⟩
  · rw [hstorage]
    exact map_modify_eq Account.title (f := fun a => { a with usage := [], freed := true }) (fun _ => rfl) _ x
  · rw [Machine.Owns, hdevice]
    constructor
    · intro ho
      refine ⟨HandleTable.owns_of_free ho, fun y hk hy => ((freed_free he y).mp hy).resolve_right ?_⟩
      rintro rfl
      rw [← hk, hhandle] at ho
      exact HandleTable.not_owns_free _ _ ho
    · rintro ⟨ho, hothers⟩
      refine HandleTable.owns_free ?_ ho
      rintro rfl
      exact hx (hothers x hhandle ((freed_free he x).mpr (.inr rfl)))

/-- The books stay in order, and the handles of what is freed go. -/
def Disposes (ready : List Callback) (m m' : Machine κ) : Prop :=
  m.Books ready none → m'.Books ready none ∧ Sheds m m'

omit [Kernel κ] in
instance (ready : List Callback) : Journey (Disposes (κ := κ) ready) where
  refl _ hb := ⟨hb, Journey.refl _⟩
  trans h h' hb := by
    obtain ⟨hb₁, hs⟩ := h hb
    obtain ⟨hb', hs'⟩ := h' hb₁
    exact ⟨hb', Journey.trans hs hs'⟩

theorem disposes_evict (ready : List Callback) (x : Nat) : Keeps (Disposes (κ := κ) ready) (Allocator.evict x) := by
  refine (faultless_evict x).keeps fun {m m' _} he hb => ⟨((tidies_evict ready x).ok he).books hb, ?_⟩
  unfold Allocator.evict at he
  obtain ⟨_, m₁, h₁, he⟩ := bind_ok he
  obtain ⟨_, m₂, h₂, he⟩ := bind_ok he
  have hcount : Mild m₁ m₂ := by
    cases h₂
    exact ⟨rfl, rfl, .of_buffers rfl rfl, rfl, rfl⟩
  obtain ⟨b, i, hget, hi, -, -, hstorage⟩ := uncache_ok h₁
  have haccounts : m₁.storage.accounts = m.storage.accounts.modify x _ := congrArg Storage.accounts hstorage
  have hfreed (y : Nat) : m₁.Freed y ↔ m.Freed y := by
    rw [Machine.freed_iff, Machine.freed_iff, haccounts, getElem?_modify_of_some (Machine.accounts_of_buffer hget)]
    split
    · rename_i hxy
      rw [← hxy, Machine.accounts_of_buffer hget]
      simp
    · rfl
  have huncache : Sheds m m₁ := by
    refine ⟨congrArg Storage.options hstorage, ?_, fun y => (hfreed y).mpr, fun k fd => ?_⟩
    · rw [haccounts]
      exact map_modify_eq Account.title (f := fun a => { a with cachedIn := none }) (fun _ => rfl) _ x
    · rw [Machine.Owns, show m₁.device = m.device from (keeps_uncache (R := SameDevice) x).ok h₁]
      exact ⟨fun ho => ⟨ho, fun y _ => (hfreed y).mp⟩, And.left⟩
  -- what is cached is not freed
  have hx : ¬m₂.Freed x := by
    rw [hcount.freed_iff, hfreed, Machine.freed_iff]
    rintro ⟨a, ha, haf⟩
    have hnone := hb.apart x a ha haf
    rw [Machine.accounts_of_buffer hget] at ha
    cases ha
    rw [show b.account.cachedIn = some i from hi] at hnone
    cases hnone
  exact Journey.trans huncache (Journey.trans hcount.sheds (sheds_free hx he))

end Kernel

/-! ## The end of a release -/

/-- A buffer may be cached when its release ends. -/
def Machine.Cacheable (m : Machine κ) (x : Nat) : Prop :=
  m.allocator.options.noCache = false ∧ ∀ a ∈ m.storage.accounts[x]?, a.shared = false

section Kernel

variable [Kernel κ] {m m₁ m' : Machine κ} {x : Nat}

omit [Kernel κ] in
theorem Machine.cacheable_iff {b : Buffer} (hx : m.allocator.buffers[x]? = some b) :
    Allocator.mayCache m.allocator b = true ↔ m.Cacheable x := by
  have hshared : b.account.shared = b.has BufferFlag.shared := rfl
  rw [Machine.Cacheable, Machine.accounts_of_buffer hx, Allocator.mayCache, ← hshared]
  simp [and_comm]

omit [Kernel κ] in
theorem Sheds.cacheable {m m' : Machine κ} (h : Sheds m m') (x : Nat) : m'.Cacheable x ↔ m.Cacheable x := by
  have hshared (m : Machine κ) : (∀ a ∈ m.storage.accounts[x]?, a.shared = false) ↔
      ∀ t ∈ (m.storage.accounts.map Account.title)[x]?, t.2.1 = false := by
    rw [List.getElem?_map]
    cases m.storage.accounts[x]? <;> simp [Account.title]
  rw [Machine.Cacheable, Machine.Cacheable, hshared, hshared, h.titles, h.options]

/-- The stamp of a buffer is past the stale age. -/
def Machine.Stale (m : Machine κ) (x : Nat) : Prop :=
  m.allocator.options.staleSeconds < m.seconds - m.allocator.lastUsed x

/-- How a release ends: the buffer is freed if it may not be cached.  Otherwise it is cached, and what is stale is
freed, which may be the buffer itself if the stale age is negative. -/
structure Ends (x : Nat) (m m' : Machine κ) : Prop extends Sheds m m' where
  time : SameTime m m'
  epoch : m'.allocator.epoch = m.allocator.epoch
  gone : ∀ y, m'.Freed y ↔ m.Freed y ∨
    m.Cacheable x ∧ (y ∈ m.allocator.cache.recency ∧ m.Stale y ∨ y = x ∧ m.allocator.options.staleSeconds < 0) ∨
    ¬m.Cacheable x ∧ y = x
  stamps : ∀ y ∈ m'.allocator.cache.recency, y = x ∧ m'.allocator.lastUsed y = m.seconds ∨
    y ∈ m.allocator.cache.recency ∧ m'.allocator.lastUsed y = m.allocator.lastUsed y

/-- Everything stays in order where the storage is tidied up and no time passes. -/
theorem Config.InOrder.next {ready : List (Nat × Link)} {held held' : Option Nat}
    (hc : (⟨m, ready, held⟩ : Config κ).InOrder) (ht : Tidies (ready.map (·.2.callback)) held held' m m')
    (hages : Ages m.seconds m m') (hlawful : Lawful m m') (htime : SameTime m m') :
    (⟨m', ready, held'⟩ : Config κ).InOrder where
  device := by
    refine hc.device.imp (fun hd => ?_) fun hm => hm.of_progress ht.progress
    have hprogress : (⟨m', ready, held'⟩ : Config κ).progress = (⟨m, ready, held⟩ : Config κ).progress := ht.progress
    rwa [hprogress]
  books := ht.books hc.books
  aged := (hages.aged hc.aged).mono (hages.seconds_le (Nat.le_of_eq htime.symm))
  idle := hc.idle.tidies ht
  rules := hlawful hc.rules

theorem Config.InOrder.mild {ready : List (Nat × Link)} {held : Option Nat}
    (hc : (⟨m, ready, held⟩ : Config κ).InOrder) (hq : Quiet m m') (hm : Mild m m') :
    (⟨m', ready, held⟩ : Config κ).InOrder :=
  hc.next (.of_quiet hq) (.of_cards hm.cards) (.of_table hm.table) (congrArg Kernel.now hm.kernel)

/-- The seconds of two machines whose allocators were made at one time. -/
theorem SameTime.seconds (h : SameTime m m') (hepoch : m'.allocator.epoch = m.allocator.epoch) :
    m'.seconds = m.seconds := by
  have htime : Kernel.now m'.kernel = Kernel.now m.kernel := h
  rw [Machine.seconds, htime, hepoch, Machine.seconds]

/-- A buffer enters the cache at the end of the list by age, with the present second. -/
theorem exec_enterCache {b : Buffer} (hx : m.allocator.buffers[x]? = some b) :
    ∃ m', (Allocator.enterCache x).exec m = (.ok (), m') ∧ m'.kernel = m.kernel ∧ m'.device = m.device ∧
      m'.allocator.epoch = m.allocator.epoch ∧
      m'.allocator.cache.recency = m.allocator.cache.recency ++ [x] ∧
      ∀ y, m'.allocator.lastUsed y = if y = x then m.seconds else m.allocator.lastUsed y := by
  have hstamp (f : Buffer → Buffer) (hf : (f b).lastUsed = m.seconds) (cache : BufferCache) (y : Nat) :
      ({ m.allocator with cache }.mapBuffer x f).lastUsed y =
        if y = x then m.seconds else m.allocator.lastUsed y := by
    rw [Allocator.lastUsed, Allocator.card?_mapBuffer (a := { m.allocator with cache }) hx]
    by_cases hy : y = x
    · rw [if_pos hy.symm, if_pos hy]
      exact hf
    · rw [if_neg (Ne.symm hy), if_neg hy]
      rfl
  unfold Allocator.enterCache
  rw [exec_bind_of_ok (exec_buffer_of_some hx)]
  exact ⟨_, rfl, rfl, rfl, rfl, rfl, hstamp _ rfl _⟩

omit [Kernel κ] in
theorem exec_markUnused {b : Buffer} (hx : m.allocator.buffers[x]? = some b) :
    ∃ m', (Allocator.markUnused x).exec m = (.ok (), m') := by
  unfold Allocator.markUnused
  rw [exec_bind_of_ok (exec_buffer_of_some hx), exec_bind_of_ok (exec_get m)]
  split
  · split
    · exact ⟨_, rfl⟩
    · exact ⟨_, rfl⟩
  · exact ⟨_, rfl⟩

/-- Evicting what is stale returns. -/
theorem exec_evictOld {ready : List Callback} {time : Int} (hb : m.Books ready none)
    (ha : m.allocator.Aged time) (hrules : m.device.handles.check = none) :
    ∃ m', Allocator.evictOld.exec m = (.ok (), m') ∧
      Evicts (fun x => m.allocator.options.staleSeconds < m.seconds - m.allocator.lastUsed x) m m' := by
  have hseconds : (Allocator.seconds : Op κ Int).exec m = (.ok m.seconds, m) := rfl
  unfold Allocator.evictOld
  rw [exec_bind_of_ok (exec_allocator m), exec_bind_of_ok hseconds]
  exact exec_evictWhile m.seconds m.allocator.options.staleSeconds hb ha hrules rfl

/-- Entering the cache frees nothing. -/
theorem sheds_enterCache {u : Unit} (he : (Allocator.enterCache x).exec m = (.ok u, m')) :
    Sheds m m' ∧ ∀ y, m'.Freed y ↔ m.Freed y := by
  have hdevice : m'.device = m.device := (keeps_enterCache (R := SameDevice) x).ok he
  unfold Allocator.enterCache at he
  obtain ⟨b, hx, he⟩ := bind_buffer_ok he
  have hstorage : ∃ i, m'.storage.accounts = m.storage.accounts.modify x fun a => { a with cachedIn := some i } := by
    cases he
    exact ⟨_, congrArg Storage.accounts (Allocator.storage_mapBuffer _ x fun _ => rfl)⟩
  have hoptions : m'.allocator.options = m.allocator.options := by
    cases he
    rfl
  obtain ⟨i, haccounts⟩ := hstorage
  have hfreed (y : Nat) : m'.Freed y ↔ m.Freed y := by
    rw [Machine.freed_iff, Machine.freed_iff, haccounts, getElem?_modify_of_some (Machine.accounts_of_buffer hx)]
    split
    · rename_i hxy
      rw [← hxy, Machine.accounts_of_buffer hx]
      simp
    · rfl
  refine ⟨⟨hoptions, ?_, fun y => (hfreed y).mpr, fun k fd => ?_⟩, hfreed⟩
  · rw [haccounts]
    exact map_modify_eq Account.title (f := fun a => { a with cachedIn := some i }) (fun _ => rfl) _ x
  · rw [Machine.Owns, hdevice]
    exact ⟨fun ho => ⟨ho, fun y _ => (hfreed y).mp⟩, And.left⟩

variable (hprompt : Prompt κ)
include hprompt

/-- A released buffer is cached. -/
theorem exec_cachePut {ready : List (Nat × Link)} (hc : (⟨m, ready, some x⟩ : Config κ).InOrder)
    (hcacheable : m.Cacheable x) : ∃ m', (Allocator.cachePut x).exec m = (.ok (), m') ∧ Ends x m m' := by
  obtain ⟨a, ha, -, hloose⟩ := hc.books.held x rfl
  obtain ⟨b, hx, rfl⟩ := Machine.exists_buffer ha
  have hshared : b.has BufferFlag.shared = false := hcacheable.2 _ ha
  have hclass : m.allocator.classOf x = none := (Machine.classOf_of_account ha).trans hloose
  -- the buffer enters the cache
  obtain ⟨m₁, h₁, hkernel₁, hdevice₁, hepoch₁, hrecency₁, hstamp₁⟩ := exec_enterCache hx
  have htime₁ : SameTime m m₁ := congrArg Kernel.now hkernel₁
  have hseconds₁ : m₁.seconds = m.seconds := htime₁.seconds hepoch₁
  have hc₁ : (⟨m₁, ready, none⟩ : Config κ).InOrder :=
    hc.next (tidies_enterCache _ hx hshared h₁) (ages_enterCache hclass h₁)
      (.of_table (congrArg Device.handles hdevice₁)) htime₁
  obtain ⟨hsheds₁, hfreed₁⟩ := sheds_enterCache h₁
  -- what is stale is freed
  obtain ⟨m₂, h₂, hevicts⟩ := exec_evictOld hc₁.books hc₁.aged hc₁.rules
  have htime₂ : SameTime m₁ m₂ := (keeps_evictOld (keeps_evict (sameTime_free hprompt))).ok h₂
  have hages₂ : Ages m₁.seconds m₁ m₂ := (keeps_evictOld (ages_evict _)).ok h₂
  have hc₂ : (⟨m₂, ready, none⟩ : Config κ).InOrder :=
    hc₁.next ((tidies_evictOld _).ok h₂) hages₂
      ((keeps_evictOld (keeps_evict (keeps_free lawful_freeHandle))).ok h₂) htime₂
  have hsheds₂ : Sheds m₁ m₂ := ((keeps_evictOld (disposes_evict _)).ok h₂ hc₁.books).2
  -- the rest is for whoever looks at the buffer
  have hstay {b : Buffer} {m m' : Machine κ} (hm : Mild m m') (hx : m.allocator.buffers[x]? = some b) :
      ∃ b', m'.allocator.buffers[x]? = some b' := by
    obtain ⟨b', hx', -⟩ := hm.cards.kept x b hx
    exact ⟨b', hx'⟩
  have hlabel : Keeps (Mild (κ := κ)) (modifyBuffer x fun b => { b with label := cachedLabel }) :=
    mild_editBuffer x (g := id) (fun _ => rfl) (fun _ => rfl) (fun _ => rfl) (fun _ => rfl) fun _ => rfl
  have hlabel' : Keeps (Quiet (κ := κ)) (modifyBuffer x fun b => { b with label := cachedLabel }) :=
    quiet_modifyBuffer x fun _ => rfl
  obtain ⟨b₂, hx₂⟩ : ∃ b, m₂.allocator.buffers[x]? = some b := by
    have hlength : (m₂.storage.accounts.map Account.title)[x]? = some b.account.title := by
      rw [hsheds₂.titles, hsheds₁.titles, List.getElem?_map, ha, Option.map_some]
    rw [List.getElem?_map, Option.map_eq_some_iff] at hlength
    obtain ⟨a₂, ha₂, -⟩ := hlength
    obtain ⟨b₂, hx₂, -⟩ := Machine.exists_buffer ha₂
    exact ⟨b₂, hx₂⟩
  obtain ⟨m₃, h₃⟩ : ∃ m₃, (modifyBuffer x fun b => { b with label := cachedLabel } : Op κ Unit).exec m₂ =
      (.ok (), m₃) := ⟨_, rfl⟩
  obtain ⟨b₃, hx₃⟩ := hstay (hlabel.ok h₃) hx₂
  obtain ⟨m₄, h₄⟩ := exec_markUnused hx₃
  have hmild : Mild m₂ m₄ := Journey.trans (hlabel.ok h₃) ((keeps_markUnused x).ok h₄)
  have hc₄ := hc₂.mild ((hlabel'.ok h₃).trans ((keeps_markUnused x).ok h₄)) hmild
  have hcheck : (Allocator.checkCache : Op κ Unit).exec m₄ = (.ok (), m₄) :=
    exec_checkRule (Allocator.check_of_shelved hc₄.shelved hc₄.aged.nodup)
  refine ⟨m₄, ?_, Journey.trans hsheds₁ (Journey.trans hsheds₂ hmild.sheds), ?_, ?_, fun y => ?_, fun y hy => ?_⟩
  · unfold Allocator.cachePut
    rw [exec_bind_of_ok h₁, exec_bind_of_ok h₂, exec_bind_of_ok h₃, exec_bind_of_ok h₄]
    exact hcheck
  · exact Journey.trans htime₁ (Journey.trans htime₂ (congrArg Kernel.now hmild.kernel))
  · exact (congrArg (·.2.2) hmild.cards.shelves).trans (hages₂.epoch.trans hepoch₁)
  · have hnew : x ∉ m.allocator.cache.recency := fun hmem => (hc.aged.listed x).mp hmem hclass
    rw [hmild.freed_iff, hevicts.freed, hfreed₁, hrecency₁, hsheds₁.options, hseconds₁, hstamp₁, List.mem_append,
      List.mem_singleton, Machine.Stale]
    simp only [hcacheable, true_and, not_true_eq_false, false_and, or_false]
    refine or_congr_right ?_
    by_cases hyx : y = x
    · subst hyx
      simp [hnew]
    · simp [hyx]
  · rw [hmild.recency] at hy
    have hy₁ : y ∈ m₁.allocator.cache.recency := by
      rw [hevicts.recency] at hy
      exact (List.mem_filter.mp hy).1
    obtain ⟨b', _, hb', -⟩ := Machine.Books.listed hc₂.books hc₂.aged hy
    rw [hmild.cards.lastUsed hb', hevicts.lastUsed y hy, hstamp₁]
    rw [hrecency₁, List.mem_append, List.mem_singleton] at hy₁
    by_cases hyx : y = x
    · exact .inl ⟨hyx, if_pos hyx⟩
    · exact .inr ⟨hy₁.resolve_right hyx, if_neg hyx⟩

/-- A release ends. -/
theorem exec_finish {ready : List (Nat × Link)} (hc : (⟨m, ready, some x⟩ : Config κ).InOrder) :
    ∃ m', (Allocator.finish x).exec m = (.ok (), m') ∧ Ends x m m' := by
  obtain ⟨a, ha, hfreed, -⟩ := hc.books.held x rfl
  obtain ⟨b, hx, rfl⟩ := Machine.exists_buffer ha
  unfold Allocator.finish
  rw [exec_bind_of_ok (exec_allocator m), exec_bind_of_ok (exec_buffer_of_some hx)]
  split
  · rename_i hmay
    exact exec_cachePut hprompt hc ((Machine.cacheable_iff hx).mp hmay)
  · rename_i hmay
    have hplain : ¬m.Cacheable x := fun h => hmay ((Machine.cacheable_iff hx).mpr h)
    have hlive : ¬m.Freed x := by
      rw [Machine.freed_iff]
      rintro ⟨a', ha', hfreed'⟩
      rw [ha] at ha'
      cases ha'
      rw [hfreed] at hfreed'
      cases hfreed'
    obtain ⟨m', he⟩ := exec_free ⟨⟨b, hx⟩, hc.rules⟩
    have hcards : SameCards m m' := (cards_free x).ok he
    refine ⟨m', he, sheds_free hlive he, (sameTime_free hprompt x).ok he, congrArg (·.2.2) hcards.shelves,
      fun y => ?_, fun y hy => ?_⟩
    · rw [freed_free he]
      simp [hplain]
    · rw [show m'.allocator.cache.recency = m.allocator.cache.recency from congrArg (·.1.recency) hcards.shelves] at hy
      obtain ⟨i, hi⟩ := Option.ne_none_iff_exists'.mp ((hc.aged.listed y).mp hy)
      obtain ⟨b', hb', -⟩ := Allocator.exists_of_classOf hi
      exact .inr ⟨hy, hcards.lastUsed hb'⟩

end Kernel

end Mali
