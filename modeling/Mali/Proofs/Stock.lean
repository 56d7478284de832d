import Mali.Proofs.Totals
import Mali.Proofs.Transfers

/-!
# What an allocator counts

An allocator counts the regions that it allocated, the buffers that it freed, and how often the cache was emptied of
one.  A buffer comes from an allocation or from an import that finds no known buffer, and is freed at most once, so
these counts say how many buffers there are.

The counts are looked at between whole allocations and imports: a region is a buffer before it is counted.

* `Tallies`: sizes stay as they are, and what is evicted is freed.
* `Measured`: the kernel makes no empty mapping, and measures files in words.
* `Trade`, `StockStep`, `StockRun`: steps of which some are whole allocations or imports.
* `Config.Stocked`: the counts are right.
* `StockRun.statistics_exact`: so are statistics and summaries.
-/

namespace Mali

open Op

variable {κ : Type}

/-! ## Tallies -/

/-- Sizes stay as they are, buffers are added at the end, no allocation is counted, and what is evicted is freed. -/
structure Tallies (m m' : Machine κ) : Prop where
  started : m'.allocator.started = m.allocator.started
  allocations : m'.allocator.allocations = m.allocator.allocations
  sizes : m.allocator.buffers.map (·.size) <+: m'.allocator.buffers.map (·.size)
  evictions : m'.allocator.evictions + m.allocator.frees ≤ m.allocator.evictions + m'.allocator.frees
  keys : (m.allocator.arena.map (·.1)).Nodup → (m'.allocator.arena.map (·.1)).Nodup

/-- What a tally goes by. -/
def Allocator.tally (a : Allocator) : Bool × List Int64 × Nat × Nat × Nat × List (Nat × Nat) :=
  (a.started, a.buffers.map (·.size), a.allocations, a.frees, a.evictions, a.arena)

namespace Tallies

variable {m m₁ m' : Machine κ}

theorem of_tally (h : m'.allocator.tally = m.allocator.tally) : Tallies m m' := by
  simp only [Allocator.tally, Prod.mk.injEq] at h
  obtain ⟨hstarted, hsizes, hallocations, hfrees, hevictions, harena⟩ := h
  exact ⟨hstarted, hallocations, hsizes ▸ List.prefix_refl _, by rw [hfrees, hevictions], by rw [harena]; exact id⟩

theorem trans (h : Tallies m m₁) (h' : Tallies m₁ m') : Tallies m m' where
  started := h'.started.trans h.started
  allocations := h'.allocations.trans h.allocations
  sizes := h.sizes.trans h'.sizes
  evictions := by
    have := h.evictions
    have := h'.evictions
    omega
  keys hk := h'.keys (h.keys hk)

instance : OfAllocator (Tallies (κ := κ)) where
  refl _ := of_tally rfl
  trans := trans
  of_allocator ha := of_tally (by rw [ha])

end Tallies

theorem tallies_modifyAllocator {f : Allocator → Allocator} (hf : ∀ a, (f a).tally = a.tally) :
    Keeps (Tallies (κ := κ)) (modifyAllocator f) := keeps_modify fun m => .of_tally (hf m.allocator)

theorem tallies_modifyBuffer (x : Nat) {f : Buffer → Buffer} (hf : ∀ b, (f b).size = b.size) :
    Keeps (Tallies (κ := κ)) (modifyBuffer x f) := by
  refine keeps_modify fun m => .of_tally ?_
  simp only [Allocator.tally, Allocator.mapBuffer, map_modify_eq (fun b : Buffer => b.size) hf]

theorem tallies_write (name : String) (b : Buffer) (fd : Int) (imported : Option (Int × Bool)) :
    Keeps (Tallies (κ := κ)) (Allocator.write name b fd imported) :=
  keeps_write_of (fun _ => tallies_modifyAllocator fun _ => rfl) name b fd imported

theorem tallies_writeHandle (name : String) (b : Buffer) :
    Keeps (Tallies (κ := κ)) (Allocator.writeHandle name b) := keeps_writeHandle_of fun _ => tallies_write _ _ _ _

theorem tallies_uncache (x : Nat) : Keeps (Tallies (κ := κ)) (Allocator.uncache x) :=
  keeps_uncache_of (fun _ => tallies_modifyAllocator fun _ => rfl) (tallies_modifyBuffer x fun _ => rfl)

theorem tallies_addBuffer (b : Buffer) : Keeps (Tallies (κ := κ)) (Allocator.addBuffer b) := by
  refine keeps_bind keeps_allocator fun a => keeps_bind (keeps_modify fun m => ?_) fun _ => keeps_pure _
  refine ⟨rfl, rfl, ?_, Nat.le_refl _, fun hk => ?_⟩
  · show m.allocator.buffers.map (·.size) <+: (m.allocator.buffers ++ [b]).map (·.size)
    rw [List.map_append]
    exact List.prefix_append _ _
  · exact Allocator.nodup_enter hk _ _

section Kernel

variable [Kernel κ]

theorem tallies_unmapBuffer (x : Nat) : Keeps (Tallies (κ := κ)) (Allocator.unmapBuffer x) :=
  keeps_unmapBuffer_of (tallies_modifyBuffer x fun _ => rfl)

theorem tallies_freeBufferRegion (x : Nat) : Keeps (Tallies (κ := κ)) (Allocator.freeBufferRegion x) :=
  keeps_freeBufferRegion_of keeps_freeDevice x

/-- What is freed is counted once. -/
theorem free_tallies {x : Nat} {m m' : Machine κ} {u : Unit} (he : (Allocator.free x).exec m = (.ok u, m')) :
    Tallies m m' ∧
      m'.allocator.evictions + m.allocator.frees + 1 ≤ m.allocator.evictions + m'.allocator.frees := by
  have hforget (handle : Nat) : Keeps (Tallies (κ := κ)) (modifyAllocator (·.forget handle)) :=
    keeps_modify fun m => ⟨rfl, rfl, List.prefix_refl _, Nat.le_refl _, fun hk =>
      hk.sublist (List.filter_sublist.map _)⟩
  unfold Allocator.free at he
  obtain ⟨b, -, he⟩ := bind_buffer_ok he
  obtain ⟨_, m₁, h₁, he⟩ := bind_ok he
  obtain ⟨_, m₂, h₂, he⟩ := bind_ok he
  obtain ⟨_, m₃, h₃, he⟩ := bind_ok he
  obtain ⟨_, m₄, h₄, he⟩ := bind_ok he
  obtain ⟨_, m₅, h₅, he⟩ := bind_ok he
  obtain ⟨_, m₆, h₆, he⟩ := bind_ok he
  have hmark : Keeps (Tallies (κ := κ))
      (modifyBuffer x fun b => { b with usage := [], dmabufFd := -1, freed := true }) :=
    tallies_modifyBuffer x fun _ => rfl
  have h : Tallies m m₆ := ((((((tallies_writeHandle _ _).ok h₁).trans ((tallies_unmapBuffer x).ok h₂)).trans
    ((tallies_freeBufferRegion x).ok h₃)).trans ((hforget _).ok h₄)).trans ((keeps_freeHandle _).ok h₅)).trans
    (hmark.ok h₆)
  have hevictions := h.evictions
  cases he
  exact ⟨⟨h.started, h.allocations, h.sizes, Nat.le_succ_of_le hevictions, h.keys⟩, Nat.succ_le_succ hevictions⟩

theorem tallies_free (x : Nat) : Keeps (Tallies (κ := κ)) (Allocator.free x) :=
  (faultless_free x).keeps fun he => (free_tallies he).1

/-- What is evicted is freed. -/
theorem tallies_evict (x : Nat) : Keeps (Tallies (κ := κ)) (Allocator.evict x) := by
  refine (faultless_evict x).keeps fun {m m' _} he => ?_
  unfold Allocator.evict at he
  obtain ⟨_, m₁, huncache, he⟩ := bind_ok he
  obtain ⟨_, m₂, hcount, he⟩ := bind_ok he
  have h₁ := (tallies_uncache x).ok huncache
  obtain ⟨h₂, hfrees⟩ := free_tallies he
  cases hcount
  have hevictions := h₁.evictions
  refine ⟨h₂.started.trans h₁.started, h₂.allocations.trans h₁.allocations, h₁.sizes.trans h₂.sizes, ?_,
    fun hk => h₂.keys (h₁.keys hk)⟩
  dsimp only at hfrees
  omega

theorem tallies_finish (x : Nat) : Keeps (Tallies (κ := κ)) (Allocator.finish x) :=
  have henter : Keeps (Tallies (κ := κ)) (Allocator.enterCache x) :=
    keeps_enterCache_of (fun _ => tallies_modifyAllocator fun _ => rfl)
      fun _ _ _ => tallies_modifyBuffer x fun _ => rfl
  keeps_finish_of henter (keeps_evictOld tallies_evict) (tallies_modifyBuffer x fun _ => rfl) (keeps_markUnused x)
    (tallies_free x)

theorem tallies_unreference (x : Nat) : Keeps (Tallies (κ := κ)) (Buffer.unreference x) :=
  keeps_unreference_of (tallies_modifyBuffer x fun _ => rfl)
    (keeps_beginRelease_of tallies_writeHandle (tallies_finish x) (tallies_modifyBuffer x fun _ => rfl)
      (keeps_callbackAll _) fun _ => tallies_modifyBuffer x fun _ => rfl)

theorem tallies_runCallback (c : Callback) : Keeps (Tallies (κ := κ)) (Device.runCallback c) :=
  keeps_runCallback_of (fun _ => keeps_report _) (fun x => keeps_queueDrained_of tallies_writeHandle
    (tallies_finish x) (tallies_modifyBuffer x fun _ => rfl)) c

omit [Kernel κ] in
theorem tallies_reference (x : Nat) : Keeps (Tallies (κ := κ)) (Buffer.reference x) :=
  keeps_reference_of (tallies_modifyBuffer x fun _ => rfl)

omit [Kernel κ] in
theorem tallies_revive (x : Nat) : Keeps (Tallies (κ := κ)) (Allocator.revive x) :=
  keeps_revive_of (tallies_modifyBuffer x fun _ => rfl) (tallies_modifyBuffer x fun _ => rfl)

omit [Kernel κ] in
theorem tallies_reuse (x : Nat) (label : String) : Keeps (Tallies (κ := κ)) (Allocator.reuse x label) :=
  keeps_reuse_of (tallies_uncache x) (tallies_modifyBuffer x fun _ => rfl) (tallies_modifyAllocator fun _ => rfl)

theorem tallies_handOut (x : Nat) : Keeps (Tallies (κ := κ)) (Allocator.handOut x) :=
  keeps_handOut_of (keeps_clearBuffer x) (tallies_modifyBuffer x fun _ => rfl) fun _ => tallies_write _ _ _ _

omit [Kernel κ] in
theorem tallies_useBuffer (deps : List Usage) (x : Nat) (u : Usage) :
    Keeps (Tallies (κ := κ)) (Submitter.useBuffer deps x u) :=
  keeps_bind (keeps_buffer x) fun _ => keeps_bind (tallies_modifyBuffer x fun _ => rfl) fun _ => keeps_pure _

omit [Kernel κ] in
theorem tallies_wrapRegion (region : Region) (size : Int64) (flags : UInt32) (label : String) :
    Keeps (Tallies (κ := κ)) (Allocator.wrapRegion region size flags label) :=
  keeps_bind keeps_allocator fun _ => keeps_bind (keeps_allocHandle _ _) fun _ => tallies_addBuffer _

/-- Importing a file leaves the allocator alone. -/
theorem keeps_importFile {R : Machine κ → Machine κ → Prop} [OfAllocator R] (fd : Int) :
    Keeps R (Device.importFile fd) := keeps_importFile_of keeps_allocHandle (fun _ _ => keeps_modifyDevice _) fd

variable {c c' : Config κ} {act : Action}

/-- A step goes along with the tallies if what is quiet does. -/
theorem Step.tallies (h : Step c act c')
    (hquiet : act = .other → Quiet c.machine c'.machine → Tallies c.machine c'.machine) :
    Tallies c.machine c'.machine := by
  cases h with
  | quiet h => exact hquiet rfl h
  | reference he => exact (tallies_reference _).ok he
  | revive _ _ _ he => exact (tallies_revive _).ok he
  | unreference _ _ he => exact (tallies_unreference _).ok he
  | release _ _ he => exact (tallies_unreference _).ok he
  | enter _ _ _ _ _ _ _ _ he => exact (tallies_addBuffer _).ok he
  | abandon _ he => exact (keeps_freeHandle _).ok he
  | reuse he => exact (tallies_reuse _ _).ok he
  | wrap he => exact (tallies_wrapRegion _ _ _ _).ok he
  | handOut he => exact (tallies_handOut _).ok he
  | evictStale he => exact (keeps_evictOld tallies_evict).ok he
  | evictAll he => exact (keeps_evictBuckets tallies_evict _).ok he
  | await he => exact (keeps_callbackAll _).ok he
  | attach he => exact (keeps_attachStream _).ok he
  | submit _ he => exact (keeps_submitSlot _ _).ok he
  | advance he => exact (keeps_advanceSlot _ _).ok he
  | update he => exact (keeps_takeCallbacks _ _).ok he
  | terminate _ he => exact (keeps_clearSlot _).ok he
  | fire he => exact (tallies_runCallback _).ok he
  | collect _ _ he => exact (keeps_collect tallies_useBuffer _ _).ok he

/-- So does a step on a device of any kind. -/
theorem ShelfStep.tallies (h : ShelfStep c act c') (hc : c.progress.generation = .csf ∨ c.machine.Calm)
    (hquiet : act = .other → Quiet c.machine c'.machine → Tallies c.machine c'.machine) :
    Tallies c.machine c'.machine := by
  cases h with
  | stream _ h => exact h.tallies hquiet
  | job _ _ h => exact h.tallies hquiet
  | @submit m m' held va requirements o handles r _ he hr =>
    have hkeeps : Keeps (Tallies (κ := κ)) (Device.submitJob va requirements o handles) :=
      keeps_submitJob keeps_retireAtom (fun number slot => keeps_markAtom number slot handles) va requirements o
    exact (hkeeps m).survives he hr
  | event hjob he => exact handleJobEvent_keeps keeps_retireAtom (hc.resolve_left hjob).links he

/-! ## Sizes -/

/-- A kernel that makes no empty mapping, and measures files in words. -/
structure Measured (κ : Type) [Kernel κ] : Prop where
  mapped : ∀ (k : κ) (fd : Int) (offset length : Int64) (prot flags : Int) (addr : UInt64),
    (Kernel.call k (.mmap fd offset length prot flags)).1.result = .ok addr → 0 < length
  sought : ∀ (k : κ) (fd offset whence size : Int),
    (Kernel.call k (.seek fd offset whence)).1.result = .ok size → size < 2 ^ 63

variable {m m' : Machine κ} (hk : Measured κ)
include hk

theorem mapRegion_length {va : UInt64} {length : Int64} {what title : String} {p : Mapping}
    (he : (Device.mapRegion va length what title).exec m = (.ok p, m')) : 0 < length := by
  unfold Device.mapRegion at he
  obtain ⟨r, m₁, hmap, he⟩ := bind_ok he
  unfold Device.mapShared mapMemory at hmap
  rw [exec_bind_of_ok (exec_device m), exec_bind_of_ok (exec_call _ m)] at hmap
  split at hmap
  · rename_i hanswer
    exact hk.mapped _ _ _ _ _ _ _ hanswer
  · cases hmap
    obtain ⟨_, _, -, he⟩ := bind_ok he
    obtain ⟨_, _, -, he⟩ := bind_ok he
    cases he

/-- Only a region with a size can be made, since all of it is mapped. -/
theorem alloc_size {size : Int64} {wish : UInt32} {flags : UInt64} {region : Region}
    (he : (Device.alloc size wish flags).exec m = (.ok region, m')) : 0 < size := by
  unfold Device.alloc at he
  obtain ⟨_, m₁, -, he⟩ := bind_ok he
  obtain ⟨d, m₂, -, he⟩ := bind_ok he
  obtain ⟨reply, m₃, -, he⟩ := bind_ok he
  have hrest {m₃ : Machine κ} (he : (do
      let cpu ← Device.mapRegion reply.va
        (Region.planned d.generation d.options.pageSize size wish flags).mapLength "GPU BO" "GPU BO"
      let gpu := if reply.flags &&& MemFlag.sameVa != 0 then cpu.address else reply.va
      if (Region.planned d.generation d.options.pageSize size wish flags).alignExecutable then
        let gpu := alignUp64 gpu Region.executableAlignment
        let cpu ← Device.mapRegion gpu size "GPU exec BO" "GPU EXEC BO"
        Device.reportAllocated gpu size
        return ⟨cpu, gpu⟩
      else
        Device.reportAllocated gpu size
        return ⟨cpu, gpu⟩ : Op κ Region).exec m₃ = (.ok region, m')) : 0 < size := by
    obtain ⟨cpu, m₄, hmap, he⟩ := bind_ok he
    dsimp only at he
    split at he
    · obtain ⟨_, _, hexec, -⟩ := bind_ok he
      exact mapRegion_length hk hexec
    · rename_i halign
      have hlength : (Region.planned d.generation d.options.pageSize size wish flags).mapLength = size := by
        unfold Region.planned at halign ⊢
        dsimp only at halign ⊢
        split
        · rfl
        · split
          · rename_i hdata hold
            rw [if_neg hdata, if_pos hold] at halign
            exact absurd rfl halign
          · rfl
      rw [hlength] at hmap
      exact mapRegion_length hk hmap
  dsimp only at he
  split at he
  · obtain ⟨_, _, -, he⟩ := bind_ok he
    obtain ⟨_, _, hfail, -⟩ := bind_ok he
    cases hfail
  · exact hrest he

theorem importedBuffer_size {fd : Int} {handle : Nat} {h : Handle} {b : Buffer}
    (he : (Allocator.importedBuffer fd handle h).exec m = (.ok b, m')) : 0 < b.size := by
  unfold Allocator.importedBuffer at he
  obtain ⟨size, m₁, hfile, he⟩ := bind_ok he
  have hword {n : Int} (hlt : n < 2 ^ 63) (hpos : ¬n ≤ 0) : 0 < Int64.ofInt n := by
    rw [Int64.lt_iff_toInt_lt, Int64.toInt_ofInt_of_le (by omega) (by omega), Int64.toInt_zero]
    omega
  have hsize : 0 < Int64.ofInt size := by
    unfold Allocator.fileSize at hfile
    rw [exec_bind_of_ok (exec_call _ m)] at hfile
    split at hfile
    · cases hfile
    · rename_i hanswer
      split at hfile
      · cases hfile
      · rename_i hpos
        cases hfile
        exact hword (hk.sought _ _ _ _ _ hanswer) hpos
  dsimp only at he
  split at he
  · cases he
    exact hsize
  · obtain ⟨_, _, -, he⟩ := bind_ok he
    cases he
    exact hsize

omit hk [Kernel κ] in
/-- The size of a new buffer is that of its region. -/
theorem wrapRegion_sizes {region : Region} {size : Int64} {flags : UInt32} {label : String} {x : Nat}
    (he : (Allocator.wrapRegion region size flags label).exec m = (.ok x, m')) :
    m'.kernel = m.kernel ∧
      m'.allocator.buffers.map (·.size) = m.allocator.buffers.map (·.size) ++ [size] := by
  unfold Allocator.wrapRegion at he
  obtain ⟨_, m₁, ha, he⟩ := bind_ok he
  cases ha
  obtain ⟨handle, m₂, halloc, he⟩ := bind_ok he
  obtain ⟨-, rfl⟩ := allocHandle_ok halloc
  cases he
  exact ⟨rfl, List.map_append⟩

omit hk in
/-- A region is made, then it becomes a buffer, then it is counted. -/
theorem allocate_ok {size : Int64} {flags : UInt32} {label : String} {x : Nat}
    (he : (Allocator.allocate size flags label).exec m = (.ok x, m')) :
    ∃ wish memFlags region m₁ m₂, (Device.alloc size wish memFlags).exec m = (.ok region, m₁) ∧
      (Allocator.wrapRegion region size flags label).exec m₁ = (.ok x, m₂) ∧
      m' = { m₂ with allocator := { m₂.allocator with allocations := m₂.allocator.allocations + 1 } } := by
  obtain ⟨_, _, ⟨_, -, h⟩ | ⟨region, y, m₁, m₂, halloc, hwrap, hcount, h⟩⟩ := allocate_survives he trivial
  · cases h
  · cases h
    cases hcount
    exact ⟨_, _, region, m₁, m₂, halloc, hwrap, rfl⟩

omit hk in
/-- The file of a new import is measured and mapped, then it becomes a buffer. -/
theorem wrapImport_ok {fd : Int} {handle x : Nat}
    (he : (Allocator.wrapImport fd handle).exec m = (.ok x, m')) :
    ∃ b m₁, (Allocator.importedBuffer fd handle (m.device.handles.get handle)).exec m = (.ok b, m₁) ∧
      (Allocator.addBuffer b).exec m₁ = (.ok x, m') := by
  unfold Allocator.wrapImport at he
  rw [exec_bind_of_ok (exec_device m)] at he
  obtain ⟨r, m₁, himported, he⟩ := bind_ok he
  cases r with
  | ok b => exact ⟨b, m₁, attempt_ok himported, he⟩
  | error f =>
    obtain ⟨_, _, -, he⟩ := bind_ok he
    cases he

/-! ## Runs of trades -/

/-- What a step is, as far as counts are concerned. -/
inductive Trade where
  | step (act : Action)
  /-- A region is allocated for a new buffer. -/
  | allocate
  /-- A file that no known buffer stands for becomes a buffer. -/
  | wrapImport
  deriving DecidableEq

omit hk in
/-- Whole allocations and imports, and steps that make no buffer. -/
inductive StockStep : Config κ → Trade → Config κ → Prop
  | shelf {c c' : Config κ} {act : Action} (h : ShelfStep c act c') (ho : Orderly c act c')
    (hsame : c'.machine.allocator.buffers.length = c.machine.allocator.buffers.length)
    (hquiet : act = .other → Quiet c.machine c'.machine → Tallies c.machine c'.machine) :
    StockStep c (.step act) c'
  | allocate {m m' : Machine κ} {size : Int64} {flags : UInt32} {label : String} {x : Nat}
    (hclock : Kernel.now m.kernel ≤ Kernel.now m'.kernel)
    (he : (Allocator.allocate size flags label).exec m = (.ok x, m')) :
    StockStep ⟨m, [], none⟩ .allocate ⟨m', [], some x⟩
  | wrapImport {m m' : Machine κ} {fd d : Int} {handle x : Nat} (hfree : m.allocator.lookup? handle = none)
    (howns : m.Owns handle d) (hclock : Kernel.now m.kernel ≤ Kernel.now m'.kernel)
    (he : (Allocator.wrapImport fd handle).exec m = (.ok x, m')) :
    StockStep ⟨m, [], none⟩ .wrapImport ⟨m', [], none⟩

omit hk in
/-- Steps one after the other, with what each is. -/
inductive StockRun : Config κ → List (Config κ × Trade) → Config κ → Prop
  | nil (c : Config κ) : StockRun c [] c
  | cons {c c₁ c' : Config κ} {t : Trade} {es : List (Config κ × Trade)} (hs : StockStep c t c₁)
    (hr : StockRun c₁ es c') : StockRun c ((c, t) :: es) c'

omit hk in
theorem StockRun.head_mem {c c' : Config κ} {es : List (Config κ × Trade)} (h : StockRun c es c') :
    c ∈ es.map (·.1) ++ [c'] := by
  cases h with
  | nil => exact List.mem_singleton_self _
  | cons => exact List.mem_cons_self

/-- Everything is in order, and the counts are right after a number of new imports. -/
structure Config.Stocked (c : Config κ) (wraps : Nat) : Prop where
  inOrder : c.InOrder
  started : c.machine.allocator.started = true
  keys : (c.machine.allocator.arena.map (·.1)).Nodup
  sizes : ∀ size ∈ c.machine.allocator.buffers.map (·.size), 0 < size
  made : c.machine.allocator.allocations + wraps = c.machine.allocator.buffers.length
  evictions : c.machine.allocator.evictions ≤ c.machine.allocator.frees

omit hk [Kernel κ] in
/-- What leaves the accounts and the slots alone leaves the counts where they are. -/
theorem Quiet.bounded {held : Option Nat} (h : Quiet m m') (hm : (⟨m, [], held⟩ : Config κ).Bounded) :
    (⟨m', [], held⟩ : Config κ).Bounded where
  waiting x := by
    have := hm.waiting x
    rwa [Config.waiting, Machine.waiting, show m'.progress = m.progress from h.progress]
  refs x a ha := by
    refine hm.refs x a ?_
    rwa [Config.account?, ← show m'.storage = m.storage from h.storage]

omit hk in
theorem Quiet.inOrder {held : Option Nat} (h : Quiet m m') (hcards : SameCards m m') (hrules : Lawful m m')
    (hclock : Kernel.now m.kernel ≤ Kernel.now m'.kernel) (hbounded : (⟨m, [], held⟩ : Config κ).Bounded)
    (hmax : m'.progress.streams.length ≤ slotCount) (hm : (⟨m, [], held⟩ : Config κ).InOrder) :
    (⟨m', [], held⟩ : Config κ).InOrder :=
  (ShelfStep.of_plain (.quiet h) (.inl rfl)).inOrder ⟨hclock, fun _ _ _ => hcards, fun _ _ => hrules, nofun⟩ hmax
    (fun x => Nat.lt_trans (hbounded.waiting x) (by decide)) (h.bounded hbounded).refs hm

/-- A whole allocation counts what it makes. -/
theorem Config.Stocked.allocate {size : Int64} {flags : UInt32} {label : String} {x wraps : Nat}
    (h : (⟨m, [], none⟩ : Config κ).Stocked wraps) (hclock : Kernel.now m.kernel ≤ Kernel.now m'.kernel)
    (he : (Allocator.allocate size flags label).exec m = (.ok x, m'))
    (hmax : m'.progress.streams.length ≤ slotCount) (hbounded : (⟨m, [], none⟩ : Config κ).Bounded)
    (hbounded' : (⟨m', [], some x⟩ : Config κ).Bounded) : (⟨m', [], some x⟩ : Config κ).Stocked wraps := by
  obtain ⟨wish, memFlags, region, m₁, m₂, halloc, hwrap, rfl⟩ := allocate_ok he
  obtain ⟨hkernel, hsizes⟩ := wrapRegion_sizes hwrap
  have hquiet : Quiet m m₁ := (keeps_alloc _ _ _).ok halloc
  have htallies₁ : Tallies m m₁ := (keeps_alloc _ _ _).ok halloc
  have htallies : Tallies m m₂ := htallies₁.trans ((tallies_wrapRegion _ _ _ _).ok hwrap)
  have hsame : m₁.allocator = m.allocator := (keeps_alloc (R := SameAllocator) _ _ _).ok halloc
  have hstep : Step ⟨m₁, [], none⟩ .other ⟨m₂, [], some x⟩ := .wrap hwrap
  have hcount : Quiet m₂ { m₂ with allocator := { m₂.allocator with allocations := m₂.allocator.allocations + 1 } } :=
    ⟨.of_eq rfl rfl, rfl, fun _ _ ho => ho⟩
  have hbounded₁ := hquiet.bounded hbounded
  have hbounded₂ : (⟨m₂, [], some x⟩ : Config κ).Bounded := ⟨hbounded'.waiting, hbounded'.refs⟩
  have hmax₁ : m₁.progress.streams.length ≤ slotCount := by
    have hlength := hstep.length_streams
    rw [if_neg (by decide)] at hlength
    exact hlength.symm.trans_le hmax
  have h₁ := hquiet.inOrder ((keeps_alloc _ _ _).ok halloc) ((keeps_alloc _ _ _).ok halloc)
    (hkernel ▸ hclock) hbounded hmax₁ h.inOrder
  have h₂ : (⟨m₂, [], some x⟩ : Config κ).InOrder :=
    (ShelfStep.of_plain hstep (.inl rfl)).inOrder ⟨by rw [hkernel], fun _ _ _ => (cards_wrapRegion _ _ _ _).ok hwrap,
      fun _ _ => (keeps_wrapRegion (fun va => lawful_allocHandle va (by decide)) _ _ _ _).ok hwrap, nofun⟩ hmax
      (fun y => Nat.lt_trans (hbounded₁.waiting y) (by decide)) hbounded₂.refs h₁
  refine ⟨hcount.inOrder (.of_buffers rfl rfl) (.of_table rfl) (Nat.le_refl _) hbounded₂ hmax h₂,
    htallies.started.trans h.started, htallies.keys h.keys, ?_, ?_, ?_⟩
  · intro s hs
    rw [hsame] at hsizes
    have hs : s ∈ m₂.allocator.buffers.map (·.size) := hs
    rw [hsizes, List.mem_append, List.mem_singleton] at hs
    rcases hs with hs | rfl
    · exact h.sizes s hs
    · exact alloc_size hk halloc
  · have hlength := congrArg List.length hsizes
    rw [List.length_map, List.length_append, List.length_map, hsame] at hlength
    have hmade : m.allocator.allocations + wraps = m.allocator.buffers.length := h.made
    show m₂.allocator.allocations + 1 + wraps = m₂.allocator.buffers.length
    rw [htallies.allocations, hlength, ← hmade, List.length_singleton]
    omega
  · have hevictions := htallies.evictions
    have hless : m.allocator.evictions ≤ m.allocator.frees := h.evictions
    show m₂.allocator.evictions ≤ m₂.allocator.frees
    omega

/-- So does a new import, which is none of the allocations. -/
theorem Config.Stocked.wrapImport {fd d : Int} {handle x wraps : Nat}
    (h : (⟨m, [], none⟩ : Config κ).Stocked wraps) (hfree : m.allocator.lookup? handle = none)
    (howns : m.Owns handle d) (hclock : Kernel.now m.kernel ≤ Kernel.now m'.kernel)
    (he : (Allocator.wrapImport fd handle).exec m = (.ok x, m'))
    (hmax : m'.progress.streams.length ≤ slotCount) (hbounded : (⟨m, [], none⟩ : Config κ).Bounded)
    (hbounded' : (⟨m', [], none⟩ : Config κ).Bounded) :
    (⟨m', [], none⟩ : Config κ).Stocked (wraps + 1) := by
  obtain ⟨b, m₁, himported, hadd⟩ := wrapImport_ok he
  have hsize := importedBuffer_size hk himported
  obtain ⟨-, p, size, freeRegion, -, hb⟩ := importedBuffer_ok himported
  have hquiet : Quiet m m₁ := (keeps_importedBuffer _ _ _).ok himported
  have htallies₁ : Tallies m m₁ := (keeps_importedBuffer _ _ _).ok himported
  have htallies : Tallies m m' := htallies₁.trans ((tallies_addBuffer _).ok hadd)
  have hsame : m₁.allocator = m.allocator := (keeps_importedBuffer (R := SameAllocator) _ _ _).ok himported
  have hdevice : SameDevice m m₁ := (keeps_importedBuffer _ _ _).ok himported
  have hstep : Step ⟨m₁, [], none⟩ .other ⟨m', [], none⟩ := by
    refine .enter ?_ (show m₁.Owns b.handle d from ?_) ?_ ?_ ?_ ?_ ?_ ?_ hadd
    · rw [hsame, hb]
      exact hfree
    · rw [Machine.Owns, show m₁.device = m.device from hdevice, hb]
      exact howns
    all_goals rw [hb]
    · show hasFlag BufferFlag.shared BufferFlag.shared = true
      decide
  have hkernel : m'.kernel = m₁.kernel := by
    cases hadd
    rfl
  have hsizes : m'.allocator.buffers.map (·.size) = m.allocator.buffers.map (·.size) ++ [b.size] := by
    cases hadd
    rw [← hsame]
    exact List.map_append
  have hmax₁ : m₁.progress.streams.length ≤ slotCount := by
    have hlength := hstep.length_streams
    rw [if_neg (by decide)] at hlength
    exact hlength.symm.trans_le hmax
  have hbounded₁ := hquiet.bounded hbounded
  have h₁ := hquiet.inOrder ((keeps_importedBuffer _ _ _).ok himported) ((keeps_importedBuffer _ _ _).ok himported)
    (hkernel ▸ hclock) hbounded hmax₁ h.inOrder
  refine ⟨(ShelfStep.of_plain hstep (.inl rfl)).inOrder ⟨by rw [hkernel], fun _ _ _ => ?_, fun _ _ => ?_, nofun⟩ hmax
    (fun y => Nat.lt_trans (hbounded₁.waiting y) (by decide)) hbounded'.refs h₁,
    htallies.started.trans h.started, htallies.keys h.keys, ?_, ?_, ?_⟩
  · exact (cards_addBuffer (by rw [hb])).ok hadd
  · exact (keeps_addBuffer b).ok hadd
  · intro s hs
    rw [hsizes, List.mem_append, List.mem_singleton] at hs
    rcases hs with hs | rfl
    · exact h.sizes s hs
    · exact hsize
  · have hlength := congrArg List.length hsizes
    rw [List.length_map, List.length_append, List.length_map, List.length_singleton] at hlength
    have hmade : m.allocator.allocations + wraps = m.allocator.buffers.length := h.made
    show m'.allocator.allocations + (wraps + 1) = m'.allocator.buffers.length
    rw [htallies.allocations, hlength, ← hmade]
    omega
  · have hevictions := htallies.evictions
    have hless : m.allocator.evictions ≤ m.allocator.frees := h.evictions
    show m'.allocator.evictions ≤ m'.allocator.frees
    omega

omit hk in
/-- The other steps make no buffer and count no allocation. -/
theorem Config.Stocked.shelf {c c' : Config κ} {act : Action} {wraps : Nat} (h : c.Stocked wraps)
    (hstep : ShelfStep c act c') (ho : Orderly c act c')
    (hsame : c'.machine.allocator.buffers.length = c.machine.allocator.buffers.length)
    (hquiet : act = .other → Quiet c.machine c'.machine → Tallies c.machine c'.machine)
    (hmax : c'.progress.streams.length ≤ slotCount) (hbounded : c.Bounded) (hbounded' : c'.Bounded) :
    c'.Stocked wraps := by
  have htallies := hstep.tallies (h.inOrder.device.imp_left (·.1)) hquiet
  have hsizes : c.machine.allocator.buffers.map (·.size) = c'.machine.allocator.buffers.map (·.size) :=
    htallies.sizes.eq_of_length (by rw [List.length_map, List.length_map, hsame])
  refine ⟨hstep.inOrder ho hmax (fun x => Nat.lt_trans (hbounded.waiting x) (by decide)) hbounded'.refs h.inOrder,
    htallies.started.trans h.started, htallies.keys h.keys, hsizes ▸ h.sizes, ?_, ?_⟩
  · rw [htallies.allocations, hsame]
    exact h.made
  · have hevictions := htallies.evictions
    have hless := h.evictions
    omega

/-- The new imports of a run. -/
def wrapsOf (es : List (Config κ × Trade)) : Nat := es.countP (·.2 = .wrapImport)

omit hk [Kernel κ] in
theorem wrapsOf_cons (c : Config κ) (t : Trade) (es : List (Config κ × Trade)) :
    wrapsOf ((c, t) :: es) = wrapsOf es + if t = .wrapImport then 1 else 0 := by
  rw [wrapsOf, List.countP_cons]
  simp [wrapsOf]

/-- By induction on the run. -/
theorem StockRun.stocked {c c' : Config κ} {es : List (Config κ × Trade)} {wraps : Nat} (h : StockRun c es c')
    (hmax : ∀ d ∈ es.map (·.1) ++ [c'], d.progress.streams.length ≤ slotCount)
    (hbounded : ∀ d ∈ es.map (·.1) ++ [c'], d.Bounded) (hc : c.Stocked wraps) :
    c'.Stocked (wraps + wrapsOf es) := by
  induction h generalizing wraps with
  | nil => exact hc
  | @cons c c₁ c' t es hs hr ih =>
    have hhead := hr.head_mem
    have hmax₁ := hmax c₁ (List.mem_cons_of_mem _ hhead)
    have hbounded₀ := hbounded c List.mem_cons_self
    have hbounded₁ := hbounded c₁ (List.mem_cons_of_mem _ hhead)
    have hrest {n : Nat} (h₁ : c₁.Stocked n) : c'.Stocked (n + wrapsOf es) :=
      ih (fun d hd => hmax d (List.mem_cons_of_mem _ hd)) (fun d hd => hbounded d (List.mem_cons_of_mem _ hd)) h₁
    rw [wrapsOf_cons]
    cases hs with
    | shelf h ho hsame hquiet => exact hrest (hc.shelf h ho hsame hquiet hmax₁ hbounded₀ hbounded₁)
    | allocate hclock he => exact hrest (hc.allocate hk hclock he hmax₁ hbounded₀ hbounded₁)
    | wrapImport hfree howns hclock he =>
      have h := hrest (hc.wrapImport hk hfree howns hclock he hmax₁ hbounded₀ hbounded₁)
      rwa [Nat.add_assoc, Nat.add_comm 1] at h

omit hk in
/-- The counts are right at the start. -/
theorem Vacant.stocked (h : Vacant m) (hrules : m.device.handles.check = none)
    (hstarted : m.allocator.started = true) (hallocations : m.allocator.allocations = 0)
    (hevictions : m.allocator.evictions = 0) : (⟨m, [], none⟩ : Config κ).Stocked 0 := by
  have hbuffers : m.allocator.buffers = [] := List.map_eq_nil_iff.mp h.accounts
  have harena : m.allocator.arena = [] := h.arena
  constructor
  case inOrder => exact h.inOrder hrules
  case started => exact hstarted
  case keys =>
    show (m.allocator.arena.map (·.1)).Nodup
    rw [harena]
    exact List.nodup_nil
  case sizes =>
    intro size hsize
    have hsize : size ∈ m.allocator.buffers.map (·.size) := hsize
    rw [hbuffers] at hsize
    cases hsize
  case made =>
    show m.allocator.allocations + 0 = m.allocator.buffers.length
    rw [hallocations, hbuffers]
    rfl
  case evictions =>
    show m.allocator.evictions ≤ m.allocator.frees
    rw [hevictions]
    exact Nat.zero_le _

/-- After any run on at most 256 streams the statistics are those of the buffers that are not freed.  What the
summary says of the size classes adds up to what is cached, and every buffer was allocated or newly imported. -/
theorem StockRun.statistics_exact {es : List (Config κ × Trade)} (hm : Vacant m)
    (hrules : m.device.handles.check = none) (hstarted : m.allocator.started = true)
    (hallocations : m.allocator.allocations = 0) (hevictions : m.allocator.evictions = 0)
    (hrun : StockRun ⟨m, [], none⟩ es ⟨m', [], none⟩)
    (hmax : ∀ d ∈ es.map (·.1) ++ [⟨m', [], none⟩], d.progress.streams.length ≤ slotCount)
    (hbounded : ∀ d ∈ es.map (·.1) ++ [⟨m', [], none⟩], d.Bounded) (detailed : Bool) :
    let a := m'.allocator
    let live := a.buffers.filter (!·.freed)
    let shown := a.summary detailed
    a.statistics.buffers = Int64.ofNat live.length ∧
    a.statistics.bytes = Int64.ofInt (sizes live).sum ∧
    a.statistics.cached = Int64.ofNat a.cache.recency.length ∧
    (shown.column "Count").sum = a.cache.recency.length ∧
    a.statistics.cachedBytes = Int64.ofInt (shown.column "Bytes").sum ∧
    (live ≠ [] →
      (∃ b ∈ live, a.statistics.sizeMin = b.size) ∧ (∃ b ∈ live, a.statistics.sizeMax = b.size) ∧
      ∀ b ∈ live, a.statistics.sizeMin ≤ b.size ∧ b.size ≤ a.statistics.sizeMax) ∧
    (Allocator.summaryText detailed).exec m' = (.ok shown.render, m') ∧
    a.allocations + wrapsOf es = a.frees + live.length ∧
    a.evictions ≤ a.frees := by
  have h := hrun.stocked hk hmax hbounded (hm.stocked hrules hstarted hallocations hevictions)
  rw [Nat.zero_add] at h
  have hbooks : m'.Books [] none := h.inOrder.books
  have haged : m'.allocator.Aged m'.seconds := h.inOrder.aged
  obtain ⟨hbuffers, hbytes, hcached, hcachedBytes⟩ := hbooks.statistics_live h.keys
  obtain ⟨htext, hcount, hcolumn⟩ := hbooks.summary_exact haged h.started detailed
  refine ⟨hbuffers, hbytes, ?_, ?_, ?_, fun hlive => ?_, htext, ?_, h.evictions⟩
  · rw [haged.length_recency]
    exact hcached
  · rw [haged.length_recency]
    exact hcount
  · rw [hcachedBytes, hcolumn]
  · exact hbooks.extremes_exact h.keys (fun b hb => h.sizes _ (List.mem_map_of_mem hb)) hlive
  · have hmade : m'.allocator.allocations + wrapsOf es = m'.allocator.buffers.length := h.made
    have hfrees : m'.allocator.frees = m'.allocator.buffers.countP (·.freed) := by
      have hfrees : m'.allocator.frees = (m'.allocator.buffers.map Buffer.account).countP (·.freed) := hbooks.frees
      rw [hfrees, List.countP_map]
      rfl
    show m'.allocator.allocations + wrapsOf es = m'.allocator.frees + (m'.allocator.buffers.filter (!·.freed)).length
    rw [hmade, hfrees, ← List.countP_eq_length_filter]
    rw [List.length_eq_countP_add_countP (·.freed)]
    simp

/-! ## A run on a job manager device -/

omit hk in
/-- Trades leave a job manager device calm. -/
theorem StockStep.calm {c c' : Config κ} {t : Trade} (h : StockStep c t c') (hm : c.machine.Calm) :
    c'.machine.Calm := by
  cases h with
  | shelf h => exact h.calm hm
  | allocate _ he =>
    obtain ⟨wish, memFlags, region, m₁, m₂, halloc, hwrap, rfl⟩ := allocate_ok he
    have hquiet : Quiet _ m₁ := (keeps_alloc _ _ _).ok halloc
    obtain ⟨_, -, -, -, hopens⟩ := wrapRegion_ok hwrap
    exact hm.of_progress (hopens.progress.trans hquiet.progress)
  | wrapImport _ _ _ he =>
    obtain ⟨b, m₁, himported, hadd⟩ := wrapImport_ok he
    have hquiet : Quiet _ m₁ := (keeps_importedBuffer _ _ _).ok himported
    exact hm.of_progress ((addBuffer_ok hadd).2.progress.trans hquiet.progress)

omit hk in
/-- By induction on the run. -/
theorem StockRun.calm {c c' : Config κ} {es : List (Config κ × Trade)} (h : StockRun c es c')
    (hm : c.machine.Calm) : ∀ d ∈ es.map (·.1) ++ [c'], d.machine.Calm := by
  induction h with
  | nil => simpa using hm
  | cons hs _ ih =>
    rw [List.map_cons, List.cons_append]
    exact List.forall_mem_cons.mpr ⟨hm, ih (hs.calm hm)⟩

omit hk [Kernel κ] in
/-- Nothing waits on a calm device. -/
theorem Machine.Calm.bounded {c : Config κ} (hm : c.machine.Calm) (hready : c.ready = [])
    (hrefs : ∀ a ∈ c.machine.storage.accounts, a.refs ≠ Int32.minValue) : c.Bounded where
  waiting x := by
    rw [Config.waiting, Machine.waiting, hm.links.waiting, hready]
    show 0 + 0 < 2 ^ 31
    decide
  refs _ _ ha := hrefs _ (List.mem_of_getElem? ha)

end Kernel

/-- A kernel with one file behind descriptors, that has room for what is asked for. -/
inductive Depot where
  | open

instance : Kernel Depot where
  call k
    | .ioctl _ (.memAlloc _) => ({ result := .ok ⟨MemFlag.sameVa, 0x41000⟩ }, k)
    | .ioctl _ (.memImport _) => ({ result := .ok ⟨MemFlag.needMmap, 0x42000, 2⟩ }, k)
    | .mmap _ offset length _ _ =>
      ({ result := if 0 < length then .ok offset.toUInt64 else .error .inval }, k)
    | .dup _ => ({ result := .ok 51 }, k)
    | .seek .. => ({ result := .ok 8192 }, k)
    | _ => ({ result := .error .inval }, k)
  now _ := 0
  pageSize _ := 4096
  simulated _ := false

namespace Depot

theorem measured : Measured Depot where
  mapped _ _ _ length _ _ _ h := by
    by_contra hlength
    rw [show (Kernel.call _ (.mmap _ _ length _ _)).1.result =
      (if 0 < length then .ok _ else .error .inval : Except Errno UInt64) from rfl, if_neg hlength] at h
    cases h
  sought _ _ _ _ size h := by
    obtain rfl : 8192 = size := Except.ok.inj h
    decide

/-- A job manager device and an allocator with two size classes. -/
def start : Machine Depot where
  kernel := .open
  device := { generation := .jm, options := { pageSize := 4096 } }
  allocator := { started := true, options := { minBucket := 12, maxBucket := 13 }, cache := .empty 2 }

/-- A page is allocated. -/
def allocated : Machine Depot := ((Allocator.allocate 4096 0 "page").exec start).2

/-- It has its first reference. -/
def handed : Machine Depot := ((Allocator.handOut 0).exec allocated).2

/-- It is cached. -/
def cached : Machine Depot := ((Buffer.unreference 0).exec handed).2

/-- A file has a handle. -/
def filed : Machine Depot := ((Device.importFile 50).exec cached).2

/-- It is a buffer. -/
def wrapped : Machine Depot := ((Allocator.wrapImport 50 1).exec filed).2

def steps : List (Config Depot × Trade) :=
  [(⟨start, [], none⟩, .allocate), (⟨allocated, [], some 0⟩, .step .other), (⟨handed, [], none⟩, .step (.release 0)),
    (⟨cached, [], none⟩, .step .other), (⟨filed, [], none⟩, .wrapImport)]

-- a table of 256 slots is evaluated
set_option maxRecDepth 20000

theorem outcomes :
    ((Allocator.allocate 4096 0 "page").exec start).1.toOption = some 0 ∧
    ((Allocator.handOut 0).exec allocated).1.toOption = some () ∧
    ((Buffer.unreference 0).exec handed).1.toOption = some () ∧
    ((Device.importFile 50).exec cached).1.toOption = some 1 ∧
    ((Allocator.wrapImport 50 1).exec filed).1.toOption = some 1 ∧
    (handed.storage.accounts[0]?).map (·.refs) = some 1 ∧
    filed.allocator.lookup? 1 = none ∧
    ((filed.device.handles.entries[1]?).map (·.fd) == some 51) = true ∧
    filed.device.handles.check = none ∧
    allocated.allocator.buffers.length = 1 ∧ handed.allocator.buffers.length = 1 ∧
    cached.allocator.buffers.length = 1 ∧ filed.allocator.buffers.length = 1 := by
  decide +kernel

theorem totals :
    (wrapped.allocator.buffers.filter (!·.freed)).length = 2 ∧
    (sizes (wrapped.allocator.buffers.filter (!·.freed))).sum = 12288 ∧
    wrapped.allocator.cache.recency.length = 1 ∧
    ((wrapped.allocator.summary false).column "Bytes").sum = 4096 ∧
    wrapsOf steps = 1 := by
  decide +kernel

theorem vacant_start : Vacant start := by
  constructor
  case range => decide
  all_goals rfl

theorem run_wrapped : StockRun ⟨start, [], none⟩ steps ⟨wrapped, [], none⟩ := by
  obtain ⟨hallocate, hhand, hrelease, hfile, hwrap, hrefs, hfree, hfd, hrules, h₁, h₂, h₃, h₄⟩ := outcomes
  have hallocated : (Allocator.allocate 4096 0 "page").exec start = (.ok 0, allocated) := exec_of_value hallocate
  have hhanded : (Allocator.handOut 0).exec allocated = (.ok (), handed) := exec_of_value hhand
  have hcached : (Buffer.unreference 0).exec handed = (.ok (), cached) := exec_of_value hrelease
  have hfiled : (Device.importFile 50).exec cached = (.ok 1, filed) := exec_of_value hfile
  have hwrapped : (Allocator.wrapImport 50 1).exec filed = (.ok 1, wrapped) := exec_of_value hwrap
  obtain ⟨a, ha, hone⟩ := Option.map_eq_some_iff.mp hrefs
  have howns : filed.Owns 1 51 := by
    obtain ⟨h, hh, hfd⟩ := Option.map_eq_some_iff.mp (eq_of_beq hfd)
    exact ⟨h, hh, hfd, by decide⟩
  have hquiet : Quiet cached filed := (quiet_importFile 50).ok hfiled
  have hcalm := vacant_start.csf_or_calm.resolve_left (by decide)
  have hallocates : StockStep ⟨start, [], none⟩ .allocate ⟨allocated, [], some 0⟩ :=
    .allocate (Nat.le_refl _) hallocated
  have hhands : ShelfStep ⟨allocated, [], some 0⟩ .other ⟨handed, [], none⟩ := .of_plain (.handOut hhanded) (.inl rfl)
  have hreleases : ShelfStep ⟨handed, [], none⟩ (.release 0) ⟨cached, [], none⟩ :=
    .of_plain (.release ha hone hcached) (.inr ⟨0, rfl⟩)
  have hfiles : ShelfStep ⟨cached, [], none⟩ .other ⟨filed, [], none⟩ := .of_plain (.quiet hquiet) (.inl rfl)
  have hwraps : StockStep ⟨filed, [], none⟩ .wrapImport ⟨wrapped, [], none⟩ :=
    .wrapImport hfree howns (Nat.le_refl _) hwrapped
  refine .cons hallocates <|
    .cons (.shelf hhands ⟨Nat.le_refl _, fun _ _ _ => ?_, fun _ _ => ?_, nofun⟩ (h₂.trans h₁.symm) fun _ _ => ?_) <|
    .cons (.shelf hreleases ⟨Nat.le_refl _, nofun, nofun, nofun⟩ (h₃.trans h₂.symm) nofun) <|
    .cons (.shelf hfiles ⟨Nat.le_refl _, fun _ _ _ => ?_, fun _ _ => ?_, nofun⟩ (h₄.trans h₃.symm) fun _ _ => ?_) <|
    .cons hwraps (.nil _)
  · exact (cards_handOut 0).ok hhanded
  · exact (keeps_handOut 0).ok hhanded
  · exact (tallies_handOut 0).ok hhanded
  · exact (keeps_importFile 50).ok hfiled
  · exact fun _ => hrules
  · exact (keeps_importFile 50).ok hfiled

theorem bounded_steps : ∀ d ∈ steps.map (·.1) ++ [⟨wrapped, [], none⟩], d.Bounded := by
  have hcalm := run_wrapped.calm (vacant_start.csf_or_calm.resolve_left (by decide))
  have hready : ∀ d ∈ steps.map (·.1) ++ [⟨wrapped, [], none⟩], d.ready = [] := by decide +kernel
  have hrefs : ∀ d ∈ steps.map (·.1) ++ [⟨wrapped, [], none⟩], ∀ a ∈ d.machine.storage.accounts,
    a.refs ≠ Int32.minValue := by decide +kernel
  exact fun d hd => (hcalm d hd).bounded (hready d hd) (hrefs d hd)

theorem max_steps : ∀ d ∈ steps.map (·.1) ++ [⟨wrapped, [], none⟩], d.progress.streams.length ≤ slotCount := by
  decide +kernel

end Depot

/-- A page was allocated and is cached, and a file is a buffer. -/
theorem statistics_exact_sample : Vacant Depot.start ∧
    StockRun ⟨Depot.start, [], none⟩ Depot.steps ⟨Depot.wrapped, [], none⟩ ∧
    Depot.wrapped.allocator.statistics.buffers = 2 ∧ Depot.wrapped.allocator.statistics.bytes = 12288 ∧
    ((Depot.wrapped.allocator.summary false).column "Count").sum = 1 ∧
    Depot.wrapped.allocator.statistics.cachedBytes = 4096 ∧
    Depot.wrapped.allocator.allocations + 1 = Depot.wrapped.allocator.frees + 2 := by
  obtain ⟨hbuffers, hbytes, -, hcount, hcachedBytes, -, -, hmade, -⟩ :=
    StockRun.statistics_exact Depot.measured Depot.vacant_start rfl rfl rfl rfl Depot.run_wrapped Depot.max_steps
      Depot.bounded_steps false
  obtain ⟨hlive, hsizes, hrecency, hcolumn, hwraps⟩ := Depot.totals
  rw [hlive] at hbuffers hmade
  rw [hsizes] at hbytes
  rw [hrecency] at hcount
  rw [hcolumn] at hcachedBytes
  rw [hwraps] at hmade
  exact ⟨Depot.vacant_start, Depot.run_wrapped, hbuffers, hbytes, hcount, hcachedBytes, hmade⟩

end Mali
