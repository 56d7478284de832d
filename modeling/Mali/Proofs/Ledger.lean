import Mali.Allocator.Import
import Mali.Batch.Submit
import Mali.Proofs.Execution

/-!
# What deferred releases depend on

Most of what an operation changes has no bearing on the life of buffers: the log, the memory, the
kernel, syncobjs, contexts, open waits.  What has a bearing is in two records: the `Progress` of the
event slots and the streams bound to them, and the `Storage` of the allocator, with the arena, the
cache, and of every buffer its `Account`.

An operation is quiet if it leaves both alone.  A quiet operation may still give out handles, and may
start batches and add to them.

* `Machine.progress`, `Machine.storage`: the two records of a machine.
* `Quiet`: what quiet operations do.
* `quiet_modifyBuffer` and the like: changes that are quiet, whatever else they do.
-/

namespace Mali

open Op

/-- What the life of a buffer depends on. -/
structure Account where
  handle : Nat
  /-- Whether the buffer was imported. -/
  shared : Bool := false
  refs : Int32 := 0
  gpuRefs : Int32 := 0
  usage : List Usage := []
  cachedIn : Option Nat := none
  freed : Bool := false
  deriving DecidableEq, Repr, Inhabited

/-- The account of a buffer. -/
def Buffer.account (b : Buffer) : Account :=
  { handle := b.handle, shared := b.has BufferFlag.shared, refs := b.refs, gpuRefs := b.gpuRefs
    usage := b.usage, cachedIn := b.cachedIn, freed := b.freed }

/-- The two counts of an account. -/
def Account.counts (a : Account) : Int32 × Int32 := (a.refs, a.gpuRefs)

/-- What a batch has come to: whether it was submitted, and its dependencies. -/
def Batch.standing (b : Batch) : Bool × List Usage × List Usage :=
  (b.submitted, b.vertexDeps, b.fragmentDeps)

/-- Whether a number is that of a live entry with a given descriptor. -/
def HandleTable.Owns (t : HandleTable) (handle : Nat) (fd : Int) : Prop :=
  ∃ h, t.entries[handle]? = some h ∧ h.fd = fd ∧ fd ≠ freedFd

/-- How far the streams of a device have come. -/
structure Progress where
  generation : Generation
  slots : SlotTable
  /-- How many slots are bound. -/
  bound : Nat
  /-- The slot of every stream. -/
  streams : List Nat

/-- Where the buffers of an allocator are. -/
structure Storage where
  accounts : List Account
  arena : List (Nat × Nat)
  cache : BufferCache
  frees : Nat
  options : AllocatorOptions

variable {κ : Type}

/-- The progress of a device. -/
def Device.progress (d : Device) : Progress :=
  { generation := d.generation, slots := d.slots, bound := d.bound
    streams := d.streams.map (·.slot) }

/-- The storage of an allocator. -/
def Allocator.storage (a : Allocator) : Storage :=
  { accounts := a.buffers.map Buffer.account, arena := a.arena, cache := a.cache
    frees := a.frees, options := a.options }

/-- The progress of a machine. -/
def Machine.progress (m : Machine κ) : Progress := m.device.progress

/-- The storage of a machine. -/
def Machine.storage (m : Machine κ) : Storage := m.allocator.storage

/-- The uses recorded on a buffer. -/
def Machine.usage (m : Machine κ) (x : Nat) : List Usage :=
  ((m.storage.accounts[x]?).map (·.usage)).getD []

theorem Machine.usage_of_account {m : Machine κ} {x : Nat} {a : Account}
    (h : m.storage.accounts[x]? = some a) : m.usage x = a.usage := by
  rw [usage, h]
  rfl

/-- Whether a handle of a machine is live, and has a given descriptor. -/
def Machine.Owns (m : Machine κ) (handle : Nat) (fd : Int) : Prop := m.device.handles.Owns handle fd

theorem Machine.Owns.unique {m : Machine κ} {handle : Nat} {fd fd' : Int} (h : m.Owns handle fd)
    (h' : m.Owns handle fd') : fd = fd' := by
  obtain ⟨x, hx, hfd, -⟩ := h
  obtain ⟨y, hy, hfd', -⟩ := h'
  rw [hx] at hy
  cases hy
  exact hfd.symm.trans hfd'

/-- What the batches of a machine have come to. -/
def Machine.standings (m : Machine κ) : List (Bool × List Usage × List Usage) :=
  m.batches.map Batch.standing

/-- The slots stay as they are, and no batch but a new one has another standing. -/
structure Undisturbed (m m' : Machine κ) : Prop where
  progress : m'.progress = m.progress
  standings : ∃ n, m'.standings = m.standings ++ List.replicate n (false, [], [])

namespace Undisturbed

theorem of_eq {m m' : Machine κ} (hp : m'.progress = m.progress) (hb : m'.batches = m.batches) :
    Undisturbed m m' := ⟨hp, 0, by simp [Machine.standings, hb]⟩

theorem trans {m₁ m₂ m₃ : Machine κ} (h₁ : Undisturbed m₁ m₂) (h₂ : Undisturbed m₂ m₃) :
    Undisturbed m₁ m₃ := by
  obtain ⟨n₁, hn₁⟩ := h₁.standings
  obtain ⟨n₂, hn₂⟩ := h₂.standings
  refine ⟨h₂.progress.trans h₁.progress, n₁ + n₂, ?_⟩
  rw [hn₂, hn₁, List.append_assoc, List.replicate_append_replicate]

end Undisturbed

/-- Nothing that the life of buffers depends on changed.  Handles may be given out, but none that is
live goes. -/
structure Quiet (m m' : Machine κ) : Prop extends Undisturbed m m' where
  storage : m'.storage = m.storage
  owns : ∀ h fd, m.Owns h fd → m'.Owns h fd

namespace Quiet

theorem refl (m : Machine κ) : Quiet m m := ⟨.of_eq rfl rfl, rfl, fun _ _ h => h⟩

theorem trans {m₁ m₂ m₃ : Machine κ} (h₁ : Quiet m₁ m₂) (h₂ : Quiet m₂ m₃) : Quiet m₁ m₃ :=
  ⟨h₁.toUndisturbed.trans h₂.toUndisturbed, h₂.storage.trans h₁.storage,
    fun h fd ho => h₂.owns h fd (h₁.owns h fd ho)⟩

/-- A change that touches neither the device, nor the allocator, nor the batches. -/
theorem of_eq {m m' : Machine κ} (hd : m'.device = m.device) (ha : m'.allocator = m.allocator)
    (hb : m'.batches = m.batches) : Quiet m m' := by
  refine ⟨.of_eq (by rw [Machine.progress, hd, Machine.progress]) hb,
    by rw [Machine.storage, ha, Machine.storage], fun h fd ho => ?_⟩
  rwa [Machine.Owns, hd]

instance : Inward (Quiet (κ := κ)) where
  refl := refl
  trans := trans
  of_eq hd ha _ hb := of_eq hd ha hb

end Quiet

/-! ## Quiet changes -/

theorem quiet_modifyDevice {f : Device → Device} (h : ∀ d, (f d).progress = d.progress)
    (ho : ∀ d k fd, d.handles.Owns k fd → (f d).handles.Owns k fd) :
    Keeps (Quiet (κ := κ)) (modifyDevice f) :=
  keeps_modify fun m => ⟨.of_eq (h m.device) rfl, rfl, ho m.device⟩

theorem quiet_modifyAllocator {f : Allocator → Allocator} (h : ∀ a, (f a).storage = a.storage) :
    Keeps (Quiet (κ := κ)) (modifyAllocator f) :=
  keeps_modify fun m => ⟨.of_eq rfl rfl, h m.allocator, fun _ _ ho => ho⟩

/-- Changing an entry in a way that a view does not show. -/
theorem map_modify_eq {α β : Type} (g : α → β) {f : α → α} (h : ∀ a, g (f a) = g a) (l : List α)
    (i : Nat) : (l.modify i f).map g = l.map g := by
  refine List.ext_getElem? fun j => ?_
  rw [List.getElem?_map, List.getElem?_map, List.getElem?_modify]
  split
  · cases l[j]? <;> simp [h]
  · simp

/-- Changing an entry, seen through a view. -/
theorem map_modify_comm {α β : Type} (g : α → β) {f : α → α} {f' : β → β}
    (h : ∀ a, g (f a) = f' (g a)) (l : List α) (i : Nat) :
    (l.modify i f).map g = (l.map g).modify i f' := by
  refine List.ext_getElem? fun j => ?_
  rw [List.getElem?_map, List.getElem?_modify, List.getElem?_modify, List.getElem?_map]
  cases l[j]? <;> simp
  split <;> simp [h]

theorem quiet_modifyBuffer (id : Nat) {f : Buffer → Buffer} (h : ∀ b, (f b).account = b.account) :
    Keeps (Quiet (κ := κ)) (modifyBuffer id f) :=
  quiet_modifyAllocator fun a => by
    rw [Allocator.storage, Allocator.mapBuffer, map_modify_eq _ h, Allocator.storage]

/-- Changing a buffer, seen through its account. -/
theorem Allocator.storage_mapBuffer (a : Allocator) (id : Nat) {f : Buffer → Buffer}
    {g : Account → Account} (h : ∀ b, (f b).account = g b.account) :
    (a.mapBuffer id f).storage = { a.storage with accounts := a.storage.accounts.modify id g } := by
  rw [storage, mapBuffer, map_modify_comm _ h, storage]

theorem Machine.accounts_of_buffer {m : Machine κ} {id : Nat} {b : Buffer}
    (h : m.allocator.buffers[id]? = some b) : m.storage.accounts[id]? = some b.account := by
  show (m.allocator.buffers.map Buffer.account)[id]? = some b.account
  rw [List.getElem?_map, h]
  rfl

theorem Machine.exists_buffer {m : Machine κ} {x : Nat} {a : Account}
    (hx : m.storage.accounts[x]? = some a) : ∃ b, m.allocator.buffers[x]? = some b ∧ b.account = a := by
  have : (m.allocator.buffers.map Buffer.account)[x]? = some a := hx
  rw [List.getElem?_map, Option.map_eq_some_iff] at this
  exact this

theorem quiet_modifyStream (id : Nat) {f : Stream → Stream} (h : ∀ s, (f s).slot = s.slot) :
    Keeps (Quiet (κ := κ)) (Device.modifyStream id f) :=
  quiet_modifyDevice (fun d => by rw [Device.progress, map_modify_eq _ h, Device.progress])
    fun _ _ _ ho => ho

theorem quiet_modifyBatch (id : Nat) {f : Batch → Batch} (h : ∀ b, (f b).standing = b.standing) :
    Keeps (Quiet (κ := κ)) (Batch.modify id f) := by
  intro m _
  refine ⟨⟨rfl, 0, ?_⟩, rfl, fun _ _ ho => ho⟩
  rw [List.replicate_zero, List.append_nil]
  exact map_modify_eq Batch.standing h m.batches id

end Mali
