import Mali.Proofs.CacheRuns
import Mali.Proofs.Lifetimes

/-!
# What operations write to the journal

Lines are written when a buffer is handed out, when its last reference goes, when its release ends, at once or with
the last queue to drain, when it is freed, and when a file is imported.  Every other operation is silent.

* `Line.Describes`: a line names the handle, the address and the size of its buffer.
* `Writes`: the lines that an operation writes, and that no buffer takes another handle, address or size.
* `silent_modifyBuffer`, `silent_uncache` and the like: operations that write none.
* `free_writes`, `handOut_writes`, `startRelease_writes`: those that write one.
-/

namespace Mali

open Op

variable {κ α : Type}

/-! ## Lines that are written -/

/-- What a line of the journal names of a buffer, and whether it was imported. -/
def Buffer.sketch (b : Buffer) : Nat × UInt64 × Int64 × Bool :=
  (b.handle, b.gpu, b.size, b.has BufferFlag.shared)

/-- A line names the handle, the address and the size of its buffer.  Only imports are about none. -/
def Line.Describes (l : Line) (a : Allocator) : Prop :=
  match l.buffer with
  | none => l.event.name = "import"
  | some x => ∃ b, a.buffers[x]? = some b ∧ l.event.name ≠ "import" ∧
    l.event.handle = b.handle ∧ l.event.start = b.gpu ∧ l.event.size = b.size

/-- Lines are written, newest first, and no buffer takes another handle, address or size. -/
structure Writes (ls : List Line) (m m' : Machine κ) : Prop where
  options : m'.allocator.options = m.allocator.options
  sketches : m.allocator.buffers.map Buffer.sketch <+: m'.allocator.buffers.map Buffer.sketch
  journal : m'.allocator.journal = ls.map (·.event) ++ m.allocator.journal
  described : ∀ l ∈ ls, l.Describes m'.allocator

namespace Writes

variable {ls ls' : List Line} {m m₁ m' : Machine κ}

/-- A buffer that was there is there with its sketch. -/
theorem buffer (h : Writes ls m m') {x : Nat} {b : Buffer} (hx : m.allocator.buffers[x]? = some b) :
    ∃ b', m'.allocator.buffers[x]? = some b' ∧ b'.sketch = b.sketch := by
  have hb : (m.allocator.buffers.map Buffer.sketch)[x]? = some b.sketch := by
    rw [List.getElem?_map, hx]
    rfl
  obtain ⟨new, hnew⟩ := h.sketches
  have hb' : (m'.allocator.buffers.map Buffer.sketch)[x]? = some b.sketch := by
    rw [← hnew, List.getElem?_append_left (List.getElem?_eq_some_iff.mp hb).1, hb]
  rwa [List.getElem?_map, Option.map_eq_some_iff] at hb'

/-- Lines go on describing their buffers. -/
theorem describes (h : Writes ls m m') {l : Line} (hl : l.Describes m.allocator) : l.Describes m'.allocator := by
  obtain ⟨_ | x, e⟩ := l
  · exact hl
  · obtain ⟨b, hx, hname, hhandle, hstart, hsize⟩ := hl
    obtain ⟨b', hx', hsketch⟩ := h.buffer hx
    simp only [Buffer.sketch, Prod.mk.injEq] at hsketch
    obtain ⟨hh, hg, hs, -⟩ := hsketch
    exact ⟨b', hx', hname, hhandle.trans hh.symm, hstart.trans hg.symm, hsize.trans hs.symm⟩

theorem trans (h : Writes ls m m₁) (h' : Writes ls' m₁ m') : Writes (ls' ++ ls) m m' where
  options := h'.options.trans h.options
  sketches := h.sketches.trans h'.sketches
  journal := by rw [h'.journal, h.journal, List.map_append, List.append_assoc]
  described l hl := by
    rcases List.mem_append.mp hl with hl | hl
    · exact h'.described l hl
    · exact h'.describes (h.described l hl)

theorem then_silent (h : Writes ls m m₁) (h' : Writes [] m₁ m') : Writes ls m m' := h.trans h'

theorem of_allocator (h : m'.allocator = m.allocator) : Writes [] m m' :=
  ⟨by rw [h], h ▸ List.prefix_refl _, by rw [h]; rfl, nofun⟩

instance : OfAllocator (Writes (κ := κ) []) where
  refl _ := of_allocator rfl
  trans := trans
  of_allocator := of_allocator

end Writes

theorem silent_modifyAllocator {f : Allocator → Allocator} (hoptions : ∀ a, (f a).options = a.options)
    (hsketches : ∀ a, (f a).buffers.map Buffer.sketch = a.buffers.map Buffer.sketch)
    (hjournal : ∀ a, (f a).journal = a.journal) : Keeps (Writes (κ := κ) []) (modifyAllocator f) :=
  keeps_modify fun m => ⟨hoptions _, hsketches m.allocator ▸ List.prefix_refl _, hjournal _, nofun⟩

theorem silent_modifyBuffer (x : Nat) {f : Buffer → Buffer} (hf : ∀ b, (f b).sketch = b.sketch) :
    Keeps (Writes (κ := κ) []) (modifyBuffer x f) :=
  silent_modifyAllocator (fun _ => rfl) (fun a => map_modify_eq Buffer.sketch hf a.buffers x) fun _ => rfl

/-- A line about a buffer. -/
theorem write_writes {name : String} {x : Nat} {b : Buffer} {fd : Int} {m m' : Machine κ} {u : Unit}
    (hj : m.allocator.options.events = .journal) (hx : m.allocator.buffers[x]? = some b) (hname : name ≠ "import")
    (he : (Allocator.write name b fd).exec m = (.ok u, m')) :
    ∃ e, e.name = name ∧ Writes [⟨some x, e⟩] m m' := by
  unfold Allocator.write at he
  rw [exec_bind_of_ok (exec_allocator m), hj] at he
  cases he
  refine ⟨_, rfl, rfl, List.prefix_refl _, rfl, fun l hl => ?_⟩
  obtain rfl := List.mem_singleton.mp hl
  exact ⟨b, hx, hname, rfl, rfl, rfl⟩

theorem writeHandle_writes {name : String} {x : Nat} {b : Buffer} {m m' : Machine κ} {u : Unit}
    (hj : m.allocator.options.events = .journal) (hx : m.allocator.buffers[x]? = some b) (hname : name ≠ "import")
    (he : (Allocator.writeHandle name b).exec m = (.ok u, m')) :
    ∃ e, e.name = name ∧ Writes [⟨some x, e⟩] m m' := by
  unfold Allocator.writeHandle at he
  obtain ⟨fd, m₁, hfd, he⟩ := bind_ok he
  obtain rfl : m = m₁ := (keeps_handleFd (R := Eq) b).ok hfd
  exact write_writes hj hx hname he

theorem silent_uncache (x : Nat) : Keeps (Writes (κ := κ) []) (Allocator.uncache x) :=
  keeps_uncache_of (fun _ => silent_modifyAllocator (fun _ => rfl) (fun _ => rfl) fun _ => rfl)
    (silent_modifyBuffer x fun _ => rfl)

theorem silent_reference (x : Nat) : Keeps (Writes (κ := κ) []) (Buffer.reference x) :=
  keeps_reference_of (silent_modifyBuffer x fun _ => rfl)

theorem silent_revive (x : Nat) : Keeps (Writes (κ := κ) []) (Allocator.revive x) :=
  keeps_revive_of (silent_modifyBuffer x fun _ => rfl) (silent_modifyBuffer x fun _ => rfl)

theorem silent_reuse (x : Nat) (label : String) : Keeps (Writes (κ := κ) []) (Allocator.reuse x label) :=
  keeps_reuse_of (silent_uncache x) (silent_modifyBuffer x fun _ => rfl)
    (silent_modifyAllocator (fun _ => rfl) (fun _ => rfl) fun _ => rfl)

theorem silent_addBuffer (b : Buffer) : Keeps (Writes (κ := κ) []) (Allocator.addBuffer b) := by
  unfold Allocator.addBuffer
  refine keeps_bind keeps_allocator fun _ => keeps_bind (keeps_modify fun m => ?_) fun _ => keeps_pure _
  refine ⟨rfl, ?_, rfl, nofun⟩
  show m.allocator.buffers.map Buffer.sketch <+: (m.allocator.buffers ++ [b]).map Buffer.sketch
  rw [List.map_append]
  exact List.prefix_append _ _

theorem silent_useBuffer (deps : List Usage) (x : Nat) (u : Usage) :
    Keeps (Writes (κ := κ) []) (Submitter.useBuffer deps x u) :=
  keeps_bind (keeps_buffer x) fun _ => keeps_bind (silent_modifyBuffer x fun _ => rfl) fun _ => keeps_pure _

theorem silent_wrapRegion (region : Region) (size : Int64) (flags : UInt32) (label : String) :
    Keeps (Writes (κ := κ) []) (Allocator.wrapRegion region size flags label) :=
  keeps_bind keeps_allocator fun _ => keeps_bind (keeps_allocHandle _ _) fun _ => silent_addBuffer _

/-- A buffer is written about when its release begins. -/
theorem startRelease_writes {x added : Nat} {m m' : Machine κ} (hj : m.allocator.options.events = .journal)
    (he : (Buffer.startRelease x).exec m = (.ok added, m')) :
    ∃ e, e.name = "free" ∧ Writes [⟨some x, e⟩] m m' := by
  unfold Buffer.startRelease at he
  obtain ⟨b, hx, he⟩ := bind_buffer_ok he
  obtain ⟨_, m₁, hwrite, he⟩ := bind_ok he
  obtain ⟨e, hname, hwrites⟩ := writeHandle_writes hj hx (by decide) hwrite
  have hrest : Keeps (Writes (κ := κ) []) (do
      modifyBuffer x fun b => { b with usage := [] }
      let added ← Device.callbackAll (.release x)
      modifyBuffer x fun b => { b with gpuRefs := b.gpuRefs + Int32.ofNat added }
      return added) :=
    keeps_bind (silent_modifyBuffer x fun _ => rfl) fun _ => keeps_bind (keeps_callbackAll _) fun _ =>
    keeps_bind (silent_modifyBuffer x fun _ => rfl) fun _ => keeps_pure _
  exact ⟨e, hname, hwrites.then_silent (hrest.ok he)⟩

section Kernel

variable [Kernel κ]

theorem silent_unmapBuffer (x : Nat) : Keeps (Writes (κ := κ) []) (Allocator.unmapBuffer x) :=
  keeps_unmapBuffer_of (silent_modifyBuffer x fun _ => rfl)

theorem silent_enterCache (x : Nat) : Keeps (Writes (κ := κ) []) (Allocator.enterCache x) :=
  keeps_enterCache_of (fun _ => silent_modifyAllocator (fun _ => rfl) (fun _ => rfl) fun _ => rfl)
    fun _ _ _ => silent_modifyBuffer x fun _ => rfl

/-- A buffer that is freed is written about before it goes. -/
theorem free_writes {x : Nat} {m m' : Machine κ} {u : Unit} (hj : m.allocator.options.events = .journal)
    (he : (Allocator.free x).exec m = (.ok u, m')) : ∃ e, e.name = "memfree" ∧ Writes [⟨some x, e⟩] m m' := by
  unfold Allocator.free at he
  obtain ⟨b, hx, he⟩ := bind_buffer_ok he
  obtain ⟨_, m₁, hwrite, he⟩ := bind_ok he
  obtain ⟨e, hname, hwrites⟩ := writeHandle_writes hj hx (by decide) hwrite
  have hrest : Keeps (Writes (κ := κ) []) (do
      Allocator.unmapBuffer x
      Allocator.freeBufferRegion x
      modifyAllocator (·.forget b.handle)
      Device.freeHandle b.handle
      modifyBuffer x fun b => { b with usage := [], dmabufFd := -1, freed := true }
      modifyAllocator fun a => { a with frees := a.frees + 1 }) :=
    keeps_bind (silent_unmapBuffer x) fun _ => keeps_bind (keeps_freeBufferRegion x) fun _ =>
    keeps_bind (silent_modifyAllocator (fun _ => rfl) (fun _ => rfl) fun _ => rfl) fun _ =>
    keeps_bind (keeps_freeHandle _) fun _ => keeps_bind (silent_modifyBuffer x fun _ => rfl) fun _ =>
    silent_modifyAllocator (fun _ => rfl) (fun _ => rfl) fun _ => rfl
  exact ⟨e, hname, hwrites.then_silent (hrest.ok he)⟩

/-- A buffer is written about when it is handed out. -/
theorem handOut_writes {x : Nat} {m m' : Machine κ} {u : Unit} (hj : m.allocator.options.events = .journal)
    (he : (Allocator.handOut x).exec m = (.ok u, m')) : ∃ e, e.name = "alloc" ∧ Writes [⟨some x, e⟩] m m' := by
  have hend {m₁ : Machine κ} (hm₁ : Writes [] m m₁) (he : (do
      modifyBuffer x fun b => { b with refs := 1, usage := [] }
      Allocator.write "alloc" (← buffer x) noFd : Op κ Unit).exec m₁ = (.ok u, m')) :
      ∃ e, e.name = "alloc" ∧ Writes [⟨some x, e⟩] m m' := by
    obtain ⟨_, m₂, hmodify, he⟩ := bind_ok he
    have hsilent : Keeps (Writes (κ := κ) []) (modifyBuffer x fun b => { b with refs := 1, usage := [] }) :=
      silent_modifyBuffer x fun _ => rfl
    have hm₂ : Writes [] m m₂ := hm₁.trans (hsilent.ok hmodify)
    obtain ⟨b, hx, he⟩ := bind_buffer_ok he
    obtain ⟨e, hname, hwrites⟩ := write_writes (hm₂.options ▸ hj) hx (by decide) he
    exact ⟨e, hname, hm₂.trans hwrites⟩
  unfold Allocator.handOut at he
  obtain ⟨b, -, he⟩ := bind_buffer_ok he
  obtain ⟨_, m₀, hread, he⟩ := bind_ok he
  cases hread
  dsimp only at he
  split at he
  · obtain ⟨_, m₁, hclear, he⟩ := bind_ok he
    exact hend ((keeps_clearBuffer x).ok hclear) he
  · exact hend (.of_allocator rfl) he

end Kernel

end Mali
