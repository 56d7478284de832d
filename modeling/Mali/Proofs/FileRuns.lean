import Mali.Proofs.OpenFiles

/-!
# Runs in which files are imported

Buffers are created, imported, referenced, dropped and evicted, and work is submitted and completes.  Along such
a run handles own descriptors of different files.  As long as the books are in order, the handle of a file leads
to its buffer, so importing the file again gives that buffer a reference and asks the kernel for nothing but to
compare descriptors.

* `FileStep`, `FileRun`: steps and runs in which nothing else opens or closes descriptors of handles.
* `FileRun.shelf`: handles stay apart, and the run is one of the cache.
* `exec_importBuffer_of_owns`: importing a file that stands behind a buffer.
* `FileRun.one_buffer`: both together.
-/

namespace Mali

open Op

variable {κ F : Type} [Kernel κ] {files : OpenFiles κ F} {c c' : Config κ} {act : Action}

/-! ## Steps -/

/-- One step of a call on a device of any kind. -/
inductive FileStep (files : OpenFiles κ F) : Config κ → Action → Config κ → Prop
  /-- What leaves every account alone gives no descriptor to a handle, and closes none that a handle owns. -/
  | shelf {c c' : Config κ} {act : Action} (h : ShelfStep c act c') (ho : Orderly c act c')
    (hquiet : act = .other → Quiet c.machine c'.machine → Shelters files c.machine c'.machine) :
    FileStep files c act c'
  /-- A file gets a handle, or cannot be imported. -/
  | importFile {m m' : Machine κ} {ready : List (Nat × Link)} {held : Option Nat} {fd : Int}
    {r : Except Halt Nat} (he : (Device.importFile fd).exec m = (r, m')) (hr : Survives r)
    (hclock : Kernel.now m.kernel ≤ Kernel.now m'.kernel) :
    FileStep files ⟨m, ready, held⟩ .other ⟨m', ready, held⟩

/-- A step keeps handles apart. -/
theorem FileStep.apart (h : FileStep files c act c') (hc : c.progress.generation = .csf ∨ c.machine.Calm)
    (hm : c.machine.Apart files) : c'.machine.Apart files := by
  cases h with
  | shelf h _ hquiet =>
    exact h.keeps apart_freeHandle apart_allocHandle apart_retireAtom apart_markAtom hc
      (fun hact _ hq hm => hm.shelters (hquiet hact hq)) hm
  | importFile he hr => exact (keepsAt_importFile importing_apart hm _).survives he hr hm

/-- A step is one of the cache, if handles are apart. -/
theorem FileStep.shelfStep (h : FileStep files c act c') (hm : c.machine.Apart files) :
    ShelfStep c act c' ∧ Orderly c act c' := by
  cases h with
  | shelf h ho => exact ⟨h, ho⟩
  | @importFile m m' ready held fd r he hr hclock =>
    have hquiet : Quiet m m' := (quiet_importFile fd m).survives he hr
    refine ⟨?_, hclock, fun _ _ _ => (keepsAt_importFile importing_allocator hm fd).survives he hr,
      fun _ _ => (keepsAt_importFile importing_lawful hm fd).survives he hr, fun _ _ hact => nomatch hact⟩
    by_cases hcsf : m.progress.generation = .csf
    · exact .stream hcsf (.quiet hquiet)
    · exact .job hcsf (.inl rfl) (.quiet hquiet)

/-! ## Runs -/

/-- Steps one after the other. -/
inductive FileRun (files : OpenFiles κ F) : Config κ → List (Config κ × Action) → Config κ → Prop
  | nil (c : Config κ) : FileRun files c [] c
  | cons {c c₁ c' : Config κ} {a : Action} {es : List (Config κ × Action)} (hs : FileStep files c a c₁)
    (hr : FileRun files c₁ es c') : FileRun files c ((c, a) :: es) c'

/-- Handles stay apart along a run, which is one of the cache.  By induction on the run. -/
theorem FileRun.shelf {es : List (Config κ × Action)} (h : FileRun files c es c')
    (hc : c.progress.generation = .csf ∨ c.machine.Calm) (hm : c.machine.Apart files) :
    ShelfRun c es c' ∧ c'.machine.Apart files := by
  induction h with
  | nil c => exact ⟨.nil c, hm⟩
  | cons hs _ ih =>
    obtain ⟨hshelf, ho⟩ := hs.shelfStep hm
    obtain ⟨hr, hm'⟩ := ih (hshelf.csf_or_calm hc) (hs.apart hc hm)
    exact ⟨.cons hshelf ho hr, hm'⟩

/-! ## Importing a buffer again -/

omit [Kernel κ] in
/-- The journal is written to beside the buffers. -/
theorem exec_write (name : String) (b : Buffer) (fd : Int) (imported : Option (Int × Bool)) (m : Machine κ) :
    ∃ m', (Allocator.write name b fd imported).exec m = (.ok (), m') ∧ m'.calls = m.calls ∧
      m'.allocator.buffers = m.allocator.buffers := by
  unfold Allocator.write
  rw [exec_bind_of_ok (exec_allocator m)]
  split <;> exact ⟨_, rfl, rfl, rfl⟩

/-- A file that stands behind a known buffer gives it another reference, and the kernel only compares
descriptors. -/
theorem exec_importBuffer_of_owns {m : Machine κ} {fd d : Int} {x : Nat} {b : Buffer} (hm : m.Apart files)
    (hstarted : m.allocator.started = true) (hb : m.allocator.buffers[x]? = some b)
    (hlookup : m.allocator.lookup? b.handle = some x) (hown : m.Owns b.handle d) (hd : 0 ≤ d)
    (hfile : files.file m.kernel fd = files.file m.kernel d) :
    ∃ m', (Allocator.importBuffer fd).exec m = (.ok x, m') ∧
      m'.allocator.buffers[x]? = some { b with refs := b.refs + 1 } ∧
      ∃ cs, m'.syscalls = cs ++ m.syscalls ∧ ∀ call ∈ cs, ∃ a a', call = .sameFile a a' := by
  obtain ⟨_, m₁, hdebug⟩ := returns_debug (κ := κ) "Allocator::Import" [] m
  have h₁ : Compares files m m₁ := (compares_log _ _ _).ok hdebug
  have hown₁ : m₁.Owns b.handle d := by rwa [Machine.Owns, h₁.device]
  have hfile₁ : files.file m₁.kernel fd = files.file m₁.kernel d := by rw [h₁.file, h₁.file, hfile]
  obtain ⟨m₂, himport, h₂⟩ :=
    exec_importFile_of_owns (hm.shelters h₁.keepsOpen.shelters) hown₁ hd hfile₁
  obtain ⟨hdevice, hallocator, -, cs, hcs, hsame⟩ := Journey.trans h₁ h₂
  obtain ⟨m₃, hrevive, hcalls₃, hb₃⟩ := exec_revive (m := m₂) (by rwa [hallocator])
  obtain ⟨m₄, hwrite, hcalls₄, hbuffers₄⟩ := exec_write "import" { b with refs := b.refs + 1 } fd
    (some (b.dmabufFd, true)) m₃
  refine ⟨m₄, ?_, by rw [hbuffers₄, hb₃], cs, ?_, hsame⟩
  · unfold Allocator.importBuffer
    rw [exec_bind_of_ok (exec_requireAllocator hstarted), exec_bind_of_ok hdebug, exec_bind_of_ok himport,
      exec_bind_of_ok (exec_allocator m₂), hallocator, hlookup]
    dsimp only
    rw [exec_bind_of_ok hrevive, exec_bind_of_ok (exec_pure x m₃), exec_bind_of_ok (exec_buffer_of_some hb₃),
      Option.isSome_some, exec_bind_of_ok hwrite, exec_pure]
  · rw [Machine.syscalls, hcalls₄, hcalls₃]
    exact hcs

/-! ## One buffer for each file -/

/-- From a device and an allocator that were just made, handles always own descriptors of different files.  If not
more streams were attached than there are slots and no count overflowed, importing a file that stands behind a
buffer gives that buffer a reference, also if its release waits for the GPU, and the kernel is only asked to
compare descriptors. -/
theorem FileRun.one_buffer {m : Machine κ} {es : List (Config κ × Action)} (hvacant : Vacant m)
    (hrules : m.device.handles.check = none) (hapart : m.Apart files) (h : FileRun files ⟨m, [], none⟩ es c) :
    c.machine.Apart files ∧
      ((∀ d ∈ es.map (·.1) ++ [c], d.progress.streams.length ≤ slotCount) →
        (∀ d ∈ es.map (·.1) ++ [c], d.Bounded) → c.machine.allocator.started = true →
        ∀ (fd d : Int) (x : Nat) (b : Buffer), c.machine.allocator.buffers[x]? = some b → b.freed = false →
          c.machine.Owns b.handle d → 0 ≤ d →
          files.file c.machine.kernel fd = files.file c.machine.kernel d →
          ∃ m', (Allocator.importBuffer fd).exec c.machine = (.ok x, m') ∧
            m'.allocator.buffers[x]? = some { b with refs := b.refs + 1 } ∧
            ∃ cs, m'.syscalls = cs ++ c.machine.syscalls ∧ ∀ call ∈ cs, ∃ a a', call = .sameFile a a') := by
  obtain ⟨hrun, hm⟩ := h.shelf hvacant.csf_or_calm hapart
  refine ⟨hm, fun hmax hbounded hstarted fd d x b hb hfreed hown hd hfile => ?_⟩
  have hbooks := (hrun.inOrder hmax hbounded (hvacant.inOrder hrules)).books
  have hlookup : c.machine.allocator.lookup? b.handle = some x :=
    (hbooks.arena b.handle x).mpr ⟨b.account, Machine.accounts_of_buffer hb, rfl, hfreed⟩
  exact exec_importBuffer_of_owns hm hstarted hb hlookup hown hd hfile

/-! ## A file under two descriptors -/

/-- A kernel that keeps files and maps memory, and has nothing else to offer. -/
structure Cabinet where
  /-- Open descriptors, with the number of the file behind each. -/
  files : List (Int × Nat)
  /-- The next descriptor that is given out. -/
  next : Nat
  fresh : ∀ e ∈ files, e.1 < next

namespace Cabinet

/-- The file behind a descriptor. -/
def file (k : Cabinet) (fd : Int) : Option Nat := (k.files.find? (·.1 == fd)).map (·.2)

/-- Opens a file under the next descriptor. -/
def insert (k : Cabinet) (f : Nat) : Cabinet where
  files := (k.next, f) :: k.files
  next := k.next + 1
  fresh := List.forall_mem_cons.mpr ⟨Int.lt_succ _, fun e he => Int.lt_trans (k.fresh e he) (Int.lt_succ _)⟩

/-- Closes a descriptor. -/
def remove (k : Cabinet) (fd : Int) : Cabinet where
  files := k.files.filter (·.1 != fd)
  next := k.next
  fresh e he := k.fresh e (List.mem_filter.mp he).1

instance : Kernel Cabinet where
  call k
    | .dup fd =>
      match k.file fd with
      | some f => ({ result := .ok k.next }, k.insert f)
      | none => ({ result := .error .badf }, k)
    | .close fd =>
      match k.file fd with
      | some _ => ({ result := .ok () }, k.remove fd)
      | none => ({ result := .error .badf }, k)
    | .sameFile fd other =>
      match k.file fd, k.file other with
      | some f, some g => ({ result := .ok (f == g) }, k)
      | _, _ => ({ result := .error .badf }, k)
    | .seek fd _ _ =>
      match k.file fd with
      | some _ => ({ result := .ok 4096 }, k)
      | none => ({ result := .error .badf }, k)
    | .mmap .. => ({ result := .ok 0x10000 }, k)
    | .ioctl _ (.memImport _) => ({ result := .ok ⟨MemFlag.needMmap, 0x41000, 1⟩ }, k)
    | _ => ({ result := .error .nosys }, k)
  now _ := 0
  pageSize _ := 4096
  simulated _ := true

theorem lt_next {k : Cabinet} {fd : Int} {f : Nat} (h : k.file fd = some f) : fd < k.next := by
  obtain ⟨e, he, -⟩ := Option.map_eq_some_iff.mp h
  have heq := List.find?_some he
  rw [← eq_of_beq heq]
  exact k.fresh e (List.mem_of_find?_eq_some he)

theorem file_insert (k : Cabinet) (f : Nat) (fd : Int) :
    (k.insert f).file fd = if fd = k.next then some f else k.file fd := by
  rw [file, insert, List.find?_cons]
  by_cases hfd : fd = k.next
  · simp [hfd]
  · simp [beq_false_of_ne (Ne.symm hfd), hfd, file]

theorem file_remove {k : Cabinet} {fd other : Int} (h : fd ≠ other) :
    (k.remove other).file fd = k.file fd := by
  rw [file, file, remove, List.find?_filter]
  congr 2
  funext e
  by_cases he : e.1 = fd
  · simp [he, h]
  · simp [he]

/-- What is open is told apart by the number of its file. -/
def openFiles : OpenFiles Cabinet Nat where
  file := file
  same {k fd other f} h := by
    simp only [Kernel.call, h]
    cases k.file other with
    | none => simp
    | some g =>
      simp only [Except.ok.injEq, beq_iff_eq, Option.some.injEq]
      exact eq_comm
  compared k fd other fd' := by
    simp only [Kernel.call]
    split <;> rfl
  duplicated {k fd d} h := by
    simp only [Kernel.call] at h ⊢
    cases hf : k.file fd with
    | none =>
      rw [hf] at h
      cases h
    | some f =>
      rw [hf] at h
      cases h
      exact ⟨Int.natCast_nonneg _, f, rfl, by simp [file_insert]⟩
  stays {k fd f call} h hne := by
    cases call with
    | dup other =>
      simp only [Kernel.call]
      cases k.file other with
      | none => exact h
      | some g => rw [file_insert, if_neg (Int.ne_of_lt (lt_next h)), h]
    | close other =>
      have hne : fd ≠ other := by
        rintro rfl
        exact hne rfl
      simp only [Kernel.call]
      cases k.file other with
      | none => exact h
      | some g => rw [file_remove hne, h]
    | sameFile a b =>
      simp only [Kernel.call]
      split <;> exact h
    | seek a b e =>
      simp only [Kernel.call]
      split <;> exact h
    | ioctl a r => cases r <;> exact h
    | _ => exact h

-- a table of 256 slots is evaluated
set_option maxRecDepth 20000

/-- A command stream device, with a file under two descriptors. -/
def start : Machine Cabinet where
  kernel := { files := [(50, 7), (51, 7)], next := 52, fresh := by decide }
  device := { options := { pageSize := 4096 }, eventMemory := some ⟨0x1000, 8192⟩ }
  allocator := { started := true, options := { noCache := true }, cache := .empty 1 }

theorem fresh_start : Fresh start := by
  constructor
  case range => exact Int.le_refl _
  all_goals rfl

theorem apart_start : start.Apart openFiles := by
  constructor
  · rintro k _ ⟨h, hk, -⟩
    cases hk
  · rintro k _ _ _ ⟨h, hk, -⟩
    cases hk

/-- A stream has the first slot. -/
def attached : Machine Cabinet :=
  ((Device.attachStream { context := 0, va := 0, size := 0, csi := 0 }).exec start).2

/-- Work is queued on it. -/
def busy : Machine Cabinet := ((Device.submitSlot 0 5).exec attached).2

/-- The file was imported through one descriptor. -/
def imported : Machine Cabinet := ((Device.importFile 50).exec busy).2

/-- The handle of the file. -/
def handle : Handle := { va := 0x10000, mapping := some ⟨0x10000, 4096⟩, fd := 52 }

/-- Its size was read. -/
def measured : Machine Cabinet := ((Allocator.importedBuffer 50 0 handle).exec imported).2

/-- The buffer of the file. -/
def shared : Buffer where
  gpu := 0x10000
  cpu := some ⟨0x10000, 4096⟩
  size := 4096
  flags := BufferFlag.shared
  handle := 0
  refs := 1
  cachedCpu := true
  dmabufFd := 52

/-- It is known. -/
def entered : Machine Cabinet := ((Allocator.addBuffer shared).exec measured).2

/-- Its only reference went while the work was queued. -/
def released : Machine Cabinet := ((Buffer.unreference 0).exec entered).2

def steps : List (Config Cabinet × Action) :=
  [(⟨start, [], none⟩, .attach), (⟨attached, [], none⟩, .submit 0 5), (⟨busy, [], none⟩, .other),
    (⟨imported, [], none⟩, .other), (⟨measured, [], none⟩, .other), (⟨entered, [], none⟩, .release 0)]

theorem run_released : FileRun openFiles ⟨start, [], none⟩ steps ⟨released, [], none⟩ := by
  have hattach : (Device.attachStream { context := 0, va := 0, size := 0, csi := 0 }).exec start =
      (.ok 0, attached) := exec_of_value (by decide)
  have hsubmit : (Device.submitSlot 0 5).exec attached = (.ok (), busy) := exec_of_value (by decide)
  have himport : (Device.importFile 50).exec busy = (.ok 0, imported) := exec_of_value (by decide)
  have hmeasure : (Allocator.importedBuffer 50 0 handle).exec imported = (.ok shared, measured) :=
    exec_of_value (by decide)
  have henter : (Allocator.addBuffer shared).exec measured = (.ok 0, entered) := exec_of_value (by decide)
  have hrelease : (Buffer.unreference 0).exec entered = (.ok (), released) := exec_of_value (by decide)
  have howns : measured.Owns 0 52 := ⟨handle, by decide, rfl, by decide⟩
  refine .cons (.shelf (.stream rfl (.attach hattach)) ⟨by decide, nofun, nofun, nofun⟩ nofun) <|
    .cons (.shelf (.stream (by decide) (.submit (by decide) hsubmit)) ⟨by decide, nofun, nofun, nofun⟩ nofun) <|
    .cons (.importFile himport trivial (by decide)) <|
    .cons (.shelf (.stream (by decide) (.quiet ((keeps_importedBuffer 50 0 handle).ok hmeasure)))
      ⟨by decide, fun _ _ _ => ?_, fun _ _ => ?_, nofun⟩ fun _ _ => ?_) <|
    .cons (.shelf (.stream (by decide) (.enter (by decide) howns (by decide) rfl rfl rfl rfl rfl henter))
      ⟨by decide, fun _ _ _ => ?_, fun _ _ => ?_, nofun⟩ fun _ _ => ?_) <|
    .cons (.shelf (.stream (by decide) (.release (a := shared.account) (by decide) rfl hrelease))
      ⟨by decide, nofun, nofun, nofun⟩ nofun) (.nil _)
  · exact (keeps_importedBuffer 50 0 handle).ok hmeasure
  · exact (keeps_importedBuffer 50 0 handle).ok hmeasure
  · exact KeepsOpen.shelters ((keeps_importedBuffer 50 0 handle).ok hmeasure)
  · exact (cards_addBuffer rfl).ok henter
  · exact (keeps_addBuffer shared).ok henter
  · exact KeepsOpen.shelters ((keeps_addBuffer shared).ok henter)

end Cabinet

set_option maxRecDepth 20000 in
/-- The release of an imported buffer waits for the GPU.  Importing its file through another descriptor finds the
buffer, which has a reference again. -/
theorem one_buffer_sample : Vacant Cabinet.start ∧ Cabinet.start.device.handles.check = none ∧
    Cabinet.start.Apart Cabinet.openFiles ∧
    FileRun Cabinet.openFiles ⟨Cabinet.start, [], none⟩ Cabinet.steps ⟨Cabinet.released, [], none⟩ ∧
    Cabinet.released.Apart Cabinet.openFiles ∧
    ∃ m' b, (Allocator.importBuffer 51).exec Cabinet.released = (.ok 0, m') ∧
      m'.allocator.buffers[0]? = some b ∧ b.refs = 1 ∧ b.gpuRefs = 1 := by
  have hrun := Cabinet.run_released
  have hvacant := Cabinet.fresh_start.vacant
  have hmax : ∀ d ∈ Cabinet.steps.map (·.1) ++ [⟨Cabinet.released, [], none⟩],
      d.progress.streams.length ≤ slotCount := by decide
  have hbounded := ((hrun.shelf (.inl rfl) Cabinet.apart_start).1.run rfl).bounded Cabinet.fresh_start
    (hmax _ (by simp)) (by decide) (by decide)
  obtain ⟨hapart, himport⟩ := FileRun.one_buffer hvacant rfl Cabinet.apart_start hrun
  have hb : Cabinet.released.allocator.buffers[0]? = some { Cabinet.shared with refs := 0, gpuRefs := 1 } := by
    decide
  have hown : Cabinet.released.Owns 0 52 := ⟨Cabinet.handle, by decide, rfl, by decide⟩
  obtain ⟨m', he, hb', -⟩ := himport hmax hbounded rfl 51 52 0 _ hb rfl hown (by decide) (by decide)
  exact ⟨hvacant, rfl, Cabinet.apart_start, hrun, hapart, m', _, he, hb', rfl, rfl⟩

end Mali
