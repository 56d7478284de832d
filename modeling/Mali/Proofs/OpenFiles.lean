import Mali.Proofs.CacheRuns
import Mali.Proofs.HandleMap

/-!
# Open files and buffers

A kernel can compare descriptors by the open files behind them, and duplicate a descriptor.  An import looks for
a handle that owns a descriptor of the same file before it duplicates anything.  So no two handles own
descriptors of one file, and a file that already stands behind a buffer leads back to that buffer.

* `OpenFiles`: what is asked of a kernel.
* `KeepsOpen`, `Shelters`: operations that close nothing, and those that close nothing that a handle owns.
* `Machine.Apart`: handles own descriptors of different files.
* `apart_freeHandle`, `apart_allocHandle`, `apart_retireAtom`, `apart_markAtom`: what keeps them apart.
* `Machine.Apart.exec_findFile`, `exec_importFile_of_owns`: a file that a handle owns is found again.
* `Importing`, `keepsAt_importFile`: what an import keeps that duplicates a descriptor.
* `importing_apart`: it keeps handles apart.
-/

namespace Mali

open Op

variable {κ F : Type}

/-! ## Files behind descriptors -/

/-- What a kernel has open.  Comparing two descriptors tells whether they are of one file, and changes none; a
duplicate is of the same file; and a descriptor is open until it is closed. -/
structure OpenFiles (κ F : Type) [Kernel κ] where
  /-- The file behind a descriptor, if that is open. -/
  file : κ → Int → Option F
  same : ∀ {k : κ} {a b : Int} {f : F}, file k a = some f →
    ((Kernel.call k (.sameFile a b)).1.result = .ok true ↔ file k b = some f)
  compared : ∀ (k : κ) (a b fd : Int), file (Kernel.call k (.sameFile a b)).2 fd = file k fd
  duplicated : ∀ {k : κ} {fd d : Int}, (Kernel.call k (.dup fd)).1.result = .ok d →
    0 ≤ d ∧ ∃ f, file k fd = some f ∧ file (Kernel.call k (.dup fd)).2 d = some f
  stays : ∀ {k : κ} {fd : Int} {f : F} {c : Syscall}, file k fd = some f → c ≠ .close fd →
    file (Kernel.call k c).2 fd = some f

section Kernel

variable [Kernel κ] {files : OpenFiles κ F} {m m' : Machine κ}

/-- No handle is given a descriptor, and every descriptor stays open. -/
structure KeepsOpen (files : OpenFiles κ F) (m m' : Machine κ) : Prop where
  owned : ∀ k fd, m'.Owns k fd → 0 ≤ fd → m.Owns k fd
  stays : ∀ fd f, files.file m.kernel fd = some f → files.file m'.kernel fd = some f

instance : OfFiles (KeepsOpen files) where
  refl _ := ⟨fun _ _ ho _ => ho, fun _ _ hf => hf⟩
  trans h h' := ⟨fun k fd ho hfd => h.owned k fd (h'.owned k fd ho hfd) hfd,
    fun fd f hf => h'.stays fd f (h.stays fd f hf)⟩
  of_files hk ht := ⟨fun k fd ho _ => by rwa [Machine.Owns, ht] at ho, fun fd f hf => by rwa [hk]⟩

instance : Tolerant (KeepsOpen files) where
  of_state := OfState.of_state
  of_call c hc := by
    refine fun m _ => ⟨fun _ _ ho _ => ho, fun fd f hf => files.stays hf ?_⟩
    rintro rfl
    cases hc

/-- Handles may only let go of descriptors. -/
theorem keepsOpen_of_owns (hk : m'.kernel = m.kernel) (ho : ∀ k fd, m'.Owns k fd → m.Owns k fd) :
    KeepsOpen files m m' := ⟨fun k fd h _ => ho k fd h, fun _ _ hf => by rwa [hk]⟩

/-- No handle is given a descriptor, and those that handles own stay open. -/
structure Shelters (files : OpenFiles κ F) (m m' : Machine κ) : Prop where
  owned : ∀ k fd, m'.Owns k fd → 0 ≤ fd → m.Owns k fd
  stays : ∀ k fd f, m'.Owns k fd → 0 ≤ fd → files.file m.kernel fd = some f → files.file m'.kernel fd = some f

theorem KeepsOpen.shelters (h : KeepsOpen files m m') : Shelters files m m' :=
  ⟨h.owned, fun _ fd f _ _ hf => h.stays fd f hf⟩

/-- The descriptors that handles own are open, and no two handles own descriptors of one file. -/
structure Machine.Apart (files : OpenFiles κ F) (m : Machine κ) : Prop where
  opened : ∀ k fd, m.Owns k fd → 0 ≤ fd → ∃ f, files.file m.kernel fd = some f
  distinct : ∀ k k' fd fd', m.Owns k fd → m.Owns k' fd' → 0 ≤ fd → 0 ≤ fd' →
    files.file m.kernel fd = files.file m.kernel fd' → k = k'

theorem Machine.Apart.shelters (h : m.Apart files) (hs : Shelters files m m') : m'.Apart files := by
  have hopen (k : Nat) (fd : Int) (ho : m'.Owns k fd) (hfd : 0 ≤ fd) :
      ∃ f, files.file m.kernel fd = some f ∧ files.file m'.kernel fd = some f := by
    obtain ⟨f, hf⟩ := h.opened k fd (hs.owned k fd ho hfd) hfd
    exact ⟨f, hf, hs.stays k fd f ho hfd hf⟩
  constructor
  · intro k fd ho hfd
    obtain ⟨f, -, hf⟩ := hopen k fd ho hfd
    exact ⟨f, hf⟩
  · intro k k' fd fd' ho ho' hfd hfd' heq
    obtain ⟨f, hf, hf₁⟩ := hopen k fd ho hfd
    obtain ⟨f', hf', hf₁'⟩ := hopen k' fd' ho' hfd'
    rw [hf₁, hf₁'] at heq
    exact h.distinct k k' fd fd' (hs.owned k fd ho hfd) (hs.owned k' fd' ho' hfd') hfd hfd'
      (by rw [hf, hf', heq])

/-- Handles stay apart. -/
def KeepsApart (files : OpenFiles κ F) (m m' : Machine κ) : Prop := m.Apart files → m'.Apart files

theorem KeepsOpen.apart (h : KeepsOpen files m m') : KeepsApart files m m' := fun hm => hm.shelters h.shelters

instance : OfFiles (KeepsApart files) where
  refl _ := id
  trans h h' := h' ∘ h
  of_files hk ht := KeepsOpen.apart (OfFiles.of_files hk ht)

instance : Tolerant (KeepsApart files) where
  of_state := OfState.of_state
  of_call _ hc := (keeps_plainCall (R := KeepsOpen files) hc).mono fun _ _ => KeepsOpen.apart

/-! ## Handles that come and go -/

namespace HandleTable

variable {t : HandleTable}

omit [Kernel κ] in
/-- What handles own after one was given out they owned before, but for the new one. -/
theorem owns_of_alloc {va : UInt64} {fd fd' : Int} {k : Nat} (h : (t.alloc va fd).2.Owns k fd') :
    k = t.freeIndex ∧ fd' = fd ∨ t.Owns k fd' := by
  obtain ⟨e, he, rfl, hlive⟩ := h
  rw [getElem?_alloc] at he
  split at he
  · cases he
    exact .inl ⟨‹_›, rfl⟩
  · exact .inr ⟨e, he, rfl, hlive⟩

omit [Kernel κ] in
theorem owns_setMapping_iff {i k : Nat} {p : Option Mapping} {fd : Int} :
    (t.setMapping i p).Owns k fd ↔ t.Owns k fd := by
  refine owns_map_iff (f := fun j e => if i = j then { e with mapping := p } else e) (fun j => ?_) fun j e => ?_
  · rw [setMapping, List.getElem?_modify]
    split <;> simp [*]
  · split <;> rfl

/-- What handles own after one was freed they owned before. -/
theorem owns_of_free {handle : Int} {k : Nat} {fd : Int} (h : (t.free handle).2.Owns k fd) : t.Owns k fd := by
  obtain ⟨e, he, rfl, hlive⟩ := h
  rcases entries_free he with he | ⟨-, hfreed⟩
  · exact ⟨e, he, rfl, hlive⟩
  · exact absurd hfreed hlive

/-- A handle that was freed owns nothing any more. -/
theorem not_owns_free (k : Nat) (fd : Int) : ¬(t.free k).2.Owns k fd := by
  rintro ⟨e, he, rfl, hlive⟩
  unfold free at he
  split at he
  · rename_i hnone
    rw [index?, ite_eq_right_iff] at hnone
    have hlt := (List.getElem?_eq_some_iff.mp he).1
    exact Option.some_ne_none _ (hnone ⟨Int.natCast_nonneg k, Int.ofNat_lt.mpr hlt⟩)
  · rename_i i hi
    obtain rfl : k = i := Int.ofNat.inj (index?_eq_some hi).1
    obtain ⟨_, hsplit, -⟩ := dropFreedTail_append (t.entries.set k { fd := freedFd })
    have hset : (t.entries.set k { fd := freedFd })[k]? = some e := by
      rw [hsplit, List.getElem?_append_left (List.getElem?_eq_some_iff.mp he).1]
      exact he
    rw [List.getElem?_set_self (index?_eq_some hi).2] at hset
    cases hset
    exact hlive rfl

/-- The handle that owned a descriptor that was given back owns nothing any more. -/
theorem owns_of_free_some {handle : Int} {fd : Int} (h : (t.free handle).1 = some fd) (hfd : 0 ≤ fd) :
    ∃ k, t.Owns k fd ∧ ∀ fd', ¬(t.free handle).2.Owns k fd' := by
  cases hi : t.index? handle with
  | none =>
    rw [free, hi] at h
    cases h
  | some i =>
    obtain ⟨hhandle, -⟩ := index?_eq_some hi
    subst hhandle
    rw [free, hi] at h
    obtain ⟨e, he, rfl⟩ := Option.map_eq_some_iff.mp h
    exact ⟨i, ⟨e, he, rfl, fun hfreed => by rw [hfreed] at hfd; exact absurd hfd (by decide)⟩,
      fun fd' => not_owns_free i fd'⟩

end HandleTable

/-- Closing a descriptor that no handle owns keeps handles apart. -/
theorem apart_close {fd : Int} (hfd : ∀ k, ¬m.Owns k fd) :
    KeepsAt (KeepsApart files) (call (.close fd)) m := by
  refine fun _ hm => hm.shelters ⟨fun _ _ ho _ => ho, fun k fd' f ho _ hf => files.stays hf fun heq => ?_⟩
  cases heq
  exact hfd k ho

/-- What a handle owned is closed when it is freed, and no other handle owned that. -/
theorem apart_freeHandle (handle : Int) : Keeps (KeepsApart files) (Device.freeHandle handle) := by
  refine (faultless_freeHandle handle).keeps fun {m m' _} he hm => ?_
  have hdevice := freeHandle_device he
  obtain ⟨-, hnone, hsome⟩ := freeHandle_ok he
  have howns {k : Nat} {fd : Int} (ho : m'.Owns k fd) : (m.device.handles.free handle).2.Owns k fd := by
    rwa [Machine.Owns, hdevice] at ho
  refine hm.shelters ⟨fun k fd ho _ => HandleTable.owns_of_free (howns ho), fun k fd f ho hfd hf => ?_⟩
  cases hclosed : (m.device.handles.free handle).1.filter (0 ≤ ·) with
  | none => rwa [hnone hclosed]
  | some fd' =>
    rw [hsome fd' hclosed]
    refine files.stays hf fun heq => ?_
    cases heq
    obtain ⟨hfree, hfd'⟩ := Option.filter_eq_some_iff.mp hclosed
    obtain ⟨k', ho', hgone⟩ := HandleTable.owns_of_free_some hfree (of_decide_eq_true hfd')
    obtain rfl := hm.distinct k k' fd fd (HandleTable.owns_of_free (howns ho)) ho' hfd hfd rfl
    exact hgone fd (howns ho)

theorem apart_allocHandle (va : UInt64) : Keeps (KeepsApart files) (Device.allocHandle va noFd) := by
  refine (faultless_allocHandle va noFd).keeps fun {m m' _} he hm => ?_
  obtain ⟨-, rfl⟩ := allocHandle_ok he
  refine hm.shelters ⟨fun k fd ho hfd => ?_, fun _ _ _ _ _ hf => hf⟩
  rcases HandleTable.owns_of_alloc ho with ⟨-, rfl⟩ | ho
  · exact absurd hfd (by decide)
  · exact ho

/-- Atoms count uses of handles, which own what they owned. -/
theorem apart_retireAtom (atom : UInt8) : Keeps (KeepsApart files) (Device.retireAtom atom) := by
  intro m
  unfold Device.retireAtom
  refine keepsAt_bind (keeps_device m) fun d m₁ hd => ?_
  cases hd
  split
  · exact keeps_violate _ m
  · rename_i t ht
    exact fun _ => KeepsOpen.apart (keepsOpen_of_owns rfl fun k fd (ho : t.Owns k fd) =>
      (HandleTable.owns_release_iff ht).mp ho)

theorem apart_recordAtom (number : UInt8) (slot : JobSlot) (handles : List Int) (m : Machine κ) :
    KeepsAt (KeepsApart files) (do
      modifyDevice fun d => { d with inFlight := d.inFlight ++ [(number, handles)] }
      match m.device.handles.markUsed handles slot number with
      | .error c => violate (.root c)
      | .ok marked =>
        Device.setHandles marked.table
        return marked) m := by
  refine keepsAt_bind (keeps_editDevice ?_ m) fun _ m₁ hm₁ => ?_
  · exact fun _ => rfl
  cases hm₁
  split
  · exact keeps_violate _ _
  · rename_i marked hmarked
    refine fun _ => KeepsOpen.apart (keepsOpen_of_owns rfl fun k fd (ho : marked.table.Owns k fd) => ?_)
    exact (HandleTable.owns_map_iff (HandleTable.markAll_ok hmarked).2.1 fun k e => e.mark_fd _ _ _).mp ho

theorem apart_markAtom (number : UInt8) (slot : JobSlot) (handles : List Int) :
    Keeps (KeepsApart files) (Device.markAtom number slot handles) := by
  intro m
  unfold Device.markAtom
  refine keepsAt_bind (keeps_device m) fun d m₁ hd => ?_
  cases hd
  dsimp only
  split
  · refine keepsAt_bind (keeps_violate _ m) fun _ _ he => ?_
    cases he
  · exact apart_recordAtom number slot handles m

/-! ## Looking for a file -/

/-- Nothing happens but that descriptors are compared. -/
structure Compares (files : OpenFiles κ F) (m m' : Machine κ) : Prop where
  device : m'.device = m.device
  allocator : m'.allocator = m.allocator
  file : ∀ fd, files.file m'.kernel fd = files.file m.kernel fd
  calls : ∃ cs, m'.syscalls = cs ++ m.syscalls ∧ ∀ c ∈ cs, ∃ a b, c = .sameFile a b

instance : Journey (Compares files) where
  refl _ := ⟨rfl, rfl, fun _ => rfl, [], rfl, fun _ h => absurd h List.not_mem_nil⟩
  trans h h' := by
    refine ⟨h'.device.trans h.device, h'.allocator.trans h.allocator,
      fun fd => (h'.file fd).trans (h.file fd), ?_⟩
    obtain ⟨cs, hcs, hall⟩ := h.calls
    obtain ⟨cs', hcs', hall'⟩ := h'.calls
    exact ⟨cs' ++ cs, by rw [hcs', hcs, List.append_assoc], List.forall_mem_append.mpr ⟨hall', hall⟩⟩

theorem compares_log (level : LogLevel) (message : String) (fields : List (String × String)) :
    Keeps (Compares files) (log level message fields) :=
  keeps_modify fun _ => ⟨rfl, rfl, fun _ => rfl, [], rfl, fun _ h => absurd h List.not_mem_nil⟩

/-- Comparing with an open descriptor tells whether the files are the same. -/
theorem exec_sameFile {a : Int} (b : Int) {f : F} (hf : files.file m.kernel a = some f) :
    ∃ answer m', (call (.sameFile a b) : Op κ _).exec m = (.ok answer, m') ∧ Compares files m m' ∧
      (answer = .ok true ↔ files.file m.kernel b = some f) :=
  ⟨_, _, exec_call _ m, ⟨rfl, rfl, files.compared m.kernel a b, [.sameFile a b], rfl, fun _ h =>
    ⟨a, b, List.mem_singleton.mp h⟩⟩, files.same hf⟩

/-- The first handle whose descriptor is of the file is found, if the descriptors of the handles are open.  By
induction on the handles. -/
theorem exec_findFile (files : OpenFiles κ F) (fd : Int) {hs : List Handle} (i : Nat) {m : Machine κ}
    (hopen : ∀ h ∈ hs, 0 ≤ h.fd → ∃ f, files.file m.kernel h.fd = some f) :
    ∃ r m', (Device.findFile fd hs i).exec m = (.ok r, m') ∧ Compares files m m' ∧
      ((r = none ∧ ∀ h ∈ hs, 0 ≤ h.fd → files.file m.kernel fd ≠ files.file m.kernel h.fd) ∨
        ∃ j h, r = some (i + j) ∧ hs[j]? = some h ∧ 0 ≤ h.fd ∧
          files.file m.kernel fd = files.file m.kernel h.fd) := by
  induction hs generalizing i m with
  | nil => exact ⟨none, m, rfl, Journey.refl m, .inl ⟨rfl, fun _ h => absurd h List.not_mem_nil⟩⟩
  | cons h hs ih =>
    -- the search goes on behind a handle that is not of the file
    have hnext {m₁ : Machine κ} (h₁ : Compares files m m₁)
        (hne : 0 ≤ h.fd → files.file m.kernel fd ≠ files.file m.kernel h.fd) :
        ∃ r m', (Device.findFile fd hs (i + 1)).exec m₁ = (.ok r, m') ∧ Compares files m m' ∧
          ((r = none ∧ ∀ h' ∈ h :: hs, 0 ≤ h'.fd → files.file m.kernel fd ≠ files.file m.kernel h'.fd) ∨
            ∃ j h', r = some (i + j) ∧ (h :: hs)[j]? = some h' ∧ 0 ≤ h'.fd ∧
              files.file m.kernel fd = files.file m.kernel h'.fd) := by
      obtain ⟨r, m', he, hm', hcase⟩ := ih (i + 1) (m := m₁) fun h' hh' hfd => by
        rw [h₁.file]
        exact hopen h' (List.mem_cons_of_mem _ hh') hfd
      simp only [h₁.file] at hcase
      refine ⟨r, m', he, Journey.trans h₁ hm', ?_⟩
      rcases hcase with ⟨hr, hall⟩ | ⟨j, h', hr, hj, hfile⟩
      · exact .inl ⟨hr, List.forall_mem_cons.mpr ⟨hne, hall⟩⟩
      · exact .inr ⟨j + 1, h', by rw [hr, Nat.add_right_comm]; rfl, hj, hfile⟩
    unfold Device.findFile
    split
    · rename_i hneg
      exact hnext (Journey.refl m) fun hfd => absurd hneg (Int.not_lt.mpr hfd)
    · rename_i hneg
      have hfd : 0 ≤ h.fd := Int.not_lt.mp hneg
      obtain ⟨f, hf⟩ := hopen h List.mem_cons_self hfd
      obtain ⟨answer, m₁, hcall, h₁, hsame⟩ := exec_sameFile fd hf
      rw [exec_bind_of_ok hcall]
      rcases answer with e | same
      · obtain ⟨_, m₂, herror⟩ := returns_error "failed to compare file descriptions"
          [("fd1", toString h.fd), ("fd2", toString fd), ("error", e.message)] m₁
        have h₂ : Compares files m m₂ := Journey.trans h₁ ((compares_log _ _ _).ok herror)
        dsimp only
        rw [exec_bind_of_ok herror]
        exact hnext h₂ fun _ heq => by cases hsame.mpr (heq.trans hf)
      · cases same with
        | true => exact ⟨some i, m₁, rfl, h₁, .inr ⟨0, h, rfl, rfl, hfd, (hsame.mp rfl).trans hf.symm⟩⟩
        | false => exact hnext h₁ fun _ heq => by cases hsame.mpr (heq.trans hf)

theorem Compares.keepsOpen (h : Compares files m m') : KeepsOpen files m m' :=
  ⟨fun k fd ho _ => by rwa [Machine.Owns, h.device] at ho, fun fd f hf => by rwa [h.file]⟩

/-- The handle whose descriptor is of the file is found, if there is one. -/
theorem Machine.Apart.exec_findFile (hm : m.Apart files) (fd : Int) :
    ∃ r m', (Device.findFile fd m.device.handles.entries 0).exec m = (.ok r, m') ∧ Compares files m m' ∧
      ((r = none ∧ ∀ k fd', m.Owns k fd' → 0 ≤ fd' →
          files.file m.kernel fd ≠ files.file m.kernel fd') ∨
        ∃ k fd', r = some k ∧ m.Owns k fd' ∧ 0 ≤ fd' ∧ files.file m.kernel fd = files.file m.kernel fd') := by
  have howns {k : Nat} {h : Handle} (hk : m.device.handles.entries[k]? = some h) (hfd : 0 ≤ h.fd) :
      m.Owns k h.fd := ⟨h, hk, rfl, fun hfreed => absurd (hfreed ▸ hfd) (by decide)⟩
  obtain ⟨r, m', he, hm', hcase⟩ := Mali.exec_findFile files fd 0 fun h hh hfd => by
    obtain ⟨k, hk⟩ := List.mem_iff_getElem?.mp hh
    exact hm.opened k h.fd (howns hk hfd) hfd
  refine ⟨r, m', he, hm', ?_⟩
  rcases hcase with ⟨hr, hnone⟩ | ⟨j, h, hr, hj, hfd, hfile⟩
  · refine .inl ⟨hr, ?_⟩
    rintro k _ ⟨h, hk, rfl, -⟩ hfd
    exact hnone h (List.mem_of_getElem? hk) hfd
  · exact .inr ⟨j, h.fd, by rw [hr, Nat.zero_add], howns hj hfd, hfd, hfile⟩

/-- Importing a file that a handle owns a descriptor of only looks for it, and finds that handle. -/
theorem exec_importFile_of_owns (hm : m.Apart files) {fd d : Int} {k : Nat} (hown : m.Owns k d) (hd : 0 ≤ d)
    (hfile : files.file m.kernel fd = files.file m.kernel d) :
    ∃ m', (Device.importFile fd).exec m = (.ok k, m') ∧ Compares files m m' := by
  obtain ⟨_, m₁, hdebug⟩ := returns_debug (κ := κ) "Device::ImportDmabuf" [] m
  have h₁ : Compares files m m₁ := (compares_log _ _ _).ok hdebug
  have hm₁ := hm.shelters h₁.keepsOpen.shelters
  have hown₁ : m₁.Owns k d := by rwa [Machine.Owns, h₁.device]
  obtain ⟨r, m', hfind, h', hcase⟩ := hm₁.exec_findFile fd
  rcases hcase with ⟨-, hnone⟩ | ⟨k', fd', rfl, hown', hfd', hfile'⟩
  · rw [← h₁.file, ← h₁.file] at hfile
    exact absurd hfile (hnone k d hown₁ hd)
  · obtain rfl := hm₁.distinct k k' d fd' hown₁ hown' hd hfd' (by
      rw [← hfile', h₁.file, h₁.file, hfile])
    refine ⟨m', ?_, Journey.trans h₁ h'⟩
    unfold Device.importFile
    rw [exec_bind_of_ok hdebug, exec_bind_of_ok (exec_device m₁), exec_bind_of_ok hfind]
    rfl

/-! ## Importing a file -/

/-- A descriptor is of a file that no handle owns a descriptor of. -/
structure Machine.Spare (files : OpenFiles κ F) (m : Machine κ) (d : Int) : Prop where
  nonneg : 0 ≤ d
  other : ∃ f, files.file m.kernel d = some f ∧
    ∀ k fd, m.Owns k fd → 0 ≤ fd → ∃ g, files.file m.kernel fd = some g ∧ g ≠ f

/-- A duplicate is of a new file if no handle owns a descriptor of the file. -/
theorem Machine.Apart.spare_dup (hm : m.Apart files) {fd d : Int}
    (hnone : ∀ k fd', m.Owns k fd' → 0 ≤ fd' → files.file m.kernel fd ≠ files.file m.kernel fd')
    (he : (call (.dup fd)).exec m = (.ok (.ok d), m')) : m'.Spare files d := by
  rw [exec_call, Prod.mk.injEq, Except.ok.injEq] at he
  obtain ⟨hdup, rfl⟩ := he
  obtain ⟨hd, f, hf, hf'⟩ := files.duplicated hdup
  refine ⟨hd, f, hf', fun k fd' hown hfd' => ?_⟩
  obtain ⟨g, hg⟩ := hm.opened k fd' hown hfd'
  refine ⟨g, files.stays hg (by simp), ?_⟩
  rintro rfl
  exact hnone k fd' hown hfd' (hf.trans hg.symm)

namespace Machine.Spare

variable {d : Int}

theorem keepsOpen (h : m.Spare files d) (hs : KeepsOpen files m m') : m'.Spare files d := by
  obtain ⟨f, hf, hother⟩ := h.other
  refine ⟨h.nonneg, f, hs.stays d f hf, fun k fd ho hfd => ?_⟩
  obtain ⟨g, hg, hne⟩ := hother k fd (hs.owned k fd ho hfd) hfd
  exact ⟨g, hs.stays fd g hg, hne⟩

theorem not_owns (h : m.Spare files d) (k : Nat) : ¬m.Owns k d := by
  intro ho
  obtain ⟨f, hf, hother⟩ := h.other
  obtain ⟨g, hg, hne⟩ := hother k d ho h.nonneg
  exact hne (Option.some.inj (hg.symm.trans hf))

end Machine.Spare

/-- Relations that an import keeps at its end: when it closes a duplicate, or gives out a handle that owns it
and has a mapping. -/
structure Importing (files : OpenFiles κ F) (R : Machine κ → Machine κ → Prop) : Prop where
  close {m : Machine κ} {d : Int} (fd : Int) : m.Spare files d → KeepsAt R (Device.closeDuplicate fd d) m
  alloc {m : Machine κ} {d : Int} (va : UInt64) : m.Spare files d → KeepsAt R (Device.allocHandle va d) m
  map (k : Nat) (p : Option Mapping) :
    Keeps R (modifyDevice fun d => { d with handles := d.handles.setMapping k p })

section Importing

variable {R : Machine κ → Machine κ → Prop} [Tolerant R] (hR : Importing files R) {d : Int}
include hR

/-- The duplicate is closed if its import fails, and is spare if not. -/
theorem keepsAt_importDuplicate (h : m.Spare files d) (fd : Int) :
    KeepsAt R (Device.importDuplicate fd d) m ∧
      ∀ reply m', (Device.importDuplicate fd d).exec m = (.ok reply, m') → m'.Spare files d := by
  have hsteady : Keeps (KeepsOpen files) (attempt (Interface.importFd d Interface.importFlags)) :=
    keeps_attempt (keeps_importFd _ _)
  unfold Device.importDuplicate
  constructor
  · refine keepsAt_bind (keeps_attempt (keeps_importFd _ _) m) fun r m₁ hr => ?_
    cases r with
    | ok reply => exact keeps_pure reply m₁
    | error f =>
      exact keepsAt_bind (hR.close fd (h.keepsOpen (hsteady.ok hr))) fun _ m₂ _ => keeps_fail f m₂
  · intro reply m' he
    obtain ⟨r, m₁, hr, he⟩ := bind_ok he
    cases r with
    | ok _ =>
      cases he
      exact h.keepsOpen (hsteady.ok hr)
    | error f =>
      obtain ⟨_, _, -, he⟩ := bind_ok he
      cases he

/-- It is closed as well if its region cannot be mapped. -/
theorem keepsAt_mapImportReply (h : m.Spare files d) (fd : Int) (reply : ImportReply) :
    KeepsAt R (Device.mapImportReply fd d reply) m ∧
      ∀ p m', (Device.mapImportReply fd d reply).exec m = (.ok p, m') → m'.Spare files d := by
  have hregion : Keeps (KeepsOpen files) (attempt (Interface.freeRegion reply.va)) :=
    keeps_attempt (keeps_freeRegion _)
  have hmap (size : Int64) : Keeps (KeepsOpen files) (Device.mapShared reply.va size) := keeps_mapShared _ _
  unfold Device.mapImportReply
  split
  · exact ⟨keeps_pure _ m, fun p m' he => by cases he; exact h⟩
  · constructor
    · refine keepsAt_bind (keeps_device m) fun dev m₁ hdev => ?_
      cases hdev
      refine keepsAt_bind (keeps_mapShared _ _ m) fun r m₁ hr => ?_
      have h₁ := h.keepsOpen ((hmap _).ok hr)
      cases r with
      | ok p => exact keeps_pure _ m₁
      | error e =>
        -- the region that cannot be mapped is given back, then the duplicate is closed
        refine keepsAt_bind (keeps_error _ _ m₁) fun _ m₂ he => ?_
        have h₂ := h₁.keepsOpen ((keeps_error _ _).ok he)
        refine keepsAt_bind (keeps_attempt (keeps_freeRegion _) m₂) fun r m₃ hr => ?_
        have h₃ := h₂.keepsOpen (hregion.ok hr)
        have hend {m₄ : Machine κ} (h₄ : m₄.Spare files d) (c : Fault) : KeepsAt R (do
            Device.closeDuplicate fd d
            fail c : Op κ (Option Mapping)) m₄ :=
          keepsAt_bind (hR.close fd h₄) fun _ m₅ _ => keeps_fail c m₅
        cases r with
        | ok _ => exact hend h₃ _
        | error f =>
          exact keepsAt_bind (keeps_error _ _ m₃) fun _ m₄ he =>
            hend (h₃.keepsOpen ((keeps_error _ _).ok he)) _
    · intro p m' he
      obtain ⟨dev, m₁, hdev, he⟩ := bind_ok he
      cases hdev
      obtain ⟨r, m₁, hr, he⟩ := bind_ok he
      cases r with
      | ok p =>
        cases he
        exact h.keepsOpen ((hmap _).ok hr)
      | error e =>
        obtain ⟨_, m₂, -, he⟩ := bind_ok he
        obtain ⟨r, m₃, -, he⟩ := bind_ok he
        cases r with
        | ok _ =>
          obtain ⟨_, m₄, -, he⟩ := bind_ok he
          cases he
        | error f =>
          obtain ⟨_, m₄, -, he⟩ := bind_ok he
          obtain ⟨_, m₅, -, he⟩ := bind_ok he
          cases he

/-- Importing a file keeps what its parts keep, if handles are apart. -/
theorem keepsAt_importFile (hm : m.Apart files) (fd : Int) : KeepsAt R (Device.importFile fd) m := by
  unfold Device.importFile
  refine keepsAt_bind (keeps_debug _ _ m) fun _ m₁ hdebug => ?_
  have h₁ : Compares files m m₁ := (compares_log _ _ _).ok hdebug
  have hm₁ := hm.shelters h₁.keepsOpen.shelters
  refine keepsAt_bind (keeps_device m₁) fun dev m₂ hdev => ?_
  cases hdev
  refine keepsAt_bind (keeps_findFile _ _ _ m₁) fun found m₂ hfind => ?_
  cases found with
  | some k => exact keeps_pure k m₂
  | none =>
    obtain ⟨_, _, hfind', hcompares, hcase⟩ := hm₁.exec_findFile fd
    rw [hfind] at hfind'
    cases hfind'
    have hnone := hcase.elim And.right fun ⟨_, _, h, _⟩ => nomatch h
    have hm₂ := hm₁.shelters hcompares.keepsOpen.shelters
    refine keepsAt_bind (keeps_plainCall rfl m₂) fun r m₃ hdup => ?_
    cases r with
    | error e => exact keeps_fail _ m₃
    | ok d =>
      have h₃ : m₃.Spare files d := hm₂.spare_dup (fun k fd' hown hfd' => by
        rw [hcompares.file, hcompares.file]
        exact hnone k fd' (by rwa [Machine.Owns, hcompares.device] at hown) hfd') hdup
      obtain ⟨himport, hspare⟩ := keepsAt_importDuplicate hR h₃ fd
      refine keepsAt_bind himport fun reply m₄ hreply => ?_
      obtain ⟨hmap, hspare⟩ := keepsAt_mapImportReply hR (hspare reply m₄ hreply) fd reply
      refine keepsAt_bind hmap fun p m₅ hp => ?_
      exact keepsAt_bind (hR.alloc _ (hspare p m₅ hp)) fun k m₆ _ =>
        keepsAt_bind (hR.map k p m₆) fun _ m₇ _ => keeps_pure k m₇

end Importing

/-! ## What an import keeps -/

/-- Handles stay apart: the new one owns a duplicate of a file of its own. -/
theorem importing_apart : Importing files (KeepsApart files) where
  close {m d} fd h := by
    unfold Device.closeDuplicate
    refine keepsAt_bind (apart_close h.not_owns) fun r m' _ => ?_
    cases r with
    | ok _ => exact keeps_pure _ m'
    | error e => exact keeps_error _ _ m'
  alloc {m d} va h hs hm := by
    obtain ⟨_, he⟩ := (faultless_allocHandle va d).ok hs
    obtain ⟨f, hf, hother⟩ := h.other
    obtain ⟨-, hm'⟩ := allocHandle_ok he
    rw [hm']
    constructor
    · intro k fd ho hfd
      rcases HandleTable.owns_of_alloc ho with ⟨-, rfl⟩ | ho
      · exact ⟨f, hf⟩
      · exact hm.opened k fd ho hfd
    · intro k k' fd fd' ho ho' hfd hfd' heq
      rcases HandleTable.owns_of_alloc ho with ⟨rfl, rfl⟩ | hold <;>
        rcases HandleTable.owns_of_alloc ho' with ⟨rfl, rfl⟩ | hold'
      · rfl
      · obtain ⟨g, hg, hne⟩ := hother k' fd' hold' hfd'
        exact absurd (Option.some.inj ((heq.trans hg).symm.trans hf)) hne
      · obtain ⟨g, hg, hne⟩ := hother k fd hold hfd
        exact absurd (Option.some.inj (hg.symm.trans (heq.trans hf))) hne
      · exact hm.distinct k k' fd fd' hold hold' hfd hfd' heq
  map k p := keeps_modify fun m => KeepsOpen.apart <| keepsOpen_of_owns rfl
    fun k' fd (ho : (m.device.handles.setMapping k p).Owns k' fd) => HandleTable.owns_setMapping_iff.mp ho

/-- The rules of the table are kept: no duplicate is marked as freed. -/
theorem importing_lawful : Importing files (Lawful (κ := κ)) where
  close fd _ := keeps_closeDuplicate fd _ _
  alloc {m d} va h := lawful_allocHandle va (by
    rintro rfl
    exact absurd h.nonneg (by decide)) m
  map k p := keeps_modify fun m hm => HandleTable.check_setMapping hm k p

/-- The allocator is left alone. -/
theorem importing_allocator {R : Machine κ → Machine κ → Prop} [OfAllocator R] : Importing files R where
  close fd _ := keeps_closeDuplicate fd _ _
  alloc va _ := keeps_allocHandle va _ _
  map _ _ := keeps_modifyDevice _

end Kernel

end Mali
