import Mali.Proofs.HandleRules

/-!
# The table of handles as a map

Seen from outside a table of handles is a finite map from numbers to addresses and descriptors.  Freed
entries are marked in place and dropped at the end, but no answer shows them: a new entry gets the least
number that is not live, and a number that is not live reads as an entry without a descriptor.

What is live follows from the history alone.  So does which descriptors are closed: a table closes what it
was given, once for each time, with the entry or with the table.

* `HandleAction`, `handleMap`: what was done to a table, and the map that this comes to.
* `HandleTable.Maps`: a table stands for a map.
* `HandleTable.Maps.alloc`, `HandleTable.Maps.free`: what that is after each change.
* `HandleRun`: runs that do nothing but change the table.
* `HandleRun.refines_map`: in every run the table answers as the map, and closes what it was given.
-/

namespace Mali

open Op

variable {κ : Type}

/-! ## The map -/

/-- The address and the descriptor of every live handle. -/
abbrev HandleMap := Int → Option (UInt64 × Int)

/-- A change of the table of handles. -/
inductive HandleAction where
  /-- An address got a handle. -/
  | alloc (handle : Nat) (va : UInt64) (fd : Int)
  /-- A number was freed, whether or not it was live. -/
  | free (handle : Int)
  /-- The table was closed. -/
  | closeAll

/-- The live handles after some changes, newest first. -/
def handleMap : List HandleAction → HandleMap
  | [] => fun _ => none
  | .alloc handle va fd :: acts => Function.update (handleMap acts) handle (some (va, fd))
  | .free handle :: acts => Function.update (handleMap acts) handle none
  | .closeAll :: _ => fun _ => none

/-- Whether a change gave a descriptor to the table. -/
def HandleAction.takes (fd : Int) : HandleAction → Bool
  | .alloc _ _ fd' => fd' == fd
  | .free _ | .closeAll => false

namespace HandleMap

/-- The descriptor that a number stands for, if it is live and owns one. -/
def owned (live : HandleMap) (handle : Int) : Option Int :=
  ((live handle).map (·.2)).filter (0 ≤ ·)

/-- What reading a number gives. -/
def read (live : HandleMap) (handle : Int) : Handle :=
  match live handle with
  | some (va, fd) => { va, fd }
  | none => { fd := noFd }

end HandleMap

/-! ## Tables that stand for maps -/

namespace HandleTable

/-- What a table keeps at a number below its end. -/
def entryOf : Option (UInt64 × Int) → Handle
  | some (va, fd) => { va, fd }
  | none => { fd := freedFd }

/-- The entries after an address got a handle. -/
theorem getElem?_alloc (t : HandleTable) (va : UInt64) (fd : Int) (k : Nat) :
    (t.alloc va fd).2.entries[k]? = if k = t.freeIndex then some { va, fd } else t.entries[k]? := by
  have hle : t.freeIndex ≤ t.entries.length := List.findIdx_le_length
  unfold alloc size
  dsimp only
  split
  · rw [List.getElem?_set]
    split
    · rw [if_pos ‹t.freeIndex = k›.symm]
    · rw [if_neg (Ne.symm ‹t.freeIndex ≠ k›)]
  · have heq : t.freeIndex = t.entries.length := by omega
    rw [heq, List.getElem?_append, List.getElem?_singleton]
    split
    · rw [if_neg (by omega)]
    · split
      · rw [if_pos (by omega)]
      · rw [if_neg (by omega), List.getElem?_eq_none (by omega)]

theorem length_alloc (t : HandleTable) (va : UInt64) (fd : Int) :
    (t.alloc va fd).2.entries.length = max t.entries.length (t.freeIndex + 1) := by
  have hle : t.freeIndex ≤ t.entries.length := List.findIdx_le_length
  unfold alloc size
  dsimp only
  split
  · rw [List.length_set]
    omega
  · rw [List.length_append, List.length_singleton]
    omega

/-- A table stands for a map: it keeps what is live, marks the rest as freed, and ends with a live entry. -/
structure Maps (t : HandleTable) (live : HandleMap) : Prop where
  entry : ∀ k < t.entries.length, t.entries[k]? = some (entryOf (live (k : Int)))
  inside : ∀ handle, live handle ≠ none → ∃ k : Nat, handle = (k : Int) ∧ k < t.entries.length
  owned : ∀ {handle va fd}, live handle = some (va, fd) → noFd ≤ fd
  last : ∀ e, t.entries.getLast? = some e → isFreed e = false

namespace Maps

variable {t : HandleTable} {live : HandleMap}

theorem empty : Maps {} fun _ => none where
  entry k hk := absurd hk (Nat.not_lt_zero k)
  inside _ h := absurd rfl h
  owned h := by cases h
  last e he := by cases he

/-- An entry is marked as freed where nothing is live. -/
theorem isFreed_iff (h : Maps t live) (handle : Int) :
    isFreed (entryOf (live handle)) = true ↔ live handle = none := by
  cases hl : live handle with
  | none => simp [entryOf, isFreed]
  | some entry =>
    have hfd := h.owned hl
    have hne : entry.2 ≠ freedFd := by
      unfold noFd at hfd
      unfold freedFd
      omega
    simpa [entryOf, isFreed] using hne

/-- A table that stands for a map keeps its rules. -/
theorem check (h : Maps t live) : t.check = none := by
  rw [check_eq_none_iff]
  refine ⟨h.last, fun e he _ => ?_⟩
  obtain ⟨k, hk⟩ := List.mem_iff_getElem?.mp he
  rw [h.entry k (List.getElem?_eq_some_iff.mp hk).1] at hk
  cases hk
  cases live (k : Int) with
  | none => rfl
  | some entry => rfl

theorem index?_eq_none (h : Maps t live) {handle : Int} (hnone : t.index? handle = none) :
    live handle = none := by
  by_contra hlive
  obtain ⟨k, rfl, hk⟩ := h.inside handle hlive
  rw [index?_natCast hk] at hnone
  cases hnone

/-- Reading a number. -/
theorem get (h : Maps t live) (handle : Int) : t.get handle = live.read handle := by
  unfold HandleTable.get entry? HandleMap.read
  cases hi : t.index? handle with
  | none =>
    rw [h.index?_eq_none hi]
    rfl
  | some k =>
    obtain ⟨rfl, hk⟩ := index?_eq_some hi
    have hfreed := h.isFreed_iff (k : Int)
    rw [Option.bind_some, h.entry k hk]
    cases hl : live (k : Int) with
    | none =>
      rw [hl] at hfreed
      simp only [hfreed.mpr rfl]
      rfl
    | some entry =>
      rw [hl] at hfreed
      simp only [Bool.eq_false_iff.mpr (mt hfreed.mp (by simp))]
      rfl

/-- The place of the next entry is the least number that is not live. -/
theorem isLeast_freeIndex (h : Maps t live) : IsLeast {k : Nat | live k = none} t.freeIndex := by
  constructor
  · rcases Nat.lt_or_ge t.freeIndex t.entries.length with hlt | hge
    · have hfreed : isFreed t.entries[t.freeIndex] = true := List.findIdx_getElem (w := hlt)
      have hentry := h.entry _ hlt
      rw [List.getElem?_eq_getElem hlt, Option.some.injEq] at hentry
      rw [hentry] at hfreed
      exact (h.isFreed_iff _).mp hfreed
    · by_contra hlive
      obtain ⟨k, hk, hlt⟩ := h.inside _ hlive
      omega
  · intro k hk
    by_contra hlt
    have hlt : k < t.freeIndex := not_le.mp hlt
    have hk' : k < t.entries.length := hlt.trans_le List.findIdx_le_length
    have hentry := h.entry k hk'
    rw [List.getElem?_eq_getElem hk', Option.some.injEq] at hentry
    have hfreed := (h.isFreed_iff _).mpr hk
    rw [← hentry, List.not_of_lt_findIdx hlt] at hfreed
    cases hfreed

/-- The number of entries is that of the numbers up to the last live one. -/
theorem lt_size_iff (h : Maps t live) (n : Nat) : n < t.size ↔ ∃ k : Nat, n ≤ k ∧ live k ≠ none := by
  constructor
  · intro hn
    have hlast : t.entries.length - 1 < t.entries.length := Nat.sub_lt (Nat.zero_lt_of_lt hn) one_pos
    refine ⟨t.entries.length - 1, Nat.le_sub_one_of_lt hn, fun hnone => ?_⟩
    have hlive := h.last _ (List.getLast?_eq_getElem?.trans (h.entry _ hlast))
    rw [(h.isFreed_iff _).mpr hnone] at hlive
    cases hlive
  · rintro ⟨k, hnk, hlive⟩
    obtain ⟨j, hj, hlt⟩ := h.inside _ hlive
    have : k < t.size := Int.ofNat_inj.mp hj ▸ hlt
    omega

/-- A new entry makes one more number live. -/
theorem alloc (h : Maps t live) (va : UInt64) {fd : Int} (hfd : noFd ≤ fd) :
    Maps (t.alloc va fd).2 (Function.update live (t.freeIndex : Int) (some (va, fd))) := by
  have hle : t.freeIndex ≤ t.entries.length := List.findIdx_le_length
  have hlive : fd ≠ freedFd := by
    unfold noFd at hfd
    unfold freedFd
    omega
  refine ⟨fun k hk => ?_, fun handle hhandle => ?_, fun {handle va' fd'} hhandle => ?_, ?_⟩
  · rw [length_alloc] at hk
    rw [getElem?_alloc]
    split
    · rename_i heq
      rw [heq, Function.update_self]
      rfl
    · rename_i hne
      rw [Function.update_of_ne (natCast_ne hne)]
      exact h.entry k (by omega)
  · rw [length_alloc]
    rcases eq_or_ne handle (t.freeIndex : Int) with heq | hne
    · exact ⟨_, heq, by omega⟩
    · rw [Function.update_of_ne hne] at hhandle
      obtain ⟨k, hk, hlt⟩ := h.inside handle hhandle
      exact ⟨k, hk, by omega⟩
  · rcases eq_or_ne handle (t.freeIndex : Int) with rfl | hne
    · rw [Function.update_self] at hhandle
      cases hhandle
      exact hfd
    · rw [Function.update_of_ne hne] at hhandle
      exact h.owned hhandle
  · exact (check_eq_none_iff.mp (check_alloc h.check va hlive)).1

/-- Freeing a number makes it one that is not live. -/
theorem free (h : Maps t live) (handle : Int) :
    Maps (t.free handle).2 (Function.update live handle none) := by
  have hlast := (check_eq_none_iff.mp (check_free h.check handle)).1
  unfold HandleTable.free at hlast ⊢
  cases hi : t.index? handle with
  | none =>
    rw [Function.update_eq_self_iff.mpr (h.index?_eq_none hi).symm]
    exact h
  | some i =>
    obtain ⟨rfl, hlt⟩ := index?_eq_some hi
    obtain ⟨tail, hsplit, htail⟩ := dropFreedTail_append (t.entries.set i { fd := freedFd })
    have hlength := congrArg List.length hsplit
    rw [List.length_set, List.length_append] at hlength
    have hentry (k : Nat) (hk : k < t.entries.length) : (t.entries.set i { fd := freedFd })[k]? =
        some (entryOf (Function.update live (i : Int) none k)) := by
      rcases eq_or_ne i k with rfl | hne
      · rw [List.getElem?_set_self hlt, Function.update_self]
        rfl
      · rw [List.getElem?_set_ne hne, Function.update_of_ne (natCast_ne hne.symm)]
        exact h.entry k hk
    refine ⟨fun k hk => ?_, fun handle hhandle => ?_, fun {handle va' fd'} hhandle => ?_, ?_⟩
    · have hk : k < (dropFreedTail (t.entries.set i { fd := freedFd })).length := hk
      rw [← hentry k (by omega), hsplit, List.getElem?_append_left hk]
    · have hne : handle ≠ (i : Int) := fun he => hhandle (he ▸ Function.update_self _ _ _)
      rw [Function.update_of_ne hne] at hhandle
      obtain ⟨k, rfl, hk⟩ := h.inside handle hhandle
      refine ⟨k, rfl, ?_⟩
      -- an entry that was dropped would be freed
      by_contra hge
      have hge : (dropFreedTail (t.entries.set i { fd := freedFd })).length ≤ k := not_lt.mp hge
      have hold := hentry k hk
      rw [hsplit, List.getElem?_append_right hge, Function.update_of_ne hne] at hold
      have hfreed := htail _ (List.mem_of_getElem? hold)
      exact hhandle ((h.isFreed_iff _).mp hfreed)
    · rcases eq_or_ne handle (i : Int) with rfl | hne
      · rw [Function.update_self] at hhandle
        cases hhandle
      · rw [Function.update_of_ne hne] at hhandle
        exact h.owned hhandle
    · rw [hi] at hlast
      exact hlast

/-- The entries are what is live, in the order of their numbers. -/
theorem entries_eq (h : Maps t live) :
    t.entries = (List.range t.size).map fun k : Nat => entryOf (live (k : Int)) := by
  refine List.ext_getElem? fun k => ?_
  rw [List.getElem?_map]
  rcases Nat.lt_or_ge k t.entries.length with hlt | hge
  · have hrange : (List.range t.size)[k]? = some k := List.getElem?_range hlt
    rw [h.entry k hlt, hrange]
    rfl
  · have hrange : (List.range t.size)[k]? = none :=
      List.getElem?_eq_none (List.length_range.trans_le hge)
    rw [List.getElem?_eq_none hge, hrange]
    rfl

end Maps

/-- How many entries own a descriptor. -/
def owners (t : HandleTable) (fd : Int) : Nat := t.entries.countP (·.fd == fd)

/-- A new entry owns what it was given. -/
theorem owners_alloc (t : HandleTable) (va : UInt64) {fd fd' : Int} (hfd : 0 ≤ fd) :
    (t.alloc va fd').2.owners fd = t.owners fd + if fd' == fd then 1 else 0 := by
  unfold alloc owners size
  dsimp only
  split
  · rename_i hlt
    -- the place that is taken was freed, so it owned nothing
    have hfreed : isFreed t.entries[t.freeIndex] = true := List.findIdx_getElem (w := hlt)
    have hnone : (t.entries[t.freeIndex].fd == fd) = false := by
      rw [beq_eq_false_iff_ne]
      rw [isFreed, beq_iff_eq] at hfreed
      rw [hfreed]
      unfold freedFd
      omega
    rw [List.countP_set hlt, if_neg (by rw [hnone]; exact Bool.false_ne_true), Nat.sub_zero]
  · rw [List.countP_append, List.countP_singleton]

/-- Freeing an entry gives up what it owned. -/
theorem owners_free (t : HandleTable) (handle : Int) {fd : Int} (hfd : 0 ≤ fd) :
    (t.free handle).2.owners fd + (if (t.free handle).1 = some fd then 1 else 0) = t.owners fd := by
  unfold free owners
  cases hi : t.index? handle with
  | none => simp
  | some i =>
    obtain ⟨-, hlt⟩ := index?_eq_some hi
    obtain ⟨tail, hsplit, htail⟩ := dropFreedTail_append (t.entries.set i { fd := freedFd })
    have hfreed : (freedFd == fd) = false := by
      rw [beq_eq_false_iff_ne]
      unfold freedFd
      omega
    have hzero : tail.countP (·.fd == fd) = 0 := by
      refine List.countP_eq_zero.mpr fun e he heq => ?_
      have hmark := htail e he
      rw [isFreed, beq_iff_eq] at hmark
      rw [hmark, hfreed] at heq
      cases heq
    have hcount := List.countP_set (p := (·.fd == fd)) (a := { fd := freedFd }) hlt
    rw [hsplit, List.countP_append, hzero, hfreed] at hcount
    have hpos : (if t.entries[i].fd == fd then 1 else 0) ≤ t.entries.countP (·.fd == fd) := by
      split
      · exact List.countP_pos_iff.mpr ⟨_, List.getElem_mem hlt, ‹_›⟩
      · exact Nat.zero_le _
    simp only [List.getElem?_eq_getElem hlt, Option.map_some, Option.some.injEq]
    simp only [beq_iff_eq, Bool.false_eq_true, if_false] at hcount hpos
    omega

end HandleTable

/-! ## Operations -/

/-- The system calls that were made, newest first. -/
def Machine.syscalls (m : Machine κ) : List Syscall := m.calls.map (·.call)

/-- A handle is given out, and nothing but the table changes. -/
theorem exec_allocHandle {m : Machine κ} (h : m.device.handles.check = none) (va : UInt64) {fd : Int}
    (hfd : fd ≠ freedFd) : (Device.allocHandle va fd).exec m = (.ok m.device.handles.freeIndex,
      { m with device := { m.device with handles := (m.device.handles.alloc va fd).2 } }) := by
  unfold Device.allocHandle Device.setHandles Device.checkHandles
  rw [exec_bind_of_ok (exec_device m)]
  dsimp only
  rw [exec_bind_of_ok (exec_modifyDevice _ m)]
  split
  · rw [exec_bind_of_ok (exec_checkRule (HandleTable.check_alloc h va hfd))]
    rfl
  · rfl

section Kernel

variable [Kernel κ]

/-- Closing a descriptor is one call, whatever it answers. -/
theorem exec_closeHandleFd (handle : Nat) (fd : Int) (m : Machine κ) :
    ∃ m', (Device.closeHandleFd handle fd).exec m = (.ok (), m') ∧ m'.device = m.device ∧
      m'.syscalls = .close fd :: m.syscalls ∧ m'.kernel = (Kernel.call m.kernel (.close fd)).2 := by
  unfold Device.closeHandleFd
  rw [exec_bind_of_ok (exec_call _ m)]
  cases (Kernel.call m.kernel (.close fd)).1.result with
  | ok _ => exact ⟨_, rfl, rfl, rfl, rfl⟩
  | error _ => exact ⟨_, rfl, rfl, rfl, rfl⟩

/-- Freeing a number closes what its entry owned, and does nothing outside the device if that is nothing. -/
theorem freeHandle_ok {handle : Int} {m m' : Machine κ}
    (he : (Device.freeHandle handle).exec m = (.ok (), m')) :
    m'.syscalls =
        ((m.device.handles.free handle).1.filter (0 ≤ ·)).toList.map .close ++ m.syscalls ∧
      ((m.device.handles.free handle).1.filter (0 ≤ ·) = none → m' = { m with device := m'.device }) ∧
      ∀ fd, (m.device.handles.free handle).1.filter (0 ≤ ·) = some fd →
        m'.kernel = (Kernel.call m.kernel (.close fd)).2 := by
  unfold Device.freeHandle Device.setHandles Device.checkHandles at he
  rw [exec_bind_of_ok (exec_device m)] at he
  rcases hfree : m.device.handles.free handle with ⟨_ | fd, t⟩
  · rw [hfree] at he
    cases he
    exact ⟨rfl, fun _ => rfl, nofun⟩
  · rw [hfree] at he
    dsimp only at he
    rw [exec_bind_of_ok (exec_modifyDevice _ m)] at he
    obtain ⟨_, m₁, hcheck, he⟩ := bind_ok he
    obtain rfl := (keeps_checkRule (R := Eq) _).ok hcheck
    rw [Option.filter_some]
    by_cases hfd : 0 ≤ fd
    · rw [if_pos hfd] at he
      obtain ⟨m₂, hclose, -, hcalls, hkernel⟩ := exec_closeHandleFd (κ := κ) handle.toNat fd
        { m with device := { m.device with handles := t } }
      rw [hclose] at he
      cases he
      rw [if_pos (decide_eq_true hfd)]
      refine ⟨hcalls, nofun, fun fd' hsome => ?_⟩
      cases hsome
      exact hkernel
    · rw [if_neg hfd] at he
      cases he
      rw [if_neg (mt of_decide_eq_true hfd)]
      exact ⟨rfl, fun _ => rfl, nofun⟩

theorem exec_closeHandleFds (es : List Handle) (i : Nat) (m : Machine κ) :
    ∃ m', (Device.closeHandleFds es i).exec m = (.ok (), m') ∧ m'.device = m.device ∧
      m'.syscalls = ((es.map (·.fd)).filter (0 ≤ ·)).reverse.map .close ++ m.syscalls := by
  induction es generalizing i m with
  | nil => exact ⟨m, rfl, rfl, rfl⟩
  | cons e es ih =>
    unfold Device.closeHandleFds
    rw [List.map_cons]
    by_cases hfd : 0 ≤ e.fd
    · obtain ⟨m₁, hclose, hdevice, hcalls, -⟩ := exec_closeHandleFd i e.fd m
      obtain ⟨m', he, hdevice', hcalls'⟩ := ih (i + 1) m₁
      rw [if_pos hfd, exec_bind_of_ok hclose, List.filter_cons,
        if_pos (decide_eq_true hfd)]
      refine ⟨m', he, hdevice'.trans hdevice, ?_⟩
      rw [hcalls', hcalls, List.reverse_cons, List.map_append, List.append_assoc]
      rfl
    · rw [if_neg hfd, List.filter_cons, if_neg (mt of_decide_eq_true hfd)]
      exact ih (i + 1) m

/-- Closing a table closes what its entries own. -/
theorem exec_closeHandles (m : Machine κ) :
    ∃ m', Device.closeHandles.exec m = (.ok (), m') ∧ m'.device = { m.device with handles := {} } ∧
      m'.syscalls = ((m.device.handles.entries.map (·.fd)).filter (0 ≤ ·)).reverse.map .close ++
        m.syscalls := by
  obtain ⟨m₁, he, hdevice, hcalls⟩ := exec_closeHandleFds m.device.handles.entries 0 m
  unfold Device.closeHandles
  rw [exec_bind_of_ok (exec_device m), exec_bind_of_ok he]
  exact ⟨_, rfl, by rw [← hdevice], hcalls⟩

end Kernel

namespace HandleTable.Maps

variable {t : HandleTable} {live : HandleMap}

/-- What an entry has to close is what its number owns. -/
theorem filter_entryOf (live : HandleMap) (handle : Int) :
    (some (entryOf (live handle)).fd).filter (0 ≤ ·) = live.owned handle := by
  unfold HandleMap.owned
  cases live handle with
  | none => rfl
  | some entry => rfl

/-- A map is that of one table only. -/
theorem eq {t' : HandleTable} (h : Maps t live) (h' : Maps t' live) : t = t' := by
  have hsize : t.size = t'.size :=
    eq_of_forall_lt_iff fun n => (h.lt_size_iff n).trans (h'.lt_size_iff n).symm
  have hentries : t.entries = t'.entries := by rw [h.entries_eq, h'.entries_eq, hsize]
  cases t
  cases t'
  exact congrArg _ hentries

theorem filter_free (h : Maps t live) (handle : Int) :
    (t.free handle).1.filter (0 ≤ ·) = live.owned handle := by
  rw [← filter_entryOf]
  unfold HandleTable.free
  cases hi : t.index? handle with
  | none =>
    rw [h.index?_eq_none hi]
    rfl
  | some k =>
    obtain ⟨rfl, hk⟩ := index?_eq_some hi
    dsimp only
    rw [h.entry k hk]
    rfl

theorem filter_entries (h : Maps t live) : (t.entries.map (·.fd)).filter (0 ≤ ·) =
    (List.range t.size).filterMap fun k : Nat => live.owned k := by
  have hfilter (fds : List Int) :
      fds.filter (0 ≤ ·) = fds.filterMap fun fd => (some fd).filter (0 ≤ ·) := by
    rw [← List.filterMap_eq_filter]
    rfl
  rw [hfilter, h.entries_eq, List.map_map, List.filterMap_map]
  exact List.filterMap_congr fun k _ => filter_entryOf live k

/-- How many entries own a descriptor is how many live numbers do. -/
theorem owners_eq (h : Maps t live) {fd : Int} (hfd : 0 ≤ fd) :
    t.owners fd = (List.range t.size).countP fun k : Nat => live.owned k == some fd := by
  unfold owners
  rw [h.entries_eq, List.countP_map]
  refine List.countP_congr fun k _ => ?_
  simp only [Function.comp_apply, beq_iff_eq]
  rw [← filter_entryOf, Option.filter_some]
  split
  · rw [Option.some.injEq]
  · simp only [reduceCtorEq, iff_false]
    rintro rfl
    simp_all

end HandleTable.Maps

/-! ## Runs -/

section Kernel

variable [Kernel κ]

/-- Runs that do nothing but change the table of handles, with what was done, newest first. -/
inductive HandleRun (m₀ : Machine κ) : List HandleAction → Machine κ → Prop
  | start : HandleRun m₀ [] m₀
  | alloc {acts : List HandleAction} {m m' : Machine κ} {handle : Nat} {va : UInt64} {fd : Int}
      (h : HandleRun m₀ acts m) (hfd : noFd ≤ fd)
      (he : (Device.allocHandle va fd).exec m = (.ok handle, m')) :
      HandleRun m₀ (.alloc handle va fd :: acts) m'
  | free {acts : List HandleAction} {m m' : Machine κ} {handle : Int} (h : HandleRun m₀ acts m)
      (he : (Device.freeHandle handle).exec m = (.ok (), m')) : HandleRun m₀ (.free handle :: acts) m'
  | closeAll {acts : List HandleAction} {m m' : Machine κ} (h : HandleRun m₀ acts m)
      (he : Device.closeHandles.exec m = (.ok (), m')) : HandleRun m₀ (.closeAll :: acts) m'

/-- In every run the table stands for the map that the history comes to. -/
theorem HandleRun.maps {m₀ m : Machine κ} {acts : List HandleAction} (h₀ : m₀.device.handles = {})
    (h : HandleRun m₀ acts m) : m.device.handles.Maps (handleMap acts) := by
  induction h with
  | start =>
    rw [h₀]
    exact .empty
  | alloc _ hfd he ih =>
    obtain ⟨rfl, rfl⟩ := allocHandle_ok he
    exact ih.alloc _ hfd
  | free _ he ih =>
    rw [freeHandle_device he]
    exact ih.free _
  | @closeAll _ m _ _ he _ =>
    obtain ⟨m₁, he', hdevice, -⟩ := exec_closeHandles m
    cases he.symm.trans he'
    rw [hdevice]
    exact .empty

/-- Every descriptor that was given to the table is closed, or still owned. -/
theorem HandleRun.closed {m₀ m : Machine κ} {acts : List HandleAction} (h₀ : m₀.device.handles = {})
    (h : HandleRun m₀ acts m) {fd : Int} (hfd : 0 ≤ fd) :
    m.syscalls.count (.close fd) + m.device.handles.owners fd =
      m₀.syscalls.count (.close fd) + acts.countP (·.takes fd) := by
  have hone (fds : List Int) : (fds.map Syscall.close).count (.close fd) = fds.count fd :=
    List.count_map_of_injective _ _ (fun _ _ h => Syscall.close.inj h) _
  induction h with
  | start =>
    rw [h₀]
    rfl
  | @alloc acts m m' handle va fd' _ _ he ih =>
    obtain ⟨-, rfl⟩ := allocHandle_ok he
    have hcalls : m.syscalls.count (.close fd) + (m.device.handles.alloc va fd').2.owners fd =
        m.syscalls.count (.close fd) + (m.device.handles.owners fd + if fd' == fd then 1 else 0) := by
      rw [m.device.handles.owners_alloc va hfd]
    rw [List.countP_cons]
    exact hcalls.trans (by rw [← Nat.add_assoc, ih, Nat.add_assoc]; rfl)
  | @free acts m m' handle _ he ih =>
    have howners := m.device.handles.owners_free handle hfd
    have hclosed : ((m.device.handles.free handle).1.filter (0 ≤ ·)).toList.count fd =
        if (m.device.handles.free handle).1 = some fd then 1 else 0 := by
      rcases (m.device.handles.free handle).1 with _ | fd'
      · rfl
      · rw [Option.filter_some]
        by_cases hfd' : 0 ≤ fd'
        · simp [hfd', List.count_singleton]
        · have hne : fd' ≠ fd := fun heq => hfd' (heq ▸ hfd)
          simp [hfd', hne]
    have htable : m'.device.handles = (m.device.handles.free handle).2 := by rw [freeHandle_device he]
    rw [(freeHandle_ok he).1, htable, List.count_append, hone, hclosed, List.countP_cons]
    show _ + _ = _ + (_ + 0)
    omega
  | @closeAll acts m m' _ he ih =>
    obtain ⟨m₁, he', hdevice, hcalls⟩ := exec_closeHandles m
    cases he.symm.trans he'
    have hclosed : ((m.device.handles.entries.map (·.fd)).filter (0 ≤ ·)).reverse.count fd =
        m.device.handles.owners fd := by
      rw [List.count_reverse, List.count_filter (by simpa using hfd), List.count_eq_countP,
        List.countP_map]
      rfl
    have htable : m'.device.handles = {} := by rw [hdevice]
    rw [hcalls, htable, List.count_append, hone, hclosed, List.countP_cons]
    show _ + 0 = _ + (_ + 0)
    omega

/-- In every run the table of handles answers as the map of what is live.  A new handle is the least
number that is not live, and reading a number gives what it was made with.  The table has one more entry
than the last live number.  Freeing a number that is not live changes nothing.  A descriptor is closed by
freeing its handle or by closing the table, and as often as it was given to the table. -/
theorem HandleRun.refines_map {m₀ m : Machine κ} {acts : List HandleAction} (h₀ : m₀.device.handles = {})
    (h : HandleRun m₀ acts m) :
    let live := handleMap acts
    let t := m.device.handles
    (∀ (va : UInt64) (fd : Int), noFd ≤ fd → ∃ (k : Nat) (m' : Machine κ),
      (Device.allocHandle va fd).exec m = (.ok k, m') ∧ IsLeast {k : Nat | live k = none} k ∧
        m'.syscalls = m.syscalls) ∧
    (∀ handle, t.get handle = live.read handle) ∧
    (∀ k : Nat, IsGreatest {k : Nat | live k ≠ none} k → t.size = k + 1) ∧
    ((∀ k : Nat, live k = none) → t.size = 0) ∧
    (∀ handle, ∃ m', (Device.freeHandle handle).exec m = (.ok (), m') ∧
      m'.syscalls = (live.owned handle).toList.map .close ++ m.syscalls ∧
        (live handle = none → m' = m)) ∧
    (∃ m', Device.closeHandles.exec m = (.ok (), m') ∧ m'.syscalls =
      ((List.range t.size).filterMap fun k : Nat => live.owned k).reverse.map .close ++ m.syscalls) ∧
    ∀ fd, 0 ≤ fd → m.syscalls.count (.close fd) +
        (List.range t.size).countP (fun k : Nat => live.owned k == some fd) =
      m₀.syscalls.count (.close fd) + acts.countP (·.takes fd) := by
  have hmaps := h.maps h₀
  refine ⟨fun va fd hfd => ?_, hmaps.get, fun k hk => ?_, fun hnone => ?_, fun handle => ?_, ?_,
    fun fd hfd => ?_⟩
  · have hlive : fd ≠ freedFd := by
      unfold noFd at hfd
      unfold freedFd
      omega
    exact ⟨_, _, exec_allocHandle hmaps.check va hlive, hmaps.isLeast_freeIndex, rfl⟩
  · have hlt : k < m.device.handles.size := (hmaps.lt_size_iff k).mpr ⟨k, le_rfl, hk.1⟩
    by_contra hne
    obtain ⟨j, hj, hlive⟩ := (hmaps.lt_size_iff (k + 1)).mp (by omega)
    have := hk.2 hlive
    omega
  · by_contra hne
    obtain ⟨j, -, hlive⟩ := (hmaps.lt_size_iff 0).mp (Nat.pos_of_ne_zero hne)
    exact hlive (hnone j)
  · obtain ⟨m', he⟩ := exec_freeHandle hmaps.check handle
    refine ⟨m', he, ?_, fun hnone => ?_⟩
    · rw [(freeHandle_ok he).1, hmaps.filter_free]
    · have hsame := (freeHandle_ok he).2.1 (by rw [hmaps.filter_free, HandleMap.owned, hnone]; rfl)
      have htable : (m.device.handles.free handle).2 = m.device.handles := by
        refine HandleTable.Maps.eq ?_ hmaps
        have hfree := hmaps.free handle
        rwa [Function.update_eq_self_iff.mpr hnone.symm] at hfree
      rw [hsame, freeHandle_device he, htable]
  · obtain ⟨m', he, -, hcalls⟩ := exec_closeHandles m
    exact ⟨m', he, by rw [hcalls, hmaps.filter_entries]⟩
  · rw [← hmaps.owners_eq hfd]
    exact h.closed h₀ hfd

end Kernel

namespace HandleSample

-- a table of 256 slots is evaluated
set_option maxRecDepth 20000

/-- A device that checks its rules. -/
def start : Machine Bench where
  kernel := { model := .scripted { generation := .jm } }
  checked := true
  device := { generation := .jm }

/-- There is a handle that owns a descriptor. -/
def one : Machine Bench := ((Device.allocHandle 0x1000 4).exec start).2

/-- There is another one. -/
def two : Machine Bench := ((Device.allocHandle 0x2000 5).exec one).2

/-- The first one is freed again. -/
def holed : Machine Bench := ((Device.freeHandle 0).exec two).2

theorem run_holed : HandleRun start [.free 0, .alloc 1 0x2000 5, .alloc 0 0x1000 4] holed := by
  have hone : (Device.allocHandle 0x1000 4).exec start = (.ok 0, one) := exec_of_value (by decide)
  have htwo : (Device.allocHandle 0x2000 5).exec one = (.ok 1, two) := exec_of_value (by decide)
  have hholed : (Device.freeHandle 0).exec two = (.ok (), holed) := exec_of_value (by decide)
  exact .free (.alloc (.alloc .start (by decide) hone) (by decide) htwo) hholed

end HandleSample

/-- The place of the handle that was freed is taken next, its descriptor was closed once, and the other one
is still owned. -/
theorem refines_holed_sample : HandleSample.start.device.handles = {} ∧ noFd ≤ noFd ∧
    (∃ m', (Device.allocHandle 0x3000 noFd).exec HandleSample.holed = (.ok 0, m')) ∧
      HandleSample.holed.device.handles.get 1 = { va := 0x2000, fd := 5 } ∧
      HandleSample.holed.syscalls.count (.close 4) + 0 = 0 + 1 := by
  obtain ⟨halloc, hget, -, -, -, -, hclosed⟩ := HandleRun.refines_map rfl HandleSample.run_holed
  refine ⟨rfl, le_rfl, ?_, hget 1, hclosed 4 (by decide)⟩
  obtain ⟨k, m', he, hleast, -⟩ := halloc 0x3000 noFd le_rfl
  obtain rfl : k = 0 := Nat.le_zero.mp (hleast.2 rfl)
  exact ⟨m', he⟩

end Mali
