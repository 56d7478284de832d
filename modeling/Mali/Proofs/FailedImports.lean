import Mali.Proofs.Deeds
import Mali.Proofs.HandleMap
import Mali.Proofs.Workings

/-!
# Imports that fail

An import takes a duplicate of the descriptor, a region for it, a mapping if the kernel asks for one, and a handle.
Only then the size of the file is read, and a file without a mapping is mapped.  Two operations share this work, and
each cleans up after its own failures: the first closes the duplicate and gives the region back, the second ends the
mapping and frees the handle, which closes the duplicate.  Ending the mapping that the kernel asked for gives its region
back.  A region that needed none is not given back by the second operation, so it outlives the failed import.

* `HandleTable.SameLive`, `HandleTable.Tidy`: what a handle that was given out and freed leaves behind.
* `Device.newImport`, `ImportCourse`: importing a file that has no handle, and the ways that this can go.
* `Vanished`: what a failed import took from the kernel, and what it gave back.
* `importBuffer_vanishes`: a failed import leaves the library as it was, and gives back what it took, except for a region
  that needed no mapping.
-/

namespace Mali

open Op

/-! ## Handles that come and go -/

namespace HandleTable

variable {t : HandleTable}

/-- Two tables have the same live entries. -/
def SameLive (t t' : HandleTable) : Prop :=
  ∀ (k : Nat) (e : Handle), isFreed e = false → (t'.entries[k]? = some e ↔ t.entries[k]? = some e)

/-- A table ends with a live entry, and nothing is kept of the freed ones. -/
structure Tidy (t : HandleTable) : Prop where
  last : ∀ e, t.entries.getLast? = some e → isFreed e = false
  blank : ∀ e ∈ t.entries, isFreed e = true → e = { fd := freedFd }

theorem getElem?_dropFreedTail {es : List Handle} {k : Nat} {e : Handle} (he : isFreed e = false) :
    (dropFreedTail es)[k]? = some e ↔ es[k]? = some e := by
  obtain ⟨tail, hsplit, htail⟩ := dropFreedTail_append es
  rcases Nat.lt_or_ge k (dropFreedTail es).length with hlt | hge
  · conv_rhs => rw [hsplit, List.getElem?_append_left hlt]
  · refine iff_of_false (by rw [List.getElem?_eq_none hge]; nofun) fun hk => ?_
    rw [hsplit, List.getElem?_append_right hge] at hk
    rw [htail e (List.mem_of_getElem? hk)] at he
    cases he

/-- Nothing is dropped from a list that ends with a live entry. -/
theorem dropFreedTail_eq {es : List Handle} (h : ∀ e, es.getLast? = some e → isFreed e = false) :
    dropFreedTail es = es := by
  rw [dropFreedTail, List.dropWhile_eq_self_iff.mpr, List.reverse_reverse]
  intro hlength
  rw [Bool.not_eq_true]
  exact h _ (by rw [← List.head?_reverse, List.head?_eq_getElem?, List.getElem?_eq_getElem hlength])

/-- The entries of a table in which a handle was given out and taken back. -/
theorem entries_alloc_free (va : UInt64) (fd : Int) (p : Option Mapping) :
    (((t.alloc va fd).2.setMapping t.freeIndex p).free t.freeIndex).2.entries =
      dropFreedTail (if t.freeIndex < t.size then t.entries.set t.freeIndex { fd := freedFd }
        else t.entries ++ [{ fd := freedFd }]) := by
  have hle : t.freeIndex ≤ t.entries.length := List.findIdx_le_length
  have hlength : ((t.alloc va fd).2.setMapping t.freeIndex p).entries.length =
      max t.entries.length (t.freeIndex + 1) := by
    rw [setMapping, List.length_modify, length_alloc]
  rw [free, index?_natCast (by rw [hlength]; omega)]
  dsimp only
  refine congrArg dropFreedTail (List.ext_getElem? fun j => ?_)
  rw [List.getElem?_set, setMapping, List.getElem?_modify, getElem?_alloc, List.length_modify, length_alloc]
  by_cases hj : t.freeIndex = j
  · subst hj
    rw [if_pos rfl, if_pos (by omega)]
    split
    · rw [List.getElem?_set_self ‹_›]
    · rw [show t.freeIndex = t.entries.length from Nat.le_antisymm hle (Nat.not_lt.mp ‹_›),
        List.getElem?_concat_length]
  · rw [if_neg hj, if_neg (Ne.symm hj)]
    simp only [if_neg hj, Option.map_eq_map, Option.map_id']
    split
    · rw [List.getElem?_set_ne hj]
    · have hend : t.freeIndex = t.entries.length := Nat.le_antisymm hle (Nat.not_lt.mp ‹_›)
      rw [List.getElem?_append]
      split
      · rfl
      · rw [List.getElem?_eq_none (by omega), List.getElem?_singleton, if_neg (by omega)]

/-- Freeing a handle gives what it owned. -/
theorem free_owns {k : Nat} {fd : Int} (h : t.Owns k fd) : (t.free k).1 = some fd := by
  obtain ⟨e, he, rfl, -⟩ := h
  rw [free, index?_natCast (List.getElem?_eq_some_iff.mp he).1]
  dsimp only
  rw [he, Option.map_some]

/-- Giving a handle out and taking it back leaves the live entries. -/
theorem sameLive_alloc_free (va : UInt64) (fd : Int) (p : Option Mapping) :
    t.SameLive (((t.alloc va fd).2.setMapping t.freeIndex p).free t.freeIndex).2 := by
  intro k e he
  rw [entries_alloc_free, getElem?_dropFreedTail he]
  have hne : ({ fd := freedFd } : Handle) ≠ e := by
    rintro rfl
    cases he
  split
  · have hlt : t.freeIndex < t.entries.length := ‹_›
    rw [List.getElem?_set]
    split
    · rename_i hk
      subst hk
      have hfreed : isFreed t.entries[t.freeIndex] = true := List.findIdx_getElem (w := hlt)
      rw [List.getElem?_eq_getElem hlt, Option.some_inj, Option.some_inj]
      exact iff_of_false hne fun h => by rw [h, he] at hfreed; cases hfreed
    · rfl
  · rw [List.getElem?_append]
    split
    · rfl
    · rename_i hk
      rw [List.getElem?_eq_none (Nat.not_lt.mp hk), List.getElem?_singleton]
      refine iff_of_false ?_ nofun
      split
      · exact fun h => hne (Option.some.inj h)
      · nofun

/-- A tidy table is as it was before. -/
theorem Tidy.alloc_free (h : t.Tidy) (va : UInt64) (fd : Int) (p : Option Mapping) :
    (((t.alloc va fd).2.setMapping t.freeIndex p).free t.freeIndex).2 = t := by
  suffices hentries : (((t.alloc va fd).2.setMapping t.freeIndex p).free t.freeIndex).2.entries = t.entries by
    cases t
    exact congrArg HandleTable.mk hentries
  rw [entries_alloc_free]
  split
  · have hlt : t.freeIndex < t.entries.length := ‹_›
    have hfreed : isFreed t.entries[t.freeIndex] = true := List.findIdx_getElem (w := hlt)
    rw [← h.blank _ (List.getElem_mem hlt) hfreed, List.set_getElem_self]
    exact dropFreedTail_eq h.last
  · rw [dropFreedTail, List.reverse_append, List.reverse_singleton, List.singleton_append,
      List.dropWhile_cons_of_pos (by rfl)]
    exact dropFreedTail_eq h.last

end HandleTable

variable {κ : Type} [Kernel κ] {d : Device}

/-! ## Importing a file -/

namespace Device

/-- Imports a file that has no handle yet: gives the duplicate, the answer, and the mapping that was asked for. -/
def newImport (fd : Int) : Op κ (Int × ImportReply × Option Mapping) := do
  match ← call (.dup fd) with
  | .error e => fail (.during (.duplicating fd) (.ofErrno e))
  | .ok duplicate =>
    let reply ← importDuplicate fd duplicate
    let mapping ← mapImportReply fd duplicate reply
    return (duplicate, reply, mapping)

/-- Gives an import a handle, which owns the duplicate. -/
def enterImport (duplicate : Int) (reply : ImportReply) (mapping : Option Mapping) : Op κ Nat := do
  let handle ← allocHandle (match mapping with | none => reply.va | some m => m.address) duplicate
  modifyDevice fun d => { d with handles := d.handles.setMapping handle mapping }
  return handle

/-- A file that has no handle yet is imported and gets one. -/
theorem importFile_eq (fd : Int) : (importFile fd : Op κ Nat) = (do
    debug "Device::ImportDmabuf"
    match ← findFile fd (← device).handles.entries 0 with
    | some handle => return handle
    | none =>
      let (duplicate, reply, mapping) ← newImport fd
      enterImport duplicate reply mapping) := by
  unfold importFile newImport enterImport
  refine bind_congr fun _ => bind_congr fun d => bind_congr fun found => ?_
  cases found with
  | some handle => rfl
  | none =>
    rw [bind_assoc]
    refine bind_congr fun answer => ?_
    cases answer with
    | error e => rfl
    | ok duplicate =>
      rw [bind_assoc]
      refine bind_congr fun reply => ?_
      rw [bind_assoc]
      exact bind_congr fun mapping => rfl

end Device

/-- The ways that importing a file without a handle can go. -/
inductive ImportCourse : Except Fault (Int × ImportReply × Option Mapping) → List Deed → Prop
  /-- There is no duplicate. -/
  | unduplicated (f : Fault) : ImportCourse (.error f) []
  /-- The kernel refuses. -/
  | refused (dup : Int) (f : Fault) : ImportCourse (.error f) [.closed dup, .duplicated dup]
  /-- The region cannot be mapped. -/
  | unmapped (dup : Int) {reply : ImportReply} (h : reply.flags &&& MemFlag.needMmap ≠ 0) (f : Fault) :
    ImportCourse (.error f) [.closed dup, .freed reply.va, .imported reply, .duplicated dup]
  /-- The region does not have to be mapped. -/
  | plain (dup : Int) {reply : ImportReply} (h : reply.flags &&& MemFlag.needMmap = 0) :
    ImportCourse (.ok (dup, reply, none)) [.imported reply, .duplicated dup]
  /-- The region is mapped. -/
  | mapped (dup : Int) {reply : ImportReply} (h : reply.flags &&& MemFlag.needMmap ≠ 0) (p : Mapping) :
    ImportCourse (.ok (dup, reply, some p)) [.mapped reply.va.toInt64 p, .imported reply, .duplicated dup]

namespace Device

/-- Closing a duplicate comes to nothing else. -/
theorem does_closeDuplicate (fd dup : Int) :
    Does d (closeDuplicate fd dup : Op κ Unit) fun r es => r = .ok () ∧ es = [.closed dup] := by
  unfold closeDuplicate
  refine (does_call _).bind (by rintro h es ⟨answer, hr, -⟩; cases hr) ?_
  rintro answer es ⟨answer', hr, rfl⟩
  cases hr
  cases answer with
  | ok _ => exact .pure ⟨rfl, rfl⟩
  | error e => exact does_iff_calls.2 ((calls_error _ _).mono (by rintro r es ⟨rfl, _, rfl, -⟩; exact ⟨rfl, rfl⟩))

/-- After a duplicate was closed, an operation fails. -/
theorem does_closeDuplicate_fail {α : Type} (fd dup : Int) (f : Fault) :
    Does d (do closeDuplicate fd dup; fail f : Op κ α) fun r es => r = .error f ∧ es = [.closed dup] := by
  refine (does_closeDuplicate fd dup).bind (by rintro h es ⟨hr, -⟩; cases hr) ?_
  rintro _ es ⟨-, rfl⟩
  exact .fail ⟨rfl, rfl⟩

/-- A duplicate is imported, or closed. -/
theorem does_importDuplicate (fd dup : Int) :
    Does d (importDuplicate fd dup : Op κ ImportReply) fun r es =>
      (∃ reply, r = .ok reply ∧ es = [.imported reply]) ∨ (∃ f, r = .error f ∧ es = [.closed dup]) := by
  unfold importDuplicate
  refine (does_importFd _ _).attempt.bind (by rintro h es ⟨answer, hr, -⟩; cases hr) ?_
  rintro answer es ⟨answer', hr, hcases⟩
  cases hr
  rcases hcases with ⟨reply, rfl, rfl⟩ | ⟨f, rfl, rfl⟩
  · exact .pure (.inl ⟨reply, rfl, rfl⟩)
  · refine (does_closeDuplicate_fail fd dup f).mono ?_
    rintro r es ⟨rfl, rfl⟩
    exact .inr ⟨f, rfl, rfl⟩

/-- A region is mapped if the kernel asks for that, and otherwise given back. -/
theorem does_mapImportReply (fd dup : Int) (reply : ImportReply) :
    Does d (mapImportReply fd dup reply : Op κ (Option Mapping)) fun r es =>
      (reply.flags &&& MemFlag.needMmap = 0 ∧ r = .ok none ∧ es = []) ∨
        (reply.flags &&& MemFlag.needMmap ≠ 0 ∧
          ((∃ p, r = .ok (some p) ∧ es = [.mapped reply.va.toInt64 p]) ∨
            ∃ f, r = .error f ∧ es = [.closed dup, .freed reply.va])) := by
  unfold mapImportReply mapShared
  split
  · exact .pure (.inl ⟨‹_›, rfl, rfl⟩)
  · rename_i hneed
    refine .next calls_device fun _ hd => (does_mapMemory _ _ _).bind ?_ ?_
    · rintro h es (⟨p, hp, -⟩ | ⟨e, he, -⟩)
      · cases hp
      · cases he
    · rintro answer es (⟨p, hp, rfl⟩ | ⟨e, he, rfl⟩)
      · cases hp
        exact .pure (.inr ⟨hneed, .inl ⟨p, rfl, rfl⟩⟩)
      · cases he
        refine .next (calls_error _ _) fun _ _ => (does_freeRegion _).attempt.bind ?_ ?_
        · rintro h es ⟨_, hr, -⟩
          cases hr
        · rintro freed es ⟨_, hr, rfl⟩
          have hend (f : Fault) : Does d (do closeDuplicate fd dup; fail f : Op κ (Option Mapping)) fun r es =>
              ∃ f, r = .error f ∧ es ++ [.freed reply.va] ++ [] = [.closed dup, .freed reply.va] :=
            (does_closeDuplicate_fail fd dup f).mono (by rintro r es ⟨rfl, rfl⟩; exact ⟨f, rfl, rfl⟩)
          cases freed with
          | ok _ => exact (hend _).mono fun r es h => .inr ⟨hneed, .inr h⟩
          | error f =>
            exact .next (calls_error _ _) fun _ _ => (hend _).mono fun r es h => .inr ⟨hneed, .inr h⟩

/-- Every course of importing a file without a handle is one of these. -/
theorem does_newImport (fd : Int) : Does d (newImport fd : Op κ _) ImportCourse := by
  unfold newImport
  refine (does_call _).bind (by rintro h es ⟨answer, hr, -⟩; cases hr) ?_
  rintro answer es ⟨answer', hr, rfl⟩
  cases hr
  cases answer with
  | error e => exact .fail (.unduplicated _)
  | ok dup =>
    refine (does_importDuplicate fd dup).bind ?_ ?_
    · rintro f es (⟨reply, hr, -⟩ | ⟨f', -, rfl⟩)
      · cases hr
      · exact .refused dup f
    · rintro reply es (⟨reply', hr, rfl⟩ | ⟨f, hf, -⟩)
      · cases hr
        refine (does_mapImportReply fd dup reply).bind ?_ ?_
        · rintro f es (⟨-, hr, -⟩ | ⟨hneed, ⟨p, hr, -⟩ | ⟨f', -, rfl⟩⟩)
          · cases hr
          · cases hr
          · exact .unmapped dup hneed f
        · rintro p es (⟨hneed, hr, rfl⟩ | ⟨hneed, ⟨p', hr, rfl⟩ | ⟨f', hf, -⟩⟩)
          · cases hr
            exact .pure (.plain dup hneed)
          · cases hr
            exact .pure (.mapped dup hneed p')
          · cases hf
      · cases hf

/-- A search that finds a handle has found a file that is the same.  By induction on the handles. -/
theorem does_findFile (fd : Int) (hs : List Handle) (i : Nat) :
    Does d (findFile fd hs i : Op κ (Option Nat)) fun r es =>
      (∃ k other, r = .ok (some k) ∧ .same other fd ∈ es) ∨ (r = .ok none ∧ es = []) := by
  induction hs generalizing i with
  | nil => exact .pure (.inr ⟨rfl, rfl⟩)
  | cons h hs ih =>
    unfold findFile
    split
    · exact ih _
    · refine (does_call _).bind (by rintro h es ⟨answer, hr, -⟩; cases hr) ?_
      rintro answer es ⟨answer', hr, rfl⟩
      cases hr
      have hnext (i : Nat) : Does d (findFile fd hs i : Op κ (Option Nat)) fun r es =>
          (∃ k other, r = .ok (some k) ∧ .same other fd ∈ es ++ []) ∨ (r = .ok none ∧ es ++ [] = []) := by
        simpa only [List.append_nil] using ih i
      rcases answer with e | same
      · exact .next (calls_error _ _) fun _ _ => hnext _
      · cases same with
        | true => exact .pure (.inl ⟨i, h.fd, rfl, List.mem_singleton.mpr rfl⟩)
        | false => exact hnext _

end Device

/-! ## Undoing an import -/

omit [Kernel κ] in
/-- The duplicate of an import gets a handle, which remembers the mapping. -/
theorem enterImport_ok {dup : Int} {reply : ImportReply} {p : Option Mapping} {m m' : Machine κ} {k : Nat}
    (he : (Device.enterImport dup reply p).exec m = (.ok k, m')) : k = m.device.handles.freeIndex ∧
      ∃ va, m' = { m with device := { m.device with
        handles := (m.device.handles.alloc va dup).2.setMapping m.device.handles.freeIndex p } } := by
  unfold Device.enterImport at he
  obtain ⟨k', m₁, hk, he⟩ := bind_ok he
  obtain ⟨rfl, rfl⟩ := allocHandle_ok hk
  cases he
  exact ⟨rfl, _, rfl⟩

omit [Kernel κ] in
theorem faultless_enterImport (dup : Int) (reply : ImportReply) (p : Option Mapping) :
    Faultless (Device.enterImport dup reply p : Op κ Nat) :=
  faultless_bind (faultless_allocHandle _ _) fun _ => faultless_bind (faultless_modifyDevice _) fun _ =>
    faultless_pure _

/-- Closing the descriptor of a handle comes to nothing else. -/
theorem does_closeHandleFd (k : Nat) (fd : Int) :
    Does d (Device.closeHandleFd k fd : Op κ Unit) fun r es => r = .ok () ∧ es = [.closed fd] := by
  unfold Device.closeHandleFd
  refine (does_call _).bind (by rintro h es ⟨answer, hr, -⟩; cases hr) ?_
  rintro answer es ⟨answer', hr, rfl⟩
  cases hr
  cases answer with
  | ok _ => exact .pure ⟨rfl, rfl⟩
  | error e => exact does_iff_calls.2 ((calls_error _ _).mono (by rintro r es ⟨rfl, _, rfl, -⟩; exact ⟨rfl, rfl⟩))

/-- Freeing a handle closes the descriptor that it owned, and nothing else. -/
theorem freeHandle_deeds {k : Int} {m m' : Machine κ} {u : Unit} (he : (Device.freeHandle k).exec m = (.ok u, m')) :
    ∃ cs, m'.calls = cs ++ m.calls ∧
      deedsOf cs = ((m.device.handles.free k).1.filter (0 ≤ ·)).toList.map .closed := by
  unfold Device.freeHandle Device.setHandles Device.checkHandles at he
  rw [exec_bind_of_ok (exec_device m)] at he
  rcases hfree : m.device.handles.free k with ⟨_ | fd, t⟩
  · rw [hfree] at he
    cases he
    exact ⟨[], rfl, rfl⟩
  · rw [hfree] at he
    dsimp only at he
    rw [exec_bind_of_ok (exec_modifyDevice _ m)] at he
    obtain ⟨_, m₁, hcheck, he⟩ := bind_ok he
    obtain rfl := (keeps_checkRule (R := Eq) _).ok hcheck
    rw [Option.filter_some]
    split at he
    · rename_i hfd
      obtain ⟨r, es, m₂, hclose, hdid, rfl, rfl⟩ := does_closeHandleFd (κ := κ) k.toNat fd _ rfl
      rw [hclose] at he
      cases he
      rw [if_pos (decide_eq_true hfd)]
      exact hdid.calls
    · rename_i hfd
      cases he
      rw [if_neg (mt of_decide_eq_true hfd)]
      exact ⟨[], rfl, rfl⟩

namespace Allocator

/-- An import that is undone ends the mapping of its handle and closes what the handle owned. -/
theorem dropImport_deeds {k : Nat} {h : Handle} {m m' : Machine κ} {u : Unit}
    (he : (dropImport k h).exec m = (.ok u, m')) : m'.allocator = m.allocator ∧
      m'.device = { m.device with handles := (m.device.handles.free k).2 } ∧ ∃ cs, m'.calls = cs ++ m.calls ∧
        deedsOf cs = ((m.device.handles.free k).1.filter (0 ≤ ·)).toList.map .closed ++
          h.mapping.toList.map .unmapped := by
  have hfree {m : Machine κ} (he : (Device.freeHandle k).exec m = (.ok u, m')) : SameAllocator m m' :=
    (keeps_freeHandle _).ok he
  unfold dropImport at he
  cases hmapping : h.mapping with
  | none =>
    rw [hmapping] at he
    refine ⟨hfree he, freeHandle_device he, ?_⟩
    rw [Option.toList_none, List.map_nil, List.append_nil]
    exact freeHandle_deeds he
  | some p =>
    rw [hmapping] at he
    obtain ⟨m₁, c, hsame, hcalls, hended, he⟩ := unmapping_ok rfl (fun _ => rfl) he
    obtain ⟨cs, hcs, hdeeds⟩ := freeHandle_deeds he
    rw [hsame.device] at hdeeds
    refine ⟨(hfree he).trans hsame.allocator, by rw [freeHandle_device he, hsame.device], cs ++ [c], ?_, ?_⟩
    · rw [hcs, hcalls, List.append_assoc]
      rfl
    · obtain ⟨call, answer⟩ := c
      have hc : CallRecord.deed ⟨call, answer⟩ = some (.unmapped p) := by
        unfold CallRecord.ended at hended
        split at hended
        · cases hended
          rename_i heq
          cases heq
          rfl
        · cases hended
      rw [deedsOf, List.filterMap_append, ← deedsOf, hdeeds]
      simp [hc]

/-- What measures or maps a file and fails has done nothing. -/
theorem does_importedBuffer (fd : Int) (k : Nat) (h : Handle) :
    Does d (importedBuffer fd k h : Op κ Buffer) fun r es => ∀ f, r = .error f → es = [] := by
  have hsize : Does d (fileSize fd : Op κ Int) fun _ es => es = [] := by
    unfold fileSize
    refine (does_call _).bind (by rintro h es ⟨answer, hr, -⟩; cases hr) ?_
    rintro answer es ⟨answer', hr, rfl⟩
    cases hr
    cases answer with
    | error e => exact .fail rfl
    | ok size =>
      dsimp only
      split
      · exact .fail rfl
      · exact .pure rfl
  unfold importedBuffer Device.mapImported Device.mapShared
  refine hsize.bind (fun _ _ h _ _ => h) ?_
  rintro size es rfl
  dsimp only
  split
  · exact .pure nofun
  · refine Does.bind (S := fun r es => ∀ f, r = .error f → es = []) ?_ ?_ fun _ _ _ => .pure nofun
    · refine .next (calls_debug _ _) fun _ _ => (does_mapMemory _ _ _).bind ?_ ?_
      · rintro h es (⟨p, hp, -⟩ | ⟨e, he, -⟩)
        · cases hp
        · cases he
      · rintro answer es (⟨p, hp, rfl⟩ | ⟨e, he, rfl⟩)
        · cases hp
          exact .pure nofun
        · cases he
          exact .fail fun _ _ => rfl
    · intro f es h _ _
      rw [h f rfl, List.append_nil]

/-- An import that cannot be wrapped is undone. -/
theorem wrapImport_fault {fd : Int} {k : Nat} {m m' : Machine κ} {f : Fault}
    (he : (wrapImport fd k).exec m = (.error (.fault f), m')) : m'.allocator = m.allocator ∧
      m'.device = { m.device with handles := (m.device.handles.free k).2 } ∧ ∃ cs, m'.calls = cs ++ m.calls ∧
        deedsOf cs = ((m.device.handles.free k).1.filter (0 ≤ ·)).toList.map .closed ++
          (m.device.handles.get k).mapping.toList.map .unmapped := by
  unfold wrapImport at he
  rw [exec_bind_of_ok (exec_device m)] at he
  dsimp only at he
  obtain ⟨answer, m₁, h₁, he⟩ := (faultless_attempt _).bind_survives he trivial
  cases answer with
  | ok b =>
    obtain ⟨x, hx⟩ := (faultless_addBuffer b).ok (m := m₁) (by rw [he]; trivial)
    rw [he] at hx
    cases hx
  | error f' =>
    obtain ⟨r, es, m₂, hexec, hdid, hr⟩ := does_importedBuffer (κ := κ) fd k (m.device.handles.get k) m rfl
    rw [attempt_fault h₁] at hexec
    obtain ⟨rfl, rfl⟩ : r = .error f' ∧ m₁ = m₂ := by
      obtain ⟨hout, rfl⟩ := Prod.mk.inj hexec
      cases r <;> cases hout
      exact ⟨rfl, rfl⟩
    obtain rfl := hr f' rfl
    obtain ⟨_, m₃, h₃, he⟩ := (faultless_dropImport _ _).bind_survives he trivial
    cases he
    obtain ⟨hallocator, hdevice, cs, hcs, hdeeds⟩ := dropImport_deeds h₃
    obtain ⟨cs₁, hcs₁, hdeeds₁⟩ := hdid.calls
    rw [hdid.device] at hdevice hdeeds
    refine ⟨hallocator.trans hdid.allocator, hdevice, cs ++ cs₁, by rw [hcs, hcs₁, List.append_assoc], ?_⟩
    rw [deedsOf, List.filterMap_append, ← deedsOf, ← deedsOf, hdeeds, hdeeds₁, List.append_nil]

end Allocator

/-! ## What is left of it -/

/-- A region is given back by its address, or by ending the mapping that the kernel asked for. -/
def Surrendered (reply : ImportReply) (es : List Deed) : Prop :=
  .freed reply.va ∈ es ∨ ∃ p, .mapped reply.va.toInt64 p ∈ es ∧ .unmapped p ∈ es

/-- What a failed import did.  A duplicate is closed once, every mapping is ended once, and no other region is given back
than that of the import.  That one is given back exactly if it had to be mapped. -/
structure Vanished (es : List Deed) : Prop where
  single : (es.filterMap Deed.duplicated?).length ≤ 1
  closed : es.filterMap Deed.closed? = es.filterMap Deed.duplicated?
  unmapped : es.filterMap Deed.unmapped? = es.filterMap Deed.mapped?
  freed : ∀ va, .freed va ∈ es → ∃ reply, .imported reply ∈ es ∧ va = reply.va
  surrendered : ∀ reply, .imported reply ∈ es → (Surrendered reply es ↔ reply.flags &&& MemFlag.needMmap ≠ 0)

/-- An import that fails before there is a handle has vanished. -/
theorem ImportCourse.vanished {f : Fault} {es : List Deed} (h : ImportCourse (.error f) es) : Vanished es := by
  cases h with
  | unduplicated => exact ⟨Nat.zero_le 1, rfl, rfl, nofun, nofun⟩
  | refused dup =>
    refine ⟨Nat.le_refl 1, rfl, rfl, fun va hva => ?_, fun reply hreply => ?_⟩
    · simp at hva
    · simp at hreply
  | unmapped dup hneed =>
    refine ⟨Nat.le_refl 1, rfl, rfl, fun va hva => ?_, fun reply hreply => ?_⟩
    · obtain rfl : va = _ := by simpa using hva
      exact ⟨_, by simp, rfl⟩
    · obtain rfl : reply = _ := by simpa using hreply
      exact iff_of_true (.inl (by simp)) hneed

theorem ImportCourse.duplicated {dup : Int} {reply : ImportReply} {p : Option Mapping} {es : List Deed}
    (h : ImportCourse (.ok (dup, reply, p)) es) : .duplicated dup ∈ es := by
  cases h <;> simp

/-- So has one whose handle is freed. -/
theorem ImportCourse.vanished_dropped {dup : Int} {reply : ImportReply} {p : Option Mapping} {es : List Deed}
    (h : ImportCourse (.ok (dup, reply, p)) es) : Vanished (.closed dup :: p.toList.map .unmapped ++ es) := by
  cases h with
  | plain dup hneed =>
    refine ⟨Nat.le_refl 1, rfl, rfl, fun va hva => ?_, fun reply hreply => ?_⟩
    · simp at hva
    · obtain rfl : reply = _ := by simpa using hreply
      exact iff_of_false (by simp [Surrendered]) (by simpa using hneed)
  | mapped dup hneed p =>
    refine ⟨Nat.le_refl 1, rfl, rfl, fun va hva => ?_, fun reply hreply => ?_⟩
    · simp at hva
    · obtain rfl : reply = _ := by simpa using hreply
      exact iff_of_true (.inr ⟨p, by simp, by simp⟩) hneed

/-- An import finds the file at a handle, or fails, or gives it a new handle. -/
theorem importFile_course {fd : Int} {m m' : Machine κ} {r : Except Halt Nat}
    (he : (Device.importFile fd).exec m = (r, m')) (hr : Survives r) :
    (∃ k es other, r = .ok k ∧ Did es m m' ∧ .same other fd ∈ es) ∨
      (∃ f es, r = .error (.fault f) ∧ Did es m m' ∧ ImportCourse (.error f) es) ∨
      ∃ k es dup reply p m₁, r = .ok k ∧ Did es m m₁ ∧ ImportCourse (.ok (dup, reply, p)) es ∧
        (Device.enterImport dup reply p).exec m₁ = (.ok k, m') := by
  rw [Device.importFile_eq, exec_bind_of_ok (exec_debug _ _ m), exec_bind_of_ok (exec_device _)] at he
  have hlog := Did.log m (⟨.debug, "Device::ImportDmabuf", []⟩ :: m.log)
  generalize { m with log := ⟨.debug, "Device::ImportDmabuf", []⟩ :: m.log } = m₁ at he hlog
  obtain ⟨found, es, m₂, hfind, hdid, ⟨k, other, rfl, hsame⟩ | ⟨rfl, rfl⟩⟩ :=
    Device.does_findFile (κ := κ) fd m₁.device.handles.entries 0 m₁ rfl
  · rw [exec_bind_of_ok hfind] at he
    cases he
    exact .inl ⟨k, _, other, rfl, hlog.trans hdid, by rwa [List.append_nil]⟩
  · rw [exec_bind_of_ok hfind] at he
    dsimp only at he
    obtain ⟨out, es, m₃, hnew, hdid', hcourse⟩ := Device.does_newImport (κ := κ) fd m₂ rfl
    have hdid₃ : Did es m m₃ := by simpa using (hlog.trans hdid).trans hdid'
    cases out with
    | error f =>
      rw [exec_bind, hnew] at he
      cases he
      exact .inr (.inl ⟨f, es, rfl, hdid₃, hcourse⟩)
    | ok x =>
      obtain ⟨dup, reply, p⟩ := x
      rw [exec_bind_of_ok hnew] at he
      dsimp only at he
      obtain ⟨k, hk⟩ := (faultless_enterImport dup reply p).ok (m := m₃) (by rw [he]; exact hr)
      rw [he] at hk
      cases hk
      exact .inr (.inr ⟨k, es, dup, reply, p, m₃, rfl, hdid₃, hcourse, he⟩)

/-- A failed import failed before there was a handle, or when a buffer was to be made of it. -/
theorem importBuffer_fault {fd : Int} {m m' : Machine κ} {f : Fault}
    (he : (Allocator.importBuffer fd).exec m = (.error (.fault f), m')) :
    ∃ m₁, Did [] m m₁ ∧ ((Device.importFile fd).exec m₁ = (.error (.fault f), m') ∨
      ∃ k m₂, (Device.importFile fd).exec m₁ = (.ok k, m₂) ∧
        (Allocator.wrapImport fd k).exec m₂ = (.error (.fault f), m')) := by
  have hrequire : Faultless (requireAllocator : Op κ Unit) := by
    unfold requireAllocator
    refine faultless_bind faultless_allocator fun a => ?_
    split
    · exact fun _ _ => nofun
    · exact faultless_pure _
  have hrest (x : Nat) (known : Bool) : Faultless (do
      let b ← buffer x
      Allocator.write "import" b fd (some (b.dmabufFd, known))
      return x : Op κ Nat) :=
    faultless_bind (faultless_buffer x) fun b => faultless_bind (faultless_write _ _ _ _) fun _ => faultless_pure x
  unfold Allocator.importBuffer at he
  obtain ⟨_, m₁, h₁, he⟩ := hrequire.bind_survives he trivial
  obtain rfl := (keeps_requireAllocator (R := Eq)).ok h₁
  rw [exec_bind_of_ok (exec_debug _ _ m)] at he
  refine ⟨_, .log m (⟨.debug, "Allocator::Import", []⟩ :: m.log), ?_⟩
  rcases bind_survives he trivial with ⟨f', himport, hf⟩ | ⟨k, m₂, himport, he⟩
  · cases hf
    exact .inl himport
  · refine .inr ⟨k, m₂, himport, ?_⟩
    rw [exec_bind_of_ok (exec_allocator m₂)] at he
    dsimp only at he
    cases hknown : m₂.allocator.lookup? k with
    | some x =>
      rw [hknown] at he
      have hfaultless := faultless_bind (faultless_revive (κ := κ) x) fun _ =>
        faultless_bind (faultless_pure x) fun x => hrest x true
      exact absurd (congrArg Prod.fst he) (hfaultless m₂ f)
    | none =>
      rw [hknown] at he
      rcases bind_survives he trivial with ⟨f', hwrap, hf⟩ | ⟨x, m₃, -, he⟩
      · cases hf
        exact hwrap
      · exact absurd (congrArg Prod.fst he) (hrest x false m₃ f)

/-- If importing a file that has no handle fails, the buffers, the live handles and the rest of the device are as before,
and a tidy table of handles is altogether.  The duplicate was closed once, and every mapping was ended.  The region that
the kernel made, if it came to that, was given back exactly if the kernel asked for a mapping. -/
theorem importBuffer_vanishes {fd : Int} {m m' : Machine κ} {f : Fault}
    (he : (Allocator.importBuffer fd).exec m = (.error (.fault f), m')) :
    ∃ cs, m'.calls = cs ++ m.calls ∧
      ((∀ other, .same other fd ∉ deedsOf cs) → (∀ dup, .duplicated dup ∈ deedsOf cs → 0 ≤ dup) →
        m'.allocator = m.allocator ∧ m'.device = { m.device with handles := m'.device.handles } ∧
          m.device.handles.SameLive m'.device.handles ∧
          (m.device.handles.Tidy → m'.device.handles = m.device.handles) ∧ Vanished (deedsOf cs)) := by
  obtain ⟨m₁, hlog, himport | ⟨k, m₂, himport, hwrap⟩⟩ := importBuffer_fault he
  · rcases importFile_course himport trivial with ⟨_, _, _, hk, -⟩ | ⟨f', es, hf, hdid, hcourse⟩ | ⟨_, _, _, _, _, _, hk, -⟩
    · cases hk
    · cases hf
      have hall : Did es m m' := by simpa using hlog.trans hdid
      obtain ⟨cs, hcs, rfl⟩ := hall.calls
      refine ⟨cs, hcs, fun _ _ => ⟨hall.allocator, by rw [hall.device], ?_, fun _ => by rw [hall.device],
        hcourse.vanished⟩⟩
      rw [hall.device]
      exact fun _ _ _ => .rfl
    · cases hk
  · obtain ⟨hallocator, hdevice, cs, hcs, hdeeds⟩ := Allocator.wrapImport_fault hwrap
    rcases importFile_course himport trivial with ⟨k, es, other, hk, hdid, hsame⟩ | ⟨_, _, hk, -⟩ |
        ⟨k, es, dup, reply, p, m₃, hk, hdid, hcourse, henter⟩
    · have hall : Did es m m₂ := by simpa using hlog.trans hdid
      obtain ⟨cs', hcs', rfl⟩ := hall.calls
      refine ⟨cs ++ cs', by rw [hcs, hcs', List.append_assoc], fun hnone => absurd ?_ (hnone other)⟩
      rw [deedsOf, List.filterMap_append]
      exact List.mem_append_right _ hsame
    · cases hk
    · cases hk
      have hall : Did es m m₃ := by simpa using hlog.trans hdid
      obtain ⟨rfl, va, hm₂⟩ := enterImport_ok henter
      obtain ⟨cs', hcs', rfl⟩ := hall.calls
      have happend : deedsOf (cs ++ cs') = deedsOf cs ++ deedsOf cs' := List.filterMap_append
      refine ⟨cs ++ cs', by rw [hcs, hm₂, hcs', List.append_assoc], fun _ hdup => ?_⟩
      rw [happend] at hdup
      have hdup : 0 ≤ dup := hdup dup (List.mem_append_right _ hcourse.duplicated)
      have hown : (m.device.handles.alloc va dup).2.Owns m.device.handles.freeIndex dup :=
        HandleTable.owns_alloc_self _ va fun hfreed => absurd (hfreed ▸ hdup) (by decide)
      have hget := HandleTable.mapping_get hown p
      rw [hm₂] at hallocator hdevice hdeeds
      dsimp only at hallocator hdevice hdeeds
      rw [hall.device] at hdevice hdeeds
      rw [HandleTable.free_owns (HandleTable.owns_setMapping _ _ p _ _ hown), Option.filter_some,
        if_pos (decide_eq_true hdup), hget] at hdeeds
      refine ⟨hallocator.trans hall.allocator, by rw [hdevice], ?_, fun htidy => ?_, ?_⟩
      · rw [hdevice]
        exact HandleTable.sameLive_alloc_free va dup p
      · rw [hdevice]
        exact htidy.alloc_free va dup p
      · rw [happend, hdeeds]
        exact hcourse.vanished_dropped

/-! ## An empty file -/

/-- A kernel that imports every file, and says that it is empty.  Its regions need no mapping. -/
structure Hollow where

instance : Kernel Hollow where
  call k
    | .ioctl _ (.memImport _) => ({ result := .ok ⟨0, 0x42000, 1⟩ }, k)
    | .dup _ => ({ result := .ok 51 }, k)
    | .seek .. => ({ result := .ok 0 }, k)
    | .close _ => ({ result := .ok () }, k)
    | _ => ({ result := .error .inval }, k)
  now _ := 0
  pageSize _ := 4096
  simulated _ := false

namespace Hollow

/-- Nothing was imported yet. -/
def start : Machine Hollow where
  kernel := ⟨⟩
  allocator := { started := true }

def failed : Machine Hollow := ((Allocator.importBuffer 50).exec start).2

theorem deeds_failed : deedsOf failed.calls = [.closed 51, .imported ⟨0, 0x42000, 1⟩, .duplicated 51] := rfl

/-- The region of an empty file outlives the import. -/
theorem importBuffer_vanishes_hollow : ∃ f,
    (Allocator.importBuffer 50).exec start = (.error (.fault f), failed) ∧
      failed.device.handles = start.device.handles ∧ Vanished (deedsOf failed.calls) ∧
        ¬Surrendered ⟨0, 0x42000, 1⟩ (deedsOf failed.calls) := by
  have he : (Allocator.importBuffer 50).exec start =
      (.error (.fault (.during (.fileSize 50 0) (.root .invalidImport))), failed) := exec_of_error rfl
  obtain ⟨cs, hcs, h⟩ := importBuffer_vanishes he
  obtain rfl : failed.calls = cs := by rw [hcs, show start.calls = [] from rfl, List.append_nil]
  obtain ⟨-, -, -, htidy, hvanished⟩ := h (by rw [deeds_failed]; simp) (by rw [deeds_failed]; simp)
  refine ⟨_, he, htidy ⟨nofun, nofun⟩, hvanished, ?_⟩
  rw [hvanished.surrendered _ (by rw [deeds_failed]; simp)]
  decide

end Hollow

end Mali
