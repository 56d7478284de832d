import Mali.Proofs.RefusedJobs
import Mali.Proofs.Requests
import Mali.Proofs.UseCounts

/-!
# External resources of atoms

Marking the handles of an atom also collects the addresses that the kernel has to pin for it.  It goes by what is
recorded as the descriptor of an entry, and passes over the entries that are marked as having none.  An entry that was
freed has another mark, so a number below the end of the table that is not live is neither refused nor passed over: its
address, which is zero, is told to the kernel like that of an import.

The addresses are in the order of the list, a handle that is listed twice has its address told twice, and the count
beside them has sixteen bits.

* `HandleTable.listed`: the entries that a list of handles names.
* `HandleTable.markUsed_resources`: the addresses that marking collects.
* `calls_submitAtom`: the kernel is asked once, with the atom.
* `submitJob_resources`: the main result.
-/

namespace Mali

open Op

/-- An entry owns a descriptor if it is marked neither as having none nor as freed. -/
def Handle.ownsFd (h : Handle) : Bool := h.fd ≠ noFd ∧ h.fd ≠ freedFd

@[simp] theorem Handle.mark_va (h : Handle) (slot : JobSlot) (atom : UInt8) (n : Nat) :
    (h.mark slot atom n).va = h.va := by
  unfold mark
  split <;> rfl

namespace HandleTable

/-- The entries that a list of handles names, in its order.  Numbers outside the table name none. -/
def listed (t : HandleTable) (handles : List Int) : List Handle := handles.filterMap t.entry?

/-- What the kernel is told of a number: the address of its entry, unless that is marked as having no descriptor. -/
def told? (t : HandleTable) (i : Int) : Option UInt64 :=
  (Option.filter (fun h => h.fd ≠ noFd) <| t.entry? i).map Handle.va

variable {t : HandleTable} {handles : List Int} {slot : JobSlot} {atom : UInt8}

theorem entry?_natCast {k : Nat} {h : Handle} (hk : t.entries[k]? = some h) : t.entry? (k : Int) = some h := by
  unfold entry?
  rw [index?_natCast (List.getElem?_eq_some_iff.mp hk).1, Option.bind_some, hk]

theorem entry?_eq_some {i : Int} {h : Handle} (hi : t.entry? i = some h) :
    ∃ k : Nat, i = (k : Int) ∧ t.entries[k]? = some h := by
  obtain ⟨k, hk, hget⟩ := Option.bind_eq_some_iff.mp hi
  exact ⟨k, (index?_eq_some hk).1, hget⟩

/-! ## What marking collects -/

theorem filterMap_told? (t : HandleTable) (handles : List Int) :
    handles.filterMap t.told? = ((t.listed handles).filter fun h => h.fd ≠ noFd).map Handle.va := by
  rw [listed, List.filter_filterMap, List.map_filterMap]
  rfl

/-- What is told of a number does not depend on the marks of its entry. -/
theorem told?_set {t' : HandleTable} {k : Nat} {e e' : Handle} (hk : t.entries[k]? = some e)
    (ht : t'.entries = t.entries.set k e') (hva : e'.va = e.va) (hfd : e'.fd = e.fd) : t'.told? = t.told? := by
  have hlt := (List.getElem?_eq_some_iff.mp hk).1
  funext i
  have hindex : t'.index? i = t.index? i := by rw [index?, size, ht, List.length_set, index?, size]
  rw [told?, entry?, hindex, told?, entry?, ht]
  cases t.index? i with
  | none => rfl
  | some j =>
    rw [Option.bind_some, Option.bind_some]
    rcases eq_or_ne k j with rfl | hkj
    · rw [List.getElem?_set_self hlt, hk, Option.filter_some, Option.filter_some, hfd]
      split
      · rw [Option.map_some, Option.map_some, hva]
      · rfl
    · rw [List.getElem?_set_ne hkj]

theorem markOne_resources {m m' : Marked} {i : Int} (h : markOne m slot atom i = .ok m') :
    m'.resources = m.resources ++ (m.table.told? i).toList := by
  unfold markOne at h
  split at h
  · cases h
  · rename_i k hk
    split at h
    · cases h
    · rename_i e he
      split at h
      · cases h
      · cases h
        rw [told?, entry?, hk, Option.bind_some, he, Option.filter_some]
        dsimp only
        by_cases hfd : e.fd = noFd
        · simp [hfd]
        · simp [hfd]

/-- By induction on the handles: every entry is told of as it was before any of them was marked. -/
theorem markAll_resources {m m' : Marked} (h : markAll slot atom handles m = .ok m') :
    m'.resources = m.resources ++ handles.filterMap m.table.told? := by
  induction handles generalizing m with
  | nil =>
    cases h
    exact (List.append_nil _).symm
  | cons i is ih =>
    obtain ⟨m₁, h₁, hrest⟩ := markAll_cons_ok h
    obtain ⟨k, e, -, he, -, htable, -⟩ := markOne_ok h₁
    have hsame : m₁.table.told? = m.table.told? :=
      told?_set he htable (e.mark_va slot atom 1) (e.mark_fd slot atom 1)
    have hcons : (i :: is).filterMap m.table.told? = (m.table.told? i).toList ++ is.filterMap m.table.told? := by
      rw [List.filterMap_cons]
      cases m.table.told? i with
      | none => rfl
      | some va => rfl
    rw [ih hrest, markOne_resources h₁, hsame, hcons, List.append_assoc]

theorem markUsed_resources {marked : Marked} (h : t.markUsed handles slot atom = .ok marked) :
    marked.resources = ((t.listed handles).filter fun h => h.fd ≠ noFd).map Handle.va :=
  (markAll_resources h).trans (filterMap_told? t handles)

/-! ## Live handles -/

/-- If every number is in the table, all of them are live exactly if no entry is freed. -/
theorem allLive_iff (hinside : ∀ i ∈ handles, ∃ h, t.entry? i = some h) :
    t.AllLive handles ↔ ∀ h ∈ t.listed handles, h.fd ≠ freedFd := by
  constructor
  · intro hlive h hh
    obtain ⟨i, hi, hentry⟩ := List.mem_filterMap.mp hh
    obtain ⟨k, fd, rfl, e, he, rfl, hfd⟩ := hlive i hi
    rw [entry?_natCast he, Option.some.injEq] at hentry
    exact hentry ▸ hfd
  · intro hfd i hi
    obtain ⟨h, hh⟩ := hinside i hi
    obtain ⟨k, rfl, hk⟩ := entry?_eq_some hh
    exact ⟨k, h.fd, rfl, h, hk, rfl, hfd h (List.mem_filterMap.mpr ⟨k, hi, hh⟩)⟩

/-- The entries that are told of are those that own a descriptor exactly if none of them is freed. -/
theorem told_eq_owned_iff (es : List Handle) :
    (es.filter fun h => h.fd ≠ noFd).map Handle.va = (es.filter Handle.ownsFd).map Handle.va ↔
      ∀ h ∈ es, h.fd ≠ freedFd := by
  have howned : es.filter Handle.ownsFd = (es.filter fun h => h.fd ≠ noFd).filter fun h => h.fd ≠ freedFd := by
    rw [List.filter_filter]
    exact List.filter_congr fun h _ => by simp [Handle.ownsFd, and_comm]
  rw [howned]
  constructor
  · intro hsame h hh hfreed
    -- an entry that is freed is told of and owns nothing, so one list is longer
    have hlength := congrArg List.length hsame
    rw [List.length_map, List.length_map, eq_comm, List.length_filter_eq_length_iff] at hlength
    have htold : h ∈ es.filter fun h => h.fd ≠ noFd := List.mem_filter.mpr ⟨hh, by rw [hfreed]; decide⟩
    simpa [hfreed] using hlength h htold
  · intro hfd
    have hall : ∀ h ∈ es.filter fun h => h.fd ≠ noFd, decide (h.fd ≠ freedFd) = true := fun h hh =>
      decide_eq_true (hfd h (List.mem_filter.mp hh).1)
    rw [List.filter_eq_self.mpr hall]

end HandleTable

/-- An atom requires external resources if it has any. -/
theorem Atom.requires_ofMarked (va seqnum : UInt64) (slot : JobSlot) (number : UInt8) (marked : HandleTable.Marked) :
    hasFlag (Atom.ofMarked va seqnum slot number marked).requirements Atom.requireResources = true ↔
      marked.resources ≠ [] := by
  unfold ofMarked
  dsimp only
  cases marked.resources with
  | nil =>
    rw [List.isEmpty_nil, if_pos rfl]
    refine iff_of_false ?_ (fun h => h rfl)
    cases slot <;> decide
  | cons a as =>
    rw [List.isEmpty_cons, if_neg Bool.false_ne_true]
    refine iff_of_true ?_ (List.cons_ne_nil a as)
    cases slot <;> decide

/-! ## What the kernel is asked -/

variable {κ : Type}

/-- A job is submitted, or refused by the kernel, only if its number is free and its handles can be marked. -/
theorem submitJob_survives [Kernel κ] {m m' : Machine κ} {va : UInt64} {requirements : UInt32} {o : Option Nat}
    {handles : List Int} {r : Except Halt UInt8}
    (he : (Device.submitJob va requirements o handles).exec m = (r, m')) (hr : Survives r) :
    m.device.inFlight.lookup m.device.atomNumber = none ∧ ∃ marked,
      m.device.handles.markUsed handles (Device.jobSlot requirements) m.device.atomNumber = .ok marked := by
  unfold Device.submitJob at he
  obtain ⟨_, m₁, hdebug, he⟩ := (faultless_debug _ _).bind_survives he hr
  cases hdebug
  obtain ⟨⟨number, seqnum⟩, m₂, hnext, he⟩ := faultless_nextAtom.bind_survives he hr
  cases hnext
  obtain ⟨marked, m₃, hmark, -⟩ := (faultless_markAtom _ _ _).bind_survives he hr
  obtain ⟨hfree, hmarked, -⟩ := markAtom_ok hmark
  exact ⟨hfree, marked, hmarked⟩

/-- The kernel is asked once to queue an atom. -/
theorem calls_submitAtom [Kernel κ] {d : Device} (hd : d.generation ≠ .csf) (atom : Atom) :
    Calls d (Interface.submitAtom atom : Op κ Unit) fun _ cs => ∃ c, cs = [c] ∧ c.call.atom? = some atom := by
  unfold Interface.submitAtom
  refine calls_device.next fun d' hsame => ?_
  subst hsame
  cases hg : d'.generation with
  | old =>
    refine (calls_oldRequest _ _).mono ?_
    rintro r cs ⟨answer, rfl, -⟩
    exact ⟨_, rfl, rfl⟩
  | jm =>
    refine (calls_request _ _).mono ?_
    rintro r cs ⟨answer, rfl, -⟩
    exact ⟨_, rfl, rfl⟩
  | csf => exact absurd hg hd

/-- Retiring an atom asks the kernel nothing. -/
theorem calls_retireAtom {m m' : Machine κ} {atom : UInt8} {r : Except Halt Unit}
    (he : (Device.retireAtom atom).exec m = (r, m')) : m'.calls = m.calls := by
  unfold Device.retireAtom at he
  rw [exec_bind_of_ok (exec_device m)] at he
  split at he
  · cases he
    rfl
  · cases he
    rfl

/-- A job that is submitted, or refused by the kernel, was told to the kernel once.  Its handles are all in the table,
and the kernel was told the addresses of those that are not marked as having no descriptor, in the order of the list.
These are the addresses of the handles that own a descriptor exactly if all handles are live.  Their count is right
exactly if it fits its sixteen bits, and external resources are required exactly if there are any. -/
theorem submitJob_resources [Kernel κ] {m m' : Machine κ} {va : UInt64} {requirements : UInt32} {o : Option Nat}
    {handles : List Int} {r : Except Halt UInt8} (hjob : m.device.generation ≠ .csf)
    (he : (Device.submitJob va requirements o handles).exec m = (r, m')) (hr : Survives r) :
    ∃ (c : CallRecord) (atom : Atom), m'.calls = c :: m.calls ∧ c.call.atom? = some atom ∧
      (∀ i ∈ handles, ∃ h, m.device.handles.entry? i = some h) ∧
      atom.resources = ((m.device.handles.listed handles).filter fun h => h.fd ≠ noFd).map Handle.va ∧
      (atom.resources = ((m.device.handles.listed handles).filter Handle.ownsFd).map Handle.va ↔
        m.device.handles.AllLive handles) ∧
      atom.resourceCount = UInt16.ofNat atom.resources.length ∧
      (atom.resourceCount.toNat = atom.resources.length ↔ atom.resources.length < 2 ^ 16) ∧
      (hasFlag atom.requirements Atom.requireResources = true ↔ atom.resources ≠ []) := by
  obtain ⟨hfree, marked, hmarked⟩ := submitJob_survives he hr
  obtain ⟨log, hentered⟩ := exec_submitJob_entered va o hfree hmarked
  obtain ⟨answer, _, m₁, hanswer, hcalled, outcome, rfl, c, rfl, hc⟩ := (calls_submitAtom (κ := κ)
    (d := m.device.enter o handles marked) hjob (.ofMarked va m.device.jobSeq (Device.jobSlot requirements)
      m.device.atomNumber marked)).attempt { m with log, device := m.device.enter o handles marked } rfl
  have hcalls : m'.calls = c :: m.calls := by
    rw [hentered, exec_bind, hanswer] at he
    cases outcome with
    | ok _ =>
      cases he
      exact hcalled.calls
    | error f =>
      obtain ⟨_, m₂, hretire, he⟩ := (faultless_retireAtom _).bind_survives he hr
      cases he
      exact (calls_retireAtom hretire).trans hcalled.calls
  have hresources := HandleTable.markUsed_resources hmarked
  have hinside : ∀ i ∈ handles, ∃ h, m.device.handles.entry? i = some h := by
    intro i hi
    obtain ⟨k, rfl, hk⟩ := (HandleTable.markAll_ok hmarked).1 i hi
    exact ⟨_, HandleTable.entry?_natCast (List.getElem?_eq_getElem hk)⟩
  have hcount : (UInt16.ofNat marked.resources.length).toNat = marked.resources.length ↔
      marked.resources.length < 2 ^ 16 := by
    rw [UInt16.toNat_ofNat']
    exact ⟨fun h => h ▸ Nat.mod_lt _ (by decide), Nat.mod_eq_of_lt⟩
  refine ⟨c, _, hcalls, hc, hinside, hresources, ?_, rfl, hcount, Atom.requires_ofMarked _ _ _ _ _⟩
  rw [HandleTable.allLive_iff hinside, ← HandleTable.told_eq_owned_iff, ← hresources]
  rfl

namespace ResourceSample

/-- An import, a number that was freed, and a handle without a descriptor. -/
def ready : Machine Bench where
  kernel := { model := .scripted { generation := .jm } }
  device :=
    { generation := .jm
      handles := ⟨[{ va := 0x1000, fd := 7 }, { fd := freedFd }, { va := 0x3000, fd := noFd }]⟩ }

end ResourceSample

-- a table of 256 slots is evaluated
set_option maxRecDepth 20000 in
/-- A job that lists all of these is submitted, although one of the numbers is not live.  The kernel is told two
addresses, and one of them is zero. -/
theorem submitJob_resources_sample : ResourceSample.ready.device.generation ≠ .csf ∧
    ¬ResourceSample.ready.device.handles.AllLive [0, 1, 2] ∧
    ∃ m' c atom, (Device.submitJob 0x2000 0 none [0, 1, 2]).exec ResourceSample.ready = (.ok 0, m') ∧
      m'.calls = [c] ∧ c.call.atom? = some atom ∧ atom.resources = [0x1000, 0] ∧ atom.resourceCount = 2 := by
  have hjob : ResourceSample.ready.device.generation ≠ .csf := by decide
  obtain ⟨m', he⟩ : ∃ m', (Device.submitJob 0x2000 0 none [0, 1, 2]).exec ResourceSample.ready = (.ok 0, m') :=
    ⟨_, exec_of_value (by decide +kernel)⟩
  obtain ⟨c, atom, hcalls, hc, -, hresources, hlive, hcount, -, -⟩ := submitJob_resources hjob he trivial
  have htold : atom.resources = [0x1000, 0] := hresources.trans (by decide)
  refine ⟨hjob, fun hall => ?_, m', c, atom, he, hcalls, hc, htold, by rw [hcount, htold]; rfl⟩
  exact absurd (htold.symm.trans (hlive.mpr hall)) (by decide)

end Mali
