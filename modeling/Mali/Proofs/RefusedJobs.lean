import Mali.Proofs.AtomFences

/-!
# Jobs that the kernel refuses

A job is entered everywhere before the kernel is asked: its atom is in flight, its handles are marked, its slot has
work submitted to it, and its syncobj has a fence.  If the kernel refuses the job, the atom is taken out of flight
again and the marks are counted back.  The other entries stay: the handles still name the atom as the last one on its
job slot, the event slot still expects it, and the syncobj still waits for it.  So a job that was refused leaves no
trace exactly if all of these were there before.

* `Machine.refusal?`: what a job that the kernel refuses fails with.
* `HandleTable.stamp`: what is left on handles when marks are counted back.
* `Device.refuse`: a device after a job was refused.
* `Device.Entered`: everything that stays was there before.
* `submitJob_refused`: refused jobs fail, and what they leave.
-/

namespace Mali

open Op

/-! ## Marks that are counted back -/

/-- An entry that names an atom as the last one on a job slot. -/
def Handle.stamp (h : Handle) (slot : JobSlot) (atom : UInt8) : Handle :=
  { h with lastAccess := h.lastAccess.set slot atom }

theorem PerSlot.set_eq_self_iff {α : Type} {p : PerSlot α} {s : JobSlot} {a : α} :
    p.set s a = p ↔ p.get s = a := by
  constructor
  · intro h
    rw [← h, PerSlot.get_set, if_pos rfl]
  · rintro rfl
    cases s <;> rfl

theorem Handle.stamp_eq_self_iff {h : Handle} {slot : JobSlot} {atom : UInt8} :
    h.stamp slot atom = h ↔ h.lastAccess.get slot = atom := by
  rw [← PerSlot.set_eq_self_iff]
  constructor
  · exact congrArg Handle.lastAccess
  · intro hlast
    rw [stamp, hlast]

/-- Counting marks back leaves what was recorded with them. -/
theorem Handle.unmark_mark (h : Handle) (slot : JobSlot) (atom : UInt8) (n : Nat) :
    (h.mark slot atom n).unmark n = if n = 0 then h else h.stamp slot atom := by
  unfold mark
  split
  · rename_i hzero
    rw [hzero, unmark_zero]
  · rw [unmark, UInt8.add_sub_cancel]
    rfl

namespace HandleTable

/-- A table after marks on some handles were counted back. -/
def stamp (t : HandleTable) (handles : List Int) (slot : JobSlot) (atom : UInt8) : HandleTable :=
  ⟨t.entries.mapIdx fun k h => if (k : Int) ∈ handles then h.stamp slot atom else h⟩

variable {t : HandleTable} {handles : List Int} {slot : JobSlot} {atom : UInt8}

theorem getElem?_stamp (k : Nat) : (t.stamp handles slot atom).entries[k]? =
    (t.entries[k]?).map fun h => if (k : Int) ∈ handles then h.stamp slot atom else h :=
  List.getElem?_mapIdx

theorem ext_getElem? {t t' : HandleTable} (h : ∀ k : Nat, t.entries[k]? = t'.entries[k]?) : t = t' := by
  cases t
  cases t'
  rw [HandleTable.mk.injEq]
  exact List.ext_getElem? h

theorem stamp_eq_self_iff : t.stamp handles slot atom = t ↔
    ∀ (k : Nat) (h : Handle), (k : Int) ∈ handles → t.entries[k]? = some h → h.lastAccess.get slot = atom := by
  constructor
  · intro hsame k h hk hget
    have hstamp : (t.stamp handles slot atom).entries[k]? = _ := getElem?_stamp k
    rw [hsame, hget, Option.map_some, if_pos hk, Option.some.injEq] at hstamp
    exact Handle.stamp_eq_self_iff.mp hstamp.symm
  · refine fun hnamed => ext_getElem? fun k => ?_
    rw [getElem?_stamp]
    cases hget : t.entries[k]? with
    | none => rfl
    | some h =>
      rw [Option.map_some]
      split
      · rename_i hk
        rw [Handle.stamp_eq_self_iff.mpr (hnamed k h hk hget)]
      · rfl

/-- Nothing is in use that was not in use before. -/
theorem useCount_stamp (k : Int) : ((t.stamp handles slot atom).get k).useCount = (t.get k).useCount := by
  have hindex : (t.stamp handles slot atom).index? k = t.index? k := by
    rw [index?, size, stamp, List.length_mapIdx, index?, size]
  unfold get entry?
  rw [hindex]
  cases t.index? k with
  | none => rfl
  | some i =>
    rw [Option.bind_some, Option.bind_some, getElem?_stamp]
    cases t.entries[i]? with
    | none => rfl
    | some h =>
      rw [Option.map_some]
      dsimp only
      split
      · show (if isFreed (h.stamp slot atom) then _ else _ : Handle).useCount = _
        rw [show isFreed (h.stamp slot atom) = isFreed h from rfl]
        split <;> rfl
      · rfl

/-- Marks can be counted back, each of them, and only what was recorded with them stays. -/
theorem release_marked {marked : Marked} (hm : t.markUsed handles slot atom = .ok marked) :
    marked.table.release handles = .ok (t.stamp handles slot atom) := by
  obtain ⟨-, hentries, hroom⟩ := markAll_ok hm
  have hcount (k : Nat) (e : Handle) (he : marked.table.entries[k]? = some e) :
      handles.count (k : Int) ≤ e.useCount.toNat := by
    rw [hentries, Option.map_eq_some_iff] at he
    obtain ⟨e, he, rfl⟩ := he
    rw [Handle.toNat_mark_useCount (hroom k e he)]
    exact Nat.le_add_left _ _
  obtain ⟨t', hrelease, hback⟩ := release_ok hcount
  rw [hrelease]
  refine congrArg Except.ok (ext_getElem? fun k => ?_)
  rw [hback, hentries, getElem?_stamp, Option.map_map]
  refine congrArg (Option.map · _) (funext fun h => ?_)
  rw [Function.comp_apply, Handle.unmark_mark]
  simp only [List.count_eq_zero, ite_not]

/-- Handles in the table can be marked as long as no count overflows.  By induction on the handles. -/
theorem exists_markAll {m : Marked} (hinside : ∀ i ∈ handles, ∃ k : Nat, i = k ∧ k < m.table.entries.length)
    (hroom : ∀ (k : Nat) (e : Handle), m.table.entries[k]? = some e →
      e.useCount.toNat + handles.count (k : Int) < 256) : ∃ m', markAll slot atom handles m = .ok m' := by
  induction handles generalizing m with
  | nil => exact ⟨m, rfl⟩
  | cons i is ih =>
    obtain ⟨⟨j, rfl, hj⟩, hrest⟩ := List.forall_mem_cons.mp hinside
    have he : m.table.entries[j]? = some m.table.entries[j] := List.getElem?_eq_getElem hj
    have hcount : (m.table.entries[j]).useCount.toNat + (is.count (j : Int) + 1) < 256 := by
      have := hroom j _ he
      rwa [List.count_cons_self] at this
    obtain ⟨m₁, h₁⟩ : ∃ m₁, markOne m slot atom j = .ok m₁ := by
      unfold markOne
      rw [index?_natCast hj]
      dsimp only
      rw [he]
      dsimp only
      rw [if_neg fun hfull => by rw [hfull] at hcount; exact absurd hcount (by simp; omega)]
      exact ⟨_, rfl⟩
    obtain ⟨j', e, hj', he', -, htable, -⟩ := markOne_ok h₁
    obtain rfl := Int.ofNat_inj.mp hj'
    obtain rfl := Option.some.inj (he.symm.trans he')
    obtain ⟨m', h'⟩ := ih (m := m₁) (by rwa [htable, List.length_set]) fun k e he => by
      rw [htable] at he
      rcases eq_or_ne j k with rfl | hjk
      · rw [List.getElem?_set_self hj] at he
        cases he
        rw [Handle.toNat_mark_useCount (by omega)]
        omega
      · rw [List.getElem?_set_ne hjk] at he
        have := hroom k e he
        rwa [List.count_cons_of_ne (natCast_ne hjk)] at this
    refine ⟨m', ?_⟩
    unfold markAll
    rw [h₁]
    exact h'

end HandleTable

/-! ## Fences that are there already -/

namespace Syncobj

/-- Raising a fence changes nothing if the fence waits for as much already. -/
theorem raise_eq_self_iff {slot : UInt32} {n : UInt64} {fences : List Fence} :
    raise slot n fences = fences ↔ ∃ v, fenceOn fences slot = some v ∧ n ≤ v := by
  constructor
  · intro hsame
    have hon := fenceOn_raise fences slot slot n
    rw [hsame, if_pos rfl] at hon
    refine ⟨_, hon, ?_⟩
    cases fenceOn fences slot with
    | none => exact UInt64.le_refl n
    | some v =>
      rw [later]
      split
      · exact UInt64.le_refl n
      · exact UInt64.not_lt.mp ‹_›
  · rintro ⟨v, hon, hle⟩
    induction fences with
    | nil => cases hon
    | cons f fs ih =>
      rw [fenceOn_cons] at hon
      rw [raise_cons]
      split
      · rename_i hf
        rw [if_pos hf, Option.some.injEq] at hon
        rw [later, hon, if_neg (UInt64.not_lt.mpr hle), ← hf, ← hon]
      · rename_i hf
        rw [if_neg hf] at hon
        rw [ih hon]

end Syncobj

theorem EventSlot.submit_eq_self_iff {s : EventSlot} {n : UInt64} : s.submit n = s ↔ n + 1 ≤ s.lastSubmit := by
  unfold submit
  split
  · rename_i hlt
    refine iff_of_false (fun hsame => ?_) (UInt64.not_le.mpr hlt)
    have hlast : n + 1 = s.lastSubmit := congrArg EventSlot.lastSubmit hsame
    rw [hlast] at hlt
    exact absurd hlt (UInt64.lt_irrefl _)
  · rename_i hge
    exact iff_of_true rfl (UInt64.not_lt.mp hge)

/-! ## Devices -/

namespace Device

/-- A device that has given out the numbers of a job. -/
def numbered (d : Device) : Device := { d with atomNumber := d.atomNumber + 1, jobSeq := d.jobSeq + 1 }

/-- A device that has entered its next job and is about to ask the kernel. -/
def enter (d : Device) (o : Option Nat) (handles : List Int) (marked : HandleTable.Marked) : Device :=
  { d.numbered with
    inFlight := d.inFlight ++ [(d.atomNumber, handles)]
    handles := marked.table
    slots := d.slots.put d.atomNumber.toNat ((d.slots.entry d.atomNumber.toNat).submit d.jobSeq)
    syncobjs := d.fenced o d.atomNumber.toNat d.jobSeq }

/-- A device after a job was refused, with what stays of the job. -/
def refuse (d : Device) (slot : JobSlot) (o : Option Nat) (handles : List Int) : Device :=
  { d.numbered with
    handles := d.handles.stamp handles slot d.atomNumber
    slots := d.slots.put d.atomNumber.toNat ((d.slots.entry d.atomNumber.toNat).submit d.jobSeq)
    syncobjs := d.fenced o d.atomNumber.toNat d.jobSeq }

/-- Everything that stays of the next job if it is refused is there already. -/
structure Entered (d : Device) (slot : JobSlot) (o : Option Nat) (handles : List Int) : Prop where
  named : ∀ (k : Nat) (h : Handle), (k : Int) ∈ handles → d.handles.entries[k]? = some h →
    h.lastAccess.get slot = d.atomNumber
  submitted : d.jobSeq + 1 ≤ (d.slots.entry d.atomNumber.toNat).lastSubmit
  fenced : ∀ (i : Nat) (s : Syncobj), o = some i → d.syncobjs[i]? = some s →
    ∃ v, Syncobj.fenceOn s.fences (UInt32.ofNat d.atomNumber.toNat) = some v ∧ d.jobSeq ≤ v

variable {d : Device} {slot : JobSlot} {o : Option Nat} {handles : List Int}

theorem put_eq_self_iff {t : SlotTable} {i : Nat} (hi : i < slotCount) {s : EventSlot} :
    t.put i s = t ↔ s = t.entry i := by
  constructor
  · intro h
    have hentry := SlotTable.entry_put t hi s i
    rw [h, if_pos rfl] at hentry
    exact hentry.symm
  · rintro rfl
    refine Vector.ext fun j hj => ?_
    rw [SlotTable.put, Vector.getElem_setIfInBounds hj]
    split
    · rename_i hij
      subst hij
      rw [SlotTable.entry, Vector.getElem?_eq_getElem hj, Option.getD_some]
    · rfl

theorem fenced_eq_self_iff {n : Nat} {seqnum : UInt64} : d.fenced o n seqnum = d.syncobjs ↔
    ∀ (i : Nat) (s : Syncobj), o = some i → d.syncobjs[i]? = some s →
      ∃ v, Syncobj.fenceOn s.fences (UInt32.ofNat n) = some v ∧ seqnum ≤ v := by
  cases o with
  | none => exact iff_of_true rfl nofun
  | some i =>
    have hupdate (s : Syncobj) : s.updateFence (UInt32.ofNat n) seqnum = s ↔
        ∃ v, Syncobj.fenceOn s.fences (UInt32.ofNat n) = some v ∧ seqnum ≤ v := by
      rw [← Syncobj.raise_eq_self_iff]
      constructor
      · exact congrArg Syncobj.fences
      · intro hfences
        rw [Syncobj.updateFence, hfences]
    constructor
    · intro hsame j s hj hs
      obtain rfl := Option.some.inj hj
      have hget := congrArg (·[i]?) hsame
      simp only [Device.fenced, List.getElem?_modify_eq, hs, Option.map_eq_map, Option.map_some,
        Option.some.injEq] at hget
      exact (hupdate s).mp hget
    · intro hthere
      refine List.ext_getElem? fun j => ?_
      rw [Device.fenced, List.getElem?_modify]
      cases hs : d.syncobjs[j]? with
      | none => rfl
      | some s =>
        rw [Option.map_eq_map, Option.map_some]
        split
        · rename_i hij
          subst hij
          rw [(hupdate s).mpr (hthere i s rfl hs)]
        · rfl

/-- A job that was refused leaves no trace exactly if what stays of it was there before. -/
theorem refuse_eq_numbered_iff : d.refuse slot o handles = d.numbered ↔ d.Entered slot o handles := by
  constructor
  · intro hsame
    refine ⟨?_, ?_, ?_⟩
    · exact HandleTable.stamp_eq_self_iff.mp (congrArg Device.handles hsame)
    · have hslots := congrArg Device.slots hsame
      exact EventSlot.submit_eq_self_iff.mp ((put_eq_self_iff d.atomNumber.toNat_lt).mp hslots)
    · exact fenced_eq_self_iff.mp (congrArg Device.syncobjs hsame)
  · rintro ⟨hnamed, hsubmitted, hfenced⟩
    unfold refuse
    rw [HandleTable.stamp_eq_self_iff.mpr hnamed, fenced_eq_self_iff.mpr hfenced,
      (put_eq_self_iff d.atomNumber.toNat_lt).mpr (EventSlot.submit_eq_self_iff.mpr hsubmitted)]
    rfl

@[simp] theorem refuse_inFlight : (d.refuse slot o handles).inFlight = d.inFlight := rfl

theorem refuse_useCount (k : Int) :
    ((d.refuse slot o handles).handles.get k).useCount = (d.handles.get k).useCount :=
  HandleTable.useCount_stamp k

theorem refuse_last (q : Nat) :
    ((d.refuse slot o handles).slots.entry q).last = (d.slots.entry q).last := by
  show ((d.slots.put d.atomNumber.toNat _).entry q).last = _
  rw [SlotTable.entry_put _ d.atomNumber.toNat_lt]
  split
  · rename_i hq
    rw [EventSlot.submit_last, hq]
  · rfl

end Device

/-! ## Submitting -/

variable {κ : Type}

/-- A machine with another device. -/
def Machine.withDevice (m : Machine κ) (d : Device) : Machine κ := { m with device := d }

theorem exec_nextAtom (m : Machine κ) (d : Device) : Device.nextAtom.exec (m.withDevice d) =
    (.ok (d.atomNumber, d.jobSeq), m.withDevice d.numbered) := rfl

theorem exec_markAtom (m : Machine κ) {d : Device} {number : UInt8} {slot : JobSlot} {handles : List Int}
    {marked : HandleTable.Marked} (hfree : d.inFlight.lookup number = none)
    (hmarked : d.handles.markUsed handles slot number = .ok marked) :
    (Device.markAtom number slot handles).exec (m.withDevice d) = (.ok marked,
      m.withDevice { d with inFlight := d.inFlight ++ [(number, handles)], handles := marked.table }) := by
  have hgrounded : ¬((m.withDevice d).device.inFlight.lookup number).isSome = true := by
    rw [show (m.withDevice d).device.inFlight = d.inFlight from rfl, hfree]
    exact Bool.false_ne_true
  have hmarked : (m.withDevice d).device.handles.markUsed handles slot number = .ok marked := hmarked
  unfold Device.markAtom
  rw [exec_bind_of_ok (exec_device _)]
  dsimp only
  rw [if_neg hgrounded, exec_bind_of_ok (exec_modifyDevice _ _), hmarked]
  rfl

theorem exec_submitSlot (m : Machine κ) (d : Device) {i : Nat} (hi : i < slotCount) (seqnum : UInt64) :
    (Device.submitSlot i seqnum).exec (m.withDevice d) =
      (.ok (), m.withDevice { d with slots := d.slots.put i ((d.slots.entry i).submit seqnum) }) := by
  unfold Device.submitSlot
  rw [exec_bind_of_ok (exec_slot hi _)]
  rfl

theorem exec_fenceSyncobj (m : Machine κ) (d : Device) (o : Option Nat) (i : Nat) (seqnum : UInt64) :
    (Device.fenceSyncobj o (UInt32.ofNat i) seqnum).exec (m.withDevice d) =
      (.ok (), m.withDevice { d with syncobjs := d.fenced o i seqnum }) := by
  cases o with
  | none => rfl
  | some k => rfl

/-- A trace changes the log at most. -/
theorem exec_trace (message : String) (fields : List (String × String)) (m : Machine κ) :
    ∃ log, (trace message fields : Op κ Unit).exec m = (.ok (), { m with log }) := by
  unfold trace
  rw [exec_bind_of_ok (exec_device m)]
  split
  · exact ⟨_, rfl⟩
  · exact ⟨m.log, rfl⟩

section Kernel

variable [Kernel κ]

/-- What a job fails with, by the code that the kernel answers its atom with.  Zero is no refusal. -/
def refusalOf : Except Errno UInt32 → Option Fault
  | .error e => some (.during (.request "JOB_SUBMIT") (.ofErrno e))
  | .ok code =>
    if code = 0 then none
    else some (.during (.requestCode "JOB_SUBMIT" code.toNat) (.ofErrno (Interface.codeErrno code)))

/-- The code that the kernel answers an atom with.  Only the oldest generation answers with codes. -/
def Machine.atomCode (m : Machine κ) (atom : Atom) : Except Errno UInt32 :=
  match m.device.generation with
  | .old => (Kernel.call m.kernel (.ioctl m.device.fd
      (.old (OldIoctl.jobSubmit atom).command.headerId (.jobSubmit atom)))).1.result.map Coded.code
  | .jm | .csf => (Kernel.call m.kernel (.ioctl m.device.fd (.jobSubmit atom))).1.result.map fun _ => 0

/-- What a job fails with if the kernel refuses its atom. -/
def Machine.refusal? (m : Machine κ) (atom : Atom) : Option Fault := refusalOf (m.atomCode atom)

/-- A refusal depends on the kernel and on the device file only. -/
theorem Machine.refusal?_congr {m m' : Machine κ} (hk : m'.kernel = m.kernel) (hfd : m'.device.fd = m.device.fd)
    (hg : m'.device.generation = m.device.generation) (atom : Atom) : m'.refusal? atom = m.refusal? atom := by
  unfold refusal? atomCode
  rw [hk, hfd, hg]

theorem exec_request_error {m : Machine κ} {name : String} {r : Ioctl} {e : Errno}
    (h : (Kernel.call m.kernel (.ioctl m.device.fd r)).1.result = .error e) :
    ((Interface.request name r).exec m).1 = .error (.fault (.during (.request name) (.ofErrno e))) := by
  unfold Interface.request
  rw [exec_bind_of_ok (exec_device m), exec_bind_of_ok (exec_call _ m), h]
  rfl

theorem exec_request_ok {m : Machine κ} (name : String) {r : Ioctl} {reply : r.Reply}
    (h : (Kernel.call m.kernel (.ioctl m.device.fd r)).1.result = .ok reply) :
    ∃ m', (Interface.request name r).exec m = (.ok reply, m') := by
  unfold Interface.request
  rw [exec_bind_of_ok (exec_device m), exec_bind_of_ok (exec_call _ m), h]
  exact ⟨_, rfl⟩

/-- An atom that the kernel refuses is not queued, and nothing else happens. -/
theorem exec_submitAtom_refused {m : Machine κ} {atom : Atom} {f : Fault} (h : m.refusal? atom = some f)
    (hm : m.device.generation ≠ .csf) :
    ∃ m', (Interface.submitAtom atom).exec m = (.error (.fault f), m') ∧ SameInside m m' := by
  have hfault : ((Interface.submitAtom atom).exec m).1 = .error (.fault f) := by
    unfold Machine.refusal? Machine.atomCode at h
    unfold Interface.submitAtom
    rw [exec_bind_of_ok (exec_device m)]
    cases hg : m.device.generation with
    | csf => exact absurd hg hm
    | jm =>
      rw [hg] at h
      dsimp only at h ⊢
      cases hanswer : (Kernel.call m.kernel (.ioctl m.device.fd (.jobSubmit atom))).1.result with
      | ok u =>
        rw [hanswer] at h
        cases h
      | error e =>
        rw [hanswer] at h
        obtain rfl := Option.some.inj h
        exact exec_request_error hanswer
    | old =>
      rw [hg] at h
      dsimp only at h ⊢
      unfold Interface.oldRequest
      cases hanswer : (Kernel.call m.kernel (.ioctl m.device.fd
          (.old (OldIoctl.jobSubmit atom).command.headerId (.jobSubmit atom)))).1.result with
      | ok reply =>
        obtain ⟨m₁, hrequest⟩ := exec_request_ok "JOB_SUBMIT" hanswer
        rw [exec_bind_of_ok hrequest]
        rw [hanswer, Except.map, refusalOf] at h
        split at h
        · cases h
        · rename_i hcode
          obtain rfl := Option.some.inj h
          rw [if_neg hcode]
          rfl
      | error e =>
        rw [hanswer] at h
        obtain rfl := Option.some.inj h
        rw [exec_bind, exec_of_error (exec_request_error hanswer)]
  exact ⟨_, exec_of_error hfault,
    (keeps_submitAtom (R := SameInside) atom m).survives (exec_of_error hfault) trivial⟩

/-- Before the kernel is asked, a job is entered everywhere. -/
theorem exec_submitJob_entered {m : Machine κ} (va : UInt64) {requirements : UInt32} (o : Option Nat)
    {handles : List Int} {marked : HandleTable.Marked}
    (hfree : m.device.inFlight.lookup m.device.atomNumber = none)
    (hmarked : m.device.handles.markUsed handles (Device.jobSlot requirements) m.device.atomNumber = .ok marked) :
    ∃ log, (Device.submitJob va requirements o handles).exec m = (do
      match ← attempt (Interface.submitAtom (.ofMarked va m.device.jobSeq (Device.jobSlot requirements)
        m.device.atomNumber marked)) with
      | .ok _ => return m.device.atomNumber
      | .error f =>
        Device.retireAtom m.device.atomNumber
        fail f : Op κ UInt8).exec { m with log, device := m.device.enter o handles marked } := by
  have hslot : m.device.atomNumber.toUInt32 = UInt32.ofNat m.device.atomNumber.toNat := by
    rw [← UInt32.toNat_inj, toNat_ofNat_slot m.device.atomNumber.toNat_lt]
    exact UInt8.toNat_toUInt32 _
  obtain ⟨m₁, hm₁, hdebug⟩ : ∃ m₁ : Machine κ, m₁ = { m with log := ⟨.debug, "Device::Submit", []⟩ :: m.log } ∧
      (debug "Device::Submit").exec m = (.ok (), m₁.withDevice m.device) := ⟨_, rfl, rfl⟩
  obtain ⟨log, htrace⟩ := exec_trace "submitting atom"
    [("atom", toString m.device.atomNumber), ("seq", toString m.device.jobSeq),
      ("deps", s!"[{marked.after.fragment} {marked.after.vertex}]"),
      ("extres", toString marked.resources.length)] (m₁.withDevice (m.device.enter o handles marked))
  refine ⟨log, ?_⟩
  unfold Device.submitJob
  rw [exec_bind_of_ok hdebug]
  dsimp only
  rw [exec_bind_of_ok (exec_nextAtom _ _)]
  dsimp only
  rw [exec_bind_of_ok (exec_markAtom (d := m.device.numbered) _ hfree hmarked),
    exec_bind_of_ok (exec_submitSlot _ _ m.device.atomNumber.toNat_lt _), hslot,
    exec_bind_of_ok (exec_fenceSyncobj _ _ _ _ _)]
  refine (exec_bind_of_ok htrace).trans ?_
  rw [hm₁]
  rfl

/-- A job manager device enters a job, and the kernel refuses it.  Submitting the job fails as the kernel said.  The
use counts, the atoms in flight and the progress of the slots are as before, and so is everything else apart from the
numbers given out, exactly if what is left of the job was there before. -/
theorem submitJob_refused {m : Machine κ} {va : UInt64} {requirements : UInt32} {o : Option Nat}
    {handles : List Int} {f : Fault} (hm : m.device.generation ≠ .csf)
    (hfree : m.device.inFlight.lookup m.device.atomNumber = none)
    (hlive : ∀ i ∈ handles, ∃ k : Nat, i = k ∧ k < m.device.handles.size)
    (hroom : ∀ (k : Nat) (e : Handle), m.device.handles.entries[k]? = some e →
      e.useCount.toNat + handles.count (k : Int) < 256)
    (hrefused : ∀ marked,
      m.device.handles.markUsed handles (Device.jobSlot requirements) m.device.atomNumber = .ok marked →
        m.refusal? (.ofMarked va m.device.jobSeq (Device.jobSlot requirements) m.device.atomNumber marked) =
          some f) :
    ∃ m', (Device.submitJob va requirements o handles).exec m = (.error (.fault f), m') ∧
      m'.device = m.device.refuse (Device.jobSlot requirements) o handles ∧
      m'.allocator = m.allocator ∧ m'.submitters = m.submitters ∧ m'.batches = m.batches ∧
      m'.device.inFlight = m.device.inFlight ∧
      (∀ k, (m'.device.handles.get k).useCount = (m.device.handles.get k).useCount) ∧
      (∀ q, (m'.device.slots.entry q).last = (m.device.slots.entry q).last) ∧
      (m'.device = m.device.numbered ↔ m.device.Entered (Device.jobSlot requirements) o handles) := by
  obtain ⟨marked, hmarked⟩ : ∃ marked, m.device.handles.markUsed handles (Device.jobSlot requirements)
      m.device.atomNumber = .ok marked := HandleTable.exists_markAll hlive hroom
  obtain ⟨log, hentered⟩ := exec_submitJob_entered va o hfree hmarked
  have hrefusal : ({ m with log, device := m.device.enter o handles marked } : Machine κ).refusal? (.ofMarked va
      m.device.jobSeq (Device.jobSlot requirements) m.device.atomNumber marked) = some f :=
    (Machine.refusal?_congr (m := m) rfl rfl rfl _).trans (hrefused marked hmarked)
  obtain ⟨m₁, hsubmit, hd, ha, hs, hb⟩ := exec_submitAtom_refused hrefusal hm
  have hrelease : m₁.device.handles.release (m₁.device.atomHandles m.device.atomNumber) =
      .ok (m.device.handles.stamp handles (Device.jobSlot requirements) m.device.atomNumber) := by
    have hflying : m₁.device.atomHandles m.device.atomNumber = handles := by
      rw [hd, Device.atomHandles]
      exact congrArg (Option.getD · []) (Balanced.lookup_append hfree).1
    rw [hflying, hd]
    exact HandleTable.release_marked hmarked
  have hfilter : (m.device.inFlight ++ [(m.device.atomNumber, handles)]).filter (·.1 ≠ m.device.atomNumber) =
      m.device.inFlight := (Balanced.lookup_append hfree).2
  have hdevice : { m₁.device.forgetAtom m.device.atomNumber with
      handles := m.device.handles.stamp handles (Device.jobSlot requirements) m.device.atomNumber } =
        m.device.refuse (Device.jobSlot requirements) o handles := by
    rw [hd, Device.forgetAtom, Device.enter]
    dsimp only
    rw [hfilter]
    rfl
  have hretire : (do
      Device.retireAtom m.device.atomNumber
      fail f : Op κ UInt8).exec m₁ = (.error (.fault f),
        { m₁ with device := m.device.refuse (Device.jobSlot requirements) o handles }) := by
    unfold Device.retireAtom
    rw [bind_assoc, exec_bind_of_ok (exec_device m₁), hrelease, ← hdevice]
    rfl
  refine ⟨{ m₁ with device := m.device.refuse (Device.jobSlot requirements) o handles }, ?_, rfl, ha, hs, hb, rfl,
    Device.refuse_useCount, Device.refuse_last, Device.refuse_eq_numbered_iff⟩
  rw [hentered, exec_bind, exec_attempt, hsubmit]
  exact hretire

end Kernel

namespace RefusedSample

/-- The first atom is in flight with the only handle, and there is a syncobj.  The kernel refuses the next atom. -/
def ready : Machine Bench where
  kernel :=
    { model := .scripted { generation := .jm }
      plans := [(.command .jobSubmit, { answer := .nomem, count := 1 })] }
  device :=
    { generation := .jm
      handles := ⟨[{ va := 0x1000, fd := noFd, useCount := 1 }]⟩
      slots := SlotTable.put (Vector.replicate slotCount {}) 0 { lastSubmit := 1 }
      syncobjs := [{ id := 1 }]
      atomNumber := 1
      jobSeq := 1
      inFlight := [(0, [0])] }

/-- The handle does not name the next atom yet. -/
theorem not_entered_ready : ¬ready.device.Entered .vertex (some 0) [0] := fun h =>
  absurd (h.named 0 { va := 0x1000, fd := noFd, useCount := 1 } (by decide) rfl) (by decide)

end RefusedSample

/-- The next job lists the handle that is in use, and is refused.  It leaves a trace. -/
theorem submitJob_refused_sample : RefusedSample.ready.device.generation ≠ .csf ∧
    RefusedSample.ready.device.inFlight.lookup 1 = none ∧
    ∃ f m', (Device.submitJob 0x2000 0 (some 0) [0]).exec RefusedSample.ready = (.error (.fault f), m') ∧
      f.cause = .errno .nomem ∧ m'.device ≠ RefusedSample.ready.device.numbered := by
  have hg : RefusedSample.ready.device.generation ≠ .csf := by decide
  have hfree : RefusedSample.ready.device.inFlight.lookup 1 = none := by decide
  obtain ⟨m', he, -, -, -, -, -, -, -, htrace⟩ := @submitJob_refused _ _
    RefusedSample.ready 0x2000 0 (some 0) [0] (.during (.request "JOB_SUBMIT") (.ofErrno .nomem)) hg hfree
    (fun i hi => ⟨0, List.mem_singleton.mp hi, by decide⟩)
    (fun k e he => by
      obtain rfl := List.mem_singleton.mp (List.mem_of_getElem? he)
      exact Nat.lt_of_le_of_lt (Nat.add_le_add_left List.count_le_length 1) (by decide))
    (fun _ _ => rfl)
  exact ⟨hg, hfree, _, m', he, rfl, fun hsame => RefusedSample.not_entered_ready (htrace.mp hsame)⟩

end Mali
