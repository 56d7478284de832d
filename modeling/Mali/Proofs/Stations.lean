import Mali.Proofs.Recovery
import Mali.Proofs.Respects

/-!
# A submission context at work

A submission context that has its streams and its syncobj to itself knows by the fences of the syncobj what is still to
be done.  On each of its slots either all work is done or there is a fence for the last of it.  This is kept while
others work within the licence that leaves the context alone, and by everything that the context does.

A batch that waits leaves nothing to be done.  If both waits come true the syncobj has no fence left, so nothing is to
be done on either slot.  Otherwise the context recovers, which drops the fences first and then counts the lost work as
done.

* `Station`: a submission context with all that it works with, and what others may use.
* `Station.Tracks`: what its syncobj says of its slots.
* `Machine.Reserves`, `Machine.Manned`: a machine on which it can work.
* `Attends`: what keeps a machine so.
* `Machine.Drained`: nothing is left to be done.
* `Machine.Manned.reset`, `Machine.Manned.submit`: recovering and submitting.
-/

namespace Mali

open Op

variable {κ : Type}

/-- Everything may be used and done, but for some streams, syncobjs and submission contexts. -/
def Licence.sparing (streams syncobjs submitters : List Nat) : Licence :=
  ⟨(· ∉ streams), (· ∉ syncobjs), (· ∉ submitters), True, True⟩

/-- A submission context with all that it works with. -/
structure Station where
  submitter : Nat
  context : Nat
  vertex : Queue
  fragment : Queue
  syncobj : Nat
  deriving DecidableEq, Repr

namespace Station

/-- The queues that work goes to. -/
def queues (st : Station) : List Queue := [st.vertex, st.fragment]

theorem vertex_mem (st : Station) : st.vertex ∈ st.queues := List.mem_cons_self

theorem fragment_mem (st : Station) : st.fragment ∈ st.queues := List.mem_cons_of_mem _ List.mem_cons_self

/-- The streams of the queues. -/
def streams (st : Station) : List Nat := [st.vertex.stream, st.fragment.stream]

/-- Everything may be used but what belongs to it. -/
def others (st : Station) : Licence := .sparing st.streams [st.syncobj] [st.submitter]

/-- What the submission context has. -/
def seat (st : Station) : Option Nat × Option Queue × Option Queue × Option Nat :=
  (some st.context, some st.vertex, some st.fragment, some st.syncobj)

/-- The queues have other numbers. -/
def renumber (st : Station) (v f : UInt64) : Station :=
  { st with vertex := { st.vertex with seqnum := v }, fragment := { st.fragment with seqnum := f } }

end Station

theorem Submitter.eq_of_seat {s : Submitter} {st : Station} (h : s.seat = st.seat) :
    s.context = some st.context ∧ s.vertex = some st.vertex ∧ s.fragment = some st.fragment ∧
      s.syncobj = some st.syncobj := by
  simpa [seat, Station.seat] using h

/-- What a submission context works with, if it has it all. -/
def Machine.station? (m : Machine κ) (id : Nat) : Option Station := do
  let s ← m.submitters[id]?
  return {
    submitter := id
    context := ← s.context
    vertex := ← s.vertex
    fragment := ← s.fragment
    syncobj := ← s.syncobj }

theorem Machine.station?_of_seat {m : Machine κ} {st : Station} {s : Submitter}
    (hs : m.submitters[st.submitter]? = some s) (hseat : s.seat = st.seat) : m.station? st.submitter = some st := by
  obtain ⟨hcontext, hvertex, hfragment, hsyncobj⟩ := Submitter.eq_of_seat hseat
  simp [station?, hs, hcontext, hvertex, hfragment, hsyncobj]

/-! ## What a syncobj says of the slots -/

/-- A syncobj has fences on the slots of a station only, for work that the slots know of.  On each slot either all work
is done or there is a fence for the last of it. -/
structure Station.Tracks (st : Station) (slots : SlotTable) (o : Syncobj) : Prop where
  live : o.live = true
  own : ∀ f ∈ o.fences, f.slot.toNat ∈ st.streams
  behind : ∀ f ∈ o.fences, f.value < (slots.entry f.slot.toNat).lastSubmit
  covered : ∀ k ∈ st.streams, (slots.entry k).last = (slots.entry k).lastSubmit ∨
    ∃ f ∈ o.fences, f.slot.toNat = k ∧ f.value + 1 = (slots.entry k).lastSubmit

theorem toNat_add_one_of_lt {a b : UInt64} (h : a < b) : (a + 1).toNat = a.toNat + 1 := by
  have hb := b.toNat_lt
  rw [UInt64.lt_iff_toNat_lt] at h
  rw [UInt64.toNat_add, UInt64.toNat_one, Nat.mod_eq_of_lt (by omega)]

theorem add_one_le_of_lt {a b : UInt64} (h : a < b) : a + 1 ≤ b := by
  rw [UInt64.le_iff_toNat_le, toNat_add_one_of_lt h]
  exact UInt64.lt_iff_toNat_lt.mp h

theorem le_endOfTime (n : UInt64) : n ≤ Device.endOfTime := UInt64.le_iff_toNat_le.mpr (Nat.le_of_lt_succ n.toNat_lt)

namespace Station.Tracks

variable {st : Station} {slots slots' : SlotTable} {o o' : Syncobj}

/-- Slots may advance as far as work was submitted, and a syncobj may lose the fences that were passed. -/
theorem loses (h : st.Tracks slots o) (ho : o.Loses st.others slots' o')
    (hsubmit : ∀ k ∈ st.streams, (slots'.entry k).lastSubmit = (slots.entry k).lastSubmit)
    (hlast : ∀ k ∈ st.streams, (slots.entry k).last ≤ (slots'.entry k).last)
    (hbehind : ∀ k ∈ st.streams, (slots'.entry k).last ≤ (slots'.entry k).lastSubmit) : st.Tracks slots' o' where
  live := ho.live.trans h.live
  own f hf := h.own f (ho.fewer f hf)
  behind f hf := by
    rw [hsubmit _ (h.own f (ho.fewer f hf))]
    exact h.behind f (ho.fewer f hf)
  covered k hk := by
    obtain hdone | ⟨f, hf, hslot, hvalue⟩ := h.covered k hk
    · refine .inl (UInt64.le_antisymm (hbehind k hk) ?_)
      rw [hsubmit k hk, ← hdone]
      exact hlast k hk
    · by_cases hkept : f ∈ o'.fences
      · exact .inr ⟨f, hkept, hslot, by rw [hsubmit k hk, hvalue]⟩
      · refine .inl (UInt64.le_antisymm (hbehind k hk) ?_)
        rw [hsubmit k hk, ← hvalue, ← hslot]
        exact add_one_le_of_lt (ho.passed f hf hkept fun hother => hother (hslot ▸ hk))

/-- The last work on a slot that gets more has a fence, or all work on it was done and it gets none. -/
theorem covered_submit {k : Nat} {n : UInt64} (h : st.Tracks slots o) (hk : k ∈ st.streams) (hslot : k < slotCount)
    (hn : n < Device.endOfTime) :
    ((slots.entry k).submit n).last = ((slots.entry k).submit n).lastSubmit ∨
      ∃ f ∈ (o.updateFence (UInt32.ofNat k) n).fences,
        f.slot.toNat = k ∧ f.value + 1 = ((slots.entry k).submit n).lastSubmit := by
  have hnext : (n + 1).toNat = n.toNat + 1 := toNat_add_one_of_lt hn
  unfold EventSlot.submit
  split
  · rename_i hlater
    refine .inr ⟨⟨UInt32.ofNat k, n⟩, Syncobj.mem_raise_self fun f hf heq => ?_, toNat_ofNat_slot hslot, rfl⟩
    have hbehind := h.behind f hf
    rw [heq, toNat_ofNat_slot hslot] at hbehind
    rw [UInt64.lt_iff_toNat_lt] at hlater hbehind ⊢
    omega
  · rename_i hknown
    obtain hdone | ⟨f, hf, hfslot, hvalue⟩ := h.covered k hk
    · exact .inl hdone
    · refine .inr ⟨f, Syncobj.mem_raise_of_mem hf fun _ => ?_, hfslot, hvalue⟩
      have hbehind := h.behind f hf
      rw [hfslot] at hbehind
      have hnext' := toNat_add_one_of_lt hbehind
      rw [← hvalue, UInt64.lt_iff_toNat_lt] at hknown
      rw [UInt64.le_iff_toNat_le]
      omega

/-- New work on a slot gets a fence, unless the slot knows of later work. -/
theorem submit {k : Nat} {n : UInt64} (h : st.Tracks slots o) (hk : k ∈ st.streams) (hslot : k < slotCount)
    (hn : n < Device.endOfTime) :
    st.Tracks (slots.put k ((slots.entry k).submit n)) (o.updateFence (UInt32.ofNat k) n) := by
  have hnext : (n + 1).toNat = n.toNat + 1 := toNat_add_one_of_lt hn
  have hentry (j : Nat) : (slots.put k ((slots.entry k).submit n)).entry j =
      if k = j then (slots.entry k).submit n else slots.entry j := SlotTable.entry_put _ hslot _ j
  refine ⟨h.live, fun f hf => ?_, fun f hf => ?_, fun j hj => ?_⟩
  · rcases Syncobj.mem_raise hf with hf | rfl
    · exact h.own f hf
    · rwa [toNat_ofNat_slot hslot]
  · rw [hentry]
    rcases Syncobj.mem_raise hf with hf | rfl
    · split
      · rename_i heq
        exact UInt64.lt_of_lt_of_le (heq ▸ h.behind f hf) (EventSlot.le_submit_lastSubmit _ _)
      · exact h.behind f hf
    · rw [toNat_ofNat_slot hslot, if_pos rfl]
      exact EventSlot.lt_submit_lastSubmit _ fun hzero => by simp [hzero] at hnext
  · rw [hentry]
    split
    · rename_i heq
      subst heq
      exact h.covered_submit hk hslot hn
    · rename_i hne
      obtain hdone | ⟨f, hf, hfslot, hvalue⟩ := h.covered j hj
      · exact .inl hdone
      · refine .inr ⟨f, Syncobj.mem_raise_of_mem hf fun heq => absurd ?_ hne, hfslot, hvalue⟩
        rw [← hfslot, heq, toNat_ofNat_slot hslot]

/-- Without fences and work that is to be done there is nothing to say. -/
theorem of_done (hlive : o.live = true) (hnone : o.fences = [])
    (hdone : ∀ k ∈ st.streams, (slots.entry k).last = (slots.entry k).lastSubmit) : st.Tracks slots o where
  live := hlive
  own f hf := by
    rw [hnone] at hf
    cases hf
  behind f hf := by
    rw [hnone] at hf
    cases hf
  covered k hk := .inl (hdone k hk)

end Station.Tracks

/-! ## A machine on which it can work -/

/-- Some streams and syncobjs are kept for a submission context that has certain things. -/
structure Machine.Reserves (ks os : List Nat) (id : Nat)
    (seat : Option Nat × Option Queue × Option Queue × Option Nat) (m : Machine κ) : Prop where
  grants : m.Grants (.sparing ks os [id])
  sound : m.progress.Sound
  seated : ∃ s, m.submitters[id]? = some s ∧ s.seat = seat

/-- A station is there, and nothing else has any of what it works with. -/
abbrev Machine.Mans (st : Station) (m : Machine κ) : Prop := m.Reserves st.streams [st.syncobj] st.submitter st.seat

/-- Its syncobj says what is to be done. -/
structure Machine.Manned (st : Station) (m : Machine κ) : Prop
    extends m.Reserves st.streams [st.syncobj] st.submitter st.seat where
  tracked : ∃ o, m.device.syncobjs[st.syncobj]? = some o ∧ st.Tracks m.progress.slots o

/-- Nothing is to be done. -/
structure Machine.Drained (st : Station) (m : Machine κ) : Prop where
  fences : ∃ o, m.device.syncobjs[st.syncobj]? = some o ∧ o.fences = []
  done : ∀ k ∈ st.streams, (m.progress.slots.entry k).last = (m.progress.slots.entry k).lastSubmit

namespace Machine.Grants

variable {l : Licence} {m m' : Machine κ}

/-- A licence may name all streams instead. -/
theorem anyStream (h : m.Grants l) : m.Grants { l with stream := fun _ => True } where
  generation := h.generation
  suits id s hs := ⟨fun q hq => ⟨((h.suits id s hs).streams q hq).1, fun _ => trivial⟩, (h.suits id s hs).syncobj⟩
  newStream _ _ := trivial
  newSyncobj := h.newSyncobj
  newSubmitter := h.newSubmitter

theorem full (h : m.Grants l) : m.Grants .full where
  generation := h.generation
  suits id s hs := ⟨fun q hq => ⟨((h.suits id s hs).streams q hq).1, fun _ => trivial⟩,
    fun o ho => ⟨((h.suits id s hs).syncobj o ho).1, fun _ => trivial⟩⟩
  newStream _ _ := trivial
  newSyncobj _ _ := trivial
  newSubmitter _ _ := trivial

/-- If all streams were named for a while, those that a licence names are the same as before. -/
theorem narrow (h : m.Grants l) (h' : m'.Grants { l with stream := fun _ => True })
    (hlen : m.device.streams.length ≤ m'.device.streams.length) (hs : m'.submitters = m.submitters) : m'.Grants l where
  generation := h'.generation
  suits id s hid := by
    refine ⟨fun q hq => ⟨((h'.suits id s hid).streams q hq).1, ?_⟩, (h'.suits id s hid).syncobj⟩
    rw [hs] at hid
    exact ((h.suits id s hid).streams q hq).2
  newStream k hk := h.newStream k (Nat.le_trans hlen hk)
  newSyncobj := h'.newSyncobj
  newSubmitter := h'.newSubmitter

end Machine.Grants

/-- On a sound device no slot is ahead of what was submitted. -/
theorem Progress.Sound.behind {p : Progress} (h : p.Sound) (k : Nat) :
    (p.slots.entry k).last ≤ (p.slots.entry k).lastSubmit := by
  rcases Nat.lt_or_ge k p.bound with hlt | hge
  · exact (h.slots.started k hlt).behind
  · rw [h.slots.rest k hge]
    exact UInt64.le_refl _

/-- A slot that is left alone with all work done stays so. -/
theorem LeavesAlone.done {l : Licence} {m m' : Machine κ} {k : Nat} (h : LeavesAlone l m m') (hk : ¬l.stream k)
    (hsound : m'.progress.Sound)
    (hdone : (m.progress.slots.entry k).last = (m.progress.slots.entry k).lastSubmit) :
    (m'.progress.slots.entry k).last = (m'.progress.slots.entry k).lastSubmit := by
  refine UInt64.le_antisymm (hsound.behind k) ?_
  rw [h.lastSubmit k hk, ← hdone]
  exact h.last k hk

namespace Machine.Reserves

variable {ks os : List Nat} {id : Nat} {seat : Option Nat × Option Queue × Option Queue × Option Nat}
  {m m' : Machine κ}

theorem length_le (h : m.Reserves ks os id seat) : m.device.streams.length ≤ slotCount := by
  rw [← m.length_streams, h.sound.length_streams]
  exact h.sound.slots.bound_le

/-- What others do leaves alone what is kept. -/
theorem respects (h : m.Reserves ks os id seat) (hr : Respects (.sparing ks os [id]) m m')
    (hmax : m'.device.streams.length ≤ slotCount) :
    m'.Reserves ks os id seat ∧ LeavesAlone (.sparing ks os [id]) m m' := by
  obtain ⟨hgrants, -, hleaves⟩ := hr h.grants
  obtain ⟨hsound, hleft⟩ := hleaves hmax h.sound
  obtain ⟨s, hs, hseat⟩ := h.seated
  obtain ⟨s', hs', hseat'⟩ := hleft.seats id s (fun hother => hother (List.mem_singleton_self _)) hs
  exact ⟨⟨hgrants, hsound, s', hs', hseat'.trans hseat⟩, hleft⟩

end Machine.Reserves

namespace Machine.Mans

variable {st : Station} {m m' : Machine κ}

/-- The streams of a station have started slots with their numbers. -/
theorem lt_bound (h : m.Mans st) {k : Nat} (hk : k ∈ st.streams) : k < m.progress.bound := by
  obtain ⟨s, hs, hseat⟩ := h.seated
  obtain ⟨-, hvertex, hfragment, -⟩ := Submitter.eq_of_seat hseat
  have hsuits := (h.grants.suits _ s hs).streams
  rw [← h.sound.length_streams, m.length_streams]
  rcases List.mem_pair.mp hk with rfl | rfl
  · exact (hsuits _ (Submitter.mem_queues.mpr (.inl hvertex))).1
  · exact (hsuits _ (Submitter.mem_queues.mpr (.inr hfragment))).1

theorem lt_slotCount (h : m.Mans st) {k : Nat} (hk : k ∈ st.streams) : k < slotCount :=
  Nat.lt_of_lt_of_le (h.lt_bound hk) h.sound.slots.bound_le

theorem slotsOf (h : m.Mans st) : m.slotsOf st.queues = st.streams := by
  have hget {k : Nat} (hk : k ∈ st.streams) : m.progress.streams[k]? = some k := by
    rw [h.sound.streams, List.getElem?_range (h.lt_bound hk)]
  have hvertex : m.progress.streams[st.vertex.stream]? = some st.vertex.stream := hget List.mem_cons_self
  have hfragment : m.progress.streams[st.fragment.stream]? = some st.fragment.stream :=
    hget (by simp [Station.streams])
  simp [Machine.slotsOf, Station.queues, Station.streams, hvertex, hfragment]

end Machine.Mans

namespace Machine.Manned

variable {st : Station} {m m' : Machine κ}

theorem respects (h : m.Manned st) (hr : Respects st.others m m') (hmax : m'.device.streams.length ≤ slotCount) :
    m'.Manned st := by
  obtain ⟨hmans, hleft⟩ := h.toReserves.respects hr hmax
  obtain ⟨o, ho, htracks⟩ := h.tracked
  obtain ⟨o', ho', hloses⟩ := hleft.syncobjs st.syncobj o (fun hother => hother (List.mem_singleton_self _)) ho
  exact ⟨hmans, o', ho', htracks.loses hloses (fun k hk => hleft.lastSubmit k fun hother => hother hk)
    (fun k hk => hleft.last k fun hother => hother hk) fun k _ => hmans.sound.behind k⟩

/-- Without fences nothing is to be done. -/
theorem drained (h : m.Manned st) {o : Syncobj} (ho : m.device.syncobjs[st.syncobj]? = some o)
    (hnone : o.fences = []) : m.Drained st := by
  refine ⟨⟨o, ho, hnone⟩, fun k hk => ?_⟩
  obtain ⟨o', ho', htracks⟩ := h.tracked
  rw [ho] at ho'
  cases ho'
  obtain hdone | ⟨f, hf, -⟩ := htracks.covered k hk
  · exact hdone
  · rw [hnone] at hf
    cases hf

end Machine.Manned

section Kernel

variable [Kernel κ] {st : Station} {m m₁ m' : Machine κ}

/-! ## Recovering -/

/-- Terminating the streams of a station leaves it without fences. -/
theorem Machine.Manned.terminateQueues {u : Unit} (h : m.Manned st)
    (he : (Submitter.terminateQueues st.queues).exec m = (.ok u, m')) :
    m'.Mans st ∧ ∃ o, m'.device.syncobjs[st.syncobj]? = some o ∧ o.live = true ∧ o.fences = [] := by
  have hrespects : Respects { st.others with stream := fun _ => True } m m' :=
    (keeps_terminateQueues fun _ _ => streaming_respects.terminateStream trivial).ok he
  obtain ⟨hsound, halters, hforgets, hunmoved⟩ := terminateQueues_ok h.sound he
  have hlen : m'.device.streams.length = m.device.streams.length := by
    rw [← m.length_streams, ← m'.length_streams, halters.streams]
  obtain ⟨hgrants, hle, hleaves⟩ := hrespects h.grants.anyStream
  obtain ⟨-, hleft⟩ := hleaves (hlen ▸ h.length_le) h.sound
  rw [Machine.Mans.slotsOf h.toReserves] at hforgets
  obtain ⟨s, hs, hseat⟩ := h.seated
  refine ⟨⟨h.grants.narrow hgrants hle hunmoved.submitters, hsound, s, by rwa [hunmoved.submitters], hseat⟩, ?_⟩
  obtain ⟨o, ho, htracks⟩ := h.tracked
  obtain ⟨o', ho', hloses⟩ := hleft.syncobjs st.syncobj o (fun hother => hother (List.mem_singleton_self _)) ho
  refine ⟨o', ho', hloses.live.trans htracks.live, List.eq_nil_iff_forall_not_mem.mpr fun f hf => ?_⟩
  have hold := hloses.fewer f hf
  refine hforgets.gone o' (List.mem_of_getElem? ho') (hloses.live.trans htracks.live) f hf ?_ (htracks.own f hold)
  exact UInt64.lt_of_lt_of_le (htracks.behind f hold) (le_endOfTime _)

/-- Recovering leaves nothing to be done.  The fences go when the streams are terminated, and the work that was lost
counts as done when they are retired. -/
theorem Machine.Manned.reset {r : Except Halt Unit} (h : m.Manned st) (hmax : m'.device.streams.length ≤ slotCount)
    (he : (Submitter.reset st.submitter).exec m = (r, m')) (hr : Survives r) : m'.Manned st ∧ m'.Drained st := by
  obtain ⟨s, hs, hseat⟩ := h.seated
  obtain ⟨hcontext, hvertex, hfragment, -⟩ := Submitter.eq_of_seat hseat
  have hqueues : s.queues = st.queues := by simp [Submitter.queues, Station.queues, hvertex, hfragment]
  obtain ⟨m₁, m₂, m₃, m₄, hdevice, -, hsubmitters, h₁, hrenews, h₃, h₄⟩ := reset_ok hs hcontext he hr
  rw [hqueues] at h₁ h₃
  -- what comes before the streams are terminated and after that leaves the station alone
  have hattending : Attending (Respects (κ := κ) st.others) := operating_respects.attending
  have hseats (s : Submitter) : ({ s with resets := s.resets + 1 } : Submitter).seat = s.seat := rfl
  have hcount : Respects st.others m m₁ := .of_modify
    (fun _ s hs => hs.of_within (Submitter.within_of_seat (hseats s))) (fun _ => hseats) hdevice hsubmitters
  have hretire : Respects st.others m₂ m₄ :=
    .trans (.of_same hrenews.quiet.progress hrenews.syncobjs hrenews.unmoved.submitters)
      ((hattending.recovering.retireQueues _).ok h₃)
  have hdrop : Respects st.others m₄ m' := (hattending.setHeap _ _).ok h₄
  obtain ⟨hmans, o, ho, hlive, hnone⟩ := (h.respects hcount (hdevice ▸ h.length_le)).terminateQueues h₁
  have hmax₄ : m₄.device.streams.length ≤ slotCount := Nat.le_trans (hdrop (hretire hmans.grants).1).2.1 hmax
  obtain ⟨hmans₄, -⟩ := hmans.respects hretire hmax₄
  obtain ⟨hmans', hleft⟩ := hmans₄.respects hdrop hmax
  have hsettle := (retireQueues_ok (by rw [hrenews.quiet.progress]; exact hmans.sound) h₃).alters
  rw [Machine.slotsOf, hrenews.quiet.progress, ← Machine.slotsOf, hmans.slotsOf] at hsettle
  have hdone {k : Nat} (hk : k ∈ st.streams) :
      (m'.progress.slots.entry k).last = (m'.progress.slots.entry k).lastSubmit := by
    refine hleft.done (fun hother => hother hk) hmans'.sound ?_
    rw [hsettle.entry, if_pos hk]
    rfl
  obtain ⟨o', ho', hloses⟩ := (hmans.respects (hretire.trans hdrop) hmax).2.syncobjs _ o
    (fun hother => hother (List.mem_singleton_self _)) ho
  have hnone' : o'.fences = [] := hloses.none hnone
  exact ⟨⟨hmans', o', ho', .of_done (hloses.live.trans hlive) hnone' fun _ => hdone⟩, ⟨o', ho', hnone'⟩, fun _ => hdone⟩

/-! ## Waiting -/

omit [Kernel κ] in
/-- A syncobj that is found done has no fence left. -/
theorem syncobjDone_some {k : Nat} {u : Unit} (he : (Device.syncobjDone k).exec m = (.ok (some u), m')) :
    ∃ o, m'.device.syncobjs[k]? = some o ∧ o.fences = [] := by
  obtain ⟨_, m₁, -, he⟩ := bind_ok he
  obtain ⟨o, ho, he⟩ := bind_syncobj_ok he
  split at he
  · rename_i hnone
    cases he
    exact ⟨o, ho, List.isEmpty_iff.mp hnone⟩
  · cases he

/-- A wait for the syncobj of a station that comes true leaves it without fences. -/
theorem Machine.Manned.waitSyncobj_true (h : m.Manned st) (hmax : m'.device.streams.length ≤ slotCount)
    (he : (Device.waitSyncobj st.syncobj).exec m = (.ok true, m')) : m'.Drained st := by
  have hstreaming : Streaming st.others fun _ => Respects (κ := κ) st.others := streaming_respects
  have hm' : m'.Manned st := h.respects ((hstreaming.waitSyncobj _).ok he) hmax
  unfold Device.waitSyncobj at he
  obtain ⟨o, ho, he⟩ := bind_syncobj_ok he
  split at he
  · rename_i hnone
    cases he
    exact h.drained ho (List.isEmpty_iff.mp hnone)
  · obtain ⟨d, m₁, h₁, he⟩ := bind_ok he
    cases h₁
    obtain ⟨⟨outcome, deadline⟩, m₁, h₁, he⟩ := bind_ok he
    cases outcome with
    | none =>
      obtain ⟨_, _, he⟩ := bind_syncobj_ok he
      obtain ⟨_, _, -, he⟩ := bind_ok he
      cases he
    | some u =>
      cases he
      obtain ⟨m₂, m₃, hbefore, hfound, hafter⟩ := hstreaming.polling.waitUntil_some (hstreaming.syncobjDone _) h₁
      obtain ⟨o', ho', hnone⟩ := syncobjDone_some hfound
      have hlooked : Respects st.others m m₃ := hbefore.trans ((hstreaming.syncobjDone _).ok hfound)
      have hmax₃ : m₃.device.streams.length ≤ slotCount := Nat.le_trans (hafter (hlooked h.grants).1).2.1 hmax
      obtain ⟨-, hleft⟩ := (h.respects hlooked hmax₃).toReserves.respects hafter hmax
      obtain ⟨o₁, ho₁, hloses⟩ := hleft.syncobjs _ o' (fun hother => hother (List.mem_singleton_self _)) ho'
      exact hm'.drained ho₁ (hloses.none hnone)

theorem Machine.Manned.waitStream_true {s : Nat} {extract : UInt64} (h : m.Manned st)
    (hmax : m'.device.streams.length ≤ slotCount)
    (he : (Device.waitStream s extract (some st.syncobj)).exec m = (.ok true, m')) : m'.Drained st := by
  unfold Device.waitStream at he
  obtain ⟨_, m₁, h₁, he⟩ := bind_ok he
  have hm₁ : m₁.Manned st := h.respects ((keeps_debug _ _).ok h₁) (by
    rw [((keeps_debug (R := SameDevice) _ _).ok h₁ : m₁.device = m.device)]
    exact h.length_le)
  obtain ⟨_, _, he⟩ := bind_stream_ok he
  split at he
  · cases he
  · obtain ⟨o, ho, he⟩ := bind_require_ok he
    cases ho
    obtain ⟨fine, m₂, h₂, he⟩ := bind_ok he
    cases fine with
    | true =>
      cases he
      exact hm₁.waitSyncobj_true hmax h₂
    | false =>
      obtain ⟨_, _, -, he⟩ := bind_ok he
      obtain ⟨_, _, he⟩ := bind_require_ok he
      obtain ⟨_, _, he⟩ := bind_syncobj_ok he
      obtain ⟨_, _, -, he⟩ := bind_ok he
      cases he

/-! ## Submitting -/

/-- A machine on which a station can work stays one, while every stream has a slot of its own. -/
def Attends (st : Station) (m m' : Machine κ) : Prop :=
  Respects .full m m' ∧ (m'.device.streams.length ≤ slotCount → m.Manned st → m'.Manned st)

namespace Attends

omit [Kernel κ] in
theorem trans (h : Attends st m m₁) (h' : Attends st m₁ m') : Attends st m m' := by
  refine ⟨h.1.trans h'.1, fun hmax hm => h'.2 hmax (h.2 ?_ hm)⟩
  exact Nat.le_trans (h'.1 (h.1 hm.grants.full).1).2.1 hmax

omit [Kernel κ] in
/-- What comes before something that attends a station is bounded by what comes after. -/
theorem first (h : Attends st m m₁) (h' : Attends st m₁ m') (hm : m.Manned st)
    (hmax : m'.device.streams.length ≤ slotCount) : m₁.Manned st :=
  h.2 (Nat.le_trans (h'.1 (h.1 hm.grants.full).1).2.1 hmax) hm

omit [Kernel κ] in
theorem of_respects (h : ∀ l, Respects l m m') : Attends st m m' :=
  ⟨h .full, fun hmax hm => hm.respects (h st.others) hmax⟩

instance : OfStreams (Attends (κ := κ) st) where
  refl m := of_respects fun _ => Journey.refl m
  trans := trans
  of_other hother := of_respects fun _ => OfStreams.of_other hother
  of_streams hp hb ho hs := of_respects fun _ => OfStreams.of_streams hp hb ho hs

end Attends

omit [Kernel κ] in
theorem attends_of_respects {α : Type} {x : Op κ α} (h : ∀ l, Keeps (Respects l) x) : Keeps (Attends st) x :=
  fun m hs => .of_respects fun l => h l m hs

theorem attends_reset : Keeps (Attends (κ := κ) st) (Submitter.reset st.submitter) := fun _ =>
  keepsAt_of_exec fun he hr =>
    ⟨(operating_respects.reset trivial _).survives he hr, fun hmax hm => (hm.reset hmax he hr).1⟩

/-- Work on the queues of a station gets fences on its syncobj. -/
theorem attends_submitQueue {q : Queue} (hq : q ∈ st.queues) (hn : q.seqnum < Device.endOfTime) (insert : UInt64)
    (activity : Activity) :
    Keeps (Attends (κ := κ) st) (Submitter.submitQueue q insert (some st.syncobj) activity) := by
  have hstream : Keeps (Attends (κ := κ) st) (Device.submitStream q.stream insert (some st.syncobj) q.seqnum) := by
    refine (faultless_submitStream _ _ _ _).keeps fun {m m' _} he => ?_
    refine ⟨(streaming_respects.submitStream trivial (fun _ _ => trivial) _ _).ok he, fun hmax hm => ?_⟩
    have hsame : SameSubmitters m m' :=
      (keeps_submitStream (fun _ => keeps_submitSlot _ _ _) (fun _ _ _ => sameSubmitters_modifyDevice fun _ => rfl)
        (sameSubmitters_modifyDevice fun _ => rfl)).ok he
    obtain ⟨hgeneration, hsubmitters⟩ := hsame hm.grants.generation
    obtain ⟨-, s, hs, ⟨-, hp, ho⟩ | ⟨-, hp, ho⟩⟩ := submitStream_ok he
    · exact hm.respects (.of_same hp ho hsubmitters) hmax
    have hk : q.stream ∈ st.streams := by
      rcases List.mem_pair.mp hq with rfl | rfl <;> simp [Station.streams]
    have hslot : s.slot = q.stream := (hm.sound.slot_eq hs).1
    rw [hslot] at hp ho
    obtain ⟨s₀, hs₀, hseat⟩ := hm.seated
    obtain ⟨o, hget, htracks⟩ := hm.tracked
    refine ⟨⟨hm.grants.mono (hgeneration.trans hm.grants.generation.symm) ?_ ?_ hsubmitters, ?_, s₀,
      by rwa [hsubmitters], hseat⟩, o.updateFence (UInt32.ofNat q.stream) q.seqnum, ?_, ?_⟩
    · rw [← m.length_streams, ← m'.length_streams, hp, Progress.put_streams]
    · rw [ho, Device.fenced, List.length_modify]
    · rw [hp]
      exact hm.sound.submit (hslot ▸ Machine.mem_streams hs) _
    · rw [ho, Device.fenced, getElem?_modify_of_some hget, if_pos rfl]
    · rw [hp]
      exact htracks.submit hk (Machine.Mans.lt_slotCount hm.toReserves hk) hn
  refine keeps_bind hstream fun ran => ?_
  split
  · exact keeps_pure _
  · exact keeps_pure _

omit [Kernel κ] in
/-- Collecting numbers the queues of a station. -/
theorem Machine.Manned.collect {batch : Nat} {b : Batch} {u : Unit} (h : m.Manned st)
    (hb : m.batches[batch]? = some b) (he : (Submitter.collect st.submitter batch).exec m = (.ok u, m')) :
    m'.Manned (st.renumber (st.vertex.seqnum + 1)
      (if b.hasFragment then st.fragment.seqnum + 1 else st.fragment.seqnum)) := by
  have hdevice : m'.device = m.device := (sameDevice_collect _ _).ok he
  have hsubmitters := collect_submitters h.grants.generation hb he
  obtain ⟨s, hs, hseat⟩ := h.seated
  obtain ⟨hcontext, hvertex, hfragment, hsyncobj⟩ := Submitter.eq_of_seat hseat
  obtain ⟨o, ho, htracks⟩ := h.tracked
  refine ⟨⟨h.grants.modify (fun _ _ hsuits => hsuits.number b.hasFragment) hdevice hsubmitters, ?_,
    s.number b.hasFragment, ?_, ?_⟩, o, by rwa [hdevice], ?_⟩
  · rw [Machine.progress, hdevice]
    exact h.sound
  · show m'.submitters[st.submitter]? = _
    rw [hsubmitters, getElem?_modify_of_some hs, if_pos rfl]
  · cases hb : b.hasFragment <;>
      simp [Submitter.seat, Submitter.number, Station.seat, Station.renumber, hcontext, hvertex, hfragment, hsyncobj]
  · rw [Machine.progress, hdevice]
    exact ⟨htracks.live, htracks.own, htracks.behind, htracks.covered⟩

theorem attends_waitStream (s : Nat) (extract : UInt64) (o : Option Nat) :
    Keeps (Attends (κ := κ) st) (Device.waitStream s extract o) :=
  attends_of_respects fun _ => streaming_respects.waitStream s extract o

/-- Waiting for both queues leaves nothing to be done: either both waits come true, or the station recovers. -/
theorem Machine.Manned.awaitBatch {vertexInsert fragmentInsert : UInt64} {u : Unit} (h : m.Manned st)
    (hmax : m'.device.streams.length ≤ slotCount)
    (he : (Submitter.awaitBatch st.submitter st.vertex st.fragment vertexInsert fragmentInsert
      (some st.syncobj)).exec m = (.ok u, m')) : m'.Drained st := by
  unfold Submitter.awaitBatch at he
  obtain ⟨vertexDone, m₁, h₁, he⟩ := bind_ok he
  obtain ⟨fragmentDone, m₂, h₂, he⟩ := bind_ok he
  have hvertex : Attends st m m₁ := (attends_waitStream _ _ _).ok h₁
  have hfragment : Attends st m₁ m₂ := (attends_waitStream _ _ _).ok h₂
  split at he
  · obtain ⟨fault, m₃, h₃, he⟩ := bind_ok he
    obtain ⟨answer, m₄, h₄, h₃⟩ := bind_ok h₃
    cases answer with
    | ok _ =>
      cases h₃
      cases he
      have hreset := attempt_ok h₄
      have hm₂ : m₂.Manned st := (hvertex.trans hfragment).first (attends_reset.ok hreset) h hmax
      exact (hm₂.reset hmax hreset trivial).2
    | error f =>
      cases h₃
      cases he
  · rename_i hboth
    cases he
    obtain ⟨-, rfl⟩ : vertexDone = true ∧ fragmentDone = true := by simpa using hboth
    exact (hvertex.first hfragment h hmax).waitStream_true hmax h₂

/-- Running a batch, once it is collected, keeps the station at work. -/
theorem Machine.Manned.runBatch {batch : Nat} {vertexInsert fragmentInsert : UInt64} {r : Except Halt Unit}
    (h : m.Manned st) (hn : ∀ q ∈ st.queues, q.seqnum < Device.endOfTime) (hmax : m'.device.streams.length ≤ slotCount)
    (he : (Submitter.runBatch st.submitter batch st.vertex st.fragment (some st.syncobj) vertexInsert
      fragmentInsert).exec m = (r, m')) (hr : Survives r) : m'.Manned st :=
  ((keeps_runBatch (attends_submitQueue st.vertex_mem (hn _ st.vertex_mem))
    (attends_submitQueue st.fragment_mem (hn _ st.fragment_mem)) attends_waitStream attends_reset
    batch vertexInsert fragmentInsert m).survives he hr).2 hmax h

/-- Batches wait or not as before. -/
def SameNeeds (m m' : Machine κ) : Prop := m'.batches.map (·.needsSync) = m.batches.map (·.needsSync)

omit [Kernel κ] in
instance : Inward (SameNeeds (κ := κ)) where
  refl _ := rfl
  trans h h' := Eq.trans h' h
  of_eq _ _ _ hb := by rw [SameNeeds, hb]

omit [Kernel κ] in
theorem SameNeeds.batch {batch : Nat} {b : Batch} (h : SameNeeds m m') (hb : m.batches[batch]? = some b) :
    ∃ b', m'.batches[batch]? = some b' ∧ b'.needsSync = b.needsSync := by
  have hget : (m'.batches.map (·.needsSync))[batch]? = (m.batches.map (·.needsSync))[batch]? := congrArg (·[batch]?) h
  rw [List.getElem?_map, List.getElem?_map, hb] at hget
  exact Option.map_eq_some_iff.mp hget

omit [Kernel κ] in
theorem sameNeeds_collect (id batch : Nat) : Keeps (SameNeeds (κ := κ)) (Submitter.collect id batch) :=
  keeps_collect_of (fun _ y _ => keeps_bind (keeps_buffer y) fun _ => keeps_bind (fun _ _ => rfl) fun _ => keeps_pure _)
    (fun id f hf => keeps_modify fun m => map_modify_eq (f := f) (fun b : Batch => b.needsSync)
      (fun b => congrArg (·.2.2.2) (hf b)) m.batches id)
    (fun _ k => keeps_bind (keeps_getBatch k) fun _ _ _ => rfl) id batch

theorem sameNeeds_submitQueue (q : Queue) (insert : UInt64) (o : Option Nat) (activity : Activity) :
    Keeps (SameNeeds (κ := κ)) (Submitter.submitQueue q insert o activity) := by
  have hsubmit (i : Int) (n : UInt64) : Keeps (SameNeeds (κ := κ)) (Device.submitSlot i n) :=
    keeps_bind (keeps_slot i) fun _ => keeps_modify fun _ => rfl
  have hstream : Keeps (SameNeeds (κ := κ)) (Device.submitStream q.stream insert o q.seqnum) :=
    keeps_submitStream (fun _ => hsubmit _ _ _) (fun _ _ _ => keeps_modify fun _ => rfl) (keeps_modify fun _ => rfl)
  refine keeps_bind hstream fun ran => ?_
  split
  · exact keeps_pure _
  · exact keeps_pure _

/-- A batch that waits leaves nothing to be done. -/
theorem Machine.Manned.runBatch_ok {batch : Nat} {vertexInsert fragmentInsert : UInt64} {u : Unit} {b : Batch}
    (h : m.Manned st) (hn : ∀ q ∈ st.queues, q.seqnum < Device.endOfTime) (hb : m.batches[batch]? = some b)
    (hsync : b.needsSync = true) (hmax : m'.device.streams.length ≤ slotCount)
    (he : (Submitter.runBatch st.submitter batch st.vertex st.fragment (some st.syncobj) vertexInsert
      fragmentInsert).exec m = (.ok u, m')) : m'.Drained st := by
  unfold Submitter.runBatch at he
  obtain ⟨vertexFault, m₁, h₁, he⟩ := bind_ok he
  obtain ⟨fragmentFault, m₂, h₂, he⟩ := bind_ok he
  have hvertex : Attends st m m₁ :=
    (attends_submitQueue st.vertex_mem (hn _ st.vertex_mem) _ _).ok h₁
  have hfragment : Attends st m₁ m₂ :=
    (attends_submitQueue st.fragment_mem (hn _ st.fragment_mem) _ _).ok h₂
  have hneeds : SameNeeds m m₂ :=
    Journey.trans ((sameNeeds_submitQueue _ _ _ _).ok h₁) ((sameNeeds_submitQueue _ _ _ _).ok h₂)
  split at he
  · obtain ⟨_, _, -, he⟩ := bind_ok he
    cases he
  · obtain ⟨b', hb', he⟩ := bind_getBatch_ok he
    obtain ⟨b₂, hb₂, hsame⟩ := hneeds.batch hb
    cases hb'.symm.trans hb₂
    rw [if_pos (hsame.trans hsync)] at he
    have hawait : Attends st m₂ m' := (keeps_awaitBatch attends_waitStream attends_reset _ _ _ _ _).ok he
    exact ((hvertex.trans hfragment).first hawait h hmax).awaitBatch hmax he

/-- A submission fails at once, or collects its batch and runs it. -/
theorem submit_survives {id batch : Nat} {vertexInsert fragmentInsert : UInt64} {r : Except Halt Unit}
    (he : (Submitter.submit id batch vertexInsert fragmentInsert).exec m = (r, m')) (hr : Survives r) :
    (∃ f, r = .error (.fault f)) ∧ SameInside m m' ∨
      ∃ b m₁ m₂ s vertex fragment, m.batches[batch]? = some b ∧ SameInside m m₁ ∧
        (Submitter.collect id batch).exec m₁ = (.ok (), m₂) ∧ m₂.submitters[id]? = some s ∧ s.vertex = some vertex ∧
        s.fragment = some fragment ∧ (Submitter.runBatch id batch vertex fragment s.syncobj vertexInsert
          fragmentInsert).exec m₂ = (r, m') := by
  unfold Submitter.submit at he
  obtain ⟨_, m₁, h₁, he⟩ := (faultless_debug _ _).bind_survives he hr
  have hm₁ : SameInside m m₁ := (keeps_debug _ _).ok h₁
  obtain ⟨s₀, m₂, h₂, he⟩ := (faultless_getSubmitter id).bind_survives he hr
  obtain ⟨_, -, h₂⟩ := bind_getSubmitter_ok (f := pure) (by rw [bind_pure]; exact h₂)
  cases h₂
  split at he
  · cases he
    exact .inl ⟨⟨_, rfl⟩, hm₁⟩
  obtain ⟨b, m₃, h₃, he⟩ := (faultless_getBatch batch).bind_survives he hr
  obtain ⟨_, hb, h₃⟩ := bind_getBatch_ok (f := pure) (by rw [bind_pure]; exact h₃)
  cases h₃
  split at he
  · cases he
    exact .inl ⟨⟨_, rfl⟩, hm₁⟩
  obtain ⟨_, m₃, h₃, he⟩ := (faultless_collect id batch).bind_survives he hr
  obtain ⟨s, m₄, h₄, he⟩ := (faultless_getSubmitter id).bind_survives he hr
  obtain ⟨_, hs, h₄⟩ := bind_getSubmitter_ok (f := pure) (by rw [bind_pure]; exact h₄)
  cases h₄
  obtain ⟨vertex, m₄, h₄, he⟩ := (faultless_require s.vertex).bind_survives he hr
  obtain ⟨_, hvertex, h₄⟩ := bind_require_ok (f := pure) (by rw [bind_pure]; exact h₄)
  cases h₄
  obtain ⟨fragment, m₄, h₄, he⟩ := (faultless_require s.fragment).bind_survives he hr
  obtain ⟨_, hfragment, h₄⟩ := bind_require_ok (f := pure) (by rw [bind_pure]; exact h₄)
  cases h₄
  exact .inr ⟨b, m₁, m₃, s, vertex, fragment, by rwa [← hm₁.batches], hm₁, h₃, hs, hvertex, hfragment, he⟩

theorem toNat_add_one_le (n : UInt64) : (n + 1).toNat ≤ n.toNat + 1 := by
  rw [UInt64.toNat_add]
  exact Nat.mod_le _ _

/-- A station numbers a batch that is new and runs it, and a batch that waits leaves nothing to be done. -/
theorem Machine.Manned.submit {batch : Nat} {vertexInsert fragmentInsert : UInt64} {r : Except Halt Unit}
    (h : m.Manned st) (hn : ∀ q ∈ st.queues, q.seqnum.toNat + 1 < Device.endOfTime.toNat)
    (hmax : m'.device.streams.length ≤ slotCount)
    (he : (Submitter.submit st.submitter batch vertexInsert fragmentInsert).exec m = (r, m')) (hr : Survives r) :
    ∃ v f, v.toNat ≤ st.vertex.seqnum.toNat + 1 ∧ f.toNat ≤ st.fragment.seqnum.toNat + 1 ∧
      m'.Manned (st.renumber v f) ∧
      ∀ b, r = .ok () → m.batches[batch]? = some b → b.needsSync = true → m'.Drained st := by
  rcases submit_survives he hr with ⟨⟨f, rfl⟩, hsame⟩ | ⟨b, m₁, m₂, s, vertex, fragment, hb, hsame, h₂, hs, hv, hf, he⟩
  · refine ⟨st.vertex.seqnum, st.fragment.seqnum, Nat.le_succ _, Nat.le_succ _, ?_, fun b he => nomatch he⟩
    exact h.respects hsame.inward hmax
  have hm₁ : m₁.Manned st := h.respects hsame.inward (by rw [hsame.device]; exact h.length_le)
  have hb₁ : m₁.batches[batch]? = some b := by rwa [hsame.batches]
  have hm₂ := hm₁.collect hb₁ h₂
  obtain ⟨s', hs', hseat⟩ := hm₂.seated
  have hs' : m₂.submitters[st.submitter]? = some s' := hs'
  cases hs.symm.trans hs'
  obtain ⟨-, hvertex, hfragment, hsyncobj⟩ := Submitter.eq_of_seat hseat
  cases hv.symm.trans hvertex
  cases hf.symm.trans hfragment
  rw [hsyncobj] at he
  have hv : (st.vertex.seqnum + 1).toNat ≤ st.vertex.seqnum.toNat + 1 := toNat_add_one_le _
  have hf : (if b.hasFragment then st.fragment.seqnum + 1 else st.fragment.seqnum).toNat ≤
      st.fragment.seqnum.toNat + 1 := by
    split
    · exact toNat_add_one_le _
    · exact Nat.le_succ _
  have hfew : ∀ q ∈ (st.renumber (st.vertex.seqnum + 1)
      (if b.hasFragment then st.fragment.seqnum + 1 else st.fragment.seqnum)).queues, q.seqnum < Device.endOfTime := by
    intro q hq
    rw [UInt64.lt_iff_toNat_lt]
    rcases List.mem_pair.mp hq with rfl | rfl
    · exact Nat.lt_of_le_of_lt hv (hn _ st.vertex_mem)
    · exact Nat.lt_of_le_of_lt hf (hn _ st.fragment_mem)
  refine ⟨_, _, hv, hf, hm₂.runBatch hfew hmax he hr, fun b' hok hb' hsync => ?_⟩
  cases hb.symm.trans hb'
  subst hok
  obtain ⟨b₂, hb₂, hsame⟩ := ((sameNeeds_collect _ _).ok h₂).batch hb₁
  have hdrained := hm₂.runBatch_ok hfew hb₂ (hsame.trans hsync) hmax he
  exact ⟨hdrained.fences, hdrained.done⟩

end Kernel

end Mali
