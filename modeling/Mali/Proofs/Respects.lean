import Mali.Proofs.FailedBindings
import Mali.Proofs.Fences

/-!
# What is not licensed is left alone

A licence names streams, syncobjs and submission contexts.  Operations within it submit to no other stream, so the
slots of the others only advance.  Other syncobjs get no fence, and lose only fences that were passed.  Other submission
contexts keep what they have.

A machine grants a licence if the submission contexts that it names have nothing but what it names, and so will
everything that is made later.

* `Submitter.Suits`, `Machine.Grants`: what a licence asks of a machine.
* `Syncobj.Loses`, `LeavesAlone`: what is left alone.
* `Respects`: a licence stays granted, and what it does not name is left alone.
* `operating_respects`: every operation within a licence respects it.
-/

namespace Mali

open Op

variable {κ : Type}

/-! ## Submission contexts -/

/-- On a command stream device submission contexts stay as they are. -/
def SameSubmitters (m m' : Machine κ) : Prop :=
  m.device.generation = .csf → m'.device.generation = .csf ∧ m'.submitters = m.submitters

namespace SameSubmitters

variable {m m' : Machine κ}

theorem of_eq (hg : m'.device.generation = m.device.generation) (hs : m'.submitters = m.submitters) :
    SameSubmitters m m' := fun hm => ⟨hg.trans hm, hs⟩

instance : OfStreams (SameSubmitters (κ := κ)) where
  refl _ := of_eq rfl rfl
  trans h h' hm := ⟨(h' (h hm).1).1, (h' (h hm).1).2.trans (h hm).2⟩
  of_other hm hcsf := absurd hcsf hm
  of_streams hp _ _ hs := of_eq (congrArg Progress.generation hp) hs

instance : Slotless (SameSubmitters (κ := κ)) where
  of_pace _ _ _ := of_eq rfl rfl

end SameSubmitters

theorem sameSubmitters_modifyDevice {f : Device → Device} (h : ∀ d, (f d).generation = d.generation) :
    Keeps (SameSubmitters (κ := κ)) (modifyDevice f) := keeps_modify fun m => .of_eq (h m.device) rfl

section Kernel

variable [Kernel κ]

theorem sameSubmitters_bindStream (ctx : Nat) (va : UInt64) (size : UInt32) :
    Keeps (SameSubmitters (κ := κ)) (Device.bindStream ctx va size) := by
  have hattach (s : Stream) : Keeps (SameSubmitters (κ := κ)) (Device.attachStream s) :=
    keeps_bind keeps_takeSlot fun i => keeps_bind (keeps_startSlot i) fun _ => keeps_bind keeps_device fun _ =>
      keeps_bind (sameSubmitters_modifyDevice fun _ => rfl) fun _ => keeps_pure _
  unfold Device.bindStream
  exact keeps_bind (keeps_debug _ _) fun _ => keeps_bind (keeps_context ctx) fun _ =>
    keeps_bind (sameSubmitters_modifyDevice fun _ => rfl) fun _ => keeps_bind (keeps_bindRing _) fun _ => hattach _

/-- Making a queue ends with the binding of its stream. -/
theorem createQueue_ok {ctx : Nat} {ringSize : UInt32} {label : String} {q : Queue} {m m' : Machine κ}
    (he : (Submitter.createQueue ctx ringSize label).exec m = (.ok q, m')) :
    ∃ ring b m₁, (Allocator.create (Int64.ofNat ringSize.toNat) BufferFlag.cacheable label).exec m = (.ok ring, m₁) ∧
      (Device.bindStream ctx b ringSize).exec m₁ = (.ok q.stream, m') ∧ q.seqnum = 0 := by
  obtain ⟨ring, m₁, h₁, he⟩ := bind_ok he
  obtain ⟨b, -, he⟩ := bind_buffer_ok he
  obtain ⟨answer, m₂, h₂, he⟩ := bind_ok he
  cases answer with
  | ok stream =>
    cases he
    exact ⟨ring, b.gpu, m₁, h₁, attempt_ok h₂, rfl⟩
  | error f =>
    obtain ⟨_, m₃, -, he⟩ := bind_ok he
    cases he

end Kernel

/-! ## Granting a licence -/

/-- A submission context has streams and a syncobj that there are.  If a licence names it, it names those too. -/
structure Submitter.Suits (l : Licence) (id : Nat) (d : Device) (s : Submitter) : Prop where
  streams : ∀ q ∈ s.queues, q.stream < d.streams.length ∧ (l.submitter id → l.stream q.stream)
  syncobj : ∀ o ∈ s.syncobj, o < d.syncobjs.length ∧ (l.submitter id → l.syncobj o)

namespace Submitter.Suits

variable {l : Licence} {id : Nat} {d d' : Device} {s s' : Submitter}

theorem mono (h : s.Suits l id d) (hstreams : d.streams.length ≤ d'.streams.length)
    (hsyncobjs : d.syncobjs.length ≤ d'.syncobjs.length) : s.Suits l id d' where
  streams q hq := (h.streams q hq).imp_left fun hlt => Nat.lt_of_lt_of_le hlt hstreams
  syncobj o ho := (h.syncobj o ho).imp_left fun hlt => Nat.lt_of_lt_of_le hlt hsyncobjs

theorem of_within (h : s.Suits l id d) (hw : s'.Within s) : s'.Suits l id d where
  streams q hq := h.streams q (hw.queues hq)
  syncobj o ho := h.syncobj o (hw.syncobj o ho)

/-- A submission context that gets a queue suits if the stream of the queue does. -/
theorem of_gains {q : Queue} (h : s.Suits l id d) (hg : s.Gains q s')
    (hq : q.stream < d.streams.length ∧ (l.submitter id → l.stream q.stream)) : s'.Suits l id d where
  streams q' hq' := by
    rcases List.mem_cons.mp (hg.queues hq') with rfl | hold
    · exact hq
    · exact h.streams q' hold
  syncobj o ho := h.syncobj o (hg.syncobj ▸ ho)

end Submitter.Suits

theorem Submitter.within_of_seat {s s' : Submitter} (h : s'.seat = s.seat) : s'.Within s := by
  obtain ⟨hcontext, hvertex, hfragment, hsyncobj⟩ : s'.context = s.context ∧ s'.vertex = s.vertex ∧
      s'.fragment = s.fragment ∧ s'.syncobj = s.syncobj := by simpa [seat] using h
  refine ⟨fun c hc => by rwa [← hcontext], fun q hq => ?_, fun o ho => by rwa [← hsyncobj]⟩
  rwa [queues, hvertex, hfragment] at hq

/-- What a licence names is all that the submission contexts that it names have, and everything that is made later. -/
structure Machine.Grants (l : Licence) (m : Machine κ) : Prop where
  generation : m.device.generation = .csf
  suits : ∀ (id : Nat) (s : Submitter), m.submitters[id]? = some s → s.Suits l id m.device
  newStream : ∀ k, m.device.streams.length ≤ k → l.stream k
  newSyncobj : ∀ o, m.device.syncobjs.length ≤ o → l.syncobj o
  newSubmitter : ∀ id, m.submitters.length ≤ id → l.submitter id

namespace Machine.Grants

variable {l : Licence} {m m' : Machine κ}

/-- A licence stays granted while more is made. -/
theorem mono (h : m.Grants l) (hg : m'.device.generation = m.device.generation)
    (hstreams : m.device.streams.length ≤ m'.device.streams.length)
    (hsyncobjs : m.device.syncobjs.length ≤ m'.device.syncobjs.length) (hs : m'.submitters = m.submitters) :
    m'.Grants l where
  generation := hg.trans h.generation
  suits id s hid := (h.suits id s (hs ▸ hid)).mono hstreams hsyncobjs
  newStream k hk := h.newStream k (Nat.le_trans hstreams hk)
  newSyncobj o ho := h.newSyncobj o (Nat.le_trans hsyncobjs ho)
  newSubmitter id hid := h.newSubmitter id (by rwa [hs] at hid)

/-- A submission context changes that suits afterwards. -/
theorem modify {i : Nat} {f : Submitter → Submitter} (h : m.Grants l)
    (hf : ∀ s, m.submitters[i]? = some s → s.Suits l i m.device → (f s).Suits l i m.device) (hd : m'.device = m.device)
    (hs : m'.submitters = m.submitters.modify i f) : m'.Grants l where
  generation := by rw [hd, h.generation]
  suits id s hid := by
    rw [hs, List.getElem?_modify, Option.map_eq_map, Option.map_eq_some_iff] at hid
    obtain ⟨s₀, hs₀, rfl⟩ := hid
    rw [hd]
    split
    · rename_i heq
      subst heq
      exact hf s₀ hs₀ (h.suits _ s₀ hs₀)
    · exact h.suits id s₀ hs₀
  newStream k hk := h.newStream k (by rwa [hd] at hk)
  newSyncobj o ho := h.newSyncobj o (by rwa [hd] at ho)
  newSubmitter id hid := h.newSubmitter id (by rwa [hs, List.length_modify] at hid)

/-- There is a new submission context, which suits. -/
theorem add {s : Submitter} (h : m.Grants l) (hsuits : s.Suits l m.submitters.length m.device)
    (hd : m'.device = m.device) (hs : m'.submitters = m.submitters ++ [s]) : m'.Grants l where
  generation := by rw [hd, h.generation]
  suits id s' hid := by
    rw [hd]
    rw [hs, List.getElem?_append] at hid
    split at hid
    · exact h.suits id s' hid
    · rename_i hge
      have hlast : id = m.submitters.length := by
        have hlt : id - m.submitters.length < 1 := (List.getElem?_eq_some_iff.mp hid).1
        omega
      subst hlast
      rw [Nat.sub_self] at hid
      cases hid
      exact hsuits
  newStream k hk := h.newStream k (by rwa [hd] at hk)
  newSyncobj o ho := h.newSyncobj o (by rwa [hd] at ho)
  newSubmitter id hid := h.newSubmitter id (by
    rw [hs, List.length_append] at hid
    omega)

end Machine.Grants

/-! ## Leaving things alone -/

/-- A syncobj loses fences, and on streams that a licence does not name only such as were passed. -/
structure Syncobj.Loses (l : Licence) (slots' : SlotTable) (x x' : Syncobj) : Prop where
  live : x'.live = x.live
  fewer : ∀ f ∈ x'.fences, f ∈ x.fences
  passed : ∀ f ∈ x.fences, f ∉ x'.fences → ¬l.stream f.slot.toNat → f.value < (slots'.entry f.slot.toNat).last

theorem Syncobj.Loses.refl (l : Licence) (slots : SlotTable) (x : Syncobj) : x.Loses l slots x :=
  ⟨rfl, fun _ hf => hf, fun _ hf hgone => absurd hf hgone⟩

theorem Syncobj.Loses.none {l : Licence} {slots : SlotTable} {x x' : Syncobj} (h : x.Loses l slots x')
    (hx : x.fences = []) : x'.fences = [] := by
  refine List.eq_nil_iff_forall_not_mem.mpr fun f hf => ?_
  have hold := h.fewer f hf
  rw [hx] at hold
  cases hold

/-- Pruning drops the fences that were passed; what a licence names may be pruned by other slots. -/
theorem Syncobj.Loses.of_prune {l : Licence} {slots slots' : SlotTable}
    (h : ∀ k, ¬l.stream k → (slots.entry k).last = (slots'.entry k).last) (x : Syncobj) :
    x.Loses l slots' (x.prune slots) where
  live := rfl
  fewer f hf := (List.mem_filter.mp hf).1
  passed f hf hgone hk := by
    by_contra hpassed
    refine hgone (List.mem_filter.mpr ⟨hf, ?_⟩)
    rw [signalled_eq, h _ hk]
    simpa using hpassed

/-- What a licence does not name is left alone.  Slots advance, syncobjs lose passed fences, and submission contexts
keep their seats. -/
structure LeavesAlone (l : Licence) (m m' : Machine κ) : Prop where
  lastSubmit : ∀ k, ¬l.stream k → (m'.progress.slots.entry k).lastSubmit = (m.progress.slots.entry k).lastSubmit
  last : ∀ k, ¬l.stream k → (m.progress.slots.entry k).last ≤ (m'.progress.slots.entry k).last
  syncobjs : ∀ o x, ¬l.syncobj o → m.device.syncobjs[o]? = some x →
    ∃ x', m'.device.syncobjs[o]? = some x' ∧ x.Loses l m'.progress.slots x'
  seats : ∀ id s, ¬l.submitter id → m.submitters[id]? = some s → ∃ s', m'.submitters[id]? = some s' ∧ s'.seat = s.seat

namespace LeavesAlone

variable {l : Licence} {m m₁ m' : Machine κ}

/-- Slots change, and the others advance. -/
theorem of_slots (hentry : ∀ k, ¬l.stream k →
      (m'.progress.slots.entry k).lastSubmit = (m.progress.slots.entry k).lastSubmit ∧
      (m.progress.slots.entry k).last ≤ (m'.progress.slots.entry k).last)
    (ho : m'.device.syncobjs = m.device.syncobjs) (hs : m'.submitters = m.submitters) : LeavesAlone l m m' where
  lastSubmit k hk := (hentry k hk).1
  last k hk := (hentry k hk).2
  syncobjs o x _ hx := ⟨x, by rwa [ho], .refl _ _ _⟩
  seats id s _ hid := ⟨s, by rwa [hs], rfl⟩

theorem of_same (hp : m'.progress = m.progress) (ho : m'.device.syncobjs = m.device.syncobjs)
    (hs : m'.submitters = m.submitters) : LeavesAlone l m m' :=
  of_slots (fun k _ => by rw [hp]; exact ⟨rfl, UInt64.le_refl _⟩) ho hs

theorem trans (h : LeavesAlone l m m₁) (h' : LeavesAlone l m₁ m') : LeavesAlone l m m' where
  lastSubmit k hk := (h'.lastSubmit k hk).trans (h.lastSubmit k hk)
  last k hk := UInt64.le_trans (h.last k hk) (h'.last k hk)
  syncobjs o x ho hx := by
    obtain ⟨x₁, hx₁, hloses⟩ := h.syncobjs o x ho hx
    obtain ⟨x', hx', hloses'⟩ := h'.syncobjs o x₁ ho hx₁
    refine ⟨x', hx', hloses'.live.trans hloses.live, fun f hf => hloses.fewer f (hloses'.fewer f hf),
      fun f hf hgone hk => ?_⟩
    by_cases hf₁ : f ∈ x₁.fences
    · exact hloses'.passed f hf₁ hgone hk
    · exact UInt64.lt_of_lt_of_le (hloses.passed f hf hf₁ hk) (h'.last _ hk)
  seats id s hid hs := by
    obtain ⟨s₁, hs₁, hseat⟩ := h.seats id s hid hs
    obtain ⟨s', hs', hseat'⟩ := h'.seats id s₁ hid hs₁
    exact ⟨s', hs', hseat'.trans hseat⟩

/-- Only syncobjs change. -/
theorem of_syncobjs (hp : m'.progress = m.progress) (hs : m'.submitters = m.submitters)
    (ho : ∀ o x, ¬l.syncobj o → m.device.syncobjs[o]? = some x →
      ∃ x', m'.device.syncobjs[o]? = some x' ∧ x.Loses l m'.progress.slots x') : LeavesAlone l m m' where
  lastSubmit k _ := by rw [hp]
  last k _ := by
    rw [hp]
    exact UInt64.le_refl _
  syncobjs := ho
  seats id s _ hid := ⟨s, by rwa [hs], rfl⟩

/-- Only submission contexts change. -/
theorem of_submitters (hd : m'.device = m.device)
    (hs : ∀ id s, ¬l.submitter id → m.submitters[id]? = some s →
      ∃ s', m'.submitters[id]? = some s' ∧ s'.seat = s.seat) : LeavesAlone l m m' where
  lastSubmit k _ := by rw [Machine.progress, hd, Machine.progress]
  last k _ := by
    rw [Machine.progress, Machine.progress, hd]
    exact UInt64.le_refl _
  syncobjs o x _ hx := ⟨x, by rwa [hd], .refl _ _ _⟩
  seats := hs

/-- A submission context changes that is named, or that keeps its seat. -/
theorem of_modify {i : Nat} {f : Submitter → Submitter} (hi : ¬l.submitter i → ∀ s, (f s).seat = s.seat)
    (hd : m'.device = m.device) (hs : m'.submitters = m.submitters.modify i f) : LeavesAlone l m m' := by
  refine of_submitters hd fun id s hid hget => ?_
  rw [hs, List.getElem?_modify, hget]
  by_cases heq : i = id
  · subst heq
    exact ⟨f s, by simp, hi hid s⟩
  · exact ⟨s, by simp [heq], rfl⟩

end LeavesAlone

/-- A licence stays granted, and while every stream has a slot of its own what it does not name is left alone. -/
def Respects (l : Licence) (m m' : Machine κ) : Prop :=
  m.Grants l → m'.Grants l ∧ m.device.streams.length ≤ m'.device.streams.length ∧
    (m'.device.streams.length ≤ slotCount → m.progress.Sound → m'.progress.Sound ∧ LeavesAlone l m m')

theorem Machine.length_streams (m : Machine κ) : m.progress.streams.length = m.device.streams.length :=
  List.length_map ..

/-- On a sound device a stream has the slot with its number. -/
theorem Progress.Sound.slot_eq {m : Machine κ} {id : Nat} {s : Stream} (h : m.progress.Sound)
    (hs : m.device.streams[id]? = some s) : s.slot = id ∧ id < m.progress.bound := by
  have hget : m.progress.streams[id]? = some s.slot := by
    show (m.device.streams.map (·.slot))[id]? = _
    rw [List.getElem?_map, hs, Option.map_some]
  rw [h.streams, List.getElem?_eq_some_iff] at hget
  obtain ⟨hlt, hslot⟩ := hget
  rw [List.length_range] at hlt
  rw [List.getElem_range] at hslot
  exact ⟨hslot.symm, hlt⟩

namespace Respects

variable {l : Licence} {m m₁ m' : Machine κ}

theorem trans (h : Respects l m m₁) (h' : Respects l m₁ m') : Respects l m m' := by
  intro hm
  obtain ⟨hm₁, hlen, hleaves⟩ := h hm
  obtain ⟨hm', hlen', hleaves'⟩ := h' hm₁
  refine ⟨hm', Nat.le_trans hlen hlen', fun hmax hsound => ?_⟩
  obtain ⟨hsound₁, hleft⟩ := hleaves (Nat.le_trans hlen' hmax) hsound
  obtain ⟨hsound', hleft'⟩ := hleaves' hmax hsound₁
  exact ⟨hsound', hleft.trans hleft'⟩

theorem of_same (hp : m'.progress = m.progress) (ho : m'.device.syncobjs = m.device.syncobjs)
    (hs : m'.submitters = m.submitters) : Respects l m m' := by
  intro hm
  have hlen : m.device.streams.length = m'.device.streams.length := by
    rw [← m.length_streams, ← m'.length_streams, hp]
  exact ⟨hm.mono (congrArg Progress.generation hp) (Nat.le_of_eq hlen) (by rw [ho]) hs, Nat.le_of_eq hlen,
    fun _ hsound => ⟨hp ▸ hsound, .of_same hp ho hs⟩⟩

instance : OfStreams (Respects (κ := κ) l) where
  refl _ := of_same rfl rfl rfl
  trans := trans
  of_other hother hm := absurd hm.generation hother
  of_streams hp _ ho hs := of_same hp ho hs

/-- A slot changes. -/
theorem of_put {i : Nat} {s : EventSlot} (hp : m'.progress = m.progress.put i s)
    (ho : m'.device.syncobjs = m.device.syncobjs) (hs : SameSubmitters m m') (hi : i < slotCount)
    (h : m.Grants l → m.progress.Sound → (m.progress.put i s).Sound ∧
      (¬l.stream i → s.lastSubmit = (m.progress.slots.entry i).lastSubmit ∧
        (m.progress.slots.entry i).last ≤ s.last)) : Respects l m m' := by
  intro hm
  have hlen : m.device.streams.length = m'.device.streams.length := by
    rw [← m.length_streams, ← m'.length_streams, hp, Progress.put_streams]
  obtain ⟨hg, hsub⟩ := hs hm.generation
  refine ⟨hm.mono (hg.trans hm.generation.symm) (Nat.le_of_eq hlen) (by rw [ho]) hsub, Nat.le_of_eq hlen,
    fun _ hsound => ?_⟩
  obtain ⟨hsound', hentry⟩ := h hm hsound
  refine ⟨hp ▸ hsound', .of_slots (fun k hk => ?_) ho hsub⟩
  rw [hp, Progress.put, SlotTable.entry_put _ hi]
  split
  · rename_i heq
    subst heq
    exact hentry hk
  · exact ⟨rfl, UInt64.le_refl _⟩

/-- Syncobjs change, or more are made. -/
theorem of_syncobjs (hp : m'.progress = m.progress) (hs : m'.submitters = m.submitters)
    (hlen : m.device.syncobjs.length ≤ m'.device.syncobjs.length)
    (ho : ∀ o x, ¬l.syncobj o → m.device.syncobjs[o]? = some x →
      ∃ x', m'.device.syncobjs[o]? = some x' ∧ x.Loses l m'.progress.slots x') : Respects l m m' := by
  intro hm
  have hstreams : m.device.streams.length = m'.device.streams.length := by
    rw [← m.length_streams, ← m'.length_streams, hp]
  exact ⟨hm.mono (congrArg Progress.generation hp) (Nat.le_of_eq hstreams) hlen hs, Nat.le_of_eq hstreams,
    fun _ hsound => ⟨hp ▸ hsound, .of_syncobjs hp hs ho⟩⟩

/-- A syncobj changes that is named, or that loses what was passed. -/
theorem of_modifySyncobj {k : Nat} {f : Syncobj → Syncobj}
    (hf : ¬l.syncobj k → ∀ x : Syncobj, x.Loses l m.progress.slots (f x)) (hp : m'.progress = m.progress)
    (hs : m'.submitters = m.submitters) (ho : m'.device.syncobjs = m.device.syncobjs.modify k f) :
    Respects l m m' := by
  refine of_syncobjs hp hs (by rw [ho, List.length_modify]) fun o x hnot hx => ?_
  rw [ho, List.getElem?_modify, hx, hp]
  by_cases heq : k = o
  · subst heq
    exact ⟨f x, by simp, hf hnot x⟩
  · exact ⟨x, by simp [heq], .refl _ _ _⟩

/-- Only submission contexts change. -/
theorem of_submitters (hd : m'.device = m.device) (h : m.Grants l → m'.Grants l ∧ LeavesAlone l m m') :
    Respects l m m' := fun hm =>
  ⟨(h hm).1, Nat.le_of_eq (by rw [hd]), fun _ hsound =>
    ⟨by rwa [Machine.progress, hd], (h hm).2⟩⟩

/-- A submission context changes that suits afterwards, and is named or keeps its seat. -/
theorem of_modify {i : Nat} {f : Submitter → Submitter}
    (hf : m.Grants l → ∀ s, s.Suits l i m.device → (f s).Suits l i m.device)
    (hi : ¬l.submitter i → ∀ s, (f s).seat = s.seat) (hd : m'.device = m.device)
    (hs : m'.submitters = m.submitters.modify i f) : Respects l m m' :=
  of_submitters hd fun hm => ⟨hm.modify (fun s _ hsuits => hf hm s hsuits) hd hs, .of_modify hi hd hs⟩

end Respects

/-! ## Slots, streams and syncobjs -/

section Slots

variable {l : Licence}

instance : Ticking (Respects (κ := κ) l) where
  of_callbackAll c := (faultless_callbackAll c).keeps fun {m m' n} he hm => by
    obtain ⟨-, hmoves⟩ := callbackAll_ok he
    have hsub := ((keeps_callbackAll (R := SameSubmitters) c).ok he hm.generation).2
    have hlen : m.device.streams.length = m'.device.streams.length := by
      rw [← m.length_streams, ← m'.length_streams, hmoves.progress]
    have ho : m'.device.syncobjs = m.device.syncobjs := by
      cases he
      rfl
    refine ⟨hm.mono (congrArg Progress.generation hmoves.progress) (Nat.le_of_eq hlen) (by rw [ho]) hsub,
      Nat.le_of_eq hlen, fun _ hsound => ⟨?_, .of_slots (fun k _ => ?_) ho hsub⟩⟩
    · rw [hmoves.progress]
      exact hsound.awaitAll c
    · rw [hmoves.progress, SlotTable.entry_awaitAll]
      split
      · exact ⟨EventSlot.await_lastSubmit _ _, by rw [EventSlot.await_last]; exact UInt64.le_refl _⟩
      · exact ⟨rfl, UInt64.le_refl _⟩
  of_advanceSlot i n := (faultless_advanceSlot i n).keeps fun {m m' _} he => by
    obtain ⟨hlt, -, hmoves⟩ := advanceSlot_ok he
    refine .of_put hmoves.progress ((sameSyncobjs_advanceSlot i n).ok he) ((keeps_advanceSlot i n).ok he) hlt
      fun _ hsound => ⟨hsound.advance _ n, fun _ => ⟨EventSlot.advance_lastSubmit _ n, ?_⟩⟩
    rcases Nat.lt_or_ge i.toNat m.progress.bound with hin | hout
    · exact EventSlot.le_advance_last _ n (hsound.slots.started _ hin).behind
    · rw [hsound.slots.rest _ hout]
      exact UInt64.zero_le
  of_takeCallbacks i n := (faultless_takeCallbacks i n).keeps fun {m m' _} he => by
    obtain ⟨hlt, -, hmoves⟩ := takeCallbacks_ok he
    have ho : SameSyncobjs m m' := by
      refine Keeps.ok ?_ he
      exact keeps_bind (keeps_slot _) fun _ => keeps_bind (sameSyncobjs_setSlot _ _) fun _ =>
        keeps_bind (keeps_traceReady _ _ _) fun _ => keeps_pure _
    exact .of_put hmoves.progress ho ((keeps_takeCallbacks i n).ok he) hlt
      fun _ hsound => ⟨hsound.take _ n, fun _ => ⟨rfl, UInt64.le_refl _⟩⟩

theorem respects_createSyncobj : Keeps (Respects (κ := κ) l) Device.createSyncobj := by
  refine keeps_bind keeps_device fun _ => keeps_bind (keeps_modify fun m => ?_) fun _ => keeps_pure _
  refine .of_syncobjs rfl rfl (by simp) fun o x _ hx => ⟨x, ?_, .refl _ _ _⟩
  show (m.device.syncobjs ++ _)[o]? = some x
  rw [List.getElem?_append_left (List.getElem?_eq_some_iff.mp hx).1, hx]

/-- Pruning a syncobj leaves it alone. -/
theorem respects_pruneSyncobj (id : Nat) :
    Keeps (Respects (κ := κ) l) (modifyDevice fun d => { d with syncobjs := d.syncobjs.modify id (·.prune d.slots) }) :=
  keeps_modify fun _ => .of_modifySyncobj (fun _ x => .of_prune (fun _ _ => rfl) x) rfl rfl rfl

/-- A syncobj that is named may change. -/
theorem respects_modifySyncobj {id : Nat} (hid : l.syncobj id) (f : Syncobj → Syncobj) :
    Keeps (Respects (κ := κ) l) (Device.modifySyncobj id f) :=
  keeps_modify fun _ => .of_modifySyncobj (fun hnot => absurd hid hnot) rfl rfl rfl

/-- Work may be submitted to a stream that is named. -/
theorem respects_submitSlot {m : Machine κ} {id : Nat} {s : Stream} (n : UInt64) (hid : l.stream id)
    (hs : m.device.streams[id]? = some s) : KeepsAt (Respects l) (Device.submitSlot s.slot n) m := by
  refine (faultless_submitSlot s.slot n).keepsAt fun {m' _} he => ?_
  have hlt : s.slot < slotCount := by
    obtain ⟨-, hlt, -⟩ := bind_slot_ok he
    exact hlt
  refine .of_put (submitSlot_ok he).progress (submitSlot_syncobjs he) ((keeps_submitSlot _ _).ok he) hlt
    fun _ hsound => ⟨hsound.submit (Machine.mem_streams hs) n, fun hnot => absurd hid ?_⟩
  rwa [← (hsound.slot_eq hs).1]

variable [Kernel κ]

/-- A stream that is named may be cleared.  The syncobjs that are not named lose fences on its slot only, beside those
that were passed. -/
theorem respects_clearSlot {m : Machine κ} {id : Nat} {s : Stream} (hid : l.stream id)
    (hs : m.device.streams[id]? = some s) :
    KeepsAt (Respects l) (Device.clearSlot s.slot >>= Device.runCallbacks) m := by
  refine keepsAt_bind ((faultless_clearSlot s.slot).keepsAt fun {m' _} he hm => ?_) fun cs m₁ _ =>
    keeps_runCallbacks OfStreams.keeps_free cs m₁
  obtain ⟨hlt, -, hmoves⟩ := clearSlot_ok he
  have hsyncobjs := clearSlot_syncobjs he
  have hsub := ((keeps_clearSlot (R := SameSubmitters) s.slot).ok he hm.generation).2
  have hlen : m.device.streams.length = m'.device.streams.length := by
    rw [← m.length_streams, ← m'.length_streams, hmoves.progress, Progress.put_streams]
  refine ⟨hm.mono (congrArg Progress.generation hmoves.progress) (Nat.le_of_eq hlen)
    (by rw [hsyncobjs, List.length_map]) hsub, Nat.le_of_eq hlen, fun _ hsound => ?_⟩
  have hslot : l.stream s.slot := by rwa [(hsound.slot_eq hs).1]
  have hentry (t : EventSlot) {k : Nat} (hk : ¬l.stream k) :
      (m.progress.slots.put s.slot t).entry k = m.progress.slots.entry k := by
    rw [SlotTable.entry_put _ hlt, if_neg]
    rintro rfl
    exact hk hslot
  have hsame {k : Nat} (hk : ¬l.stream k) : m'.progress.slots.entry k = m.progress.slots.entry k := by
    rw [hmoves.progress]
    exact hentry _ hk
  refine ⟨?_, ⟨fun k hk => by rw [hsame hk], fun k hk => ?_, fun o x _ hx => ?_, fun id s _ hget => ⟨s, ?_, rfl⟩⟩⟩
  · rw [hmoves.progress]
    exact hsound.clear (Machine.mem_streams hs)
  · rw [hsame hk]
    exact UInt64.le_refl _
  · refine ⟨_, by rw [hsyncobjs, List.getElem?_map, hx, Option.map_some], ?_⟩
    unfold Syncobj.pruneLive
    split
    · exact .of_prune (fun k hk => by rw [hentry _ hk, hsame hk]) x
    · exact .refl _ _ _
  · rwa [hsub]

/-- A new stream is named, and so is its slot. -/
theorem respects_bindStream (ctx : Nat) (va : UInt64) (size : UInt32) :
    Keeps (Respects (κ := κ) l) (Device.bindStream ctx va size) := by
  refine fun m => keepsAt_of_exec fun {r m'} he hr => ?_
  obtain ⟨ho, hbound⟩ := bindStream_ok he hr
  have hsubmitters := (sameSubmitters_bindStream ctx va size m).survives he hr
  rcases hbound with ⟨-, hp⟩ | ⟨-, hp⟩
  · intro hm
    have hsub := (hsubmitters hm.generation).2
    have hlen : m'.device.streams.length = m.device.streams.length + 1 := by
      rw [← m.length_streams, ← m'.length_streams, hp, Progress.join, List.length_append]
      rfl
    refine ⟨hm.mono (congrArg Progress.generation hp) (by omega) (Nat.le_of_eq (congrArg List.length ho.symm)) hsub,
      by omega, fun hmax hsound => ?_⟩
    have hcount : m.progress.bound = m.device.streams.length := by
      rw [← hsound.length_streams, m.length_streams]
    have hlt : m.progress.bound < slotCount := by omega
    rw [Progress.join_of_lt hlt] at hp
    refine ⟨hp ▸ hsound.attach hlt, .of_slots (fun k hk => ?_) ho hsub⟩
    have hne : m.progress.bound ≠ k := by
      rintro rfl
      exact hk (hm.newStream _ (Nat.le_of_eq hcount.symm))
    rw [hp, Progress.attach, SlotTable.entry_put _ hlt, if_neg hne]
    exact ⟨rfl, UInt64.le_refl _⟩
  · intro hm
    exact Respects.of_same hp ho (hsubmitters hm.generation).2 hm

end Slots

/-! ## Batches -/

theorem Submitter.mem_queues {s : Submitter} {q : Queue} : q ∈ s.queues ↔ s.vertex = some q ∨ s.fragment = some q := by
  simp [queues]

/-- The queues of a submission context stay on their streams when a batch is numbered. -/
theorem Submitter.Suits.number {l : Licence} {id : Nat} {d : Device} {s : Submitter} (h : s.Suits l id d)
    (fragment : Bool) : (s.number fragment).Suits l id d where
  streams q hq := by
    rcases Submitter.mem_queues.mp hq with hvertex | hfragment
    · obtain ⟨q₀, hq₀, rfl⟩ := Option.map_eq_some_iff.mp hvertex
      exact h.streams q₀ (Submitter.mem_queues.mpr (.inl hq₀))
    · cases fragment with
      | false => exact h.streams q (Submitter.mem_queues.mpr (.inr hfragment))
      | true =>
        obtain ⟨q₀, hq₀, rfl⟩ := Option.map_eq_some_iff.mp hfragment
        exact h.streams q₀ (Submitter.mem_queues.mpr (.inr hq₀))
  syncobj o ho := h.syncobj o ho

/-- Collecting changes submission contexts where it numbers the batch. -/
theorem collect_submitters {id batch : Nat} {b : Batch} {m m' : Machine κ} {u : Unit}
    (hcsf : m.device.generation = .csf) (hb : m.batches[batch]? = some b)
    (he : (Submitter.collect id batch).exec m = (.ok u, m')) :
    m'.submitters = m.submitters.modify id (·.number b.hasFragment) := by
  have hbatch (id : Nat) (f : Batch → Batch) : Keeps (SameSubmitters (κ := κ)) (Batch.modify id f) :=
    keeps_modify fun _ => .of_eq rfl rfl
  have huse (deps : List Usage) (x : Nat) (u : Usage) :
      Keeps (SameSubmitters (κ := κ)) (Submitter.useBuffer deps x u) :=
    keeps_bind (keeps_buffer x) fun _ => keeps_bind (keeps_modifyBuffer x _) fun _ => keeps_pure _
  obtain ⟨_, m₂, hgather, hclean⟩ := bind_ok he
  obtain ⟨m₁, huses, hheap⟩ := gather_recorded hb hgather
  have hrest : SameSubmitters (m.number id batch b) m' :=
    Journey.trans (Journey.trans ((keeps_recordUses_of huse (fun id f _ => hbatch id f) id batch _).ok huses)
      ((keeps_recordHeap_of huse (fun id f _ => hbatch id f) id batch).ok hheap))
      ((keeps_bind (keeps_device (R := SameSubmitters)) fun _ => hbatch batch _).ok hclean)
  exact (hrest hcsf).2

/-! ## Operations -/

section Operating

variable [Kernel κ] {l : Licence}

omit [Kernel κ] in
theorem respects_collect {m : Machine κ} {id batch : Nat} {b : Batch} (hid : l.submitter id)
    (hb : m.batches[batch]? = some b) : KeepsAt (Respects l) (Submitter.collect id batch) m := by
  refine (faultless_collect id batch).keepsAt fun {m' _} he hm => ?_
  exact Respects.of_modify (fun _ s hs => hs.number b.hasFragment) (fun hnot => absurd hid hnot)
    ((sameDevice_collect id batch).ok he) (collect_submitters hm.generation hb he) hm

theorem streaming_respects : Streaming l fun _ => Respects (κ := κ) l where
  toProceeding := proceeding_of_streams
  createContext _ := keeps_createContext_of fun _ => keeps_modify fun _ => .of_same rfl rfl rfl
  destroyContext := OfStreams.keeps_destroyContext
  recreateContext := OfStreams.keeps_recreateContext
  bindStream _ := respects_bindStream
  rebindStream := OfStreams.keeps_rebindStream
  unmapStream := OfStreams.keeps_unmapStream
  clearSlot hid hs := respects_clearSlot hid hs
  submitSlot n hid hs := respects_submitSlot n hid hs
  createSyncobj := respects_createSyncobj
  pruneSyncobj := respects_pruneSyncobj
  fenceSyncobj _ _ _ hid := respects_modifySyncobj hid _
  destroySyncobj _ hid := respects_modifySyncobj hid _
  advance i n := keeps_advance OfStreams.keeps_free i n
  updateCallbacks i n := keeps_bind (keeps_takeCallbacks i n) fun cs => keeps_runCallbacks OfStreams.keeps_free cs
  collect _ hid hb _ := respects_collect hid hb

omit [Kernel κ] in
/-- A new submission context is named, and may be changed. -/
theorem respects_add {s : Submitter} {m m' : Machine κ} {n : Nat} (hm : m.Grants l)
    (hs : s.Suits l m.submitters.length m.device) (he : (Submitter.add s).exec m = (.ok n, m')) :
    l.submitter n ∧ Respects l m m' := by
  cases he
  refine ⟨hm.newSubmitter _ (Nat.le_refl _), .of_submitters rfl fun hm =>
    ⟨hm.add hs rfl rfl, .of_submitters rfl fun id s' _ hget => ⟨s', ?_, rfl⟩⟩⟩
  rw [List.getElem?_append_left (List.getElem?_eq_some_iff.mp hget).1, hget]

/-- A queue that is made runs on a new stream. -/
theorem createQueue_stream {ctx : Nat} {ringSize : UInt32} {label : String} {q : Queue} {m m' : Machine κ}
    (hm : m.Grants l) (he : (Submitter.createQueue ctx ringSize label).exec m = (.ok q, m')) :
    l.stream q.stream ∧ q.stream < m'.device.streams.length := by
  obtain ⟨ring, va, m₁, hcreate, hbind, -⟩ := createQueue_ok he
  obtain ⟨hm₁, -⟩ := (lending_of_streams (R := Respects (κ := κ) l)).create _ _ _ |>.ok hcreate hm
  obtain ⟨c, s, -, -, -, hn, hstreams, -⟩ := bindStream_parts hbind
  rw [hn, hstreams, List.length_append]
  exact ⟨hm₁.newStream _ (Nat.le_refl _), Nat.lt_succ_self _⟩

theorem operating_respects : Operating l fun _ => Respects (κ := κ) l := by
  have hedit (id : Nat) {f : Submitter → Submitter} (hf : ∀ s, (f s).seat = s.seat) :
      Keeps (Respects (κ := κ) l) (Submitter.modify id f) := keeps_modify fun _ =>
    .of_modify (fun _ s hs => hs.of_within (Submitter.within_of_seat (hf s))) (fun _ => hf) rfl rfl
  have hattending : Attending (Respects (κ := κ) l) := streaming_respects.attending lending_of_streams hedit
  exact {
    streaming_respects, lending_of_streams (R := Respects (κ := κ) l) with
    licensed := fun {m id s} hid hs => by
      by_cases hm : m.Grants l
      · have hsuits := hm.suits id s hs
        exact .inr ⟨fun q hq => (hsuits.streams q hq).2 hid, fun o ho => (hsuits.syncobj o ho).2 hid⟩
      · exact .inl fun m' hgrants => absurd hgrants hm
    editSubmitter := hedit
    trimSubmitter := fun hid hw => keeps_modify fun _ =>
      .of_modify (fun _ s hs => hs.of_within (hw s)) (fun hnot => absurd hid hnot) rfl rfl
    enlist := fun {α s f} hqueues hsyncobj hf m => keepsAt_of_exec fun {r m'} he hr hm => by
      obtain ⟨n, m₁, h₁, he⟩ := (faultless_addSubmitter s).bind_survives he hr
      obtain ⟨hn, hadd⟩ := respects_add hm ⟨by simp [hqueues], by simp [hsyncobj]⟩ h₁
      exact hadd.trans ((hf n hn m₁).survives he hr) hm
    enlistJobs := fun m => keepsAt_of_exec fun {r m'} he hr hm => by
      obtain ⟨o, m₁, h₁, he⟩ := faultless_createSyncobj.bind_survives he hr
      have hcreate := respects_createSyncobj.ok h₁ hm
      obtain ⟨hlen, -, ho⟩ := createSyncobj_ok h₁
      obtain ⟨n, rfl⟩ := (faultless_addSubmitter { syncobj := some o }).value he hr
      have hsuits : ({ syncobj := some o } : Submitter).Suits l m₁.submitters.length m₁.device := by
        refine ⟨nofun, fun k hk => ?_⟩
        cases hk
        rw [ho, List.length_append, hlen]
        exact ⟨Nat.lt_succ_self _, fun _ => hm.newSyncobj _ (Nat.le_refl _)⟩
      exact Respects.trans (fun _ => hcreate) (respects_add hcreate.1 hsuits he).2 hm
    seatQueue := fun {id set} ctx ringSize label _ hid hset m => keepsAt_of_exec fun {r m'} he hr hm => by
      rcases bind_survives he hr with ⟨f, h₁, rfl⟩ | ⟨q, m₁, h₁, he⟩
      · exact (hattending.createQueue (respects_bindStream ctx) ringSize label m).survives h₁ trivial hm
      obtain ⟨hq, hlt⟩ := createQueue_stream hm h₁
      cases he
      exact Respects.trans ((hattending.createQueue (respects_bindStream ctx) ringSize label).ok h₁)
        (.of_modify (fun _ s hs => hs.of_gains (hset q s) ⟨hlt, fun _ => hq⟩) (fun hnot => absurd hid hnot) rfl rfl) hm
    seatSyncobj := fun {id} hid m => keepsAt_of_exec fun {r m'} he hr hm => by
      obtain ⟨o, m₁, h₁, he⟩ := faultless_createSyncobj.bind_survives he hr
      obtain ⟨hlen, -, ho⟩ := createSyncobj_ok h₁
      cases he
      refine Respects.trans (respects_createSyncobj.ok h₁) (.of_modify (f := fun s => { s with syncobj := some o })
        (fun _ s hs => ⟨hs.streams, fun k hk => ?_⟩) (fun hnot => absurd hid hnot) rfl rfl) hm
      cases hk
      rw [ho, List.length_append, hlen]
      exact ⟨Nat.lt_succ_self _, fun _ => hm.newSyncobj _ (Nat.le_refl _)⟩
    importBuffer := OfStreams.keeps_importBuffer }

end Operating

end Mali
