import Mali.Proofs.Searches
import Mali.Proofs.Shortcuts
import Mali.Proofs.Stations

/-!
# A batch that waits leaves nothing to be done

A submission context is made in any session.  From then on it may submit and recover, others do what they like with
everything that is not its own, and the GPU reports what it likes.  However this went, a batch that waits, and comes
to an end without a fault, leaves no fence in the syncobj of the context, no work on its two slots that is not done, and
no use on them that is not finished.

While a context is made each of its streams is taken away from the others once it is bound.  Nothing was submitted to
a new stream, and the others leave it so.

* `Machine.Prepares`: a submission context in the making.
* `create_manned`: once it is made it is a station.
* `Tenure`: what is done while it works.
* `Tenure.submit_drained`: what a batch that waits leaves.
* `submit_undrained`: what it leaves where others use what belongs to the context, or the numbers have run out.
-/

namespace Mali

open Op

variable {κ : Type}

/-! ## Making a station -/

/-- Streams and syncobjs that are made may be taken away from the others. -/
theorem Machine.Grants.reserve {ks os ids ks' os' : List Nat} {m m' : Machine κ} (h : m.Grants (.sparing ks os ids))
    (hg : m'.device.generation = m.device.generation) (hs : m'.submitters = m.submitters)
    (hstreams : m.device.streams.length ≤ m'.device.streams.length)
    (hsyncobjs : m.device.syncobjs.length ≤ m'.device.syncobjs.length)
    (hks : ∀ k ∈ ks', m.device.streams.length ≤ k ∧ k < m'.device.streams.length)
    (hos : ∀ o ∈ os', m.device.syncobjs.length ≤ o ∧ o < m'.device.syncobjs.length) :
    m'.Grants (.sparing (ks ++ ks') (os ++ os') ids) where
  generation := hg.trans h.generation
  suits i s hi := by
    obtain ⟨hqueues, hsyncobj⟩ := h.suits i s (hs ▸ hi)
    refine ⟨fun q hq => ?_, fun o ho => ?_⟩
    · obtain ⟨hlt, hmay⟩ := hqueues q hq
      refine ⟨Nat.lt_of_lt_of_le hlt hstreams, fun hother hmem => ?_⟩
      rcases List.mem_append.mp hmem with hold | hnew
      · exact hmay hother hold
      · exact absurd hlt (Nat.not_lt.mpr (hks _ hnew).1)
    · obtain ⟨hlt, hmay⟩ := hsyncobj o ho
      refine ⟨Nat.lt_of_lt_of_le hlt hsyncobjs, fun hother hmem => ?_⟩
      rcases List.mem_append.mp hmem with hold | hnew
      · exact hmay hother hold
      · exact absurd hlt (Nat.not_lt.mpr (hos _ hnew).1)
  newStream k hk hmem := by
    rcases List.mem_append.mp hmem with hold | hnew
    · exact h.newStream k (Nat.le_trans hstreams hk) hold
    · exact absurd (hks k hnew).2 (Nat.not_lt.mpr hk)
  newSyncobj o ho hmem := by
    rcases List.mem_append.mp hmem with hold | hnew
    · exact h.newSyncobj o (Nat.le_trans hsyncobjs ho) hold
    · exact absurd (hos o hnew).2 (Nat.not_lt.mpr ho)
  newSubmitter i hi := h.newSubmitter i (by rwa [hs] at hi)

/-- A submission context without queues and without a syncobj may be taken away when it is added. -/
theorem Machine.Grants.enlist {s : Submitter} {m m' : Machine κ} (h : m.Grants .full) (hqueues : s.queues = [])
    (hsyncobj : s.syncobj = none) (hd : m'.device = m.device) (hs : m'.submitters = m.submitters ++ [s]) :
    m'.Grants (.sparing [] [] [m.submitters.length]) := by
  have hadd : m'.Grants .full := h.add ⟨by simp [hqueues], by simp [hsyncobj]⟩ hd hs
  refine ⟨hadd.generation, fun i s hi => ⟨fun q hq => ?_, fun o ho => ?_⟩, fun _ _ => List.not_mem_nil,
    fun _ _ => List.not_mem_nil, fun i hi hmem => ?_⟩
  · exact ⟨((hadd.suits i s hi).streams q hq).1, fun _ => List.not_mem_nil⟩
  · exact ⟨((hadd.suits i s hi).syncobj o ho).1, fun _ => List.not_mem_nil⟩
  · rw [hs, List.length_append, List.length_singleton, List.mem_singleton.mp hmem] at hi
    omega

/-- Some streams and syncobjs are kept for a submission context.  While every stream has a slot of its own, all work is
done on those that are kept. -/
structure Machine.Prepares (ks os : List Nat) (id : Nat)
    (seat : Option Nat × Option Queue × Option Queue × Option Nat) (m : Machine κ) : Prop where
  grants : m.Grants (.sparing ks os [id])
  reserves : m.device.streams.length ≤ slotCount → m.Reserves ks os id seat
  idle : m.device.streams.length ≤ slotCount →
    ∀ k ∈ ks, (m.progress.slots.entry k).last = (m.progress.slots.entry k).lastSubmit

namespace Machine.Prepares

variable {ks os : List Nat} {id : Nat} {seat : Option Nat × Option Queue × Option Queue × Option Nat}
  {m m' : Machine κ}

theorem respects (h : m.Prepares ks os id seat) (hr : Respects (.sparing ks os [id]) m m') :
    m'.Prepares ks os id seat := by
  obtain ⟨hgrants, hle, -⟩ := hr h.grants
  refine ⟨hgrants, fun hmax => ?_, fun hmax k hk => ?_⟩
  · exact ((h.reserves (Nat.le_trans hle hmax)).respects hr hmax).1
  · obtain ⟨hreserves, hleft⟩ := (h.reserves (Nat.le_trans hle hmax)).respects hr hmax
    exact hleft.done (fun hother => hother hk) hreserves.sound (h.idle (Nat.le_trans hle hmax) k hk)

/-- The submission context changes. -/
theorem modify {f : Submitter → Submitter} {seat' : Option Nat × Option Queue × Option Queue × Option Nat}
    (h : m.Prepares ks os id seat) (hseat : ∀ s, s.seat = seat → (f s).seat = seat')
    (hsuits : ∀ s : Submitter, s.Suits (.sparing ks os [id]) id m.device →
      (f s).Suits (.sparing ks os [id]) id m.device)
    (hd : m'.device = m.device) (hs : m'.submitters = m.submitters.modify id f) : m'.Prepares ks os id seat' := by
  have hgrants := h.grants.modify (fun s _ => hsuits s) hd hs
  have hprogress : m'.progress = m.progress := by rw [Machine.progress, hd, Machine.progress]
  refine ⟨hgrants, fun hmax => ?_, ?_⟩
  · obtain ⟨-, hsound, s, hid, hs₀⟩ := h.reserves (hd ▸ hmax)
    refine ⟨hgrants, hprogress ▸ hsound, f s, ?_, hseat s hs₀⟩
    rw [hs, getElem?_modify_of_some hid, if_pos rfl]
  · rw [hprogress, hd]
    exact h.idle

/-- A syncobj is taken away from the others. -/
theorem createSyncobj {o : Nat} (h : m.Prepares ks [] id seat) (he : Device.createSyncobj.exec m = (.ok o, m')) :
    m'.Prepares ks [o] id seat ∧ ∃ x, m'.device.syncobjs[o]? = some x ∧ x.live = true ∧ x.fences = [] := by
  obtain ⟨hlen, hprogress, hsyncobjs⟩ := createSyncobj_ok he
  have hsubmitters : m'.submitters = m.submitters := by
    cases he
    rfl
  have hstreams : m.device.streams.length = m'.device.streams.length := by
    rw [← m.length_streams, ← m'.length_streams, hprogress]
  have hone : m'.device.syncobjs.length = m.device.syncobjs.length + 1 := by
    rw [hsyncobjs, List.length_append, List.length_singleton]
  have hgrants : m'.Grants (.sparing (ks ++ []) ([] ++ [o]) [id]) :=
    h.grants.reserve (congrArg Progress.generation hprogress) hsubmitters (Nat.le_of_eq hstreams) (by omega) nofun
      (List.forall_mem_singleton.mpr (by omega))
  rw [List.append_nil] at hgrants
  refine ⟨⟨hgrants, fun hmax => ?_, ?_⟩, { id := UInt64.ofNat (o + 1) }, ?_, rfl, rfl⟩
  · obtain ⟨-, hsound, hseated⟩ := h.reserves (hstreams ▸ hmax)
    exact ⟨hgrants, hprogress ▸ hsound, by rwa [hsubmitters]⟩
  · rw [hprogress, ← hstreams]
    exact h.idle
  · rw [hsyncobjs, hlen, List.getElem?_append_right (Nat.le_refl _), Nat.sub_self]
    rfl

variable [Kernel κ]

/-- A stream is taken away from the others.  Nothing was submitted to it. -/
theorem bindStream {ctx k : Nat} {va : UInt64} {size : UInt32} (h : m.Prepares ks os id seat)
    (he : (Device.bindStream ctx va size).exec m = (.ok k, m')) :
    m'.Prepares (ks ++ [k]) os id seat ∧ k < m'.device.streams.length := by
  obtain ⟨_, _, -, hgeneration, -, hk, hstreams, -⟩ := bindStream_parts he
  obtain ⟨hsyncobjs, ⟨-, hjoin⟩ | ⟨⟨_, hfault⟩, -⟩⟩ := bindStream_ok he trivial
  on_goal 2 => cases hfault
  have hsubmitters := ((sameSubmitters_bindStream ctx va size).ok he h.grants.generation).2
  have hone : m'.device.streams.length = m.device.streams.length + 1 := by
    rw [hstreams, List.length_append, List.length_singleton]
  have hgrants : m'.Grants (.sparing (ks ++ [k]) (os ++ []) [id]) :=
    h.grants.reserve hgeneration hsubmitters (by omega) (Nat.le_of_eq (congrArg List.length hsyncobjs.symm))
      (List.forall_mem_singleton.mpr (by omega)) nofun
  rw [List.append_nil] at hgrants
  have hattach (hmax : m'.device.streams.length ≤ slotCount) :
      m.progress.bound = k ∧ m.progress.bound < slotCount ∧ m'.progress = m.progress.attach := by
    have hbound : m.progress.bound = k := by
      rw [← (h.reserves (by omega)).sound.length_streams, m.length_streams, hk]
    have hlt : m.progress.bound < slotCount := by omega
    exact ⟨hbound, hlt, by rw [hjoin, Progress.join_of_lt hlt]⟩
  refine ⟨⟨hgrants, fun hmax => ?_, fun hmax j hj => ?_⟩, by omega⟩
  · obtain ⟨-, hlt, hprogress⟩ := hattach hmax
    obtain ⟨-, hsound, hseated⟩ := h.reserves (by omega)
    exact ⟨hgrants, hprogress ▸ hsound.attach hlt, by rwa [hsubmitters]⟩
  · obtain ⟨hbound, hlt, hprogress⟩ := hattach hmax
    rw [hprogress, Progress.attach, SlotTable.entry_put _ hlt]
    split
    · rfl
    · rename_i hne
      rcases List.mem_append.mp hj with hold | hnew
      · exact h.idle (by omega) j hold
      · exact absurd (hbound.trans (List.mem_singleton.mp hnew).symm) hne

/-- A submission context gets a queue, whose stream is taken away from the others. -/
theorem seatQueue {ctx : Nat} {ringSize : UInt32} {label : String} {q : Queue} {f : Submitter → Submitter}
    {seat' : Option Nat × Option Queue × Option Queue × Option Nat} {u : Unit} {m₁ : Machine κ}
    (h : m.Prepares ks os id seat) (he : (Submitter.createQueue ctx ringSize label).exec m = (.ok q, m₁))
    (hf : (Submitter.modify id f).exec m₁ = (.ok u, m')) (hgains : ∀ s : Submitter, s.Gains q (f s))
    (hseat : ∀ s, s.seat = seat → (f s).seat = seat') :
    m'.Prepares (ks ++ [q.stream]) os id seat' ∧ q.seqnum = 0 := by
  obtain ⟨_, _, m₂, h₁, h₂, hq⟩ := createQueue_ok he
  obtain ⟨hprepares, hlt⟩ := (h.respects ((lending_of_streams.create _ _ _).ok h₁)).bindStream h₂
  cases hf
  refine ⟨hprepares.modify hseat (fun s hs => hs.of_gains (hgains s) ⟨hlt, fun hother => ?_⟩) rfl rfl, hq⟩
  exact absurd (List.mem_singleton_self id) hother

end Machine.Prepares

section Kernel

variable [Kernel κ] {m m' : Machine κ}

theorem orDestroy_value {α : Type} {id : Nat} {x : Op κ α} {a : α}
    (he : (Submitter.orDestroy id x).exec m = (.ok a, m')) : x.exec m = (.ok a, m') := by
  obtain ⟨answer, m₁, h₁, he⟩ := bind_ok he
  cases answer with
  | ok b =>
    cases he
    exact attempt_ok h₁
  | error f =>
    obtain ⟨_, _, -, he⟩ := bind_ok he
    cases he

/-- A submission context that is made is a station, which starts with the number zero on both queues. -/
theorem create_manned {ringSize : UInt32} {id : Nat} (hm : m.Grants .full) (hsound : m.progress.Sound)
    (hmax : m'.device.streams.length ≤ slotCount) (he : (Submitter.create ringSize).exec m = (.ok id, m')) :
    ∃ st, m'.station? id = some st ∧ m'.Manned st ∧ st.vertex.seqnum = 0 ∧ st.fragment.seqnum = 0 := by
  unfold Submitter.create at he
  obtain ⟨_, m₁, h₁, he⟩ := bind_ok he
  have hdebug : Respects .full m m₁ := (keeps_debug _ _).ok h₁
  obtain ⟨d, m₂, h₂, he⟩ := bind_ok he
  cases h₂
  rw [if_neg (not_not.mpr (hdebug hm).1.generation)] at he
  obtain ⟨answer, m₂, h₂, he⟩ := bind_ok he
  cases answer with
  | error f => cases he
  | ok ctx =>
  obtain ⟨hm₂, -, hleft⟩ := hdebug.trans ((streaming_respects.createContext trivial).ok (attempt_ok h₂)) hm
  obtain ⟨n, m₃, h₃, he⟩ := bind_ok he
  obtain ⟨_, m₄, h₄, he⟩ := bind_ok he
  obtain ⟨o, m₅, h₅, he⟩ := bind_ok he
  obtain ⟨_, m₆, h₆, he⟩ := bind_ok he
  cases he
  obtain ⟨vertex, a₁, hv, h₄⟩ := bind_ok h₄
  obtain ⟨_, a₂, hv', h₄⟩ := bind_ok h₄
  obtain ⟨fragment, a₃, hf, hf'⟩ := bind_ok h₄
  cases h₃
  cases h₆
  let n := m₂.submitters.length
  let added : Machine κ := { m₂ with submitters := m₂.submitters ++ [{ context := some ctx }] }
  let seated : Machine κ :=
    { m₅ with submitters := m₅.submitters.modify n fun s => { s with syncobj := some o } }
  have hadded : added.Grants (.sparing [] [] [n]) := hm₂.enlist rfl rfl rfl rfl
  have hstart : added.Prepares [] [] n (some ctx, none, none, none) :=
    ⟨hadded, fun hmax => ⟨hadded, (hleft hmax hsound).1, _, List.getElem?_concat_length .., rfl⟩, nofun⟩
  have hfirst : a₂.Prepares [vertex.stream] [] n (some ctx, some vertex, none, none) ∧ vertex.seqnum = 0 :=
    hstart.seatQueue (orDestroy_value hv) hv' (fun s => ⟨rfl, by simp [Submitter.queues], rfl⟩)
      fun s hs => by simp_all [Submitter.seat]
  have hsecond : m₄.Prepares [vertex.stream, fragment.stream] [] n (some ctx, some vertex, some fragment, none) ∧
      fragment.seqnum = 0 :=
    hfirst.1.seatQueue (orDestroy_value hf) hf' (fun s => ⟨rfl, by simp [Submitter.queues], rfl⟩)
      fun s hs => by simp_all [Submitter.seat]
  obtain ⟨hthird, x, hx, hlive, hnone⟩ := hsecond.1.createSyncobj h₅
  let st : Station := ⟨n, ctx, vertex, fragment, o⟩
  have hlast : seated.Prepares st.streams [o] n st.seat := hthird.modify (f := fun s => { s with syncobj := some o })
    (fun s hs => by simp_all [Submitter.seat, Station.seat, st]) (fun s hs => ⟨hs.streams, fun k hk => ?_⟩) rfl rfl
  · obtain ⟨s, hs, hseat⟩ := (hlast.reserves hmax).seated
    refine ⟨st, Machine.station?_of_seat hs hseat, ⟨hlast.reserves hmax, x, hx, .of_done hlive hnone ?_⟩, hfirst.2,
      hsecond.2⟩
    exact hlast.idle hmax
  · cases hk
    exact ⟨(List.getElem?_eq_some_iff.mp hx).1, fun hother => absurd (List.mem_singleton_self _) hother⟩

/-! ## While it works -/

omit [Kernel κ] in
/-- A copy of a syncobj is new, and leaves everything else alone. -/
theorem respects_copySyncobj {l : Licence} {k copy : Nat} (he : (Device.copySyncobj k).exec m = (.ok copy, m')) :
    Respects l m m' := by
  intro hm
  obtain ⟨-, hprogress, o, -, hsyncobjs⟩ := copySyncobj_ok he
  have hsame : SameSubmitters m m' := by
    refine Keeps.ok ?_ he
    exact keeps_bind (keeps_bind keeps_device fun _ => keeps_bind (sameSubmitters_modifyDevice fun _ => rfl)
      fun _ => keeps_pure _) fun _ => keeps_bind (keeps_syncobj k) fun _ =>
      keeps_bind (sameSubmitters_modifyDevice fun _ => rfl) fun _ => keeps_pure _
  refine Respects.of_syncobjs hprogress (hsame hm.generation).2 ?_ (fun i x _ hx => ⟨x, ?_, .refl _ _ _⟩) hm
  · rw [hsyncobjs, List.length_append]
    exact Nat.le_add_right _ _
  · rw [hsyncobjs, List.getElem?_append_left (List.getElem?_eq_some_iff.mp hx).1, hx]

theorem respects_waitBuffer (l : Licence) (x : Nat) (timeout : Int) (readers : Bool) :
    Keeps (Respects (κ := κ) l) (Buffer.wait x timeout readers) :=
  keeps_waitBuffer (Proceeding.polling proceeding_of_streams) (keeps_modifyBuffer x _) (keeps_modifyBuffer x _) timeout

/-- A station is at work after a number of submissions. -/
def Machine.WorksAfter (st : Station) (n : Nat) (m : Machine κ) : Prop :=
  ∃ v f, v.toNat ≤ st.vertex.seqnum.toNat + n ∧ f.toNat ≤ st.fragment.seqnum.toNat + n ∧ m.Manned (st.renumber v f)

omit [Kernel κ] in
theorem Machine.WorksAfter.respects {st : Station} {n : Nat} (h : m.WorksAfter st n) (hr : Respects st.others m m')
    (hmax : m'.device.streams.length ≤ slotCount) : m'.WorksAfter st n := by
  obtain ⟨v, f, hv, hf, hmanned⟩ := h
  exact ⟨v, f, hv, hf, hmanned.respects hr hmax⟩

/-- What is done while a station works.  Others do nothing with what belongs to it but set insert offsets and copy its
syncobj; other syncobjs are changed at will.  It submits batches, which the number counts, and recovers.  In between
time passes, and the GPU writes to memory. -/
inductive Tenure (st : Station) : Nat → Machine κ → Machine κ → Prop
  | start (m : Machine κ) : Tenure st 0 m m
  | other {n : Nat} {m m₁ m' : Machine κ} {r : Except Halt Unit} (op : Operation) (h : Tenure st n m m₁)
    (hop : op.Within st.others) (he : op.run.exec m₁ = (r, m')) (hr : Survives r) : Tenure st n m m'
  | copy {n : Nat} {m m₁ m' : Machine κ} {k copy : Nat} (h : Tenure st n m m₁)
    (he : (Device.copySyncobj k).exec m₁ = (.ok copy, m')) : Tenure st n m m'
  | change {n : Nat} {m m₁ m' : Machine κ} {k : Nat} {f : Syncobj → Syncobj} {u : Unit} (h : Tenure st n m m₁)
    (hk : st.others.syncobj k) (he : (Device.modifySyncobj k f).exec m₁ = (.ok u, m')) : Tenure st n m m'
  | insert {n : Nat} {m m₁ m' : Machine κ} {k : Nat} {insert : UInt64} {r : Except Halt Unit} (h : Tenure st n m m₁)
    (he : (Device.setLastInsert k insert).exec m₁ = (r, m')) (hr : Survives r) : Tenure st n m m'
  | wait {n : Nat} {m m₁ m' : Machine κ} {x : Nat} {timeout : Int} {readers : Bool} {r : Except Halt Bool}
    (h : Tenure st n m m₁) (he : (Buffer.wait x timeout readers).exec m₁ = (r, m')) (hr : Survives r) : Tenure st n m m'
  | submit {n : Nat} {m m₁ m' : Machine κ} {batch : Nat} {vertexInsert fragmentInsert : UInt64} {r : Except Halt Unit}
    (h : Tenure st n m m₁) (he : (Submitter.submit st.submitter batch vertexInsert fragmentInsert).exec m₁ = (r, m'))
    (hr : Survives r) : Tenure st (n + 1) m m'
  | reset {n : Nat} {m m₁ m' : Machine κ} {r : Except Halt Unit} (h : Tenure st n m m₁)
    (he : (Submitter.reset st.submitter).exec m₁ = (r, m')) (hr : Survives r) : Tenure st n m m'
  | idle {n : Nat} {m m₁ m' : Machine κ} (h : Tenure st n m m₁) (hsame : SameInside m₁ m') : Tenure st n m m'

/-- There are numbers left for the next batch. -/
theorem Station.few_of_le {st : Station} {n : Nat} {v f : UInt64} (hv : v.toNat ≤ st.vertex.seqnum.toNat + n)
    (hf : f.toNat ≤ st.fragment.seqnum.toNat + n)
    (hfew : ∀ q ∈ st.queues, q.seqnum.toNat + (n + 1) < Device.endOfTime.toNat) :
    ∀ q ∈ (st.renumber v f).queues, q.seqnum.toNat + 1 < Device.endOfTime.toNat := by
  intro q hq
  rcases List.mem_pair.mp hq with rfl | rfl
  · exact Nat.lt_of_le_of_lt (Nat.succ_le_succ hv) (hfew _ st.vertex_mem)
  · exact Nat.lt_of_le_of_lt (Nat.succ_le_succ hf) (hfew _ st.fragment_mem)

namespace Tenure

variable {st : Station} {n : Nat}

theorem respects (h : Tenure st n m m') : Respects .full m m' := by
  induction h with
  | start m => exact Journey.refl m
  | other op _ _ he hr ih => exact ih.trans ((operating_respects.operation op.within_full _).survives he hr)
  | copy _ he ih => exact ih.trans (respects_copySyncobj he)
  | change _ _ he ih => exact ih.trans ((respects_modifySyncobj trivial _).ok he)
  | insert _ he hr ih => exact ih.trans ((streaming_respects.setLastInsert _ _ _).survives he hr)
  | wait _ he hr ih => exact ih.trans ((respects_waitBuffer _ _ _ _ _).survives he hr)
  | submit _ he hr ih => exact ih.trans ((operating_respects.submit trivial trivial _ _ _ _).survives he hr)
  | reset _ he hr ih => exact ih.trans ((operating_respects.reset trivial _).survives he hr)
  | idle _ hsame ih => exact ih.trans hsame.inward

/-- Streams are not lost, so each had a slot of its own before. -/
theorem before {m₁ : Machine κ} (h : Tenure st n m m₁) (hm : m.Manned st) (hr : Respects .full m₁ m')
    (hmax : m'.device.streams.length ≤ slotCount) : m₁.device.streams.length ≤ slotCount :=
  Nat.le_trans (hr (h.respects hm.grants.full).1).2.1 hmax

/-- A station stays at work, and its numbers grow with its submissions.  By induction on what is done. -/
theorem worksAfter (h : Tenure st n m m') (hm : m.Manned st)
    (hfew : ∀ q ∈ st.queues, q.seqnum.toNat + n < Device.endOfTime.toNat)
    (hmax : m'.device.streams.length ≤ slotCount) : m'.WorksAfter st n := by
  induction h with
  | start m => exact ⟨_, _, Nat.le_refl _, Nat.le_refl _, hm⟩
  | @other _ _ m₁ m' _ op h hop he hr ih =>
    have hfull : Respects .full m₁ m' := (operating_respects.operation op.within_full _).survives he hr
    have hothers : Respects st.others m₁ m' := (operating_respects.operation hop _).survives he hr
    exact (ih hm hfew (h.before hm hfull hmax)).respects hothers hmax
  | copy h he ih =>
    exact (ih hm hfew (h.before hm (respects_copySyncobj he) hmax)).respects (respects_copySyncobj he) hmax
  | @change _ _ m₁ m' _ _ _ h hk he ih =>
    have hfull : Respects .full m₁ m' := (respects_modifySyncobj trivial _).ok he
    exact (ih hm hfew (h.before hm hfull hmax)).respects ((respects_modifySyncobj hk _).ok he) hmax
  | @insert _ _ m₁ m' _ _ _ h he hr ih =>
    have hall (l : Licence) : Respects l m₁ m' := (streaming_respects.setLastInsert _ _ _).survives he hr
    exact (ih hm hfew (h.before hm (hall _) hmax)).respects (hall _) hmax
  | @wait _ _ m₁ m' _ _ _ _ h he hr ih =>
    have hall (l : Licence) : Respects l m₁ m' := (respects_waitBuffer l _ _ _ _).survives he hr
    exact (ih hm hfew (h.before hm (hall _) hmax)).respects (hall _) hmax
  | @submit _ _ m₁ m' _ _ _ _ h he hr ih =>
    have hfull : Respects .full m₁ m' := (operating_respects.submit trivial trivial _ _ _ _).survives he hr
    obtain ⟨v, f, hv, hf, hmanned⟩ :=
      ih hm (fun q hq => Nat.lt_of_succ_lt (hfew q hq)) (h.before hm hfull hmax)
    obtain ⟨v', f', hv', hf', hmanned', -⟩ := hmanned.submit (Station.few_of_le hv hf hfew) hmax he hr
    exact ⟨v', f', Nat.le_trans hv' (Nat.succ_le_succ hv), Nat.le_trans hf' (Nat.succ_le_succ hf), hmanned'⟩
  | @reset _ _ m₁ m' _ h he hr ih =>
    have hfull : Respects .full m₁ m' := (operating_respects.reset trivial _).survives he hr
    obtain ⟨v, f, hv, hf, hmanned⟩ := ih hm hfew (h.before hm hfull hmax)
    exact ⟨v, f, hv, hf, (hmanned.reset hmax he hr).1⟩
  | idle h hsame ih => exact (ih hm hfew (h.before hm hsame.inward hmax)).respects hsame.inward hmax

end Tenure

/-! ## A batch that waits -/

omit [Kernel κ] in
theorem Machine.submitter_of_station {st : Station} {id : Nat} (h : m.station? id = some st) : st.submitter = id := by
  unfold Machine.station? at h
  simp only [Option.bind_eq_bind, Option.bind_eq_some_iff] at h
  obtain ⟨s, -, c, -, v, -, f, -, o, -, hst⟩ := h
  cases hst
  rfl

omit [Kernel κ] in
/-- The streams of a station have slots with their numbers. -/
theorem Machine.Mans.stream {st : Station} {k : Nat} (h : m.Mans st) (hk : k ∈ st.streams) :
    ∃ s, m.device.streams[k]? = some s ∧ s.slot = k := by
  have hlt : k < m.device.streams.length := by
    rw [← m.length_streams, h.sound.length_streams]
    exact h.lt_bound hk
  exact ⟨_, List.getElem?_eq_getElem hlt, (h.sound.slot_eq (List.getElem?_eq_getElem hlt)).1⟩

theorem Station.stream_mem {st : Station} {q : Queue} (hq : q ∈ st.queues) : q.stream ∈ st.streams :=
  List.mem_map_of_mem (f := Queue.stream) hq

theorem Station.exists_queue {st : Station} {k : Nat} (hk : k ∈ st.streams) : ∃ q ∈ st.queues, q.stream = k := by
  rcases List.mem_pair.mp hk with rfl | rfl
  · exact ⟨st.vertex, st.vertex_mem, rfl⟩
  · exact ⟨st.fragment, st.fragment_mem, rfl⟩

omit [Kernel κ] in
/-- Where nothing is to be done every use is finished. -/
theorem Machine.Drained.finished {st : Station} (h : m.Drained st) (hm : m.Mans st) {u : Usage} (readers : Bool)
    (hu : u.queue.toNat ∈ st.streams) : Usage.finished m.device.slots m.device.bound [u] readers = true := by
  refine Usage.finished_of_forall fun e he _ _ => ?_
  cases List.mem_singleton.mp he
  exact Usage.isFinished_of_done (hm.sound.slots.started _ (hm.lt_bound hu)).started (h.done _ hu)

omit [Kernel κ] in
/-- What a station records for a batch is on its own slots. -/
theorem Machine.Manned.recorded {st : Station} {batch : Nat} {b : Batch} {u : Unit} (h : m.Manned st)
    (hb : m.batches[batch]? = some b) (he : (Submitter.collect st.submitter batch).exec m = (.ok u, m'))
    {t : UsageType} {x : Nat} (hx : (t, x) ∈ b.uses) :
    ∃ u ∈ m'.usage x, (t.writes = true → u.write = true) ∧ u.queue.toNat ∈ st.streams := by
  have hm' := h.collect hb he
  obtain ⟨b', hgathers⟩ := gathers_of_collect hb he
  obtain ⟨i, n, hjob, e, he, hwithin⟩ := hgathers.recorded t x hx
  obtain ⟨s, hs, q, hq, stream, hstream, hi⟩ : ∃ s, m'.submitters[st.submitter]? = some s ∧
      ∃ q, s.queue? t.isFragment = some q ∧ ∃ stream, m'.device.streams[q.stream]? = some stream ∧ stream.slot = i := by
    unfold Machine.job? at hjob
    simp only [Option.bind_eq_bind, Option.bind_eq_some_iff] at hjob
    obtain ⟨s, hs, q, hq, stream, hstream, hpair⟩ := hjob
    cases hpair
    exact ⟨s, hs, q, hq, stream, hstream, rfl⟩
  obtain ⟨s', hs', hseat⟩ := hm'.seated
  cases hs.symm.trans hs'
  obtain ⟨-, hvertex, hfragment, -⟩ := Submitter.eq_of_seat hseat
  have hmem : q.stream ∈ st.streams := by
    unfold Submitter.queue? at hq
    split at hq
    · cases hq.symm.trans hfragment
      exact List.mem_cons_of_mem _ List.mem_cons_self
    · cases hq.symm.trans hvertex
      exact List.mem_cons_self
  rw [(hm'.sound.slot_eq hstream).1] at hi
  refine ⟨e, he, hwithin.write, ?_⟩
  rw [hwithin.queue, ← hi, toNat_ofNat_slot (Machine.Mans.lt_slotCount h.toReserves hmem)]
  exact hmem

/-- Let a submission context be made in a session, and let nobody else use what belongs to it from then on, with fewer
submissions than there are numbers.  If a batch that waits is submitted without a fault, whatever the kernel and the GPU
do, then the syncobj has no fence left, on both slots all work is done, and every use on them is finished.  Such are the
uses that were recorded for the batch. -/
theorem Tenure.submit_drained {m₀ m₁ m₂ m m' : Machine κ} {ringSize : UInt32} {id n batch : Nat} {st : Station}
    {b : Batch} {vertexInsert fragmentInsert : UInt64} (h₀ : Fresh m₀) (hnone : m₀.submitters = [])
    (hbefore : Session m₀ m₁) (hcreate : (Submitter.create ringSize).exec m₁ = (.ok id, m₂))
    (hst : m₂.station? id = some st) (h : Tenure st n m₂ m) (hfew : n + 1 < Device.endOfTime.toNat)
    (hb : m.batches[batch]? = some b) (hsync : b.needsSync = true)
    (he : (Submitter.submit id batch vertexInsert fragmentInsert).exec m = (.ok (), m'))
    (hmax : m'.device.streams.length ≤ slotCount) :
    (∃ o, m'.device.syncobjs[st.syncobj]? = some o ∧ o.fences = []) ∧
    (∀ q ∈ st.queues, ∃ s, m'.device.streams[q.stream]? = some s ∧
      (m'.device.slots.entry s.slot).last = (m'.device.slots.entry s.slot).lastSubmit ∧
      ∀ u : Usage, u.queue.toNat = s.slot → Usage.finished m'.device.slots m'.device.bound [u] true = true) ∧
    ∃ m₃ m₄, SameInside m m₃ ∧ (Submitter.collect id batch).exec m₃ = (.ok (), m₄) ∧
      ∀ t x, (t, x) ∈ b.uses → ∃ u ∈ m₄.usage x, (t.writes = true → u.write = true) ∧
        ∃ q ∈ st.queues, ∃ s, m'.device.streams[q.stream]? = some s ∧ u.queue.toNat = s.slot := by
  have hfull₀ : m₀.Grants .full :=
    ⟨h₀.generation, by simp [hnone], fun _ _ => trivial, fun _ _ => trivial, fun _ _ => trivial⟩
  have hsession : Respects .full m₀ m₁ := operating_respects.session (fun hsame _ => hsame.inward) hbefore
  have hmake : Respects .full m₁ m₂ := (operating_respects.createSubmitter trivial ringSize).ok hcreate
  have hsubmit : Respects .full m m' := (operating_respects.submit trivial trivial _ _ _).ok he
  obtain ⟨hfull₁, -, hleft₁⟩ := hsession hfull₀
  obtain ⟨hfull₂, hle₁, -⟩ := hmake hfull₁
  obtain ⟨hfull, hle₂, -⟩ := h.respects hfull₂
  have hmax₀ : m.device.streams.length ≤ slotCount := Nat.le_trans (hsubmit hfull).2.1 hmax
  have hmax₂ : m₂.device.streams.length ≤ slotCount := Nat.le_trans hle₂ hmax₀
  obtain ⟨hsound₁, -⟩ := hleft₁ (Nat.le_trans hle₁ hmax₂) h₀.sound
  obtain ⟨st', hst', hmanned, hv₀, hf₀⟩ := create_manned hfull₁ hsound₁ hmax₂ hcreate
  cases hst.symm.trans hst'
  obtain rfl := Machine.submitter_of_station hst
  have hnumbers : ∀ q ∈ st.queues, q.seqnum.toNat + (n + 1) < Device.endOfTime.toNat := by
    intro q hq
    have hzero : q.seqnum.toNat = 0 := by
      rcases List.mem_pair.mp hq with rfl | rfl
      · rw [hv₀, UInt64.toNat_zero]
      · rw [hf₀, UInt64.toNat_zero]
    omega
  obtain ⟨v, f, hv, hf, hworks⟩ := h.worksAfter hmanned (fun q hq => Nat.lt_of_succ_lt (hnumbers q hq)) hmax₀
  obtain ⟨v', f', -, -, hworks', hwaits⟩ := hworks.submit (Station.few_of_le hv hf hnumbers) hmax he trivial
  obtain ⟨hfences, hdone⟩ := hwaits b rfl hb hsync
  have hmans : m'.Mans (st.renumber v' f') := hworks'.toReserves
  refine ⟨hfences, fun q hq => ?_, ?_⟩
  · have hk : q.stream ∈ st.streams := Station.stream_mem hq
    obtain ⟨s, hs, hslot⟩ := hmans.stream hk
    refine ⟨s, hs, hslot ▸ hdone _ hk, fun u hu => ?_⟩
    have hdrained : m'.Drained (st.renumber v' f') := ⟨hfences, hdone⟩
    exact hdrained.finished hmans true (by rw [hu, hslot]; exact hk)
  · rcases submit_survives he trivial with ⟨⟨_, hfault⟩, -⟩ | ⟨b', m₃, m₄, _, _, _, hb', hsame, hcollect, -⟩
    · cases hfault
    cases hb.symm.trans hb'
    have hmanned₃ : m₃.Manned (st.renumber v f) := hworks.respects hsame.inward (by rwa [hsame.device])
    refine ⟨m₃, m₄, hsame, hcollect, fun t x hx => ?_⟩
    obtain ⟨u, hu, hwrites, hqueue⟩ := hmanned₃.recorded (by rwa [hsame.batches]) hcollect hx
    obtain ⟨s, hs, hslot⟩ := hmans.stream hqueue
    change _ ∈ st.streams at hqueue
    obtain ⟨q, hq, hstream⟩ := Station.exists_queue hqueue
    exact ⟨u, hu, hwrites, q, hq, s, hstream ▸ hs, hslot.symm⟩

end Kernel

namespace Sample

-- a table of 256 slots is evaluated
set_option maxRecDepth 20000

/-- A device on which waits end at once. -/
def unstaffed : Machine Bench := { grouped with submitters := [] }

theorem fresh_unstaffed : Fresh unstaffed := by
  constructor
  case range => exact Int.le_refl _
  all_goals rfl

/-- There is a buffer. -/
def supplied : Machine Bench := ((Operation.create 4096 0 "target").run.exec unstaffed).2

/-- There is a submission context. -/
def staffed : Machine Bench := ((Submitter.create 4096).exec supplied).2

/-- What belongs to it. -/
def post : Station where
  submitter := 0
  context := 1
  vertex := { stream := 0, ring := 1 }
  fragment := { stream := 1, ring := 2 }
  syncobj := 0

/-- It has a batch. -/
def started : Machine Bench := ((Operation.startBatch 0).run.exec staffed).2

/-- The batch writes the buffer. -/
def involved : Machine Bench := ((Operation.use 0 0 .writeVertex).run.exec started).2

/-- The batch waits. -/
def patient : Machine Bench := ((Operation.requireSync 0).run.exec involved).2

theorem tenure_patient : Tenure post 0 staffed patient :=
  .other (.requireSync 0)
    (.other (.use 0 0 .writeVertex)
      (.other (.startBatch 0) (.start staffed) trivial (exec_of_value (a := ()) (by decide +kernel)) trivial)
      trivial (exec_of_value (a := ()) (by decide +kernel)) trivial)
    trivial (exec_of_value (a := ()) (by decide +kernel)) trivial

/-- The batch was submitted, and the context reset after the wait. -/
def relieved : Machine Bench := ((Submitter.submit 0 0 64 64).exec patient).2

end Sample

-- a table of 256 slots is evaluated
set_option maxRecDepth 20000 in
/-- The work of a batch does not come to an end in time.  The context is reset, and nothing is left to be done. -/
theorem submit_drained_reset :
    (Submitter.submit 0 0 64 64).exec Sample.patient = (.ok (), Sample.relieved) ∧
    Sample.relieved.submitters.map (·.resets) = [1] ∧
    (∃ o, Sample.relieved.device.syncobjs[0]? = some o ∧ o.fences = []) ∧
    Usage.finished Sample.relieved.device.slots Sample.relieved.device.bound [⟨0, true, 1⟩] true = true := by
  have hsubmit : (Submitter.submit 0 0 64 64).exec Sample.patient = (.ok (), Sample.relieved) :=
    exec_of_value (by decide +kernel)
  have hsupply : Session Sample.unstaffed Sample.supplied :=
    .work (.create 4096 0 "target") (exec_of_value (a := ()) (by decide +kernel)) trivial (.nil _)
  have hcreate : (Submitter.create 4096).exec Sample.supplied = (.ok 0, Sample.staffed) :=
    exec_of_value (by decide +kernel)
  have hwaits : (Sample.patient.batches[0]?).map (·.needsSync) = some true := by decide +kernel
  obtain ⟨b, hb, hsync⟩ := Option.map_eq_some_iff.mp hwaits
  obtain ⟨hfences, hdone, -⟩ := Tenure.submit_drained Sample.fresh_unstaffed rfl hsupply hcreate (by decide +kernel)
    Sample.tenure_patient (by decide) hb hsync hsubmit (by decide +kernel)
  obtain ⟨s, hs, -, hfinished⟩ := hdone _ Sample.post.vertex_mem
  have hslot : s.slot = 0 := by
    have hslots : (Sample.relieved.device.streams[0]?).map (·.slot) = some 0 := by decide +kernel
    rw [show Sample.relieved.device.streams[0]? = some s from hs] at hslots
    exact Option.some.inj hslots
  exact ⟨hsubmit, by decide +kernel, hfences, hfinished _ hslot.symm⟩

namespace Sample

-- a table of 256 slots is evaluated
set_option maxRecDepth 20000

/-- A third stream was bound, and work submitted on it through the syncobj of the submission context. -/
def entangled : Machine Bench :=
  ((Operation.submitStream 2 64 (some 0) 7).run.exec ((Operation.bind 1 0x10000 4096).run.exec patient).2).2

/-- Vertex work of a batch that does not wait was terminated by others, who bound the stream again. -/
def severed : Machine Bench :=
  ((Operation.rebind 0).run.exec
    ((Operation.terminate 0).run.exec ((Submitter.submit 0 0 64 0).exec involved).2).2).2

/-- Another batch waits. -/
def resumed : Machine Bench :=
  ((Operation.requireSync 1).run.exec ((Operation.startBatch 0).run.exec severed).2).2

/-- Two atoms were refused, the second of which has the number of the fragment slot. -/
def turnedAway : Machine Bench :=
  ((Device.submitJob 0x2000 0 none []).exec ((Device.submitJob 0x2000 0 none []).exec patient).2).2

/-- So many batches that did nothing were submitted that one vertex number is left. -/
def exhausted : Machine Bench :=
  { patient with submitters := patient.submitters.map fun s =>
      { s with vertex := s.vertex.map fun q => { q with seqnum := Device.endOfTime - 1 } } }

end Sample

-- a table of 256 slots is evaluated
set_option maxRecDepth 20000 in
/-- A batch that waits leaves something to be done, though it comes to an end without a fault, if others submitted through
the syncobj of the context, if they terminated one of its streams, if an atom was refused whose number is that of its slot,
and if its work has the last number, which is never passed. -/
theorem submit_undrained :
    (((Submitter.submit 0 0 64 64).exec Sample.entangled).1.toOption = some () ∧
      ¬((Submitter.submit 0 0 64 64).exec Sample.entangled).2.Drained Sample.post) ∧
    (((Submitter.submit 0 1 64 0).exec Sample.resumed).1.toOption = some () ∧
      ¬((Submitter.submit 0 1 64 0).exec Sample.resumed).2.Drained Sample.post) ∧
    (((Submitter.submit 0 0 0 0).exec Sample.turnedAway).1.toOption = some () ∧
      ¬((Submitter.submit 0 0 0 0).exec Sample.turnedAway).2.Drained Sample.post) ∧
    ((Submitter.submit 0 0 64 64).exec Sample.exhausted).1.toOption = some () ∧
      ¬((Submitter.submit 0 0 64 64).exec Sample.exhausted).2.Drained Sample.post := by
  have hfences {m : Machine Bench} (h : m.Drained Sample.post) :
      (m.device.syncobjs[0]?).map (·.fences.length) = some 0 := by
    obtain ⟨o, ho, hnone⟩ := h.fences
    rw [show m.device.syncobjs[0]? = some o from ho, Option.map_some, hnone, List.length_nil]
  have hdone {m : Machine Bench} (h : m.Drained Sample.post) (k : Nat) (hk : k ∈ Sample.post.streams) :
      (m.progress.slots.entry k).isIdle = true := beq_iff_eq.mpr (h.done k hk)
  refine ⟨⟨by decide +kernel, fun h => ?_⟩, ⟨by decide +kernel, fun h => ?_⟩, ⟨by decide +kernel, fun h => ?_⟩,
    by decide +kernel, fun h => ?_⟩
  · exact absurd (hfences h) (by decide +kernel)
  · exact absurd (hdone h 0 (by decide)) (by decide +kernel)
  · exact absurd (hdone h 1 (by decide)) (by decide +kernel)
  · exact absurd (hfences h) (by decide +kernel)

end Mali
