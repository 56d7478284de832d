import Mali.Proofs.ContextObjects
import Mali.Proofs.EventRecords

/-!
# Recovering after a fault

A submission context that recovers terminates the streams of its queues, makes its queue group anew and binds the
streams again, as far as the kernel lets it, and counts the work that was lost as done.  In between each of its slots
starts over from zero.  Whatever fails on the way, in the end nothing is left to do on its slots.

Recovering goes through the queues twice.  What the first pass and the second do to the slots is the same change for
every queue, so each is an induction on the queues; what lies between leaves the slots alone.

* `EventSlot.clear`, `EventSlot.settle`: what terminating and retiring a stream does to its slot.
* `Alters`: some slots change in one way, and the others stay as they are.
* `Forgets`: syncobjs lose their fences on some slots.
* `terminateQueues_ok`, `retireQueues_ok`: the two passes.
* `Machine.Retired`: nothing is left to do on a slot.
* `Run.reset_retires`: recovering retires the slots of a submission context.
-/

namespace Mali

open Op

variable {κ : Type}

/-! ## Slots on which nothing is left to do -/

namespace EventSlot

/-- A slot that starts over. -/
def clear (s : EventSlot) : EventSlot := { s with last := 0, links := [] }

/-- A slot all of whose work counts as done. -/
def settle (s : EventSlot) : EventSlot := { s with last := s.lastSubmit, links := [] }

/-- The report of the last submission passes everything. -/
theorem Sound.advance_lastSubmit {s : EventSlot} (h : s.Sound) : (s.advance s.lastSubmit).2 = s.settle := by
  have hdrop : s.links.dropWhile (passed s.lastSubmit) = [] := by
    rw [List.dropWhile_eq_nil_iff]
    exact fun l hl => by simpa [passed] using (h.pending l hl).2
  have hforward : ¬s.isBackward s.lastSubmit = true := by simpa [isBackward] using h.behind
  have hlimit : s.limit s.lastSubmit = s.lastSubmit := if_neg (UInt64.lt_irrefl _)
  unfold EventSlot.advance
  rw [if_neg hforward, hlimit]
  show ({ s with last := s.lastSubmit, links := s.links.dropWhile (passed s.lastSubmit) } : EventSlot) = s.settle
  rw [hdrop, settle]

/-- A settled slot stays as it is, whatever is reported. -/
theorem advance_settle (s : EventSlot) (n : UInt64) : (s.settle.advance n).2 = s.settle := by
  unfold advance
  split
  · rfl
  · rename_i hforward
    have hle : s.lastSubmit ≤ n := UInt64.not_lt.mp fun hlt => hforward (decide_eq_true hlt)
    have hlimit : s.settle.limit n = s.lastSubmit := by
      unfold limit
      split
      · rfl
      · rename_i hlt
        exact UInt64.le_antisymm (UInt64.not_lt.mp hlt) hle
    rw [hlimit]
    rfl

/-- Nothing waits on a settled slot. -/
theorem await_settle (s : EventSlot) (c : Callback) : s.settle.await c = s.settle := if_pos (beq_self_eq_true _)

end EventSlot

/-- The slots of the streams of some queues. -/
def Machine.slotsOf (m : Machine κ) (qs : List Queue) : List Nat :=
  qs.filterMap fun q => m.progress.streams[q.stream]?

theorem Machine.slotsOf_cons (m : Machine κ) (q : Queue) (qs : List Queue) :
    m.slotsOf (q :: qs) = m.slotsOf [q] ++ m.slotsOf qs := by
  rw [slotsOf, ← List.singleton_append, List.filterMap_append, slotsOf, slotsOf]

/-- Some slots change in one way, and the others stay as they are. -/
structure Alters (f : EventSlot → EventSlot) (is : List Nat) (m m' : Machine κ) : Prop where
  entry : ∀ k, m'.progress.slots.entry k =
    if k ∈ is then f (m.progress.slots.entry k) else m.progress.slots.entry k
  streams : m'.progress.streams = m.progress.streams

namespace Alters

variable {f : EventSlot → EventSlot} {i : Nat} {is : List Nat} {m m₁ m' : Machine κ}

theorem nil (f : EventSlot → EventSlot) (m : Machine κ) : Alters f [] m m :=
  ⟨fun _ => (if_neg List.not_mem_nil).symm, rfl⟩

theorem slotsOf (h : Alters f is m m') (qs : List Queue) : m'.slotsOf qs = m.slotsOf qs := by
  rw [Machine.slotsOf, h.streams, Machine.slotsOf]

/-- One slot changes. -/
theorem of_put (hi : i < slotCount) (h : m'.progress = m.progress.put i (f (m.progress.slots.entry i))) :
    Alters f [i] m m' where
  entry k := by
    rw [h, Progress.put, SlotTable.entry_put _ hi]
    by_cases hk : i = k
    · rw [if_pos hk, if_pos (List.mem_singleton.mpr hk.symm), hk]
    · rw [if_neg hk, if_neg fun hmem => hk (List.mem_singleton.mp hmem).symm]
  streams := by rw [h, Progress.put]

/-- Slots change after others; a change made twice is made once. -/
theorem append {js : List Nat} (hf : ∀ s, f (f s) = f s) (h : Alters f is m m₁) (h' : Alters f js m₁ m') :
    Alters f (is ++ js) m m' where
  entry k := by
    rw [h'.entry, h.entry]
    by_cases hi : k ∈ is <;> by_cases hj : k ∈ js <;> simp [hi, hj, hf]
  streams := h'.streams.trans h.streams

theorem lastSubmit (h : Alters f is m m') (hf : ∀ s, (f s).lastSubmit = s.lastSubmit) (k : Nat) :
    (m'.progress.slots.entry k).lastSubmit = (m.progress.slots.entry k).lastSubmit := by
  rw [h.entry]
  split
  · exact hf _
  · rfl

end Alters

/-- Live syncobjs lose the fences on some slots, other than one at the end of time, and no syncobj gets a fence. -/
structure Forgets (is : List Nat) (m m' : Machine κ) : Prop where
  fewer : ∀ o' ∈ m'.device.syncobjs, ∃ o ∈ m.device.syncobjs, o.live = o'.live ∧ ∀ f ∈ o'.fences, f ∈ o.fences
  gone : ∀ o ∈ m'.device.syncobjs, o.live = true → ∀ f ∈ o.fences, f.value < Device.endOfTime → f.slot.toNat ∉ is

namespace Forgets

variable {i : Nat} {is : List Nat} {m m₁ m' : Machine κ}

theorem nil (m : Machine κ) : Forgets [] m m :=
  ⟨fun o ho => ⟨o, ho, rfl, fun _ hf => hf⟩, fun _ _ _ _ _ _ => List.not_mem_nil⟩

theorem append {js : List Nat} (h : Forgets is m m₁) (h' : Forgets js m₁ m') : Forgets (is ++ js) m m' where
  fewer o' ho' := by
    obtain ⟨o₁, ho₁, hlive₁, hsub₁⟩ := h'.fewer o' ho'
    obtain ⟨o, ho, hlive, hsub⟩ := h.fewer o₁ ho₁
    exact ⟨o, ho, hlive.trans hlive₁, fun f hf => hsub f (hsub₁ f hf)⟩
  gone o' ho' hlive' f hf hlt := by
    obtain ⟨o₁, ho₁, hlive₁, hsub₁⟩ := h'.fewer o' ho'
    rw [List.mem_append, not_or]
    exact ⟨h.gone o₁ ho₁ (hlive₁.trans hlive') f (hsub₁ f hf) hlt, h'.gone o' ho' hlive' f hf hlt⟩

/-- Once a slot has come to the end of time, pruning drops all earlier fences on it. -/
theorem of_prune {t : SlotTable} (hlast : (t.entry i).last = Device.endOfTime)
    (h : m'.device.syncobjs = m.device.syncobjs.map (·.pruneLive t)) : Forgets [i] m m' := by
  have hprune (o : Syncobj) : (o.pruneLive t).live = o.live ∧ ∀ f ∈ (o.pruneLive t).fences, f ∈ o.fences := by
    unfold Syncobj.pruneLive
    split
    · exact ⟨rfl, fun f hf => (List.mem_filter.mp hf).1⟩
    · exact ⟨rfl, fun f hf => hf⟩
  refine ⟨fun o' ho' => ?_, fun o' ho' hlive f hf hlt hslot => ?_⟩
  · rw [h] at ho'
    obtain ⟨o, ho, rfl⟩ := List.mem_map.mp ho'
    exact ⟨o, ho, (hprune o).1.symm, (hprune o).2⟩
  · rw [h] at ho'
    obtain ⟨o, ho, rfl⟩ := List.mem_map.mp ho'
    rw [(hprune o).1] at hlive
    rw [Syncobj.pruneLive, if_pos hlive, Syncobj.prune, List.mem_filter, Syncobj.signalled_eq,
      List.mem_singleton.mp hslot, hlast] at hf
    simp [hlt] at hf

end Forgets

section Kernel

variable [Kernel κ]

/-! ## Terminating -/

omit [Kernel κ] in
theorem unmoved_modifyStream (id : Nat) (f : Stream → Stream) : Keeps (Unmoved (κ := κ)) (Device.modifyStream id f) :=
  unmoved_modifyDevice fun _ => rfl

theorem unmoved_unmapStream (id : Nat) : Keeps (Unmoved (κ := κ)) (Device.unmapStream id) :=
  keeps_unmapStream_of (unmoved_modifyStream id _)

theorem unmoved_terminateStream (id : Nat) : Keeps (Unmoved (κ := κ)) (Device.terminateStream id) :=
  keeps_bind (keeps_debug _ _) fun _ => keeps_bind (unmoved_unmapStream id) fun _ =>
    keeps_bind (keeps_stream id) fun _ => keeps_bind (keeps_ignore (keeps_streamRequest _ _ _)) fun _ =>
    keeps_bind (keeps_clearSlot _) fun cs => (skirts_runCallbacks cs).mono fun _ _ h => h.toUnmoved

/-- Terminating the streams of queues clears their slots, by induction on the queues. -/
theorem terminateQueues_ok {qs : List Queue} {m m' : Machine κ} {u : Unit} (hm : m.progress.Sound)
    (he : (Submitter.terminateQueues qs).exec m = (.ok u, m')) :
    m'.progress.Sound ∧ Alters EventSlot.clear (m.slotsOf qs) m m' ∧ Forgets (m.slotsOf qs) m m' ∧ Unmoved m m' := by
  induction qs generalizing m with
  | nil =>
    cases he
    exact ⟨hm, .nil _ _, .nil _, Journey.refl _⟩
  | cons q qs ih =>
    obtain ⟨_, m₁, h₁, he⟩ := bind_ok he
    have hunmoved := (unmoved_terminateStream q.stream).ok h₁
    obtain ⟨s, hstream, hslot, hprogress, hsyncobjs⟩ := terminateStream_ok h₁
    have hof : m.progress.streams[q.stream]? = some s.slot := by
      show (m.device.streams.map (·.slot))[q.stream]? = _
      rw [List.getElem?_map, hstream, Option.map_some]
    have hmem : s.slot ∈ m.progress.streams := List.mem_of_getElem? hof
    have hlt : s.slot < m.progress.bound := by rwa [hm.streams, List.mem_range] at hmem
    have hcleared : m₁.progress = m.progress.put s.slot (m.progress.slots.entry s.slot).clear := by
      have htake : (m.progress.slots.entry s.slot).links.dropWhile (EventSlot.passed Device.endOfTime) = [] :=
        (hm.slots.started s.slot hlt).take_max.2
      rw [hprogress, EventSlot.take, htake, EventSlot.clear]
    have halters : Alters EventSlot.clear [s.slot] m m₁ := .of_put hslot hcleared
    have hforgets : Forgets [s.slot] m m₁ := .of_prune (by rw [SlotTable.entry_put _ hslot, if_pos rfl]) hsyncobjs
    have hm₁ : m₁.progress.Sound := by
      rw [hprogress]
      exact hm.clear hmem
    have hslots : m.slotsOf [q] = [s.slot] := List.filterMap_cons_some hof
    obtain ⟨hm', halters', hforgets', hunmoved'⟩ := ih hm₁ he
    rw [halters.slotsOf] at halters' hforgets'
    rw [m.slotsOf_cons, hslots]
    exact ⟨hm', halters.append (fun _ => rfl) halters', hforgets.append hforgets', hunmoved.trans hunmoved'⟩

/-! ## Making the group anew -/

/-- What lies between the two passes leaves slots, syncobjs, submission contexts and references alone. -/
structure Renews (m m' : Machine κ) : Prop where
  quiet : Quiet m m'
  syncobjs : SameSyncobjs m m'
  unmoved : Unmoved m m'

omit [Kernel κ] in
instance : Inward (Renews (κ := κ)) where
  refl m := ⟨Journey.refl m, Journey.refl m, Journey.refl m⟩
  trans h h' := ⟨h.quiet.trans h'.quiet, Journey.trans h.syncobjs h'.syncobjs, h.unmoved.trans h'.unmoved⟩
  of_eq hd ha hs hb := ⟨Inward.of_eq hd ha hs hb, Inward.of_eq hd ha hs hb, Inward.of_eq hd ha hs hb⟩

theorem renews_recreateContext (ctx : Nat) : Keeps (Renews (κ := κ)) (Device.recreateContext ctx) := by
  exact keeps_recreateContext_of fun _ =>
    keeps_modify fun m => ⟨⟨.of_eq rfl rfl, rfl, fun _ _ h => h⟩, rfl, .of_same rfl rfl rfl⟩

theorem renews_rebindQueues (qs : List Queue) : Keeps (Renews (κ := κ)) (Submitter.rebindQueues qs) := by
  have hunmoved (id : Nat) : Keeps (Unmoved (κ := κ)) (Device.rebindStream id) :=
    keeps_rebindStream_of fun _ => unmoved_modifyStream id _
  have hrebind (id : Nat) : Keeps (Renews (κ := κ)) (Device.rebindStream id) := fun m hs =>
    ⟨quiet_rebindStream id m hs, sameSyncobjs_rebindStream id m hs, hunmoved id m hs⟩
  induction qs with
  | nil => exact keeps_pure none
  | cons q qs ih => exact keeps_bind (keeps_faultOf (hrebind _)) fun _ => keeps_bind ih fun _ => keeps_pure _

omit [Kernel κ] in
theorem faultless_faultOf (x : Op κ Unit) : Faultless (faultOf x) := by
  refine faultless_bind (faultless_attempt x) fun r => ?_
  cases r with
  | ok _ => exact faultless_pure _
  | error f => exact faultless_pure _

theorem faultless_rebindQueues (qs : List Queue) : Faultless (Submitter.rebindQueues qs : Op κ (Option Fault)) := by
  induction qs with
  | nil => exact faultless_pure _
  | cons q qs ih => exact faultless_bind (faultless_faultOf _) fun _ => faultless_bind ih fun _ => faultless_pure _

/-! ## Retiring -/

/-- The insert offset of a stream. -/
def Machine.insert? (m : Machine κ) (k : Nat) : Option UInt64 := m.device.streams[k]?.map (·.lastInsert)

omit [Kernel κ] in
/-- Writing the insert offset of a stream leaves everything else alone. -/
theorem setLastInsert_ok {k : Nat} {insert : UInt64} {m m' : Machine κ} {u : Unit}
    (he : (Device.setLastInsert k insert).exec m = (.ok u, m')) :
    Quiet m m' ∧ SameSyncobjs m m' ∧ Unmoved m m' ∧ m'.memory = m.memory ∧
      ∀ j, m'.insert? j = if j = k then (m.insert? j).map fun _ => insert else m.insert? j := by
  have hset : Keeps (Quiet (κ := κ)) (Device.setLastInsert k insert) := quiet_modifyStream k fun _ => rfl
  have hquiet := hset.ok he
  cases he
  refine ⟨hquiet, rfl, .of_same rfl rfl rfl, rfl, fun j => ?_⟩
  show ((m.device.streams.modify k _)[j]?).map _ = _
  rw [List.getElem?_modify, Machine.insert?]
  by_cases hj : j = k
  · rw [if_pos hj, hj]
    cases m.device.streams[k]? with
    | none => rfl
    | some s => simp
  · rw [if_neg hj]
    simp [Ne.symm hj]

/-- The streams of some queues are retired: their slots are settled, their insert offsets start over, and their records
say what was submitted. -/
structure Retires (qs : List Queue) (m m' : Machine κ) : Prop where
  alters : Alters EventSlot.settle (m.slotsOf qs) m m'
  syncobjs : SameSyncobjs m m'
  unmoved : Unmoved m m'
  inserts : ∀ k, k ∈ qs.map (·.stream) ∨ m.insert? k = some 0 → m'.insert? k = some 0
  records : m.Secluded → ∀ k < slotCount, m'.record? k =
    if k ∈ m.slotsOf qs then some (m.progress.slots.entry k).lastSubmit else m.record? k

theorem retireQueues_singleton_ok {q : Queue} {m m' : Machine κ} {u : Unit} (hm : m.progress.Sound)
    (he : (Submitter.retireQueues [q]).exec m = (.ok u, m')) : Retires [q] m m' ∧ m'.progress.Sound := by
  obtain ⟨_, m₁, h₁, he⟩ := bind_ok he
  obtain ⟨hquiet, hsyncobjs, hunmoved, hmemory, hinsert⟩ := setLastInsert_ok h₁
  obtain ⟨s, hstream, he⟩ := bind_stream_ok he
  obtain ⟨-, hslot, he⟩ := bind_slot_ok he
  rw [Int.toNat_natCast] at hslot he
  obtain ⟨_, m₂, h₂, he⟩ := bind_ok he
  obtain ⟨_, m₃, h₃, he⟩ := bind_ok he
  cases he
  have hof : m.progress.streams[q.stream]? = some s.slot := by
    rw [← hquiet.progress]
    show (m₁.device.streams.map (·.slot))[q.stream]? = _
    rw [List.getElem?_map, hstream, Option.map_some]
  have hslots : m.slotsOf [q] = [s.slot] := List.filterMap_cons_some hof
  have hlt : s.slot < m.progress.bound := by
    have hmem := List.mem_of_getElem? hof
    rwa [hm.streams, List.mem_range] at hmem
  have hwrite : SameDevice m₁ m₂ := (keeps_setEventSeq (R := SameDevice) _ _).ok h₂
  have hprogress : m₂.progress = m.progress := by
    rw [← hquiet.progress, Machine.progress, hwrite, Machine.progress]
  obtain ⟨-, hsyncobjs', hadvance⟩ := advance_ok h₃
  have hskirts := (skirts_advance s.slot _).ok h₃
  have hunmoved₂ : Unmoved m m₂ := hunmoved.trans ((keeps_setEventSeq (R := Unmoved) _ _).ok h₂)
  have hsettle : m'.progress = m.progress.put s.slot (m.progress.slots.entry s.slot).settle := by
    rw [hadvance, Int.toNat_natCast, hprogress, hquiet.progress, (hm.slots.started s.slot hlt).advance_lastSubmit]
  have hhead : m₁.insert? q.stream = some 0 := by
    have hstill : m₁.insert? q.stream = some s.lastInsert := by
      rw [Machine.insert?, hstream, Option.map_some]
    rw [hinsert, if_pos rfl] at hstill ⊢
    obtain ⟨_, hwas, -⟩ := Option.map_eq_some_iff.mp hstill
    rw [hwas, Option.map_some]
  refine ⟨⟨?_, ?_, hunmoved₂.trans hskirts.toUnmoved, fun k hk => ?_, fun hm' k hk => ?_⟩, ?_⟩
  · rw [hslots]
    exact .of_put hslot hsettle
  · exact Journey.trans hsyncobjs (Journey.trans (OfDevice.of_device hwrite) hsyncobjs')
  · have hsame : m'.insert? k = m₁.insert? k := by
      rw [Machine.insert?, hskirts.lastInsert, hwrite, Machine.insert?]
    rw [hsame]
    rcases eq_or_ne k q.stream with rfl | hne
    · exact hhead
    · rw [hinsert, if_neg hne]
      exact hk.resolve_left fun hmem => hne (List.mem_singleton.mp hmem)
  · have hplace : m₁.record? = m.record? := SameRecords.record? ⟨hmemory, hunmoved.place⟩
    rw [hslots, hskirts.record? (hunmoved₂.secluded hm'), setEventSeq_record h₂ hslot hk, hplace, hquiet.progress]
    by_cases hki : k = s.slot
    · rw [if_pos hki, if_pos (List.mem_singleton.mpr hki), hki]
    · rw [if_neg hki, if_neg fun hmem => hki (List.mem_singleton.mp hmem)]
  · rw [hadvance, hprogress]
    exact hm.advance _ _

theorem faultless_retireQueues (qs : List Queue) : Faultless (Submitter.retireQueues qs : Op κ Unit) := by
  have hadvance (i : Int) (n : UInt64) : Faultless (Device.advance i n : Op κ Unit) :=
    faultless_bind (faultless_advanceSlot i n) fun cs => faultless_runCallbacks cs
  have hwrite (i : Int64) (n : UInt64) : Faultless (Device.setEventSeq i n : Op κ Unit) :=
    faultless_bind faultless_device fun _ => faultless_bind (faultless_require _) fun _ => faultless_modifyMemory _
  induction qs with
  | nil => exact faultless_pure ()
  | cons q qs ih =>
    exact faultless_bind (faultless_modifyDevice _) fun _ => faultless_bind (faultless_stream _) fun _ =>
      faultless_bind (faultless_slot _) fun _ => faultless_bind (hwrite _ _) fun _ =>
      faultless_bind (hadvance _ _) fun _ => ih

theorem Retires.cons {q : Queue} {qs : List Queue} {m m₁ m' : Machine κ} (h : Retires [q] m m₁)
    (h' : Retires qs m₁ m') : Retires (q :: qs) m m' := by
  have hslots : m₁.slotsOf qs = m.slotsOf qs := h.alters.slotsOf qs
  refine ⟨?_, Journey.trans h.syncobjs h'.syncobjs, h.unmoved.trans h'.unmoved, fun k hk => ?_, fun hm k hk => ?_⟩
  · rw [m.slotsOf_cons, ← hslots]
    exact h.alters.append (fun _ => rfl) h'.alters
  · rw [List.map_cons, List.mem_cons, or_assoc] at hk
    refine h'.inserts k ?_
    rcases hk with hk | hk | hk
    · exact .inr (h.inserts k (.inl (List.mem_singleton.mpr hk)))
    · exact .inl hk
    · exact .inr (h.inserts k (.inr hk))
  · rw [h'.records (h.unmoved.secluded hm) k hk, h.records hm k hk, h.alters.lastSubmit (fun _ => rfl), hslots,
      m.slotsOf_cons q qs]
    by_cases hone : k ∈ m.slotsOf [q] <;> by_cases hrest : k ∈ m.slotsOf qs <;> simp [hone, hrest]

/-- Retiring the streams of queues settles their slots, by induction on the queues. -/
theorem retireQueues_ok {qs : List Queue} {m m' : Machine κ} {u : Unit} (hm : m.progress.Sound)
    (he : (Submitter.retireQueues qs).exec m = (.ok u, m')) : Retires qs m m' := by
  induction qs generalizing m with
  | nil =>
    cases he
    exact ⟨.nil _ _, rfl, Journey.refl _, fun k hk => hk.resolve_left List.not_mem_nil, fun _ _ _ =>
      (if_neg List.not_mem_nil).symm⟩
  | cons q qs ih =>
    have hsplit : (Submitter.retireQueues (q :: qs) : Op κ Unit) = (do
        Submitter.retireQueues [q]
        Submitter.retireQueues qs) := by
      simp only [Submitter.retireQueues, bind_assoc, pure_bind]
    rw [hsplit] at he
    obtain ⟨_, m₁, h₁, he⟩ := bind_ok he
    obtain ⟨hone, hm₁⟩ := retireQueues_singleton_ok hm h₁
    exact hone.cons (ih hm₁ he)

/-! ## Dropping the tiler heap -/

/-- A reference may go, and what waits for it may wait on any slot. -/
structure Drops (x : Option Nat) (m m' : Machine κ) : Prop where
  entry : ∀ k, m'.progress.slots.entry k = m.progress.slots.entry k ∨
    ∃ c, m'.progress.slots.entry k = (m.progress.slots.entry k).await c
  streams : m'.progress.streams = m.progress.streams
  generation : m'.progress.generation = m.progress.generation
  syncobjs : SameSyncobjs m m'
  refs : ∀ y, m'.refs y = m.refs y - if x = some y then 1 else 0
  inserts : ∀ k, m'.insert? k = m.insert? k
  records : m.Secluded → m'.record? = m.record?

omit [Kernel κ] in
theorem refs_dropped {x : Nat} {b : Buffer} {m : Machine κ} (hb : m.allocator.buffers[x]? = some b) (y : Nat) :
    Machine.refs { m with allocator := m.allocator.mapBuffer x fun b => { b with refs := b.refs - 1 } } y =
      m.refs y - if some x = some y then 1 else 0 := by
  unfold Machine.refs Allocator.mapBuffer
  rw [List.getElem?_modify]
  rcases eq_or_ne x y with rfl | hne
  · simp [hb]
  · simp [hne]

theorem unreference_drops {x : Nat} {m m' : Machine κ} {u : Unit}
    (he : (Buffer.unreference x).exec m = (.ok u, m')) : Drops (some x) m m' ∧ m'.submitters = m.submitters := by
  have hprogress : ∃ n, m'.progress = m.progress ∨ m'.progress =
      { m.progress with slots := m.progress.slots.awaitAll n (.release x) } := by
    obtain ⟨_, -, -, ⟨-, hedit⟩ | ⟨-, m₁, hm₁, ⟨-, rfl⟩ | ⟨-, m₂, hq, hf⟩⟩⟩ := unreference_ok he
    · exact ⟨0, .inl hedit.progress⟩
    · exact ⟨_, .inr hm₁.progress⟩
    · exact ⟨_, .inr (((tidies_finish [] hf).progress.trans hq.progress).trans hm₁.progress)⟩
  obtain ⟨_, m₁, h₁, he⟩ := bind_ok he
  obtain ⟨b, hb, he⟩ := bind_buffer_ok he
  have hskirts : Skirts m₁ m' := by
    split at he
    · cases he
    · split at he
      · exact (skirts_beginRelease x).ok he
      · cases he
        exact Journey.refl _
  cases h₁
  have hsecluded (hm : m.Secluded) : Machine.Secluded { m with
      allocator := m.allocator.mapBuffer x fun b => { b with refs := b.refs - 1 } } :=
    hm.mono rfl (mapping_of_modify fun _ _ h => h)
  refine ⟨⟨fun k => ?_, ?_, ?_, hskirts.syncobjs, fun y => ?_, fun k => hskirts.lastInsert k, fun hm => ?_⟩,
    hskirts.submitters⟩
  · obtain ⟨n, hsame | hawait⟩ := hprogress
    · exact .inl (by rw [hsame])
    · rw [hawait, SlotTable.entry_awaitAll]
      split
      · exact .inr ⟨_, rfl⟩
      · exact .inl rfl
  · obtain ⟨n, hsame | hawait⟩ := hprogress
    · rw [hsame]
    · rw [hawait]
  · obtain ⟨n, hsame | hawait⟩ := hprogress
    · rw [hsame]
    · rw [hawait]
  · rw [hskirts.count]
    have hb : (m.allocator.buffers.modify x fun b => { b with refs := b.refs - 1 })[x]? = some b := hb
    rw [List.getElem?_modify] at hb
    obtain ⟨b₀, hb₀, -⟩ := Option.map_eq_some_iff.mp hb
    exact refs_dropped hb₀ y
  · exact hskirts.record? (hsecluded hm)

/-- The tiler heap of a submission context is dropped. -/
theorem dropHeap_ok {id : Nat} {s : Submitter} {m m' : Machine κ} {u : Unit} (hs : m.submitters[id]? = some s)
    (he : (Submitter.setHeap id none).exec m = (.ok u, m')) :
    Drops s.heap m m' ∧ m'.submitters = m.submitters.modify id fun s => { s with heap := none } := by
  unfold Submitter.setHeap at he
  obtain ⟨s', hs', he⟩ := bind_getSubmitter_ok he
  rw [hs] at hs'
  cases hs'
  cases hheap : s.heap with
  | none =>
    rw [hheap] at he
    cases he
    exact ⟨⟨fun _ => .inl rfl, rfl, rfl, rfl, fun _ => (Int32.sub_zero _).symm, fun _ => rfl, fun _ => rfl⟩, rfl⟩
  | some x =>
    rw [hheap] at he
    obtain ⟨_, m₁, h₁, he⟩ := bind_ok he
    obtain ⟨hdrops, hsubmitters⟩ := unreference_drops h₁
    cases he
    exact ⟨⟨hdrops.entry, hdrops.streams, hdrops.generation, hdrops.syncobjs, hdrops.refs, hdrops.inserts,
      hdrops.records⟩, by rw [← hsubmitters]⟩

/-! ## Recovering -/

/-- Nothing is left to do on a slot: all its work counts as done, nothing waits for it, and no pass changes it. -/
structure Machine.Retired (m : Machine κ) (i : Nat) : Prop where
  done : (m.progress.slots.entry i).last = (m.progress.slots.entry i).lastSubmit
  links : (m.progress.slots.entry i).links = []
  fences : ∀ o ∈ m.device.syncobjs, o.live = true → ∀ f ∈ o.fences, f.slot.toNat ≠ i
  uses : ∀ u : Usage, u.queue.toNat = i → u.isFinished m.device.slots = true
  passes : ∀ {m₁ m₂ : Machine κ} {fine : Bool}, m₁.progress.generation = .csf →
    m₁.progress.slots.entry i = m.progress.slots.entry i → Device.handleEvents.exec m₁ = (.ok fine, m₂) →
    m₂.progress.slots.entry i = m.progress.slots.entry i

/-- What a recovery comes to. -/
structure Recovers (id : Nat) (s : Submitter) (m m' : Machine κ) : Prop where
  retired : ∀ i ∈ m.slotsOf s.queues, m'.Retired i
  records : m.Secluded → ∀ i ∈ m.slotsOf s.queues, m'.record? i = some (m'.progress.slots.entry i).last
  inserts : ∀ q ∈ s.queues, m'.insert? q.stream = some 0
  streams : m'.progress.streams = m.progress.streams
  submitted : ∀ k, (m'.progress.slots.entry k).lastSubmit = (m.progress.slots.entry k).lastSubmit
  others : ∀ k, k ∉ m.slotsOf s.queues → (m'.progress.slots.entry k).last = (m.progress.slots.entry k).last
  submitters : m'.submitters =
    m.submitters.modify id fun s => { s with resets := s.resets + 1, heap := none }
  refs : ∀ x, m'.refs x = m.refs x - if s.heap = some x then 1 else 0

/-- What follows on making the group anew. -/
theorem recover_ok {id : Nat} {s : Submitter} (recreated : Option Fault) {m m' : Machine κ} {r : Except Halt Unit}
    (he : (do
      let rebound ←
        if recreated.isNone ∧ !(← allocator).options.sync then Submitter.rebindQueues s.queues
        else pure none
      Submitter.retireQueues s.queues
      Submitter.setHeap id none
      match Fault.first? recreated rebound with
      | some f => fail f
      | none => pure () : Op κ Unit).exec m = (r, m')) (hr : Survives r) :
    ∃ m₁ m₂, Renews m m₁ ∧ (Submitter.retireQueues s.queues).exec m₁ = (.ok (), m₂) ∧
      (Submitter.setHeap id none).exec m₂ = (.ok (), m') := by
  have hend (rebound : Option Fault) {m : Machine κ} (he : (do
      Submitter.retireQueues s.queues
      Submitter.setHeap id none
      match Fault.first? recreated rebound with
      | some f => fail f
      | none => pure () : Op κ Unit).exec m = (r, m')) :
      ∃ m₂, (Submitter.retireQueues s.queues).exec m = (.ok (), m₂) ∧
        (Submitter.setHeap id none).exec m₂ = (.ok (), m') := by
    obtain ⟨_, m₂, h₂, he⟩ := (faultless_retireQueues _).bind_survives he hr
    obtain ⟨_, m₃, h₃, he⟩ := (faultless_dropHeap id).bind_survives he hr
    refine ⟨m₂, h₂, ?_⟩
    split at he
    · cases he
      exact h₃
    · cases he
      exact h₃
  rw [exec_bind_of_ok (exec_allocator m)] at he
  split at he
  · obtain ⟨rebound, m₁, h₁, he⟩ := (faultless_rebindQueues _).bind_survives he hr
    obtain ⟨m₂, h₂, h₃⟩ := hend rebound he
    exact ⟨m₁, m₂, (renews_rebindQueues _).ok h₁, h₂, h₃⟩
  · obtain ⟨m₂, h₂, h₃⟩ := hend none he
    exact ⟨m, m₂, Journey.refl m, h₂, h₃⟩

/-- A recovery goes through the queues twice, and makes the group anew in between. -/
theorem reset_ok {id : Nat} {s : Submitter} {ctx : Nat} {m m' : Machine κ} {r : Except Halt Unit}
    (hs : m.submitters[id]? = some s) (hctx : s.context = some ctx)
    (he : (Submitter.reset id).exec m = (r, m')) (hr : Survives r) :
    ∃ m₁ m₂ m₃ m₄, m₁.device = m.device ∧ m₁.allocator = m.allocator ∧
      m₁.submitters = (m.submitters.modify id fun s => { s with resets := s.resets + 1 }) ∧
      (Submitter.terminateQueues s.queues).exec m₁ = (.ok (), m₂) ∧ Renews m₂ m₃ ∧
      (Submitter.retireQueues s.queues).exec m₃ = (.ok (), m₄) ∧
      (Submitter.setHeap id none).exec m₄ = (.ok (), m') := by
  unfold Submitter.reset at he
  obtain ⟨_, m₀, h₀, he⟩ := (faultless_debug _ _).bind_survives he hr
  cases h₀
  obtain ⟨s', m₀, h₀, he⟩ := (faultless_getSubmitter id).bind_survives he hr
  obtain ⟨s₀, hs₀, h₀⟩ := bind_getSubmitter_ok (f := pure) (by rw [bind_pure]; exact h₀)
  cases h₀
  cases hs.symm.trans hs₀
  rw [hctx] at he
  obtain ⟨_, m₁, h₁, he⟩ := (faultless_error _ _).bind_survives he hr
  cases h₁
  obtain ⟨_, m₁, h₁, he⟩ := (faultless_modifySubmitter id _).bind_survives he hr
  cases h₁
  obtain ⟨_, m₂, h₂, he⟩ := (faultless_terminateQueues _).bind_survives he hr
  obtain ⟨recreated, m₃, h₃, he⟩ := (faultless_faultOf _).bind_survives he hr
  have hrecreate := (keeps_faultOf (renews_recreateContext ctx)).ok h₃
  obtain ⟨m₄, m₅, hrenews, h₄, h₅⟩ : ∃ m₄ m₅, Renews m₃ m₄ ∧
      (Submitter.retireQueues s.queues).exec m₄ = (.ok (), m₅) ∧
      (Submitter.setHeap id none).exec m₅ = (.ok (), m') := by
    cases recreated with
    | none => exact recover_ok none he hr
    | some f =>
      obtain ⟨_, m₃', h₃', he⟩ := (faultless_error _ _).bind_survives he hr
      obtain ⟨m₄, m₅, hrenews, h⟩ := recover_ok (some f) he hr
      exact ⟨m₄, m₅, Journey.trans ((keeps_error (R := Renews) _ _).ok h₃') hrenews, h⟩
  refine ⟨_, m₂, m₄, m₅, ?_, ?_, ?_, h₂, Journey.trans hrecreate hrenews, h₄, h₅⟩
  all_goals rfl

/-- Reports and callbacks leave a settled slot as it is, whatever is reported; by induction on the steps. -/
theorem Run.slot_settled {reported : Nat → Option UInt64} {i : Nat} {c c' : Config κ} {es : List (Config κ × Action)}
    (h : Run c es c') (hacts : ∀ a ∈ es.map (·.2), a.OfPass reported) (hi : (c.slot i).settle = c.slot i) :
    c'.slot i = c.slot i := by
  induction h with
  | nil => rfl
  | @cons c c₁ c' a es hstep _ ih =>
    obtain ⟨ha, hacts⟩ := List.forall_mem_cons.mp hacts
    have hone : c₁.slot i = c.slot i := by
      rw [Config.slot, hstep.progress fun hattach => by rw [hattach] at ha; exact ha.elim]
      cases a with
      | advance j n =>
        rcases c.progress.slots.entry_put_or j ((c.progress.slots.entry j).advance n).2 i with ⟨rfl, hput⟩ | hput
        · rw [Action.move, Progress.put, hput, ← Config.slot, ← hi, EventSlot.advance_settle]
        · exact hput
      | fire => rfl
      | other => rfl
      | _ => exact ha.elim
    rw [← hone]
    exact ih hacts (by rw [hone, hi])

theorem handleEvents_settled {i : Nat} {fine : Bool} {m m' : Machine κ} (hcsf : m.progress.generation = .csf)
    (hi : (m.progress.slots.entry i).settle = m.progress.slots.entry i)
    (he : Device.handleEvents.exec m = (.ok fine, m')) : m'.progress.slots.entry i = m.progress.slots.entry i := by
  obtain ⟨es, hpass, -⟩ := handleEvents_ok hcsf he
  exact hpass.run.slot_settled hpass.acts hi

omit [Kernel κ] in
/-- Where all work is done every use is finished, also one for work that is still to be submitted. -/
theorem Usage.isFinished_of_done {slots : SlotTable} {u : Usage}
    (hstarted : 1 ≤ (slots.entry u.queue.toNat).lastSubmit)
    (hdone : (slots.entry u.queue.toNat).last = (slots.entry u.queue.toNat).lastSubmit) :
    u.isFinished slots = true := by
  unfold Usage.isFinished
  rw [Usage.last_eq, Usage.lastSubmit_eq, hdone]
  split
  · rfl
  · rename_i n hn
    exact decide_eq_true ((Usage.submitted?_iff hstarted).mp ⟨n, hn, UInt64.le_refl n⟩).1

theorem Machine.Retired.of_settled {i : Nat} {m : Machine κ} (hstarted : 1 ≤ (m.progress.slots.entry i).lastSubmit)
    (hi : (m.progress.slots.entry i).settle = m.progress.slots.entry i)
    (hfences : ∀ o ∈ m.device.syncobjs, o.live = true → ∀ f ∈ o.fences, f.slot.toNat ≠ i) : m.Retired i := by
  have hdone : (m.progress.slots.entry i).last = (m.progress.slots.entry i).lastSubmit :=
    (congrArg EventSlot.last hi).symm
  refine ⟨hdone, (congrArg EventSlot.links hi).symm, hfences, fun u hu => ?_, fun {m₁ m₂ fine} hcsf hsame he => ?_⟩
  · subst hu
    exact Usage.isFinished_of_done hstarted hdone
  · rw [handleEvents_settled hcsf (by rw [hsame, hi]) he, hsame]

omit [Kernel κ] in
theorem Progress.Sound.lt_bound_of_slotsOf {m : Machine κ} {qs : List Queue} {i : Nat} (hm : m.progress.Sound)
    (hi : i ∈ m.slotsOf qs) : i < m.progress.bound := by
  obtain ⟨q, -, hq⟩ := List.mem_filterMap.mp hi
  have hmem := List.mem_of_getElem? hq
  rwa [hm.streams, List.mem_range] at hmem

/-- Recovering retires the slots of a submission context, however its group and its streams come out of it. -/
theorem Run.reset_retires {m₀ m m' : Machine κ} {es : List (Config κ × Action)} {id ctx : Nat} {s : Submitter}
    {r : Except Halt Unit} (h₀ : Fresh m₀) (h : Run ⟨m₀, [], none⟩ es ⟨m, [], none⟩)
    (hmax : m.progress.streams.length ≤ slotCount)
    (hfences : ∀ o ∈ m.device.syncobjs, o.live = true → ∀ f ∈ o.fences, f.value < Device.endOfTime)
    (hs : m.submitters[id]? = some s) (hctx : s.context = some ctx)
    (he : (Submitter.reset id).exec m = (r, m')) (hr : Survives r) : Recovers id s m m' := by
  have hm : m.progress.Sound := h.sound h₀.sound hmax
  obtain ⟨m₁, m₂, m₃, m₄, hdevice, halloc, hsubmitters, h₁, hrenews, h₃, h₄⟩ := reset_ok hs hctx he hr
  have hprogress : m₁.progress = m.progress := by rw [Machine.progress, hdevice, Machine.progress]
  have hslots : m₁.slotsOf s.queues = m.slotsOf s.queues := by rw [Machine.slotsOf, hprogress, Machine.slotsOf]
  -- the first pass, and what follows on it
  obtain ⟨hm₂, hclear, hforgets, hunmoved⟩ := terminateQueues_ok (hprogress ▸ hm) h₁
  rw [hslots] at hclear hforgets
  have hm₃ : m₃.progress.Sound := by rwa [hrenews.quiet.progress]
  have hslots₃ : m₃.slotsOf s.queues = m.slotsOf s.queues := by
    rw [Machine.slotsOf, hrenews.quiet.progress, hclear.streams, hprogress, Machine.slotsOf]
  -- the second pass
  have hretires := retireQueues_ok hm₃ h₃
  have hsettle := hretires.alters
  rw [hslots₃] at hsettle
  have hunmoved₄ : Unmoved m₁ m₄ := (hunmoved.trans hrenews.unmoved).trans hretires.unmoved
  have hs₄ : m₄.submitters[id]? = some { s with resets := s.resets + 1 } := by
    rw [hunmoved₄.submitters, hsubmitters, List.getElem?_modify, hs]
    simp
  obtain ⟨hdrops, hsubmitters'⟩ := dropHeap_ok hs₄ h₄
  have hentry (k : Nat) : m₄.progress.slots.entry k =
      if k ∈ m.slotsOf s.queues then (m.progress.slots.entry k).settle else m.progress.slots.entry k := by
    rw [hsettle.entry, hrenews.quiet.progress, hclear.entry, hprogress]
    split
    · rfl
    · rfl
  have hsettled {i : Nat} (hi : i ∈ m.slotsOf s.queues) :
      m'.progress.slots.entry i = (m.progress.slots.entry i).settle := by
    obtain hsame | ⟨c, hawait⟩ := hdrops.entry i
    · rw [hsame, hentry, if_pos hi]
    · rw [hawait, hentry, if_pos hi, EventSlot.await_settle]
  have hsecluded (hsec : m.Secluded) : m₃.Secluded :=
    (hunmoved.trans hrenews.unmoved).secluded
      (hsec.mono (by rw [hdevice]) fun b hb r hr => ⟨b, by rwa [halloc] at hb, hr⟩)
  constructor
  case retired =>
    intro i hi
    have hstarted := (hm.slots.started i (hm.lt_bound_of_slotsOf hi)).started
    refine .of_settled ?_ ?_ fun o ho hlive f hf hslot => ?_
    · rw [hsettled hi]
      exact hstarted
    · rw [hsettled hi]
      rfl
    · have hsyncobjs : m'.device.syncobjs = m₂.device.syncobjs :=
        Eq.trans hdrops.syncobjs (Eq.trans hretires.syncobjs hrenews.syncobjs)
      rw [hsyncobjs] at ho
      obtain ⟨o₁, ho₁, hlive₁, hsub⟩ := hforgets.fewer o ho
      rw [hdevice] at ho₁
      exact hforgets.gone o ho hlive f hf (hfences o₁ ho₁ (hlive₁.trans hlive) f (hsub f hf)) (hslot ▸ hi)
  case records =>
    intro hsec i hi
    have hlt : i < slotCount := Nat.lt_of_lt_of_le (hm.lt_bound_of_slotsOf hi) hm.slots.bound_le
    rw [hdrops.records (hretires.unmoved.secluded (hsecluded hsec)), hretires.records (hsecluded hsec) i hlt, hslots₃,
      if_pos hi, hsettled hi, hrenews.quiet.progress, hclear.lastSubmit fun _ => rfl, hprogress]
    rfl
  case inserts =>
    intro q hq
    rw [hdrops.inserts]
    exact hretires.inserts q.stream (.inl (List.mem_map.mpr ⟨q, hq, rfl⟩))
  case streams => rw [hdrops.streams, hsettle.streams, hrenews.quiet.progress, hclear.streams, hprogress]
  case submitted =>
    intro k
    have hsame : (m₄.progress.slots.entry k).lastSubmit = (m.progress.slots.entry k).lastSubmit := by
      rw [hentry]
      split
      · rfl
      · rfl
    obtain hk | ⟨c, hk⟩ := hdrops.entry k
    · rw [hk, hsame]
    · rw [hk, EventSlot.await_lastSubmit, hsame]
  case others =>
    intro k hk
    have hsame : m₄.progress.slots.entry k = m.progress.slots.entry k := by rw [hentry, if_neg hk]
    obtain hk' | ⟨c, hk'⟩ := hdrops.entry k
    · rw [hk', hsame]
    · rw [hk', EventSlot.await_last, hsame]
  case submitters =>
    rw [hsubmitters', hunmoved₄.submitters, hsubmitters, Edits.modify_modify]
    rfl
  case refs =>
    intro x
    rw [hdrops.refs, hunmoved₄.count, Machine.refs, halloc, Machine.refs]

end Kernel

/-! ## A recovery -/

instance {α : Type} : DecidablePred (Survives (α := α))
  | .ok _ | .error (.fault _) => isTrue trivial
  | .error (.panic _) | .error .crash => isFalse id

namespace Sample

/-- A submission context with its own streams, whose tiler heap is the buffer. -/
def holder : Submitter where
  context := some 0
  vertex := some { stream := 0, ring := 0 }
  fragment := some { stream := 1, ring := 0 }
  heap := some 0

/-- Contexts, syncobjs and submission contexts come from elsewhere. -/
def equip (m : Machine Bench) (contexts : List Context) (syncobjs : List Syncobj) (submitters : List Submitter) :
    Machine Bench := { m with device := { m.device with contexts, syncobjs }, submitters }

theorem quiet_equip (m : Machine Bench) (contexts : List Context) (syncobjs : List Syncobj)
    (submitters : List Submitter) : Quiet m (equip m contexts syncobjs submitters) :=
  ⟨.of_eq rfl rfl, rfl, fun _ _ h => h⟩

/-- Work of the submission context is under way. -/
def faulty : Machine Bench := equip busy [{}] [{ id := 1, fences := [⟨0, 5⟩] }] [holder]

-- a table of 256 slots is evaluated
set_option maxRecDepth 20000 in
/-- The mapping of its buffer is empty. -/
theorem secluded_faulty : faulty.Secluded where
  mappings b hb r hr a ha := by
    have hempty : ∀ b ∈ faulty.allocator.buffers, b.cpu = some ⟨0, 0⟩ := by decide
    rw [hempty b hb] at hr
    cases hr
    exact absurd ha.2 (Nat.not_lt.mpr ha.1)
  kernel k c hc s hs := by
    rw [show (Kernel.call k c).1.stores = [] from (k.call_givesBack hc).1] at hs
    cases hs

end Sample

-- a table of 256 slots is evaluated
set_option maxRecDepth 20000 in
/-- The work under way is retired, and the event records of both slots say so. -/
theorem reset_retires_sample :
    Recovers 0 Sample.holder Sample.faulty ((Submitter.reset 0).exec Sample.faulty).2 ∧
      ((Submitter.reset 0).exec Sample.faulty).2.record? 0 = some 6 ∧
      ((Submitter.reset 0).exec Sample.faulty).2.record? 1 = some 1 := by
  have hrun : Run ⟨Sample.start, [], none⟩ _ ⟨Sample.faulty, [], none⟩ :=
    Sample.run_busy.append (.single (.quiet (Sample.quiet_equip _ _ _ _)))
  have hfences : ∀ o ∈ Sample.faulty.device.syncobjs, o.live = true → ∀ f ∈ o.fences, f.value < Device.endOfTime := by
    decide
  have hrecovers (p : Except Halt Unit × Machine Bench) (he : (Submitter.reset 0).exec Sample.faulty = p)
      (hr : Survives p.1) : Recovers 0 Sample.holder Sample.faulty p.2 := by
    obtain ⟨r, m'⟩ := p
    exact hrun.reset_retires Sample.fresh_start (by decide) hfences rfl rfl he hr
  have hreset := hrecovers _ rfl (by decide +kernel)
  have hrecords := hreset.records Sample.secluded_faulty
  have hlast (i : Nat) (n : UInt64) (h : (((Submitter.reset 0).exec Sample.faulty).2.progress.slots.entry i).last = n)
      (hi : i ∈ Sample.faulty.slotsOf Sample.holder.queues) :
      ((Submitter.reset 0).exec Sample.faulty).2.record? i = some n := h ▸ hrecords i hi
  exact ⟨hreset, hlast 0 6 (by decide +kernel) (by decide), hlast 1 1 (by decide +kernel) (by decide)⟩

end Mali
