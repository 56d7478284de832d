import Mali.Proofs.Streams

/-!
# What a syncobj stands for

Work that was submitted through a syncobj is covered by it until it completes or its stream is
terminated.  The fences say this only lazily: one stays after its slot has passed it, one may come that
is passed already, and terminating a stream drops fences by pretending for a moment that the slot has
passed everything.  Once a syncobj is updated its fences are exactly the work that it covers and that is
not complete, at most one fence for each slot.

Terminating a stream reaches only the syncobjs that the device still knows.  Work submitted through a
syncobj after its destruction is therefore not forgotten, and a copy carries it on.

* `Syncobj.fenceOn`: the fence of a list on a slot, with what raising and pruning do to it.
* `SyncEvent`, `Coverage`: what was done, and what syncobjs cover by it.
* `Agrees`: what a fence says of the work that is covered.
* `SyncStep`, `SyncRun`: the operations on streams and syncobjs in any order.
* `Coverage.Holds`: the fences of a machine are those of a coverage.
* `SyncRun.update_exact`: the fences after an update.
-/

namespace Mali

open Op

/-! ## Fences by slot -/

namespace Syncobj

/-- The greater of two numbers, one of which may be missing. -/
def later (v : Option UInt64) (n : UInt64) : UInt64 :=
  match v with
  | none => n
  | some v => if v < n then n else v

/-- The value of the first fence on a slot. -/
def fenceOn (fences : List Fence) (slot : UInt32) : Option UInt64 :=
  (fences.find? fun f => f.slot = slot).map (·.value)

theorem fence_ext {f g : Fence} (hslot : f.slot = g.slot) (hvalue : f.value = g.value) : f = g := by
  cases f
  cases g
  rw [Fence.mk.injEq]
  exact ⟨hslot, hvalue⟩

theorem fenceOn_cons (f : Fence) (fences : List Fence) (slot : UInt32) :
    fenceOn (f :: fences) slot = if f.slot = slot then some f.value else fenceOn fences slot := by
  unfold fenceOn
  by_cases hf : f.slot = slot
  · rw [List.find?_cons_of_pos (by simpa using hf), if_pos hf, Option.map_some]
  · rw [List.find?_cons_of_neg (by simpa using hf), if_neg hf]

theorem raise_cons (slot : UInt32) (n : UInt64) (f : Fence) (fences : List Fence) :
    raise slot n (f :: fences) =
      if f.slot = slot then ⟨slot, later (some f.value) n⟩ :: fences
      else f :: raise slot n fences := by
  rw [raise]
  split
  · rename_i hf
    subst hf
    unfold later
    dsimp only
    split <;> rfl
  · rfl

theorem fenceOn_raise (fences : List Fence) (slot t : UInt32) (n : UInt64) :
    fenceOn (raise slot n fences) t =
      if t = slot then some (later (fenceOn fences slot) n) else fenceOn fences t := by
  induction fences with
  | nil =>
    rw [raise, fenceOn_cons]
    by_cases ht : slot = t
    · rw [if_pos ht, if_pos ht.symm]
      rfl
    · rw [if_neg ht, if_neg (Ne.symm ht)]
  | cons f fs ih =>
    rw [raise_cons, fenceOn_cons, fenceOn_cons]
    by_cases hf : f.slot = slot
    · rw [if_pos hf, if_pos hf, fenceOn_cons]
      by_cases ht : slot = t
      · rw [if_pos ht, if_pos ht.symm]
      · rw [if_neg ht, if_neg (Ne.symm ht), if_neg (by rwa [hf])]
    · rw [if_neg hf, if_neg hf, fenceOn_cons]
      by_cases ht : f.slot = t
      · rw [if_pos ht, if_pos ht, if_neg (fun h => hf (ht.trans h))]
      · rw [if_neg ht, if_neg ht, ih]

theorem map_slot_raise (fences : List Fence) (slot : UInt32) (n : UInt64) :
    (raise slot n fences).map (·.slot) =
      if slot ∈ fences.map (·.slot) then fences.map (·.slot) else fences.map (·.slot) ++ [slot] := by
  induction fences with
  | nil => rfl
  | cons f fs ih =>
    rw [raise_cons]
    by_cases hf : f.slot = slot
    · have hmem : slot ∈ (f :: fs).map (·.slot) := by
        rw [List.map_cons, hf]
        exact List.mem_cons_self
      rw [if_pos hf, if_pos hmem, List.map_cons, List.map_cons, hf]
    · rw [if_neg hf, List.map_cons, ih, List.map_cons]
      by_cases hmem : slot ∈ fs.map (·.slot)
      · rw [if_pos hmem, if_pos (List.mem_cons_of_mem _ hmem)]
      · rw [if_neg hmem, if_neg]
        · rfl
        · rw [List.mem_cons, not_or]
          exact ⟨Ne.symm hf, hmem⟩

theorem mem_raise {fences : List Fence} {slot : UInt32} {n : UInt64} {f : Fence}
    (h : f ∈ raise slot n fences) : f ∈ fences ∨ f = ⟨slot, n⟩ := by
  induction fences with
  | nil => exact .inr (List.mem_singleton.mp h)
  | cons g fs ih =>
    unfold raise at h
    split at h
    · rename_i hg
      rcases List.mem_cons.mp h with rfl | h
      · split
        · exact .inr (fence_ext hg rfl)
        · exact .inl List.mem_cons_self
      · exact .inl (List.mem_cons_of_mem _ h)
    · rcases List.mem_cons.mp h with rfl | h
      · exact .inl List.mem_cons_self
      · exact (ih h).imp_left (List.mem_cons_of_mem _)

/-- A fence that is not raised stays. -/
theorem mem_raise_of_mem {fences : List Fence} {slot : UInt32} {n : UInt64} {f : Fence} (hf : f ∈ fences)
    (h : f.slot = slot → n ≤ f.value) : f ∈ raise slot n fences := by
  induction fences with
  | nil => cases hf
  | cons g fs ih =>
    unfold raise
    rcases List.mem_cons.mp hf with rfl | hf
    · split
      · rename_i heq
        rw [if_neg (UInt64.not_lt.mpr (h heq))]
        exact List.mem_cons_self
      · exact List.mem_cons_self
    · split
      · exact List.mem_cons_of_mem _ hf
      · exact List.mem_cons_of_mem _ (ih hf)

/-- A slot whose fences are all lower gets one for the new number. -/
theorem mem_raise_self {fences : List Fence} {slot : UInt32} {n : UInt64}
    (h : ∀ f ∈ fences, f.slot = slot → f.value < n) : ⟨slot, n⟩ ∈ raise slot n fences := by
  induction fences with
  | nil => exact List.mem_singleton_self _
  | cons g fs ih =>
    obtain ⟨hg, hfs⟩ := List.forall_mem_cons.mp h
    unfold raise
    split
    · rename_i heq
      rw [if_pos (hg heq), heq]
      exact List.mem_cons_self
    · exact List.mem_cons_of_mem _ (ih hfs)

theorem nodup_raise {fences : List Fence} (h : (fences.map (·.slot)).Nodup) (slot : UInt32) (n : UInt64) :
    ((raise slot n fences).map (·.slot)).Nodup := by
  rw [map_slot_raise]
  split
  · exact h
  · rename_i hnew
    rw [List.nodup_append]
    refine ⟨h, List.nodup_singleton _, fun a ha b hb => ?_⟩
    rw [List.mem_singleton] at hb
    rintro rfl
    exact hnew (hb ▸ ha)

/-- With one fence for each slot the fences are told by their slots. -/
theorem mem_iff_fenceOn {fences : List Fence} (h : (fences.map (·.slot)).Nodup) (f : Fence) :
    f ∈ fences ↔ fenceOn fences f.slot = some f.value := by
  induction fences with
  | nil => simp [fenceOn]
  | cons g fs ih =>
    rw [List.map_cons, List.nodup_cons] at h
    rw [List.mem_cons, fenceOn_cons]
    by_cases hg : g.slot = f.slot
    · have hnot : f ∉ fs := fun hf => h.1 (List.mem_map.mpr ⟨f, hf, hg.symm⟩)
      rw [or_iff_left hnot, if_pos hg, Option.some.injEq]
      constructor
      · rintro rfl
        rfl
      · intro hv
        exact (fence_ext hg hv).symm
    · have hne : f ≠ g := fun e => hg (by rw [e])
      rw [or_iff_right hne, ih h.2, if_neg hg]

/-- Whether a slot has passed a fence, by what it has completed. -/
theorem signalled_eq (slots : SlotTable) (f : Fence) :
    signalled slots f = decide (f.value < (slots.entry f.slot.toNat).last) := by
  unfold signalled
  rw [SlotTable.get?_natCast, SlotTable.entry]
  cases slots[f.slot.toNat]? with
  | none => simp
  | some s => rfl

theorem nodup_prune {o : Syncobj} (h : (o.fences.map (·.slot)).Nodup) (slots : SlotTable) :
    ((o.prune slots).fences.map (·.slot)).Nodup :=
  h.sublist (List.filter_sublist.map _)

/-- Pruning keeps the fence on a slot unless the slot has passed it. -/
theorem fenceOn_prune {o : Syncobj} (h : (o.fences.map (·.slot)).Nodup) (slots : SlotTable)
    (slot : UInt32) (v : UInt64) :
    fenceOn (o.prune slots).fences slot = some v ↔
      fenceOn o.fences slot = some v ∧ (slots.entry slot.toNat).last ≤ v := by
  rw [← mem_iff_fenceOn (nodup_prune h slots) ⟨slot, v⟩, ← mem_iff_fenceOn h ⟨slot, v⟩, prune,
    List.mem_filter, signalled_eq, Bool.not_eq_true', decide_eq_false_iff_not, UInt64.not_lt]

end Syncobj

/-! ## What is covered -/

/-- Something that was done with syncobjs and streams. -/
inductive SyncEvent where
  /-- Work was submitted on a slot through a syncobj. -/
  | submit (slot syncobj : Nat) (seqnum : UInt64)
  | copy (source copy : Nat)
  | destroy (syncobj : Nat)
  /-- The stream of a slot was terminated. -/
  | terminate (slot : Nat)
  | other
  deriving DecidableEq

/-- What is known of syncobjs by what was done. -/
structure Coverage where
  /-- The greatest number submitted through a syncobj on a slot since the stream there was terminated. -/
  most : Nat → Nat → Option UInt64 := fun _ _ => none
  destroyed : Nat → Bool := fun _ => false
  /-- Whether a syncobj covers work that was submitted through one that was destroyed before. -/
  astray : Nat → Bool := fun _ => false

/-- A coverage after something more was done. -/
def Coverage.after (c : Coverage) : SyncEvent → Coverage
  | .submit slot k n =>
    { c with
      most := fun j q => if j = k ∧ q = slot then some (Syncobj.later (c.most j q) n) else c.most j q
      astray := fun j => if j = k then c.astray j || c.destroyed j else c.astray j }
  | .copy k new =>
    { c with
      most := fun j => if j = new then c.most k else c.most j
      astray := fun j => if j = new then c.astray k else c.astray j }
  | .destroy k =>
    { most := fun j => if j = k then fun _ => none else c.most j
      destroyed := fun j => if j = k then true else c.destroyed j
      astray := fun j => if j = k then false else c.astray j }
  | .terminate slot => { c with most := fun j q => if q = slot then none else c.most j q }
  | .other => c

/-- What syncobjs cover after a number of events, the first of them first. -/
def coverage (es : List SyncEvent) : Coverage := es.foldl Coverage.after {}

/-- What a fence, or its absence, says of the greatest number covered on a slot: it has that number while
the work is not complete. -/
def Agrees (last : UInt64) (fence : Option UInt64) : Option UInt64 → Prop
  | none => fence = none
  | some v => if last ≤ v then fence = some v else ∀ w, fence = some w → w ≤ v

namespace Agrees

variable {last : UInt64} {fence covered : Option UInt64}

/-- New work raises both numbers.  A fence that comes late, for a number below one that is complete, is
passed from the start. -/
theorem submit (h : Agrees last fence covered) (n : UInt64) :
    Agrees last (some (Syncobj.later fence n)) (some (Syncobj.later covered n)) := by
  cases covered with
  | none =>
    have hnone : fence = none := h
    subst hnone
    unfold Agrees Syncobj.later
    dsimp only
    split
    · rfl
    · intro w hw
      exact UInt64.le_of_eq (Option.some.inj hw).symm
  | some v =>
    unfold Agrees at h ⊢
    dsimp only at h ⊢
    split at h
    · rw [h]
      split
      · rfl
      · intro w hw
        exact UInt64.le_of_eq (Option.some.inj hw).symm
    · rename_i hdone
      cases fence with
      | none =>
        unfold Syncobj.later
        dsimp only
        grind
      | some w =>
        have hwv : w ≤ v := h w rfl
        unfold Syncobj.later
        dsimp only
        grind

theorem mono {last' : UInt64} (h : Agrees last fence covered) (hle : last ≤ last') :
    Agrees last' fence covered := by
  cases covered with
  | none => exact h
  | some v =>
    unfold Agrees at h ⊢
    dsimp only at h ⊢
    split
    · rename_i hopen
      rwa [if_pos (UInt64.le_trans hle hopen)] at h
    · split at h
      · intro w hw
        rw [h] at hw
        exact UInt64.le_of_eq (Option.some.inj hw).symm
      · exact h

/-- Dropping a fence that the slot has passed loses nothing. -/
theorem prune {fence' : Option UInt64} (h : Agrees last fence covered)
    (hkeep : ∀ v, fence' = some v ↔ fence = some v ∧ last ≤ v) : Agrees last fence' covered := by
  cases covered with
  | none =>
    have hnone : fence = none := h
    show fence' = none
    refine Option.eq_none_iff_forall_ne_some.mpr fun v hv => ?_
    rw [hkeep, hnone] at hv
    cases hv.1
  | some v =>
    unfold Agrees at h ⊢
    dsimp only at h ⊢
    split at h
    · rename_i hopen
      rw [if_pos hopen, hkeep]
      exact ⟨h, hopen⟩
    · rename_i hdone
      rw [if_neg hdone]
      exact fun w hw => h w ((hkeep w).mp hw).1

/-- A fence that was pruned is exactly the work that is covered and not complete. -/
theorem exact (h : Agrees last fence covered) (hopen : ∀ v, fence = some v → last ≤ v) (v : UInt64) :
    fence = some v ↔ covered = some v ∧ last ≤ v := by
  cases covered with
  | none =>
    have hnone : fence = none := h
    simp [hnone]
  | some w =>
    unfold Agrees at h
    dsimp only at h
    split at h
    · rename_i hw
      rw [h]
      constructor
      · intro e
        cases e
        exact ⟨rfl, hw⟩
      · exact fun e => e.1
    · rename_i hw
      constructor
      · intro e
        exact absurd (UInt64.le_trans (hopen v e) (h v e)) hw
      · rintro ⟨e, hv⟩
        cases e
        exact absurd hv hw

end Agrees

/-! ## One syncobj -/

/-- The fences of a syncobj are for work that it covers.  Nothing is said of the values if it covers work
that was submitted through a destroyed one. -/
structure Syncobj.Tells (slots : SlotTable) (bound : Nat) (covered : Nat → Option UInt64) (astray : Bool)
    (o : Syncobj) : Prop where
  single : (o.fences.map (·.slot)).Nodup
  inside : ∀ f ∈ o.fences, f.slot.toNat < bound ∧ f.value < Device.endOfTime
  agrees : astray = false → ∀ q < slotCount,
    Agrees (slots.entry q).last (Syncobj.fenceOn o.fences (UInt32.ofNat q)) (covered q)

theorem toNat_ofNat_slot {q : Nat} (hq : q < slotCount) : (UInt32.ofNat q).toNat = q :=
  UInt32.toNat_ofNat_of_lt' (Nat.lt_trans hq (by decide))

theorem ofNat_slot_inj {p q : Nat} (hp : p < slotCount) (hq : q < slotCount) :
    UInt32.ofNat p = UInt32.ofNat q ↔ p = q := by
  rw [← UInt32.toNat_inj, toNat_ofNat_slot hp, toNat_ofNat_slot hq]

namespace Syncobj.Tells

variable {slots slots' : SlotTable} {bound : Nat} {covered : Nat → Option UInt64} {astray : Bool}
  {o : Syncobj}

theorem of_nil (h : o.fences = []) : o.Tells slots bound (fun _ => none) astray where
  single := by
    rw [h]
    exact List.nodup_nil
  inside := by
    rw [h]
    exact fun _ hf => absurd hf List.not_mem_nil
  agrees _ q _ := by
    rw [h]
    rfl

/-- Slots on which something is covered may go on. -/
theorem mono {bound' : Nat} (h : o.Tells slots bound covered astray) (hb : bound ≤ bound')
    (hlast : ∀ q, covered q ≠ none → (slots.entry q).last ≤ (slots'.entry q).last) :
    o.Tells slots' bound' covered astray where
  single := h.single
  inside f hf := ⟨Nat.lt_of_lt_of_le (h.inside f hf).1 hb, (h.inside f hf).2⟩
  agrees ha q hq := by
    have hagrees := h.agrees ha q hq
    cases hc : covered q with
    | none =>
      rw [hc] at hagrees
      exact hagrees
    | some v =>
      rw [hc] at hagrees
      exact hagrees.mono (hlast q (by rw [hc]; exact Option.some_ne_none v))

theorem updateFence {slot : Nat} {n : UInt64} {astray' : Bool} (h : o.Tells slots bound covered astray)
    (hb : bound ≤ slotCount) (hslot : slot < bound) (hn : n < Device.endOfTime)
    (ha : astray' = false → astray = false) :
    (o.updateFence (UInt32.ofNat slot) n).Tells slots bound
      (fun q => if q = slot then some (Syncobj.later (covered q) n) else covered q) astray' where
  single := Syncobj.nodup_raise h.single _ n
  inside f hf := by
    rcases Syncobj.mem_raise hf with hf | rfl
    · exact h.inside f hf
    · exact ⟨by rw [toNat_ofNat_slot (Nat.lt_of_lt_of_le hslot hb)]; exact hslot, hn⟩
  agrees hastray q hq := by
    have hagrees := h.agrees (ha hastray) q hq
    have hlt := Nat.lt_of_lt_of_le hslot hb
    show Agrees _ (Syncobj.fenceOn (Syncobj.raise _ n o.fences) _) _
    rw [Syncobj.fenceOn_raise]
    by_cases hqs : q = slot
    · subst hqs
      rw [if_pos rfl, if_pos rfl]
      exact hagrees.submit n
    · rw [if_neg hqs, if_neg fun e => hqs ((ofNat_slot_inj hq hlt).mp e)]
      exact hagrees

/-- Pruning changes nothing that matters, if the slots on which something is covered are the same. -/
theorem prune (h : o.Tells slots bound covered astray)
    (hlast : ∀ q, covered q ≠ none → (slots'.entry q).last = (slots.entry q).last) :
    (o.prune slots').Tells slots bound covered astray where
  single := Syncobj.nodup_prune h.single slots'
  inside f hf := h.inside f (List.mem_of_mem_filter hf)
  agrees ha q hq := by
    have hagrees := h.agrees ha q hq
    have hkeep (v : UInt64) := Syncobj.fenceOn_prune h.single slots' (UInt32.ofNat q) v
    rw [toNat_ofNat_slot hq] at hkeep
    cases hc : covered q with
    | none =>
      rw [hc] at hagrees
      have hnone : Syncobj.fenceOn o.fences (UInt32.ofNat q) = none := hagrees
      refine Option.eq_none_iff_forall_ne_some.mpr fun v hv => ?_
      rw [hkeep, hnone] at hv
      cases hv.1
    | some v =>
      rw [hc] at hagrees
      rw [hlast q (by rw [hc]; exact Option.some_ne_none v)] at hkeep
      exact hagrees.prune hkeep

/-- While a slot pretends to have passed everything, pruning drops the fence there, and the slot may start
over. -/
theorem terminate {i : Nat} {e e' : EventSlot} (h : o.Tells slots bound covered astray)
    (hi : i < slotCount) (he : e.last = Device.endOfTime) :
    (o.prune (slots.put i e)).Tells (slots.put i e') bound
      (fun q => if q = i then none else covered q) astray where
  single := Syncobj.nodup_prune h.single _
  inside f hf := h.inside f (List.mem_of_mem_filter hf)
  agrees ha q hq := by
    have hkeep (v : UInt64) := Syncobj.fenceOn_prune h.single (slots.put i e) (UInt32.ofNat q) v
    rw [toNat_ofNat_slot hq, SlotTable.entry_put _ hi] at hkeep
    rw [SlotTable.entry_put _ hi]
    by_cases hqi : q = i
    · rw [if_pos hqi]
      rw [if_pos hqi.symm, he] at hkeep
      refine Option.eq_none_iff_forall_ne_some.mpr fun v hv => ?_
      obtain ⟨hv, hend⟩ := (hkeep v).mp hv
      have hmem := (Syncobj.mem_iff_fenceOn h.single ⟨UInt32.ofNat q, v⟩).mpr hv
      exact absurd (UInt64.lt_of_lt_of_le (h.inside _ hmem).2 hend) (UInt64.lt_irrefl v)
    · rw [if_neg hqi, if_neg (Ne.symm hqi)]
      rw [if_neg (Ne.symm hqi)] at hkeep
      exact (h.agrees ha q hq).prune hkeep

theorem congr {covered' : Nat → Option UInt64} (h : o.Tells slots bound covered astray)
    (hc : ∀ q, covered' q = covered q) : o.Tells slots bound covered' astray := by
  rwa [funext hc]

/-- The fences of a syncobj that was just pruned. -/
theorem mem_prune_iff (h : o.Tells slots bound covered false) (hb : bound ≤ slotCount)
    (hcovered : ∀ q, bound ≤ q → covered q = none) (f : Fence) :
    f ∈ (o.prune slots).fences ↔
      covered f.slot.toNat = some f.value ∧ (slots.entry f.slot.toNat).last ≤ f.value := by
  rw [Syncobj.mem_iff_fenceOn (Syncobj.nodup_prune h.single slots), Syncobj.fenceOn_prune h.single]
  rcases Nat.lt_or_ge f.slot.toNat bound with hlt | hge
  · have hagrees := h.agrees rfl f.slot.toNat (Nat.lt_of_lt_of_le hlt hb)
    rw [UInt32.ofNat_toNat] at hagrees
    have hkeep (v : UInt64) := Syncobj.fenceOn_prune h.single slots f.slot v
    have hpruned := hagrees.prune hkeep
    rw [← Syncobj.fenceOn_prune h.single slots f.slot]
    exact hpruned.exact (fun v hv => ((Syncobj.fenceOn_prune h.single slots f.slot v).mp hv).2) f.value
  · rw [hcovered _ hge]
    constructor
    · rintro ⟨hf, -⟩
      have hmem := (Syncobj.mem_iff_fenceOn h.single f).mpr hf
      exact absurd (h.inside f hmem).1 (Nat.not_lt_of_le hge)
    · rintro ⟨hf, -⟩
      cases hf

end Syncobj.Tells

/-! ## A device -/

variable {κ : Type}

/-- The syncobjs of a machine stand for what a coverage says. -/
structure Coverage.Holds (c : Coverage) (m : Machine κ) : Prop where
  tells : ∀ (k : Nat) (o : Syncobj), m.device.syncobjs[k]? = some o →
    o.Tells m.progress.slots m.progress.bound (c.most k) (c.astray k)
  live : ∀ k o, m.device.syncobjs[k]? = some o → o.live = !c.destroyed k
  new : ∀ k, m.device.syncobjs.length ≤ k →
    c.destroyed k = false ∧ c.astray k = false ∧ c.most k = fun _ => none
  started : ∀ k q, m.progress.bound ≤ q → c.most k q = none
  /-- A destroyed syncobj covers nothing but what went astray. -/
  forgotten : ∀ k, c.destroyed k = true → c.astray k = false → c.most k = fun _ => none

namespace Coverage.Holds

variable {c : Coverage} {m m' : Machine κ} {k : Nat} {o : Syncobj}

/-- Bound slots may go on, and new ones start. -/
theorem moved (h : c.Holds m) (hs : SameSyncobjs m m') (hb : m.progress.bound ≤ m'.progress.bound)
    (hlast : ∀ q < m.progress.bound,
      (m.progress.slots.entry q).last ≤ (m'.progress.slots.entry q).last) : c.Holds m' where
  tells k o ho := by
    rw [hs] at ho
    refine (h.tells k o ho).mono hb fun q hq => hlast q ?_
    by_contra hge
    exact hq (h.started k q (Nat.le_of_not_lt hge))
  live k o ho := h.live k o (by rwa [hs] at ho)
  new k hk := h.new k (by rwa [hs] at hk)
  started k q hq := h.started k q (Nat.le_trans hb hq)
  forgotten := h.forgotten

/-- The slots and the syncobjs stay as they are. -/
theorem still (h : c.Holds m) (hs : SameSyncobjs m m') (hp : m'.progress = m.progress) : c.Holds m' :=
  h.moved hs (Nat.le_of_eq (by rw [hp])) fun q _ => UInt64.le_of_eq (by rw [hp])

theorem lt_bound (h : c.Holds m) {q : Nat} (hq : c.most k q ≠ none) : q < m.progress.bound := by
  by_contra hge
  exact hq (h.started k q (Nat.le_of_not_lt hge))

theorem submit {slot : Nat} {n : UInt64} (h : c.Holds m) (hb : m.progress.bound ≤ slotCount)
    (hslot : slot < m.progress.bound) (hn : n < Device.endOfTime) (ho : m.device.syncobjs[k]? = some o)
    (hm : m'.progress = m.progress.put slot ((m.progress.slots.entry slot).submit n))
    (hs : m'.device.syncobjs = m.device.syncobjs.modify k (·.updateFence (UInt32.ofNat slot) n)) :
    (c.after (.submit slot k n)).Holds m' := by
  have hget (j : Nat) : m'.device.syncobjs[j]? =
      if k = j then some (o.updateFence (UInt32.ofNat slot) n) else m.device.syncobjs[j]? := by
    rw [hs, getElem?_modify_of_some ho]
  have hlast (q : Nat) : (m.progress.slots.entry q).last = (m'.progress.slots.entry q).last := by
    rw [hm, Progress.put, SlotTable.entry_put _ (Nat.lt_of_lt_of_le hslot hb)]
    split
    · subst_vars
      rw [EventSlot.submit_last]
    · rfl
  have hbound : m'.progress.bound = m.progress.bound := by rw [hm, Progress.put_bound]
  constructor
  case tells =>
    intro j p hp
    rw [hget] at hp
    unfold Coverage.after
    dsimp only
    split at hp
    · rename_i hkj
      subst hkj
      cases hp
      rw [if_pos rfl, hbound]
      have hraised := (h.tells k o ho).updateFence hb hslot hn
        fun ha : (c.astray k || c.destroyed k) = false => (Bool.or_eq_false_iff.mp ha).1
      refine (hraised.mono (Nat.le_refl _) fun q _ => UInt64.le_of_eq (hlast q)).congr ?_
      intro q
      simp
    · rename_i hkj
      rw [if_neg (Ne.symm hkj)]
      refine ((h.tells j p hp).mono (Nat.le_of_eq hbound.symm)
        fun q _ => UInt64.le_of_eq (hlast q)).congr ?_
      intro q
      rw [if_neg fun e => hkj e.1.symm]
  case live =>
    intro j p hp
    rw [hget] at hp
    split at hp
    · rename_i hkj
      subst hkj
      cases hp
      exact h.live k o ho
    · exact h.live j p hp
  case new =>
    intro j hj
    have hlt := (List.getElem?_eq_some_iff.mp ho).1
    rw [hs, List.length_modify] at hj
    obtain ⟨hd, ha, hnone⟩ := h.new j hj
    have hne : j ≠ k := by omega
    refine ⟨hd, ?_, ?_⟩
    · unfold Coverage.after
      dsimp only
      rw [if_neg hne, ha]
    · unfold Coverage.after
      dsimp only
      funext q
      rw [if_neg fun e => hne e.1, hnone]
  case started =>
    intro j q hq
    rw [hbound] at hq
    unfold Coverage.after
    dsimp only
    rw [if_neg, h.started j q hq]
    rintro ⟨-, rfl⟩
    exact Nat.not_lt_of_le hq hslot
  case forgotten =>
    intro j hd ha
    unfold Coverage.after at hd ha ⊢
    dsimp only at hd ha ⊢
    by_cases hjk : j = k
    · rw [if_pos hjk, Bool.or_eq_false_iff, hd] at ha
      cases ha.2
    · rw [if_neg hjk] at ha
      funext q
      rw [if_neg fun e => hjk e.1, h.forgotten j hd ha]

/-- A syncobj is made with the fences of another, or without any. -/
theorem append {c' : Coverage} (h : c.Holds m) (hm : m'.progress = m.progress)
    (hs : m'.device.syncobjs = m.device.syncobjs ++ [o]) (hlive : o.live = true)
    (htells : o.Tells m.progress.slots m.progress.bound (c'.most m.device.syncobjs.length)
      (c'.astray m.device.syncobjs.length))
    (hstarted : ∀ q, m.progress.bound ≤ q → c'.most m.device.syncobjs.length q = none)
    (hdestroyed : c'.destroyed = c.destroyed)
    (hmost : ∀ j, j ≠ m.device.syncobjs.length → c'.most j = c.most j)
    (hastray : ∀ j, j ≠ m.device.syncobjs.length → c'.astray j = c.astray j) : c'.Holds m' := by
  have hnew := (h.new _ (Nat.le_refl _)).1
  have hget {j : Nat} {p : Syncobj} (hp : m'.device.syncobjs[j]? = some p) :
      (j = m.device.syncobjs.length ∧ p = o) ∨
        (j ≠ m.device.syncobjs.length ∧ m.device.syncobjs[j]? = some p) := getElem?_concat_cases (hs ▸ hp)
  constructor
  case tells =>
    intro j p hp
    rw [hm]
    rcases hget hp with ⟨rfl, rfl⟩ | ⟨hj, hp⟩
    · exact htells
    · rw [hmost j hj, hastray j hj]
      exact h.tells j p hp
  case live =>
    intro j p hp
    rw [hdestroyed]
    rcases hget hp with ⟨rfl, rfl⟩ | ⟨-, hp⟩
    · rw [hlive, hnew]
      rfl
    · exact h.live j p hp
  case new =>
    intro j hj
    rw [hs, List.length_append, List.length_singleton] at hj
    rw [hdestroyed, hmost j (by omega), hastray j (by omega)]
    exact h.new j (by omega)
  case started =>
    intro j q hq
    rw [hm] at hq
    by_cases hj : j = m.device.syncobjs.length
    · rw [hj]
      exact hstarted q hq
    · rw [hmost j hj]
      exact h.started j q hq
  case forgotten =>
    intro j hd ha
    rw [hdestroyed] at hd
    have hj : j ≠ m.device.syncobjs.length := by
      rintro rfl
      rw [hnew] at hd
      cases hd
    rw [hmost j hj]
    rw [hastray j hj] at ha
    exact h.forgotten j hd ha

theorem destroy (h : c.Holds m) (hm : m'.progress = m.progress) (ho : m.device.syncobjs[k]? = some o)
    (hs : m'.device.syncobjs =
      m.device.syncobjs.modify k fun o => { o with fences := [], live := false }) :
    (c.after (.destroy k)).Holds m' := by
  have hget (j : Nat) : m'.device.syncobjs[j]? =
      if k = j then some { o with fences := [], live := false } else m.device.syncobjs[j]? := by
    rw [hs, getElem?_modify_of_some ho]
  constructor
  case tells =>
    intro j p hp
    rw [hget] at hp
    rw [hm]
    unfold Coverage.after
    dsimp only
    split at hp
    · rename_i hkj
      subst hkj
      cases hp
      rw [if_pos rfl, if_pos rfl]
      exact .of_nil rfl
    · rename_i hkj
      rw [if_neg (Ne.symm hkj), if_neg (Ne.symm hkj)]
      exact h.tells j p hp
  case live =>
    intro j p hp
    rw [hget] at hp
    unfold Coverage.after
    dsimp only
    split at hp
    · rename_i hkj
      subst hkj
      cases hp
      rw [if_pos rfl]
      rfl
    · rename_i hkj
      rw [if_neg (Ne.symm hkj)]
      exact h.live j p hp
  case new =>
    intro j hj
    have hlt := (List.getElem?_eq_some_iff.mp ho).1
    rw [hs, List.length_modify] at hj
    have hne : j ≠ k := by omega
    unfold Coverage.after
    dsimp only
    rw [if_neg hne, if_neg hne, if_neg hne]
    exact h.new j hj
  case started =>
    intro j q hq
    rw [hm] at hq
    unfold Coverage.after
    dsimp only
    split
    · rfl
    · exact h.started j q hq
  case forgotten =>
    intro j hd ha
    unfold Coverage.after at hd ha ⊢
    dsimp only at hd ha ⊢
    by_cases hjk : j = k
    · rw [if_pos hjk]
    · rw [if_neg hjk] at hd ha ⊢
      exact h.forgotten j hd ha

theorem update (h : c.Holds m) (hm : m'.progress = m.progress)
    (hs : m'.device.syncobjs = m.device.syncobjs.modify k (·.prune m.progress.slots)) : c.Holds m' := by
  have hlength : m'.device.syncobjs.length = m.device.syncobjs.length := by
    rw [hs, List.length_modify]
  have hget {j : Nat} {p : Syncobj} (hp : m'.device.syncobjs[j]? = some p) :
      ∃ o, m.device.syncobjs[j]? = some o ∧ (p = o.prune m.progress.slots ∨ p = o) := by
    rw [hs, List.getElem?_modify] at hp
    cases ho : m.device.syncobjs[j]? with
    | none =>
      rw [ho] at hp
      cases hp
    | some o =>
      rw [ho] at hp
      refine ⟨o, rfl, ?_⟩
      have hp := Option.some.inj hp
      dsimp only at hp
      split at hp
      · exact .inl hp.symm
      · exact .inr hp.symm
  constructor
  case tells =>
    intro j p hp
    obtain ⟨o, ho, rfl | rfl⟩ := hget hp
    · rw [hm]
      exact (h.tells j o ho).prune fun _ _ => rfl
    · rw [hm]
      exact h.tells j p ho
  case live =>
    intro j p hp
    obtain ⟨o, ho, rfl | rfl⟩ := hget hp
    · exact h.live j o ho
    · exact h.live j p ho
  case new => exact fun j hj => h.new j (by rwa [hlength] at hj)
  case started => exact fun j q hq => h.started j q (by rwa [hm] at hq)
  case forgotten => exact h.forgotten

theorem terminate {i : Nat} {e e' : EventSlot} (h : c.Holds m) (hi : i < slotCount)
    (he : e.last = Device.endOfTime) (hm : m'.progress = m.progress.put i e')
    (hs : m'.device.syncobjs = m.device.syncobjs.map (·.pruneLive (m.progress.slots.put i e))) :
    (c.after (.terminate i)).Holds m' := by
  have hbound : m'.progress.bound = m.progress.bound := by rw [hm, Progress.put_bound]
  have hslots : m'.progress.slots = m.progress.slots.put i e' := by rw [hm, Progress.put]
  have hget {j : Nat} {p : Syncobj} (hp : m'.device.syncobjs[j]? = some p) :
      ∃ o, m.device.syncobjs[j]? = some o ∧ p = o.pruneLive (m.progress.slots.put i e) := by
    rw [hs, List.getElem?_map, Option.map_eq_some_iff] at hp
    obtain ⟨o, ho, rfl⟩ := hp
    exact ⟨o, ho, rfl⟩
  constructor
  case tells =>
    intro j p hp
    obtain ⟨o, ho, rfl⟩ := hget hp
    have htells := h.tells j o ho
    rw [hbound, hslots]
    unfold Syncobj.pruneLive Coverage.after
    dsimp only
    split
    · exact htells.terminate hi he
    · rename_i hdead
      have hdestroyed : c.destroyed j = true := by simpa [h.live j o ho] using hdead
      -- a destroyed syncobj is passed over: it covers nothing, or what went astray
      cases ha : c.astray j with
      | true => exact ⟨htells.single, htells.inside, fun hno => by cases hno⟩
      | false =>
        rw [ha, h.forgotten j hdestroyed ha] at htells
        rw [h.forgotten j hdestroyed ha]
        refine (htells.mono (Nat.le_refl _) fun q hq => absurd rfl hq).congr fun q => ?_
        split <;> rfl
  case live =>
    intro j p hp
    obtain ⟨o, ho, rfl⟩ := hget hp
    rw [Syncobj.pruneLive]
    split
    · exact h.live j o ho
    · exact h.live j o ho
  case new =>
    intro j hj
    rw [hs, List.length_map] at hj
    obtain ⟨hd, ha, hnone⟩ := h.new j hj
    refine ⟨hd, ha, ?_⟩
    unfold Coverage.after
    dsimp only
    funext q
    rw [hnone]
    split <;> rfl
  case started =>
    intro j q hq
    rw [hbound] at hq
    unfold Coverage.after
    dsimp only
    split
    · rfl
    · exact h.started j q hq
  case forgotten =>
    intro j hd ha
    unfold Coverage.after
    dsimp only
    funext q
    rw [h.forgotten j hd ha]
    split <;> rfl

end Coverage.Holds

/-! ## Runs -/

/-- What a submission does as far as syncobjs are concerned. -/
def SyncEvent.ofSubmit (s : Stream) (insert : UInt64) (o : Option Nat) (n : UInt64) : SyncEvent :=
  match o with
  | none => .other
  | some k => if s.Advances insert then .submit s.slot k n else .other

theorem createSyncobj_ok {m m' : Machine κ} {k : Nat} (he : Device.createSyncobj.exec m = (.ok k, m')) :
    k = m.device.syncobjs.length ∧ m'.progress = m.progress ∧
      m'.device.syncobjs = m.device.syncobjs ++ [{ id := UInt64.ofNat (k + 1) }] := by
  obtain ⟨d, m₁, h₁, he⟩ := bind_ok he
  cases h₁
  obtain ⟨_, m₂, h₂, he⟩ := bind_ok he
  cases h₂
  cases he
  exact ⟨rfl, rfl, rfl⟩

theorem modify_concat_length {α : Type} (l : List α) (x : α) (f : α → α) :
    (l ++ [x]).modify l.length f = l ++ [f x] := by
  induction l with
  | nil => rfl
  | cons y l ih => rw [List.length_cons, List.cons_append, List.modify_succ_cons, ih, List.cons_append]

/-- A sequence that begins by reading a syncobj goes on from the same machine. -/
theorem bind_syncobj_ok {α : Type} {k : Nat} {f : Syncobj → Op κ α} {m m' : Machine κ} {a : α}
    (he : (Device.syncobj k >>= f).exec m = (.ok a, m')) :
    ∃ o, m.device.syncobjs[k]? = some o ∧ (f o).exec m = (.ok a, m') := by
  unfold Device.syncobj at he
  rw [bind_assoc] at he
  obtain ⟨d, m₁, h₁, he⟩ := bind_ok he
  cases h₁
  exact bind_require_ok he

/-- A copy is a new syncobj with the fences of another. -/
theorem copySyncobj_ok {m m' : Machine κ} {k n : Nat}
    (he : (Device.copySyncobj k).exec m = (.ok n, m')) :
    n = m.device.syncobjs.length ∧ m'.progress = m.progress ∧
      ∃ o, (m.device.syncobjs ++ [{ id := UInt64.ofNat (n + 1) }])[k]? = some o ∧
        m'.device.syncobjs =
          m.device.syncobjs ++ [{ id := UInt64.ofNat (n + 1), fences := o.fences }] := by
  unfold Device.copySyncobj at he
  obtain ⟨n', m₁, h₁, he⟩ := bind_ok he
  obtain ⟨hn, hp, hs⟩ := createSyncobj_ok h₁
  obtain ⟨o, ho, he⟩ := bind_syncobj_ok he
  obtain ⟨_, m₂, h₂, he⟩ := bind_ok he
  cases h₂
  cases he
  rw [hs] at ho
  refine ⟨hn, hp, o, ho, ?_⟩
  show m₁.device.syncobjs.modify n _ = _
  rw [hs, hn, modify_concat_length]
  rfl

section Kernel

variable [Kernel κ]

/-- One operation on streams or syncobjs, or anything that touches neither the slots nor the syncobjs. -/
inductive SyncStep : Machine κ → SyncEvent → Machine κ → Prop
  | other {m m' : Machine κ} (hp : m'.progress = m.progress) (hs : SameSyncobjs m m') :
    SyncStep m .other m'
  | bind {m m' : Machine κ} {ctx : Nat} {va : UInt64} {size : UInt32} {r : Except Halt Nat}
    (he : (Device.bindStream ctx va size).exec m = (r, m')) (hr : Survives r) : SyncStep m .other m'
  | rebind {m m' : Machine κ} {id : Nat} {r : Except Halt Unit}
    (he : (Device.rebindStream id).exec m = (r, m')) (hr : Survives r) : SyncStep m .other m'
  | submit {m m' : Machine κ} {id : Nat} {s : Stream} {insert : UInt64} {o : Option Nat} {n : UInt64}
    {ran : Bool} (hs : m.device.streams[id]? = some s) (ho : ∀ k ∈ o, k < m.device.syncobjs.length)
    (hn : n < Device.endOfTime) (he : (Device.submitStream id insert o n).exec m = (.ok ran, m')) :
    SyncStep m (.ofSubmit s insert o n) m'
  | advance {m m' : Machine κ} {i : Int} {n : UInt64}
    (he : (Device.advance i n).exec m = (.ok (), m')) : SyncStep m .other m'
  | handle {m m' : Machine κ} {fine : Bool} (hcsf : m.progress.generation = .csf)
    (he : Device.handleEvents.exec m = (.ok fine, m')) : SyncStep m .other m'
  | terminate {m m' : Machine κ} {id : Nat} {s : Stream} (hs : m.device.streams[id]? = some s)
    (he : (Device.terminateStream id).exec m = (.ok (), m')) : SyncStep m (.terminate s.slot) m'
  | create {m m' : Machine κ} {k : Nat} (he : Device.createSyncobj.exec m = (.ok k, m')) :
    SyncStep m .other m'
  | copy {m m' : Machine κ} {k n : Nat} (hk : k < m.device.syncobjs.length)
    (he : (Device.copySyncobj k).exec m = (.ok n, m')) : SyncStep m (.copy k n) m'
  | destroy {m m' : Machine κ} {k : Nat} (hk : k < m.device.syncobjs.length)
    (he : (Device.destroySyncobj k).exec m = (.ok (), m')) : SyncStep m (.destroy k) m'
  | update {m m' : Machine κ} {k : Nat} (he : (Device.updateSyncobj k).exec m = (.ok (), m')) :
    SyncStep m .other m'

/-- Operations one after the other, with what they do. -/
inductive SyncRun : Machine κ → List SyncEvent → Machine κ → Prop
  | nil (m : Machine κ) : SyncRun m [] m
  | cons {m m₁ m' : Machine κ} {e : SyncEvent} {es : List SyncEvent} (hs : SyncStep m e m₁)
    (hr : SyncRun m₁ es m') : SyncRun m (e :: es) m'

variable {m m' : Machine κ} {e : SyncEvent}

/-- A step binds a stream to the next slot, or leaves the number of streams alone. -/
theorem SyncStep.streams_le (h : SyncStep m e m') :
    m.progress.streams.length ≤ m'.progress.streams.length := by
  cases h with
  | other hp => rw [hp]
  | bind he hr =>
    rcases (bindStream_ok he hr).2 with ⟨-, hp⟩ | ⟨-, hp⟩
    · rw [hp]
      show m.progress.streams.length ≤ (m.progress.streams ++ [m.progress.next]).length
      rw [List.length_append]
      exact Nat.le_add_right _ _
    · rw [hp]
  | rebind he hr => rw [(rebindStream_ok he hr).2]
  | submit hs _ _ he =>
    obtain ⟨-, s, -, ⟨-, hp, -⟩ | ⟨-, hp, -⟩⟩ := submitStream_ok he
    · rw [hp]
    · rw [hp, Progress.put_streams]
  | advance he => rw [(advance_ok he).2.2, Progress.put_streams]
  | handle hcsf he =>
    obtain ⟨es, hpass, -⟩ := handleEvents_ok hcsf he
    exact Nat.le_of_eq hpass.length_streams.symm
  | terminate hs he =>
    obtain ⟨s, -, -, hp, -⟩ := terminateStream_ok he
    rw [hp, Progress.put_streams]
  | create he => rw [(createSyncobj_ok he).2.1]
  | copy _ he => rw [(copySyncobj_ok he).2.1]
  | destroy _ he => rw [((quiet_destroySyncobj _).ok he).progress]
  | update he => rw [(updateSyncobj_ok he).1]

theorem SyncStep.sound (h : SyncStep m e m') (hs : m.progress.Sound)
    (hmax : m'.progress.streams.length ≤ slotCount) : m'.progress.Sound := by
  cases h with
  | other hp => rwa [hp]
  | bind he hr =>
    rcases (bindStream_ok he hr).2 with ⟨-, hp⟩ | ⟨-, hp⟩
    · have hlt : m.progress.bound < slotCount := by
        rw [hp, Progress.join, List.length_append, hs.length_streams] at hmax
        exact hmax
      rw [hp, Progress.join_of_lt hlt]
      exact hs.attach hlt
    · rwa [hp]
  | rebind he hr => rwa [(rebindStream_ok he hr).2]
  | submit hstream _ _ he =>
    obtain ⟨-, s, hstream', ⟨-, hp, -⟩ | ⟨-, hp, -⟩⟩ := submitStream_ok he
    · rwa [hp]
    · rw [hp]
      exact hs.submit (Machine.mem_streams hstream') _
  | advance he =>
    rw [(advance_ok he).2.2]
    exact hs.advance _ _
  | handle hcsf he =>
    obtain ⟨es, hpass, -⟩ := handleEvents_ok hcsf he
    exact hpass.run.sound hs hmax
  | terminate hstream he =>
    obtain ⟨s, hstream', -, hp, -⟩ := terminateStream_ok he
    rw [hp]
    exact hs.clear (Machine.mem_streams hstream')
  | create he => rwa [(createSyncobj_ok he).2.1]
  | copy _ he => rwa [(copySyncobj_ok he).2.1]
  | destroy _ he => rwa [((quiet_destroySyncobj _).ok he).progress]
  | update he => rwa [(updateSyncobj_ok he).1]

/-- What is covered stays told by the fences, whatever is done next. -/
theorem SyncStep.holds {c : Coverage} (h : SyncStep m e m') (hs : m.progress.Sound)
    (hmax : m'.progress.streams.length ≤ slotCount) (hc : c.Holds m) : (c.after e).Holds m' := by
  have hb := hs.slots.bound_le
  have hsound := h.sound hs hmax
  cases h with
  | other hp hsame => exact hc.still hsame hp
  | bind he hr =>
    obtain ⟨hsame, ⟨-, hp⟩ | ⟨-, hp⟩⟩ := bindStream_ok he hr
    · have hlt : m.progress.bound < slotCount := by
        rw [hp, Progress.join, List.length_append, hs.length_streams] at hmax
        exact hmax
      rw [Progress.join_of_lt hlt] at hp
      refine hc.moved hsame (by rw [hp]; exact Nat.le_succ _) fun q hq => ?_
      rw [hp, Progress.attach, SlotTable.entry_put _ hlt, if_neg (Nat.ne_of_gt hq)]
      exact UInt64.le_refl _
    · exact hc.still hsame hp
  | rebind he hr =>
    obtain ⟨hsame, hp⟩ := rebindStream_ok he hr
    exact hc.still hsame hp
  | @submit _ id s insert o n ran hstream ho hn he =>
    obtain ⟨-, s', hstream', heffect⟩ := submitStream_ok he
    rw [hstream] at hstream'
    cases hstream'
    have hslot : s.slot < m.progress.bound := by
      have hmem := Machine.mem_streams hstream
      rwa [hs.streams, List.mem_range] at hmem
    rcases heffect with ⟨hstill, hp, hsame⟩ | ⟨hnew, hp, hsyncobjs⟩
    · have hevent : SyncEvent.ofSubmit s insert o n = .other := by
        unfold SyncEvent.ofSubmit
        cases o with
        | none => rfl
        | some k => exact if_neg hstill
      rw [hevent]
      exact hc.still hsame hp
    · cases o with
      | none =>
        refine hc.moved hsyncobjs (by rw [hp, Progress.put_bound]) fun q _ => ?_
        rw [hp, Progress.put, SlotTable.entry_put _ (Nat.lt_of_lt_of_le hslot hb)]
        split
        · rename_i hslots
          rw [← hslots, EventSlot.submit_last]
          exact UInt64.le_refl _
        · exact UInt64.le_refl _
      | some k =>
        have hevent : SyncEvent.ofSubmit s insert (some k) n = .submit s.slot k n := if_pos hnew
        rw [hevent]
        have hget := List.getElem?_eq_getElem (ho k rfl)
        exact hc.submit hb hslot hn hget hp hsyncobjs
  | @advance _ i n he =>
    obtain ⟨hlt, hsame, hp⟩ := advance_ok he
    refine hc.moved hsame (by rw [hp, Progress.put_bound]) fun q hq => ?_
    rw [hp, Progress.put, SlotTable.entry_put _ hlt]
    split
    · rename_i hi
      rw [hi]
      exact EventSlot.le_advance_last _ _ (hs.slots.started q hq).behind
    · exact UInt64.le_refl _
  | handle hcsf he =>
    obtain ⟨es, hpass, -⟩ := handleEvents_ok hcsf he
    have hstreams : m'.progress.streams.length = m.progress.streams.length := hpass.length_streams
    rw [hsound.length_streams, hs.length_streams] at hstreams
    refine hc.moved (sameSyncobjs_handleEvents hcsf he) (Nat.le_of_eq hstreams.symm) fun q _ => ?_
    refine hpass.run.last_le hs hmax fun hmem => ?_
    exact hpass.acts _ hmem
  | terminate hstream he =>
    obtain ⟨s', hstream', hlt, hp, hsyncobjs⟩ := terminateStream_ok he
    rw [hstream] at hstream'
    cases hstream'
    exact hc.terminate hlt rfl hp hsyncobjs
  | create he =>
    obtain ⟨-, hp, hsyncobjs⟩ := createSyncobj_ok he
    obtain ⟨-, -, hnone⟩ := hc.new _ (Nat.le_refl _)
    refine hc.append hp hsyncobjs rfl ?_ (fun q _ => congrFun hnone q) rfl (fun _ _ => rfl)
      fun _ _ => rfl
    rw [show (c.after .other).most = c.most from rfl, hnone]
    exact .of_nil rfl
  | @copy _ k n hk he =>
    obtain ⟨rfl, hp, o, ho, hsyncobjs⟩ := copySyncobj_ok he
    rw [List.getElem?_append_left hk] at ho
    refine hc.append hp hsyncobjs rfl ?_ (fun q hq => ?_) rfl (fun j hj => if_neg hj)
      fun j hj => if_neg hj
    · unfold Coverage.after
      dsimp only
      rw [if_pos rfl, if_pos rfl]
      have htells := hc.tells k o ho
      exact ⟨htells.single, htells.inside, htells.agrees⟩
    · unfold Coverage.after
      dsimp only
      rw [if_pos rfl]
      exact hc.started k q hq
  | destroy hk he =>
    have hp := ((quiet_destroySyncobj _).ok he).progress
    have hget := List.getElem?_eq_getElem hk
    cases he
    exact hc.destroy hp hget rfl
  | update he =>
    obtain ⟨hp, hsyncobjs⟩ := updateSyncobj_ok he
    exact hc.update hp hsyncobjs

namespace SyncRun

variable {es : List SyncEvent}

theorem streams_le (h : SyncRun m es m') :
    m.progress.streams.length ≤ m'.progress.streams.length := by
  induction h with
  | nil => exact Nat.le_refl _
  | cons hs _ ih => exact Nat.le_trans hs.streams_le ih

/-- By induction on the run: each step keeps the slots sound and the coverage told. -/
theorem holds {c : Coverage} (h : SyncRun m es m') (hs : m.progress.Sound)
    (hmax : m'.progress.streams.length ≤ slotCount) (hc : c.Holds m) :
    m'.progress.Sound ∧ (es.foldl Coverage.after c).Holds m' := by
  induction h generalizing c with
  | nil => exact ⟨hs, hc⟩
  | cons hstep hr ih =>
    have hmax' := Nat.le_trans hr.streams_le hmax
    exact ih (hstep.sound hs hmax') hmax (hstep.holds hs hmax' hc)

end SyncRun

omit [Kernel κ] in
/-- Without syncobjs nothing is covered. -/
theorem Coverage.holds_initial (hnone : m.device.syncobjs = []) : ({} : Coverage).Holds m where
  tells k o ho := by
    rw [hnone] at ho
    cases ho
  live k o ho := by
    rw [hnone] at ho
    cases ho
  new _ _ := ⟨rfl, rfl, rfl⟩
  started _ _ _ := rfl
  forgotten _ _ _ := rfl

omit [Kernel κ] in
/-- Fences on slots that exist can be traced. -/
theorem exec_traceFences {fs : List Fence} (o : Syncobj) (hfs : ∀ f ∈ fs, f.slot.toNat < slotCount)
    (m : Machine κ) : ∃ m', (Device.traceFences o fs).exec m = (.ok (), m') := by
  induction fs generalizing m with
  | nil => exact ⟨m, rfl⟩
  | cons f fs ih =>
    obtain ⟨m₁, h₁⟩ : ∃ m₁, (Device.traceFence o f).exec m = (.ok (), m₁) := by
      unfold Device.traceFence
      rw [exec_bind_of_ok (exec_slot (hfs f List.mem_cons_self) m)]
      split
      · obtain ⟨_, m₁, h⟩ := returns_trace (κ := κ) "fence signalled" _ m
        exact ⟨m₁, h⟩
      · exact ⟨m, rfl⟩
    obtain ⟨m', h'⟩ := ih (fun g hg => hfs g (List.mem_cons_of_mem _ hg)) m₁
    exact ⟨m', by rw [Device.traceFences, exec_bind_of_ok h₁, h']⟩

omit [Kernel κ] in
/-- A syncobj with fences on slots that exist can be updated. -/
theorem exec_updateSyncobj {k : Nat} {o : Syncobj} (ho : m.device.syncobjs[k]? = some o)
    (hfs : ∀ f ∈ o.fences, f.slot.toNat < slotCount) :
    ∃ m', (Device.updateSyncobj k).exec m = (.ok (), m') := by
  have hsyncobj : (Device.syncobj k).exec m = (.ok o, m) := by
    unfold Device.syncobj
    rw [exec_bind_of_ok (exec_device m), ho]
    rfl
  obtain ⟨m₁, h₁⟩ := exec_traceFences o hfs m
  exact ⟨_, by rw [Device.updateSyncobj, exec_bind_of_ok hsyncobj, exec_bind_of_ok h₁, exec_modifyDevice]⟩

/-- After an update a syncobj has at most one fence for each slot.  Unless it covers work that was submitted
through a destroyed syncobj, the fences are exactly the greatest numbers covered that are not complete, so
none is left when all work is complete or was terminated. -/
theorem SyncRun.update_exact {es : List SyncEvent} {m₁ : Machine κ} {k : Nat} {o : Syncobj}
    (hfresh : Fresh m) (hnone : m.device.syncobjs = []) (h : SyncRun m es m₁)
    (hmax : m₁.progress.streams.length ≤ slotCount) (ho : m₁.device.syncobjs[k]? = some o) :
    ∃ m' o', (Device.updateSyncobj k).exec m₁ = (.ok (), m') ∧ m'.device.syncobjs[k]? = some o' ∧
      (o'.fences.map (·.slot)).Nodup ∧
      ((coverage es).astray k = false →
        (∀ f : Fence, f ∈ o'.fences ↔ (coverage es).most k f.slot.toNat = some f.value ∧
          (m'.progress.slots.entry f.slot.toNat).last ≤ f.value) ∧
        (o'.fences = [] ↔ ∀ q v, (coverage es).most k q = some v →
          v < (m'.progress.slots.entry q).last)) := by
  obtain ⟨hs, hholds⟩ := h.holds hfresh.sound hmax (Coverage.holds_initial hnone)
  have hb := hs.slots.bound_le
  have htells := hholds.tells k o ho
  obtain ⟨m', he⟩ := exec_updateSyncobj ho fun f hf =>
    Nat.lt_of_lt_of_le (htells.inside f hf).1 hb
  obtain ⟨hp, hsyncobjs⟩ := updateSyncobj_ok he
  change (coverage es).Holds m₁ at hholds
  change o.Tells _ _ ((coverage es).most k) ((coverage es).astray k) at htells
  refine ⟨m', o.prune m₁.progress.slots, he, ?_, Syncobj.nodup_prune htells.single _, fun ha => ?_⟩
  · rw [hsyncobjs, getElem?_modify_of_some ho, if_pos rfl]
  · rw [ha] at htells
    have hmem := htells.mem_prune_iff hb (hholds.started k)
    rw [hp]
    refine ⟨hmem, ?_, fun hdone => ?_⟩
    · intro hnil q v hv
      have hq := hholds.lt_bound (k := k) (q := q) (by rw [hv]; exact Option.some_ne_none v)
      have hslot := toNat_ofNat_slot (Nat.lt_of_lt_of_le hq hb)
      by_contra hopen
      have hfence := (hmem ⟨UInt32.ofNat q, v⟩).mpr (by
        rw [hslot]
        exact ⟨hv, UInt64.not_lt.mp hopen⟩)
      rw [hnil] at hfence
      exact absurd hfence List.not_mem_nil
    · refine List.eq_nil_iff_forall_not_mem.mpr fun f hf => ?_
      obtain ⟨hv, hopen⟩ := (hmem f).mp hf
      exact UInt64.not_lt.mpr hopen (hdone _ _ hv)

end Kernel

namespace Sample

-- a table of 256 slots is evaluated
set_option maxRecDepth 20000

/-- A device with a queue group. -/
def grouped : Machine Bench :=
  { start with device := { start.device with contexts := [{}], options := { pageSize := 4096 } } }

/-- A stream is bound. -/
def streamed : Machine Bench := ((Device.bindStream 0 0 4096).exec grouped).2

/-- There is a syncobj. -/
def synced : Machine Bench := (Device.createSyncobj.exec streamed).2

/-- Work was submitted through it. -/
def fenced : Machine Bench := ((Device.submitStream 0 64 (some 0) 5).exec synced).2

/-- The syncobj was copied. -/
def copied : Machine Bench := ((Device.copySyncobj 0).exec fenced).2

/-- The syncobj was destroyed instead. -/
def destroyed : Machine Bench := ((Device.destroySyncobj 0).exec synced).2

/-- Work was submitted through what was destroyed. -/
def strayed : Machine Bench := ((Device.submitStream 0 64 (some 0) 5).exec destroyed).2

/-- The stream was terminated. -/
def ended : Machine Bench := ((Device.terminateStream 0).exec strayed).2

/-- What was destroyed was copied. -/
def carried : Machine Bench := ((Device.copySyncobj 0).exec ended).2

/-- The stream that is bound. -/
def ring : Stream := streamed.device.streams.headD default

theorem fresh_grouped : Fresh grouped := by
  constructor
  case range => exact Int.le_refl _
  all_goals rfl

theorem bind_grouped : SyncStep grouped .other streamed := by
  have hbind : (Device.bindStream 0 0 4096).exec grouped = (.ok 0, streamed) := exec_of_value (by decide)
  exact .bind hbind trivial

theorem create_streamed : SyncStep streamed .other synced :=
  .create (k := 0) (exec_of_value (by decide))

theorem run_copied : SyncRun grouped [.other, .other, .submit 0 0 5, .copy 0 1] copied := by
  have hsubmit : SyncStep synced (.ofSubmit ring 64 (some 0) 5) fenced :=
    .submit (by decide) (by decide) (by decide) (exec_of_value (a := true) (by decide))
  have hcopy : SyncStep fenced (.copy 0 1) copied :=
    .copy (by decide) (exec_of_value (by decide))
  exact .cons bind_grouped (.cons create_streamed (.cons hsubmit (.cons hcopy (.nil _))))

theorem run_carried :
    SyncRun grouped [.other, .other, .destroy 0, .submit 0 0 5, .terminate 0, .copy 0 1] carried := by
  have hdestroy : SyncStep synced (.destroy 0) destroyed :=
    .destroy (by decide) (exec_of_value (by decide))
  have hsubmit : SyncStep destroyed (.ofSubmit ring 64 (some 0) 5) strayed :=
    .submit (by decide) (by decide) (by decide) (exec_of_value (a := true) (by decide))
  have hterminate : SyncStep strayed (.terminate 0) ended :=
    .terminate (s := strayed.device.streams.headD default) (by decide +kernel)
      (exec_of_value (by decide +kernel))
  have hcopy : SyncStep ended (.copy 0 1) carried :=
    .copy (by decide +kernel) (exec_of_value (by decide +kernel))
  exact .cons bind_grouped (.cons create_streamed (.cons hdestroy (.cons hsubmit
    (.cons hterminate (.cons hcopy (.nil _))))))

end Sample

set_option maxRecDepth 20000 in
/-- The copy of a syncobj keeps its fence while the work is not complete. -/
theorem update_exact_sample :
    Sample.copied.device.syncobjs.length = 2 ∧
    ∃ m' o', (Device.updateSyncobj 1).exec Sample.copied = (.ok (), m') ∧
      m'.device.syncobjs[1]? = some o' ∧ o'.fences ≠ [] ∧
      (coverage [.other, .other, .submit 0 0 5, .copy 0 1]).most 1 0 = some 5 := by
  refine ⟨by decide, ?_⟩
  obtain ⟨m', o', he, ho', -, hexact⟩ := SyncRun.update_exact (k := 1) Sample.fresh_grouped rfl
    Sample.run_copied (by decide) (o := { id := 2, fences := [⟨0, 5⟩] }) (by decide)
  refine ⟨m', o', he, ho', fun hnil => ?_, rfl⟩
  have hdone := (hexact rfl).2.mp hnil 0 5 rfl
  rw [(updateSyncobj_ok he).1] at hdone
  exact absurd hdone (by decide)

set_option maxRecDepth 20000 in
/-- Work that was submitted through a destroyed syncobj stays behind in a copy after its stream was
terminated, although the copy covers nothing then. -/
theorem update_inexact_destroyed :
    ∃ es m m' o', SyncRun Sample.grouped es m ∧ Fresh Sample.grouped ∧
      m.progress.streams.length ≤ slotCount ∧ (Device.updateSyncobj 1).exec m = (.ok (), m') ∧
      m'.device.syncobjs[1]? = some o' ∧ o'.live = true ∧ o'.fences = [⟨0, 5⟩] ∧
      ∀ q, (coverage es).most 1 q = none := by
  refine ⟨_, Sample.carried, _, { id := 2, fences := [⟨0, 5⟩] }, Sample.run_carried,
    Sample.fresh_grouped, by decide +kernel, exec_of_value (by decide +kernel), by decide +kernel, rfl, rfl,
    fun q => ?_⟩
  simp [coverage, Coverage.after]

end Mali
