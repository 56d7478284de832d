import Mali.Proofs.LoanAccounts

/-!
# What submission contexts hold on to

A submission context holds a reference to its tiler heap and one to the ring of each of its queues.  It takes them over
when the heap is set and the queues are made, and gives them back when it is reset or destroyed; a submission changes
nothing of this.

* `honors_setHeap`, `honors_dropHeap`: the tiler heap.
* `honors_destroy`, `honors_createSubmitter`: the rings.
* `honors_reset`, `honors_submit`, `honors_submitJobs`: recovering, and submitting a batch.
-/

namespace Mali

open Op

variable {κ : Type} [Kernel κ] {m m' : Machine κ} {held owed : List Nat}

/-! ## The tiler heap -/

omit [Kernel κ] in
theorem count_postedOf (s : Submitter) (x : Nat) :
    (postedOf s.post).count x = s.heap.toList.count x + (s.queues.map (·.ring)).count x := by
  rw [postedOf, ← s.rings_eq, List.count_append]
  rfl

/-- The heap that is there makes room for the next one. -/
theorem replaceHeap_accountable {id : Nat} {heap : Option Nat} {r : Except Halt Unit} (he : (do
      match (← Submitter.get id).heap with
      | some b => Buffer.unreference b
      | none => pure ()
      Submitter.modify id fun s => { s with heap } : Op κ Unit).exec m = (r, m')) (hr : Survives r)
    (hfits : m'.Fits) (hfiled : m.Filed) (hm : m.Square (heap.toList ++ (held ++ m.charges))) :
    m'.Accountable held := by
  obtain ⟨s, m₀, h₀, he⟩ := (faultless_getSubmitter id).bind_survives he hr
  obtain ⟨rfl, hs⟩ := getSubmitter_ok h₀
  -- the new heap is put in place when the old one was given back
  have hend {m₁ : Machine κ} {owed : List Nat} (hsame : SameHolders m m₁) (hm₁ : m₁.Square owed)
      (hcount : ∀ x, owed.count x + s.heap.toList.count x =
        heap.toList.count x + (held.count x + m.charges.count x)) :
      ({ m₁ with submitters := m₁.submitters.modify id fun s => { s with heap } } : Machine κ).Accountable held := by
    obtain ⟨s₁, hs₁, hpost⟩ := hsame.submitter hs
    refine .of_submitter hm₁ (hsame.filed hfiled) hs₁ fun x => ?_
    have hall := hcount x
    have hrings : s₁.queues.map (·.ring) = s.queues.map (·.ring) := by rw [s₁.rings_eq, hpost, ← s.rings_eq]
    rw [hsame.charges hfiled, hpost, count_postedOf, count_postedOf,
      show ({ s₁ with heap } : Submitter).queues = s₁.queues from rfl, hrings]
    dsimp only
    omega
  cases hheap : s.heap with
  | none =>
    simp only [hheap] at he
    cases he
    refine hend (Journey.refl m) hm fun x => ?_
    rw [hheap, List.count_append, List.count_append]
    rfl
  | some old =>
    simp only [hheap] at he
    obtain ⟨_, m₁, h₁, he⟩ := (faultless_unreference old).bind_survives he hr
    cases he
    have hold : old ∈ m.charges := m.mem_charges_of_submitter hs (by simp [postedOf, Submitter.post, hheap])
    have hmem : old ∈ heap.toList ++ (held ++ m.charges) := by simp [hold]
    have hsquare : m₁.Square ((heap.toList ++ (held ++ m.charges)).erase old) := hm.unreference hmem h₁ hfits
    refine hend ((sameHolders_unreference old).ok h₁) hsquare fun x => ?_
    have hperm := (List.perm_cons_erase hmem).count_eq x
    rw [List.count_append, List.count_append, List.count_cons] at hperm
    rw [hheap, Option.toList_some, List.count_singleton]
    omega

/-- A heap is set to which users hold a reference, or none is. -/
theorem honors_setHeap (id : Nat) (heap : Option Nat) (hspare : ∀ x ∈ heap, m.refs x ≠ Int32.maxValue) :
    KeepsAt (Honors held held) (Submitter.setHeap id heap) m := by
  refine keepsAt_of_exec fun {r m'} he hr => ⟨(operating_reaches.attending.setHeap id heap m).survives he hr, ?_⟩
  intro hfits hm
  unfold Submitter.setHeap at he
  cases heap with
  | none => exact replaceHeap_accountable he hr hfits hm.filed hm.square
  | some x =>
    obtain ⟨_, m₁, h₁, he⟩ := (faultless_reference x).bind_survives he hr
    have hshift := Shifts.of_reference (hspare x rfl) h₁ (held ++ m.charges)
    have hreach : Reaches m₁ m' := (keeps_replaceHeap operating_reaches.editSubmitter operating_reaches.unreference
      id (some x) m₁).survives he hr
    refine replaceHeap_accountable he hr hfits (hshift.same.filed hm.filed) ?_
    rw [hshift.same.charges hm.filed]
    exact hshift.square (hreach.fits hfits) hm.square

theorem honors_dropHeap (id : Nat) : Keeps (Honors (κ := κ) held held) (Submitter.setHeap id none) :=
  fun _ => honors_setHeap id none fun _ hx => absurd hx (Option.not_mem_none _)

/-! ## The rings -/

/-- By induction on the queues. -/
theorem Shifts.of_dropRings {qs : List Queue} {u : Unit} (he : (Submitter.dropRings qs).exec m = (.ok u, m')) :
    Shifts (qs.map (·.ring) ++ owed) owed m m' := by
  induction qs generalizing m with
  | nil =>
    cases he
    exact .of_abides (Journey.refl _) _
  | cons q qs ih =>
    obtain ⟨_, m₁, h₁, he⟩ := bind_ok he
    exact (Shifts.of_unreference h₁ _).trans (ih he)

omit [Kernel κ] in
/-- The machine with a submission context that has no queues. -/
def Machine.emptySeat (m : Machine κ) (id : Nat) : Machine κ :=
  { m with submitters := m.submitters.modify id fun s => { s with vertex := none, fragment := none } }

omit [Kernel κ] in
theorem Machine.count_charges_emptySeat {id : Nat} {s : Submitter} (hs : m.submitters[id]? = some s) (x : Nat) :
    (m.emptySeat id).charges.count x + (s.queues.map (·.ring)).count x = m.charges.count x := by
  have hone : (m.emptySeat id).charges.count x + (postedOf s.post).count x =
      m.charges.count x + (postedOf (Submitter.post { s with vertex := none, fragment := none })).count x :=
    m.count_charges_of_submitter hs x
  rw [count_postedOf, count_postedOf] at hone
  have hnone : (Submitter.queues { s with vertex := none, fragment := none }).map (·.ring) = [] := rfl
  rw [hnone, List.count_nil] at hone
  dsimp only at hone
  omega

/-- The rings are given back, and the queues are gone once their streams are terminated. -/
theorem honors_emptySeat {m₁ m₂ : Machine κ} {id : Nat} {s : Submitter} {u : Unit}
    (hs : m.submitters[id]? = some s) (h₁ : (Submitter.dropRings s.queues).exec m = (.ok u, m₁))
    (h₂ : Abides none m₁ m₂) : Honors held held m (m₂.emptySeat id) := by
  have hdrop : Shifts (s.queues.map (·.ring) ++ (held ++ (m.emptySeat id).charges))
      (held ++ (m.emptySeat id).charges) m m₂ := (Shifts.of_dropRings h₁).trans (.of_abides h₂ _)
  refine ⟨hdrop.reaches.trans (OfDevice.of_device rfl), fun hfits hm => ?_⟩
  have hready : m.Square (s.queues.map (·.ring) ++ (held ++ (m.emptySeat id).charges)) :=
    hm.square.congr fun x => by
      have hone := m.count_charges_emptySeat hs x
      rw [List.count_append, List.count_append, List.count_append]
      omega
  obtain ⟨s₂, hs₂, hpost⟩ := hdrop.same.submitter hs
  refine .of_submitter (hdrop.square hfits hready) (hdrop.same.filed hm.filed) hs₂ fun x => ?_
  have hone := m.count_charges_emptySeat hs x
  have hrings : s₂.queues.map (·.ring) = s.queues.map (·.ring) := by rw [s₂.rings_eq, hpost, ← s.rings_eq]
  have hnone : (Submitter.queues { s₂ with vertex := none, fragment := none }).map (·.ring) = [] := rfl
  rw [hdrop.same.charges hm.filed, count_postedOf, count_postedOf, hrings, hnone, List.count_append, List.count_nil]
  dsimp only
  omega

theorem honors_destroy (id : Nat) : Keeps (Honors (κ := κ) held held) (Submitter.destroy id) := by
  have hsyncobj (o : Option Nat) : Keeps (Honors (κ := κ) held held) (do
      match o with
      | some o =>
        Device.destroySyncobj o
        Submitter.modify id fun s => { s with syncobj := none }
      | none => pure ()) := by
    cases o with
    | none => exact keeps_pure ()
    | some o =>
      exact keeps_bind (honors_of_abides (streaming_abides.destroySyncobj o trivial)) fun _ =>
        honors_editSubmitter id fun _ => rfl
  have hleave : Keeps (Honors (κ := κ) held held) (Submitter.modify id fun s => { s with context := none }) :=
    honors_editSubmitter id fun _ => rfl
  unfold Submitter.destroy
  refine keeps_bind (keeps_debug _ _) fun _ => keeps_bind (honors_dropHeap id) fun _ m =>
    keepsAt_of_exec fun {r m'} he hr => ?_
  obtain ⟨s, m₀, h₀, he⟩ := (faultless_getSubmitter id).bind_survives he hr
  obtain ⟨rfl, hs⟩ := getSubmitter_ok h₀
  obtain ⟨_, m₁, h₁, he⟩ := (faultless_dropRings _).bind_survives he hr
  obtain ⟨_, m₂, h₂, he⟩ := (faultless_terminateQueues _).bind_survives he hr
  obtain ⟨_, m₃, h₃, he⟩ := (faultless_modifySubmitter id _).bind_survives he hr
  obtain rfl : m₂.emptySeat id = m₃ := (Prod.mk.inj h₃).2
  have hterminated : Abides none m₁ m₂ :=
    (keeps_terminateQueues fun q _ => streaming_abides.terminateStream trivial).ok h₂
  refine (honors_emptySeat hs h₁ hterminated).next (?_ : Honors held held (m₂.emptySeat id) m')
  cases hcontext : s.context with
  | none =>
    rw [hcontext] at he
    exact (hsyncobj s.syncobj _).survives he hr
  | some c =>
    rw [hcontext] at he
    exact (keeps_bind (honors_of_abides (streaming_abides.destroyContext c))
      (fun _ => keeps_bind hleave fun _ => hsyncobj s.syncobj) _).survives he hr

/-! ### Queues that are made -/

/-- A queue that is made has a ring with a reference for it. -/
theorem Shifts.of_createQueue {ctx : Nat} {ringSize : UInt32} {label : String} {r : Except Halt Queue}
    (he : (Submitter.createQueue ctx ringSize label).exec m = (r, m')) (hr : Survives r) (owed : List Nat) :
    Shifts owed ((r.toOption.map (·.ring)).toList ++ owed) m m' := by
  unfold Submitter.createQueue at he
  rcases bind_survives he hr with ⟨f, h₁, rfl⟩ | ⟨ring, m₁, h₁, he⟩
  · exact .of_create h₁ trivial owed
  obtain ⟨b, m₂, h₂, he⟩ := (faultless_buffer ring).bind_survives he hr
  obtain ⟨answer, m₃, h₃, he⟩ := (faultless_attempt _).bind_survives he hr
  have hread : Abides none m₁ m₂ := (keeps_buffer ring).ok h₂
  have hbound : Abides none m₁ m₃ := hread.next ((keeps_attempt (streaming_abides.bindStream trivial _ _ _)).ok h₃)
  have hmade : Shifts owed (ring :: owed) m m₃ := (Shifts.of_create h₁ trivial owed).trans (.of_abides hbound _)
  cases answer with
  | ok stream =>
    cases he
    exact hmade
  | error f =>
    obtain ⟨_, m₄, h₄, he⟩ := (faultless_unreference ring).bind_survives he hr
    cases he
    exact hmade.trans (.of_unreference h₄ owed)

omit [Kernel κ] in
theorem perm_postedOf_vertex {s : Submitter} (q : Queue) (h : s.post.2.1 = none) :
    (postedOf { s with vertex := some q }.post).Perm (q.ring :: postedOf s.post) := by
  rw [postedOf, postedOf, h]
  exact List.perm_middle

omit [Kernel κ] in
theorem perm_postedOf_fragment {s : Submitter} (q : Queue) (h : s.post.2.2 = none) :
    (postedOf { s with fragment := some q }.post).Perm (q.ring :: postedOf s.post) := by
  rw [postedOf, postedOf, h, ← List.append_assoc, ← List.append_assoc]
  exact List.perm_middle

/-- A submission context gets a queue that is made, or is destroyed. -/
theorem seatQueue_honors {id : Nat} {s : Submitter} {ctx : Nat} {ringSize : UInt32} {label : String}
    {set : Queue → Submitter → Submitter} {r : Except Halt Unit} (hs : m.submitters[id]? = some s)
    (hset : ∀ q s', s'.post = s.post → (postedOf (set q s').post).Perm (q.ring :: postedOf s'.post))
    (he : (Submitter.orDestroy id (Submitter.createQueue ctx ringSize label) >>= fun q =>
      Submitter.modify id (set q)).exec m = (r, m')) (hr : Survives r) :
    Honors held held m m' ∧ ∀ u, r = .ok u → ∃ q s', s'.post = s.post ∧ m'.submitters[id]? = some (set q s') := by
  unfold Submitter.orDestroy at he
  rw [bind_assoc] at he
  obtain ⟨answer, m₁, h₁, he⟩ := (faultless_attempt _).bind_survives he hr
  cases answer with
  | error f =>
    have hmade : Honors held held m m₁ :=
      .of_shifts fun owed => .of_createQueue (attempt_fault h₁) trivial (held ++ owed)
    rcases bind_survives he hr with ⟨f', h₂, rfl⟩ | ⟨q, m₂, h₂, -⟩
    · exact ⟨hmade.next ((keeps_bind (honors_destroy id) (fun _ => keeps_fail f) m₁).survives h₂ trivial), nofun⟩
    · obtain ⟨_, _, -, h₂⟩ := bind_ok h₂
      cases h₂
  | ok q =>
    have hmade : Shifts (held ++ m.charges) (q.ring :: (held ++ m.charges)) m m₁ :=
      .of_createQueue (attempt_ok h₁) trivial _
    obtain ⟨s₁, hs₁, hpost⟩ := hmade.same.submitter hs
    cases he
    refine ⟨⟨hmade.reaches.trans (OfDevice.of_device rfl), fun hfits hm => ?_⟩, fun _ _ => ⟨q, s₁, hpost, ?_⟩⟩
    · refine .of_submitter (hmade.square hfits hm.square) (hmade.same.filed hm.filed) hs₁ fun x => ?_
      rw [hmade.same.charges hm.filed, (hset q s₁ hpost).count_eq, List.count_cons, List.count_cons, List.count_append]
      omega
    · exact (getElem?_modify_of_some hs₁ id).trans (if_pos rfl)

theorem honors_createQueues {id ctx : Nat} {s : Submitter} {ringSize : UInt32} (hs : m.submitters[id]? = some s)
    (hvertex : s.post.2.1 = none) (hfragment : s.post.2.2 = none) :
    KeepsAt (Honors held held) (Submitter.createQueues id ctx ringSize) m := by
  refine keepsAt_of_exec fun {r m'} he hr => ?_
  have hfirst {r : Except Halt Unit} {m₁ : Machine κ} (he : (Submitter.orDestroy id
      (Submitter.createQueue ctx ringSize "Vertex CS ring") >>= fun q =>
        Submitter.modify id fun s => { s with vertex := some q }).exec m = (r, m₁)) (hr : Survives r) :
      Honors held held m m₁ ∧ ∀ u, r = .ok u →
        ∃ (q : Queue) (s' : Submitter), s'.post = s.post ∧ m₁.submitters[id]? = some { s' with vertex := some q } :=
    seatQueue_honors hs (fun q s' hpost => perm_postedOf_vertex q (hpost ▸ hvertex)) he hr
  rw [Submitter.createQueues_eq] at he
  rcases bind_survives he hr with ⟨f, h₁, rfl⟩ | ⟨u, m₁, h₁, he⟩
  · exact (hfirst h₁ trivial).1
  · obtain ⟨hmade, hseated⟩ := hfirst h₁ trivial
    obtain ⟨q, s₁, hpost, hs₁⟩ := hseated u rfl
    refine hmade.next (seatQueue_honors hs₁ (fun q' s' hpost' => perm_postedOf_fragment q' ?_) he hr).1
    rw [hpost']
    show s₁.post.2.2 = none
    rw [hpost, hfragment]

omit [Kernel κ] in
/-- A new submission context holds on to nothing. -/
theorem honors_add {s : Submitter} (hs : s.post = (none, none, none)) :
    Keeps (Honors (κ := κ) held held) (Submitter.add s) := by
  refine keeps_bind keeps_get fun _ => keeps_bind (fun m _ => ⟨OfDevice.of_device rfl, fun _ hm => ?_⟩) fun _ =>
    keeps_pure _
  have hadded : ({ m with submitters := m.submitters ++ [s] } : Machine κ).Square (held ++ m.charges) :=
    hm.square.of_inside rfl rfl
  refine ⟨hadded.congr fun x => ?_, hm.filed⟩
  simp [Machine.charges, hs, postedOf]

theorem honors_createSubmitter (ringSize : UInt32) :
    Keeps (Honors (κ := κ) held held) (Submitter.create ringSize) := by
  have hsyncobj : Keeps (Honors (κ := κ) held held) Device.createSyncobj :=
    honors_of_abides streaming_abides.createSyncobj
  unfold Submitter.create
  refine keeps_bind (keeps_debug _ _) fun _ => keeps_bind keeps_device fun d => ?_
  split
  · exact keeps_bind hsyncobj fun o => honors_add rfl
  refine keeps_bind_except (keeps_attempt (honors_of_abides (streaming_abides.createContext trivial))) (fun ctx m => ?_)
    fun _ => keeps_fail _
  refine keepsAt_bind (honors_add rfl m) fun id m₁ h₁ => ?_
  have hadded : m₁.submitters[id]? = some { context := some ctx } := by
    cases h₁
    exact List.getElem?_concat_length
  refine keepsAt_bind (honors_createQueues hadded rfl rfl) fun _ m₂ _ => ?_
  have hseat (o : Nat) : Keeps (Honors (κ := κ) held held)
      (Submitter.modify id fun s => { s with syncobj := some o }) := honors_editSubmitter id fun _ => rfl
  exact keeps_bind hsyncobj (fun o => keeps_bind (hseat o) fun _ => keeps_pure id) m₂

/-! ## Recovering and submitting -/

theorem honors_reset (id : Nat) : Keeps (Honors (κ := κ) held held) (Submitter.reset id) := by
  have hrecovering : Recovering (Honors (κ := κ) held held) :=
    { dropHeap := honors_dropHeap
      rebind := fun id => honors_of_abides (streaming_abides.rebindStream id)
      setLastInsert := fun id insert => honors_of_abides (streaming_abides.setLastInsert id insert)
      advance := fun i n => honors_of_abides (streaming_abides.advance i n) }
  exact hrecovering.reset (honors_editSubmitter id fun _ => rfl)
    (fun c => honors_of_abides (streaming_abides.recreateContext c))
    fun _ => .inr fun q _ => honors_of_abides (streaming_abides.terminateStream trivial)

theorem honors_submit (id batch : Nat) (vertexInsert fragmentInsert : UInt64) :
    Keeps (Honors (κ := κ) held held) (Submitter.submit id batch vertexInsert fragmentInsert) := by
  refine fun m => keepsAt_submit (fun _ hb hnew => ?_) (fun _ => .inr fun q _ insert activity => ?_)
    (fun s extract o => honors_of_abides (streaming_abides.waitStream s extract o)) (honors_reset id) vertexInsert
    fragmentInsert
  · exact fun hs => .of_abides (streaming_abides.collect trivial trivial hb hnew hs)
  · exact honors_of_abides (streaming_abides.submitQueue trivial (fun _ _ => trivial) insert activity)

/-! ## Submitting jobs -/

theorem abides_markAccess (x : Nat) (access : UInt32) :
    Keeps (Abides (κ := κ) none) (modifyBuffer x (·.markAccess access)) :=
  abides_of_quiet (unstirred_editBuffer x fun _ => rfl) (quiet_modifyBuffer x fun _ => rfl)

theorem abides_markAccesses (es : List (Nat × UInt32)) :
    Keeps (Abides (κ := κ) none) (Submitter.markAccesses es) := by
  induction es with
  | nil => exact keeps_pure ()
  | cons e es ih =>
    refine keeps_bind keeps_allocator fun a => ?_
    dsimp only
    split
    · exact keeps_bind (abides_markAccess _ _) fun _ => ih
    · exact ih

theorem abides_markHeap (id : Nat) (b : Batch) : Keeps (Abides (κ := κ) none) (Submitter.markHeap id b) := by
  unfold Submitter.markHeap
  refine keeps_bind (keeps_getSubmitter id) fun s => ?_
  split
  · exact keeps_pure _
  · refine keeps_bind (keeps_buffer _) fun h => ?_
    dsimp only
    split
    · exact keeps_pure _
    · exact keeps_bind (abides_markAccess _ _) fun _ => keeps_pure _

omit [Kernel κ] in
/-- What does not make a device one with command streams may be followed by what only other devices do. -/
theorem honors_bind_job {α β : Type} {x : Op κ α} {f : α → Op κ β} (hjob : m.device.generation ≠ .csf)
    (hx : Keeps (Honors held held) x)
    (hf : ∀ a (m₁ : Machine κ), m₁.device.generation ≠ .csf → KeepsAt (Honors held held) (f a) m₁) :
    KeepsAt (Honors held held) (x >>= f) m :=
  keepsAt_bind (hx m) fun a m₁ h₁ => hf a m₁ fun hcsf =>
    hjob ((hx.ok h₁).reaches.generation.symm.trans hcsf)

/-- A submission context with a context refuses jobs, and a device without command streams runs them. -/
theorem honors_submitJobs {id : Nat} (batch : Nat) (jobChain : UInt64) (requirements : UInt32)
    (hjob : m.device.generation = .csf → ∀ s, m.submitters[id]? = some s → s.context.isSome) :
    KeepsAt (Honors held held) (Submitter.submitJobs id batch jobChain requirements) m := by
  unfold Submitter.submitJobs
  refine keepsAt_bind (keeps_debug _ _ m) fun _ m₁ h₁ => keepsAt_bind (keeps_getSubmitter id m₁) fun s m₂ h₂ => ?_
  have hsame : SameInside m m₁ := (keeps_debug _ _).ok h₁
  obtain ⟨rfl, hs⟩ := getSubmitter_ok h₂
  refine keepsAt_bind (keeps_getBatch batch m₁) fun b m₂ h₂ => ?_
  obtain ⟨rfl, -⟩ := getBatch_ok h₂
  split
  · exact keeps_fail _ m₁
  rename_i hnone
  split
  · exact keeps_fail _ m₁
  have hjob₁ : m₁.device.generation ≠ .csf := by
    intro hcsf
    rw [hsame.device] at hcsf
    rw [hsame.submitters] at hs
    exact hnone (hjob hcsf s hs)
  have hsubmitted : Keeps (Honors (κ := κ) held held) (Batch.modify batch fun b => { b with submitted := true }) :=
    honors_editBatch batch fun _ => rfl
  refine honors_bind_job hjob₁ hsubmitted fun _ m₂ hjob₂ =>
    honors_bind_job hjob₂ (honors_of_abides (abides_markAccesses _)) fun _ m₃ hjob₃ =>
    honors_bind_job hjob₃ (honors_of_abides (abides_markHeap id b)) fun heap m₄ hjob₄ => ?_
  dsimp only
  refine honors_bind_job hjob₄ (honors_of_abides proceeding_abides.ensureHandleEvents) fun _ m₅ hjob₅ =>
    keepsAt_bind (fun hs => .of_abides (abides_submitJob hjob₅ _ _ _ _ hs)) fun atom m₆ _ => ?_
  split
  · refine keeps_bind (keeps_require _) (fun o =>
      keeps_bind (honors_of_abides (streaming_abides.waitSyncobj o)) fun done => ?_) m₆
    split
    · exact keeps_bind (keeps_warn _ _) fun _ => keeps_pure _
    · exact keeps_pure _
  · exact keeps_pure _ m₆

end Mali
