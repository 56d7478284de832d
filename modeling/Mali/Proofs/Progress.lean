import Mali.Proofs.References

/-!
# Operations on event slots

What submitting, reporting, taking callbacks, terminating and binding do to the slots, and that the
slots stay sound.  None of these touches the storage.

* `Moves`: the progress changes, and nothing else that matters.
* `submitSlot_ok`, `advanceSlot_ok`, `takeCallbacks_ok`, `clearSlot_ok`, `callbackAll_ok`,
  `attachStream_ok`: what the operations do.
* `Progress.join`: a stream that is bound when every slot is taken shares the newest one.
* `Progress.Sound`: the slots are sound, and every stream has a slot of its own.
-/

namespace Mali

open Op

variable {κ : Type}

namespace SlotTable

theorem put_entry (t : SlotTable) (i : Nat) : t.put i (t.entry i) = t := by
  unfold put entry
  refine Vector.ext fun j hj => ?_
  rw [Vector.getElem_setIfInBounds]
  split
  · subst_vars
    simp [hj]
  · rfl

end SlotTable

/-- The progress of a machine becomes a given one, and nothing else that matters changes. -/
structure Moves (p : Progress) (m m' : Machine κ) : Prop where
  progress : m'.progress = p
  storage : m'.storage = m.storage
  owns : ∀ k fd, m.Owns k fd → m'.Owns k fd
  standings : ∃ n, m'.standings = m.standings ++ List.replicate n (false, [], [])

namespace Moves

variable {p p' : Progress} {m m₁ m₂ : Machine κ}

theorem of_eq (hp : m₁.progress = p) (ha : m₁.allocator = m.allocator)
    (hh : m₁.device.handles = m.device.handles) (hb : m₁.batches = m.batches) : Moves p m m₁ :=
  ⟨hp, by rw [Machine.storage, ha, Machine.storage], fun k fd ho => by rwa [Machine.Owns, hh],
    0, by simp [Machine.standings, hb]⟩

theorem trans (h : Moves p m m₁) (h' : Moves p' m₁ m₂) : Moves p' m m₂ where
  progress := h'.progress
  storage := h'.storage.trans h.storage
  owns k fd ho := h'.owns k fd (h.owns k fd ho)
  standings := by
    obtain ⟨n, hn⟩ := h.standings
    obtain ⟨n', hn'⟩ := h'.standings
    exact ⟨n + n', by rw [hn', hn, List.append_assoc, List.replicate_append_replicate]⟩

theorem of_quiet (h : Quiet m m₁) : Moves m.progress m m₁ :=
  ⟨h.progress, h.storage, h.owns, h.standings⟩

theorem quiet (h : Moves p m m₁) (hq : Quiet m₁ m₂) : Moves p m m₂ := by
  have := h.trans (of_quiet hq)
  rwa [h.progress] at this

/-- Moving the slots keeps the books as long as what is to come stays the same. -/
theorem books {ready ready' : List Callback} {held : Option Nat} (h : Moves p m m₁)
    (hb : m.Books ready held) (hw : ∀ y, m₁.waiting ready' y = m.waiting ready y) :
    m₁.Books ready' held := by
  have : m₁.waiting ready' = m.waiting ready := funext hw
  rw [Machine.Books, h.storage, this]
  exact Storage.Books.mono hb h.owns

end Moves

/-- The slots of a progress with one of them replaced. -/
def Progress.put (p : Progress) (i : Nat) (s : EventSlot) : Progress :=
  { p with slots := p.slots.put i s }

@[simp] theorem Progress.put_bound (p : Progress) (i : Nat) (s : EventSlot) :
    (p.put i s).bound = p.bound := rfl

@[simp] theorem Progress.put_streams (p : Progress) (i : Nat) (s : EventSlot) :
    (p.put i s).streams = p.streams := rfl

/-! ## One slot -/

theorem setSlot_ok {i : Nat} {s : EventSlot} {m m' : Machine κ} {u : Unit}
    (he : (Device.setSlot i s).exec m = (.ok u, m')) : Moves (m.progress.put i s) m m' := by
  cases he
  exact .of_eq rfl rfl rfl rfl

/-- A sequence that begins by reading a slot goes on from the same machine. -/
theorem bind_slot_ok {α : Type} {i : Int} {f : EventSlot → Op κ α} {m m' : Machine κ} {a : α}
    (he : (Device.slot i >>= f).exec m = (.ok a, m')) :
    0 ≤ i ∧ i.toNat < slotCount ∧ (f (m.progress.slots.entry i.toNat)).exec m = (.ok a, m') := by
  obtain ⟨s, m₁, h₁, he⟩ := bind_ok he
  unfold Device.slot at h₁
  obtain ⟨d, m₂, h₂, h₁⟩ := bind_ok h₁
  cases h₂
  cases hs : m.device.slots.get? i with
  | none => simp [hs] at h₁
  | some s' =>
    rw [hs] at h₁
    cases h₁
    obtain ⟨hi, hlt, hentry⟩ := SlotTable.get?_eq_some hs
    refine ⟨hi, hlt, ?_⟩
    rw [show m.progress.slots.entry i.toNat = s from hentry]
    exact he

theorem submitSlot_ok {i : Int} {n : UInt64} {m m' : Machine κ} {u : Unit}
    (he : (Device.submitSlot i n).exec m = (.ok u, m')) :
    Moves (m.progress.put i.toNat ((m.progress.slots.entry i.toNat).submit n)) m m' := by
  obtain ⟨-, -, he⟩ := bind_slot_ok he
  exact setSlot_ok he

theorem takeCallbacks_ok {i : Int} {n : UInt64} {m m' : Machine κ} {ready : List Callback}
    (he : (Device.takeCallbacks i n).exec m = (.ok ready, m')) :
    i.toNat < slotCount ∧ ready = ((m.progress.slots.entry i.toNat).take n).1 ∧
      Moves (m.progress.put i.toNat ((m.progress.slots.entry i.toNat).take n).2) m m' := by
  obtain ⟨-, hlt, he⟩ := bind_slot_ok he
  obtain ⟨_, m₁, h₁, he⟩ := bind_ok he
  obtain ⟨_, m₂, h₂, he⟩ := bind_ok he
  cases he
  exact ⟨hlt, rfl, (setSlot_ok h₁).quiet ((keeps_traceReady _ _ _).ok h₂)⟩

theorem advanceSlot_ok {i : Int} {n : UInt64} {m m' : Machine κ} {ready : List Callback}
    (he : (Device.advanceSlot i n).exec m = (.ok ready, m')) :
    i.toNat < slotCount ∧ ready = ((m.progress.slots.entry i.toNat).advance n).1 ∧
      Moves (m.progress.put i.toNat ((m.progress.slots.entry i.toNat).advance n).2) m m' := by
  obtain ⟨-, hlt, he⟩ := bind_slot_ok he
  refine ⟨hlt, ?_⟩
  split at he
  · rename_i hback
    obtain ⟨_, m₁, h₁, he⟩ := bind_ok he
    cases he
    have hstay : (m.progress.slots.entry i.toNat).advance n = ([], m.progress.slots.entry i.toNat) := by
      rw [EventSlot.advance, if_pos hback]
    rw [hstay]
    refine ⟨rfl, ?_⟩
    rw [Progress.put, SlotTable.put_entry]
    exact .of_quiet ((keeps_trace _ _).ok h₁)
  · obtain ⟨_, m₁, h₁, he⟩ := bind_ok he
    obtain ⟨_, m₂, h₂, he⟩ := bind_ok he
    obtain ⟨_, m₃, h₃, he⟩ := bind_ok he
    cases he
    have hq : Quiet m₁ m' := ((keeps_traceReady (R := Quiet) _ _ _).ok h₂).trans ((keeps_checkRule _).ok h₃)
    exact ⟨rfl, (setSlot_ok h₁).quiet hq⟩

/-- Everything is taken off a slot that is cleared. -/
theorem clearSlot_ok {i : Nat} {m m' : Machine κ} {ready : List Callback}
    (he : (Device.clearSlot i).exec m = (.ok ready, m')) :
    i < slotCount ∧ ready = ((m.progress.slots.entry i).take Device.endOfTime).1 ∧
      Moves (m.progress.put i
        { ((m.progress.slots.entry i).take Device.endOfTime).2 with last := 0 }) m m' := by
  unfold Device.clearSlot at he
  obtain ⟨cs, m₁, h₁, he⟩ := bind_ok he
  obtain ⟨hlt, hcs, hm₁⟩ := takeCallbacks_ok h₁
  rw [Int.toNat_natCast] at hlt hcs hm₁
  obtain ⟨-, -, he⟩ := bind_slot_ok he
  rw [Int.toNat_natCast] at he
  have hentry : m₁.progress.slots.entry i =
      ((m.progress.slots.entry i).take Device.endOfTime).2 := by
    rw [hm₁.progress, Progress.put, SlotTable.entry_put _ hlt, if_pos rfl]
  rw [hentry] at he
  obtain ⟨_, m₂, h₂, he⟩ := bind_ok he
  obtain ⟨d, m₃, h₃, he⟩ := bind_ok he
  cases h₃
  obtain ⟨_, m₄, h₄, he⟩ := bind_ok he
  obtain ⟨_, m₅, h₅, he⟩ := bind_ok he
  cases he
  refine ⟨hlt, hcs, ?_⟩
  have hmoves := ((hm₁.trans (setSlot_ok h₂)).quiet ((quiet_updateSyncobjs _ _).ok h₄)).trans
    (setSlot_ok h₅)
  have hq := ((quiet_updateSyncobjs _ _).ok h₄).progress
  rw [hq, (setSlot_ok h₂).progress, hm₁.progress] at hmoves
  convert hmoves using 1
  simp [Progress.put, SlotTable.put]

/-! ## All slots -/

theorem callbackAll_ok {c : Callback} {n : Nat} {m m' : Machine κ}
    (he : (Device.callbackAll c).exec m = (.ok n, m')) :
    n = m.progress.slots.busy m.progress.bound ∧
      Moves { m.progress with slots := m.progress.slots.awaitAll m.progress.bound c } m m' := by
  cases he
  exact ⟨rfl, .of_eq rfl rfl rfl rfl⟩

/-- The progress after a stream was bound to the next slot. -/
def Progress.attach (p : Progress) : Progress :=
  { p with
    slots := p.slots.put p.bound { p.slots.entry p.bound with last := 1, lastSubmit := 1 }
    bound := p.bound + 1
    streams := p.streams ++ [p.bound] }

/-- The slot that the next stream gets: the next one, or the newest one again if all are taken. -/
def Progress.next (p : Progress) : Nat := if slotCount ≤ p.bound then p.bound - 1 else p.bound

/-- The progress after a stream was bound, whether or not a slot was left for it. -/
def Progress.join (p : Progress) : Progress :=
  { p with
    slots := p.slots.put p.next { p.slots.entry p.next with last := 1, lastSubmit := 1 }
    bound := p.next + 1
    streams := p.streams ++ [p.next] }

theorem Progress.next_of_lt {p : Progress} (h : p.bound < slotCount) : p.next = p.bound :=
  if_neg (Nat.not_le_of_lt h)

theorem Progress.join_of_lt {p : Progress} (h : p.bound < slotCount) : p.join = p.attach := by
  rw [join, next_of_lt h, attach]

/-- Starting a slot moves it to one; its event records are no part of the progress. -/
theorem startSlot_ok {i : Nat} {m m' : Machine κ} {u : Unit}
    (he : (Device.startSlot i).exec m = (.ok u, m')) :
    Moves (m.progress.put i { m.progress.slots.entry i with last := 1, lastSubmit := 1 }) m m' := by
  unfold Device.startSlot at he
  obtain ⟨d, m₁, h₁, he⟩ := bind_ok he
  cases h₁
  obtain ⟨_, m₂, h₂, he⟩ := bind_ok he
  obtain ⟨_, m₃, h₃, he⟩ := bind_ok he
  obtain ⟨_, m₄, h₄, he⟩ := bind_ok he
  obtain ⟨_, m₅, h₅, he⟩ := bind_ok he
  have hq : Quiet m m₅ := (((keeps_setEventWord (R := Quiet) _ _).ok h₂).trans
    ((keeps_setEventWord _ _).ok h₃)).trans
    (((keeps_setEventWord (R := Quiet) _ _).ok h₄).trans ((keeps_setEventWord _ _).ok h₅))
  obtain ⟨-, -, he⟩ := bind_slot_ok he
  have hm := setSlot_ok he
  rw [Int.toNat_natCast, hq.progress] at hm
  exact (Moves.of_quiet hq).trans hm

theorem takeSlot_ok {i : Nat} {m m' : Machine κ} (he : Device.takeSlot.exec m = (.ok i, m')) :
    i = m.progress.next ∧ m'.device = { m.device with bound := i + 1 } ∧ m'.memory = m.memory ∧
      Moves { m.progress with bound := i + 1 } m m' := by
  unfold Device.takeSlot at he
  obtain ⟨d, m₁, h₁, he⟩ := bind_ok he
  cases h₁
  dsimp only at he
  split at he
  · rename_i hfull
    obtain ⟨_, m₂, h₂, he⟩ := bind_ok he
    cases h₂
    cases he
    exact ⟨(if_pos hfull).symm, rfl, rfl, .of_eq rfl rfl rfl rfl⟩
  · rename_i hfree
    cases he
    exact ⟨(if_neg hfree).symm, rfl, rfl, .of_eq rfl rfl rfl rfl⟩

/-- A new stream takes the next slot, or shares the newest one. -/
theorem attachStream_join {s : Stream} {n : Nat} {m m' : Machine κ}
    (he : (Device.attachStream s).exec m = (.ok n, m')) : Moves m.progress.join m m' := by
  unfold Device.attachStream at he
  obtain ⟨i, m₁, h₁, he⟩ := bind_ok he
  obtain ⟨_, m₂, h₂, he⟩ := bind_ok he
  obtain ⟨d, m₃, h₃, he⟩ := bind_ok he
  cases h₃
  obtain ⟨_, m₄, h₄, he⟩ := bind_ok he
  cases he
  obtain ⟨hi, -, -, htake⟩ := takeSlot_ok h₁
  have hstart := startSlot_ok h₂
  have hlast : Moves { m₂.progress with streams := m₂.progress.streams ++ [i] } m₂ m' := by
    cases h₄
    refine .of_eq ?_ rfl rfl rfl
    show Device.progress _ = _
    simp only [Device.progress, List.map_append, List.map_cons, List.map_nil]
    rfl
  have hm := (htake.trans hstart).trans hlast
  rw [hstart.progress, htake.progress, hi] at hm
  exact hm

/-- A new stream takes the next slot, if there is one left. -/
theorem attachStream_ok {s : Stream} {n : Nat} {m m' : Machine κ}
    (he : (Device.attachStream s).exec m = (.ok n, m')) :
    m'.progress.streams.length = m.progress.streams.length + 1 ∧
      (m.progress.bound < slotCount → Moves m.progress.attach m m') := by
  have hjoin := attachStream_join he
  refine ⟨?_, fun hlt => ?_⟩
  · rw [hjoin.progress]
    exact List.length_append
  · rwa [Progress.join_of_lt hlt] at hjoin

/-! ## Sound progress -/

/-- The slots are sound, and the streams were given the slots in order. -/
structure Progress.Sound (p : Progress) : Prop where
  slots : p.slots.Sound p.bound
  streams : p.streams = List.range p.bound

namespace Progress.Sound

variable {p : Progress}

theorem length_streams (h : p.Sound) : p.streams.length = p.bound := by
  rw [h.streams, List.length_range]

/-- Replacing a slot by one that is as sound.  Slots past the bound may only stay as they are. -/
theorem put (h : p.Sound) {i : Nat} {s : EventSlot}
    (hs : (p.slots.entry i).Sound → s.Sound) (hrest : p.slots.entry i = {} → s = {}) :
    (p.put i s).Sound := by
  refine ⟨?_, h.streams⟩
  rcases Nat.lt_or_ge i p.bound with hlt | hge
  · exact h.slots.put hlt (hs (h.slots.started i hlt))
  · have hsame : p.put i s = p := by
      rw [Progress.put, hrest (h.slots.rest i hge), ← h.slots.rest i hge, SlotTable.put_entry]
    rw [hsame]
    exact h.slots

theorem awaitAll (h : p.Sound) (c : Callback) :
    ({ p with slots := p.slots.awaitAll p.bound c } : Progress).Sound :=
  ⟨h.slots.awaitAll c, h.streams⟩

theorem submit (h : p.Sound) {i : Nat} (hi : i ∈ p.streams) (n : UInt64) :
    (p.put i ((p.slots.entry i).submit n)).Sound := by
  rw [h.streams, List.mem_range] at hi
  exact ⟨h.slots.put hi ((h.slots.started i hi).submit n), h.streams⟩

theorem advance (h : p.Sound) (i : Nat) (n : UInt64) :
    (p.put i ((p.slots.entry i).advance n).2).Sound := by
  refine h.put (fun hs => hs.advance n) fun hrest => ?_
  rw [hrest]
  simp [EventSlot.advance, EventSlot.isBackward, EventSlot.limit, EventSlot.take]

theorem take (h : p.Sound) (i : Nat) (n : UInt64) :
    (p.put i ((p.slots.entry i).take n).2).Sound := by
  refine h.put (fun hs => hs.take n) fun hrest => ?_
  rw [hrest]
  rfl

theorem clear (h : p.Sound) {i : Nat} (hi : i ∈ p.streams) :
    (p.put i { ((p.slots.entry i).take Device.endOfTime).2 with last := 0 }).Sound := by
  rw [h.streams, List.mem_range] at hi
  refine ⟨h.slots.put hi ?_, h.streams⟩
  have hs := h.slots.started i hi
  have := hs.clear
  rwa [← hs.take_max.2] at this

theorem attach (h : p.Sound) (hlt : p.bound < slotCount) : p.attach.Sound := by
  refine ⟨?_, ?_⟩
  · refine h.slots.start hlt ?_
    rw [h.slots.rest p.bound (Nat.le_refl _)]
    exact .initial
  · show p.streams ++ [p.bound] = List.range (p.bound + 1)
    rw [List.range_succ, h.streams]

end Progress.Sound

end Mali
