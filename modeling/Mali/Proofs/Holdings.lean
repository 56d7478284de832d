import Mali.Proofs.OpenClose
import Mali.Proofs.OpenFiles

/-!
# Mappings held

Every mapping that was made and not ended is held in one place: by a page of the device, by a stream, or by a buffer
that is not freed.  Calls make and end mappings, and what an operation makes it either puts into such a place or
ends again; what it ends it takes out of one.

An imported file is mapped before it is known whether there is a buffer for it.  There is one exactly if the file
was imported before, because the handles that own a descriptor are the handles of buffers that are not freed.

* `Leaves`: what calls do to the mappings that there are.
* `Machine.mappings`: the mappings that are held.
* `Machine.Housed`: where the mappings of a command stream device are.
* `Carries`: an operation with mappings in hand before and after it.
* `Conserves`: an operation that leaves no mapping behind.
-/

namespace Mali

open Op

/-! ## Calls -/

/-- The mapping that a call was to end. -/
def CallRecord.ended (r : CallRecord) : Option Mapping :=
  match r.call with
  | .munmap p => some p
  | _ => none

/-- The mappings that calls were to end. -/
def endedBy (cs : List CallRecord) : List Mapping := cs.filterMap CallRecord.ended

theorem CallRecord.made_of_ended {r : CallRecord} {p : Mapping} (h : r.ended = some p) : r.made = none := by
  obtain ⟨c, answer⟩ := r
  cases c <;> first | rfl | cases h

theorem CallRecord.ended_of_made {r : CallRecord} {p : Mapping} (h : r.made = some p) : r.ended = none := by
  obtain ⟨c, answer⟩ := r
  cases c <;> first | rfl | cases h

theorem CallRecord.ended_of_releases {r : CallRecord} (h : r.call.releases = false) : r.ended = none := by
  obtain ⟨c, answer⟩ := r
  cases c <;> first | rfl | cases h

/-- What calls, newest first, make of the mappings that there are.  Only a mapping that there is can be ended. -/
inductive Leaves : List CallRecord → Multiset Mapping → Multiset Mapping → Prop
  | nil (M : Multiset Mapping) : Leaves [] M M
  | other {r : CallRecord} {cs : List CallRecord} {M M' : Multiset Mapping} (hmade : r.made = none)
    (hended : r.ended = none) (h : Leaves cs M M') : Leaves (r :: cs) M M'
  | made {r : CallRecord} {cs : List CallRecord} {M M' : Multiset Mapping} {p : Mapping} (hmade : r.made = some p)
    (h : Leaves cs M M') : Leaves (r :: cs) M (p ::ₘ M')
  | ended {r : CallRecord} {cs : List CallRecord} {M M' : Multiset Mapping} {p : Mapping}
    (hended : r.ended = some p) (h : Leaves cs M (p ::ₘ M')) : Leaves (r :: cs) M M'

namespace Leaves

variable {cs ds : List CallRecord} {M M₁ M' : Multiset Mapping}

theorem trans (h : Leaves cs M M₁) (h' : Leaves ds M₁ M') : Leaves (ds ++ cs) M M' := by
  induction h' with
  | nil => exact h
  | other hmade hended _ ih => exact .other hmade hended (ih h)
  | made hmade _ ih => exact .made hmade (ih h)
  | ended hended _ ih => exact .ended hended (ih h)

/-- Other mappings do not matter. -/
theorem add (h : Leaves cs M M') (N : Multiset Mapping) : Leaves cs (N + M) (N + M') := by
  induction h with
  | nil => exact .nil _
  | other hmade hended _ ih => exact .other hmade hended ih
  | made hmade _ ih =>
    rw [Multiset.add_cons]
    exact .made hmade ih
  | ended hended _ ih =>
    rw [Multiset.add_cons] at ih
    exact .ended hended ih

/-- Calls that end nothing leave what they made beside what there was. -/
theorem of_made (hend : ∀ r ∈ cs, r.ended = none) : Leaves cs M (↑(madeBy cs) + M) := by
  induction cs with
  | nil => simpa using Leaves.nil M
  | cons r cs ih =>
    obtain ⟨hr, hcs⟩ := List.forall_mem_cons.mp hend
    cases h : r.made with
    | none =>
      rw [madeBy, List.filterMap_cons_none h]
      exact .other h hr (ih hcs)
    | some p =>
      rw [madeBy, List.filterMap_cons_some h, ← Multiset.cons_coe, Multiset.cons_add]
      exact .made h (ih hcs)

/-- Calls that make and end nothing leave what there was. -/
theorem of_nothing (h : ∀ r ∈ cs, r.made = none ∧ r.ended = none) (M : Multiset Mapping) : Leaves cs M M := by
  induction cs with
  | nil => exact .nil M
  | cons r cs ih =>
    obtain ⟨hr, hcs⟩ := List.forall_mem_cons.mp h
    exact .other hr.1 hr.2 (ih hcs)

/-- What is left and what was ended are what there was and what was made. -/
theorem balance (h : Leaves cs M M') : M' + ↑(endedBy cs) = M + ↑(madeBy cs) := by
  induction h with
  | nil => rfl
  | other hmade hended _ ih =>
    rw [endedBy, madeBy, List.filterMap_cons_none hended, List.filterMap_cons_none hmade]
    exact ih
  | made hmade _ ih =>
    rw [endedBy, madeBy, List.filterMap_cons_none (CallRecord.ended_of_made hmade),
      List.filterMap_cons_some hmade, ← Multiset.cons_coe, Multiset.cons_add, Multiset.add_cons]
    exact congrArg _ ih
  | ended hended _ ih =>
    rw [endedBy, madeBy, List.filterMap_cons_some hended,
      List.filterMap_cons_none (CallRecord.made_of_ended hended), ← Multiset.cons_coe, Multiset.add_cons,
      ← Multiset.cons_add]
    exact ih

/-- Calls can be taken apart. -/
theorem split (h : Leaves (ds ++ cs) M M') : ∃ M₁, Leaves cs M M₁ ∧ Leaves ds M₁ M' := by
  induction ds generalizing M' with
  | nil => exact ⟨M', h, .nil M'⟩
  | cons d ds ih =>
    cases h with
    | other hmade hended h =>
      obtain ⟨M₁, h₁, h₂⟩ := ih h
      exact ⟨M₁, h₁, .other hmade hended h₂⟩
    | made hmade h =>
      obtain ⟨M₁, h₁, h₂⟩ := ih h
      exact ⟨M₁, h₁, .made hmade h₂⟩
    | ended hended h =>
      obtain ⟨M₁, h₁, h₂⟩ := ih h
      exact ⟨M₁, h₁, .ended hended h₂⟩

/-- When a mapping is ended it was made, or there at the start, more often than it was ended before. -/
theorem count_ended_lt {r : CallRecord} {p : Mapping} (h : Leaves (ds ++ r :: cs) M M')
    (hr : r.ended = some p) : (endedBy cs).count p < M.count p + (madeBy cs).count p := by
  obtain ⟨M₁, h, -⟩ := h.split
  cases h with
  | other _ hended _ => rw [hr] at hended; cases hended
  | made hmade _ => rw [CallRecord.ended_of_made hmade] at hr; cases hr
  | @ended _ _ _ _ q hended h =>
    obtain rfl : q = p := Option.some.inj (hended.symm.trans hr)
    have hcount := congrArg (Multiset.count q) h.balance
    simp only [Multiset.count_add, Multiset.count_cons_self, Multiset.coe_count] at hcount
    omega

end Leaves

/-! ## What is held -/

variable {κ : Type}

/-- The pages that were prepared. -/
def Preparation.pages (p : Preparation) : List Mapping :=
  p.tracking.toList ++ p.userRegisters.toList ++ p.eventMemory.toList

/-- The pages that the streams of a device have. -/
def Device.rings (d : Device) : List Mapping := d.streams.filterMap (·.userIo)

/-- The mappings that buffers have. -/
def Allocator.mapped (a : Allocator) : List Mapping := a.buffers.filterMap (·.cpu)

/-- A handle stands for one buffer at most, also after it was entered. -/
theorem Allocator.nodup_enter {a : Allocator} (h : (a.arena.map (·.1)).Nodup) (handle x : Nat) :
    ((a.enter handle x).arena.map (·.1)).Nodup := by
  show ((a.arena.filter (·.1 ≠ handle) ++ [(handle, x)]).map (·.1)).Nodup
  rw [List.map_append, List.nodup_append]
  refine ⟨h.sublist (List.filter_sublist.map _), List.nodup_singleton _, fun k hk k' hk' => ?_⟩
  obtain ⟨e, he, rfl⟩ := List.mem_map.mp hk
  rw [List.mem_singleton.mp hk']
  exact of_decide_eq_true (List.mem_filter.mp he).2

/-- The mappings that are held. -/
def Machine.mappings (m : Machine κ) : Multiset Mapping :=
  ↑m.device.preparation.pages + ↑m.device.rings + ↑m.allocator.mapped

/-- Where the mappings of a command stream device are.  The handle of an import that is going on owns a descriptor
and stands for no buffer yet. -/
structure Machine.Housed (m : Machine κ) (pending : Option Nat := none) : Prop where
  generation : m.device.generation = .csf
  imports : ∀ k fd, m.Owns k fd → 0 ≤ fd → pending = some k ∨ ∃ x, m.allocator.lookup? k = some x
  live : ∀ k x, m.allocator.lookup? k = some x → ∃ fd, m.Owns k fd
  pending : ∀ k, pending = some k → m.allocator.lookup? k = none ∧ ∃ fd, m.Owns k fd
  /-- A buffer has its mapping until it is freed. -/
  buffers : ∀ b ∈ m.allocator.buffers, b.cpu.isSome = !b.freed
  arena : (m.allocator.arena.map (·.1)).Nodup

/-- An operation has mappings in hand before and after it: what its calls leave is what is held and in hand. -/
structure Carries (a b : Multiset Mapping) (m m' : Machine κ) : Prop where
  preparation : m'.device.preparation = m.device.preparation
  calls : ∃ cs, m'.calls = cs ++ m.calls ∧ Leaves cs (a + m.mappings) (b + m'.mappings)

namespace Carries

variable {a b c : Multiset Mapping} {m m₁ m' : Machine κ}

theorem trans (h : Carries a b m m₁) (h' : Carries b c m₁ m') : Carries a c m m' := by
  obtain ⟨cs, hcs, hleaves⟩ := h.calls
  obtain ⟨ds, hds, hleaves'⟩ := h'.calls
  exact ⟨h'.preparation.trans h.preparation, ds ++ cs, by rw [hds, hcs, List.append_assoc],
    hleaves.trans hleaves'⟩

/-- What is held and in hand stays the same without a call. -/
theorem of_eq (hp : m'.device.preparation = m.device.preparation) (hc : m'.calls = m.calls)
    (h : a + m.mappings = b + m'.mappings) : Carries a b m m' := ⟨hp, [], hc, by rw [h]; exact .nil _⟩

end Carries

/-- An operation leaves no mapping behind. -/
def Conserves (m m' : Machine κ) : Prop := m.Housed → m'.Housed ∧ Carries 0 0 m m'

instance : Journey (Conserves (κ := κ)) where
  refl _ h := ⟨h, .of_eq rfl rfl rfl⟩
  trans h h' hm := ⟨(h' (h hm).1).1, (h hm).2.trans (h' (h hm).1).2⟩

/-! ## What makes no difference -/

/-- Calls made and ended no mapping. -/
def MapsNothing (m m' : Machine κ) : Prop := ∃ cs, m'.calls = cs ++ m.calls ∧ ∀ r ∈ cs, r.made = none ∧ r.ended = none

namespace MapsNothing

variable {m m' : Machine κ}

theorem of_calls (h : m'.calls = m.calls) : MapsNothing m m' := ⟨[], h, by simp⟩

instance : OfTrace (MapsNothing (κ := κ)) where
  refl _ := of_calls rfl
  trans h h' := by
    obtain ⟨cs, hcs, hall⟩ := h
    obtain ⟨ds, hds, hall'⟩ := h'
    exact ⟨ds ++ cs, by rw [hds, hcs, List.append_assoc], List.forall_mem_append.mpr ⟨hall', hall⟩⟩
  of_trace _ hc _ _ _ _ := of_calls hc

theorem of_modify {f : Machine κ → Machine κ} (h : ∀ m, (f m).calls = m.calls) :
    Keeps MapsNothing (modify f : Op κ Unit) := keeps_modify fun m => of_calls (h m)

theorem of_call [Kernel κ] {c : Syscall} (hmap : ∀ fd offset length prot flags, c ≠ .mmap fd offset length prot flags)
    (hend : ∀ p, c ≠ .munmap p) : Keeps (MapsNothing (κ := κ)) (call c) := by
  intro m _
  rw [exec_call]
  refine ⟨[_], rfl, fun r hr => ?_⟩
  rw [List.mem_singleton.mp hr]
  cases c with
  | mmap => exact absurd rfl (hmap _ _ _ _ _)
  | munmap => exact absurd rfl (hend _)
  | _ => exact ⟨rfl, rfl⟩

end MapsNothing

/-- Everything stays where it is. -/
structure SameHoldings (m m' : Machine κ) : Prop where
  fixtures : m'.device.fixtures = m.device.fixtures
  arena : m'.allocator.arena = m.allocator.arena
  holds : m'.allocator.buffers.map Buffer.hold = m.allocator.buffers.map Buffer.hold

theorem Device.rings_eq (d : Device) : d.rings = (d.streams.map (·.userIo)).filterMap id := by
  rw [rings, List.filterMap_map, Function.id_comp]

theorem Allocator.mapped_eq (a : Allocator) : a.mapped = (a.buffers.map Buffer.hold).filterMap (·.2.1) := by
  rw [mapped, List.filterMap_map]
  rfl

theorem Device.preparation_of_fixtures {d d' : Device} (h : d'.fixtures = d.fixtures) :
    d'.preparation = d.preparation := by
  simp only [fixtures, Prod.mk.injEq, List.cons.injEq] at h
  obtain ⟨⟨hfd, hgeneration, hbegun⟩, -, ⟨htracking, huser, hevent, -⟩, -⟩ := h
  rw [preparation, preparation, hfd, hgeneration, hbegun, htracking, huser, hevent]

/-- A buffer that holds on to its mapping until it is freed. -/
theorem buffers_of_holds {bs : List Buffer} : (∀ b ∈ bs, b.cpu.isSome = !b.freed) ↔
    ∀ e ∈ bs.map Buffer.hold, e.2.1.isSome = !e.2.2 := by
  rw [List.forall_mem_map]
  rfl

namespace SameHoldings

variable {m m' : Machine κ}

theorem trans {m₁ : Machine κ} (h : SameHoldings m m₁) (h' : SameHoldings m₁ m') : SameHoldings m m' :=
  ⟨h'.fixtures.trans h.fixtures, h'.arena.trans h.arena, h'.holds.trans h.holds⟩

theorem of_inside (h : SameInside m m') : SameHoldings m m' :=
  ⟨congrArg Device.fixtures h.device, congrArg Allocator.arena h.allocator, by rw [h.allocator]⟩

theorem handles (h : SameHoldings m m') : m'.device.handles = m.device.handles := congrArg (·.2.1) h.fixtures

theorem owns_iff (h : SameHoldings m m') {k : Nat} {fd : Int} : m'.Owns k fd ↔ m.Owns k fd := by
  rw [Machine.Owns, h.handles, Machine.Owns]

theorem lookup? (h : SameHoldings m m') (k : Nat) : m'.allocator.lookup? k = m.allocator.lookup? k := by
  rw [Allocator.lookup?, h.arena, Allocator.lookup?]

theorem preparation (h : SameHoldings m m') : m'.device.preparation = m.device.preparation :=
  Device.preparation_of_fixtures h.fixtures

theorem mappings (h : SameHoldings m m') : m'.mappings = m.mappings := by
  have hstreams : m'.device.streams.map (·.userIo) = m.device.streams.map (·.userIo) :=
    congrArg (·.2.2.2) h.fixtures
  rw [Machine.mappings, Machine.mappings, h.preparation, Device.rings_eq, Device.rings_eq, hstreams,
    Allocator.mapped_eq, Allocator.mapped_eq, h.holds]

theorem housed (h : SameHoldings m m') {o : Option Nat} (hm : m.Housed o) : m'.Housed o where
  generation := (congrArg Preparation.generation h.preparation).trans hm.generation
  imports k fd ho hfd := by
    rw [h.lookup?]
    exact hm.imports k fd (h.owns_iff.mp ho) hfd
  live k x hx := by
    obtain ⟨fd, ho⟩ := hm.live k x (h.lookup? k ▸ hx)
    exact ⟨fd, h.owns_iff.mpr ho⟩
  pending k hk := by
    obtain ⟨hnone, fd, ho⟩ := hm.pending k hk
    exact ⟨(h.lookup? k).trans hnone, fd, h.owns_iff.mpr ho⟩
  buffers := by
    rw [buffers_of_holds, h.holds]
    exact buffers_of_holds.mp hm.buffers
  arena := by
    rw [h.arena]
    exact hm.arena

end SameHoldings

/-- Everything stays where it is, and calls made and ended no mapping. -/
structure StaysPut (m m' : Machine κ) : Prop extends SameHoldings m m' where
  calls : MapsNothing m m'

namespace StaysPut

variable {m m' : Machine κ}

instance : Journey (StaysPut (κ := κ)) where
  refl m := ⟨⟨rfl, rfl, rfl⟩, Journey.refl m⟩
  trans h h' := ⟨h.toSameHoldings.trans h'.toSameHoldings, Journey.trans h.calls h'.calls⟩

instance : Domestic (StaysPut (κ := κ)) where
  of_domestic _ hc _ hd ha hb _ :=
    ⟨⟨congrArg Device.fixtures hd, congrArg Prod.fst ha, holds_of_kept hb⟩, .of_calls hc⟩

instance : Slotwise (StaysPut (κ := κ)) where
  of_slots _ hc ha hd := ⟨⟨hd, by rw [ha], by rw [ha]⟩, .of_calls hc⟩

theorem of_call [Kernel κ] {c : Syscall} (hmap : ∀ fd offset length prot flags, c ≠ .mmap fd offset length prot flags)
    (hend : ∀ p, c ≠ .munmap p) : Keeps (StaysPut (κ := κ)) (call c) :=
  fun m hs => ⟨⟨rfl, rfl, rfl⟩, MapsNothing.of_call hmap hend m hs⟩

instance [Kernel κ] : Plain (StaysPut (κ := κ)) where
  of_plain c hc := of_call (by rintro _ _ _ _ _ rfl; cases hc) (by rintro _ rfl; cases hc)

theorem carries (h : StaysPut m m') (a : Multiset Mapping) : Carries a a m m' := by
  obtain ⟨cs, hcs, hall⟩ := h.calls
  refine ⟨h.preparation, cs, hcs, ?_⟩
  rw [h.mappings]
  exact .of_nothing hall _

theorem conserves (h : StaysPut m m') : Conserves m m' := fun hm => ⟨h.housed hm, h.carries 0⟩

end StaysPut

instance : Domestic (Conserves (κ := κ)) where
  of_domestic hk hc hh hd ha hb hs := (Domestic.of_domestic (R := StaysPut) hk hc hh hd ha hb hs).conserves

instance : Slotwise (Conserves (κ := κ)) where
  of_slots hk hc ha hd := (Slotwise.of_slots (R := StaysPut) hk hc ha hd).conserves

instance [Kernel κ] : Plain (Conserves (κ := κ)) where
  of_plain c hc := (Plain.of_plain (R := StaysPut) c hc).mono fun _ _ => StaysPut.conserves

/-- Some mappings were made, and everything stays where it is. -/
theorem Mapped.carries {ps : List Mapping} {m m' : Machine κ} (h : Mapped ps m m') (a : Multiset Mapping) :
    Carries a (↑ps + a) m m' := by
  have hsame := SameHoldings.of_inside h.toSameInside
  obtain ⟨cs, hcs, hkeep, rfl⟩ := h.calls
  refine ⟨hsame.preparation, cs, hcs, ?_⟩
  rw [hsame.mappings, Multiset.add_assoc]
  exact .of_made fun r hr => CallRecord.ended_of_releases (hkeep r hr)

theorem Mapped.housed {ps : List Mapping} {m m' : Machine κ} (h : Mapped ps m m') {o : Option Nat}
    (hm : m.Housed o) : m'.Housed o := (SameHoldings.of_inside h.toSameInside).housed hm

end Mali
