import Mali.Device.Open
import Mali.Proofs.Waits

/-!
# Mappings made

Every call is kept with its answer, so the mappings that a stretch of calls made can be read off what was kept.
An operation that comes to a mapping made exactly that one, and if it fails it made none: nothing is mapped on the
way that its caller does not learn of.

* `CallRecord.made`, `madeBy`: the mappings that calls made.
* `Mapped`: calls made some mappings, ended none and closed nothing, and the library stays as it is.
* `Maps`: operations that make the mapping they come to.
* `maps_mapPage`, `maps_alloc`, `maps_bindRing`, `maps_mapImported`: those of the library.
-/

namespace Mali

open Op

variable {κ α β : Type}

/-! ## What calls made -/

/-- The mapping that a call made, if it made one. -/
def CallRecord.made : CallRecord → Option Mapping
  | ⟨.mmap _ _ length _ _, .ok addr⟩ => some ⟨addr, length.toInt.toNat⟩
  | _ => none

/-- The mappings that calls made, in the order of the calls. -/
def madeBy (cs : List CallRecord) : List Mapping := cs.filterMap CallRecord.made

@[simp] theorem madeBy_nil : madeBy [] = [] := rfl

@[simp] theorem madeBy_append (cs ds : List CallRecord) : madeBy (cs ++ ds) = madeBy cs ++ madeBy ds :=
  List.filterMap_append

/-- Whether a call ends a mapping or closes a descriptor. -/
def Syscall.releases : Syscall → Bool
  | .munmap _ | .close _ => true
  | _ => false

theorem Syscall.releases_of_plain {c : Syscall} (hc : c.plain = true) : c.releases = false := by
  cases c <;> first | rfl | cases hc

theorem CallRecord.made_of_plain {r : CallRecord} (hc : r.call.plain = true) : r.made = none := by
  obtain ⟨c, answer⟩ := r
  cases c <;> first | rfl | cases hc

/-- Calls that release nothing made some mappings, newest first, and the library stays as it is. -/
structure Mapped (ps : List Mapping) (m m' : Machine κ) : Prop extends SameInside m m' where
  calls : ∃ cs, m'.calls = cs ++ m.calls ∧ (∀ r ∈ cs, r.call.releases = false) ∧ madeBy cs = ps

namespace Mapped

variable {ps qs : List Mapping} {m m₁ m' : Machine κ}

theorem trans (h : Mapped ps m m₁) (h' : Mapped qs m₁ m') : Mapped (qs ++ ps) m m' := by
  obtain ⟨cs, hcs, hkeep, rfl⟩ := h.calls
  obtain ⟨ds, hds, hkeep', rfl⟩ := h'.calls
  refine ⟨Journey.trans h.toSameInside h'.toSameInside, ds ++ cs, ?_, ?_, madeBy_append ds cs⟩
  · rw [hds, hcs, List.append_assoc]
  · exact fun r hr => (List.mem_append.mp hr).elim (hkeep' r) (hkeep r)

/-- Nothing is mapped first. -/
theorem next (h : Mapped [] m m₁) (h' : Mapped qs m₁ m') : Mapped qs m m' := by
  have := h.trans h'
  rwa [List.append_nil] at this

instance : OfTrace (Mapped (κ := κ) []) where
  refl m := ⟨Journey.refl m, [], rfl, by simp, rfl⟩
  trans := trans
  of_trace _ hc hd ha hs hb := ⟨⟨hd, ha, hs, hb⟩, [], hc, by simp, rfl⟩

/-- One call, and what it made. -/
theorem of_call [Kernel κ] {c : Syscall} (hc : c.releases = false) (m : Machine κ) :
    Mapped (CallRecord.made ⟨c, (Kernel.call m.kernel c).1.result⟩).toList m ((call c).exec m).2 := by
  rw [exec_call]
  refine ⟨⟨rfl, rfl, rfl, rfl⟩, [_], rfl, fun r hr => List.mem_singleton.mp hr ▸ hc, ?_⟩
  cases hmade : CallRecord.made ⟨c, (Kernel.call m.kernel c).1.result⟩ <;> simp [madeBy, hmade]

instance [Kernel κ] : Plain (Mapped (κ := κ) []) where
  of_plain c hc m _ := by
    have h := of_call (Syscall.releases_of_plain hc) m
    rwa [CallRecord.made_of_plain (by exact hc)] at h

end Mapped

/-! ## Operations that make a mapping -/

/-- The mapping that an outcome brings, if it is a value. -/
def bringing (g : α → Mapping) : Except Halt α → List Mapping
  | .ok a => [g a]
  | .error _ => []

/-- From a machine, an operation makes the mapping that its value brings, and none if it fails. -/
def MapsAt (g : α → Mapping) (x : Op κ α) (m : Machine κ) : Prop :=
  Survives (x.exec m).1 → Mapped (bringing g (x.exec m).1) m (x.exec m).2

/-- An operation makes the mapping that its value brings, and none if it fails. -/
def Maps (g : α → Mapping) (x : Op κ α) : Prop := ∀ m, MapsAt g x m

section Maps

variable {g : α → Mapping} {h : β → Mapping}

theorem MapsAt.survives {x : Op κ α} {m m' : Machine κ} {r : Except Halt α} (hx : MapsAt g x m)
    (he : x.exec m = (r, m')) (hr : Survives r) : Mapped (bringing g r) m m' := by
  rw [MapsAt, he] at hx
  exact hx hr

theorem mapsAt_of_exec {x : Op κ α} {m : Machine κ}
    (h : ∀ {r m'}, x.exec m = (r, m') → Survives r → Mapped (bringing g r) m m') : MapsAt g x m := h rfl

theorem maps_fail (f : Fault) : Maps g (fail f : Op κ α) := fun m _ => Journey.refl (R := Mapped []) m

/-- What goes before makes no mapping. -/
theorem mapsAt_bind {x : Op κ β} {f : β → Op κ α} {m : Machine κ} (hx : KeepsAt (Mapped []) x m)
    (hf : ∀ b m₁, x.exec m = (.ok b, m₁) → MapsAt g (f b) m₁) : MapsAt g (x >>= f) m := by
  refine mapsAt_of_exec fun {r m'} he hr => ?_
  rcases bind_survives he hr with ⟨f, h₁, rfl⟩ | ⟨b, m₁, h₁, he⟩
  · exact hx.survives h₁ trivial
  · exact (hx.survives h₁ trivial).next ((hf b m₁ h₁).survives he hr)

theorem maps_bind {x : Op κ β} {f : β → Op κ α} (hx : Keeps (Mapped []) x) (hf : ∀ b, Maps g (f b)) :
    Maps g (x >>= f) := fun m => mapsAt_bind (hx m) fun b m₁ _ => hf b m₁

/-- What comes after makes no mapping, cannot fail, and hands the mapping on. -/
theorem mapsAt_bind_value {x : Op κ α} {f : α → Op κ β} {m : Machine κ} (hx : MapsAt g x m)
    (hf : ∀ a, Keeps (Mapped []) (f a)) (hnofault : ∀ a, Faultless (f a))
    (hvalue : ∀ {a b m m'}, (f a).exec m = (.ok b, m') → h b = g a) : MapsAt h (x >>= f) m := by
  refine mapsAt_of_exec fun {r m'} he hr => ?_
  rcases bind_survives he hr with ⟨f, h₁, rfl⟩ | ⟨a, m₁, h₁, he⟩
  · exact hx.survives h₁ trivial
  · obtain ⟨b, rfl⟩ := (hnofault a).value he hr
    rw [bringing, hvalue he]
    exact (hx.survives h₁ trivial).trans ((hf a).ok he)

end Maps

section Kernel

variable [Kernel κ]

/-- A part of the device file is mapped, or an error tells that it is not. -/
theorem mapMemory_ok {offset length : Int64} {prot : Int} {m m' : Machine κ} {r : Except Errno Mapping}
    (he : (mapMemory offset length prot).exec m = (.ok r, m')) : Mapped r.toOption.toList m m' := by
  obtain ⟨d, _, hd, he⟩ := bind_ok he
  cases hd
  have hcall := Mapped.of_call (c := .mmap m.device.fd offset length prot mapShared) rfl m
  obtain ⟨answer, m₁, hanswer, he⟩ := bind_ok he
  rw [hanswer] at hcall
  rw [exec_call] at hanswer
  cases hanswer
  cases hresult : (Kernel.call m.kernel (.mmap m.device.fd offset length prot mapShared)).1.result with
  | ok addr =>
    rw [hresult] at he hcall
    cases he
    exact hcall
  | error e =>
    rw [hresult] at he hcall
    cases he
    exact hcall

theorem returns_mapMemory (offset length : Int64) (prot : Int) :
    Returns (mapMemory offset length prot : Op κ _) := by
  unfold mapMemory
  refine returns_bind returns_device fun d => returns_bind (returns_call _) fun r => ?_
  cases r with
  | ok addr => exact returns_pure _
  | error e => exact returns_pure _

/-- What maps something makes a mapping, if all that it does where that cannot be is to fail. -/
theorem maps_mapMemory {offset length : Int64} {prot : Int} {f : Except Errno Mapping → Op κ Mapping}
    (hok : ∀ p, f (.ok p) = pure p) (herror : ∀ e, Maps id (f (.error e))) :
    Maps id (mapMemory offset length prot >>= f) := by
  intro m hs
  obtain ⟨r, m₁, he⟩ := returns_mapMemory offset length prot m
  have hm := mapMemory_ok he
  rw [exec_bind_of_ok he] at hs ⊢
  cases r with
  | ok p =>
    rw [hok]
    exact hm
  | error e => exact hm.next (herror e m₁ hs)

theorem maps_mapPage (offset : Int64) (prot : Int) (what : String) :
    Maps id (Device.mapPage offset prot what : Op κ Mapping) := by
  unfold Device.mapPage
  exact maps_bind keeps_device fun d => maps_mapMemory (fun _ => rfl) fun _ => maps_fail _

theorem maps_mapRegion (va : UInt64) (length : Int64) (what title : String) :
    Maps id (Device.mapRegion va length what title : Op κ Mapping) := by
  unfold Device.mapRegion Device.mapShared
  exact maps_mapMemory (fun _ => rfl) fun _ => maps_bind (keeps_error _ _) fun _ =>
    maps_bind (keeps_ignore (keeps_freeRegion _)) fun _ => maps_fail _

theorem maps_mapImported (va : UInt64) (size : Int64) :
    Maps id (Device.mapImported va size : Op κ Mapping) := by
  unfold Device.mapImported Device.mapShared
  exact maps_bind (keeps_debug _ _) fun _ => maps_mapMemory (fun _ => rfl) fun _ => maps_fail _

theorem maps_bindRing (s : Stream) : Maps id (Device.bindRing s : Op κ Mapping) := by
  unfold Device.bindRing
  exact maps_bind (keeps_streamRequest _ _ _) fun _ => maps_bind (keeps_context _) fun c =>
    maps_bind (keeps_streamRequest _ _ _) fun cookie => maps_bind keeps_device fun d =>
    maps_mapMemory (fun _ => rfl) fun _ => maps_bind (keeps_error _ _) fun _ => maps_fail _

omit [Kernel κ] in
/-- Only the oldest generation maps a part of a region again, where code is to run. -/
theorem Region.alignExecutable_planned (g : Generation) (pageSize size : Int64) (wish : UInt32)
    (flags : UInt64) (h : hasFlag wish AllocFlag.noExecute = true ∨ g ≠ .old) :
    (Region.planned g pageSize size wish flags).alignExecutable = false := by
  unfold Region.planned
  dsimp only
  split
  · rfl
  · split
    · rename_i hwish hold
      exact absurd hold (h.resolve_left hwish)
    · rfl

omit [Kernel κ] in
theorem faultless_reportAllocated (va : UInt64) (size : Int64) :
    Faultless (Device.reportAllocated va size : Op κ Unit) := by
  unfold Device.reportAllocated
  refine faultless_bind faultless_device fun d => ?_
  split
  · exact faultless_modify _
  · exact faultless_pure ()

/-- A region is mapped once, if no part of it has to be mapped again. -/
theorem mapsAt_alloc {size : Int64} {wish : UInt32} {flags : UInt64} {m : Machine κ}
    (h : hasFlag wish AllocFlag.noExecute = true ∨ m.device.generation ≠ .old) :
    MapsAt Region.cpu (Device.alloc size wish flags) m := by
  unfold Device.alloc
  refine mapsAt_bind (keeps_debug _ _ m) fun _ m₁ hdebug => ?_
  have h₁ : Mapped [] m m₁ := (keeps_debug _ _).ok hdebug
  refine mapsAt_bind (keeps_device m₁) fun d m₂ hdevice => ?_
  cases hdevice
  have halign := Region.alignExecutable_planned m₁.device.generation m₁.device.options.pageSize size wish flags
    (by rwa [h₁.device])
  refine mapsAt_bind (keeps_allocRegion _ _) fun reply m₂ _ => ?_
  simp only [halign, Bool.false_eq_true, if_false]
  have hrest : Maps Region.cpu (do
      let cpu ← Device.mapRegion reply.va (Region.planned m₁.device.generation m₁.device.options.pageSize size
        wish flags).mapLength "GPU BO" "GPU BO"
      let gpu := if reply.flags &&& MemFlag.sameVa != 0 then cpu.address else reply.va
      Device.reportAllocated gpu size
      return ⟨cpu, gpu⟩ : Op κ Region) := by
    refine fun m => mapsAt_bind_value (maps_mapRegion _ _ _ _ m) (fun cpu => ?_) (fun cpu => ?_) fun he => ?_
    · exact keeps_bind (keeps_reportAllocated _ _) fun _ => keeps_pure _
    · exact faultless_bind (faultless_reportAllocated _ _) fun _ => faultless_pure _
    · obtain ⟨_, _, _, he⟩ := bind_ok he
      cases he
      rfl
  split
  · exact maps_bind (keeps_error _ _) (fun _ => maps_bind (keeps_fail _) fun _ => hrest) m₂
  · exact hrest m₂

end Kernel

end Mali
