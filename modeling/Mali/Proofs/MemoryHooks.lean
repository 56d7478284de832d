import Mali.Proofs.FailedRegions
import Mali.Proofs.SearchBooks
import Mali.Proofs.Sessions

/-!
# What memory hooks are told

The owner of the memory hooks is told of a region when a buffer is made of it, and of a region that a request gave
back when a buffer is freed.  So every buffer that was created is announced once.  It is revoked at most once, and only
if the kernel has to be asked to give its region back: a region that has one address for both sides goes with its
mapping, and nobody is told.  An imported buffer is never announced, but it is revoked if its region has to be given
back.

What an operation does to the counts does not depend on where it starts, so runs are told by adding up.  The two sides
are compared by address.

* `Parcel`, `Machine.tally`: what buffers have of GPU memory, and how many have it in some way.
* `Report.announces`, `Report.revokes`, `CallRecord.refusesFree`: what is counted.
* `Unheard`: nothing was told, and buffers have what they had.
* `Told`, `Tells`: how what was told goes with what buffers have, and that it does.
* `tells_free`, `tells_allocate`: freeing a buffer and making one.
* `operating_tells`: everything that a program asks for goes along with it.
* `Turn`, `course_of_turns`: runs, and the steps that they are made of.
* `hooks_balance`: what was told along a run.
-/

namespace Mali

open Op

/-! ## What is counted -/

/-- What a buffer has of GPU memory: an address, whether the kernel has to be asked to give its region back, whether it
was imported, and whether it was freed. -/
structure Parcel where
  gpu : UInt64
  freeRegion : Bool
  shared : Bool
  freed : Bool
  deriving DecidableEq, Repr

def Buffer.parcel (b : Buffer) : Parcel := ⟨b.gpu, b.freeRegion, b.has BufferFlag.shared, b.freed⟩

namespace Parcel

variable (va : UInt64)

/-- A buffer that was created has an address. -/
def madeAt (p : Parcel) : Bool := p.gpu == va && !p.shared

/-- The region at an address has to be given back. -/
def owedAt (p : Parcel) : Bool := p.gpu == va && p.freeRegion

/-- The region of an imported buffer has to be given back. -/
def borrowedAt (p : Parcel) : Bool := p.owedAt va && p.shared

/-- The region of a buffer that was freed had to be given back. -/
def returnedAt (p : Parcel) : Bool := p.owedAt va && p.freed

/-- A buffer is freed. -/
def free (p : Parcel) : Parcel := { p with freed := true }

@[simp] theorem freed_free (p : Parcel) : p.free.freed = true := rfl

@[simp] theorem madeAt_free (p : Parcel) : p.free.madeAt va = p.madeAt va := rfl

@[simp] theorem owedAt_free (p : Parcel) : p.free.owedAt va = p.owedAt va := rfl

@[simp] theorem borrowedAt_free (p : Parcel) : p.free.borrowedAt va = p.borrowedAt va := rfl

@[simp] theorem returnedAt_free (p : Parcel) : p.free.returnedAt va = p.owedAt va := Bool.and_true _

variable {va} {p : Parcel}

theorem owedAt_of_returnedAt (h : p.returnedAt va = true) : p.owedAt va = true := by
  rw [returnedAt, Bool.and_eq_true] at h
  exact h.1

theorem freeRegion_of_owedAt (h : p.owedAt va = true) : p.freeRegion = true := by
  rw [owedAt, Bool.and_eq_true] at h
  exact h.2

theorem owedAt_eq (hregion : p.freeRegion = true) : p.owedAt va = (p.gpu == va) := by
  rw [owedAt, hregion, Bool.and_true]

end Parcel

/-- A hook told of a new region at an address. -/
def Report.announces (va : UInt64) : Report → Bool
  | allocated va' _ => va' == va
  | _ => false

/-- A hook told of a freed region at an address. -/
def Report.revokes (va : UInt64) : Report → Bool
  | freed va' => va' == va
  | _ => false

/-- A region was to be given back, and was not.  The oldest generation also answers with codes. -/
def CallRecord.refusesFree : CallRecord → Bool
  | ⟨.ioctl _ (.memFree _), .error _⟩ | ⟨.ioctl _ (.old _ (.memFree _)), .error _⟩ => true
  | ⟨.ioctl _ (.old _ (.memFree _)), .ok reply⟩ => reply.code != 0
  | _ => false

namespace Machine

variable {κ : Type} (m : Machine κ)

def parcels : List Parcel := m.allocator.buffers.map Buffer.parcel

/-- How many buffers have something. -/
def tally (p : Parcel → Bool) : Nat := m.parcels.countP p

end Machine

/-! ## Nothing told -/

variable {κ : Type}

/-- Something was told, by some calls, and buffers have what they had. -/
structure Utters (told : List Report) (cs : List CallRecord) (m m' : Machine κ) : Prop where
  reports : m'.hookReports = told ++ m.hookReports
  calls : m'.calls = cs ++ m.calls
  hooks : m'.device.options.hooks = m.device.options.hooks
  parcels : m'.parcels = m.parcels
  frees : m'.allocator.frees = m.allocator.frees

namespace Utters

variable {told told' : List Report} {cs cs' : List CallRecord} {m m₁ m' : Machine κ}

theorem trans (h : Utters told cs m m₁) (h' : Utters told' cs' m₁ m') : Utters (told' ++ told) (cs' ++ cs) m m' where
  reports := by rw [h'.reports, h.reports, List.append_assoc]
  calls := by rw [h'.calls, h.calls, List.append_assoc]
  hooks := h'.hooks.trans h.hooks
  parcels := h'.parcels.trans h.parcels
  frees := h'.frees.trans h.frees

/-- The library stays as it is. -/
theorem of_inside (h : SameInside m m') (hr : m'.hookReports = told ++ m.hookReports) (hc : m'.calls = cs ++ m.calls) :
    Utters told cs m m' where
  reports := hr
  calls := hc
  hooks := by rw [h.device]
  parcels := by rw [Machine.parcels, h.allocator, Machine.parcels]
  frees := by rw [h.allocator]

end Utters

/-- Nothing was told, and buffers have what they had. -/
def Unheard (m m' : Machine κ) : Prop := ∃ cs, Utters [] cs m m'

namespace Unheard

variable {m m₁ m' : Machine κ}

theorem of_same (hr : m'.hookReports = m.hookReports) (hc : m'.calls = m.calls)
    (hd : m'.device.options = m.device.options) (hp : m'.parcels = m.parcels)
    (hf : m'.allocator.frees = m.allocator.frees) : Unheard m m' := ⟨[], hr, hc, by rw [hd], hp, hf⟩

theorem trans (h : Unheard m m₁) (h' : Unheard m₁ m') : Unheard m m' := by
  obtain ⟨cs, h⟩ := h
  obtain ⟨cs', h'⟩ := h'
  exact ⟨cs' ++ cs, h.trans h'⟩

instance : Journey (Unheard (κ := κ)) where
  refl _ := of_same rfl rfl rfl rfl rfl
  trans := trans

/-- What buffers keep says what they have of GPU memory. -/
theorem parcels_of_kept {bs bs' : List Buffer} (h : bs'.map Buffer.kept = bs.map Buffer.kept) :
    bs'.map Buffer.parcel = bs.map Buffer.parcel := by
  have hparcel : Buffer.parcel =
      (fun k => ⟨k.2.1, k.2.2.1, hasFlag k.2.2.2 BufferFlag.shared, k.1.2.2⟩ : _ → Parcel) ∘ Buffer.kept := rfl
  rw [hparcel, ← List.map_map, ← List.map_map, h]

instance : Domestic (Unheard (κ := κ)) where
  of_domestic _ hc hr hd ha hb _ :=
    of_same hr hc (congrArg Device.options hd) (parcels_of_kept hb) (congrArg Prod.snd ha)

instance : Slotless (Unheard (κ := κ)) where
  of_pace _ _ _ := of_same rfl rfl rfl rfl rfl

variable [Kernel κ]

theorem of_call (c : Syscall) : Keeps (Unheard (κ := κ)) (call c) := fun _ _ => ⟨[_], rfl, rfl, rfl, rfl, rfl⟩

instance : Plain (Unheard (κ := κ)) where
  of_plain c _ := of_call c

instance : Remaps (Unheard (κ := κ)) where
  of_mmap _ _ _ _ _ := of_call _
  of_munmap _ := of_call _

instance : Closes (Unheard (κ := κ)) where
  of_close _ := of_call _

end Unheard

theorem unheard_modifyAllocator {f : Allocator → Allocator} (hb : ∀ a, (f a).buffers = a.buffers)
    (hf : ∀ a, (f a).frees = a.frees) : Keeps (Unheard (κ := κ)) (modifyAllocator f) :=
  keeps_modify fun m => .of_same rfl rfl rfl (by rw [Machine.parcels, Machine.parcels, hb]) (hf m.allocator)

theorem unheard_modifyBuffer (x : Nat) {f : Buffer → Buffer} (hf : ∀ b, (f b).parcel = b.parcel) :
    Keeps (Unheard (κ := κ)) (modifyBuffer x f) :=
  keeps_modify fun m => .of_same rfl rfl rfl (map_modify_eq Buffer.parcel hf m.allocator.buffers x) rfl

/-- A change of a device that leaves the hooks alone. -/
theorem unheard_modifyDevice {f : Device → Device} (hf : ∀ d, (f d).options = d.options) :
    Keeps (Unheard (κ := κ)) (modifyDevice f) := keeps_modify fun m => .of_same rfl rfl (hf m.device) rfl rfl

theorem unheard_allocHandle (va : UInt64) (fd : Int) : Keeps (Unheard (κ := κ)) (Device.allocHandle va fd) :=
  keeps_allocHandle_of (fun _ => unheard_modifyDevice fun _ => rfl) va fd

section Kernel

variable [Kernel κ]

theorem unheard_freeHandle (handle : Int) : Keeps (Unheard (κ := κ)) (Device.freeHandle handle) :=
  keeps_freeHandle_of (fun _ => unheard_modifyDevice fun _ => rfl) handle

theorem unheard_unmapBuffer (x : Nat) : Keeps (Unheard (κ := κ)) (Allocator.unmapBuffer x) :=
  keeps_unmapBuffer_of (unheard_modifyBuffer x fun _ => rfl)

end Kernel

/-! ## What was told -/

theorem Machine.returned_le_owed (m : Machine κ) (va : UInt64) :
    m.tally (·.returnedAt va) ≤ m.tally (·.owedAt va) :=
  List.countP_mono_left fun _ _ => Parcel.owedAt_of_returnedAt

/-- What was told, by some calls, goes with what buffers have at an address.  A buffer that is freed twice is counted
twice. -/
structure Adds (va : UInt64) (told : List Report) (cs : List CallRecord) (m m' : Machine κ) : Prop where
  reports : m'.hookReports = told ++ m.hookReports
  calls : m'.calls = cs ++ m.calls
  hooks : m'.device.options.hooks = m.device.options.hooks
  made : m'.tally (·.madeAt va) = m.tally (·.madeAt va) + told.countP (·.announces va)
  /-- New regions that have to be given back were made or borrowed. -/
  owed : m'.tally (·.owedAt va) + m.tally (·.madeAt va) + m.tally (·.borrowedAt va) ≤
    m.tally (·.owedAt va) + m'.tally (·.madeAt va) + m'.tally (·.borrowedAt va)
  borrowed : m.tally (·.borrowedAt va) ≤ m'.tally (·.borrowedAt va)
  frees : m.allocator.frees + m'.tally (·.freed) ≤ m'.allocator.frees + m.tally (·.freed)
  returned : m'.tally (·.returnedAt va) ≤
    m.tally (·.returnedAt va) + told.countP (·.revokes va) + cs.countP (·.refusesFree)
  revoked : told.countP (·.revokes va) + m.tally (·.returnedAt va) + m.allocator.frees + m'.tally (·.freed) ≤
    m'.tally (·.returnedAt va) + m'.allocator.frees + m.tally (·.freed)

/-- At some moment, what was revoked by then had been announced, or was there before, or was borrowed. -/
def Covered (va : UInt64) (earlier : List Report) (m m' : Machine κ) : Prop :=
  earlier.countP (·.revokes va) + m.tally (·.returnedAt va) + m.tally (·.borrowedAt va) + m.allocator.frees +
      m'.tally (·.freed) ≤
    earlier.countP (·.announces va) + m.tally (·.owedAt va) + m'.tally (·.borrowedAt va) + m'.allocator.frees +
      m.tally (·.freed)

/-- That is so all along. -/
structure Told (va : UInt64) (told : List Report) (cs : List CallRecord) (m m' : Machine κ) : Prop
    extends Adds va told cs m m' where
  covered : ∀ later earlier, told = later ++ earlier → Covered va earlier m m'

section

variable {va : UInt64} {told told' : List Report} {cs cs' : List CallRecord} {m m₁ m' : Machine κ}

namespace Adds

theorem covered_all (h : Adds va told cs m m') : Covered va told m m' := by
  have hmade := h.made
  have howed := h.owed
  have hrevoked := h.revoked
  have hreturned := m'.returned_le_owed va
  unfold Covered
  omega

theorem covered_nil (h : Adds va told cs m m') : Covered va [] m m' := by
  have hborrowed := h.borrowed
  have hfrees := h.frees
  have hreturned := m.returned_le_owed va
  unfold Covered
  rw [List.countP_nil, List.countP_nil]
  omega

/-- One report at most was told. -/
theorem to_told (h : Adds va told cs m m') (hshort : told.length ≤ 1) : Told va told cs m m' := by
  refine ⟨h, fun later earlier heq => ?_⟩
  cases later with
  | nil =>
    obtain rfl : told = earlier := heq
    exact h.covered_all
  | cons r later =>
    have hnil : earlier = [] := by
      rw [heq, List.cons_append, List.length_cons, List.length_append] at hshort
      exact List.eq_nil_of_length_eq_zero (by omega)
    exact hnil ▸ h.covered_nil

/-- A new buffer is announced exactly if it was created. -/
theorem of_append {p : Parcel} (hreports : m'.hookReports = told ++ m.hookReports) (hcalls : m'.calls = cs ++ m.calls)
    (hhooks : m'.device.options.hooks = m.device.options.hooks) (hparcels : m'.parcels = m.parcels ++ [p])
    (hfreed : p.freed = false) (hfrees : m'.allocator.frees = m.allocator.frees)
    (hannounces : told.countP (·.announces va) = if p.madeAt va then 1 else 0)
    (hrevokes : told.countP (·.revokes va) = 0) : Adds va told cs m m' := by
  have htally (q : Parcel → Bool) : m'.tally q = m.tally q + if q p then 1 else 0 := by
    rw [Machine.tally, hparcels, List.countP_append, List.countP_singleton, Machine.tally]
  have hreturned : p.returnedAt va = false := by rw [Parcel.returnedAt, hfreed, Bool.and_false]
  have howed : (if p.owedAt va then 1 else 0) ≤ (if p.madeAt va then 1 else 0) + if p.borrowedAt va then 1 else 0 := by
    rw [Parcel.borrowedAt, Parcel.madeAt, Parcel.owedAt]
    cases p.gpu == va <;> cases p.shared <;> cases p.freeRegion <;> decide
  constructor
  case reports => exact hreports
  case calls => exact hcalls
  case hooks => exact hhooks
  case made => rw [htally, hannounces]
  case owed =>
    rw [htally, htally, htally]
    omega
  case borrowed =>
    rw [htally]
    exact Nat.le_add_right _ _
  case frees => rw [htally, hfrees, hfreed, if_neg Bool.false_ne_true, Nat.add_zero]
  case returned =>
    rw [htally, hreturned, if_neg Bool.false_ne_true]
    omega
  case revoked =>
    rw [htally, htally, hreturned, hfreed, hfrees, hrevokes, if_neg Bool.false_ne_true]
    omega

/-- A buffer is freed.  Its region is revoked if it had to be given back, unless the kernel refused. -/
theorem of_freed {x : Nat} {p : Parcel} (hreports : m'.hookReports = told ++ m.hookReports)
    (hcalls : m'.calls = cs ++ m.calls) (hhooks : m'.device.options.hooks = m.device.options.hooks)
    (hx : m.parcels[x]? = some p) (hparcels : m'.parcels = m.parcels.modify x Parcel.free)
    (hfrees : m'.allocator.frees = m.allocator.frees + 1)
    (htold : told = [] ∧ (p.freeRegion = true → 0 < cs.countP (·.refusesFree)) ∨
      told = [.freed p.gpu] ∧ p.freeRegion = true) : Adds va told cs m m' := by
  have htally (q : Parcel → Bool) : m'.tally q + (if q p then 1 else 0) = m.tally q + if q p.free then 1 else 0 := by
    rw [Machine.tally, hparcels, Machine.tally]
    exact countP_modify hx
  have hsame {q : Parcel → Bool} (hq : q p.free = q p) : m'.tally q = m.tally q := by
    have := htally q
    rw [hq] at this
    omega
  have hmade : m'.tally (·.madeAt va) = m.tally (·.madeAt va) := hsame (Parcel.madeAt_free va p)
  have howed : m'.tally (·.owedAt va) = m.tally (·.owedAt va) := hsame (Parcel.owedAt_free va p)
  have hborrowed : m'.tally (·.borrowedAt va) = m.tally (·.borrowedAt va) := hsame (Parcel.borrowedAt_free va p)
  have hended : m'.tally (·.freed) + (if p.freed then 1 else 0) = m.tally (·.freed) + 1 := htally (·.freed)
  have hreturned : m'.tally (·.returnedAt va) + (if p.returnedAt va then 1 else 0) =
      m.tally (·.returnedAt va) + if p.owedAt va then 1 else 0 := by
    simpa only [Parcel.returnedAt_free] using htally (·.returnedAt va)
  have hannounces : told.countP (·.announces va) = 0 := by
    rcases htold with ⟨rfl, -⟩ | ⟨rfl, -⟩ <;> rfl
  have hmost : told.countP (·.revokes va) ≤ if p.owedAt va then 1 else 0 := by
    rcases htold with ⟨rfl, -⟩ | ⟨rfl, hregion⟩
    · exact Nat.zero_le _
    · rw [List.countP_singleton, Parcel.owedAt_eq hregion]
      exact Nat.le_refl _
  have hleast : (if p.owedAt va then 1 else 0) ≤ told.countP (·.revokes va) + cs.countP (·.refusesFree) := by
    rcases htold with ⟨rfl, hrefused⟩ | ⟨rfl, hregion⟩
    · split
      · have := hrefused (Parcel.freeRegion_of_owedAt ‹_›)
        omega
      · exact Nat.zero_le _
    · rw [List.countP_singleton, Parcel.owedAt_eq hregion]
      exact Nat.le_add_right _ _
  refine ⟨hreports, hcalls, hhooks, by omega, by omega, by omega, ?_, ?_, ?_⟩
  · split at hended <;> omega
  all_goals
    cases hp : p.owedAt va <;> cases hf : p.freed <;>
      simp only [Parcel.returnedAt, hp, hf, Bool.and_self, Bool.and_false, Bool.and_true, Bool.false_eq_true, if_true,
        if_false] at hended hreturned hmost hleast ⊢ <;>
      omega

end Adds

namespace Told

/-- What goes with two parts of what was told goes with all of it. -/
theorem trans (h : Told va told cs m m₁) (h' : Told va told' cs' m₁ m') : Told va (told' ++ told) (cs' ++ cs) m m' := by
  have hfrees := h.frees
  have hfrees' := h'.frees
  have hborrowed := h.borrowed
  have hborrowed' := h'.borrowed
  have hmade := h.made
  have hmade' := h'.made
  have howed := h.owed
  have howed' := h'.owed
  have hreturned := h.returned
  have hreturned' := h'.returned
  have hrevoked := h.revoked
  have hrevoked' := h'.revoked
  refine ⟨⟨?_, ?_, h'.hooks.trans h.hooks, ?_, by omega, by omega, by omega, ?_, ?_⟩, fun later earlier heq => ?_⟩
  · rw [h'.reports, h.reports, List.append_assoc]
  · rw [h'.calls, h.calls, List.append_assoc]
  · rw [List.countP_append]
    omega
  · rw [List.countP_append, List.countP_append]
    omega
  · rw [List.countP_append]
    omega
  · rcases List.append_eq_append_iff.mp heq with ⟨middle, -, hearlier⟩ | ⟨middle, hlater, rfl⟩
    · have hcovered := h.covered middle earlier hearlier
      unfold Covered at hcovered ⊢
      omega
    · have hcovered := h'.covered later middle hlater
      unfold Covered at hcovered ⊢
      rw [List.countP_append, List.countP_append]
      omega

end Told

theorem Unheard.to_told (h : Unheard m m') (va : UInt64) : ∃ cs, Told va [] cs m m' := by
  obtain ⟨cs, h⟩ := h
  have htally (q : Parcel → Bool) : m'.tally q = m.tally q := by rw [Machine.tally, h.parcels, Machine.tally]
  refine ⟨cs, Adds.to_told ⟨h.reports, h.calls, h.hooks, ?_, ?_, ?_, ?_, ?_, ?_⟩ (Nat.zero_le 1)⟩ <;>
    simp only [htally, h.frees, List.countP_nil] <;> omega

end

/-- With both hooks, what is told goes with what buffers have. -/
def Tells (va : UInt64) (m m' : Machine κ) : Prop :=
  m.device.options.hooks.allocate = true → m.device.options.hooks.free = true → ∃ told cs, Told va told cs m m'

namespace Tells

variable {va : UInt64} {m m₁ m' : Machine κ}

theorem of_unheard (h : Unheard m m') : Tells va m m' := fun _ _ => ⟨[], h.to_told va⟩

theorem trans (h : Tells va m m₁) (h' : Tells va m₁ m') : Tells va m m' := by
  intro ha hf
  obtain ⟨told, cs, ht⟩ := h ha hf
  obtain ⟨told', cs', ht'⟩ := h' (by rw [ht.hooks, ha]) (by rw [ht.hooks, hf])
  exact ⟨_, _, ht.trans ht'⟩

instance : Journey (Tells (κ := κ) va) where
  refl m := of_unheard (Journey.refl m)
  trans := trans

instance : Domestic (Tells (κ := κ) va) where
  of_domestic hk hc hr hd ha hb hs := of_unheard (Domestic.of_domestic hk hc hr hd ha hb hs)

instance : Slotless (Tells (κ := κ) va) where
  of_pace slots bound syncobjs := of_unheard (Slotless.of_pace slots bound syncobjs)

theorem of_keeps {α : Type} {x : Op κ α} (h : Keeps Unheard x) : Keeps (Tells va) x := h.mono fun _ _ => of_unheard

variable [Kernel κ]

instance : Plain (Tells (κ := κ) va) where
  of_plain c _ := of_keeps (.of_call c)

instance : Remaps (Tells (κ := κ) va) where
  of_mmap _ _ _ _ _ := of_keeps (.of_call _)
  of_munmap _ := of_keeps (.of_call _)

instance : Closes (Tells (κ := κ) va) where
  of_close _ := of_keeps (.of_call _)

end Tells

/-! ## Freeing a buffer -/

section Kernel

variable [Kernel κ]

/-- A request to give a region back succeeds, or the kernel refuses. -/
theorem calls_freeRegion_refused {d : Device} (va : UInt64) :
    Calls d (Interface.freeRegion va : Op κ Unit) fun r cs =>
      r = .ok () ∨ (∃ f, r = .error f) ∧ 0 < cs.countP (·.refusesFree) := by
  have hrequest : Calls d (Interface.request "MEM_FREE" (.memFree va) : Op κ Unit) fun r cs =>
      r = .ok () ∨ (∃ f, r = .error f) ∧ 0 < cs.countP (·.refusesFree) := by
    refine (calls_request _ _).mono ?_
    rintro r cs ⟨answer, rfl, rfl⟩
    cases answer with
    | ok u => exact .inl rfl
    | error e => exact .inr ⟨⟨_, rfl⟩, Nat.one_pos⟩
  unfold Interface.freeRegion
  refine calls_device.next fun _ hd => ?_
  subst hd
  split
  · refine (calls_oldRequest _ _).mono ?_
    rintro r cs ⟨answer, rfl, ⟨reply, -, -, rfl⟩ | ⟨hcode, f, _, rfl, -⟩⟩
    · exact .inl rfl
    · refine .inr ⟨⟨f, rfl⟩, ?_⟩
      cases answer with
      | ok reply => simp [CallRecord.refusesFree, hcode reply rfl]
      | error e => exact Nat.one_pos
  · exact hrequest
  · exact hrequest

/-- The hook is told if the kernel gives a region back. -/
theorem exec_freeDevice {m : Machine κ} (hhook : m.device.options.hooks.free = true) (va : UInt64) :
    ∃ (r : Except Fault Unit) (told : List Report) (cs : List CallRecord) (m' : Machine κ),
      (Device.free va).exec m = (r.mapError Halt.fault, m') ∧ Utters told cs m m' ∧
      (told = [] ∧ 0 < cs.countP (·.refusesFree) ∨ told = [.freed va]) := by
  have hcalls : Calls m.device (do debug "Device::Free"; Interface.freeRegion va : Op κ Unit) fun r cs =>
      r = .ok () ∨ (∃ f, r = .error f) ∧ 0 < cs.countP (·.refusesFree) :=
    (calls_debug _ _).next fun _ _ => calls_freeRegion_refused va
  obtain ⟨r, cs, m₁, he, hcalled, hr⟩ := hcalls m rfl
  have hsplit : (Device.free va : Op κ Unit) =
      (do debug "Device::Free"; Interface.freeRegion va) >>= fun _ => Device.reportFreed va := by
    simp only [Device.free, bind_assoc]
  rcases hr with rfl | ⟨⟨f, rfl⟩, hrefused⟩
  · have hhook₁ : m₁.device.options.hooks.free = true := by rwa [hcalled.device]
    have htell : (Device.reportFreed va).exec m₁ = (.ok (), { m₁ with reports := .freed va :: m₁.reports }) := by
      unfold Device.reportFreed
      rw [exec_bind_of_ok (exec_device m₁), if_pos hhook₁]
      rfl
    refine ⟨.ok (), [.freed va], cs, _, by rw [hsplit, exec_bind_of_ok he, htell]; rfl, ?_, .inr rfl⟩
    refine .of_inside ⟨hcalled.device, hcalled.allocator, hcalled.submitters, hcalled.batches⟩ ?_ hcalled.calls
    show (Report.freed va :: m₁.reports).filter Report.fromHook = _
    rw [hcalled.reports]
    rfl
  · refine ⟨.error f, [], cs, m₁, by rw [hsplit, exec_bind, he]; rfl, .of_inside hcalled.toSameInside ?_ hcalled.calls,
      .inl ⟨rfl, hrefused⟩⟩
    rw [Machine.hookReports, hcalled.reports]
    rfl

/-- Where a request has to give the region of a buffer back, the hook is told of it, or the kernel refuses. -/
theorem freeBufferRegion_utters {m m' : Machine κ} {x : Nat} {p : Parcel} {u : Unit}
    (hhook : m.device.options.hooks.free = true) (hx : m.parcels[x]? = some p)
    (he : (Allocator.freeBufferRegion x).exec m = (.ok u, m')) : ∃ told cs, Utters told cs m m' ∧
      (told = [] ∧ (p.freeRegion = true → 0 < cs.countP (·.refusesFree)) ∨
        told = [.freed p.gpu] ∧ p.freeRegion = true) := by
  unfold Allocator.freeBufferRegion at he
  obtain ⟨b, hb, he⟩ := bind_buffer_ok he
  obtain rfl : b.parcel = p := by
    rw [Machine.parcels, List.getElem?_map, hb] at hx
    exact Option.some.inj hx
  split at he
  · rename_i hregion
    obtain ⟨r, told, cs, m₁, hfree, hutters, htold⟩ := exec_freeDevice hhook b.gpu
    have hlog (log : List LogRecord) : Utters told cs m { m₁ with log } := hutters.trans
      (⟨rfl, rfl, rfl, rfl, rfl⟩ : Utters [] [] m₁ { m₁ with log })
    refine ⟨told, cs, ?_, htold.imp (fun h => ⟨h.1, fun _ => h.2⟩) fun h => ⟨h, hregion⟩⟩
    rw [exec_bind, exec_attempt, hfree] at he
    cases r with
    | ok _ =>
      cases he
      exact hutters
    | error f =>
      cases he
      exact hlog _
  · rename_i hregion
    cases he
    exact ⟨[], [], ⟨rfl, rfl, rfl, rfl, rfl⟩, .inl ⟨rfl, fun h => absurd h hregion⟩⟩

/-- Freeing a buffer tells the hook of its region if that had to be given back. -/
theorem tells_free (va : UInt64) (x : Nat) : Keeps (Tells (κ := κ) va) (Allocator.free x) := by
  refine (faultless_free x).keeps fun {m m' u} he _ hhook => ?_
  unfold Allocator.free at he
  obtain ⟨b, hx, he⟩ := bind_buffer_ok he
  obtain ⟨_, m₁, h₁, he⟩ := bind_ok he
  obtain ⟨_, m₂, h₂, he⟩ := bind_ok he
  obtain ⟨_, m₃, h₃, he⟩ := bind_ok he
  obtain ⟨_, m₄, h₄, he⟩ := bind_ok he
  obtain ⟨_, m₅, h₅, he⟩ := bind_ok he
  obtain ⟨_, m₆, h₆, he⟩ := bind_ok he
  have hx₀ : m.parcels[x]? = some b.parcel := by
    rw [Machine.parcels, List.getElem?_map, hx]
    rfl
  obtain ⟨cs₁, hu₁⟩ : Unheard m m₂ := Journey.trans ((keeps_writeHandle _ b).ok h₁) ((unheard_unmapBuffer x).ok h₂)
  obtain ⟨told, cs₂, hu₂, htold⟩ := freeBufferRegion_utters (p := b.parcel) (by rw [hu₁.hooks, hhook])
    (by rw [hu₁.parcels, hx₀]) h₃
  obtain ⟨cs₃, hu₃⟩ : Unheard m₃ m₅ := Journey.trans
    ((unheard_modifyAllocator (f := (·.forget b.handle)) (fun _ => rfl) fun _ => rfl).ok h₄) ((unheard_freeHandle _).ok h₅)
  have hu : Utters told (cs₃ ++ (cs₂ ++ cs₁)) m m₅ := by
    have := (hu₁.trans hu₂).trans hu₃
    rwa [List.append_nil, List.nil_append] at this
  have hmark : (m₅.allocator.buffers.modify x fun b => { b with usage := [], dmabufFd := -1, freed := true }).map
      Buffer.parcel = m₅.parcels.modify x Parcel.free := map_modify_comm Buffer.parcel (fun _ => rfl) _ x
  cases h₆
  cases he
  refine ⟨told, cs₃ ++ (cs₂ ++ cs₁), Adds.to_told (.of_freed hu.reports hu.calls hu.hooks hx₀
    (hmark.trans (by rw [hu.parcels])) (congrArg Nat.succ hu.frees) ?_) ?_⟩
  · refine htold.imp (fun h => ⟨h.1, fun hregion => ?_⟩) id
    have := h.2 hregion
    simp only [List.countP_append]
    omega
  · rcases htold with ⟨rfl, -⟩ | ⟨rfl, -⟩
    · exact Nat.zero_le 1
    · exact Nat.le_refl 1

/-! ## Making a buffer -/

/-- The hook is told of a region that is made, and of nothing if none is. -/
theorem alloc_utters {m m' : Machine κ} {size : Int64} {wish : UInt32} {flags : UInt64} {r : Except Halt Region}
    (hhook : m.device.options.hooks.allocate = true) (he : (Device.alloc size wish flags).exec m = (r, m')) :
    ∃ cs, Utters (r.toOption.toList.map fun region => .allocated region.gpu size) cs m m' := by
  obtain ⟨made, es, m₁, hmade, hdid, -⟩ := Device.does_newRegion size wish flags m rfl
  obtain ⟨cs, hcs, -⟩ := hdid.calls
  rw [Device.alloc_eq] at he
  refine ⟨cs, ?_⟩
  cases made with
  | error f =>
    rw [exec_bind, hmade] at he
    cases he
    exact .of_inside hdid.toSameInside (by rw [Machine.hookReports, hdid.reports]; rfl) hcs
  | ok region =>
    have hhook₁ : m₁.device.options.hooks.allocate = true := by rwa [hdid.device]
    rw [exec_bind_of_ok hmade, exec_bind_of_ok (exec_reportAllocated _ _ _), if_pos hhook₁] at he
    cases he
    refine .of_inside ⟨hdid.device, hdid.allocator, hdid.submitters, hdid.batches⟩ ?_ hcs
    show (Report.allocated region.gpu size :: m₁.reports).filter Report.fromHook = _
    rw [hdid.reports]
    rfl

omit [Kernel κ] in
/-- A new region becomes a buffer that is not freed. -/
theorem wrapRegion_parcels {m m' : Machine κ} {region : Region} {size : Int64} {flags : UInt32} {label : String} {x : Nat}
    (he : (Allocator.wrapRegion region size flags label).exec m = (.ok x, m')) :
    m'.hookReports = m.hookReports ∧ m'.calls = m.calls ∧ m'.device.options = m.device.options ∧
      m'.allocator.frees = m.allocator.frees ∧ m'.parcels = m.parcels ++
        [⟨region.gpu, region.cpu.address != region.gpu, hasFlag flags BufferFlag.shared, false⟩] := by
  unfold Allocator.wrapRegion at he
  rw [exec_bind_of_ok (exec_allocator m)] at he
  obtain ⟨handle, m₁, halloc, he⟩ := bind_ok he
  obtain ⟨-, rfl⟩ := allocHandle_ok halloc
  cases he
  exact ⟨rfl, rfl, rfl, rfl, List.map_append⟩

/-- Making a buffer tells the hook of its region. -/
theorem tells_allocate (va : UInt64) (size : Int64) {flags : UInt32} (label : String)
    (hflags : hasFlag flags BufferFlag.shared = false) :
    Keeps (Tells (κ := κ) va) (Allocator.allocate size flags label) := by
  refine fun m => keepsAt_of_exec fun {r m'} he hr hhook _ => ?_
  obtain ⟨_, _, ⟨f, h₁, rfl⟩ | ⟨region, x, m₁, m₂, h₁, h₂, h₃, rfl⟩⟩ := allocate_survives he hr
  · obtain ⟨cs, hu⟩ := alloc_utters hhook h₁
    exact ⟨[], Unheard.to_told ⟨cs, hu⟩ va⟩
  · obtain ⟨cs, hu⟩ := alloc_utters hhook h₁
    obtain ⟨hreports, hcalls, hoptions, hfrees, hparcels⟩ := wrapRegion_parcels h₂
    cases h₃
    refine ⟨_, cs, Adds.to_told (.of_append (hreports.trans hu.reports) (hcalls.trans hu.calls) ?_
      (hparcels.trans (by rw [hu.parcels])) rfl (hfrees.trans hu.frees) ?_ rfl) (Nat.le_refl 1)⟩
    · exact (congrArg DeviceOptions.hooks hoptions).trans hu.hooks
    · show (List.countP _ [Report.allocated region.gpu size]) = _
      rw [List.countP_singleton, Parcel.madeAt, hflags, Bool.not_false, Bool.and_true]
      rfl

omit [Kernel κ] in
/-- An imported buffer is added, and nothing is told. -/
theorem tells_addBuffer (va : UInt64) {b : Buffer} (hflags : b.flags = BufferFlag.shared) (hfreed : b.freed = false) :
    Keeps (Tells (κ := κ) va) (Allocator.addBuffer b) := by
  refine keeps_bind keeps_allocator fun a => keeps_bind (keeps_modify fun m _ _ => ?_) fun _ => keeps_pure _
  have hmade : b.parcel.madeAt va = false := by
    rw [Parcel.madeAt, show b.parcel.shared = true by
      show hasFlag b.flags BufferFlag.shared = true; rw [hflags]; decide]
    exact Bool.and_false _
  refine ⟨[], [], Adds.to_told (.of_append (p := b.parcel) rfl rfl rfl List.map_append hfreed rfl ?_ rfl)
    (Nat.zero_le 1)⟩
  rw [hmade]
  rfl

/-! ## Everything a program asks for -/

section Operating

variable (va : UInt64)

omit [Kernel κ] in
theorem tells_modifyDevice {f : Device → Device} (hf : ∀ d, (f d).options = d.options) :
    Keeps (Tells (κ := κ) va) (modifyDevice f) := .of_keeps (unheard_modifyDevice hf)

omit [Kernel κ] in
theorem tells_retireAtom (atom : UInt8) : Keeps (Tells (κ := κ) va) (Device.retireAtom atom) := by
  unfold Device.retireAtom
  refine keeps_bind keeps_device fun d => ?_
  split
  · exact keeps_violate _
  · exact tells_modifyDevice va fun _ => rfl

theorem tells_handleEvents : Keeps (Tells (κ := κ) va) Device.handleEvents :=
  keeps_handleEvents (tells_retireAtom va) (keeps_runCallback (tells_free va))

theorem polling_tells : Polling (κ := κ) (Keeps (Tells va)) where
  pure := keeps_pure
  bind := keeps_bind
  device := keeps_device
  now := keeps_now
  call := Asks.of_asking
  error := keeps_error
  modify f hf := tells_modifyDevice va fun d => by
    obtain ⟨_, _, _, _, hd⟩ := hf d
    rw [hd]
  handleEvents := tells_handleEvents va

theorem proceeding_tells : Proceeding (κ := κ) fun _ => Tells va where
  next := Tells.trans
  editDevice _ _ _ _ ho := tells_modifyDevice va ho
  countMiss := keeps_editAllocator (fun _ => rfl) fun _ => rfl
  evictOld := keeps_evictOld (keeps_evict (tells_free va))
  evictBuckets := keeps_evictBuckets (keeps_evict (tells_free va))
  handleEvents := tells_handleEvents va
  isIdle x patient := keeps_isIdle (polling_tells va) (keeps_editBuffer x fun _ => rfl) patient
  reuse x label m _ _ he hr := (keeps_reuse x label m).survives he hr
  allocate size _ label hflags m _ _ he hr := (tells_allocate va size label hflags m).survives he hr

omit [Kernel κ] in
theorem tells_collect (id batch : Nat) : Keeps (Tells (κ := κ) va) (Submitter.collect id batch) := by
  refine keeps_collect_of (fun _ y _ => keeps_bind (keeps_buffer y) fun _ =>
    keeps_bind (keeps_editBuffer y fun _ => rfl) fun _ => keeps_pure _) (fun _ _ _ => ?_) (fun _ k => ?_) id batch
  · exact keeps_modify fun _ => .of_unheard (.of_same rfl rfl rfl rfl rfl)
  · exact keeps_bind (keeps_getBatch k) fun _ => keeps_modify fun _ => .of_unheard (.of_same rfl rfl rfl rfl rfl)

theorem streaming_tells : Streaming (κ := κ) .full fun _ => Tells va where
  toProceeding := proceeding_tells va
  createContext _ := keeps_createContext_of fun _ => tells_modifyDevice va fun _ => rfl
  destroyContext _ := keeps_destroyContext_of fun _ => tells_modifyDevice va fun _ => rfl
  recreateContext _ := keeps_recreateContext_of fun _ => tells_modifyDevice va fun _ => rfl
  bindStream _ _ := keeps_bindStream_of (tells_modifyDevice va fun _ => rfl) fun _ => tells_modifyDevice va fun _ => rfl
  rebindStream _ := keeps_rebindStream_of fun _ => tells_modifyDevice va fun _ => rfl
  unmapStream _ := keeps_unmapStream_of (tells_modifyDevice va fun _ => rfl)
  clearSlot _ _ := keeps_bind (keeps_clearSlot _) (fun cs => keeps_runCallbacks (tells_free va) cs) _
  submitSlot _ _ _ := keeps_submitSlot _ _ _
  createSyncobj := keeps_bind keeps_device fun _ => keeps_bind (tells_modifyDevice va fun _ => rfl) fun _ => keeps_pure _
  pruneSyncobj _ := tells_modifyDevice va fun _ => rfl
  fenceSyncobj _ _ _ _ := tells_modifyDevice va fun _ => rfl
  destroySyncobj _ _ := tells_modifyDevice va fun _ => rfl
  advance i n := keeps_advance (tells_free va) i n
  updateCallbacks i n := keeps_bind (keeps_takeCallbacks i n) fun cs => keeps_runCallbacks (tells_free va) cs
  collect _ _ _ _ := tells_collect va _ _ _

theorem lending_tells : Lending (κ := κ) fun _ => Tells va where
  toProceeding := proceeding_tells va
  reference := keeps_reference
  unreference := keeps_unreference (tells_free va)
  handOut h he := h.trans ((keeps_handOut _).ok he)
  editBatch _ _ _ := keeps_modify fun _ => .of_unheard (.of_same rfl rfl rfl rfl rfl)
  startBatch _ := keeps_bind keeps_requireAllocator fun _ => keeps_bind keeps_allocator fun _ =>
    keeps_bind keeps_get fun _ => keeps_bind (keeps_modify fun _ => .of_unheard (.of_same rfl rfl rfl rfl rfl))
    fun _ => keeps_pure _

/-- Whatever is asked for, what is told goes with what buffers have. -/
theorem operating_tells : Operating (κ := κ) .full fun _ => Tells va :=
  .of_modify (streaming_tells va) (lending_tells va)
    (fun _ _ => keeps_modify fun _ => .of_unheard (.of_same rfl rfl rfl rfl rfl))
    (fun _ => keeps_bind keeps_get fun _ =>
      keeps_bind (keeps_modify fun _ => .of_unheard (.of_same rfl rfl rfl rfl rfl)) fun _ => keeps_pure _)
    (keeps_importBuffer_of (fun va' fd => .of_keeps (unheard_allocHandle va' fd))
      (fun _ _ => tells_modifyDevice va fun _ => rfl) (fun handle => .of_keeps (unheard_freeHandle handle))
      fun _ hflags hfreed => tells_addBuffer va hflags hfreed)

end Operating

/-! ## Runs -/

/-- What happens next: something is asked for, or time passes and the GPU writes to memory. -/
inductive Turn : Machine κ → Machine κ → Prop
  | work {m m' : Machine κ} {r : Except Halt Unit} (op : Operation) (he : op.run.exec m = (r, m')) (hr : Survives r) :
    Turn m m'
  | idle {m m' : Machine κ} (hsame : SameInside m m') (hcalls : m'.calls = m.calls)
    (hreports : m'.hookReports = m.hookReports) : Turn m m'

theorem Turn.tells {m m' : Machine κ} (h : Turn m m') (va : UInt64) : Tells va m m' := by
  cases h with
  | work op he hr => exact ((operating_tells va).operation op.within_full m).survives he hr
  | idle hsame hcalls hreports => exact .of_unheard ⟨[], .of_inside hsame hreports hcalls⟩

/-- By induction on the turns. -/
theorem tells_of_turns {m m' : Machine κ} (h : Relation.ReflTransGen Turn m m') (va : UInt64) : Tells va m m' := by
  induction h with
  | refl => exact Journey.refl m
  | tail _ hlast ih => exact ih.trans (hlast.tells va)

/-- By induction on the turns, the first one first. -/
theorem session_of_turns {m m' : Machine κ} (h : Relation.ReflTransGen Turn m m') : Session m m' := by
  induction h using Relation.ReflTransGen.head_induction_on with
  | refl => exact .nil m'
  | head hfirst _ ih =>
    cases hfirst with
    | work op he hr => exact .work op he hr ih
    | idle hsame hcalls _ => exact .idle hsame hcalls ih

/-- On a command stream device a run is made of steps. -/
theorem course_of_turns (hdup : ∀ (k : κ) (fd d : Int), (Kernel.call k (.dup fd)).1.result = .ok d → 0 ≤ d)
    {m m' : Machine κ} (hm : m.Housed) (h : Relation.ReflTransGen Turn m m') :
    ∃ es, Course ShelfStep ⟨m, [], none⟩ es ⟨m', [], none⟩ := by
  obtain ⟨-, -, es, hrun⟩ := (session_of_turns h).proceeds hdup hm
  exact ⟨es, .of_run hrun hm.generation⟩

omit [Kernel κ] in
/-- Buffers that were created are freed or not. -/
theorem Machine.tally_madeAt (m : Machine κ) (va : UInt64) :
    m.tally (·.madeAt va) = m.tally (fun p => p.freed && p.madeAt va) + m.tally fun p => !p.freed && p.madeAt va := by
  have h := List.length_eq_countP_add_countP (·.freed) (l := m.parcels.filter (·.madeAt va))
  rw [← List.countP_eq_length_filter, List.countP_filter, List.countP_filter] at h
  rw [Machine.tally, h]
  congr 1
  exact List.countP_congr fun p _ => by simp

/-- On a run from the start with both hooks, every buffer that was created was announced once.  If the kernel refused
to give no region back, every freed buffer whose region it had to be asked for was revoked.  On a command stream device
the run is made of steps.  As long as every stream has a slot of its own and no count overflows along the steps that a
run is made of, nothing else was revoked, and at every moment there had been at least as many announcements as
revocations, but for the regions of imported buffers.  So the two sides balance at an address where exactly the created
buffers are given back by request. -/
theorem hooks_balance {m₀ m : Machine κ} (hvacant : Vacant m₀) (hallocate : m₀.device.options.hooks.allocate = true)
    (hfree : m₀.device.options.hooks.free = true) (h : Relation.ReflTransGen Turn m₀ m) (va : UInt64) :
    ∃ told cs, m.hookReports = told ++ m₀.hookReports ∧ m.calls = cs ++ m₀.calls ∧
      told.countP (·.announces va) = m.tally (·.madeAt va) ∧
      ((∀ r ∈ cs, r.refusesFree = false) → m.tally (·.returnedAt va) ≤ told.countP (·.revokes va)) ∧
      ((∀ (k : κ) (fd d : Int), (Kernel.call k (.dup fd)).1.result = .ok d → 0 ≤ d) → m₀.Housed →
        ∃ es, Course ShelfStep ⟨m₀, [], none⟩ es ⟨m, [], none⟩) ∧
      ∀ es, Course ShelfStep ⟨m₀, [], none⟩ es ⟨m, [], none⟩ →
        (∀ d ∈ es.map (·.1) ++ [⟨m, [], none⟩], d.progress.streams.length ≤ slotCount) →
        (∀ d ∈ es.map (·.1) ++ [⟨m, [], none⟩], d.Bounded) →
        told.countP (·.revokes va) ≤ m.tally (·.returnedAt va) ∧
        (∀ later earlier, told = later ++ earlier →
          earlier.countP (·.revokes va) ≤ earlier.countP (·.announces va) + m.tally (·.borrowedAt va)) ∧
        ((∀ r ∈ cs, r.refusesFree = false) → (∀ p ∈ m.parcels, p.gpu = va → p.freeRegion = !p.shared) →
          told.countP (·.announces va) =
            told.countP (·.revokes va) + m.tally fun p => !p.freed && p.madeAt va) := by
  obtain ⟨told, cs, ht⟩ := tells_of_turns h va hallocate hfree
  have hbuffers : m₀.allocator.buffers = [] := List.map_eq_nil_iff.mp hvacant.accounts
  have hnone (p : Parcel → Bool) : m₀.tally p = 0 := by
    rw [Machine.tally, Machine.parcels, hbuffers]
    rfl
  have hfrees : m₀.allocator.frees = 0 := hvacant.frees
  have hmade := ht.made
  have hreturned := ht.returned
  have hrevoked := ht.revoked
  rw [hnone, Nat.zero_add] at hmade
  simp only [hnone, hfrees, Nat.zero_add, Nat.add_zero] at hreturned hrevoked
  have hgranted (hcs : ∀ r ∈ cs, r.refusesFree = false) : m.tally (·.returnedAt va) ≤ told.countP (·.revokes va) := by
    have hzero : cs.countP (·.refusesFree) = 0 := by
      rw [List.countP_eq_zero]
      exact fun r hr => by rw [hcs r hr]; exact Bool.false_ne_true
    omega
  refine ⟨told, cs, ht.reports, ht.calls, hmade.symm, hgranted,
    fun hdup hm => course_of_turns hdup hm h, fun es hrun hmax hbounded => ?_⟩
  have hended : m.allocator.frees = m.tally (·.freed) := by
    have hbooks : m.allocator.frees = (m.allocator.buffers.map Buffer.account).countP (·.freed) :=
      (hrun.poised hmax hbounded hvacant.poised).books.frees
    rw [hbooks, Machine.tally, Machine.parcels, List.countP_map, List.countP_map]
    rfl
  have hmost : told.countP (·.revokes va) ≤ m.tally (·.returnedAt va) := by omega
  refine ⟨hmost, fun later earlier heq => ?_, fun hcs hregion => ?_⟩
  · have hcovered := ht.covered later earlier heq
    unfold Covered at hcovered
    simp only [hnone, hfrees, Nat.add_zero] at hcovered
    omega
  · have hsame : m.tally (·.returnedAt va) = m.tally fun p => p.freed && p.madeAt va := by
      refine List.countP_congr fun p hp => ?_
      rw [Parcel.returnedAt, Parcel.owedAt, Parcel.madeAt]
      by_cases hva : p.gpu = va
      · rw [hregion p hp hva, Bool.and_comm]
      · simp [hva]
    have hall := m.tally_madeAt va
    have hleast := hgranted hcs
    omega

end Kernel

/-! ## A region that was lent -/

/-- A kernel with one region for executables, which it takes back. -/
inductive Lender where
  | open

instance : Kernel Lender where
  call k
    | .ioctl _ (.memAlloc _) => ({ result := .ok ⟨0, 0x41000⟩ }, k)
    | .ioctl _ (.memFree _) => ({ result := .ok () }, k)
    | .mmap .. => ({ result := .ok 0x20000 }, k)
    | .munmap _ => ({ result := .ok () }, k)
    | _ => ({ result := .error .inval }, k)
  now _ := 0
  pageSize _ := 4096
  simulated _ := false

namespace Lender

-- a table of 256 slots is evaluated
set_option maxRecDepth 20000

/-- A job manager device with both hooks, and an allocator that caches nothing. -/
def start : Machine Lender where
  kernel := .open
  device := { generation := .jm, options := { pageSize := 4096, hooks := ⟨true, true⟩ } }
  allocator :=
    { started := true, options := { minBucket := 12, maxBucket := 13, noCache := true }, cache := .empty 2 }

theorem vacant_start : Vacant start := by
  constructor
  case range => decide
  all_goals rfl

/-- The cache has nothing, and the kernel lends a region. -/
def borrowing : Op Lender Region := do
  requireAllocator
  debug "Allocator::Create"
  modifyAllocator fun a => { a with misses := a.misses + 1 }
  Device.alloc 4096 0 0

def lent : Machine Lender := (borrowing.exec start).2

/-- The region of executable memory has another address for the GPU. -/
def region : Region := ⟨⟨0x20000, 4096⟩, 0x41000⟩

def wrapped : Machine Lender := ((Allocator.wrapRegion region 4096 BufferFlag.execute "code").exec lent).2

def counted : Machine Lender :=
  ((modifyAllocator fun a => { a with allocations := a.allocations + 1 }).exec wrapped).2

/-- It is a buffer with one reference. -/
def live : Machine Lender := ((Allocator.handOut 0).exec counted).2

/-- It is free again. -/
def returned : Machine Lender := ((Buffer.unreference 0).exec live).2

theorem exec_borrowing : borrowing.exec start = (.ok region, lent) := rfl

theorem outcomes :
    ((Allocator.wrapRegion region 4096 BufferFlag.execute "code").exec lent).1.toOption = some 0 ∧
    ((Allocator.handOut 0).exec counted).1.toOption = some () ∧
    ((Buffer.unreference 0).exec live).1.toOption = some () ∧
    (live.storage.accounts[0]?).map (·.refs) = some 1 ∧
    returned.parcels = [⟨0x41000, true, false, true⟩] := by
  decide +kernel

theorem exec_create :
    (Operation.create 4096 BufferFlag.execute "code").run.exec start = (.ok (), live) := rfl

def steps : List (Config Lender × Action) :=
  [(⟨start, [], none⟩, .other), (⟨lent, [], none⟩, .other), (⟨wrapped, [], some 0⟩, .other),
    (⟨counted, [], some 0⟩, .other), (⟨live, [], none⟩, .release 0)]

/-- The region is borrowed, becomes a buffer, is counted and handed out, and goes with its only reference. -/
theorem course_returned : Course ShelfStep ⟨start, [], none⟩ steps ⟨returned, [], none⟩ := by
  obtain ⟨hwrap, hhand, hrelease, hrefs, -⟩ := outcomes
  have hborrowing : Keeps Quiet borrowing := keeps_bind keeps_requireAllocator fun _ => keeps_bind (keeps_debug _ _)
    fun _ => keeps_bind (quiet_modifyAllocator fun _ => rfl) fun _ => keeps_alloc _ _ _
  have hlent : Quiet start lent := hborrowing.ok exec_borrowing
  have hwrapped : (Allocator.wrapRegion region 4096 BufferFlag.execute "code").exec lent = (.ok 0, wrapped) :=
    exec_of_value hwrap
  have hcounted : Quiet wrapped counted := ⟨.of_eq rfl rfl, rfl, fun _ _ ho => ho⟩
  have hlive : (Allocator.handOut 0).exec counted = (.ok (), live) := exec_of_value hhand
  have hreturned : (Buffer.unreference 0).exec live = (.ok (), returned) := exec_of_value hrelease
  obtain ⟨a, ha, hone⟩ := Option.map_eq_some_iff.mp hrefs
  exact .cons (.of_plain (.quiet hlent) (.inl rfl)) <| .cons (.of_plain (.wrap hwrapped) (.inl rfl)) <|
    .cons (.of_plain (.quiet hcounted) (.inl rfl)) <| .cons (.of_plain (.handOut hlive) (.inl rfl)) <|
    .cons (.of_plain (.release ha hone hreturned) (.inr ⟨0, rfl⟩)) (.nil _)

theorem bounded_steps : ∀ d ∈ steps.map (·.1) ++ [⟨returned, [], none⟩], d.Bounded := by
  have hcalm := course_returned.calm (vacant_start.csf_or_calm.resolve_left (by decide))
  have hready : ∀ d ∈ steps.map (·.1) ++ [⟨returned, [], none⟩], d.ready = [] := by decide +kernel
  have hrefs : ∀ d ∈ steps.map (·.1) ++ [⟨returned, [], none⟩], ∀ a ∈ d.machine.storage.accounts,
    a.refs ≠ Int32.minValue := by decide +kernel
  exact fun d hd => (hcalm d hd).bounded (hready d hd) (hrefs d hd)

theorem turns_returned : Relation.ReflTransGen Turn start returned := by
  have hunreference : (Operation.unreference 0).run.exec live = (.ok (), returned) := exec_of_value outcomes.2.2.1
  have hfirst : Relation.ReflTransGen Turn start live := .single (.work _ exec_create trivial)
  exact hfirst.tail (.work _ hunreference trivial)

end Lender

/-- The region of an executable buffer is announced, and revoked once it is freed. -/
theorem hooks_balance_sample : Vacant Lender.start ∧ Relation.ReflTransGen Turn Lender.start Lender.returned ∧
    Course ShelfStep ⟨Lender.start, [], none⟩ Lender.steps ⟨Lender.returned, [], none⟩ ∧
    Lender.returned.hookReports.countP (·.announces 0x41000) = 1 ∧
    Lender.returned.hookReports.countP (·.announces 0x41000) =
      Lender.returned.hookReports.countP (·.revokes 0x41000) := by
  have hmax : ∀ d ∈ Lender.steps.map (·.1) ++ [⟨Lender.returned, [], none⟩], d.progress.streams.length ≤ slotCount := by
    decide +kernel
  obtain ⟨told, cs, hreports, hcalls, hmade, -, -, hrest⟩ :=
    hooks_balance Lender.vacant_start rfl rfl Lender.turns_returned 0x41000
  obtain ⟨-, -, hbalance⟩ := hrest _ Lender.course_returned hmax Lender.bounded_steps
  obtain ⟨-, -, -, -, hparcels⟩ := Lender.outcomes
  obtain rfl : Lender.returned.hookReports = told := hreports.trans (List.append_nil told)
  obtain rfl : Lender.returned.calls = cs := hcalls.trans (List.append_nil cs)
  have hgranted : ∀ r ∈ Lender.returned.calls, r.refusesFree = false := by decide +kernel
  have hregion : ∀ p ∈ Lender.returned.parcels, p.gpu = 0x41000 → p.freeRegion = !p.shared := by
    rw [hparcels]
    decide
  have hone : Lender.returned.tally (·.madeAt 0x41000) = 1 := by
    rw [Machine.tally, hparcels]
    decide
  have hrest : Lender.returned.tally (fun p => !p.freed && p.madeAt 0x41000) = 0 := by
    rw [Machine.tally, hparcels]
    decide
  have hequal := hbalance hgranted hregion
  rw [hrest] at hequal
  exact ⟨Lender.vacant_start, Lender.turns_returned, Lender.course_returned, hmade.trans hone, hequal⟩

end Mali
