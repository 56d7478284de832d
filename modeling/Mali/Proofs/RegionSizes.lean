import Mali.Proofs.FailedRegions
import Mali.Proofs.Rounding

/-!
# The address space that regions ask for

A request for a region names the pages that it needs and the pages of address space to reserve for it.  Pages are
counted by rounding the size up, and growable regions reserve whole units of 2 MiB.  So the pages fit the address space,
and so do the bytes that are mapped.

Only where the oldest generation makes code, the request names 4096 pages whatever the size, and 64 MiB of them are
mapped.  These fit from pages of 16 KiB on; with smaller pages the mapping leaves the reservation, and a region larger
than the reservation asks for more pages than it reserves.

* `RegionRequest.reserved`: the bytes of address space that a request asks for.
* `RegionPlan.Covers`: the pages and the mapping fit the reservation.
* `RegionPlan.Rigid`: what fits where the reservation is the same for all regions.
* `Region.covers_planned`, `Region.rigid_planned`: which plans do.
* `Asked`, `Device.calls_newRegion`: the regions and mappings that calls ask for.
* `alloc_reserves`: what making a region asks of the kernel.
-/

namespace Mali

open Op

/-! ## What calls ask for -/

/-- The region that a call asks for. -/
def Syscall.region? : Syscall → Option RegionRequest
  | .ioctl _ (.memAlloc r) | .ioctl _ (.old _ (.memAlloc r)) => some r
  | _ => none

/-- The number of bytes that a call maps. -/
def Syscall.mapLength? : Syscall → Option Int64
  | .mmap _ _ length _ _ => some length
  | _ => none

/-! ## Reservations -/

/-- The bytes of address space that a request asks for, in pages of `page` bytes. -/
def RegionRequest.reserved (r : RegionRequest) (page : Int64) : Int := r.vaPages.toNat * page.toInt

/-- The whole units of 2 MiB that hold a number of bytes. -/
def Region.unitsFor (size : Int64) : Set Int := {x | (Region.heapAlignment.toNat : Int) ∣ x ∧ size.toInt ≤ x}

/-- The pages of a region fit the address space that is reserved for it, and so do its bytes and those that are mapped.
A growable region reserves as few units of 2 MiB as its bytes need. -/
structure RegionPlan.Covers (plan : RegionPlan) (page size : Int64) (heap : Bool) : Prop where
  pages : plan.request.commitPages ≤ plan.request.vaPages
  bytes : size.toInt ≤ plan.request.reserved page
  mapped : plan.mapLength.toInt ≤ plan.request.reserved page
  units : heap = true → IsLeast (Region.unitsFor size) (plan.request.reserved page)

/-- The address space and the mapping are the same for all regions, in pages of `2 ^ k` bytes.  So the pages of a region
fit only if it is not large, the mapping only if pages are, and the units are as few as can be only by accident. -/
structure RegionPlan.Rigid (plan : RegionPlan) (page size : Int64) (heap : Bool) (k : Nat) : Prop where
  reserved : plan.request.reserved page = 2 ^ (k + 12)
  length : plan.mapLength.toInt = 2 ^ 26
  pages : plan.request.commitPages ≤ plan.request.vaPages ↔ heap = true ∨ size.toInt ≤ 2 ^ (k + 12)
  mapped : plan.mapLength.toInt ≤ plan.request.reserved page ↔ 14 ≤ k
  units : IsLeast (Region.unitsFor size) (plan.request.reserved page) ↔
    size.toInt ≤ 2 ^ (k + 12) ∧ 2 ^ (k + 12) < size.toInt + 2 ^ 21

namespace Region

/-- Where the oldest generation makes code, the address space is the same for all regions. -/
def FixedSpace (g : Generation) (wish : UInt32) : Prop := g = .old ∧ hasFlag wish AllocFlag.noExecute = false

/-- The pages that a number of bytes takes. -/
def pagesFor (page size : Int64) : UInt64 := ((size + page - 1) / page).toUInt64

section

variable {page size : Int64} {n k : Nat}

/-- The number of pages is the size rounded up. -/
theorem toNat_pagesFor {p : Nat} (hsize : size.toInt = n) (hpage : page.toInt = p) (hp : 0 < p)
    (hsum : n + p < 2 ^ 63) : (pagesFor page size).toNat = (n + p - 1) / p := by
  have hadd : (size + page).toInt = (n + p : Nat) := by
    rw [Int64.toInt_add, hsize, hpage]
    exact Int.bmod_eq_of_le (by omega) (by omega)
  have hsub : (size + page - 1).toInt = (n + p - 1 : Nat) := by
    rw [Int64.toInt_sub, hadd, show (1 : Int64).toInt = 1 from rfl]
    exact (Int.bmod_eq_of_le (by omega) (by omega)).trans (by omega)
  have hne : page ≠ -1 := by
    rintro rfl
    have : (-1 : Int) = p := hpage
    omega
  have hquotient : ((size + page - 1) / page).toInt = ((n + p - 1) / p : Nat) := by
    rw [Int64.toInt_div_of_ne_right _ _ hne, hsub, hpage, Int.ofNat_tdiv]
  rw [pagesFor, Int64.toNat_toUInt64_of_le, ← Int64.toNat_toInt, hquotient, Int.toNat_natCast]
  rw [Int64.le_iff_toInt_le, hquotient]
  exact Int.natCast_nonneg _

/-- The number of pages in a unit of 2 MiB. -/
theorem toNat_unitPages (hpage : page.toInt = (2 ^ k : Nat)) (hk : k ≤ 21) :
    (heapAlignment / page.toUInt64).toNat = 2 ^ (21 - k) := by
  have hnonneg : 0 ≤ page := by
    rw [Int64.le_iff_toInt_le, hpage]
    exact Int.natCast_nonneg _
  have hnat : page.toUInt64.toNat = 2 ^ k := by
    rw [Int64.toNat_toUInt64_of_le hnonneg, ← Int64.toNat_toInt, hpage, Int.toNat_natCast]
  rw [UInt64.toNat_div, hnat]
  exact Nat.pow_div hk Nat.two_pos

/-- What is asked for, apart from the flags: growable regions have no pages at first. -/
theorem planned_request (g : Generation) (page size : Int64) (wish : UInt32) (flags : UInt64) :
    (planned g page size wish flags).request.commitPages =
        (if hasFlag wish AllocFlag.heap then 0 else pagesFor page size) ∧
      (FixedSpace g wish → (planned g page size wish flags).request.vaPages = 0x1000 ∧
        (planned g page size wish flags).mapLength = 0x4000000) ∧
      (¬FixedSpace g wish → (planned g page size wish flags).request.vaPages =
          (if hasFlag wish AllocFlag.heap then alignUp64 (pagesFor page size) (heapAlignment / page.toUInt64)
            else pagesFor page size) ∧
        (planned g page size wish flags).mapLength = size) := by
  unfold planned FixedSpace pagesFor
  cases hasFlag wish AllocFlag.noExecute <;> cases hasFlag wish AllocFlag.heap <;> cases g <;> simp

/-- Rounding up gives at least a number, and less than a unit more. -/
theorem roundUp_bounds {a : Nat} (ha : 0 < a) : n ≤ (n + a - 1) / a * a ∧ (n + a - 1) / a * a + 1 ≤ n + a := by
  have hlow := Nat.lt_div_mul_add (a := n + a - 1) ha
  have hhigh := Nat.div_mul_le_self (n + a - 1) a
  omega

/-- Pages reach as far as bytes. -/
theorem roundUp_le_iff {a : Nat} (ha : 0 < a) (x : Nat) : (n + a - 1) / a ≤ x ↔ n ≤ x * a := by
  rw [← Nat.lt_succ_iff, Nat.div_lt_iff_lt_mul ha, Nat.succ_mul]
  omega

/-- A growable region reserves as few units of 2 MiB as it needs. -/
theorem isLeast_unitsFor {r : RegionRequest} (hsize : size.toInt = n) (hpage : page.toInt = (2 ^ k : Nat))
    (hk : k ≤ 21) (hsum : n + 2 ^ k < 2 ^ 63)
    (hr : r.vaPages = alignUp64 (pagesFor page size) (heapAlignment / page.toUInt64)) :
    IsLeast (unitsFor size) (r.reserved page) := by
  have hpages := toNat_pagesFor hsize hpage (Nat.two_pow_pos k) hsum
  have hunit : 2 ^ (21 - k) * 2 ^ k = 2 ^ 21 := by rw [← Nat.pow_add, Nat.sub_add_cancel hk]
  obtain ⟨hlow, hhigh⟩ := roundUp_bounds (n := n) (Nat.two_pow_pos k)
  obtain ⟨hlow', hhigh'⟩ := roundUp_bounds (n := (pagesFor page size).toNat) (Nat.two_pow_pos (21 - k))
  have hwords : (pagesFor page size).toNat + 2 ^ (21 - k) ≤ 2 ^ 64 := by
    have : 2 ^ (21 - k) ≤ 2 ^ 21 := Nat.pow_le_pow_right Nat.two_pos (Nat.sub_le _ _)
    have : (pagesFor page size).toNat ≤ n + 2 ^ k - 1 := hpages.symm ▸ Nat.div_le_self _ _
    omega
  have hva := toNat_alignUp64 (by omega) (toNat_unitPages hpage hk) hwords
  rw [← hpages] at hlow hhigh
  rw [← hva, ← hr] at hlow' hhigh'
  -- in bytes, the bounds on the pages are bounds on the units
  have hle : n ≤ r.vaPages.toNat * 2 ^ k := hlow.trans (Nat.mul_le_mul_right _ hlow')
  have hlt : r.vaPages.toNat * 2 ^ k < n + 2 ^ 21 := by
    have := Nat.mul_le_mul_right (2 ^ k) hhigh'
    rw [Nat.add_mul, Nat.add_mul, hunit] at this
    omega
  have hdvd : 2 ^ 21 ∣ r.vaPages.toNat * 2 ^ k := by
    rw [hr, hva, Nat.mul_assoc, hunit]
    exact Nat.dvd_mul_left _ _
  rw [unitsFor, RegionRequest.reserved, hsize, hpage, isLeast_multiple_iff (by decide) (by exact_mod_cast hdvd)]
  exact_mod_cast And.intro hle hlt

/-- The address space of a region is large enough, unless it is the same for all regions. -/
theorem covers_planned {g : Generation} {wish : UInt32} (flags : UInt64) (hsize : size.toInt = n)
    (hpage : page.toInt = (2 ^ k : Nat)) (hk : k ≤ 21) (hsum : n + 2 ^ k < 2 ^ 63) (h : ¬FixedSpace g wish) :
    (planned g page size wish flags).Covers page size (hasFlag wish AllocFlag.heap) := by
  obtain ⟨hcommit, -, hfree⟩ := planned_request g page size wish flags
  obtain ⟨hva, hlength⟩ := hfree h
  cases hheap : hasFlag wish AllocFlag.heap with
  | true =>
    rw [hheap, if_pos rfl] at hcommit hva
    have hleast := isLeast_unitsFor hsize hpage hk hsum hva
    refine ⟨?_, hleast.1.2, hlength.symm ▸ hleast.1.2, fun _ => hleast⟩
    rw [hcommit]
    exact UInt64.zero_le
  | false =>
    rw [hheap, if_neg Bool.false_ne_true] at hcommit hva
    have hbytes : size.toInt ≤ (planned g page size wish flags).request.reserved page := by
      rw [RegionRequest.reserved, hva, toNat_pagesFor hsize hpage (Nat.two_pow_pos k) hsum, hsize, hpage]
      exact_mod_cast (roundUp_bounds (Nat.two_pow_pos k)).1
    exact ⟨by rw [hcommit, hva]; exact UInt64.le_refl _, hbytes, hlength.symm ▸ hbytes, nofun⟩

/-- What the same address space for all regions is enough for. -/
theorem rigid_planned {g : Generation} {wish : UInt32} (flags : UInt64) (hsize : size.toInt = n)
    (hpage : page.toInt = (2 ^ k : Nat)) (hk : 12 ≤ k) (hsum : n + 2 ^ k < 2 ^ 63) (h : FixedSpace g wish) :
    (planned g page size wish flags).Rigid page size (hasFlag wish AllocFlag.heap) k := by
  obtain ⟨hcommit, hfixed, -⟩ := planned_request g page size wish flags
  obtain ⟨hva, hlength⟩ := hfixed h
  have hreserved : (planned g page size wish flags).request.reserved page = 2 ^ (k + 12) := by
    have hbytes : 2 ^ 12 * 2 ^ k = 2 ^ (k + 12) := by rw [Nat.mul_comm, ← Nat.pow_add]
    rw [RegionRequest.reserved, hva, hpage]
    exact_mod_cast hbytes
  have hlong : (planned g page size wish flags).mapLength.toInt = 2 ^ 26 := by
    rw [hlength]
    rfl
  refine ⟨hreserved, hlong, ?_, ?_, ?_⟩
  · rw [hcommit, hva, UInt64.le_iff_toNat_le]
    cases hasFlag wish AllocFlag.heap with
    | true => exact iff_of_true (Nat.zero_le _) (.inl rfl)
    | false =>
      rw [if_neg Bool.false_ne_true, toNat_pagesFor hsize hpage (Nat.two_pow_pos k) hsum, hsize, Int.pow_add]
      refine (roundUp_le_iff (Nat.two_pow_pos k) 4096).trans ?_
      rw [or_iff_right Bool.false_ne_true, Nat.mul_comm]
      exact_mod_cast Iff.rfl
  · rw [hreserved, hlong]
    exact_mod_cast (Nat.pow_le_pow_iff_right (show 1 < 2 by decide)).trans (show 26 ≤ k + 12 ↔ 14 ≤ k by omega)
  · rw [hreserved, unitsFor, isLeast_multiple_iff (by decide)]
    · rfl
    · exact_mod_cast Nat.pow_dvd_pow 2 (show 21 ≤ k + 12 by omega)

end

end Region

/-! ## Requests and mappings -/

/-- Calls ask for some regions and map some lengths, oldest first. -/
structure Asked (rs : List RegionRequest) (ls : List Int64) (cs : List CallRecord) : Prop where
  regions : cs.reverse.filterMap (·.call.region?) = rs
  lengths : cs.reverse.filterMap (·.call.mapLength?) = ls

theorem Asked.nil : Asked [] [] [] := ⟨rfl, rfl⟩

theorem Asked.append {rs rs' : List RegionRequest} {ls ls' : List Int64} {cs ds : List CallRecord}
    (h : Asked rs ls cs) (h' : Asked rs' ls' ds) : Asked (rs ++ rs') (ls ++ ls') (ds ++ cs) where
  regions := by rw [List.reverse_append, List.filterMap_append, h.regions, h'.regions]
  lengths := by rw [List.reverse_append, List.filterMap_append, h.lengths, h'.lengths]

variable {κ : Type} [Kernel κ] {d : Device}

/-- A region is asked for once. -/
theorem calls_allocRegion (r : RegionRequest) :
    Calls d (Interface.allocRegion r : Op κ RegionReply) fun _ cs => Asked [r] [] cs := by
  have hrequest : Calls d (Interface.request "MEM_ALLOC" (.memAlloc r) : Op κ RegionReply) fun _ cs =>
      Asked [r] [] cs := by
    refine (calls_request _ _).mono ?_
    rintro out cs ⟨answer, rfl, -⟩
    exact ⟨rfl, rfl⟩
  unfold Interface.allocRegion
  refine calls_device.next fun _ hd => ?_
  subst hd
  split
  · refine (calls_oldRequest _ _).bind ?_ ?_
    · rintro h cs ⟨answer, rfl, -⟩
      exact ⟨rfl, rfl⟩
    · rintro reply cs ⟨answer, rfl, -⟩
      exact .pure ⟨rfl, rfl⟩
  · exact hrequest
  · exact hrequest

/-- Giving a region back asks for none and maps nothing. -/
theorem calls_freeRegion (va : UInt64) :
    Calls d (Interface.freeRegion va : Op κ Unit) fun _ cs => Asked [] [] cs := by
  have hrequest : Calls d (Interface.request "MEM_FREE" (.memFree va) : Op κ Unit) fun _ cs => Asked [] [] cs := by
    refine (calls_request _ _).mono ?_
    rintro out cs ⟨answer, rfl, -⟩
    exact ⟨rfl, rfl⟩
  unfold Interface.freeRegion
  refine calls_device.next fun _ hd => ?_
  subst hd
  split
  · refine (calls_oldRequest _ _).mono ?_
    rintro out cs ⟨answer, rfl, -⟩
    exact ⟨rfl, rfl⟩
  · exact hrequest
  · exact hrequest

namespace Device

/-- Mapping a region is tried once, with the whole length. -/
theorem calls_mapRegion (va : UInt64) (length : Int64) (what title : String) :
    Calls d (mapRegion va length what title : Op κ Mapping) fun _ cs => Asked [] [length] cs := by
  unfold mapRegion mapShared
  refine (calls_mapMemory _ _ _).bind (by rintro h cs ⟨answer, -, hr⟩; cases hr) ?_
  rintro a cs ⟨answer, rfl, -⟩
  have hmapped : Asked [] [length] [⟨.mmap d.fd va.toInt64 length protReadWrite Mali.mapShared, answer⟩] := ⟨rfl, rfl⟩
  split
  · exact .pure hmapped
  · refine (calls_error _ _).next fun _ _ => (calls_freeRegion va).ignore.bind ?_ ?_
    · rintro h cs ⟨hr, -⟩
      cases hr
    · rintro u cs ⟨-, -, hfree⟩
      exact .fail (hmapped.append hfree)

/-- The first mapping of a region has the length that was planned. -/
theorem calls_mapAnswer (plan : RegionPlan) (size : Int64) (reply : RegionReply) :
    Calls d (mapAnswer plan size reply : Op κ Region) fun _ cs => ∃ ls, Asked [] (plan.mapLength :: ls) cs := by
  unfold mapAnswer
  refine (calls_mapRegion _ _ _ _).bind (fun h cs hfirst => ⟨[], hfirst⟩) fun p cs hfirst => ?_
  split
  · refine (calls_mapRegion _ _ _ _).bind ?_ ?_
    · exact fun h ds hsecond => ⟨_, hfirst.append hsecond⟩
    · exact fun q ds hsecond => .pure ⟨_, hfirst.append hsecond⟩
  · exact .pure ⟨[], hfirst⟩

/-- A region is asked for as it is planned, and mapped so unless that fails before. -/
theorem calls_newRegion (size : Int64) (wish : UInt32) (flags : UInt64) :
    Calls d (newRegion size wish flags : Op κ Region) fun r cs =>
      ∃ ls, Asked [(Region.planned d.generation d.options.pageSize size wish flags).request] ls cs ∧
        (ls.head? = some (Region.planned d.generation d.options.pageSize size wish flags).mapLength ∨
          ls = [] ∧ ∃ f, r = .error f) := by
  unfold newRegion
  refine (calls_debug _ _).next fun _ _ => calls_device.next fun _ hd => ?_
  subst hd
  refine (calls_allocRegion _).bind (fun f cs hasked => ⟨[], hasked, .inr ⟨rfl, f, rfl⟩⟩) fun reply cs hasked => ?_
  split
  · refine (calls_mapAnswer _ size reply).mono ?_
    rintro r ds ⟨ls, hmapped⟩
    exact ⟨_, hasked.append hmapped, .inl rfl⟩
  · exact (calls_error _ _).next fun _ _ => .fail ⟨[], hasked, .inr ⟨rfl, _, rfl⟩⟩

end Device

/-- Making a region comes to a region or a fault, and asks for one region on the way.  Its pages, its bytes and the
first mapping fit the address space that is asked for, and a growable region asks for as few units of 2 MiB as it needs.
Only where the oldest generation makes code, the address space and the mapping are the same for all regions. -/
theorem alloc_reserves (size : Int64) (wish : UInt32) (flags : UInt64) {m : Machine κ} {k : Nat} (hk : 12 ≤ k)
    (hk' : k ≤ 21) (hpage : m.device.options.pageSize.toInt = 2 ^ k) (hpos : 0 < size)
    (hsum : size.toInt + 2 ^ k < 2 ^ 63) :
    ∃ (r : Except Fault Region) (plan : RegionPlan) (ls : List Int64) (cs : List CallRecord) (m' : Machine κ),
      (Device.alloc size wish flags).exec m = (r.mapError Halt.fault, m') ∧ SameInside m m' ∧
      m'.calls = cs ++ m.calls ∧ Asked [plan.request] ls cs ∧
      (ls.head? = some plan.mapLength ∨ ls = [] ∧ ∃ f, r = .error f) ∧
      (¬Region.FixedSpace m.device.generation wish →
        plan.Covers m.device.options.pageSize size (hasFlag wish AllocFlag.heap)) ∧
      (Region.FixedSpace m.device.generation wish →
        plan.Rigid m.device.options.pageSize size (hasFlag wish AllocFlag.heap) k) := by
  obtain ⟨r, cs, m₁, he, hcalled, ls, hasked, hfirst⟩ := Device.calls_newRegion size wish flags m rfl
  obtain ⟨n, hn⟩ := Int.eq_ofNat_of_zero_le (Int.le_of_lt (Int64.lt_iff_toInt_lt.1 hpos))
  have hpage' : m.device.options.pageSize.toInt = (2 ^ k : Nat) := by exact_mod_cast hpage
  have hsum' : n + 2 ^ k < 2 ^ 63 := by
    rw [hn] at hsum
    exact_mod_cast hsum
  have hfits (h : ¬Region.FixedSpace m.device.generation wish) := Region.covers_planned flags hn hpage' hk' hsum' h
  have hrigid (h : Region.FixedSpace m.device.generation wish) := Region.rigid_planned flags hn hpage' hk hsum' h
  rw [Device.alloc_eq]
  cases r with
  | error f =>
    refine ⟨.error f, _, ls, cs, m₁, ?_, hcalled.toSameInside, hcalled.calls, hasked, hfirst, hfits, hrigid⟩
    rw [exec_bind, he]
    rfl
  | ok region =>
    exact ⟨.ok region, _, ls, cs, _, (exec_bind_of_ok he).trans (exec_bind_of_ok (exec_reportAllocated _ _ _)),
      ⟨hcalled.device, hcalled.allocator, hcalled.submitters, hcalled.batches⟩, hcalled.calls, hasked, hfirst, hfits,
      hrigid⟩

/-- Of the oldest generation, one page more than the fixed address space is asked for as code.  That is more than is
reserved, and what is mapped is more too. -/
theorem alloc_reserves_sample :
    let m : Machine Bench := { kernel := {}, device := { generation := .old, options := { pageSize := 4096 } } }
    let size : Int64 := 4097 * 4096
    m.device.options.pageSize.toInt = 2 ^ 12 ∧ 0 < size ∧ size.toInt + 2 ^ 12 < 2 ^ 63 ∧
    ∃ (r : Except Fault Region) (plan : RegionPlan) (ls : List Int64) (m' : Machine Bench),
      (Device.alloc size 0 0).exec m = (r.mapError Halt.fault, m') ∧ Asked [plan.request] ls m'.calls ∧
      plan.request.reserved 4096 < size.toInt ∧ ¬plan.request.commitPages ≤ plan.request.vaPages ∧
      plan.request.reserved 4096 < plan.mapLength.toInt := by
  intro m size
  have hpage : m.device.options.pageSize.toInt = 2 ^ 12 := by decide
  have hpos : 0 < size := by decide
  have hsum : size.toInt + 2 ^ 12 < 2 ^ 63 := by decide
  obtain ⟨r, plan, ls, cs, m', he, -, hcalls, hasked, -, -, hrigid⟩ :=
    alloc_reserves size 0 0 (Nat.le_refl 12) (by decide) hpage hpos hsum
  obtain ⟨hreserved, hlength, hpages, hmapped, -⟩ := hrigid ⟨rfl, by decide⟩
  refine ⟨hpage, hpos, hsum, r, plan, ls, m', he, ?_, ?_, ?_, ?_⟩
  · rwa [hcalls, List.append_nil]
  · rw [hreserved]
    decide
  · exact fun hle => absurd (hpages.1 hle) (by decide)
  · exact Int.not_le.1 fun hle => absurd (hmapped.1 hle) (by decide)

end Mali
