import Mali.Proofs.Rounding
import Mali.Proofs.Searches

/-!
# How large a buffer is that was created

A request is rounded up to whole pages, in words that wrap.  Below the last page of the words the rounded request is
at least what was asked for, and so is whatever comes from the cache or from the kernel.  In the last page the sum
wraps: the rounded request is the smallest word, and any cached buffer with the flags is large enough for it.

* `toInt_pageUp`: what rounding comes to.
* `Attempt.For.asks`: what is asked of the device.
* `create_sized`: how large a created buffer is.
-/

namespace Mali

open Op

/-! ## Whole pages -/

/-- The largest request that can be rounded up. -/
def largestSize : Int := 2 ^ 63 - 4096

theorem toBitVec_pageUp (size : Int64) : (pageUp size).toBitVec = (size.toBitVec + 4095#64) &&& ~~~4095#64 := by
  have hmask : (~~~(pageAlign.toUInt64 - 1)).toInt64.toBitVec = ~~~4095#64 := by decide
  have hadd : (size + pageAlign.toUInt64.toInt64 - 1).toBitVec = size.toBitVec + 4095#64 := by
    show size.toBitVec + 4096#64 - 1#64 = _
    rw [BitVec.sub_eq_add_neg, BitVec.add_assoc]
    rfl
  rw [pageUp, alignUp, Int64.toBitVec_and, hmask, hadd]

/-- Requests are rounded up to whole pages, but for those whose last page would lie past the words. -/
theorem toInt_pageUp {size : Int64} (h : 0 < size) : (pageUp size).toInt =
    if size.toInt ≤ largestSize then (size.toInt + 4095) / 4096 * 4096 else -2 ^ 63 := by
  have hpos : (0 : Int) < size.toInt := Int64.lt_iff_toInt_lt.1 h
  have hbits : (pageUp size).toBitVec.toNat = (size.toBitVec.toNat + 4095) % 2 ^ 64 / 4096 * 4096 := by
    rw [toBitVec_pageUp]
    exact (toNat_and_high _ (k := 12) (by decide)).trans (by rw [BitVec.toNat_add]; rfl)
  rw [Int64.toInt, BitVec.toInt_eq_toNat_cond] at hpos
  rw [largestSize, Int64.toInt, BitVec.toInt_eq_toNat_cond, hbits, Int64.toInt, BitVec.toInt_eq_toNat_cond]
  have := size.toBitVec.isLt
  omega

/-- A request that can be rounded up is not rounded down. -/
theorem le_pageUp_iff {size : Int64} (h : 0 < size) :
    (0 < pageUp size ∧ size ≤ pageUp size) ↔ size.toInt ≤ largestSize := by
  have hpos : (0 : Int) < size.toInt := Int64.lt_iff_toInt_lt.1 h
  rw [Int64.lt_iff_toInt_lt, Int64.le_iff_toInt_le, toInt_pageUp h]
  show ((0 : Int) < _ ∧ _) ↔ _
  split <;> omega

variable {κ : Type} [Kernel κ] {size : Int64} {flags : UInt32} {label : String} {m m' : Machine κ} {x : Nat}

/-! ## What is found -/

/-- What is fetched is large enough. -/
theorem fetch_size {patient : Bool}
    (he : (Allocator.fetch size flags label patient).exec m = (.ok (some x), m')) :
    ∃ b, m'.allocator.buffers[x]? = some b ∧ size ≤ b.size := by
  unfold Allocator.fetch at he
  rw [exec_bind_of_ok (exec_allocator m)] at he
  obtain ⟨hnone, -⟩ | ⟨entry, -, y, b, -, hy, hsize, -, ⟨hnone, -⟩ | ⟨hsome, m₁, hidle, hreuse⟩⟩ := fetchFrom_ok he
  · cases hnone
  · cases hnone
  · cases hsome
    have hpass : Bypasses (some x) m m' :=
      ((bypasses_isIdle x patient).ok hidle).trans ((bypasses_reuse x label).ok hreuse).weaken
    obtain ⟨b', hx, houtline⟩ := hpass.outline hy
    have hsame : b'.size = b.size := congrArg (·.2.1) houtline
    exact ⟨b', hx, hsame.symm ▸ hsize⟩

/-- What is allocated is a region of the size that was asked for. -/
theorem allocate_size (he : (Allocator.allocate size flags label).exec m = (.ok x, m')) :
    ∃ wish memFlags region m₁ b, (Device.alloc size wish memFlags).exec m = (.ok region, m₁) ∧
      m'.allocator.buffers[x]? = some b ∧ b.size = size ∧ b.gpu = region.gpu ∧ b.cpu = some region.cpu := by
  obtain ⟨wish, memFlags, region, m₁, m₂, halloc, hwrap, rfl⟩ := allocate_ok he
  obtain ⟨rfl, b, hbuffers, hsize, -, -, -, hgpu, hcpu⟩ := wrapRegion_buffer hwrap
  refine ⟨wish, memFlags, region, m₁, b, halloc, ?_, hsize, hgpu, hcpu⟩
  show m₂.allocator.buffers[_]? = _
  rw [hbuffers, List.getElem?_concat_length]

/-- By induction on the late attempts. -/
theorem LateRungs.sized {left : Nat} {as : List (Attempt κ)} (h : LateRungs size flags label left m as (.ok x) m') :
    ∃ b, m'.allocator.buffers[x]? = some b ∧ size ≤ b.size := by
  generalize hr : (.ok x : Except Fault Nat) = r at h
  induction h with
  | found _ ha =>
    cases hr
    obtain ⟨_, _, _, _, b, -, hx, hsize, -⟩ := allocate_size (attempt_ok ha)
    exact ⟨b, hx, hsize.symm ▸ Int64.le_refl _⟩
  | last => cases hr
  | again _ _ _ _ ih => exact ih hr

theorem Ladder.sized {as : List (Attempt κ)} (h : Ladder size flags label m as (.ok x) m') :
    ∃ b, m'.allocator.buffers[x]? = some b ∧ size ≤ b.size := by
  cases h with
  | cached hfetch => exact fetch_size hfetch
  | fresh _ ha =>
    obtain ⟨_, _, _, _, b, -, hx, hsize, -⟩ := allocate_size (attempt_ok ha)
    exact ⟨b, hx, hsize.symm ▸ Int64.le_refl _⟩
  | patient _ _ hpatient => exact fetch_size hpatient
  | late _ _ _ h => exact h.sized

/-! ## What is asked for -/

/-- An attempt asks the device for a region of some size, and makes a buffer of that size of it. -/
def Attempt.Asks (size : Int64) (a : Attempt κ) : Prop :=
  ∃ wish memFlags r m₁, (attempt (Device.alloc size wish memFlags)).exec a.before = (.ok r, m₁) ∧
    ∀ y, a.outcome = .ok y → ∃ region b, r = .ok region ∧ a.after.allocator.buffers[y]? = some b ∧
      b.size = size ∧ b.gpu = region.gpu ∧ b.cpu = some region.cpu

theorem Attempt.For.asks {a : Attempt κ} (h : a.For size flags label) : a.Asks size := by
  obtain ⟨_, before, outcome, after⟩ := a
  cases outcome with
  | ok y =>
    obtain ⟨wish, memFlags, region, m₁, b, halloc, hb⟩ := allocate_size (attempt_ok h)
    refine ⟨wish, memFlags, .ok region, m₁, by rw [exec_attempt, halloc], fun z hz => ?_⟩
    cases hz
    exact ⟨region, b, rfl, hb⟩
  | error f =>
    obtain ⟨_, _, ⟨f', halloc, -⟩ | ⟨region, _, m₁, _, halloc, -⟩⟩ := allocate_survives (attempt_fault h) trivial
    · exact ⟨_, _, .error f', after, by rw [exec_attempt, halloc], fun _ => nofun⟩
    · exact ⟨_, _, .ok region, m₁, by rw [exec_attempt, halloc], fun _ => nofun⟩

/-! ## What is created -/

/-- Handing a buffer out leaves its size. -/
theorem handOut_size {u : Unit} {b : Buffer} (he : (Allocator.handOut x).exec m = (.ok u, m'))
    (hx : m.allocator.buffers[x]? = some b) : ∃ b', m'.allocator.buffers[x]? = some b' ∧ b'.size = b.size := by
  obtain ⟨rest, hrest⟩ := ((tallies_handOut x).ok he).sizes
  have hlt : x < (m.allocator.buffers.map (·.size)).length := by
    rw [List.length_map]
    exact (List.getElem?_eq_some_iff.1 hx).1
  have hkept := congrArg (·[x]?) hrest
  simp only [List.getElem?_append_left hlt, List.getElem?_map, hx, Option.map_some] at hkept
  exact Option.map_eq_some_iff.1 hkept.symm

/-- A created buffer is at least as large as the request rounded up, which is what every allocation on the way asked
the device for.  So it is at least as large as the request, and a region that was asked for is too, unless the request
lies in the last page of the words: that is rounded to the smallest word, and no buffer of whole pages is large
enough. -/
theorem create_sized (he : (Allocator.create size flags label).exec m = (.ok x, m')) :
    ∃ b, m'.allocator.buffers[x]? = some b ∧ pageUp size ≤ b.size ∧ (size.toInt ≤ largestSize → size ≤ b.size) ∧
      ((4096 : Int) ∣ b.size.toInt → size ≤ b.size → size.toInt ≤ largestSize) ∧
      (0 < pageUp size ∧ size ≤ pageUp size ↔ size.toInt ≤ largestSize) ∧
      (largestSize < size.toInt → pageUp size = Int64.minValue) ∧
      ∃ as m₁ m₂, SameInside m m₁ ∧ Ladder (pageUp size) flags label m₁ as (.ok x) m₂ ∧
        (Allocator.handOut x).exec m₂ = (.ok (), m') ∧ ∀ a ∈ as, a.Asks (pageUp size) := by
  obtain ⟨hvalid, as, m₂, hladder, hout⟩ := create_ok he
  have hpos : 0 < size := by
    by_contra hle
    rw [Allocator.refusal?, if_pos (Int64.not_lt.1 hle)] at hvalid
    cases hvalid
  obtain ⟨b, hx, hsize⟩ := hladder.sized
  obtain ⟨b', hx', hsame⟩ := handOut_size hout hx
  have hlogged : SameInside m { m with log := ⟨.debug, "Allocator::Create", []⟩ :: m.log } := ⟨rfl, rfl, rfl, rfl⟩
  have hround := le_pageUp_iff hpos
  refine ⟨b', hx', hsame ▸ hsize, fun hle => hsame ▸ Int64.le_trans (hround.2 hle).2 hsize, fun hpages hle => ?_,
    hround, fun hlt => ?_, as, _, m₂, hlogged, hladder, hout, fun a ha => (hladder.attempts a ha).asks⟩
  · have hmax : b'.size.toInt ≤ 2 ^ 63 - 1 := b'.size.toInt_le
    rw [Int64.le_iff_toInt_le] at hle
    obtain ⟨pages, hpages⟩ := hpages
    rw [largestSize]
    omega
  · refine Int64.toInt_inj.1 ?_
    rw [toInt_pageUp hpos, if_neg (Int.not_le.2 hlt)]
    rfl

/-- With a page in the cache, a request for all the words there are gets that page. -/
theorem create_sized_sample :
    ∃ m', (Allocator.create Int64.maxValue 0 "huge").exec Depot.cached = (.ok 0, m') ∧
      ∃ b, m'.allocator.buffers[0]? = some b ∧ pageUp Int64.maxValue ≤ b.size ∧ b.size < Int64.maxValue := by
  have he : (Allocator.create Int64.maxValue 0 "huge").exec Depot.cached =
      (.ok 0, ((Allocator.create Int64.maxValue 0 "huge").exec Depot.cached).2) :=
    exec_of_value (by decide +kernel)
  obtain ⟨b, hx, hle, -⟩ := create_sized he
  refine ⟨_, he, b, hx, hle, ?_⟩
  have hsize : (((Allocator.create Int64.maxValue 0 "huge").exec Depot.cached).2.allocator.buffers[0]?.map
      (·.size)) = some 4096 := by decide +kernel
  rw [hx] at hsize
  rw [show b.size = 4096 from Option.some.inj hsize]
  decide

end Mali
