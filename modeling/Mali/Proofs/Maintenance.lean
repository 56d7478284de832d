import Mali.Proofs.Requests

/-!
# Ranges that are cleaned and invalidated

A range of a buffer is checked before it is cleaned or invalidated.  The check adds the offset and the length in words
that wrap.  As long as the sum is a word, the check is exact: a range is refused if it leaves the buffer, and otherwise
the kernel is asked once to bring a cached range up to date, if there is anything in it.  If the sum wraps, the check
takes the range for one that ends before it begins, and lets it pass.  A cached buffer is then cut outside its mapping,
which stops the program.

* `RangeFits`, `RangeWraps`: a range in a buffer, and a range whose end wraps.
* `checkRange_eq_ok_iff`: what the check accepts.
* `Device.calls_syncMapping`: bringing a mapping up to date is one request.
* `maintain_refuses_outside`: what becomes of a range.
-/

namespace Mali

open Op

/-! ## The check -/

/-- A range lies in `size` bytes. -/
def RangeFits (offset length size : Int64) : Prop :=
  0 ≤ offset.toInt ∧ 0 ≤ length.toInt ∧ offset.toInt + length.toInt ≤ size.toInt

/-- The end of a range is past the words, and comes out as a number that is not past `size`. -/
def RangeWraps (offset length size : Int64) : Prop :=
  0 ≤ offset.toInt ∧ 0 ≤ length.toInt ∧ 2 ^ 63 ≤ offset.toInt + length.toInt ∧
    offset.toInt + length.toInt - 2 ^ 64 ≤ size.toInt

variable {offset length size : Int64}

instance : Decidable (RangeFits offset length size) := by
  unfold RangeFits
  infer_instance

/-- The end of a range, in words. -/
theorem toInt_end (hoffset : 0 ≤ offset.toInt) (hlength : 0 ≤ length.toInt) : (offset + length).toInt =
    if offset.toInt + length.toInt < 2 ^ 63 then offset.toInt + length.toInt
    else offset.toInt + length.toInt - 2 ^ 64 := by
  have := offset.toInt_lt
  have := length.toInt_lt
  rw [Int64.toInt_add, Int.bmod_def]
  omega

/-- The check accepts the ranges that fit, and those that wrap. -/
theorem checkRange_eq_ok_iff :
    checkRange offset length size = .ok () ↔ RangeFits offset length size ∨ RangeWraps offset length size := by
  have hoffset : offset < 0 ↔ offset.toInt < 0 := Int64.lt_iff_toInt_lt
  have hlength : length < 0 ↔ length.toInt < 0 := Int64.lt_iff_toInt_lt
  have hend : size < offset + length ↔ size.toInt < (offset + length).toInt := Int64.lt_iff_toInt_lt
  have hleaves : (offset < 0 ∨ length < 0 ∨ size < offset + length) ↔
      ¬(RangeFits offset length size ∨ RangeWraps offset length size) := by
    have hsize := size.toInt_lt
    rw [hoffset, hlength, hend]
    unfold RangeFits RangeWraps
    by_cases hpos : 0 ≤ offset.toInt ∧ 0 ≤ length.toInt
    · rw [toInt_end hpos.1 hpos.2]
      split <;> omega
    · omega
  unfold checkRange
  split
  · rename_i hout
    exact iff_of_false nofun (hleaves.1 hout)
  · rename_i hin
    exact iff_of_true rfl (not_not.1 (mt hleaves.2 hin))

/-- What is refused is refused as a range. -/
theorem checkRange_error {f : Fault} (h : checkRange offset length size = .error f) : f.cause = .range := by
  unfold checkRange at h
  split at h
  · cases h
    rfl
  · cases h

/-! ## The request -/

/-- The range that a call brings up to date. -/
def Syscall.sync? : Syscall → Option SyncRequest
  | .ioctl _ (.memSync r) | .ioctl _ (.old _ (.memSync r)) => some r
  | _ => none

/-- The number of cleaning or invalidating.  The oldest generation numbers both one lower. -/
def syncType (g : Generation) (invalidate : Bool) : UInt8 :=
  (if invalidate then 1 else 0) + (if g = .old then 0 else 1)

variable {κ : Type} [Kernel κ] {d : Device}

/-- Bringing a range up to date is one request, whose fault is not one of ranges. -/
theorem calls_syncRange (va addr bytes : UInt64) (invalidate : Bool) :
    Calls d (Interface.syncRange va addr bytes invalidate : Op κ Unit) fun r cs =>
      (∀ f, r = .error f → f.cause ≠ .range) ∧
        ∃ c, cs = [c] ∧ c.call.sync? = some ⟨va, addr, bytes, syncType d.generation invalidate⟩ := by
  have hrequest (r : SyncRequest) : Calls d (Interface.request "MEM_SYNC" (.memSync r) : Op κ Unit) fun out cs =>
      (∀ f, out = .error f → f.cause ≠ .range) ∧ ∃ c, cs = [c] ∧ c.call.sync? = some r := by
    refine (calls_request _ _).mono ?_
    rintro out cs ⟨answer, rfl, rfl⟩
    refine ⟨fun f hf => ?_, _, rfl, rfl⟩
    cases answer with
    | ok reply => cases hf
    | error e =>
      cases hf
      exact nofun
  unfold Interface.syncRange
  refine calls_device.next fun _ hd => ?_
  subst hd
  split
  · rename_i hold
    refine (calls_oldRequest _ _).mono ?_
    rintro out cs ⟨answer, rfl, hout⟩
    refine ⟨fun f hf => ?_, _, rfl, ?_⟩
    · obtain ⟨reply, -, -, hok⟩ | ⟨-, f', e, hfault, hcause⟩ := hout
      · cases hok.symm.trans hf
      · cases hfault.symm.trans hf
        rw [hcause]
        exact nofun
    · rw [hold, syncType, if_pos rfl, UInt8.add_zero]
      rfl
  · rename_i hjm
    rw [hjm]
    exact hrequest _
  · rename_i hcsf
    rw [hcsf]
    exact hrequest _

/-- Bringing a mapping up to date is one request, unless there is nothing in it. -/
theorem Device.calls_syncMapping (va : UInt64) (cpu : Option Mapping) (invalidate : Bool) :
    Calls d (Device.syncMapping va cpu invalidate : Op κ Unit) fun r cs => (∀ f, r = .error f → f.cause ≠ .range) ∧
      if mappingLength cpu = 0 then cs = []
      else ∃ c, cs = [c] ∧ c.call.sync? =
        some ⟨va, mappingAddress cpu, UInt64.ofNat (mappingLength cpu), syncType d.generation invalidate⟩ := by
  unfold Device.syncMapping
  split
  · exact .pure ⟨nofun, rfl⟩
  · exact calls_syncRange _ _ _ _

/-! ## Ranges of a buffer -/

/-- A range in a mapped buffer is a part of its mapping. -/
theorem mappedRange_of_fits {b : Buffer} (hcpu : b.size.toInt ≤ mappingLength b.cpu)
    (h : RangeFits offset length b.size) : ∃ part, b.mappedRange? offset.toInt (offset + length).toInt = some part ∧
      mappingLength part = length.toInt ∧
      (0 < length.toInt → mappingAddress part = mappingAddress b.cpu + UInt64.ofNat offset.toInt.toNat) := by
  obtain ⟨hoffset, hlength, hle⟩ := h
  have hsize := b.size.toInt_lt
  have hend : (offset + length).toInt = offset.toInt + length.toInt := by
    rw [toInt_end hoffset hlength, if_pos (by omega)]
  unfold Buffer.mappedRange?
  rw [hend]
  cases hb : b.cpu with
  | none =>
    rw [hb] at hcpu
    have hnone : (mappingLength none : Int) = 0 := rfl
    rw [hnone] at hcpu
    dsimp only
    rw [if_pos (by omega)]
    exact ⟨none, rfl, by omega, fun hpos => by omega⟩
  | some p =>
    rw [hb] at hcpu
    have hsome : (mappingLength (some p) : Int) = p.length := rfl
    rw [hsome] at hcpu
    dsimp only [Mapping.slice?]
    rw [if_pos (by omega)]
    refine ⟨_, rfl, ?_, fun hpos => ?_⟩
    · show ((offset.toInt + length.toInt - offset.toInt).toNat : Int) = length.toInt
      omega
    · show Mapping.address _ = Mapping.address p + _
      rw [Mapping.address, Mapping.address, if_neg (by dsimp only; omega), if_neg (by omega)]

/-- A range that wraps is no part of any mapping. -/
theorem mappedRange_of_wraps {b : Buffer} (h : RangeWraps offset length b.size) :
    b.mappedRange? offset.toInt (offset + length).toInt = none := by
  obtain ⟨hoffset, hlength, hpast, -⟩ := h
  have := offset.toInt_lt
  have := length.toInt_lt
  have hend : (offset + length).toInt < 0 := by
    rw [toInt_end hoffset hlength, if_neg (by omega)]
    omega
  unfold Buffer.mappedRange?
  split
  · rw [Mapping.slice?, if_neg (by omega)]
    rfl
  · rw [if_neg (by omega)]

variable {m : Machine κ} {id : Nat} {b : Buffer}

/-- A range that wraps stops the program if the buffer is cached. -/
theorem exec_maintain_of_wraps (hb : m.allocator.buffers[id]? = some b) (h : RangeWraps offset length b.size)
    (invalidate : Bool) : (Buffer.maintain id offset length invalidate).exec m =
      (if b.cachedCpu then .error .crash else .ok (), m) := by
  unfold Buffer.maintain
  rw [exec_bind_of_ok (exec_buffer_of_some hb), checkRange_eq_ok_iff.2 (.inr h)]
  dsimp only
  split
  · rw [mappedRange_of_wraps h]
    rfl
  · rfl

/-- A range in the buffer is brought up to date by one request, if it is cached and has something in it. -/
theorem calls_maintain_of_fits (hcpu : b.size.toInt ≤ mappingLength b.cpu) (h : RangeFits offset length b.size)
    (invalidate : Bool) :
    Calls d (if b.cachedCpu then do
        let range ← require (b.mappedRange? offset.toInt (offset + length).toInt)
        Device.syncMapping b.gpu range invalidate
      else pure () : Op κ Unit) fun r cs => (∀ f, r = .error f → f.cause ≠ .range) ∧
        if b.cachedCpu = true ∧ 0 < length.toInt then
          ∃ c, cs = [c] ∧ c.call.sync? = some ⟨b.gpu, mappingAddress b.cpu + UInt64.ofNat offset.toInt.toNat,
            UInt64.ofNat length.toInt.toNat, syncType d.generation invalidate⟩
        else cs = [] := by
  obtain ⟨part, hpart, hlength, haddress⟩ := mappedRange_of_fits hcpu h
  split
  · rename_i hcached
    rw [hpart]
    refine (Device.calls_syncMapping b.gpu part invalidate).mono ?_
    rintro r cs ⟨hcause, hcalls⟩
    refine ⟨hcause, ?_⟩
    by_cases hpos : 0 < length.toInt
    · rw [if_neg (by omega), haddress hpos, show mappingLength part = length.toInt.toNat by omega] at hcalls
      rwa [if_pos ⟨hcached, hpos⟩]
    · rw [if_pos (by omega)] at hcalls
      rwa [if_neg fun h => hpos h.2]
  · rename_i hcached
    refine .pure ⟨nofun, ?_⟩
    split
    · exact absurd (And.left ‹_›) hcached
    · rfl

/-- Cleaning or invalidating a range of a mapped buffer refuses the ranges outside the buffer, and no others.  For a
range with something in it, the kernel is asked once if the buffer is cached.  Only a range whose end wraps is not
refused: a cached buffer stops the program then, and for another one nothing happens. -/
theorem maintain_refuses_outside (hb : m.allocator.buffers[id]? = some b)
    (hcpu : b.size.toInt ≤ mappingLength b.cpu) (offset length : Int64) (invalidate : Bool) :
    (RangeWraps offset length b.size → (Buffer.maintain id offset length invalidate).exec m =
      (if b.cachedCpu then .error .crash else .ok (), m)) ∧
    (¬RangeWraps offset length b.size → ∃ (r : Except Fault Unit) (cs : List CallRecord) (m' : Machine κ),
      (Buffer.maintain id offset length invalidate).exec m = (r.mapError Halt.fault, m') ∧ Called cs m m' ∧
      ((∃ f, r = .error f ∧ f.cause = .range) ↔ ¬RangeFits offset length b.size) ∧
      if RangeFits offset length b.size ∧ b.cachedCpu = true ∧ 0 < length.toInt then
        ∃ c, cs = [c] ∧ c.call.sync? = some ⟨b.gpu, mappingAddress b.cpu + UInt64.ofNat offset.toInt.toNat,
          UInt64.ofNat length.toInt.toNat, syncType m.device.generation invalidate⟩
      else cs = []) := by
  refine ⟨fun h => exec_maintain_of_wraps hb h invalidate, fun hwraps => ?_⟩
  unfold Buffer.maintain
  rw [exec_bind_of_ok (exec_buffer_of_some hb)]
  by_cases hfits : RangeFits offset length b.size
  · rw [checkRange_eq_ok_iff.2 (.inl hfits)]
    obtain ⟨r, cs, m', he, hcalled, hcause, hcalls⟩ := calls_maintain_of_fits hcpu hfits invalidate m rfl
    refine ⟨r, cs, m', he, hcalled, ⟨?_, fun h => absurd hfits h⟩, ?_⟩
    · rintro ⟨f, hf, hrange⟩
      exact absurd hrange (hcause f hf)
    · simpa only [hfits, true_and] using hcalls
  · cases hcheck : checkRange offset length b.size with
    | ok u => exact absurd (checkRange_eq_ok_iff.1 hcheck) (not_or.2 ⟨hfits, hwraps⟩)
    | error f =>
      refine ⟨.error f, [], m, rfl, .refl m, iff_of_true ⟨f, rfl, checkRange_error hcheck⟩ hfits, ?_⟩
      split
      · exact absurd (And.left ‹_›) hfits
      · rfl

/-- The second half of a cached page is cleaned by one request.  A range that begins at the last byte of all words stops
the program. -/
theorem maintain_refuses_outside_sample :
    let b : Buffer :=
      { gpu := 0x8000, cpu := some ⟨0x1000, 4096⟩, size := 4096, flags := 16, handle := 0, cachedCpu := true }
    let m : Machine Bench := { kernel := {}, allocator := { buffers := [b] } }
    m.allocator.buffers[0]? = some b ∧ b.size.toInt ≤ mappingLength b.cpu ∧
    (Buffer.maintain 0 Int64.maxValue 1 false).exec m = (.error .crash, m) ∧
    ∃ r m' c, (Buffer.maintain 0 2048 2048 false).exec m = (Except.mapError Halt.fault r, m') ∧ m'.calls = [c] ∧
      c.call.sync? = some ⟨0x8000, 0x1800, 2048, 1⟩ := by
  intro b m
  have hb : m.allocator.buffers[0]? = some b := rfl
  have hcpu : b.size.toInt ≤ mappingLength b.cpu := by decide
  refine ⟨hb, hcpu, ?_, ?_⟩
  · exact (maintain_refuses_outside hb hcpu Int64.maxValue 1 false).1 (by unfold RangeWraps; decide)
  · obtain ⟨r, cs, m', he, hcalled, -, hcalls⟩ :=
      (maintain_refuses_outside hb hcpu 2048 2048 false).2 (by unfold RangeWraps; decide)
    rw [if_pos (by decide)] at hcalls
    obtain ⟨c, rfl, hsync⟩ := hcalls
    exact ⟨r, m', c, he, hcalled.calls, hsync⟩

end Mali
