import Mali.Proofs.Deeds

/-!
# Regions that cannot be had

Making a region takes a request and a mapping, or two mappings where the oldest generation has to align it.  What was
taken has to be given back if something fails on the way.  It is, if the first mapping fails.  An answer that cannot be
used is dropped without giving the region back, and if the second mapping fails, the region is given back by an address
that is not its own, while the first mapping stays.  That mapping also stays if all goes well, and nothing remembers
it.

* `Device.newRegion`: making a region without telling anyone.
* `RegionCourse`: the ways that this can go.
* `live`: the mappings that were made and not ended.
* `GivesBack`: what was taken is given back.
* `alloc_gives_back`: when a region that cannot be had is given back, and when one mapping is left of one that can.
-/

namespace Mali

open Op

/-! ## The ways it can go -/

/-- Whether the answer to a request can be used.  Memory with one address on both sides needs a cookie. -/
def RegionPlan.Usable (plan : RegionPlan) (reply : RegionReply) : Prop :=
  plan.request.flags &&& MemFlag.sameVa != 0 →
    reply.flags &&& MemFlag.sameVa != 0 ∧ reply.va < Region.cookieLimit

/-- The address that the GPU has for a region, by the answer and the first mapping. -/
def RegionReply.gpu (reply : RegionReply) (cpu : Mapping) : UInt64 :=
  if reply.flags &&& MemFlag.sameVa != 0 then cpu.address else reply.va

/-- The ways that making a region can go. -/
inductive RegionCourse (plan : RegionPlan) : Except Fault Region → List Deed → Prop
  /-- The kernel refuses. -/
  | refused (f : Fault) : RegionCourse plan (.error f) []
  /-- The answer cannot be used. -/
  | unusable {reply : RegionReply} (h : ¬plan.Usable reply) (f : Fault) :
    RegionCourse plan (.error f) [.region reply]
  /-- The region cannot be mapped. -/
  | unmapped {reply : RegionReply} (h : plan.Usable reply) (f : Fault) :
    RegionCourse plan (.error f) [.freed reply.va, .region reply]
  /-- The region is mapped. -/
  | mapped {reply : RegionReply} (h : plan.Usable reply) (halign : plan.alignExecutable = false) (p : Mapping) :
    RegionCourse plan (.ok ⟨p, reply.gpu p⟩) [.mapped reply.va.toInt64 p, .region reply]
  /-- The aligned part cannot be mapped. -/
  | unaligned {reply : RegionReply} (h : plan.Usable reply) (halign : plan.alignExecutable = true) (p : Mapping)
    {gpu : UInt64} (hgpu : gpu = alignUp64 (reply.gpu p) Region.executableAlignment) (f : Fault) :
    RegionCourse plan (.error f) [.freed gpu, .mapped reply.va.toInt64 p, .region reply]
  /-- The aligned part is mapped. -/
  | aligned {reply : RegionReply} (h : plan.Usable reply) (halign : plan.alignExecutable = true) (p q : Mapping)
    {gpu : UInt64} (hgpu : gpu = alignUp64 (reply.gpu p) Region.executableAlignment) :
    RegionCourse plan (.ok ⟨q, gpu⟩) [.mapped gpu.toInt64 q, .mapped reply.va.toInt64 p, .region reply]

/-- Only where the oldest generation makes code, a part of a region is mapped again. -/
theorem Region.alignExecutable_planned_iff (g : Generation) (pageSize size : Int64) (wish : UInt32) (flags : UInt64) :
    (Region.planned g pageSize size wish flags).alignExecutable = true ↔
      hasFlag wish AllocFlag.noExecute = false ∧ g = .old := by
  unfold Region.planned
  dsimp only
  split
  · rename_i hwish
    simp [hwish]
  · rename_i hwish
    split
    · rename_i hold
      simp [hwish, hold]
    · rename_i hold
      simp [hold]

variable {κ : Type} [Kernel κ] {d : Device}

namespace Device

/-- Maps a region that was made, and again its aligned part if it has to be aligned. -/
def mapAnswer (plan : RegionPlan) (size : Int64) (reply : RegionReply) : Op κ Region := do
  let cpu ← mapRegion reply.va plan.mapLength "GPU BO" "GPU BO"
  if plan.alignExecutable then
    let gpu := alignUp64 (reply.gpu cpu) Region.executableAlignment
    let cpu ← mapRegion gpu size "GPU exec BO" "GPU EXEC BO"
    return ⟨cpu, gpu⟩
  else return ⟨cpu, reply.gpu cpu⟩

instance (plan : RegionPlan) (reply : RegionReply) : Decidable (plan.Usable reply) := by
  unfold RegionPlan.Usable
  infer_instance

/-- Makes a region of `size` bytes and maps it, without telling anyone. -/
def newRegion (size : Int64) (wish : UInt32) (flags : UInt64) : Op κ Region := do
  debug "Device::Alloc"
  let d ← device
  let plan := Region.planned d.generation d.options.pageSize size wish flags
  let reply ← Interface.allocRegion plan.request
  if plan.Usable reply then mapAnswer plan size reply
  else
    error "unusable SAME_VA allocation" [("flags", toString reply.flags), ("va", toString reply.va)]
    fail (.during (.regionAnswer reply.flags.toNat reply.va.toNat) (.ofErrno .inval))

/-- Making a region is that, and then telling the owner of the hooks. -/
theorem alloc_eq (size : Int64) (wish : UInt32) (flags : UInt64) :
    (alloc size wish flags : Op κ Region) = do
      let region ← newRegion size wish flags
      reportAllocated region.gpu size
      return region := by
  unfold alloc newRegion mapAnswer
  simp only [bind_assoc]
  refine bind_congr fun _ => bind_congr fun d => bind_congr fun reply => ?_
  by_cases husable : RegionPlan.Usable (Region.planned d.generation d.options.pageSize size wish flags) reply
  · rw [if_pos husable, if_neg (fun h => h.2 (husable h.1)), bind_assoc]
    refine bind_congr fun cpu => ?_
    split
    · rw [bind_assoc]
      rfl
    · rw [pure_bind]
      rfl
  · rw [if_neg husable, if_pos, bind_assoc]
    · rfl
    · unfold RegionPlan.Usable at husable
      exact Classical.not_imp.mp husable

/-- A region that cannot be mapped is to be given back by the address that it was to be mapped at. -/
theorem does_mapRegion (va : UInt64) (length : Int64) (what title : String) :
    Does d (mapRegion va length what title : Op κ Mapping) fun out es =>
      (∃ p, out = .ok p ∧ es = [.mapped va.toInt64 p]) ∨ (∃ f, out = .error f ∧ es = [.freed va]) := by
  unfold mapRegion mapShared
  refine (does_mapMemory _ _ _).bind ?_ ?_
  · rintro h es (⟨p, hp, -⟩ | ⟨e, he, -⟩)
    · cases hp
    · cases he
  · rintro answer es (⟨p, hp, rfl⟩ | ⟨e, he, rfl⟩)
    · cases hp
      exact .pure (.inl ⟨p, rfl, rfl⟩)
    · cases he
      refine .next (calls_error _ _) fun _ _ => (does_freeRegion va).ignore.bind ?_ ?_
      · rintro h es ⟨hr, -⟩
        cases hr
      · rintro u es ⟨-, -, rfl⟩
        exact .fail (.inr ⟨_, rfl, rfl⟩)

/-- A region that was made is mapped, or the course of making it ends. -/
theorem does_mapAnswer {plan : RegionPlan} {reply : RegionReply} (h : plan.Usable reply) (size : Int64) :
    Does d (mapAnswer plan size reply : Op κ Region) fun out es => RegionCourse plan out (es ++ [.region reply]) := by
  unfold mapAnswer
  refine (does_mapRegion _ _ _ _).bind ?_ ?_
  · rintro f es (⟨p, hp, -⟩ | ⟨f', hf, rfl⟩)
    · cases hp
    · exact .unmapped h f
  · rintro p es (⟨p', hp, rfl⟩ | ⟨f, hf, -⟩)
    · cases hp
      split
      · rename_i halign
        refine (does_mapRegion _ _ _ _).bind ?_ ?_
        · rintro f es (⟨q, hq, -⟩ | ⟨f', hf, rfl⟩)
          · cases hq
          · exact .unaligned h halign p rfl f
        · rintro q es (⟨q', hq, rfl⟩ | ⟨f, hf, -⟩)
          · cases hq
            exact .pure (.aligned h halign p q rfl)
          · cases hf
      · rename_i halign
        exact .pure (.mapped h (Bool.eq_false_iff.mpr halign) p)
    · cases hf

/-- Every course of making a region is one of these. -/
theorem does_newRegion (size : Int64) (wish : UInt32) (flags : UInt64) :
    Does d (newRegion size wish flags : Op κ Region)
      (RegionCourse (Region.planned d.generation d.options.pageSize size wish flags)) := by
  unfold newRegion
  refine .next (calls_debug _ _) fun _ _ => .next calls_device fun _ hd => ?_
  subst hd
  refine (does_allocRegion _).bind ?_ ?_
  · rintro f es (⟨reply, hr, -⟩ | ⟨f', -, rfl⟩)
    · cases hr
    · exact .refused f
  · rintro reply es (⟨reply', hr, rfl⟩ | ⟨f, hf, -⟩)
    · cases hr
      split
      · exact does_mapAnswer ‹_› size
      · exact .next (calls_error _ _) fun _ _ => .fail (.unusable ‹_› _)
    · cases hf

end Device

/-! ## What is left -/

/-- The mappings that deeds made and did not end. -/
def live (es : List Deed) : Multiset Mapping := ↑(es.filterMap Deed.mapped?) - ↑(es.filterMap Deed.unmapped?)

/-- A region is given back once, by the address that the kernel made it at, and nothing else is; and no mapping is
left. -/
def GivesBack (reply : RegionReply) (es : List Deed) : Prop := es.filterMap Deed.freed? = [reply.va] ∧ live es = 0

namespace RegionCourse

variable {plan : RegionPlan} {f : Fault} {region : Region} {es : List Deed}

/-- The kernel makes one region at most. -/
theorem length_region_le {r : Except Fault Region} (h : RegionCourse plan r es) :
    (es.filterMap Deed.region?).length ≤ 1 := by
  cases h <;> first | exact Nat.zero_le 1 | exact Nat.le_refl 1

/-- A failure gives a region back exactly if the answer could be used and nothing was mapped yet. -/
theorem givesBack_iff (h : RegionCourse plan (.error f) es) {reply : RegionReply} (hreply : .region reply ∈ es) :
    GivesBack reply es ↔ plan.Usable reply ∧ es.filterMap Deed.mapped? = [] := by
  cases h with
  | refused => cases hreply
  | unusable hunusable =>
    obtain rfl : reply = _ := by simpa using hreply
    exact iff_of_false (fun h => by cases h.1) fun h => hunusable h.1
  | unmapped husable =>
    obtain rfl : reply = _ := by simpa using hreply
    exact iff_of_true ⟨rfl, rfl⟩ ⟨husable, rfl⟩
  | unaligned _ _ p => exact iff_of_false (fun h => Multiset.singleton_ne_zero p h.2) fun h => by cases h.2

/-- A region that was made has the newest mapping, and is not given back.  It has the only mapping exactly if no part
of it had to be mapped again. -/
theorem live_ok (h : RegionCourse plan (.ok region) es) :
    es.filterMap Deed.freed? = [] ∧ (∃ rest, live es = region.cpu ::ₘ rest) ∧
      (live es = {region.cpu} ↔ plan.alignExecutable = false) := by
  cases h with
  | mapped _ halign p => exact ⟨rfl, ⟨0, rfl⟩, iff_of_true rfl halign⟩
  | aligned _ halign p q =>
    refine ⟨rfl, ⟨{p}, rfl⟩, iff_of_false (fun h => ?_) (by simp [halign])⟩
    exact absurd (show 2 = 1 from congrArg Multiset.card h) (by decide)

end RegionCourse

omit [Kernel κ] in
/-- The hook is called if there is one. -/
theorem exec_reportAllocated (va : UInt64) (size : Int64) (m : Machine κ) :
    (Device.reportAllocated va size).exec m = (.ok (), { m with
      reports := (if m.device.options.hooks.allocate then [.allocated va size] else []) ++ m.reports }) := by
  unfold Device.reportAllocated
  rw [exec_bind_of_ok (exec_device m)]
  split <;> rfl

/-- Making a region comes to a region or a fault, whatever the kernel answers.  If it fails after the kernel made the
region, no hook is called, and what was taken is given back exactly if the answer could be used and the failure is
that of the first mapping.  If it succeeds, one mapping is left exactly if no part of the region had to be aligned, and
the one that is handed out is the newest. -/
theorem alloc_gives_back (size : Int64) (wish : UInt32) (flags : UInt64) (m : Machine κ) :
    ∃ (r : Except Fault Region) (es : List Deed) (m' : Machine κ),
      (Device.alloc size wish flags).exec m = (r.mapError Halt.fault, m') ∧ SameInside m m' ∧
      (∃ cs, m'.calls = cs ++ m.calls ∧ deedsOf cs = es) ∧ (es.filterMap Deed.region?).length ≤ 1 ∧
      (∀ f, r = .error f → m'.reports = m.reports ∧
        ∀ reply, .region reply ∈ es → (GivesBack reply es ↔
          (Region.planned m.device.generation m.device.options.pageSize size wish flags).Usable reply ∧
            es.filterMap Deed.mapped? = [])) ∧
      ∀ region, r = .ok region → es.filterMap Deed.freed? = [] ∧ (∃ rest, live es = region.cpu ::ₘ rest) ∧
        (live es = {region.cpu} ↔ hasFlag wish AllocFlag.noExecute = true ∨ m.device.generation ≠ .old) ∧
        m'.reports = (if m.device.options.hooks.allocate then [.allocated region.gpu size] else []) ++ m.reports := by
  obtain ⟨r, es, m₁, he, hdid, hcourse⟩ := Device.does_newRegion size wish flags m rfl
  rw [Device.alloc_eq]
  cases r with
  | error f =>
    refine ⟨.error f, es, m₁, ?_, hdid.toSameInside, hdid.calls, hcourse.length_region_le, fun f' hf => ?_, nofun⟩
    · rw [exec_bind, he]
      rfl
    · cases hf
      exact ⟨hdid.reports, fun reply => hcourse.givesBack_iff⟩
  | ok region =>
    refine ⟨.ok region, es, _, (exec_bind_of_ok he).trans (exec_bind_of_ok (exec_reportAllocated _ _ _)),
      ⟨hdid.device, hdid.allocator, hdid.submitters, hdid.batches⟩, hdid.calls, hcourse.length_region_le, nofun,
      fun region' hregion => ?_⟩
    cases hregion
    obtain ⟨hfreed, hnewest, honly⟩ := hcourse.live_ok
    refine ⟨hfreed, hnewest, honly.trans ?_, by rw [hdid.device, hdid.reports]⟩
    rw [← Bool.not_eq_true, Region.alignExecutable_planned_iff, not_and_or, Bool.not_eq_false]

end Mali
