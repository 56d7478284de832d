import Mali.Proofs.Holdings

/-!
# Mappings that change hands

A mapping that was made goes to a buffer or to a stream, and back when the buffer is freed or the stream is unmapped.
Each operation that moves one leaves nothing in hand: what it cannot put into its place it ends.

* `conserves_free`: a buffer and its handle go.
* `addBuffer_ok`, `conserves_allocate`: a new buffer has a mapping.
* `Imported`: what an import comes to.
* `conserves_unmapStream`, `conserves_bindStream`, `conserves_rebindStream`: the pages of a stream.
* `conserves_handleEvents`: what callbacks do.
-/

namespace Mali

open Op

/-- An entry of a list changes, seen through what is picked from it. -/
theorem filterMap_modify {α β : Type} {g : α → Option β} {f : α → α} {l : List α} {i : Nat} {a : α}
    (h : l[i]? = some a) : (((l.modify i f).filterMap g : List β) : Multiset β) + ↑(g a).toList =
      ↑(l.filterMap g) + ↑(g (f a)).toList := by
  have hpick (b : α) (l : List α) : (((b :: l).filterMap g : List β) : Multiset β) =
      ↑(g b).toList + ↑(l.filterMap g) := by
    rw [List.filterMap_cons]
    cases g b <;> simp
  induction l generalizing i with
  | nil => simp at h
  | cons b l ih =>
    cases i with
    | zero =>
      obtain rfl : b = a := by simpa using h
      rw [List.modify_zero_cons, hpick, hpick]
      abel
    | succ i =>
      rw [List.modify_succ_cons, hpick, hpick, add_assoc, ih (by simpa using h), add_assoc]

/-- A change that is none for an entry. -/
theorem modify_of_eq {α : Type} {f : α → α} {l : List α} {i : Nat} {a : α} (h : l[i]? = some a) (hf : f a = a) :
    l.modify i f = l := by
  refine List.ext_getElem? fun j => ?_
  rw [getElem?_modify_of_some h, hf]
  split
  · rename_i hij
    rw [← hij, h]
  · rfl

variable {κ : Type} {m m' : Machine κ}

/-- An operation puts away a mapping that is in hand. -/
def PutsAway (p : Mapping) (m m' : Machine κ) : Prop := m.Housed → m'.Housed ∧ Carries {p} 0 m m'

/-- What maps something leaves nothing in hand if the mapping is put away. -/
theorem conserves_bind_maps {α β : Type} {g : α → Mapping} {x : Op κ α} {f : α → Op κ β} (hx : MapsAt g x m)
    (hf : ∀ a m₁, x.exec m = (.ok a, m₁) → KeepsAt (PutsAway (g a)) (f a) m₁) :
    KeepsAt Conserves (x >>= f) m := by
  refine keepsAt_of_exec fun {r m'} he hr hm => ?_
  rcases bind_survives he hr with ⟨_, h₁, -⟩ | ⟨a, m₁, h₁, he⟩
  · have hnone := hx.survives h₁ trivial
    exact ⟨hnone.housed hm, hnone.carries 0⟩
  · have hone := hx.survives h₁ trivial
    obtain ⟨hm', hrest⟩ := (hf a m₁ h₁).survives he hr (hone.housed hm)
    exact ⟨hm', (hone.carries 0).trans hrest⟩

/-- What is put away stays away. -/
theorem putsAway_bind {α β : Type} {p : Mapping} {x : Op κ α} {f : α → Op κ β} (hx : KeepsAt (PutsAway p) x m)
    (hf : ∀ a, Keeps Conserves (f a)) : KeepsAt (PutsAway p) (x >>= f) m := by
  refine keepsAt_of_exec fun {r m'} he hr hm => ?_
  rcases bind_survives he hr with ⟨_, h₁, -⟩ | ⟨a, m₁, h₁, he⟩
  · exact hx.survives h₁ trivial hm
  · obtain ⟨hm₁, hcarries⟩ := hx.survives h₁ trivial hm
    obtain ⟨hm', hrest⟩ := (hf a m₁).survives he hr hm₁
    exact ⟨hm', hcarries.trans hrest⟩

/-- What buffers give up or take is in hand. -/
theorem Machine.mappings_of_mapped {a b : Multiset Mapping}
    (hp : m'.device.preparation = m.device.preparation) (hr : m'.device.rings = m.device.rings)
    (h : (m'.allocator.mapped : Multiset Mapping) + a = m.allocator.mapped + b) :
    a + m'.mappings = b + m.mappings := by
  rw [mappings, mappings, hp, hr, add_comm a, add_assoc, h]
  abel

/-- What streams give up or take is in hand. -/
theorem Machine.mappings_of_rings {a b : Multiset Mapping}
    (hp : m'.device.preparation = m.device.preparation) (ha : m'.allocator.mapped = m.allocator.mapped)
    (h : (m'.device.rings : Multiset Mapping) + a = m.device.rings + b) :
    a + m'.mappings = b + m.mappings := by
  rw [mappings, mappings, hp, ha, add_comm a, add_right_comm, add_assoc _ _ a, h]
  abel

/-- Where mappings are depends on the allocator, and on what handles own. -/
theorem Machine.Housed.of_owns {o : Option Nat} (h : m.Housed o) (hg : m'.device.generation = m.device.generation)
    (howns : ∀ k fd, m'.Owns k fd ↔ m.Owns k fd) (ha : m'.allocator = m.allocator) : m'.Housed o := by
  obtain ⟨hgeneration, himports, hlive, hpending, hbuffers, harena⟩ := h
  constructor
  · exact hg.trans hgeneration
  all_goals simp only [howns, ha]; assumption

theorem Machine.Housed.of_streams {o : Option Nat} (h : m.Housed o)
    (hd : m'.device = { m.device with streams := m'.device.streams }) (ha : m'.allocator = m.allocator) :
    m'.Housed o := h.of_owns (by rw [hd]) (fun k fd => by rw [Machine.Owns, hd, Machine.Owns]) ha

/-! ## Handles -/

/-- A live handle has the mapping that it was given. -/
theorem HandleTable.mapping_get {t : HandleTable} {k : Nat} {fd : Int} (h : t.Owns k fd) (p : Option Mapping) :
    ((t.setMapping k p).get k).mapping = p := by
  obtain ⟨e, he, -⟩ := h
  have hentry : (t.setMapping k p).entries[k]? = some { e with mapping := p } := by
    rw [setMapping, getElem?_modify_of_some he, if_pos rfl]
  have hlt := (List.getElem?_eq_some_iff.mp hentry).1
  rw [get, entry?, index?_natCast hlt, Option.bind_some, hentry]
  dsimp only
  split
  · rfl
  · rfl

/-- A new handle belongs to an import that is going on. -/
theorem Machine.Housed.alloc {va : UInt64} {fd : Int} {k : Nat} (h : m.Housed) (hfd : fd ≠ freedFd)
    (he : (Device.allocHandle va fd).exec m = (.ok k, m')) : m'.Housed (some k) := by
  obtain ⟨hk, rfl⟩ := allocHandle_ok he
  have hnone : m.allocator.lookup? k = none := by
    rw [Option.eq_none_iff_forall_ne_some]
    intro x hx
    obtain ⟨fd', ho⟩ := h.live k x hx
    rw [hk] at ho
    exact m.device.handles.not_owns_freeIndex fd' ho
  refine ⟨h.generation, fun k' fd' ho hfd' => ?_, fun k' x hx => ?_, fun k' hk' => ?_, h.buffers, h.arena⟩
  · rcases HandleTable.owns_of_alloc ho with ⟨rfl, -⟩ | ho
    · exact .inl (congrArg some hk)
    · exact .inr ((h.imports k' fd' ho hfd').resolve_left nofun)
  · obtain ⟨fd', ho⟩ := h.live k' x hx
    exact ⟨fd', HandleTable.owns_alloc _ _ _ _ _ ho⟩
  · cases hk'
    refine ⟨hnone, fd, ?_⟩
    rw [hk]
    exact HandleTable.owns_alloc_self _ _ hfd

theorem allocHandle_carries {va : UInt64} {fd : Int} {k : Nat} (a : Multiset Mapping)
    (he : (Device.allocHandle va fd).exec m = (.ok k, m')) : Carries a a m m' := by
  obtain ⟨-, rfl⟩ := allocHandle_ok he
  exact .of_eq rfl rfl rfl

/-- A handle goes, and with it what it stood for. -/
theorem Machine.Housed.drop {o : Option Nat} {k : Nat} (h : m.Housed o) (ho : ∀ k', o = some k' → k' = k)
    (hdevice : m'.device = { m.device with handles := (m.device.handles.free k).2 })
    (hlookup : ∀ k', m'.allocator.lookup? k' = if k' = k then none else m.allocator.lookup? k')
    (hbuffers : ∀ b ∈ m'.allocator.buffers, b.cpu.isSome = !b.freed)
    (harena : (m'.allocator.arena.map (·.1)).Nodup) : m'.Housed := by
  have howns (k' : Nat) (fd : Int) : m'.Owns k' fd ↔ (m.device.handles.free k).2.Owns k' fd := by
    rw [Machine.Owns, hdevice]
  refine ⟨by rw [hdevice]; exact h.generation, fun k' fd hown hfd => .inr ?_, fun k' x hx => ?_, nofun, hbuffers,
    harena⟩
  · rw [howns] at hown
    have hne : k' ≠ k := by
      rintro rfl
      exact HandleTable.not_owns_free _ _ hown
    rw [hlookup, if_neg hne]
    exact (h.imports k' fd (HandleTable.owns_of_free hown) hfd).resolve_left fun hk => hne (ho k' hk)
  · rw [hlookup] at hx
    split at hx
    · cases hx
    · rename_i hne
      obtain ⟨fd, hown⟩ := h.live k' x hx
      exact ⟨fd, (howns k' fd).mpr (HandleTable.owns_free (by exact_mod_cast hne) hown)⟩

section Kernel

variable [Kernel κ]

theorem mapsNothing_freeHandle (handle : Int) : Keeps (MapsNothing (κ := κ)) (Device.freeHandle handle) := by
  unfold Device.freeHandle Device.checkHandles Device.closeHandleFd
  refine keeps_bind keeps_device fun d => ?_
  split
  · exact keeps_pure ()
  · refine keeps_bind (MapsNothing.of_modify fun _ => rfl) fun _ => keeps_bind (keeps_checkRule _) fun _ => ?_
    split
    · exact keeps_bind_except (.of_call nofun nofun) (fun _ => keeps_pure ()) fun _ => keeps_error _ _
    · exact keeps_pure ()

/-- A mapping is ended, an error is only written to the log, and the rest goes on from there. -/
theorem unmapping_ok {α : Type} {p : Mapping} {f : Option Errno → Op κ α} {k : Op κ α} {message : String}
    {fields : Errno → List (String × String)} {a : α} (hnone : f none = k)
    (hsome : ∀ e, f (some e) = error message (fields e) >>= fun _ => k)
    (he : (unmapMemory p >>= f).exec m = (.ok a, m')) :
    ∃ m₁ c, SameInside m m₁ ∧ m₁.calls = c :: m.calls ∧ c.ended = some p ∧ k.exec m₁ = (.ok a, m') := by
  obtain ⟨r, m₁, hunmap, he⟩ := bind_ok he
  unfold unmapMemory at hunmap
  obtain ⟨answer, m₂, hcall, hunmap⟩ := bind_ok hunmap
  rw [exec_call] at hcall
  cases hcall
  have hend {m₂ : Machine κ} (he : k.exec m₂ = (.ok a, m')) (hsame : SameInside m m₂)
      (hcalls : m₂.calls = ⟨.munmap p, (Kernel.call m.kernel (.munmap p)).1.result⟩ :: m.calls) :
      ∃ m₁ c, SameInside m m₁ ∧ m₁.calls = c :: m.calls ∧ c.ended = some p ∧ k.exec m₁ = (.ok a, m') :=
    ⟨m₂, _, hsame, hcalls, rfl, he⟩
  split at hunmap
  · cases hunmap
    rw [hnone] at he
    exact hend he ⟨rfl, rfl, rfl, rfl⟩ rfl
  · cases hunmap
    rw [hsome] at he
    obtain ⟨_, m₃, herror, he⟩ := bind_ok he
    cases herror
    exact hend he ⟨rfl, rfl, rfl, rfl⟩ rfl

omit [Kernel κ] in
/-- One call that ends a mapping. -/
theorem Leaves.single {c : CallRecord} {p : Mapping} (h : c.ended = some p) (M : Multiset Mapping) :
    Leaves [c] (↑(some p).toList + M) M := by
  rw [Option.toList_some, Multiset.coe_singleton, Multiset.singleton_add]
  exact .ended h (.nil _)

/-! ## Freeing -/

/-- A buffer loses its mapping, which is ended. -/
theorem unmapBuffer_ok {x : Nat} {b : Buffer} {u : Unit} (hb : m.allocator.buffers[x]? = some b)
    (he : (Allocator.unmapBuffer x).exec m = (.ok u, m')) :
    m'.device = m.device ∧ m'.allocator.arena = m.allocator.arena ∧
      m'.allocator.buffers = m.allocator.buffers.modify x (fun b => { b with cpu := none }) ∧
      ∃ cs, m'.calls = cs ++ m.calls ∧ ∀ M : Multiset Mapping, Leaves cs (↑b.cpu.toList + M) M := by
  unfold Allocator.unmapBuffer at he
  obtain ⟨b', hb', he⟩ := bind_buffer_ok he
  rw [hb] at hb'
  cases hb'
  cases hcpu : b.cpu with
  | none =>
    rw [hcpu] at he
    cases he
    exact ⟨rfl, rfl, (modify_of_eq hb (by rw [← hcpu])).symm, [], rfl, fun M => by simpa using Leaves.nil M⟩
  | some p =>
    rw [hcpu] at he
    obtain ⟨m₁, c, hsame, hcalls, hended, he⟩ := unmapping_ok rfl (fun _ => rfl) he
    cases he
    refine ⟨hsame.device, ?_, ?_, [c], hcalls, Leaves.single hended⟩
    · show m₁.allocator.arena = _
      rw [hsame.allocator]
    · show m₁.allocator.buffers.modify x _ = _
      rw [hsame.allocator]

/-- A freed buffer holds on to nothing, its handle stands for nothing, and its mapping is ended. -/
theorem free_holds {x : Nat} {b : Buffer} {u : Unit} (hb : m.allocator.buffers[x]? = some b)
    (he : (Allocator.free x).exec m = (.ok u, m')) :
    m'.allocator.arena = m.allocator.arena.filter (·.1 ≠ b.handle) ∧
      m'.allocator.buffers.map Buffer.hold =
        (m.allocator.buffers.map Buffer.hold).modify x (fun e => (e.1, none, true)) ∧
      ∃ cs, m'.calls = cs ++ m.calls ∧ ∀ M : Multiset Mapping, Leaves cs (↑b.cpu.toList + M) M := by
  unfold Allocator.free at he
  obtain ⟨b', hb', he⟩ := bind_buffer_ok he
  rw [hb] at hb'
  cases hb'
  obtain ⟨_, m₁, h₁, he⟩ := bind_ok he
  obtain ⟨_, m₂, h₂, he⟩ := bind_ok he
  obtain ⟨_, m₃, h₃, he⟩ := bind_ok he
  obtain ⟨_, m₄, h₄, he⟩ := bind_ok he
  obtain ⟨_, m₅, h₅, he⟩ := bind_ok he
  obtain ⟨_, m₆, h₆, he⟩ := bind_ok he
  have hput₁ : StaysPut m m₁ := (keeps_writeHandle _ _).ok h₁
  have hput₃ : StaysPut m₂ m₃ := (keeps_freeBufferRegion x).ok h₃
  have hsame₅ : SameAllocator m₄ m₅ := (keeps_freeHandle _).ok h₅
  have hnothing₅ : MapsNothing m₄ m₅ := (mapsNothing_freeHandle _).ok h₅
  cases h₄
  have hend : m'.allocator.arena = m₅.allocator.arena ∧ m'.calls = m₅.calls ∧ m'.allocator.buffers =
      m₅.allocator.buffers.modify x fun b => { b with usage := [], dmabufFd := -1, freed := true } := by
    cases h₆
    cases he
    exact ⟨rfl, rfl, rfl⟩
  -- the buffer that is unmapped holds what the freed one does
  obtain ⟨b₁, hb₁, hhold⟩ : ∃ b₁, m₁.allocator.buffers[x]? = some b₁ ∧ b₁.hold = b.hold := by
    have hmap := congrArg (·[x]?) hput₁.holds
    simp only [List.getElem?_map, hb, Option.map_some, Option.map_eq_some_iff] at hmap
    exact hmap
  obtain ⟨-, harena₂, hbuffers₂, cs, hcs, hleaves⟩ := unmapBuffer_ok hb₁ h₂
  have hcpu : b₁.cpu = b.cpu := congrArg (·.2.1) hhold
  have hmark (bs : List Buffer) :
      (bs.modify x fun b => { b with usage := [], dmabufFd := -1, freed := true }).map Buffer.hold =
        (bs.map Buffer.hold).modify x fun e => (e.1, e.2.1, true) :=
    @map_modify_comm _ _ Buffer.hold _ (fun e => (e.1, e.2.1, true)) (fun _ => rfl) bs x
  have hunmap (bs : List Buffer) : (bs.modify x fun b => { b with cpu := none }).map Buffer.hold =
      (bs.map Buffer.hold).modify x fun e => (e.1, none, e.2.2) :=
    @map_modify_comm _ _ Buffer.hold _ (fun e => (e.1, none, e.2.2)) (fun _ => rfl) bs x
  refine ⟨?_, ?_, ?_⟩
  · rw [hend.1, hsame₅]
    show m₃.allocator.arena.filter _ = _
    rw [hput₃.arena, harena₂, hput₁.arena]
  · rw [hend.2.2, hmark, hsame₅]
    show (m₃.allocator.buffers.map Buffer.hold).modify x _ = _
    rw [hput₃.holds, hbuffers₂, hunmap, hput₁.holds, List.modify_modify_eq]
    rfl
  · obtain ⟨cs₁, hcs₁, hall₁⟩ := hput₁.calls
    obtain ⟨cs₃, hcs₃, hall₃⟩ := Journey.trans hput₃.calls (Journey.trans (MapsNothing.of_calls rfl) hnothing₅)
    refine ⟨cs₃ ++ (cs ++ cs₁), ?_, fun M => ?_⟩
    · rw [hend.2.1, hcs₃, hcs, hcs₁, List.append_assoc, List.append_assoc]
    · rw [← hcpu]
      exact ((Leaves.of_nothing hall₁ _).trans (hleaves M)).trans (.of_nothing hall₃ _)

/-- A freed buffer has given its mapping back, and its handle stands for nothing. -/
theorem conserves_free (x : Nat) : Keeps (Conserves (κ := κ)) (Allocator.free x) := by
  refine (faultless_free x).keeps fun {m m' _} he hm => ?_
  have he₀ := he
  unfold Allocator.free at he₀
  obtain ⟨b, hb, -⟩ := bind_buffer_ok he₀
  have hdevice := free_device hb he
  obtain ⟨harena, hholds, cs, hcs, hleaves⟩ := free_holds hb he
  have hentry : (m.allocator.buffers.map Buffer.hold)[x]? = some b.hold := by rw [List.getElem?_map, hb]; rfl
  refine ⟨hm.drop nofun hdevice (fun k => ?_) ?_ ?_, by rw [hdevice]; rfl, cs, hcs, ?_⟩
  · rw [Allocator.lookup?, harena, lookup_filter_ne]
    rfl
  · refine buffers_of_holds.mpr fun e he => ?_
    rw [hholds] at he
    obtain ⟨y, hy⟩ := List.mem_iff_getElem?.mp he
    rw [getElem?_modify_of_some hentry] at hy
    split at hy
    · cases hy
      rfl
    · exact buffers_of_holds.mp hm.buffers e (List.mem_of_getElem? hy)
  · rw [harena]
    exact hm.arena.sublist (List.filter_sublist.map _)
  · have hmapped := filterMap_modify (g := (·.2.1)) (f := fun e => (e.1, (none : Option Mapping), true)) hentry
    rw [← hholds, ← Allocator.mapped_eq, ← Allocator.mapped_eq] at hmapped
    have hmappings : ↑b.cpu.toList + m'.mappings = 0 + m.mappings :=
      Machine.mappings_of_mapped (by rw [hdevice]; rfl) (by rw [hdevice]; rfl) hmapped
    rw [← hmappings, zero_add]
    exact hleaves m'.mappings

/-! ## New buffers -/

omit [Kernel κ] in
theorem faultless_addBuffer (b : Buffer) : Faultless (Allocator.addBuffer b : Op κ Nat) :=
  faultless_bind faultless_allocator fun _ => faultless_bind (faultless_modifyAllocator _) fun _ => faultless_pure _

omit [Kernel κ] in
theorem faultless_wrapRegion (region : Region) (size : Int64) (flags : UInt32) (label : String) :
    Faultless (Allocator.wrapRegion region size flags label : Op κ Nat) :=
  faultless_bind faultless_allocator fun _ => faultless_bind (faultless_allocHandle _ _) fun _ =>
    faultless_addBuffer _

/-- A region is asked for.  If there is one it becomes a buffer, which is counted. -/
theorem allocate_survives {size : Int64} {flags : UInt32} {label : String} {r : Except Halt Nat}
    (he : (Allocator.allocate size flags label).exec m = (r, m')) (hr : Survives r) :
    ∃ wish memFlags,
      (∃ f, (Device.alloc size wish memFlags).exec m = (.error (.fault f), m') ∧ r = .error (.fault f)) ∨
      ∃ region x m₁ m₂, (Device.alloc size wish memFlags).exec m = (.ok region, m₁) ∧
        (Allocator.wrapRegion region size flags label).exec m₁ = (.ok x, m₂) ∧
        (modifyAllocator fun a => { a with allocations := a.allocations + 1 }).exec m₂ = (.ok (), m') ∧
        r = .ok x := by
  unfold Allocator.allocate at he
  rw [exec_bind_of_ok (exec_allocator m)] at he
  rcases bind_survives he hr with hfault | ⟨region, m₁, halloc, he⟩
  · exact ⟨_, _, .inl hfault⟩
  · obtain ⟨x, m₂, hwrap, he⟩ := (faultless_wrapRegion _ _ _ _).bind_survives he hr
    cases he
    exact ⟨_, _, .inr ⟨region, x, m₁, m₂, halloc, hwrap, rfl, rfl⟩⟩

omit [Kernel κ] in
/-- The mapping of a new buffer is in hand before. -/
theorem addBuffer_carries {b : Buffer} {x : Nat} {p : Mapping} (hm : m.Housed (some b.handle))
    (hcpu : b.cpu = some p) (hfreed : b.freed = false) (he : (Allocator.addBuffer b).exec m = (.ok x, m')) :
    m'.Housed ∧ Carries {p} 0 m m' := by
  cases he
  obtain ⟨hnone, hown⟩ := hm.pending b.handle rfl
  have hlookup (k : Nat) : (m.allocator.arena.filter (·.1 ≠ b.handle) ++
      [(b.handle, m.allocator.buffers.length)]).lookup k =
      if k = b.handle then some m.allocator.buffers.length else m.allocator.lookup? k := by
    rw [List.lookup_append, lookup_filter_ne]
    split
    · rename_i hk
      rw [hk, List.lookup_cons_self, Option.none_or]
    · rename_i hk
      rw [List.lookup_cons, beq_false_of_ne hk, List.lookup_nil, Option.or_none]
      rfl
  constructor
  · refine ⟨hm.generation, fun k fd ho hfd => .inr ?_, fun k y hy => ?_, nofun, fun b' hb' => ?_, ?_⟩
    · rcases hm.imports k fd ho hfd with hk | ⟨y, hy⟩
      · exact ⟨_, (hlookup k).trans (if_pos (Option.some.inj hk).symm)⟩
      · refine ⟨y, (hlookup k).trans ?_⟩
        rwa [if_neg]
        rintro rfl
        rw [hnone] at hy
        cases hy
    · have hy := (hlookup k).symm.trans hy
      split at hy
      · rename_i hk
        exact hk ▸ hown
      · exact hm.live k y hy
    · rcases List.mem_append.mp hb' with hb' | hb'
      · exact hm.buffers b' hb'
      · rw [List.mem_singleton.mp hb', hcpu, hfreed]
        rfl
    · exact Allocator.nodup_enter hm.arena _ _
  · refine .of_eq rfl rfl (Eq.symm ?_)
    refine Machine.mappings_of_mapped rfl rfl ?_
    show (((m.allocator.buffers ++ [b]).filterMap (·.cpu) : List Mapping) : Multiset Mapping) + 0 = _
    rw [List.filterMap_append, List.filterMap_cons_some hcpu, ← Multiset.coe_add, add_zero]
    rfl

omit [Kernel κ] in
/-- The mapping of a new region goes to its buffer. -/
theorem putsAway_wrapRegion (region : Region) (size : Int64) (flags : UInt32) (label : String) :
    Keeps (PutsAway (κ := κ) region.cpu) (Allocator.wrapRegion region size flags label) := by
  refine (faultless_wrapRegion region size flags label).keeps fun {m m' x} he hm => ?_
  obtain ⟨_, m₁, h₁, he⟩ := bind_ok he
  cases h₁
  obtain ⟨k, m₂, h₂, he⟩ := bind_ok he
  obtain ⟨hm', hcarries⟩ := addBuffer_carries (hm.alloc (by decide) h₂) rfl rfl he
  exact ⟨hm', (allocHandle_carries _ h₂).trans hcarries⟩

theorem conserves_allocate (size : Int64) (flags : UInt32) (label : String) :
    Keeps (Conserves (κ := κ)) (Allocator.allocate size flags label) := by
  intro m hs hm
  have hnew : m.device.generation ≠ .old := by rw [hm.generation]; nofun
  have hkeep : KeepsAt Conserves (Allocator.allocate size flags label) m := by
    unfold Allocator.allocate
    refine keepsAt_bind (keeps_allocator m) fun a m₁ h₁ => ?_
    cases h₁
    exact conserves_bind_maps (mapsAt_alloc (.inr hnew)) fun region m₁ _ =>
      putsAway_bind (putsAway_wrapRegion region _ _ _ m₁) fun x =>
        keeps_bind (keeps_editAllocator (fun _ => rfl) fun _ => rfl) fun _ => keeps_pure x
  exact hkeep hs hm

/-! ## Streams -/

/-- A stream loses its pages, which are unmapped. -/
theorem unmapStream_ok {id : Nat} {s : Stream} {u : Unit} (hs : m.device.streams[id]? = some s)
    (he : (Device.unmapStream id).exec m = (.ok u, m')) :
    m'.device = { m.device with streams := m.device.streams.modify id fun s => { s with userIo := none } } ∧
      m'.allocator = m.allocator ∧
      ∃ cs, m'.calls = cs ++ m.calls ∧ ∀ M : Multiset Mapping, Leaves cs (↑s.userIo.toList + M) M := by
  unfold Device.unmapStream at he
  obtain ⟨s', hs', he⟩ := bind_stream_ok he
  rw [hs] at hs'
  cases hs'
  cases hpages : s.userIo with
  | none =>
    rw [hpages] at he
    cases he
    refine ⟨?_, rfl, [], rfl, fun M => by simpa using Leaves.nil M⟩
    rw [modify_of_eq hs (by rw [← hpages])]
  | some p =>
    rw [hpages] at he
    obtain ⟨m₁, c, hsame, hcalls, hended, he⟩ := unmapping_ok rfl (fun _ => rfl) he
    cases he
    refine ⟨?_, hsame.allocator, [c], hcalls, Leaves.single hended⟩
    show ({ m₁.device with streams := _ } : Device) = _
    rw [hsame.device]

omit [Kernel κ] in
/-- A stream gets pages that are in hand, and those that it had are in hand afterwards. -/
theorem Machine.mappings_of_stream {id : Nat} {s : Stream} {f : Stream → Stream}
    (hs : m.device.streams[id]? = some s) (hp : m'.device.preparation = m.device.preparation)
    (hd : m'.device.streams = m.device.streams.modify id f) (ha : m'.allocator.mapped = m.allocator.mapped) :
    ↑s.userIo.toList + m'.mappings = ↑(f s).userIo.toList + m.mappings := by
  refine Machine.mappings_of_rings hp ha ?_
  rw [Device.rings, hd]
  exact filterMap_modify hs

theorem faultless_unmapStream (id : Nat) : Faultless (Device.unmapStream id : Op κ Unit) := by
  unfold Device.unmapStream Device.stream Device.modifyStream
  refine faultless_bind (faultless_bind faultless_device fun d => faultless_require _) fun s => ?_
  split
  · exact faultless_pure ()
  · refine faultless_bind (faultless_unmapMemory _) fun r => ?_
    split
    · exact faultless_modifyDevice _
    · exact faultless_bind (faultless_error _ _) fun _ => faultless_modifyDevice _

theorem conserves_unmapStream (id : Nat) : Keeps (Conserves (κ := κ)) (Device.unmapStream id) := by
  refine (faultless_unmapStream id).keeps fun {m m' _} he hm => ?_
  have he₀ := he
  unfold Device.unmapStream at he₀
  obtain ⟨s, hs, -⟩ := bind_stream_ok he₀
  obtain ⟨hdevice, hallocator, cs, hcs, hleaves⟩ := unmapStream_ok hs he
  refine ⟨hm.of_streams (by rw [hdevice]) hallocator, by rw [hdevice]; rfl, cs, hcs, ?_⟩
  have hmappings := Machine.mappings_of_stream hs (by rw [hdevice]; rfl) (congrArg Device.streams hdevice)
    (by rw [hallocator])
  rw [Option.toList_none, Multiset.coe_nil] at hmappings
  rw [← hmappings, zero_add]
  exact hleaves _

omit [Kernel κ] in
/-- The pages of a new stream are put away with it. -/
theorem putsAway_attachStream {s : Stream} {p : Mapping} (hs : s.userIo = some p) :
    Keeps (PutsAway (κ := κ) p) (Device.attachStream s) := by
  refine (faultless_attachStream s).keeps fun {m m' _} he hm => ?_
  obtain ⟨i, m₁, h₁, he⟩ := bind_ok he
  obtain ⟨_, m₂, h₂, he⟩ := bind_ok he
  have hput : StaysPut m m₂ := Journey.trans (keeps_takeSlot.ok h₁) ((keeps_startSlot i).ok h₂)
  cases he
  refine ⟨(hput.housed hm).of_streams rfl rfl, (hput.carries {p}).trans (.of_eq rfl rfl (Eq.symm ?_))⟩
  refine Machine.mappings_of_rings rfl rfl ?_
  have happend : (m₂.device.streams ++ [({ s with slot := i } : Stream)]).filterMap Stream.userIo =
      m₂.device.rings ++ [p] := by
    rw [List.filterMap_append, Device.rings]
    simp [hs]
  rw [add_zero, ← Multiset.coe_singleton, Multiset.coe_add, ← happend]
  rfl

theorem conserves_bindStream (ctx : Nat) (va : UInt64) (size : UInt32) :
    Keeps (Conserves (κ := κ)) (Device.bindStream ctx va size) := by
  unfold Device.bindStream
  refine keeps_bind (keeps_debug _ _) fun _ => keeps_bind (keeps_context ctx) fun c =>
    keeps_bind (keeps_editSlots fun _ => rfl) fun _ m => ?_
  exact conserves_bind_maps (maps_bindRing _ m) fun p m₁ _ => putsAway_attachStream rfl m₁

omit [Kernel κ] in
/-- A stream without pages puts new ones away. -/
theorem putsAway_modifyStream {id : Nat} {s : Stream} {p : Mapping} (hs : m.device.streams[id]? = some s)
    (hnone : s.userIo = none) :
    KeepsAt (PutsAway p) (Device.modifyStream id fun s => { s with userIo := some p }) m := by
  intro _ hm
  refine ⟨hm.of_streams rfl rfl, .of_eq rfl rfl (Eq.symm ?_)⟩
  have hmappings : _ + ((Device.modifyStream id fun s => { s with userIo := some p }).exec m).2.mappings = _ :=
    Machine.mappings_of_stream (f := fun s => { s with userIo := some p }) hs rfl rfl rfl
  rwa [hnone] at hmappings

theorem conserves_rebindStream (id : Nat) : Keeps (Conserves (κ := κ)) (Device.rebindStream id) := by
  unfold Device.rebindStream
  refine keeps_bind (keeps_debug _ _) fun _ m => keepsAt_bind (conserves_unmapStream id m) fun _ m₁ h₁ => ?_
  -- the stream has no pages any more, until it gets new ones
  have hnone {s : Stream} (hs : m₁.device.streams[id]? = some s) : s.userIo = none := by
    have h₀ := h₁
    unfold Device.unmapStream at h₀
    obtain ⟨s₀, hs₀, -⟩ := bind_stream_ok h₀
    rw [(unmapStream_ok hs₀ h₁).1, getElem?_modify_of_some hs₀, if_pos rfl] at hs
    cases hs
    rfl
  refine keepsAt_bind (keeps_stream id m₁) fun s m₂ h₂ => ?_
  obtain ⟨_, hs, h₂⟩ := bind_stream_ok (f := pure) (by rw [bind_pure]; exact h₂)
  cases h₂
  refine conserves_bind_maps (maps_bindRing s m₁) fun p m₃ h₃ => ?_
  have hsame := ((maps_bindRing s m₁).survives h₃ trivial).toSameInside
  exact putsAway_bind (putsAway_modifyStream (by rwa [hsame.device]) (hnone hs)) fun _ => keeps_debug _ _

/-! ## Imports -/

/-- The handle that is found owns a descriptor.  By induction on the handles. -/
theorem findFile_ok {fd : Int} {hs : List Handle} {i k : Nat}
    (he : (Device.findFile fd hs i).exec m = (.ok (some k), m')) :
    ∃ j h, k = i + j ∧ hs[j]? = some h ∧ 0 ≤ h.fd := by
  induction hs generalizing i m with
  | nil => cases he
  | cons h hs ih =>
    have hnext {m₁ : Machine κ} (he : (Device.findFile fd hs (i + 1)).exec m₁ = (.ok (some k), m')) :
        ∃ j h', k = i + j ∧ (h :: hs)[j]? = some h' ∧ 0 ≤ h'.fd := by
      obtain ⟨j, h', hk, hj, hfd⟩ := ih he
      exact ⟨j + 1, h', by rw [hk, Nat.add_assoc, Nat.add_comm 1], hj, hfd⟩
    unfold Device.findFile at he
    split at he
    · exact hnext he
    · rename_i hneg
      obtain ⟨r, m₁, -, he⟩ := bind_ok he
      rcases r with e | same
      · obtain ⟨_, m₂, -, he⟩ := bind_ok he
        exact hnext he
      · cases same with
        | true =>
          cases he
          exact ⟨0, h, rfl, rfl, Int.not_lt.mp hneg⟩
        | false => exact hnext he

theorem staysPut_closeDuplicate (fd d : Int) : Keeps (StaysPut (κ := κ)) (Device.closeDuplicate fd d) :=
  keeps_bind_except (.of_call nofun nofun) (fun _ => keeps_pure ()) fun _ => keeps_error _ _

theorem staysPut_importDuplicate (fd d : Int) : Keeps (StaysPut (κ := κ)) (Device.importDuplicate fd d) :=
  keeps_bind_except (keeps_attempt (keeps_importFd _ _)) (fun reply => keeps_pure reply) fun _ =>
    keeps_bind (staysPut_closeDuplicate fd d) fun _ => keeps_fail _

/-- The mapping that an import may have made, if there is one. -/
def inHand : Except Halt (Option Mapping) → Multiset Mapping
  | .ok p => ↑p.toList
  | .error _ => 0

theorem staysPut_failMapping (fd d : Int) (reply : ImportReply) (e : Errno) (size : Int64) :
    Keeps (StaysPut (κ := κ)) (do
    error "failed to map imported BO"
      [("fd", toString fd), ("size", toString size.toInt), ("error", e.message)]
    match ← attempt (Interface.freeRegion reply.va) with
    | .ok _ => pure ()
    | .error f =>
      error "failed to free imported BO"
        [("fd", toString fd), ("va", toString reply.va), ("error", f.message)]
    Device.closeDuplicate fd d
    fail (.during (.mapping "IMPORTED BO") (.ofErrno e)) : Op κ (Option Mapping)) := by
  have hend : Keeps (StaysPut (κ := κ)) (do
      Device.closeDuplicate fd d
      fail (.during (.mapping "IMPORTED BO") (.ofErrno e)) : Op κ (Option Mapping)) :=
    keeps_bind (staysPut_closeDuplicate fd d) fun _ => keeps_fail _
  exact keeps_bind (keeps_error _ _) fun _ => keeps_bind_except (keeps_attempt (keeps_freeRegion _))
    (fun _ => hend) fun _ => keeps_bind (keeps_error _ _) fun _ => hend

/-- The region of an import is mapped at most once. -/
theorem mapImportReply_carries {fd d : Int} {reply : ImportReply} {r : Except Halt (Option Mapping)}
    (he : (Device.mapImportReply fd d reply).exec m = (r, m')) (hr : Survives r) :
    SameHoldings m m' ∧ Carries 0 (inHand r) m m' := by
  unfold Device.mapImportReply Device.mapShared at he
  split at he
  · cases he
    exact ⟨⟨rfl, rfl, rfl⟩, .of_eq rfl rfl rfl⟩
  · rw [exec_bind_of_ok (exec_device m)] at he
    obtain ⟨a, m₁, h₁⟩ := returns_mapMemory (κ := κ) reply.va.toInt64
      (reply.vaPages.toInt64 * m.device.options.pageSize) protReadWrite m
    rw [exec_bind_of_ok h₁] at he
    have hmapped := mapMemory_ok h₁
    have hsame := SameHoldings.of_inside hmapped.toSameInside
    cases a with
    | ok p =>
      cases he
      exact ⟨hsame, hmapped.carries 0⟩
    | error e =>
      have hput := (staysPut_failMapping fd d reply e _ m₁).survives he hr
      have hnone : inHand r = 0 := by
        cases r with
        | error _ => rfl
        | ok p =>
          obtain ⟨_, m₂, -, he⟩ := bind_ok he
          obtain ⟨answer, m₃, -, he⟩ := bind_ok he
          cases answer with
          | ok _ =>
            obtain ⟨_, m₄, -, he⟩ := bind_ok he
            cases he
          | error f =>
            obtain ⟨_, m₄, -, he⟩ := bind_ok he
            obtain ⟨_, m₅, -, he⟩ := bind_ok he
            cases he
      rw [hnone]
      exact ⟨hsame.trans hput.toSameHoldings, (hmapped.carries 0).trans (hput.carries 0)⟩

/-- What importing a file comes to: a handle that owned a descriptor before, a handle of its own that may have a
mapping, or nothing. -/
def Imported (r : Except Halt Nat) (m m' : Machine κ) : Prop :=
  match r with
  | .ok k => (∃ fd, m'.Owns k fd ∧ 0 ≤ fd) ∧ m'.Housed ∧ Carries 0 0 m m' ∨
      m'.Housed (some k) ∧ Carries 0 (m'.device.handles.get k).mapping.toList m m'
  | .error _ => m'.Housed ∧ Carries 0 0 m m'

omit [Kernel κ] in
theorem Imported.after {r : Except Halt Nat} {m₁ : Machine κ} (h : Carries 0 0 m m₁) (h' : Imported r m₁ m') :
    Imported r m m' := by
  cases r with
  | error _ => exact ⟨h'.1, h.trans h'.2⟩
  | ok k =>
    rcases h' with ⟨hown, hm', hcarries⟩ | ⟨hm', hcarries⟩
    · exact .inl ⟨hown, hm', h.trans hcarries⟩
    · exact .inr ⟨hm', h.trans hcarries⟩

omit [Kernel κ] in
/-- A new handle has the mapping of its region. -/
theorem imported_allocHandle {va : UInt64} {d : Int} {p : Option Mapping} {r : Except Halt Nat} (hm : m.Housed)
    (hd : d ≠ freedFd) (hr : Survives r) (he : (do
      let k ← Device.allocHandle va d
      modifyDevice fun d => { d with handles := d.handles.setMapping k p }
      return k : Op κ Nat).exec m = (r, m')) :
    ∃ k, r = .ok k ∧ m'.Housed (some k) ∧ Carries p.toList (m'.device.handles.get k).mapping.toList m m' := by
  obtain ⟨k, m₁, h₁, he⟩ := (faultless_allocHandle va d).bind_survives he hr
  cases he
  have hm₁ := hm.alloc hd h₁
  obtain ⟨-, fd, hown⟩ := hm₁.pending k rfl
  refine ⟨k, rfl, hm₁.of_owns rfl (fun _ _ => HandleTable.owns_setMapping_iff) rfl, ?_⟩
  refine (allocHandle_carries _ h₁).trans (.of_eq rfl rfl ?_)
  rw [show _ = p from HandleTable.mapping_get hown p]
  rfl

theorem returns_findFile (fd : Int) (hs : List Handle) (i : Nat) :
    Returns (Device.findFile fd hs i : Op κ (Option Nat)) := by
  induction hs generalizing i with
  | nil => exact returns_pure _
  | cons h hs ih =>
    unfold Device.findFile
    split
    · exact ih _
    · refine returns_bind (returns_call _) fun r => ?_
      rcases r with e | same
      · exact returns_bind (returns_error _ _) fun _ => ih _
      · cases same with
        | true => exact returns_pure _
        | false => exact ih _

/-- Importing a file leaves at most its mapping in hand, if duplicates are descriptors. -/
theorem importFile_imported (hdup : ∀ (k : κ) (fd d : Int), (Kernel.call k (.dup fd)).1.result = .ok d → 0 ≤ d)
    {fd : Int} {r : Except Halt Nat} (hm : m.Housed) (he : (Device.importFile fd).exec m = (r, m'))
    (hr : Survives r) : Imported r m m' := by
  unfold Device.importFile at he
  obtain ⟨_, m₁, h₁, he⟩ := (faultless_debug _ _).bind_survives he hr
  rw [exec_bind_of_ok (exec_device m₁)] at he
  obtain ⟨found, m₂, h₂⟩ := returns_findFile (κ := κ) fd m₁.device.handles.entries 0 m₁
  rw [exec_bind_of_ok h₂] at he
  have hput : StaysPut m m₂ := Journey.trans ((keeps_debug _ _).ok h₁) ((keeps_findFile _ _ _).ok h₂)
  refine .after (hput.carries 0) ?_
  have hm₂ := hput.housed hm
  cases found with
  | some k =>
    cases he
    obtain ⟨j, h, rfl, hj, hfd⟩ := findFile_ok h₂
    have hput₂ := (keeps_findFile (R := StaysPut) _ _ _).ok h₂
    refine .inl ⟨⟨h.fd, ?_, hfd⟩, hm₂, .of_eq rfl rfl rfl⟩
    rw [Machine.Owns, hput₂.handles, Nat.zero_add]
    exact ⟨h, hj, rfl, fun hfreed => absurd (hfreed ▸ hfd) (by decide)⟩
  | none =>
    obtain ⟨answer, m₃, h₃, he⟩ := (faultless_call _).bind_survives he hr
    have hput₃ : StaysPut m₂ m₃ := (keeps_plain rfl).ok h₃
    refine .after (hput₃.carries 0) ?_
    have hm₃ := hput₃.housed hm₂
    cases answer with
    | error e =>
      cases he
      exact ⟨hm₃, .of_eq rfl rfl rfl⟩
    | ok d =>
      have hd : d ≠ freedFd := by
        rintro rfl
        rw [exec_call] at h₃
        cases hresult : (Kernel.call m₂.kernel (.dup fd)).1.result with
        | error e => rw [hresult] at h₃; cases h₃
        | ok d =>
          rw [hresult] at h₃
          cases h₃
          exact absurd (hdup _ _ _ hresult) (by decide)
      dsimp only at he
      rcases bind_survives he hr with ⟨f, h₄, rfl⟩ | ⟨reply, m₄, h₄, he⟩
      · have hput₄ := (staysPut_importDuplicate fd d m₃).survives h₄ trivial
        exact ⟨hput₄.housed hm₃, hput₄.carries 0⟩
      have hput₄ : StaysPut m₃ m₄ := (staysPut_importDuplicate fd d).ok h₄
      refine .after (hput₄.carries 0) ?_
      have hm₄ := hput₄.housed hm₃
      rcases bind_survives he hr with ⟨f, h₅, rfl⟩ | ⟨p, m₅, h₅, he⟩
      · obtain ⟨hsame, hcarries⟩ := mapImportReply_carries h₅ trivial
        exact ⟨hsame.housed hm₄, hcarries⟩
      obtain ⟨hsame, hcarries⟩ := mapImportReply_carries h₅ trivial
      obtain ⟨k, rfl, hm', hrest⟩ := imported_allocHandle (hsame.housed hm₄) hd hr he
      exact .inr ⟨hm', hcarries.trans hrest⟩

/-- A handle that stands for no buffer goes. -/
theorem freeHandle_carries {k : Nat} {u : Unit} (a : Multiset Mapping) (hm : m.Housed (some k))
    (he : (Device.freeHandle k).exec m = (.ok u, m')) : m'.Housed ∧ Carries a a m m' := by
  have hdevice := freeHandle_device he
  have hsame : SameAllocator m m' := (keeps_freeHandle _).ok he
  obtain ⟨hnone, -⟩ := hm.pending k rfl
  refine ⟨hm.drop (fun k' hk => (Option.some.inj hk).symm) hdevice (fun k' => ?_) (by rw [hsame]; exact hm.buffers)
    (by rw [hsame]; exact hm.arena), ?_⟩
  · rw [hsame]
    split
    · rename_i hk
      rw [hk, hnone]
    · rfl
  · obtain ⟨cs, hcs, hall⟩ := (mapsNothing_freeHandle _).ok he
    have hmappings : m'.mappings = m.mappings := by
      rw [Machine.mappings, hdevice, hsame]
      rfl
    refine ⟨by rw [hdevice]; rfl, cs, hcs, ?_⟩
    rw [hmappings]
    exact .of_nothing hall _

theorem faultless_dropImport (k : Nat) (h : Handle) : Faultless (Allocator.dropImport k h : Op κ Unit) := by
  unfold Allocator.dropImport
  split
  · exact faultless_freeHandle _
  · refine faultless_bind (faultless_unmapMemory _) fun r => ?_
    split
    · exact faultless_freeHandle _
    · exact faultless_bind (faultless_error _ _) fun _ => faultless_freeHandle _

/-- An import that is undone ends its mapping. -/
theorem dropImport_carries {k : Nat} {h : Handle} {u : Unit} (hm : m.Housed (some k))
    (he : (Allocator.dropImport k h).exec m = (.ok u, m')) : m'.Housed ∧ Carries h.mapping.toList 0 m m' := by
  unfold Allocator.dropImport at he
  cases hmapping : h.mapping with
  | none =>
    rw [hmapping] at he
    exact freeHandle_carries 0 hm he
  | some p =>
    rw [hmapping] at he
    obtain ⟨m₁, c, hsame, hcalls, hended, he⟩ := unmapping_ok rfl (fun _ => rfl) he
    have hholdings := SameHoldings.of_inside hsame
    obtain ⟨hm', hcarries⟩ := freeHandle_carries 0 (hholdings.housed hm) he
    refine ⟨hm', Carries.trans ⟨hholdings.preparation, [c], hcalls, ?_⟩ hcarries⟩
    rw [hholdings.mappings, zero_add]
    exact Leaves.single hended _

theorem staysPut_fileSize (fd : Int) : Keeps (StaysPut (κ := κ)) (Allocator.fileSize fd) := by
  refine keeps_bind_except (keeps_plain rfl) (fun size => ?_) fun e => keeps_fail _
  dsimp only
  split
  · exact keeps_fail _
  · exact keeps_pure _

/-- The buffer of an import has the mapping of its handle, or a new one. -/
theorem importedBuffer_ok {fd : Int} {k : Nat} {h : Handle} {b : Buffer}
    (he : (Allocator.importedBuffer fd k h).exec m = (.ok b, m')) :
    SameHoldings m m' ∧ ∃ p size freeRegion, Carries h.mapping.toList {p} m m' ∧
      b = { gpu := h.va, cpu := some p, size, flags := BufferFlag.shared, handle := k, refs := 1, freeRegion
            cachedCpu := true, dmabufFd := h.fd } := by
  unfold Allocator.importedBuffer at he
  obtain ⟨size, m₁, h₁, he⟩ := bind_ok he
  have hput : StaysPut m m₁ := (staysPut_fileSize fd).ok h₁
  dsimp only at he
  cases hmapping : h.mapping with
  | some p =>
    rw [hmapping] at he
    cases he
    exact ⟨hput.toSameHoldings, p, Int64.ofInt size, false, hput.carries _, rfl⟩
  | none =>
    rw [hmapping] at he
    obtain ⟨p, m₂, h₂, he⟩ := bind_ok he
    cases he
    have hmapped := (maps_mapImported _ _ m₁).survives h₂ trivial
    exact ⟨hput.toSameHoldings.trans (.of_inside hmapped.toSameInside), p, Int64.ofInt size, true,
      (hput.carries 0).trans (hmapped.carries 0), rfl⟩

theorem importedBuffer_fault {fd : Int} {k : Nat} {h : Handle} {f : Fault} (a : Multiset Mapping)
    (he : (Allocator.importedBuffer fd k h).exec m = (.error (.fault f), m')) :
    SameHoldings m m' ∧ Carries a a m m' := by
  unfold Allocator.importedBuffer at he
  rcases bind_survives he trivial with ⟨_, h₁, -⟩ | ⟨size, m₁, h₁, he⟩
  · have hput := (staysPut_fileSize fd m).survives h₁ trivial
    exact ⟨hput.toSameHoldings, hput.carries a⟩
  have hput : StaysPut m m₁ := (staysPut_fileSize fd).ok h₁
  dsimp only at he
  cases hmapping : h.mapping with
  | some p =>
    rw [hmapping] at he
    cases he
  | none =>
    rw [hmapping] at he
    rcases bind_survives he trivial with ⟨_, h₂, -⟩ | ⟨p, m₂, -, he⟩
    · have hmapped := (maps_mapImported _ _ m₁).survives h₂ trivial
      exact ⟨hput.toSameHoldings.trans (.of_inside hmapped.toSameInside),
        (hput.carries a).trans (by simpa [bringing] using hmapped.carries a)⟩
    · cases he

/-- An import that cannot be wrapped is undone, and otherwise its mapping goes to the buffer. -/
theorem wrapImport_carries {fd : Int} {k : Nat} {r : Except Halt Nat} (hm : m.Housed (some k))
    (he : (Allocator.wrapImport fd k).exec m = (r, m')) (hr : Survives r) :
    m'.Housed ∧ Carries (m.device.handles.get k).mapping.toList 0 m m' := by
  unfold Allocator.wrapImport at he
  rw [exec_bind_of_ok (exec_device m)] at he
  dsimp only at he
  obtain ⟨answer, m₁, h₁, he⟩ := (faultless_attempt _).bind_survives he hr
  cases answer with
  | ok b =>
    obtain ⟨hsame, p, size, freeRegion, hcarries, rfl⟩ := importedBuffer_ok (attempt_ok h₁)
    obtain ⟨x, rfl⟩ : ∃ x, r = .ok x := by
      cases he
      exact ⟨_, rfl⟩
    obtain ⟨hm', hrest⟩ := addBuffer_carries (hsame.housed hm) rfl rfl he
    exact ⟨hm', hcarries.trans hrest⟩
  | error f =>
    obtain ⟨hsame, hcarries⟩ := importedBuffer_fault (m.device.handles.get k).mapping.toList (attempt_fault h₁)
    obtain ⟨_, m₂, h₂, he⟩ := (faultless_dropImport _ _).bind_survives he hr
    cases he
    obtain ⟨hm', hrest⟩ := dropImport_carries (hsame.housed hm) h₂
    exact ⟨hm', hcarries.trans hrest⟩

/-! ## Events -/

/-- Handling events frees buffers. -/
theorem conserves_handleEvents : Keeps (Conserves (κ := κ)) Device.handleEvents := by
  refine fun m => keepsAt_of_exec fun {r m'} he hr hm => ?_
  rw [exec_handleEvents_of_csf hm.generation] at he
  exact (keeps_handleStreamEvents conserves_free m).survives he hr hm

end Kernel

end Mali
