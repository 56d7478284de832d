import Mali.Proofs.SearchBooks
import Mali.Proofs.UseCounts

/-!
# What is marked while atoms use it

On a job manager device the handles say which buffers atoms in flight use, and a buffer that no access is pending on
is not even asked about.  So a buffer whose handle is in use has to be marked for as long as it is: it is marked before
the atom takes off, and the mark goes only with a wait that has seen the handle idle.  Then a buffer without a mark can
be handed out at once.

On a command stream device no handle is in use, and the marks are gone when a buffer is put into the cache.

* `HandleTable.InUse`: an atom in flight uses a handle.
* `Minds`: no handle comes to be used, and marks stay where they are needed; `minds_free`, `minds_finish`,
  `minds_isIdle` and the like: what does so.
* `Machine.Marked`: what is used is marked, and what is cached on a command stream device is not.
* `CarefulStep`: steps of callers who hold what they use.
* `Course.marked`: along their runs, what is used is marked.
-/

namespace Mali

open Op

/-! ## Handles in use -/

/-- An atom in flight uses a handle. -/
def HandleTable.InUse (t : HandleTable) (k : Nat) : Prop := ∃ e, t.entries[k]? = some e ∧ e.useCount ≠ 0

namespace HandleTable

variable {t t' : HandleTable} {k : Nat}

/-- What the use count of a handle says. -/
theorem useCount_eq_zero (h : ¬t.InUse k) : (t.get k).useCount = 0 := by
  unfold get entry?
  cases hindex : t.index? k with
  | none => rfl
  | some i =>
    obtain ⟨hi, hlt⟩ := index?_eq_some hindex
    obtain rfl : k = i := Int.ofNat_inj.mp hi
    have hentry : t.entries[k]? = some t.entries[k] := List.getElem?_eq_getElem hlt
    have hzero : t.entries[k].useCount = 0 := by
      by_contra hne
      exact h ⟨_, hentry, hne⟩
    rw [Option.bind_some, hentry]
    dsimp only
    split
    · exact hzero
    · exact hzero

/-- A new handle is not in use. -/
theorem inUse_of_alloc {va : UInt64} {fd : Int} (h : (t.alloc va fd).2.InUse k) :
    t.InUse k ∧ k ≠ (t.alloc va fd).1 := by
  obtain ⟨e, he, huse⟩ := h
  unfold alloc at he ⊢
  dsimp only at he ⊢
  have hne : e ≠ { va, fd } := by
    rintro rfl
    exact huse rfl
  split at he
  · rename_i hlt
    by_cases hk : t.freeIndex = k
    · subst hk
      rw [List.getElem?_set_self hlt] at he
      exact absurd (Option.some.inj he).symm hne
    · rw [List.getElem?_set_ne hk] at he
      exact ⟨⟨e, he, huse⟩, Ne.symm hk⟩
  · rename_i hge
    have hend : t.freeIndex = t.entries.length :=
      Nat.le_antisymm List.findIdx_le_length (Nat.le_of_not_lt hge)
    rcases Nat.lt_or_ge k t.entries.length with hlt | hk
    · rw [List.getElem?_append_left hlt] at he
      exact ⟨⟨e, he, huse⟩, by omega⟩
    · rw [List.getElem?_append_right hk] at he
      exact absurd (List.mem_singleton.mp (List.mem_of_getElem? he)) hne

/-- A freed handle is not in use. -/
theorem inUse_of_free {handle : Int} (h : (t.free handle).2.InUse k) : t.InUse k ∧ (k : Int) ≠ handle := by
  obtain ⟨e, he, huse⟩ := h
  unfold free at he
  split at he
  · rename_i hnone
    refine ⟨⟨e, he, huse⟩, ?_⟩
    rintro rfl
    rw [index?_natCast (List.getElem?_eq_some_iff.mp he).1] at hnone
    cases hnone
  · rename_i i hi
    obtain ⟨rfl, hlt⟩ := index?_eq_some hi
    obtain ⟨tail, hsplit, -⟩ := dropFreedTail_append (t.entries.set i { fd := freedFd })
    have hset : (t.entries.set i { fd := freedFd })[k]? = some e := by
      have he : (dropFreedTail (t.entries.set i { fd := freedFd }))[k]? = some e := he
      rw [hsplit, List.getElem?_append_left (List.getElem?_eq_some_iff.mp he).1, he]
    by_cases hk : i = k
    · subst hk
      rw [List.getElem?_set_self hlt] at hset
      cases hset
      exact absurd rfl huse
    · rw [List.getElem?_set_ne hk] at hset
      exact ⟨⟨e, hset, huse⟩, natCast_ne (Ne.symm hk)⟩

/-- By induction on the handles. -/
theorem inUse_of_release {hs : List Int} (h : t.release hs = .ok t') (hk : t'.InUse k) : t.InUse k := by
  induction hs generalizing t with
  | nil =>
    cases h
    exact hk
  | cons i hs ih =>
    rw [release] at h
    split at h
    · exact ih h
    · rename_i j hj
      split at h
      · exact ih h
      · rename_i e he
        split at h
        · cases h
        · rename_i hne
          obtain ⟨e', he', huse⟩ := ih h
          by_cases hjk : j = k
          · exact ⟨e, hjk ▸ he, hne⟩
          · rw [List.getElem?_set_ne hjk] at he'
            exact ⟨e', he', huse⟩

/-- What an atom takes off with is in use. -/
theorem inUse_of_mark {hs : List Int} {slot : JobSlot} {n : UInt8} {marked : Marked}
    (h : t.markUsed hs slot n = .ok marked) (hk : marked.table.InUse k) : t.InUse k ∨ (k : Int) ∈ hs := by
  obtain ⟨e, he, huse⟩ := hk
  rw [(markAll_ok h).2.1 k, Option.map_eq_some_iff] at he
  obtain ⟨e₀, he₀, rfl⟩ := he
  by_cases hmem : (k : Int) ∈ hs
  · exact .inr hmem
  · rw [List.count_eq_zero.mpr hmem, Handle.mark_zero] at huse
    exact .inl ⟨e₀, he₀, huse⟩

end HandleTable

/-! ## Marks -/

/-- What decides whether a buffer has to be waited for. -/
def Buffer.stake (b : Buffer) : Nat × Bool × UInt32 × Option Nat := (b.handle, b.freed, b.access, b.cachedIn)

/-- No access is pending on a buffer that is cached. -/
def Buffer.Rested (b : Buffer) : Prop := b.cachedIn ≠ none → b.access = 0

variable {κ : Type}

/-- No handle comes to be used.  Where atoms may use a buffer, an access that is pending on it stays so; where they do
not, cached buffers stay rested. -/
structure Minds (m m' : Machine κ) : Prop where
  generation : m'.device.generation = m.device.generation
  handles : ∀ k, m'.device.handles.InUse k → m.device.handles.InUse k
  pending : m.device.generation ≠ .csf → ∀ (x : Nat) (b : Buffer), m.allocator.buffers[x]? = some b →
    b.freed = false → b.access ≠ 0 → m'.device.handles.InUse b.handle →
    ∃ b', m'.allocator.buffers[x]? = some b' ∧ b'.freed = false ∧ b'.handle = b.handle ∧ b'.access ≠ 0
  rested : m.device.generation = .csf → (∀ b ∈ m.allocator.buffers, b.Rested) →
    ∀ b ∈ m'.allocator.buffers, b.Rested

/-- Nothing changes that decides whether a buffer has to be waited for. -/
structure SameStakes (m m' : Machine κ) : Prop where
  generation : m'.device.generation = m.device.generation
  handles : m'.device.handles = m.device.handles
  stakes : m'.allocator.buffers.map Buffer.stake = m.allocator.buffers.map Buffer.stake

namespace SameStakes

variable {m m₁ m' : Machine κ}

theorem trans (h : SameStakes m m₁) (h' : SameStakes m₁ m') : SameStakes m m' :=
  ⟨h'.generation.trans h.generation, h'.handles.trans h.handles, h'.stakes.trans h.stakes⟩

instance : Inward (SameStakes (κ := κ)) where
  refl _ := ⟨rfl, rfl, rfl⟩
  trans := trans
  of_eq hd ha _ _ := ⟨by rw [hd], by rw [hd], by rw [ha]⟩

instance : Slotwise (SameStakes (κ := κ)) where
  of_slots _ _ ha hd := ⟨congrArg (·.1.2.1) hd, congrArg (·.2.1) hd, by rw [ha]⟩

/-- A buffer with the stake that it had. -/
theorem buffer (h : SameStakes m m') {x : Nat} {b : Buffer} (hx : m.allocator.buffers[x]? = some b) :
    ∃ b', m'.allocator.buffers[x]? = some b' ∧ b'.stake = b.stake := by
  have hget := congrArg (·[x]?) h.stakes
  simp only [List.getElem?_map, hx, Option.map_some] at hget
  exact Option.map_eq_some_iff.mp hget

theorem minds (h : SameStakes m m') : Minds m m' where
  generation := h.generation
  handles k hk := by rwa [← h.handles]
  pending _ x b hx hfreed haccess _ := by
    obtain ⟨b', hx', hstake⟩ := h.buffer hx
    exact ⟨b', hx', (congrArg (·.2.1) hstake).trans hfreed, congrArg (·.1) hstake,
      fun hzero => haccess ((congrArg (·.2.2.1) hstake).symm.trans hzero)⟩
  rested _ hall b' hb' := by
    have hmem : b'.stake ∈ m.allocator.buffers.map Buffer.stake := h.stakes ▸ List.mem_map_of_mem hb'
    obtain ⟨b, hb, hstake⟩ := List.mem_map.mp hmem
    have hcached : b.cachedIn = b'.cachedIn := congrArg (·.2.2.2) hstake
    exact fun hne => (congrArg (·.2.2.1) hstake).symm.trans (hall b hb (hcached ▸ hne))

end SameStakes

namespace Minds

variable {m m₁ m' : Machine κ}

theorem trans (h : Minds m m₁) (h' : Minds m₁ m') : Minds m m' where
  generation := h'.generation.trans h.generation
  handles k hk := h.handles k (h'.handles k hk)
  pending hjob x b hx hfreed haccess huse := by
    obtain ⟨b₁, hx₁, hfreed₁, hhandle₁, haccess₁⟩ := h.pending hjob x b hx hfreed haccess (h'.handles _ huse)
    obtain ⟨b', hx', hfreed', hhandle', haccess'⟩ :=
      h'.pending (by rwa [h.generation]) x b₁ hx₁ hfreed₁ haccess₁ (by rwa [hhandle₁])
    exact ⟨b', hx', hfreed', hhandle'.trans hhandle₁, haccess'⟩
  rested hcsf hall := h'.rested (h.generation.trans hcsf) (h.rested hcsf hall)

instance : Inward (Minds (κ := κ)) where
  refl _ := SameStakes.minds (Journey.refl _)
  trans := trans
  of_eq hd ha hs hb := (Inward.of_eq hd ha hs hb : SameStakes _ _).minds

instance : Slotwise (Minds (κ := κ)) where
  of_slots hk hc ha hd := (Slotwise.of_slots hk hc ha hd : SameStakes _ _).minds

/-- The buffers stay, and no handle comes to be used. -/
theorem of_handles (ha : m'.allocator.buffers = m.allocator.buffers)
    (hg : m'.device.generation = m.device.generation)
    (hh : ∀ k, m'.device.handles.InUse k → m.device.handles.InUse k) : Minds m m' where
  generation := hg
  handles := hh
  pending _ x b hx hfreed haccess _ := ⟨b, by rw [ha, hx], hfreed, rfl, haccess⟩
  rested _ hall := by rwa [ha]

/-- One buffer changes.  If it is freed, or forgets what is pending on it, no atom uses its handle; and if it is cached
on a command stream device, it is rested. -/
theorem of_modify {x : Nat} {f : Buffer → Buffer} (hb : m'.allocator.buffers = m.allocator.buffers.modify x f)
    (hg : m'.device.generation = m.device.generation) (hh : m'.device.handles = m.device.handles)
    (hhandle : ∀ b, (f b).handle = b.handle)
    (hpending : m.device.generation ≠ .csf → ∀ b, m.allocator.buffers[x]? = some b → b.freed = false →
      b.access ≠ 0 → m.device.handles.InUse b.handle → (f b).freed = false ∧ (f b).access ≠ 0)
    (hrested : m.device.generation = .csf → ∀ b, m.allocator.buffers[x]? = some b → b.Rested → (f b).Rested) :
    Minds m m' where
  generation := hg
  handles k hk := by rwa [← hh]
  pending hjob y b hy hfreed haccess huse := by
    rw [hh] at huse
    have hget : m'.allocator.buffers[y]? = some (if x = y then f b else b) := by
      rw [hb, List.getElem?_modify, hy]
      rfl
    by_cases hxy : x = y
    · obtain ⟨hfreed', haccess'⟩ := hpending hjob b (hxy ▸ hy) hfreed haccess huse
      exact ⟨f b, by rw [hget, if_pos hxy], hfreed', hhandle b, haccess'⟩
    · exact ⟨b, by rw [hget, if_neg hxy], hfreed, rfl, haccess⟩
  rested hcsf hall b' hb' := by
    obtain ⟨y, hy⟩ := List.mem_iff_getElem?.mp hb'
    rw [hb, List.getElem?_modify] at hy
    obtain ⟨b, hget, rfl⟩ := Option.map_eq_some_iff.mp hy
    have hold := hall b (List.mem_of_getElem? hget)
    by_cases hxy : x = y
    · rw [if_pos hxy]
      exact hrested hcsf b (hxy ▸ hget) hold
    · rwa [if_neg hxy]

/-- A new buffer is not cached. -/
theorem of_append {b : Buffer} (hb : m'.allocator.buffers = m.allocator.buffers ++ [b]) (hcached : b.cachedIn = none)
    (hg : m'.device.generation = m.device.generation)
    (hh : ∀ k, m'.device.handles.InUse k → m.device.handles.InUse k) : Minds m m' where
  generation := hg
  handles := hh
  pending _ x c hx hfreed haccess _ :=
    ⟨c, by rw [hb, List.getElem?_append_left (List.getElem?_eq_some_iff.mp hx).1, hx], hfreed, rfl, haccess⟩
  rested _ hall c hc := by
    rw [hb, List.mem_append, List.mem_singleton] at hc
    rcases hc with hc | rfl
    · exact hall c hc
    · exact fun hne => absurd hcached hne

end Minds

theorem minds_of_stakes {α : Type} {x : Op κ α} (h : Keeps SameStakes x) : Keeps Minds x :=
  h.mono fun _ _ => SameStakes.minds

/-! ## What leaves stakes alone -/

theorem stakes_editAllocator {f : Allocator → Allocator} (hf : ∀ a, (f a).buffers = a.buffers) :
    Keeps (SameStakes (κ := κ)) (modifyAllocator f) :=
  keeps_modify fun m => ⟨rfl, rfl, congrArg (List.map Buffer.stake) (hf m.allocator)⟩

theorem stakes_editBuffer (x : Nat) {f : Buffer → Buffer} (hf : ∀ b, (f b).stake = b.stake) :
    Keeps (SameStakes (κ := κ)) (modifyBuffer x f) :=
  keeps_modify fun m => ⟨rfl, rfl, map_modify_eq Buffer.stake hf m.allocator.buffers x⟩

theorem stakes_write (name : String) (b : Buffer) (fd : Int) (imported : Option (Int × Bool)) :
    Keeps (SameStakes (κ := κ)) (Allocator.write name b fd imported) :=
  keeps_write_of (fun _ => stakes_editAllocator fun _ => rfl) name b fd imported

theorem stakes_writeHandle (name : String) (b : Buffer) :
    Keeps (SameStakes (κ := κ)) (Allocator.writeHandle name b) := keeps_writeHandle_of fun _ => stakes_write _ _ _ _

theorem stakes_reference (x : Nat) : Keeps (SameStakes (κ := κ)) (Buffer.reference x) :=
  keeps_reference_of (stakes_editBuffer x fun _ => rfl)

theorem stakes_revive (x : Nat) : Keeps (SameStakes (κ := κ)) (Allocator.revive x) :=
  keeps_revive_of (stakes_editBuffer x fun _ => rfl) (stakes_editBuffer x fun _ => rfl)

/-! ## What minds them -/

theorem minds_allocHandle (va : UInt64) (fd : Int) : Keeps (Minds (κ := κ)) (Device.allocHandle va fd) := by
  refine (faultless_allocHandle va fd).keeps fun he => ?_
  obtain ⟨-, rfl⟩ := allocHandle_ok he
  exact .of_handles rfl rfl fun k hk => (HandleTable.inUse_of_alloc hk).1

theorem minds_retireAtom (atom : UInt8) : Keeps (Minds (κ := κ)) (Device.retireAtom atom) := by
  unfold Device.retireAtom
  refine fun m => keepsAt_bind (keeps_device m) fun d m₁ hd => ?_
  cases hd
  split
  · exact keeps_violate _ _
  · rename_i t ht
    exact fun _ => .of_handles rfl rfl fun k hk => HandleTable.inUse_of_release ht hk

/-- On a job manager device more may be pending. -/
theorem minds_markAccess {x : Nat} {access : UInt32} {m m' : Machine κ} (hjob : m.device.generation ≠ .csf)
    (he : (modifyBuffer x (·.markAccess access)).exec m = (.ok (), m')) : Minds m m' := by
  cases he
  refine .of_modify (x := x) (f := (·.markAccess access)) rfl rfl rfl (fun _ => rfl)
    (fun _ b _ hfreed haccess _ => ⟨hfreed, fun hzero => haccess ?_⟩) fun hcsf => absurd hcsf hjob
  have hwithin : b.access &&& (b.markAccess access).access = b.access := Access.within_or_left _ _
  rw [hzero, UInt32.and_zero] at hwithin
  exact hwithin.symm

theorem minds_addBuffer {b : Buffer} (hcached : b.cachedIn = none) :
    Keeps (Minds (κ := κ)) (Allocator.addBuffer b) :=
  keeps_bind keeps_allocator fun _ => keeps_bind
    (keeps_modify fun _ => .of_append rfl hcached rfl fun _ hk => hk) fun _ => keeps_pure _

theorem minds_wrapRegion (region : Region) (size : Int64) (flags : UInt32) (label : String) :
    Keeps (Minds (κ := κ)) (Allocator.wrapRegion region size flags label) :=
  keeps_bind keeps_allocator fun _ => keeps_bind (minds_allocHandle _ _) fun _ => minds_addBuffer rfl

theorem minds_uncache (x : Nat) : Keeps (Minds (κ := κ)) (Allocator.uncache x) := by
  unfold Allocator.uncache
  refine keeps_bind (keeps_buffer x) fun b => keeps_bind (keeps_require _) fun index =>
    keeps_bind (minds_of_stakes (stakes_editAllocator fun _ => rfl)) fun _ => keeps_modify fun m => ?_
  exact .of_modify rfl rfl rfl (fun _ => rfl) (fun _ b _ hfreed haccess _ => ⟨hfreed, haccess⟩)
    fun _ b _ _ hne => absurd rfl hne

theorem minds_reuse (x : Nat) (label : String) : Keeps (Minds (κ := κ)) (Allocator.reuse x label) :=
  keeps_reuse_of (minds_uncache x) (minds_of_stakes (stakes_editBuffer x fun _ => rfl))
    (minds_of_stakes (stakes_editAllocator fun _ => rfl))

/-- Nothing is pending on a buffer that enters the cache of a command stream device. -/
theorem minds_enterCache [Kernel κ] (x : Nat) : Keeps (Minds (κ := κ)) (Allocator.enterCache x) := by
  have hfaultless : Faultless (Allocator.enterCache x : Op κ Unit) := by
    unfold Allocator.enterCache
    refine faultless_bind (faultless_buffer x) fun b => ?_
    grind
  refine hfaultless.keeps fun {m m'} _ he => ?_
  unfold Allocator.enterCache at he
  obtain ⟨b, hx, he⟩ := bind_buffer_ok he
  obtain ⟨_, _, h₁, he⟩ := bind_ok he
  cases h₁
  obtain ⟨_, m₁, h₂, he⟩ := bind_ok he
  obtain ⟨d, _, h₃, he⟩ := bind_ok he
  cases h₃
  have hnow : SameInside m m₁ := (keeps_seconds (R := SameInside)).ok h₂
  cases he
  have hminds : Minds m m₁ := Inward.of_eq hnow.device hnow.allocator hnow.submitters hnow.batches
  refine hminds.trans (.of_modify rfl rfl rfl (fun _ => rfl) (fun hjob c _ hfreed haccess _ => ⟨hfreed, ?_⟩)
    fun hcsf c _ _ _ => ?_)
  · dsimp only
    rwa [if_neg hjob]
  · dsimp only
    rw [if_pos hcsf]

section Kernel

variable [Kernel κ]

theorem minds_freeHandle (handle : Int) : Keeps (Minds (κ := κ)) (Device.freeHandle handle) := by
  have hsame : Keeps (SameAllocator (κ := κ)) (Device.freeHandle handle) := keeps_freeHandle handle
  refine (faultless_freeHandle handle).keeps fun {m m' _} he => ?_
  have hallocator : m'.allocator = m.allocator := hsame.ok he
  have hdevice := freeHandle_device he
  exact .of_handles (by rw [hallocator]) (by rw [hdevice]) fun k hk => by
    rw [hdevice] at hk
    exact (HandleTable.inUse_of_free hk).1

theorem stakes_unmapBuffer (x : Nat) : Keeps (SameStakes (κ := κ)) (Allocator.unmapBuffer x) :=
  keeps_unmapBuffer_of (stakes_editBuffer x fun _ => rfl)

theorem stakes_handOut (x : Nat) : Keeps (SameStakes (κ := κ)) (Allocator.handOut x) :=
  keeps_handOut_of (keeps_clearBuffer x) (stakes_editBuffer x fun _ => rfl) fun _ => stakes_write _ _ _ _

/-- The handle of a buffer is freed before the buffer counts as freed. -/
theorem minds_free (x : Nat) : Keeps (Minds (κ := κ)) (Allocator.free x) := by
  refine (faultless_free x).keeps fun {m m'} _ he => ?_
  unfold Allocator.free at he
  obtain ⟨b, hx, he⟩ := bind_buffer_ok he
  obtain ⟨_, m₁, h₁, he⟩ := bind_ok he
  obtain ⟨_, m₂, h₂, he⟩ := bind_ok he
  obtain ⟨_, m₃, h₃, he⟩ := bind_ok he
  obtain ⟨_, m₄, h₄, he⟩ := bind_ok he
  obtain ⟨_, m₅, h₅, he⟩ := bind_ok he
  obtain ⟨_, m₆, h₆, hcount⟩ := bind_ok he
  have hbefore : SameStakes m m₄ := ((((stakes_writeHandle _ _).ok h₁).trans ((stakes_unmapBuffer x).ok h₂)).trans
    ((keeps_freeBufferRegion x).ok h₃)).trans ((stakes_editAllocator (f := (·.forget b.handle)) fun _ => rfl).ok h₄)
  obtain ⟨b₄, hx₄, hstake⟩ := hbefore.buffer hx
  have hdevice := freeHandle_device h₅
  have hallocator : m₅.allocator = m₄.allocator := Keeps.ok (R := SameAllocator) (keeps_freeHandle _) h₅
  refine (hbefore.minds.trans ((minds_freeHandle _).ok h₅)).trans ?_
  cases h₆
  cases hcount
  refine .of_modify rfl rfl rfl (fun _ => rfl) (fun _ c hc _ _ huse => ?_) fun _ c _ hrested => hrested
  rw [hallocator, hx₄] at hc
  cases hc
  have hhandle : b₄.handle = b.handle := congrArg (·.1) hstake
  rw [hdevice, hhandle] at huse
  exact absurd rfl (HandleTable.inUse_of_free huse).2

theorem minds_evict (x : Nat) : Keeps (Minds (κ := κ)) (Allocator.evict x) :=
  keeps_bind (minds_uncache x) fun _ => keeps_bind (minds_of_stakes (stakes_editAllocator fun _ => rfl)) fun _ =>
    minds_free x

theorem minds_finish (x : Nat) : Keeps (Minds (κ := κ)) (Allocator.finish x) :=
  keeps_finish_of (minds_enterCache x) (keeps_evictOld minds_evict)
    (minds_of_stakes (stakes_editBuffer x fun _ => rfl)) (keeps_markUnused x) (minds_free x)

theorem minds_unreference (x : Nat) : Keeps (Minds (κ := κ)) (Buffer.unreference x) := by
  have hedit {f : Buffer → Buffer} (hf : ∀ b, (f b).stake = b.stake) : Keeps (Minds (κ := κ)) (modifyBuffer x f) :=
    minds_of_stakes (stakes_editBuffer x hf)
  exact keeps_unreference_of (hedit fun _ => rfl)
    (keeps_beginRelease_of (fun name b => minds_of_stakes (stakes_writeHandle name b)) (minds_finish x)
      (hedit fun _ => rfl) (keeps_callbackAll _) fun _ => hedit fun _ => rfl)

theorem minds_runCallback (c : Callback) : Keeps (Minds (κ := κ)) (Device.runCallback c) :=
  keeps_runCallback_of keeps_reportCallback (fun x => keeps_queueDrained_of
    (fun name b => minds_of_stakes (stakes_writeHandle name b)) (minds_finish x)
    (minds_of_stakes (stakes_editBuffer x fun _ => rfl))) c

/-! ## Waits -/

theorem polling_minds : Polling (κ := κ) (Keeps Minds) := polling_of_runCallback minds_retireAtom minds_runCallback

/-- A handle that was found idle is not in use. -/
theorem waitIdle_ok {handle : Nat} {timeout : Int} {m m' : Machine κ}
    (he : (Device.waitIdle handle timeout).exec m = (.ok (), m')) : ¬m'.device.handles.InUse handle := by
  obtain ⟨_, m₁, hdebug, he⟩ := bind_ok he
  obtain ⟨⟨outcome, deadline⟩, m₂, hwait, he⟩ := bind_ok he
  have hlook : Keeps (Minds (κ := κ)) (do return Device.idleOutcome (← device).handles handle) :=
    keeps_bind keeps_device fun _ => keeps_pure _
  cases outcome with
  | none => cases he
  | some o =>
    cases o with
    | some f => cases he
    | none =>
      cases he
      obtain ⟨m₃, m₄, -, hfound, hafter⟩ := polling_minds.waitUntil_some hlook hwait
      rw [exec_bind_of_ok (exec_device m₃)] at hfound
      obtain ⟨houtcome, hsame⟩ := Prod.ext_iff.mp hfound
      have hsame : m₃ = m₄ := hsame
      subst hsame
      rintro huse
      obtain ⟨e, hentry, hne⟩ := hafter.handles _ huse
      have hidle : Device.idleOutcome m₃.device.handles handle = some none := Except.ok.inj houtcome
      rw [Device.idleOutcome, HandleTable.entry?, HandleTable.index?_natCast (List.getElem?_eq_some_iff.mp hentry).1,
        Option.bind_some, hentry] at hidle
      dsimp only at hidle
      rw [if_neg hne] at hidle
      cases hidle

/-- A wait for a buffer that ends in time has nothing left to wait for. -/
theorem waitHandle_ok {x : Nat} {timeout : Int} {ready : Bool} {m m' : Machine κ}
    (he : (Buffer.waitHandle x timeout).exec m = (.ok ready, m')) : Minds m m' ∧ (ready = true → m'.access x = 0) := by
  unfold Buffer.waitHandle at he
  obtain ⟨b, hx, he⟩ := bind_buffer_ok he
  obtain ⟨r, m₁, hwait, he⟩ := bind_ok he
  have hminds : Minds m m₁ := (keeps_attempt (keeps_waitIdle polling_minds _ _)).ok hwait
  have hpasses : Bypasses none m m₁ := (keeps_attempt (keeps_waitIdle
    (polling_of_runCallback keeps_retireAtom bypasses_runCallback) _ _)).ok hwait
  cases r with
  | ok u =>
    obtain ⟨b₁, hx₁, houtline⟩ := hpasses.outline hx
    have hidle := waitIdle_ok (attempt_ok hwait)
    obtain ⟨_, m₂, hsettle, he⟩ := bind_ok he
    cases hsettle
    cases he
    refine ⟨hminds.trans (.of_modify (x := x) rfl rfl rfl (fun _ => rfl) (fun _ c hc _ _ huse => ?_)
      fun _ c _ _ _ => rfl), fun _ => ?_⟩
    · rw [hx₁] at hc
      cases hc
      have hhandle : b₁.handle = b.handle := congrArg (·.2.2.2.1) houtline
      exact absurd (hhandle ▸ huse) hidle
    · refine (Machine.access_of_buffer (b := { b₁ with access := 0 }) ?_).trans rfl
      show (m₁.allocator.buffers.modify x _)[x]? = _
      rw [getElem?_modify_of_some hx₁, if_pos rfl]
  | error f =>
    have hfalse : ready = false ∧ Minds m₁ m' := by
      dsimp only at he
      split at he
      · obtain ⟨_, m₂, herror, he⟩ := bind_ok he
        cases he
        exact ⟨rfl, (keeps_error _ _).ok herror⟩
      · cases he
        exact ⟨rfl, Journey.refl _⟩
    exact ⟨hminds.trans hfalse.2, fun htrue => absurd (hfalse.1.symm.trans htrue) Bool.false_ne_true⟩

/-- A look whether a job manager device is done with a buffer that nobody else uses.  On a command stream device there
is none. -/
theorem isIdle_ok {x : Nat} {patient idle : Bool} {m m' : Machine κ}
    (he : (Allocator.isIdle x patient).exec m = (.ok idle, m')) :
    (m.device.generation = .csf ∧ m' = m) ∨ m.device.generation ≠ .csf ∧ Minds m m' ∧
      (idle = true → ∀ b, m.allocator.buffers[x]? = some b → b.has BufferFlag.shared = false → m'.access x = 0) := by
  unfold Allocator.isIdle Buffer.wait at he
  rw [exec_bind_of_ok (exec_device m)] at he
  split at he
  · rename_i hcsf
    cases he
    exact .inl ⟨hcsf, rfl⟩
  · rename_i hjob
    rw [exec_bind_of_ok (exec_debug _ _ _)] at he
    obtain ⟨b, hx, he⟩ := bind_buffer_ok he
    have hdebug : Minds m { m with log := ⟨.debug, "BO::Wait", []⟩ :: m.log } := Inward.of_eq rfl rfl rfl rfl
    refine .inr ⟨hjob, ?_⟩
    split at he
    · rename_i hquiet
      cases he
      refine ⟨hdebug, fun _ c hc hshared => ?_⟩
      have hx : m.allocator.buffers[x]? = some b := hx
      rw [hx] at hc
      cases hc
      have hzero : b.access = 0 := by simpa [Buffer.isQuiet, hshared] using hquiet
      exact (Machine.access_of_buffer (m := m) hx).trans hzero
    · rw [exec_bind_of_ok (exec_device _), if_neg hjob] at he
      obtain ⟨hminds, hready⟩ := waitHandle_ok he
      exact ⟨hdebug.trans hminds, fun hidle _ _ _ => hready hidle⟩

theorem minds_isIdle (x : Nat) (patient : Bool) : Keeps (Minds (κ := κ)) (Allocator.isIdle x patient) := by
  refine (faultless_isIdle x patient).keeps fun he => ?_
  rcases isIdle_ok he with ⟨-, rfl⟩ | ⟨-, hminds, -⟩
  · exact Journey.refl _
  · exact hminds

end Kernel

/-! ## Marked machines -/

/-- An access is pending on a buffer that the handle is for. -/
def Machine.Awaited (m : Machine κ) (k : Nat) : Prop :=
  ∃ (x : Nat) (b : Buffer), m.allocator.buffers[x]? = some b ∧ b.freed = false ∧ b.handle = k ∧ b.access ≠ 0

/-- What atoms in flight use is marked, and what is cached on a command stream device is not. -/
structure Machine.Marked (m : Machine κ) : Prop where
  atoms : ∀ k, m.device.handles.InUse k → m.device.generation ≠ .csf ∧ m.Awaited k
  rested : m.device.generation = .csf → ∀ b ∈ m.allocator.buffers, b.Rested

theorem Minds.marked {m m' : Machine κ} (h : Minds m m') (hm : m.Marked) : m'.Marked where
  atoms k huse := by
    obtain ⟨hjob, x, b, hx, hfreed, rfl, haccess⟩ := hm.atoms k (h.handles k huse)
    obtain ⟨b', hx', hfreed', hhandle, haccess'⟩ := h.pending hjob x b hx hfreed haccess huse
    exact ⟨by rwa [h.generation], x, b', hx', hfreed', hhandle, haccess'⟩
  rested hcsf := by
    have hcsf := h.generation.symm.trans hcsf
    exact h.rested hcsf (hm.rested hcsf)

/-! ## Steps -/

section Kernel

variable [Kernel κ] {c c' : Config κ} {act : Action} {m m' : Machine κ}

omit [Kernel κ] in
theorem stakes_attachStream (s : Stream) : Keeps (SameStakes (κ := κ)) (Device.attachStream s) := by
  unfold Device.attachStream
  exact keeps_bind keeps_takeSlot fun i => keeps_bind (keeps_startSlot i) fun _ => keeps_bind keeps_device fun d =>
    keeps_bind (keeps_modify fun _ => ⟨rfl, rfl, rfl⟩) fun _ => keeps_pure _

/-- What is recorded on buffers that are in use is recorded on none that is cached. -/
theorem Step.minds_collect {id batch : Nat} (h : Step c (.collect id batch) c')
    (hcsf : c.machine.device.generation = .csf)
    (haccess : ∀ x, ¬c.InUse x → c'.machine.access x = c.machine.access x) : Minds c.machine c'.machine := by
  cases h with
  | @collect m m' _ _ b _ _ he =>
    have hcards : SameCards m m' := (keeps_collect cards_useBuffer _ _).ok he
    have hdevice : SameDevice m m' := (sameDevice_collect _ _).ok he
    refine ⟨by rw [hdevice], fun k hk => by rwa [← hdevice], fun hjob => absurd hcsf hjob, fun _ hall b' hb' => ?_⟩
    intro hcached
    obtain ⟨x, hx'⟩ := List.mem_iff_getElem?.mp hb'
    cases hx : m.allocator.buffers[x]? with
    | none => exact absurd (hcards.fresh x b' hx hx') hcached
    | some b =>
      obtain ⟨b₁, hx₁, hcard, -⟩ := hcards.kept x b hx
      rw [hx'] at hx₁
      cases hx₁
      have hclass : b'.cachedIn = b.cachedIn := congrArg (·.2.2) hcard
      have hunused : ¬(⟨m, [], none⟩ : Config κ).InUse x := by
        rintro ⟨a, ha, -, hloose, -⟩
        have ha : m.storage.accounts[x]? = some a := ha
        rw [Machine.accounts_of_buffer hx] at ha
        cases ha
        exact hcached (hclass.trans hloose)
      have hsame : m'.access x = m.access x := haccess x hunused
      rw [Machine.access_of_buffer hx', Machine.access_of_buffer hx] at hsame
      exact hsame.trans (hall b (List.mem_of_getElem? hx) (hclass ▸ hcached))

/-- Steps mind what is marked if callers do: with what they do quietly, and with what their batches record. -/
theorem Step.minds (h : Step c act c') (hquiet : Quiet c.machine c'.machine → Minds c.machine c'.machine)
    (hcollect : ∀ id batch, act = .collect id batch → Minds c.machine c'.machine) : Minds c.machine c'.machine := by
  cases h with
  | quiet h => exact hquiet h
  | reference he => exact (minds_of_stakes (stakes_reference _)).ok he
  | revive _ _ _ he => exact (minds_of_stakes (stakes_revive _)).ok he
  | unreference _ _ he => exact (minds_unreference _).ok he
  | release _ _ he => exact (minds_unreference _).ok he
  | enter _ _ _ _ hcached _ _ _ he => exact (minds_addBuffer hcached).ok he
  | abandon _ he => exact (minds_freeHandle _).ok he
  | reuse he => exact (minds_reuse _ _).ok he
  | wrap he => exact (minds_wrapRegion _ _ _ _).ok he
  | handOut he => exact (minds_of_stakes (stakes_handOut _)).ok he
  | evictStale he => exact (keeps_evictOld minds_evict).ok he
  | evictAll he => exact (keeps_evictBuckets minds_evict _).ok he
  | await he => exact (keeps_callbackAll _).ok he
  | attach he => exact (minds_of_stakes (stakes_attachStream _)).ok he
  | submit _ he => exact (keeps_submitSlot _ _).ok he
  | advance he => exact (keeps_advanceSlot _ _).ok he
  | update he => exact (keeps_takeCallbacks _ _).ok he
  | terminate _ he => exact (keeps_clearSlot _).ok he
  | fire he => exact (minds_runCallback _).ok he
  | collect _ _ he => exact hcollect _ _ rfl

/-- An atom that uses marked buffers only may take off. -/
theorem submitJob_marked {va : UInt64} {requirements : UInt32} {o : Option Nat} {handles : List Int}
    {r : Except Halt UInt8} (hcalm : m.Calm) (hm : m.Marked) (hmarked : ∀ k : Nat, (k : Int) ∈ handles → m.Awaited k)
    (he : (Device.submitJob va requirements o handles).exec m = (r, m')) (hr : Survives r) : m'.Marked := by
  have hkeeps : Keeps (SameAllocator (κ := κ)) (Device.submitJob va requirements o handles) :=
    keeps_submitJob keeps_retireAtom (fun number slot => keeps_markAtom number slot handles) va requirements o
  have hallocator : m'.allocator = m.allocator := (hkeeps m).survives he hr
  obtain ⟨marked, -, hmark, -, hcase⟩ := submitJob_cases hcalm.links he hr
  have hjob : m.device.generation ≠ .csf := hcalm.generation
  have hend {t : HandleTable} {fs : List (UInt8 × List Int)} (hstate : m'.jobState = m.jobState.submit t fs)
      (ht : ∀ k, t.InUse k → marked.table.InUse k) : m'.Marked := by
    have hgeneration : m'.device.generation = m.device.generation := congrArg JobState.generation hstate
    refine ⟨fun k huse => ⟨by rwa [hgeneration], ?_⟩, fun hcsf => absurd (hgeneration.symm.trans hcsf) hjob⟩
    have htable : m'.device.handles = t := congrArg JobState.table hstate
    rw [htable] at huse
    rw [Machine.Awaited, hallocator]
    rcases HandleTable.inUse_of_mark hmark (ht k huse) with hold | hlisted
    · exact (hm.atoms k hold).2
    · exact hmarked k hlisted
  rcases hcase with ⟨-, hstate, -⟩ | ⟨-, t, -, hrelease, hstate⟩
  · exact hend hstate fun _ hk => hk
  · exact hend hstate fun _ hk => HandleTable.inUse_of_release hrelease hk

/-- Steps of callers who hold what they use: what they do quietly minds what is marked, their batches record accesses
on buffers that are in use, and their atoms use buffers that are marked. -/
inductive CarefulStep : Config κ → Action → Config κ → Prop
  | stream {c c' : Config κ} {act : Action} (hcsf : c.progress.generation = .csf) (h : Step c act c')
    (hquiet : Quiet c.machine c'.machine → Minds c.machine c'.machine)
    (haccess : ∀ id k, act = .collect id k → ∀ x, ¬c.InUse x → c'.machine.access x = c.machine.access x) :
    CarefulStep c act c'
  | job {c c' : Config κ} {act : Action} (hjob : c.progress.generation ≠ .csf) (hact : act.Plain) (h : Step c act c')
    (hquiet : Quiet c.machine c'.machine → Minds c.machine c'.machine) : CarefulStep c act c'
  | submit {m m' : Machine κ} {held : Option Nat} {va : UInt64} {requirements : UInt32} {o : Option Nat}
    {handles : List Int} {r : Except Halt UInt8} (hjob : m.progress.generation ≠ .csf)
    (hmarked : ∀ k : Nat, (k : Int) ∈ handles → m.Awaited k)
    (he : (Device.submitJob va requirements o handles).exec m = (r, m')) (hr : Survives r) :
    CarefulStep ⟨m, [], held⟩ .other ⟨m', [], held⟩
  | event {m m' : Machine κ} {held : Option Nat} {e : JobEvent} {fine : Bool}
    (hjob : m.progress.generation ≠ .csf) (he : (Device.handleJobEvent e).exec m = (.ok fine, m')) :
    CarefulStep ⟨m, [], held⟩ .other ⟨m', [], held⟩

namespace CarefulStep

theorem shelf (h : CarefulStep c act c') : ShelfStep c act c' := by
  cases h with
  | stream hcsf h => exact .stream hcsf h
  | job hjob hact h => exact .job hjob hact h
  | submit hjob _ he hr => exact .submit hjob he hr
  | event hjob he => exact .event hjob he

theorem marked (h : CarefulStep c act c') (hc : c.progress.generation = .csf ∨ c.machine.Calm)
    (hm : c.machine.Marked) : c'.machine.Marked := by
  cases h with
  | stream hcsf h hquiet haccess =>
    refine (h.minds hquiet ?_).marked hm
    rintro id batch rfl
    exact h.minds_collect hcsf (haccess id batch rfl)
  | job hjob hact h hquiet =>
    refine (h.minds hquiet ?_).marked hm
    rintro id batch rfl
    simp [Action.Plain] at hact
  | submit hjob hmarked he hr => exact submitJob_marked (hc.resolve_left hjob) hm hmarked he hr
  | event hjob he =>
    exact (handleJobEvent_keeps (R := Minds) minds_retireAtom (hc.resolve_left hjob).links he).marked hm

end CarefulStep

/-- By induction on the run. -/
theorem Course.marked {es : List (Config κ × Action)} (h : Course CarefulStep c es c')
    (hc : c.progress.generation = .csf ∨ c.machine.Calm) (hm : c.machine.Marked) : c'.machine.Marked := by
  induction h with
  | nil => exact hm
  | cons hs _ ih => exact ih (hs.shelf.csf_or_calm hc) (hs.marked hc hm)

omit [Kernel κ] in
/-- Nothing is in use at the start. -/
theorem Vacant.marked (h : Vacant m) (hidle : ∀ k, ¬m.device.handles.InUse k) : m.Marked where
  atoms k hk := absurd hk (hidle k)
  rested _ b hb := by
    have hnone : m.allocator.buffers.map Buffer.account = [] := h.accounts
    rw [List.map_eq_nil_iff.mp hnone] at hb
    exact absurd hb List.not_mem_nil

end Kernel

end Mali
