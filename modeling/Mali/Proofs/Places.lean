import Mali.Proofs.Atoms

/-!
# Operations that change places

Buffers change places without touching the device, except that a freed buffer gives up its handle.  The
entry goes from the table, and with it the use count it had.

* `SameDevice`: the device stays as it is, and `OfDevice`: what is kept then.
* `Domestic`: what is kept inside an allocator, as long as no buffer is freed or added.
* `free_device`: what freeing a buffer does to the device.
* `Balanced.free`: use counts stay right when a handle is freed that no atom in flight uses.
-/

namespace Mali

open Op

variable {κ α : Type}

/-! ## Operations that leave the device alone -/

/-- The device stays as it is. -/
def SameDevice (m m' : Machine κ) : Prop := m'.device = m.device

/-- Relations that look at the device only. -/
class OfDevice (R : Machine κ → Machine κ → Prop) : Prop extends Journey R where
  of_device {m m' : Machine κ} : SameDevice m m' → R m m'

instance (R : Machine κ → Machine κ → Prop) [OfDevice R] : Inward R where
  of_eq hd _ _ _ := OfDevice.of_device hd

instance : OfDevice (SameDevice (κ := κ)) where
  refl _ := rfl
  trans h h' := Eq.trans h' h
  of_device hd := hd

/-- Relations that look at the kernel, the device and the submission contexts only. -/
class OfDriver (R : Machine κ → Machine κ → Prop) : Prop extends Journey R where
  of_driver {m m' : Machine κ} : m'.kernel = m.kernel → SameDevice m m' → m'.submitters = m.submitters → R m m'

instance (R : Machine κ → Machine κ → Prop) [OfDevice R] : OfDriver R where
  of_driver _ hd _ := OfDevice.of_device hd

instance (R : Machine κ → Machine κ → Prop) [OfDriver R] : OfState R where
  of_state hk hd _ hs _ := OfDriver.of_driver hk hd hs

/-- What a buffer holds on to: its handle and its mapping, and whether it let them go. -/
def Buffer.hold (b : Buffer) : Nat × Option Mapping × Bool := (b.handle, b.cpu, b.freed)

/-- What a buffer keeps for as long as it is not freed: what it holds on to, and how its region was got. -/
def Buffer.kept (b : Buffer) : (Nat × Option Mapping × Bool) × UInt64 × Bool × UInt32 :=
  (b.hold, b.gpu, b.freeRegion, b.flags)

/-- What an allocator goes by when it frees a buffer: where it finds buffers, and how many it freed. -/
def Allocator.roll (a : Allocator) : List (Nat × Nat) × Nat := (a.arena, a.frees)

/-- Relations that are not broken inside an allocator, as long as its roll stays as it is and every buffer keeps what
it has. -/
class Domestic (R : Machine κ → Machine κ → Prop) : Prop extends Journey R where
  of_domestic {m m' : Machine κ} : m'.kernel = m.kernel → m'.calls = m.calls → m'.hookReports = m.hookReports →
    SameDevice m m' → m'.allocator.roll = m.allocator.roll →
    m'.allocator.buffers.map Buffer.kept = m.allocator.buffers.map Buffer.kept → m'.submitters = m.submitters → R m m'

instance (R : Machine κ → Machine κ → Prop) [Domestic R] : Audible R where
  of_audible hk hc hh hd ha hs _ := Domestic.of_domestic hk hc hh hd (by rw [ha]) (by rw [ha]) hs

instance (R : Machine κ → Machine κ → Prop) [OfDriver R] : Domestic R where
  of_domestic hk _ _ hd _ _ hs := OfDriver.of_driver hk hd hs

/-- Buffers that keep what they have hold on to it. -/
theorem holds_of_kept {bs bs' : List Buffer} (h : bs'.map Buffer.kept = bs.map Buffer.kept) :
    bs'.map Buffer.hold = bs.map Buffer.hold := by
  have := congrArg (List.map Prod.fst) h
  rwa [List.map_map, List.map_map] at this

section Domestic

variable {R : Machine κ → Machine κ → Prop} [Domestic R]

/-- A change of an allocator that leaves its roll and its buffers alone. -/
theorem keeps_editAllocator {f : Allocator → Allocator} (hroll : ∀ a, (f a).roll = a.roll)
    (hbuffers : ∀ a, (f a).buffers = a.buffers) : Keeps R (modifyAllocator f) :=
  keeps_modify fun m => Domestic.of_domestic rfl rfl rfl rfl (hroll m.allocator)
    (congrArg (List.map Buffer.kept) (hbuffers m.allocator)) rfl

/-- A change of a buffer that keeps what it has. -/
theorem keeps_editBuffer (id : Nat) {f : Buffer → Buffer} (hf : ∀ b, (f b).kept = b.kept) :
    Keeps R (modifyBuffer id f) :=
  keeps_modify fun m =>
    Domestic.of_domestic rfl rfl rfl rfl rfl (map_modify_eq Buffer.kept hf m.allocator.buffers id) rfl

@[grind ←] theorem keeps_write (name : String) (b : Buffer) (fd : Int) (imported : Option (Int × Bool)) :
    Keeps R (Allocator.write name b fd imported) :=
  keeps_write_of (fun _ => keeps_editAllocator (fun _ => rfl) fun _ => rfl) name b fd imported

@[grind ←] theorem keeps_writeHandle (name : String) (b : Buffer) :
    Keeps R (Allocator.writeHandle name b) := keeps_writeHandle_of fun _ => keeps_write _ _ _ _

@[grind ←] theorem keeps_uncache (id : Nat) : Keeps R (Allocator.uncache id) :=
  keeps_uncache_of (fun _ => keeps_editAllocator (fun _ => rfl) fun _ => rfl) (keeps_editBuffer id fun _ => rfl)

@[grind ←] theorem keeps_reference (id : Nat) : Keeps R (Buffer.reference id) :=
  keeps_reference_of (keeps_editBuffer id fun _ => rfl)

@[grind ←] theorem keeps_revive (id : Nat) : Keeps R (Allocator.revive id) :=
  keeps_revive_of (keeps_editBuffer id fun _ => rfl) (keeps_editBuffer id fun _ => rfl)

@[grind ←] theorem keeps_reuse (id : Nat) (label : String) : Keeps R (Allocator.reuse id label) :=
  keeps_reuse_of (keeps_uncache id) (keeps_editBuffer id fun _ => rfl)
    (keeps_editAllocator (fun _ => rfl) fun _ => rfl)

end Domestic

section OfDriver

variable {R : Machine κ → Machine κ → Prop} [OfDriver R]

@[grind ←] theorem keeps_modifyAllocator (f : Allocator → Allocator) : Keeps R (modifyAllocator f) :=
  keeps_modify fun _ => OfDriver.of_driver rfl rfl rfl

@[grind ←] theorem keeps_modifyBuffer (id : Nat) (f : Buffer → Buffer) : Keeps R (modifyBuffer id f) :=
  keeps_modifyAllocator _

@[grind ←] theorem keeps_addBuffer (b : Buffer) : Keeps R (Allocator.addBuffer b) :=
  keeps_bind keeps_allocator fun _ => keeps_bind (keeps_modifyAllocator _) fun _ => keeps_pure _

end OfDriver

section Kernel

variable [Kernel κ]

section Tolerant

variable {R : Machine κ → Machine κ → Prop} [OfDriver R] [Tolerant R]

@[grind ←] theorem keeps_unmapBuffer (id : Nat) : Keeps R (Allocator.unmapBuffer id) :=
  keeps_unmapBuffer_of (keeps_modifyBuffer id _)

end Tolerant

@[grind ←] theorem keeps_freeBufferRegion {R : Machine κ → Machine κ → Prop} [Asks R] [OfTrace R] (id : Nat) :
    Keeps R (Allocator.freeBufferRegion id) := keeps_freeBufferRegion_of keeps_freeDevice id

@[grind ←] theorem keeps_enterCache {R : Machine κ → Machine κ → Prop} [Domestic R] (id : Nat) :
    Keeps R (Allocator.enterCache id) :=
  keeps_enterCache_of (fun _ => keeps_editAllocator (fun _ => rfl) fun _ => rfl)
    fun _ _ _ => keeps_editBuffer id fun _ => rfl

@[grind ←] theorem keeps_handOut {R : Machine κ → Machine κ → Prop} [Domestic R] [Asks R] (id : Nat) :
    Keeps R (Allocator.handOut id) :=
  keeps_handOut_of (keeps_clearBuffer id) (keeps_editBuffer id fun _ => rfl) fun _ => keeps_write _ _ _ _

/-- Freeing a handle frees its entry, and leaves the rest of the device alone. -/
theorem freeHandle_device {handle : Int} {m m' : Machine κ} {u : Unit}
    (he : (Device.freeHandle handle).exec m = (.ok u, m')) :
    m'.device = { m.device with handles := (m.device.handles.free handle).2 } := by
  unfold Device.freeHandle at he
  rw [exec_bind_of_ok (exec_device m)] at he
  cases hfree : m.device.handles.free handle with
  | mk o t =>
    rw [hfree] at he
    cases o with
    | none =>
      cases he
      have hsame : m.device.handles = t := by
        unfold HandleTable.free at hfree
        split at hfree
        · exact (Prod.mk.inj hfree).2
        · rename_i k hk
          have hlt := (HandleTable.index?_eq_some hk).2
          rw [List.getElem?_eq_getElem hlt] at hfree
          cases hfree
      rw [← hsame]
    | some fd =>
      obtain ⟨_, m₁, hset, he⟩ := bind_ok he
      cases hset
      have hrest : Keeps (SameDevice (κ := κ)) (do
          Device.checkHandles
          if 0 ≤ fd then Device.closeHandleFd handle.toNat fd) := by
        unfold Device.checkHandles Device.closeHandleFd
        grind
      exact hrest.ok he

/-- Freeing a buffer frees its handle, and leaves the rest of the device alone. -/
theorem free_device {id : Nat} {m m' : Machine κ} {b : Buffer}
    (hget : m.allocator.buffers[id]? = some b) (he : (Allocator.free id).exec m = (.ok (), m')) :
    m'.device = { m.device with handles := (m.device.handles.free b.handle).2 } := by
  unfold Allocator.free at he
  obtain ⟨b', hget', he⟩ := bind_buffer_ok he
  rw [hget] at hget'
  cases hget'
  obtain ⟨_, m₁, h₁, he⟩ := bind_ok he
  obtain ⟨_, m₂, h₂, he⟩ := bind_ok he
  obtain ⟨_, m₃, h₃, he⟩ := bind_ok he
  obtain ⟨_, m₄, h₄, he⟩ := bind_ok he
  have hsame : m₄.device = m.device :=
    ((keeps_modifyAllocator (R := SameDevice) _).ok h₄).trans <|
      ((keeps_freeBufferRegion (R := SameDevice) _).ok h₃).trans <|
      ((keeps_unmapBuffer (R := SameDevice) _).ok h₂).trans ((keeps_writeHandle (R := SameDevice) _ _).ok h₁)
  obtain ⟨_, m₅, h₅, he⟩ := bind_ok he
  obtain ⟨_, m₆, h₆, he⟩ := bind_ok he
  have hrest : m'.device = m₅.device :=
    ((keeps_modifyAllocator (R := SameDevice) _).ok he).trans ((keeps_modifyBuffer (R := SameDevice) _ _).ok h₆)
  rw [hrest, ← hsame]
  exact freeHandle_device h₅

end Kernel

/-! ## Handles and their use counts -/

namespace HandleTable

/-- A change of entries in place that keeps their descriptors keeps live handles. -/
theorem owns_map_iff {t t' : HandleTable} {f : Nat → Handle → Handle}
    (h : ∀ k, t'.entries[k]? = (t.entries[k]?).map (f k)) (hfd : ∀ k e, (f k e).fd = e.fd) {k : Nat}
    {fd : Int} : t'.Owns k fd ↔ t.Owns k fd := by
  constructor
  · rintro ⟨_, hentry, hlive⟩
    rw [h] at hentry
    obtain ⟨e, he, rfl⟩ := Option.map_eq_some_iff.mp hentry
    exact ⟨e, he, by rwa [hfd] at hlive⟩
  · rintro ⟨e, he, hlive⟩
    refine ⟨f k e, by rw [h k, he, Option.map_some], ?_⟩
    rwa [hfd]

/-- After an entry is freed every entry is one from before, or has no uses. -/
theorem entries_free {t : HandleTable} {handle : Int} {k : Nat} {e : Handle}
    (he : (t.free handle).2.entries[k]? = some e) :
    t.entries[k]? = some e ∨ (e.useCount = 0 ∧ e.fd = freedFd) := by
  unfold free at he
  split at he
  · exact .inl he
  · rename_i i hi
    have hprefix : (t.entries.set i { fd := freedFd })[k]? = some e := by
      obtain ⟨_, hsplit, -⟩ := dropFreedTail_append (t.entries.set i { fd := freedFd })
      rw [hsplit, List.getElem?_append_left (List.getElem?_eq_some_iff.mp he).1]
      exact he
    rcases eq_or_ne i k with rfl | hik
    · rw [List.getElem?_set_self (index?_eq_some hi).2] at hprefix
      cases hprefix
      exact .inr ⟨rfl, rfl⟩
    · rw [List.getElem?_set_ne hik] at hprefix
      exact .inl hprefix

end HandleTable

namespace Balanced

variable {t : HandleTable} {fs : List (UInt8 × List Int)}

/-- Use counts stay right when a handle is freed, if the handles that atoms in flight use stay live. -/
theorem free (h : Balanced t fs) (handle : Int)
    (hlive : ∀ k, flightCount fs k ≠ 0 → ∃ fd, (t.free handle).2.Owns k fd) :
    Balanced (t.free handle).2 fs := by
  refine ⟨h.numbers, fun f hf i hi => ?_, fun k e he => ?_⟩
  · obtain ⟨k, rfl, -⟩ := h.inside f hf i hi
    obtain ⟨fd, e, he, -⟩ := hlive k (Nat.pos_iff_ne_zero.mp (flightCount_pos hf hi))
    exact ⟨k, rfl, (List.getElem?_eq_some_iff.mp he).1⟩
  · rcases HandleTable.entries_free he with hold | ⟨hcount, hfreed⟩
    · exact h.uses k e hold
    · have hzero : flightCount fs k = 0 := by
        by_contra hne
        obtain ⟨fd, e', he', hfd, hnot⟩ := hlive k hne
        rw [he] at he'
        cases he'
        exact hnot (hfd.symm.trans hfreed)
      rw [hcount, hzero]
      rfl

theorem setMapping (h : Balanced t fs) (k : Nat) (p : Option Mapping) :
    Balanced (t.setMapping k p) fs := by
  refine ⟨h.numbers, fun f hf i hi => ?_, fun j e he => ?_⟩
  · show ∃ j : Nat, i = (j : Int) ∧ j < (t.entries.modify k _).length
    rw [List.length_modify]
    exact h.inside f hf i hi
  · rw [HandleTable.setMapping, List.getElem?_modify, Option.map_eq_map, Option.map_eq_some_iff] at he
    obtain ⟨e₀, he₀, rfl⟩ := he
    rw [← h.uses j e₀ he₀]
    split
    · rfl
    · rfl

/-- The use count of any handle, whether it is in the table or not. -/
theorem toNat_useCount (h : Balanced t fs) (k : Nat) : (t.get k).useCount.toNat = flightCount fs k := by
  unfold HandleTable.get HandleTable.entry?
  rcases Nat.lt_or_ge k t.entries.length with hlt | hge
  · have hentry : t.entries[k]? = some t.entries[k] := List.getElem?_eq_getElem hlt
    rw [HandleTable.index?_natCast hlt, Option.bind_some, hentry, ← h.uses k _ hentry]
    dsimp only
    split
    · rfl
    · rfl
  · have hnone : t.index? k = none := by
      cases hindex : t.index? k with
      | none => rfl
      | some i =>
        obtain ⟨hi, hlt⟩ := HandleTable.index?_eq_some hindex
        omega
    have hzero : flightCount fs k = 0 := by
      by_contra hne
      obtain ⟨f, hf, hk⟩ := List.mem_flatMap.mp
        (List.count_pos_iff.mp (Nat.pos_iff_ne_zero.mpr hne))
      obtain ⟨j, hj, hlt⟩ := h.inside f hf _ hk
      omega
    rw [hnone, hzero]
    rfl

end Balanced

end Mali
