import Mali.Handle
import Mathlib

/-!
# Marks on handles

Marking the handles of an atom counts each of them as often as it is listed, and records the atom as the
last one on its job slot.  Releasing the handles counts back, and cannot fail as long as what is counted
back was counted before.

On the way the newest of the atoms recorded on the handles in use is found, for each job slot.  Atom
numbers are compared by their distance above the number of the new atom, counted in a byte, so the new
atom itself is the least of all, and the one submitted before it the greatest.

* `Handle.mark`, `Handle.unmark`: what happens to one entry.
* `markAll_ok`, `release_ok`: what happens to all of them.
* `latestAtom_sub`, `le_after_markAll`, `after_markAll`: which atoms are found.
-/

namespace Mali

/-- An entry that an atom on a job slot was listed with `n` times. -/
def Handle.mark (h : Handle) (slot : JobSlot) (atom : UInt8) (n : Nat) : Handle :=
  if n = 0 then h
  else
    { h with useCount := h.useCount + UInt8.ofNat n, lastAccess := h.lastAccess.set slot atom }

/-- An entry that an atom with `n` listings is done with. -/
def Handle.unmark (h : Handle) (n : Nat) : Handle :=
  { h with useCount := h.useCount - UInt8.ofNat n }

namespace PerSlot

theorem set_set {α : Type} (p : PerSlot α) (s : JobSlot) (a b : α) : (p.set s a).set s b = p.set s b := by
  cases s <;> rfl

end PerSlot

namespace Handle

@[simp] theorem mark_zero (h : Handle) (slot : JobSlot) (atom : UInt8) : h.mark slot atom 0 = h := rfl

@[simp] theorem unmark_zero (h : Handle) : h.unmark 0 = h := by simp [unmark]

theorem mark_mark_one (h : Handle) (slot : JobSlot) (atom : UInt8) (n : Nat) :
    (h.mark slot atom 1).mark slot atom n = h.mark slot atom (n + 1) := by
  rcases Nat.eq_zero_or_pos n with rfl | hn
  · rfl
  · have hcount : h.useCount + UInt8.ofNat 1 + UInt8.ofNat n = h.useCount + UInt8.ofNat (n + 1) := by
      rw [UInt8.ofNat_add, UInt8.add_assoc, UInt8.add_comm (UInt8.ofNat 1)]
    unfold mark
    rw [if_neg Nat.one_ne_zero, if_neg (Nat.ne_of_gt hn), if_neg (Nat.succ_ne_zero n)]
    rw [hcount, PerSlot.set_set]

theorem unmark_unmark_one (h : Handle) (n : Nat) : (h.unmark 1).unmark n = h.unmark (n + 1) := by
  have hcount : h.useCount - UInt8.ofNat 1 - UInt8.ofNat n = h.useCount - UInt8.ofNat (n + 1) := by
    rw [UInt8.ofNat_add]
    grind
  unfold unmark
  rw [hcount]

@[simp] theorem mark_fd (h : Handle) (slot : JobSlot) (atom : UInt8) (n : Nat) :
    (h.mark slot atom n).fd = h.fd := by
  unfold mark
  split <;> rfl

@[simp] theorem unmark_fd (h : Handle) (n : Nat) : (h.unmark n).fd = h.fd := rfl

@[simp] theorem unmark_lastAccess (h : Handle) (n : Nat) : (h.unmark n).lastAccess = h.lastAccess := rfl

theorem toNat_mark_useCount {h : Handle} {slot : JobSlot} {atom : UInt8} {n : Nat}
    (hn : h.useCount.toNat + n < 256) : (h.mark slot atom n).useCount.toNat = h.useCount.toNat + n := by
  unfold mark
  split
  · omega
  · show (h.useCount + UInt8.ofNat n).toNat = _
    rw [UInt8.toNat_add, UInt8.toNat_ofNat']
    omega

theorem toNat_unmark_useCount {h : Handle} {n : Nat} (hn : n ≤ h.useCount.toNat) :
    (h.unmark n).useCount.toNat = h.useCount.toNat - n := by
  have hlt := h.useCount.toNat_lt
  have hofNat : (UInt8.ofNat n).toNat = n := by
    rw [UInt8.toNat_ofNat']
    omega
  show (h.useCount - UInt8.ofNat n).toNat = _
  rw [UInt8.toNat_sub_of_le _ _ (by rw [UInt8.le_iff_toNat_le, hofNat]; exact hn), hofNat]

theorem mark_lastAccess {h : Handle} {slot : JobSlot} {atom : UInt8} {n : Nat} (s : JobSlot) :
    (h.mark slot atom n).lastAccess.get s = if n ≠ 0 ∧ slot = s then atom else h.lastAccess.get s := by
  unfold mark
  split
  · simp [*]
  · rename_i hn
    show (h.lastAccess.set slot atom).get s = _
    rw [PerSlot.get_set]
    simp [hn]

end Handle

namespace HandleTable

theorem index?_eq_some {t : HandleTable} {handle : Int} {i : Nat} (h : t.index? handle = some i) :
    handle = (i : Int) ∧ i < t.entries.length := by
  unfold index? size at h
  split at h
  · cases h
    omega
  · cases h

theorem index?_natCast {t : HandleTable} {k : Nat} (h : k < t.entries.length) :
    t.index? (k : Int) = some k := by
  unfold index? size
  rw [if_pos (by omega), Int.toNat_natCast]

theorem natCast_ne {j k : Nat} (h : j ≠ k) : (j : Int) ≠ (k : Int) := fun e => h (Int.ofNat_inj.mp e)

/-! ## Marking -/

theorem markOne_ok {m m' : Marked} {slot : JobSlot} {atom : UInt8} {handle : Int}
    (h : markOne m slot atom handle = .ok m') :
    ∃ (k : Nat) (e : Handle), handle = (k : Int) ∧ m.table.entries[k]? = some e ∧ e.useCount ≠ 255 ∧
      m'.table.entries = m.table.entries.set k (e.mark slot atom 1) ∧
      m'.after = if e.useCount = 0 then m.after
        else m.after.zipWith (fun a b => latestAtom a b atom) e.lastAccess := by
  unfold markOne at h
  split at h
  · cases h
  · rename_i k hk
    split at h
    · cases h
    · rename_i e he
      split at h
      · cases h
      · rename_i hcount
        cases h
        exact ⟨k, e, (index?_eq_some hk).1, he, hcount, rfl, rfl⟩

theorem markAll_cons_ok {m m' : Marked} {slot : JobSlot} {atom : UInt8} {i : Int} {is : List Int}
    (h : markAll slot atom (i :: is) m = .ok m') :
    ∃ m₁, markOne m slot atom i = .ok m₁ ∧ markAll slot atom is m₁ = .ok m' := by
  unfold markAll at h
  split at h
  · rename_i m₁ h₁
    exact ⟨m₁, h₁, h⟩
  · cases h

/-- By induction on the handles: each entry is marked as often as it is listed, without an overflow. -/
theorem markAll_ok {m m' : Marked} {slot : JobSlot} {atom : UInt8} {is : List Int}
    (h : markAll slot atom is m = .ok m') :
    (∀ i ∈ is, ∃ k : Nat, i = (k : Int) ∧ k < m.table.entries.length) ∧
    (∀ k : Nat, m'.table.entries[k]? =
      (m.table.entries[k]?).map (·.mark slot atom (is.count (k : Int)))) ∧
    ∀ (k : Nat) (e : Handle), m.table.entries[k]? = some e →
      e.useCount.toNat + is.count (k : Int) < 256 := by
  induction is generalizing m with
  | nil =>
    cases h
    refine ⟨fun i hi => absurd hi List.not_mem_nil, fun k => ?_, fun k e _ => ?_⟩
    · simp
    · exact e.useCount.toNat_lt
  | cons i is ih =>
    obtain ⟨m₁, h₁, hrest⟩ := markAll_cons_ok h
    obtain ⟨j, e, rfl, he, hcount, htable, -⟩ := markOne_ok h₁
    obtain ⟨hinside, hentries, hsum⟩ := ih hrest
    have hj := (List.getElem?_eq_some_iff.mp he).1
    have hlength : m₁.table.entries.length = m.table.entries.length := by
      rw [htable, List.length_set]
    refine ⟨fun i hi => ?_, fun k => ?_, fun k e' he' => ?_⟩
    · rcases List.mem_cons.mp hi with rfl | hi
      · exact ⟨j, rfl, hj⟩
      · rw [← hlength]
        exact hinside i hi
    · rw [hentries k, htable]
      rcases eq_or_ne j k with rfl | hjk
      · rw [List.getElem?_set_self hj, he, List.count_cons_self, Option.map_some, Option.map_some,
          Handle.mark_mark_one]
      · rw [List.getElem?_set_ne hjk, List.count_cons_of_ne (natCast_ne hjk)]
    · rcases eq_or_ne j k with rfl | hjk
      · rw [he] at he'
        cases he'
        have hlt : e.useCount.toNat ≠ 255 := fun h255 => hcount (UInt8.toNat_inj.mp h255)
        have hone : (e.mark slot atom 1).useCount.toNat = e.useCount.toNat + 1 :=
          Handle.toNat_mark_useCount (by have := e.useCount.toNat_lt; omega)
        have := hsum j (e.mark slot atom 1) (by rw [htable, List.getElem?_set_self hj])
        rw [hone] at this
        rw [List.count_cons_self]
        omega
      · rw [List.count_cons_of_ne (natCast_ne hjk)]
        exact hsum k e' (by rw [htable, List.getElem?_set_ne hjk]; exact he')

/-! ## Releasing -/

/-- By induction on the handles: what was counted can be counted back, each entry as often as it is
listed. -/
theorem release_ok {t : HandleTable} {is : List Int}
    (h : ∀ (k : Nat) (e : Handle), t.entries[k]? = some e → is.count (k : Int) ≤ e.useCount.toNat) :
    ∃ t', t.release is = .ok t' ∧
      ∀ k : Nat, t'.entries[k]? = (t.entries[k]?).map (·.unmark (is.count (k : Int))) := by
  induction is generalizing t with
  | nil =>
    refine ⟨t, rfl, fun k => ?_⟩
    simp
  | cons i is ih =>
    unfold release
    split
    · -- a number outside the table is passed over
      rename_i hnone
      have hcount : ∀ (k : Nat) (e : Handle), t.entries[k]? = some e →
          (i :: is).count (k : Int) = is.count (k : Int) := by
        intro k e he
        refine List.count_cons_of_ne fun hik => ?_
        rw [hik, index?_natCast (List.getElem?_eq_some_iff.mp he).1] at hnone
        cases hnone
      obtain ⟨t', hrelease, hentries⟩ := ih fun k e he => (hcount k e he) ▸ h k e he
      refine ⟨t', hrelease, fun k => ?_⟩
      rw [hentries k]
      cases he : t.entries[k]? with
      | none => rfl
      | some e => rw [Option.map_some, Option.map_some, hcount k e he]
    · rename_i j hj
      obtain ⟨rfl, hlt⟩ := index?_eq_some hj
      rw [List.getElem?_eq_getElem hlt]
      dsimp only
      have he : t.entries[j]? = some t.entries[j] := List.getElem?_eq_getElem hlt
      have hpos : is.count (j : Int) + 1 ≤ t.entries[j].useCount.toNat := by
        have := h j _ he
        rwa [List.count_cons_self] at this
      rw [if_neg fun hzero => by rw [hzero] at hpos; exact absurd hpos (by simp)]
      have hone : (t.entries[j].unmark 1).useCount.toNat = t.entries[j].useCount.toNat - 1 :=
        Handle.toNat_unmark_useCount (by omega)
      have hstep : ∀ (k : Nat) (e : Handle),
          (t.entries.set j (t.entries[j].unmark 1))[k]? = some e →
            is.count (k : Int) ≤ e.useCount.toNat := by
        intro k e he'
        rcases eq_or_ne j k with rfl | hjk
        · rw [List.getElem?_set_self hlt] at he'
          cases he'
          omega
        · rw [List.getElem?_set_ne hjk] at he'
          have := h k e he'
          rwa [List.count_cons_of_ne (natCast_ne hjk)] at this
      obtain ⟨t', hrelease, hentries⟩ := ih (t := ⟨t.entries.set j (t.entries[j].unmark 1)⟩) hstep
      refine ⟨t', hrelease, fun k => ?_⟩
      rw [hentries k]
      rcases eq_or_ne j k with rfl | hjk
      · rw [List.getElem?_set_self hlt, he, List.count_cons_self, Option.map_some, Option.map_some,
          Handle.unmark_unmark_one]
      · rw [List.getElem?_set_ne hjk, List.count_cons_of_ne (natCast_ne hjk)]

end HandleTable

/-! ## The newest atoms -/

/-- Of two atoms the one that is further above the new one is taken. -/
theorem latestAtom_sub (a b newest : UInt8) :
    (latestAtom a b newest - newest).toNat = max (a - newest).toNat (b - newest).toNat := by
  unfold latestAtom
  split
  · rename_i h
    rw [UInt8.lt_iff_toNat_lt] at h
    rw [UInt8.add_sub_cancel]
    omega
  · rename_i h
    rw [UInt8.lt_iff_toNat_lt] at h
    rw [UInt8.add_sub_cancel]
    omega

theorem latestAtom_eq (a b newest : UInt8) :
    latestAtom a b newest = a ∨ latestAtom a b newest = b := by
  unfold latestAtom
  split
  · exact .inr (UInt8.sub_add_cancel _ _)
  · exact .inl (UInt8.sub_add_cancel _ _)

namespace HandleTable

/-- By induction on the handles: what is found is at least as new as what is recorded on any handle in
use, and as what was found before. -/
theorem le_after_markAll {m m' : Marked} {slot : JobSlot} {atom : UInt8} {is : List Int}
    (h : markAll slot atom is m = .ok m') (s : JobSlot) :
    (m.after.get s - atom).toNat ≤ (m'.after.get s - atom).toNat ∧
    ∀ (k : Nat) (e : Handle), (k : Int) ∈ is → m.table.entries[k]? = some e → e.useCount ≠ 0 →
      (e.lastAccess.get s - atom).toNat ≤ (m'.after.get s - atom).toNat := by
  induction is generalizing m with
  | nil =>
    cases h
    exact ⟨Nat.le_refl _, fun _ _ hk => nomatch hk⟩
  | cons i is ih =>
    obtain ⟨m₁, h₁, hrest⟩ := markAll_cons_ok h
    obtain ⟨j, e, rfl, he, -, htable, hafter⟩ := markOne_ok h₁
    obtain ⟨hle, hused⟩ := ih hrest
    have hfirst : (m.after.get s - atom).toNat ≤ (m₁.after.get s - atom).toNat ∧
        (e.useCount ≠ 0 → (e.lastAccess.get s - atom).toNat ≤ (m₁.after.get s - atom).toNat) := by
      rw [hafter]
      split
      · rename_i hzero
        exact ⟨Nat.le_refl _, fun hne => absurd hzero hne⟩
      · rw [PerSlot.get_zipWith, latestAtom_sub]
        exact ⟨Nat.le_max_left _ _, fun _ => Nat.le_max_right _ _⟩
    refine ⟨Nat.le_trans hfirst.1 hle, fun k e' hk he' hne => ?_⟩
    rcases eq_or_ne j k with rfl | hjk
    · rw [he] at he'
      cases he'
      exact Nat.le_trans (hfirst.2 hne) hle
    · refine hused k e' ?_ ?_ hne
      · rcases List.mem_cons.mp hk with heq | hk
        · exact absurd (Int.ofNat_inj.mp heq).symm hjk
        · exact hk
      · rwa [htable, List.getElem?_set_ne hjk]

/-- By induction on the handles: what is found was found before, or is the new atom itself, or is recorded
on a handle that is in use or listed again. -/
theorem after_markAll {m m' : Marked} {slot : JobSlot} {atom : UInt8} {is : List Int}
    (h : markAll slot atom is m = .ok m') (s : JobSlot) :
    m'.after.get s = m.after.get s ∨ m'.after.get s = atom ∨
      ∃ (k : Nat) (e : Handle), (k : Int) ∈ is ∧ m.table.entries[k]? = some e ∧
        (e.useCount ≠ 0 ∨ 1 < is.count (k : Int)) ∧ m'.after.get s = e.lastAccess.get s := by
  induction is generalizing m with
  | nil =>
    cases h
    exact .inl rfl
  | cons i is ih =>
    obtain ⟨m₁, h₁, hrest⟩ := markAll_cons_ok h
    obtain ⟨j, e, rfl, he, -, htable, hafter⟩ := markOne_ok h₁
    have hj := (List.getElem?_eq_some_iff.mp he).1
    rcases ih hrest with hsame | hself | ⟨k, e', hk, he', hused, hlast⟩
    · rw [hsame, hafter]
      split
      · exact .inl rfl
      · rename_i hne
        rw [PerSlot.get_zipWith]
        rcases latestAtom_eq (m.after.get s) (e.lastAccess.get s) atom with heq | heq
        · exact .inl heq
        · exact .inr (.inr ⟨j, e, List.mem_cons_self, he, .inl hne, heq⟩)
    · exact .inr (.inl hself)
    · right
      rcases eq_or_ne j k with rfl | hjk
      · -- the handle is listed again, and its entry may already name the new atom
        rw [htable, List.getElem?_set_self hj] at he'
        cases he'
        rw [Handle.mark_lastAccess] at hlast
        split at hlast
        · exact .inl hlast
        · refine .inr ⟨j, e, List.mem_cons_self, he, .inr ?_, hlast⟩
          rw [List.count_cons_self]
          have := List.count_pos_iff.mpr hk
          omega
      · rw [htable, List.getElem?_set_ne hjk] at he'
        refine .inr ⟨k, e', List.mem_cons_of_mem _ hk, he', ?_, hlast⟩
        rwa [List.count_cons_of_ne (natCast_ne hjk)]

end HandleTable

end Mali
