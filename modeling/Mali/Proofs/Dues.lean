import Mali.Proofs.Loans

/-!
# References that are held

The count of a buffer is to be the number of references to it that somebody holds.  Taking a reference and giving one
back change it by one, and so do handing a buffer out and importing one; a buffer to which a reference is held is not
freed meanwhile, so its handle stands for it.

A count stays away from its end as long as there is room for one more reference before each operation, and room for a
callback on every slot when a buffer comes back that had none.

* `Machine.Square`: the books are in order, and the count of every buffer is the number of references that are held.
* `Machine.Spacious`: the room that an operation may need.
* `Machine.Square.reference`, `Machine.Square.unreference`, `Machine.Square.handOut`, `Machine.Square.importBuffer`:
  what changes the references that are held.
* `sameHolders_reference` and the like: none of these changes what batches and submission contexts hold on to.
-/

namespace Mali

open Op

variable {κ : Type}

/-! ## Counts of references -/

section Refs

variable {m m' : Machine κ} {x : Nat} {a : Account}

theorem Machine.refs_of_account (h : m.storage.accounts[x]? = some a) : m.refs x = a.refs := by
  obtain ⟨b, hb, rfl⟩ := Machine.exists_buffer h
  exact Machine.refs_of_buffer hb

theorem Machine.refs_of_accounts_none (h : m.storage.accounts[x]? = none) : m.refs x = 0 := by
  rw [show m.storage.accounts[x]? = (m.allocator.buffers[x]?).map Buffer.account from List.getElem?_map ..,
    Option.map_eq_none_iff] at h
  rw [refs, h]
  rfl

theorem Machine.refs_congr (h : m'.storage.accounts = m.storage.accounts) (y : Nat) : m'.refs y = m.refs y := by
  cases hy : m.storage.accounts[y]? with
  | none => rw [refs_of_accounts_none hy, refs_of_accounts_none (h ▸ hy)]
  | some b => rw [refs_of_account hy, refs_of_account (h ▸ hy)]

/-- The account of one buffer changed. -/
theorem Machine.refs_modify {f : Account → Account} (hx : m.storage.accounts[x]? = some a)
    (h : m'.storage.accounts = m.storage.accounts.modify x f) (y : Nat) :
    m'.refs y = if x = y then (f a).refs else m.refs y := by
  have hget : m'.storage.accounts[y]? = if x = y then some (f a) else m.storage.accounts[y]? := by
    rw [h, getElem?_modify_of_some hx]
  split at hget
  · rw [refs_of_account hget, if_pos ‹_›]
  · rw [if_neg ‹_›]
    cases hy : m.storage.accounts[y]? with
    | none => rw [refs_of_accounts_none hy, refs_of_accounts_none (hget.trans hy)]
    | some b => rw [refs_of_account hy, refs_of_account (hget.trans hy)]

theorem Opens.refs (h : Opens a m m') (y : Nat) :
    m'.refs y = if m.storage.accounts.length = y then a.refs else m.refs y := by
  have haccounts : m'.storage.accounts = m.storage.accounts ++ [a] := by rw [h.storage]
  split
  · rename_i hy
    exact Machine.refs_of_account (by rw [haccounts, ← hy, List.getElem?_concat_length])
  · rename_i hy
    have hget : m'.storage.accounts[y]? = m.storage.accounts[y]? := by
      rw [haccounts, List.getElem?_append]
      split
      · rfl
      · rw [List.getElem?_eq_none (l := [a]) (by simp; omega), List.getElem?_eq_none (by omega)]
    cases hold : m.storage.accounts[y]? with
    | none => rw [Machine.refs_of_accounts_none hold, Machine.refs_of_accounts_none (hget.trans hold)]
    | some b => rw [Machine.refs_of_account hold, Machine.refs_of_account (hget.trans hold)]

/-- Giving a reference back takes one off the count. -/
theorem unreference_refs [Kernel κ] {u : Unit} (he : (Buffer.unreference x).exec m = (.ok u, m')) :
    ∃ a, m.storage.accounts[x]? = some a ∧ ∀ y, m'.refs y = if x = y then a.refs - 1 else m.refs y := by
  obtain ⟨a, ha, -, ⟨-, hedit⟩ | ⟨-, m₁, hm₁, hend⟩⟩ := unreference_ok he
  · exact ⟨a, ha, Machine.refs_modify ha (by rw [hedit.storage])⟩
  · refine ⟨a, ha, fun y => ?_⟩
    have hfirst := Machine.refs_modify ha (congrArg Storage.accounts hm₁.storage) y
    rcases hend with ⟨-, rfl⟩ | ⟨-, m₂, hq, hf⟩
    · exact hfirst
    · have hfinish : Unstirred m₂ m' := (unstirred_finish x).ok hf
      rw [hfinish.refs, Machine.refs_congr (congrArg Storage.accounts hq.storage) y, hfirst]

end Refs

/-! ## The same holders -/

section SameHolders

theorem Unstirred.sameHolders {m m' : Machine κ} (h : Unstirred m m') : SameHolders m m' :=
  ⟨h.handles, h.batches, h.submitters⟩

theorem sameHolders_of_unstirred {α : Type} {x : Op κ α} (h : Keeps Unstirred x) : Keeps SameHolders x :=
  h.mono fun _ _ h => h.sameHolders

theorem sameHolders_editBuffer (x : Nat) {f : Buffer → Buffer} (hf : ∀ b, (f b).handle = b.handle) :
    Keeps (SameHolders (κ := κ)) (modifyBuffer x f) :=
  keeps_modify fun m => .of_handles (map_modify_eq (fun b : Buffer => b.handle) hf m.allocator.buffers x) rfl rfl

theorem sameHolders_addBuffer (b : Buffer) : Keeps (SameHolders (κ := κ)) (Allocator.addBuffer b) :=
  keeps_bind keeps_allocator fun _ =>
    keeps_bind (keeps_modify fun _ => ⟨⟨[b.handle], List.map_append⟩, rfl, rfl⟩) fun _ => keeps_pure _

theorem sameHolders_reference (x : Nat) : Keeps (SameHolders (κ := κ)) (Buffer.reference x) :=
  keeps_reference_of (sameHolders_editBuffer x fun _ => rfl)

theorem sameHolders_revive (x : Nat) : Keeps (SameHolders (κ := κ)) (Allocator.revive x) :=
  keeps_revive_of (sameHolders_editBuffer x fun _ => rfl) (sameHolders_editBuffer x fun _ => rfl)

variable [Kernel κ]

theorem sameHolders_unreference (x : Nat) : Keeps (SameHolders (κ := κ)) (Buffer.unreference x) :=
  keeps_unreference_of (sameHolders_editBuffer x fun _ => rfl) (sameHolders_of_unstirred (unstirred_beginRelease x))

theorem sameHolders_handOut (x : Nat) : Keeps (SameHolders (κ := κ)) (Allocator.handOut x) :=
  keeps_handOut_of (keeps_clearBuffer x) (sameHolders_editBuffer x fun _ => rfl)
    fun _ => sameHolders_of_unstirred (unstirred_write _ _ _ _)

theorem sameHolders_importBuffer (fd : Int) : Keeps (SameHolders (κ := κ)) (Allocator.importBuffer fd) := by
  have hfree (k : Nat) : Keeps (SameHolders (κ := κ)) (Device.freeHandle k) :=
    sameHolders_of_unstirred (unstirred_freeHandle k)
  have hdrop (k : Nat) (h : Handle) : Keeps (SameHolders (κ := κ)) (Allocator.dropImport k h) := by
    unfold Allocator.dropImport
    split
    · exact hfree k
    · exact keeps_bind_option (keeps_unmapMemory _) (hfree k) fun _ => keeps_bind (keeps_error _ _) fun _ => hfree k
  have hwrap (k : Nat) : Keeps (SameHolders (κ := κ)) (Allocator.wrapImport fd k) :=
    keeps_bind keeps_device fun _ => keeps_bind_except (keeps_attempt (keeps_importedBuffer _ _ _))
      (fun b => sameHolders_addBuffer b) fun f => keeps_bind (hdrop _ _) fun _ => keeps_fail f
  have hwrite (known : Bool) (x : Nat) : Keeps (SameHolders (κ := κ)) (do
      let b ← buffer x
      Allocator.write "import" b fd (some (b.dmabufFd, known))
      return x) := keeps_bind (keeps_buffer x) fun b =>
    keeps_bind (sameHolders_of_unstirred (unstirred_write _ _ _ _)) fun _ => keeps_pure x
  have hset (k : Nat) (p : Option Mapping) : Keeps (SameHolders (κ := κ))
      (modifyDevice fun d => { d with handles := d.handles.setMapping k p }) :=
    sameHolders_of_unstirred (unstirred_modifyDevice _)
  unfold Allocator.importBuffer
  refine keeps_bind keeps_requireAllocator fun _ => keeps_bind (keeps_debug _ _) fun _ =>
    keeps_bind (keeps_importFile_of (fun va fd => sameHolders_of_unstirred (unstirred_allocHandle va fd)) hset fd)
      fun k => keeps_bind keeps_allocator fun a => ?_
  cases a.lookup? k with
  | some x => exact keeps_bind (sameHolders_revive x) fun _ => keeps_bind (keeps_pure x) (hwrite true)
  | none => exact keeps_bind (hwrap k) (hwrite false)

end SameHolders

/-! ## Square accounts -/

/-- The books are in order, and the count of every buffer is the number of references that are held.  There is room
for the callbacks that a release adds. -/
structure Machine.Square (m : Machine κ) (owed : List Nat) : Prop where
  poised : (⟨m, [], none⟩ : Config κ).Poised
  room : ∀ x, m.waiting [] x + (if owed.count x = 0 then 0 else slotCount) < 2 ^ 31
  refs : ∀ x, (m.refs x).toInt = owed.count x

/-- Every buffer may get another reference, and callbacks on every slot. -/
structure Machine.Spacious (m : Machine κ) : Prop where
  refs : ∀ x, m.refs x ≠ Int32.maxValue
  waiting : ∀ x, m.waiting [] x + slotCount < 2 ^ 31

theorem Machine.Spacious.of_quiet {m m' : Machine κ} (h : m.Spacious) (hq : Quiet m m') : m'.Spacious where
  refs x := by
    rw [Machine.refs_congr (congrArg Storage.accounts hq.storage) x]
    exact h.refs x
  waiting x := by
    rw [hq.waiting]
    exact h.waiting x

/-- A count with room is one more after the next reference. -/
theorem Int32.toInt_succ {r : Int32} (h : r ≠ Int32.maxValue) : (r + 1).toInt = r.toInt + 1 := by
  have hlt := r.toInt_lt
  have hle := r.le_toInt
  have hmax : r.toInt ≠ 2 ^ 31 - 1 := fun e => h (Int32.toInt_inj.mp (e.trans (by decide)))
  rw [Int32.toInt_add, Int32.toInt_one, Int.bmod_def]
  omega

/-- A count that is not zero is one less when a reference goes. -/
theorem Int32.toInt_pred {r : Int32} (h : 0 < r.toInt) : (r - 1).toInt = r.toInt - 1 := by
  have hlt := r.toInt_lt
  rw [Int32.toInt_sub, Int32.toInt_one, Int.bmod_def]
  omega

namespace Machine.Square

variable {m m₁ m' : Machine κ} {owed owed' : List Nat} {x : Nat}

/-- The references are only counted. -/
theorem congr (h : m.Square owed) (hcount : ∀ x, owed'.count x = owed.count x) : m.Square owed' where
  poised := h.poised
  room x := by
    rw [hcount]
    exact h.room x
  refs x := by rw [h.refs, hcount]

theorem of_perm (h : m.Square owed) (hp : owed.Perm owed') : m.Square owed' := h.congr fun x => (hp.count_eq x).symm

/-- A reference that is held is counted. -/
theorem refs_pos (h : m.Square owed) (hx : x ∈ owed) : 0 < (m.refs x).toInt := by
  rw [h.refs]
  exact Int.ofNat_lt.mpr (List.count_pos_iff.mpr hx)

/-- A buffer to which a reference is held is not freed, and its handle stands for it. -/
theorem live (h : m.Square owed) (hx : x ∈ owed) :
    ∃ b, m.allocator.buffers[x]? = some b ∧ b.freed = false ∧ m.allocator.lookup? b.handle = some x := by
  have hpos := h.refs_pos hx
  cases ha : m.storage.accounts[x]? with
  | none =>
    rw [Machine.refs_of_accounts_none ha] at hpos
    exact absurd hpos (by decide)
  | some a =>
    have hfreed : a.freed = false := by
      by_contra hfreed
      have hzero := (h.poised.books.settled x a ha (.inl (by simpa using hfreed))).1
      rw [Machine.refs_of_account ha, hzero] at hpos
      exact absurd hpos (by decide)
    obtain ⟨b, hb, rfl⟩ := Machine.exists_buffer ha
    exact ⟨b, hb, hfreed, (h.poised.books.arena b.handle x).mpr ⟨b.account, ha, rfl, hfreed⟩⟩

section Kernel

variable [Kernel κ]

omit [Kernel κ] in
theorem of_abides (h : m.Square owed) (ha : Abides none m m') (hfits : m'.Fits) : m'.Square owed := by
  obtain ⟨hpoised, hwaiting⟩ := ha.eases hfits h.poised
  refine ⟨hpoised, fun x => ?_, fun x => by rw [ha.unstirred.refs, h.refs]⟩
  exact Nat.lt_of_le_of_lt (Nat.add_le_add_right (hwaiting x) _) (h.room x)

theorem of_quiet (h : m.Square owed) (hq : Quiet m m') : m'.Square owed := by
  have heases : Config.Eases ⟨m, [], none⟩ ⟨m', [], none⟩ := .of_quiet hq
  obtain ⟨hpoised, -⟩ := heases h.poised
  refine ⟨hpoised, fun x => ?_, fun x => ?_⟩
  · rw [hq.waiting]
    exact h.room x
  · rw [Machine.refs_congr (congrArg Storage.accounts hq.storage) x, h.refs]

/-- After a step about buffers the accounts are square if the counts are right and have room. -/
theorem of_step {c : Config κ} {act : Action} (hc : c.Poised) (hs : Step c act ⟨m', [], none⟩) (hact : act.Plain)
    (hfits : m'.Fits) (hroom : ∀ x, m'.waiting [] x + (if owed.count x = 0 then 0 else slotCount) < 2 ^ 31)
    (hrefs : ∀ x, (m'.refs x).toInt = owed.count x) : m'.Square owed where
  poised := by
    refine hc.step (.of_plain hs hact) hfits.length_streams ⟨fun x => ?_, fun x a hx hmin => ?_⟩
    · exact Nat.lt_of_le_of_lt (Nat.le_add_right ..) (hroom x)
    · have hcount := hrefs x
      rw [Machine.refs_of_account hx, hmin] at hcount
      have hneg : Int32.minValue.toInt < 0 := by decide
      omega
  room := hroom
  refs := hrefs

/-- Steps about buffers other than a release add no callbacks. -/
theorem room_of_step {c : Config κ} {act : Action} (hs : Step c act ⟨m', [], none⟩) (hne : act ≠ .release x) :
    m'.waiting [] x ≤ c.waiting x := hs.waiting_le hne

/-- A step about buffers gives one its first reference, or another one. -/
theorem gain {c : Config κ} (hc : c.Poised) (hs : Step c .other ⟨m', [], none⟩) (hfits : m'.Fits)
    (hroom : ∀ y, c.waiting y + (if owed.count y = 0 then 0 else slotCount) < 2 ^ 31)
    (hspare : c.waiting x + slotCount < 2 ^ 31)
    (hx : (m'.refs x).toInt = owed.count x + 1) (hrest : ∀ y, x ≠ y → (m'.refs y).toInt = owed.count y) :
    m'.Square (x :: owed) := by
  refine of_step hc hs (.inl rfl) hfits (fun y => ?_) fun y => ?_
  · have hle : m'.waiting [] y ≤ c.waiting y := room_of_step hs nofun
    have hold := hroom y
    rw [List.count_cons]
    by_cases hxy : x = y
    · rw [← hxy] at hle ⊢
      rw [if_neg (by simp)]
      omega
    · rw [if_neg (mt beq_iff_eq.mp hxy), Nat.add_zero]
      omega
  · rw [List.count_cons]
    by_cases hxy : x = y
    · rw [← hxy, if_pos (beq_self_eq_true x), hx, Nat.cast_succ]
    · rw [if_neg (mt beq_iff_eq.mp hxy), Nat.add_zero, hrest y hxy]

theorem reference {u : Unit} (h : m.Square owed) (hmax : m.refs x ≠ Int32.maxValue)
    (he : (Buffer.reference x).exec m = (.ok u, m')) (hfits : m'.Fits) : m'.Square (x :: owed) := by
  obtain ⟨a, ha, hne, hedit⟩ := reference_ok he
  have hrefs := Machine.refs_modify ha (congrArg Storage.accounts hedit.storage)
  have hold := h.refs x
  rw [Machine.refs_of_account ha] at hold hmax
  have hheld : owed.count x ≠ 0 := by
    intro hzero
    rw [hzero] at hold
    exact hne (Int32.toInt_inj.mp hold)
  refine gain h.poised (.reference he) hfits h.room ?_ ?_ fun y hxy => ?_
  · have hroom := h.room x
    rwa [if_neg hheld] at hroom
  · rw [hrefs x, if_pos rfl, Int32.toInt_succ hmax, hold]
  · rw [hrefs y, if_neg hxy, h.refs]

theorem unreference {u : Unit} (h : m.Square owed) (hx : x ∈ owed)
    (he : (Buffer.unreference x).exec m = (.ok u, m')) (hfits : m'.Fits) : m'.Square (owed.erase x) := by
  obtain ⟨a, ha, hrefs⟩ := unreference_refs he
  have hpos : 0 < owed.count x := List.count_pos_iff.mpr hx
  have hold := h.refs x
  rw [Machine.refs_of_account ha] at hold
  have hafter (y : Nat) : (m'.refs y).toInt = (owed.erase x).count y := by
    rw [hrefs y, List.count_erase]
    by_cases hxy : x = y
    · rw [if_pos hxy, if_pos (beq_iff_eq.mpr hxy), Int32.toInt_pred (by omega), hold, ← hxy]
      omega
    · rw [if_neg hxy, if_neg (mt beq_iff_eq.mp hxy), h.refs, Nat.sub_zero]
  -- only the last reference begins a release, which may wait for every slot
  by_cases hlast : a.refs = 1
  · have hstep : Step ⟨m, [], none⟩ (.release x) ⟨m', [], none⟩ := .release ha hlast he
    refine of_step h.poised hstep (.inr ⟨x, rfl⟩) hfits (fun y => ?_) hafter
    have hroom := h.room y
    by_cases hxy : x = y
    · have hwaiting : m'.waiting [] x + 0 = m.waiting [] x + if Action.release x = .release x then
          m.progress.slots.busy m.progress.bound else 0 := hstep.waiting x
      have hbusy := SlotTable.busy_le_slotCount m.progress.slots m.progress.bound
      have hgone : (owed.erase x).count x = 0 := by
        rw [hlast, show (1 : Int32).toInt = 1 from by decide] at hold
        rw [List.count_erase_self]
        omega
      rw [← hxy, if_neg (Nat.ne_of_gt hpos)] at hroom
      rw [← hxy, if_pos hgone]
      rw [if_pos rfl] at hwaiting
      omega
    · rw [List.count_erase_of_ne (Ne.symm hxy)]
      refine Nat.lt_of_le_of_lt (Nat.add_le_add_right (room_of_step hstep fun e => hxy ?_) _) hroom
      exact Action.release.inj e
  · have hstep : Step ⟨m, [], none⟩ .other ⟨m', [], none⟩ := .unreference ha hlast he
    refine of_step h.poised hstep (.inl rfl) hfits (fun y => ?_) hafter
    have hmore : owed.count x ≠ 1 := by
      intro hone
      rw [hone] at hold
      exact hlast (Int32.toInt_inj.mp hold)
    have hzero : (owed.erase x).count y = 0 ↔ owed.count y = 0 := by
      rw [List.count_erase]
      split
      · rename_i hxy
        rw [← eq_of_beq hxy]
        omega
      · rw [Nat.sub_zero]
    rw [if_congr hzero rfl rfl]
    exact Nat.lt_of_le_of_lt (Nat.add_le_add_right (room_of_step hstep nofun) _) (h.room y)

/-- A buffer that was found or made is handed out. -/
theorem handOut {u : Unit} (h : m.Square owed) (hfound : Abides (some x) m m₁)
    (he : (Allocator.handOut x).exec m₁ = (.ok u, m')) (hfits : m'.Fits) : m'.Square (x :: owed) := by
  obtain ⟨a, ha, hedit⟩ := handOut_ok he
  have hreach : Reaches m₁ m' := (keeps_handOut x).ok he
  obtain ⟨hpoised, hwaiting⟩ := hfound.eases (hreach.fits hfits) h.poised
  obtain ⟨hzero, hnone⟩ := hpoised.books.settled x a ha (.inr (.inr rfl))
  have hcount (y : Nat) : (m₁.refs y).toInt = owed.count y := by rw [hfound.unstirred.refs, h.refs]
  have hrefs := Machine.refs_modify ha (congrArg Storage.accounts hedit.storage)
  refine gain hpoised (.handOut he) hfits (fun y => ?_) ?_ ?_ fun y hxy => ?_
  · exact Nat.lt_of_le_of_lt (Nat.add_le_add_right (hwaiting y) _) (h.room y)
  · rw [show (⟨m₁, [], some x⟩ : Config κ).waiting x = 0 from hnone]
    decide
  · have hx := hcount x
    rw [Machine.refs_of_account ha, hzero] at hx
    rw [hrefs x, if_pos rfl, ← hx]
    rfl
  · rw [hrefs y, if_neg hxy, hcount]

/-- A buffer whose file is imported again gets a reference, also if it has none left. -/
theorem revive {u : Unit} {k : Nat} {d : Int} (h : m.Square owed) (hspare : m.Spacious)
    (hlookup : m.allocator.lookup? k = some x) (hown : m.Owns k d) (hd : 0 ≤ d)
    (he : (Allocator.revive x).exec m = (.ok u, m')) (hfits : m'.Fits) : m'.Square (x :: owed) := by
  obtain ⟨a, ha, hedit⟩ := revive_ok he
  have hrefs := Machine.refs_modify ha (congrArg Storage.accounts hedit.storage)
  have hold := h.refs x
  have hmax := hspare.refs x
  rw [Machine.refs_of_account ha] at hold hmax
  refine gain h.poised (.revive hlookup hown hd he) hfits h.room (hspare.waiting x) ?_ fun y hxy => ?_
  · rw [hrefs x, if_pos rfl, ← hold]
    by_cases hzero : a.refs = 0
    · rw [hzero]
      rfl
    · simp only [if_neg hzero]
      exact Int32.toInt_succ hmax
  · rw [hrefs y, if_neg hxy, h.refs]

/-- A file that was just imported becomes a buffer. -/
theorem enter {b : Buffer} {d : Int} (h : m.Square owed) (hfree : m.allocator.lookup? b.handle = none)
    (hown : m.Owns b.handle d) (hshared : b.has BufferFlag.shared = true) (hgpu : b.gpuRefs = 0)
    (hcached : b.cachedIn = none) (hfreed : b.freed = false) (hone : b.refs = 1) (husage : b.usage = [])
    (he : (Allocator.addBuffer b).exec m = (.ok x, m')) (hfits : m'.Fits) : m'.Square (x :: owed) := by
  obtain ⟨rfl, hopens⟩ := addBuffer_ok he
  have hnone : m.storage.accounts[m.storage.accounts.length]? = none := List.getElem?_eq_none (Nat.le_refl _)
  refine gain h.poised (.enter hfree hown hshared hgpu hcached hfreed hone husage he) hfits h.room ?_ ?_
    fun y hxy => ?_
  · have hnothing : (⟨m, [], none⟩ : Config κ).waiting m.storage.accounts.length = 0 :=
      h.poised.books.named _ (Nat.le_refl _)
    rw [hnothing]
    decide
  · have hold := h.refs m.storage.accounts.length
    rw [Machine.refs_of_accounts_none hnone] at hold
    rw [hopens.refs, if_pos rfl, ← hold, show b.account.refs = 1 from hone]
    rfl
  · rw [hopens.refs, if_neg hxy, h.refs]

/-- An import that is undone gives nothing. -/
theorem dropImport {u : Unit} {k : Nat} {e : Handle} (h : m.Square owed) (hfree : m.allocator.lookup? k = none)
    (he : (Allocator.dropImport k e).exec m = (.ok u, m')) (hfits : m'.Fits) : m'.Square owed := by
  have hgive {m₁ : Machine κ} (h : m₁.Square owed) (hfree : m₁.allocator.lookup? k = none)
      (he : (Device.freeHandle k).exec m₁ = (.ok u, m')) : m'.Square owed := by
    have hstep : Step ⟨m₁, [], none⟩ .other ⟨m', [], none⟩ := .abandon hfree he
    have hrefs : Unstirred m₁ m' := (unstirred_freeHandle k).ok he
    refine of_step h.poised hstep (.inl rfl) hfits (fun y => ?_) fun y => by rw [hrefs.refs, h.refs]
    exact Nat.lt_of_le_of_lt (Nat.add_le_add_right (room_of_step hstep nofun) _) (h.room y)
  unfold Allocator.dropImport at he
  cases hmapping : e.mapping with
  | none =>
    rw [hmapping] at he
    exact hgive h hfree he
  | some p =>
    rw [hmapping] at he
    obtain ⟨m₁, _, hsame, -, -, he⟩ := unmapping_ok rfl (fun _ => rfl) he
    exact hgive (h.of_quiet hsame.inward) (hsame.allocator ▸ hfree) he

/-- A file that was just imported becomes a buffer, or its handle goes. -/
theorem wrapImport {fd d : Int} {k : Nat} {r : Except Halt Nat} (h : m.Square owed)
    (hnone : m.allocator.lookup? k = none) (hown : m.Owns k d)
    (he : (Allocator.wrapImport fd k).exec m = (r, m')) (hr : Survives r) (hfits : m'.Fits) :
    m'.Square (r.toOption.toList ++ owed) := by
  unfold Allocator.wrapImport at he
  rw [exec_bind_of_ok (exec_device m)] at he
  dsimp only at he
  obtain ⟨answer, m₁, h₁, he⟩ := (faultless_attempt _).bind_survives he hr
  have hm₁ : m₁.Square owed := h.of_quiet ((keeps_attempt (keeps_importedBuffer _ _ _)).ok h₁)
  cases answer with
  | ok b =>
    obtain ⟨hsame, p, size, freeRegion, -, rfl⟩ := importedBuffer_ok (attempt_ok h₁)
    obtain ⟨x, rfl⟩ := (faultless_addBuffer _).value he hr
    have hshared : hasFlag BufferFlag.shared BufferFlag.shared = true := by decide
    refine hm₁.enter ?_ (hsame.owns_iff.mpr hown) ?_ rfl rfl rfl rfl rfl he hfits
    · exact (hsame.lookup? k).trans hnone
    · exact hshared
  | error f =>
    obtain ⟨hsame, -⟩ := importedBuffer_fault 0 (attempt_fault h₁)
    obtain ⟨_, m₂, h₂, he⟩ := (faultless_dropImport _ _).bind_survives he hr
    cases he
    exact hm₁.dropImport ((hsame.lookup? k).trans hnone) h₂ hfits

/-- The buffer that an import comes to has one more reference. -/
theorem importBuffer (hdup : ∀ (k : κ) (fd d : Int), (Kernel.call k (.dup fd)).1.result = .ok d → 0 ≤ d) {fd : Int}
    {r : Except Halt Nat} (h : m.Square owed) (hspare : m.Spacious)
    (he : (Allocator.importBuffer fd).exec m = (r, m')) (hr : Survives r) (hfits : m'.Fits) :
    m'.Square (r.toOption.toList ++ owed) := by
  -- the line in the journal at the end
  have hend {m₁ : Machine κ} {known : Bool} {x : Nat} (hm₁ : m₁.Fits → m₁.Square (x :: owed)) (he : (do
      let b ← buffer x
      Allocator.write "import" b fd (some (b.dmabufFd, known))
      return x : Op κ Nat).exec m₁ = (r, m')) : m'.Square (r.toOption.toList ++ owed) := by
    obtain ⟨_, rfl⟩ := (faultless_bind (faultless_buffer x) fun _ => faultless_bind (faultless_write _ _ _ _) fun _ =>
      faultless_pure _).value he hr
    obtain ⟨b, -, he⟩ := bind_buffer_ok he
    obtain ⟨_, m₂, h₂, he⟩ := bind_ok he
    cases he
    have hreach : Reaches m₁ m' := (keeps_write _ _ _ _).ok h₂
    exact (hm₁ (hreach.fits hfits)).of_quiet ((quiet_write _ _ _ _).ok h₂)
  unfold Allocator.importBuffer at he
  rcases bind_survives he hr with ⟨f, h₁, rfl⟩ | ⟨_, m₁, h₁, he⟩
  · exact h.of_quiet ((keeps_requireAllocator m).survives h₁ trivial)
  have hm₁ : Quiet m m₁ := keeps_requireAllocator.ok h₁
  obtain ⟨_, m₂, h₂, he⟩ := (faultless_debug _ _).bind_survives he hr
  have hm₂ : Quiet m m₂ := hm₁.trans ((keeps_debug _ _).ok h₂)
  rcases bind_survives he hr with ⟨f, h₃, rfl⟩ | ⟨k, m₃, h₃, he⟩
  · exact h.of_quiet (hm₂.trans ((quiet_importFile fd m₂).survives h₃ trivial))
  have hm₃ : Quiet m m₃ := hm₂.trans ((quiet_importFile fd).ok h₃)
  obtain ⟨d, hown, hd⟩ := importFile_owns hdup h₃
  rw [exec_bind_of_ok (exec_allocator m₃)] at he
  cases hx : m₃.allocator.lookup? k with
  | some x =>
    rw [hx] at he
    obtain ⟨_, m₄, h₄, he⟩ := (faultless_revive x).bind_survives he hr
    exact hend (fun hfits₄ => (h.of_quiet hm₃).revive (hspare.of_quiet hm₃) hx hown hd h₄ hfits₄) he
  | none =>
    rw [hx] at he
    rcases bind_survives he hr with ⟨f, h₄, rfl⟩ | ⟨x, m₄, h₄, he⟩
    · exact (h.of_quiet hm₃).wrapImport hx hown h₄ trivial hfits
    · exact hend (fun hfits₄ => (h.of_quiet hm₃).wrapImport hx hown h₄ trivial hfits₄) he

end Kernel

end Machine.Square

end Mali
