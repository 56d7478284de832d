import Mali.Proofs.Release

/-!
# References keep the books

Taking and dropping references changes the account of one buffer.  The last reference to go makes a
callback wait on every busy slot, and the count of these callbacks is raised by their number, so the
books stay in order whatever is to come already.  If no slot is busy nothing is to come at all, and the
release ends at once.

The counts are 32-bit words.  That the count is zero says that nothing is to come only as long as fewer
than `2 ^ 32` callbacks are; this is the one thing that is assumed of a machine.

* `Edits`: one account changes.
* `Releases`: the last reference goes.
* `reference_ok`, `revive_ok`, `unreference_ok`, `queueDrained_ok`: what the operations do.
* `unreference_other`, `unreference_last`: giving a reference back, by whether it is the last one.
* `Edits.drained`: what a callback that ran for a buffer leaves in the books.
* `books_reference` and the like: they keep the books.
-/

namespace Mali

open Op

variable {κ : Type}

/-! ## Counts -/

theorem Int32.ofNat_pred {n : Nat} (h : 0 < n) : Int32.ofNat n - 1 = Int32.ofNat (n - 1) :=
  (Int32.ofNat_sub n 1 h).symm

theorem Int32.eq_zero_of_ofNat {n : Nat} (h : n < 2 ^ 32) (h₀ : Int32.ofNat n = 0) : n = 0 := by
  have := congrArg (fun i : Int32 => i.toBitVec.toNat) h₀
  simp at this
  omega

theorem Int32.succ_pos {r : Int32} (h : 0 ≤ r) (hover : r + 1 ≠ Int32.minValue) : 0 < r + 1 := by
  have hr := r.toInt_lt
  have hmin : (r + 1).toInt ≠ -2 ^ 31 := fun e => hover (Int32.toInt_inj.mp (e.trans (by decide)))
  rw [Int32.le_iff_toInt_le] at h
  rw [Int32.lt_iff_toInt_lt]
  rw [Int32.toInt_add] at hmin ⊢
  simp only [Int32.toInt_zero, Int32.toInt_one] at *
  rw [Int.bmod_def] at hmin ⊢
  omega

theorem Int32.succ_ne_zero {r : Int32} (h : 0 ≤ r) : r + 1 ≠ 0 := by
  intro hz
  have hr : r = -1 := by
    rw [← Int32.add_left_inj 1, hz]
    rfl
  rw [hr] at h
  exact absurd h (by decide)

theorem Int32.ne_of_gt {r : Int32} (h : 0 < r) : r ≠ 0 := by
  rintro rfl
  exact absurd h (by decide)

theorem Int32.ne_zero_of_pred {r : Int32} (h : ¬r - 1 < 0) : r ≠ 0 := by
  rintro rfl
  exact h (by decide)

theorem Int32.eq_one_of_pred {r : Int32} (h : r - 1 = 0) : r = 1 := by
  have : r = r - 1 + 1 := by simp
  rw [this, h]
  rfl

/-! ## Changes of one account -/

/-- The account of one buffer changes, and nothing else that matters. -/
structure Edits (x : Nat) (f : Account → Account) (m m' : Machine κ) : Prop
    extends Undisturbed m m' where
  storage : m'.storage = { m.storage with accounts := m.storage.accounts.modify x f }
  owns : ∀ k fd, m.Owns k fd → m'.Owns k fd

namespace Edits

variable {x : Nat} {f g : Account → Account} {m m₁ m₂ : Machine κ}

theorem of_modifyBuffer {h : Buffer → Buffer} {u : Unit}
    (he : (modifyBuffer x h).exec m = (.ok u, m₁)) (hf : ∀ b, (h b).account = f b.account) :
    Edits x f m m₁ := by
  cases he
  exact ⟨.of_eq rfl rfl, m.allocator.storage_mapBuffer x hf, fun _ _ ho => ho⟩

theorem quiet (h : Edits x f m m₁) (hq : Quiet m₁ m₂) : Edits x f m m₂ where
  toUndisturbed := h.toUndisturbed.trans hq.toUndisturbed
  storage := by rw [hq.storage, h.storage]
  owns k fd ho := hq.owns k fd (h.owns k fd ho)

theorem modify_modify {α : Type} (l : List α) (i : Nat) (f g : α → α) :
    (l.modify i f).modify i g = l.modify i (g ∘ f) := by
  refine List.ext_getElem? fun j => ?_
  simp only [List.getElem?_modify]
  cases l[j]? with
  | none => rfl
  | some a => by_cases h : i = j <;> simp [h]

theorem trans (h : Edits x f m m₁) (h' : Edits x g m₁ m₂) : Edits x (g ∘ f) m m₂ where
  toUndisturbed := h.toUndisturbed.trans h'.toUndisturbed
  storage := by rw [h'.storage, h.storage, modify_modify]
  owns k fd ho := h'.owns k fd (h.owns k fd ho)

/-- The account after the change. -/
theorem account (h : Edits x f m m₁) {a : Account} (hx : m.storage.accounts[x]? = some a) :
    m₁.storage.accounts[x]? = some (f a) := by
  rw [h.storage, getElem?_modify_of_some hx, if_pos rfl]

/-- The other accounts stay as they are. -/
theorem account_of_ne (h : Edits x f m m₁) {y : Nat} (hy : y ≠ x) :
    m₁.storage.accounts[y]? = m.storage.accounts[y]? := by
  rw [h.storage, List.getElem?_modify]
  simp [Ne.symm hy]

/-- A change that keeps the place of a buffer keeps the books if the counts are right again. -/
theorem books {ready ready' : List Callback} {held held' : Option Nat} {a : Account}
    (h : Edits x f m m₁) (hb : m.Books ready held) (hx : m.storage.accounts[x]? = some a)
    (hhandle : (f a).handle = a.handle) (hshared : (f a).shared = a.shared)
    (hcached : (f a).cachedIn = a.cachedIn) (hfreed : (f a).freed = a.freed)
    (hw : ∀ y, y ≠ x → m₁.waiting ready' y = m.waiting ready y)
    (hheld : ∀ y, y ≠ x → (held' = some y ↔ held = some y))
    (hplace : held' = some x → a.freed = false ∧ a.cachedIn = none)
    (hcounted : (f a).gpuRefs = Int32.ofNat (m₁.waiting ready' x))
    (hsettled : (a.freed = true ∨ a.cachedIn ≠ none ∨ held' = some x) →
      (f a).refs = 0 ∧ m₁.waiting ready' x = 0)
    (hactive : a.freed = false → a.cachedIn = none → held' ≠ some x →
      0 ≤ (f a).refs ∧ ((f a).refs = 0 → m₁.waiting ready' x ≠ 0)) :
    m₁.Books ready' held' := by
  rw [Machine.Books, h.storage]
  exact (Storage.Books.update hb hx hhandle hshared hcached hfreed hw hheld hplace hcounted
    hsettled hactive).mono h.owns

end Edits

/-- A machine with an account has the buffer. -/
theorem exists_account_of_modify {m m₁ : Machine κ} {x : Nat} {f : Account → Account} {b : Buffer}
    (h : Edits x f m m₁) (hb : m₁.allocator.buffers[x]? = some b) :
    ∃ a, m.storage.accounts[x]? = some a ∧ b.account = f a := by
  have hx := Machine.accounts_of_buffer hb
  rw [h.storage, List.getElem?_modify] at hx
  cases ha : m.storage.accounts[x]? with
  | none => simp [ha] at hx
  | some a => exact ⟨a, rfl, by simpa [ha] using hx.symm⟩

/-! ## Taking references -/

/-- Only a buffer that has references gains one this way. -/
theorem reference_ok {x : Nat} {m m' : Machine κ} {u : Unit}
    (he : (Buffer.reference x).exec m = (.ok u, m')) :
    ∃ a, m.storage.accounts[x]? = some a ∧ a.refs ≠ 0 ∧
      Edits x (fun a => { a with refs := a.refs + 1 }) m m' := by
  unfold Buffer.reference at he
  obtain ⟨_, m₁, h₁, he⟩ := bind_ok he
  have hedit : Edits x (fun a => { a with refs := a.refs + 1 }) m m₁ :=
    .of_modifyBuffer h₁ fun _ => rfl
  obtain ⟨b, hb, he⟩ := bind_buffer_ok he
  obtain ⟨a, ha, hab⟩ := exists_account_of_modify hedit hb
  split at he
  · simp at he
  · rename_i hne
    cases he
    refine ⟨a, ha, fun h₀ => hne ?_, hedit⟩
    have : b.refs = a.refs + 1 := congrArg Account.refs hab
    rw [this, h₀]
    rfl

theorem Allocator.getElem?_mapBuffer_of_some {a : Allocator} {x : Nat} {b : Buffer}
    (hb : a.buffers[x]? = some b) (f : Buffer → Buffer) : (a.mapBuffer x f).buffers[x]? = some (f b) := by
  show (a.buffers.modify x f)[x]? = _
  rw [List.getElem?_modify_eq, hb]
  rfl

/-- Nothing else can go wrong, and in particular the count may overflow. -/
theorem exec_reference {x : Nat} {m : Machine κ} {b : Buffer}
    (hb : m.allocator.buffers[x]? = some b) (hne : b.refs ≠ 0) :
    (Buffer.reference x).exec m = (.ok (), { m with
      allocator := m.allocator.mapBuffer x fun b => { b with refs := b.refs + 1 } }) := by
  have hlive : b.refs + 1 ≠ 1 := fun h => hne ((Int32.add_left_inj 1).mp h)
  unfold Buffer.reference
  rw [exec_bind_of_ok (exec_modifyBuffer x _ m),
    exec_bind_of_ok (exec_buffer_of_some (Allocator.getElem?_mapBuffer_of_some hb _)), if_neg hlive]
  rfl

/-- A known buffer can always gain a reference. -/
theorem exec_revive {x : Nat} {m : Machine κ} {b : Buffer} (hb : m.allocator.buffers[x]? = some b) :
    ∃ m', (Allocator.revive x).exec m = (.ok (), m') ∧ m'.calls = m.calls ∧
      m'.allocator.buffers[x]? = some { b with refs := b.refs + 1 } := by
  have hx := Allocator.getElem?_mapBuffer_of_some hb
  unfold Allocator.revive
  rw [exec_bind_of_ok (exec_buffer_of_some hb)]
  by_cases hz : b.refs = 0
  · rw [if_pos hz, hz]
    exact ⟨_, exec_modifyBuffer x _ m, rfl, hx _⟩
  · rw [if_neg hz]
    exact ⟨_, exec_reference hb hz, rfl, hx _⟩

/-- A known buffer gains a reference, also if it has none left. -/
theorem revive_ok {x : Nat} {m m' : Machine κ} {u : Unit}
    (he : (Allocator.revive x).exec m = (.ok u, m')) :
    ∃ a, m.storage.accounts[x]? = some a ∧
      Edits x (fun a => { a with refs := if a.refs = 0 then 1 else a.refs + 1 }) m m' := by
  unfold Allocator.revive at he
  obtain ⟨b, hb, he⟩ := bind_buffer_ok he
  have hx := Machine.accounts_of_buffer hb
  refine ⟨b.account, hx, ?_⟩
  have hsame {f g : Account → Account} (hfg : f b.account = g b.account) (h : Edits x f m m') :
      Edits x g m m' := by
    refine ⟨h.toUndisturbed, ?_, h.owns⟩
    have : m.storage.accounts.modify x f = m.storage.accounts.modify x g := by
      refine List.ext_getElem? fun j => ?_
      rw [getElem?_modify_of_some hx, getElem?_modify_of_some hx, hfg]
    rw [h.storage, this]
  split at he
  · rename_i h₀
    refine hsame ?_ (Edits.of_modifyBuffer he (f := fun a => { a with refs := 1 }) fun _ => rfl)
    have : b.account.refs = 0 := h₀
    simp [this]
  · rename_i hne
    obtain ⟨-, -, -, h⟩ := reference_ok he
    refine hsame ?_ h
    have : b.account.refs ≠ 0 := hne
    simp [this]

theorem books_reference {x : Nat} {m m' : Machine κ} {u : Unit} {ready : List Callback}
    {held : Option Nat} (he : (Buffer.reference x).exec m = (.ok u, m')) (hb : m.Books ready held)
    (hover : ∀ a, m'.storage.accounts[x]? = some a → a.refs ≠ Int32.minValue) :
    m'.Books ready held := by
  obtain ⟨a, hx, hne, h⟩ := reference_ok he
  have hover := hover _ (h.account hx)
  refine h.books hb hx rfl rfl rfl rfl (fun y _ => by rw [h.waiting]) (fun y _ => Iff.rfl)
    (fun hy => ?_) ?_ (fun hp => ?_) fun hf hc hn => ?_
  · exact absurd (hb.settled x a hx (.inr (.inr hy))).1 hne
  · rw [h.waiting]
    exact hb.counted x a hx
  · exact absurd (hb.settled x a hx hp).1 hne
  · have hpos := Int32.succ_pos (hb.active x a hx hf hc hn).1 hover
    exact ⟨Int32.le_of_lt hpos, fun hz => absurd hz (Int32.ne_of_gt hpos)⟩

/-- A buffer behind a handle with a descriptor was imported, so it is never in the cache and can be
given a reference at any time. -/
theorem books_revive {x h : Nat} {fd : Int} {m m' : Machine κ} {u : Unit} {ready : List Callback}
    (he : (Allocator.revive x).exec m = (.ok u, m')) (hb : m.Books ready none)
    (hlookup : m.allocator.lookup? h = some x) (howns : m.Owns h fd) (hfd : 0 ≤ fd)
    (hover : ∀ a, m'.storage.accounts[x]? = some a → a.refs ≠ Int32.minValue) :
    m'.Books ready none := by
  obtain ⟨a, hx, hedit⟩ := revive_ok he
  have hover := hover _ (hedit.account hx)
  obtain ⟨a', hx', hhandle, hfreed⟩ := (hb.arena h x).mp hlookup
  rw [hx] at hx'
  cases hx'
  have hshared : a.shared = true := by
    obtain ⟨fd', howns', hneg⟩ := hb.owned x a hx hfreed
    rw [hhandle] at howns'
    rw [howns.unique howns'] at hfd
    by_contra hs
    have := hneg (by simpa using hs)
    omega
  have hcached : a.cachedIn = none := by
    by_contra hc
    have := hb.unshared x a hx hc
    rw [hshared] at this
    cases this
  refine hedit.books hb hx rfl rfl rfl rfl (fun y _ => by rw [hedit.waiting]) (fun y _ => Iff.rfl)
    (fun hy => by cases hy) ?_ (fun hp => ?_) fun hf hc hn => ?_
  · rw [hedit.waiting]
    exact hb.counted x a hx
  · simp [hfreed, hcached] at hp
  · have hpos : 0 < if a.refs = 0 then 1 else a.refs + 1 := by
      split
      · decide
      · rename_i hne
        simp only [if_neg hne] at hover
        exact Int32.succ_pos (hb.active x a hx hf hc hn).1 hover
    exact ⟨Int32.le_of_lt hpos, fun hz => absurd hz (Int32.ne_of_gt hpos)⟩

/-! ## Dropping references -/

/-- The last reference to a buffer goes: its uses are forgotten, and a callback waits on every busy
slot. -/
structure Releases (x : Nat) (m m' : Machine κ) : Prop where
  progress : m'.progress =
    { m.progress with slots := m.progress.slots.awaitAll m.progress.bound (.release x) }
  storage : m'.storage = { m.storage with accounts := m.storage.accounts.modify x fun a =>
    { a with
      refs := a.refs - 1
      gpuRefs := a.gpuRefs + Int32.ofNat (m.progress.slots.busy m.progress.bound)
      usage := [] } }
  owns : ∀ k fd, m.Owns k fd → m'.Owns k fd
  standings : ∃ n, m'.standings = m.standings ++ List.replicate n (false, [], [])

/-- The account after the release began. -/
theorem Releases.account {x : Nat} {m m' : Machine κ} {a : Account} (h : Releases x m m')
    (hx : m.storage.accounts[x]? = some a) : m'.storage.accounts[x]? = some { a with
      refs := a.refs - 1
      gpuRefs := a.gpuRefs + Int32.ofNat (m.progress.slots.busy m.progress.bound)
      usage := [] } := by
  rw [h.storage, getElem?_modify_of_some hx, if_pos rfl]

theorem Releases.account_of_ne {x y : Nat} {m m' : Machine κ} (h : Releases x m m') (hy : y ≠ x) :
    m'.storage.accounts[y]? = m.storage.accounts[y]? := by
  rw [h.storage, List.getElem?_modify]
  simp [Ne.symm hy]

theorem Releases.waiting {x : Nat} {m m' : Machine κ} (h : Releases x m m') (ready : List Callback)
    (y : Nat) : m'.waiting ready y =
      m.waiting ready y + if x = y then m.progress.slots.busy m.progress.bound else 0 := by
  rw [Machine.waiting, h.progress, SlotTable.waiting_awaitAll, Machine.waiting]
  by_cases hxy : x = y
  · simp [hxy]
    omega
  · simp [hxy]

section Kernel

variable [Kernel κ]

omit [Kernel κ] in
/-- The first part of a release, which gives the number of queues that it waits for. -/
def Buffer.startRelease (x : Nat) : Op κ Nat := do
  Allocator.writeHandle "free" (← buffer x)
  modifyBuffer x fun b => { b with usage := [] }
  let added ← Device.callbackAll (.release x)
  modifyBuffer x fun b => { b with gpuRefs := b.gpuRefs + Int32.ofNat added }
  return added

theorem Buffer.beginRelease_eq (x : Nat) : (Buffer.beginRelease x : Op κ Unit) = (do
    let added ← Buffer.startRelease x
    if added = 0 then
      Allocator.writeHandle "immfree" (← buffer x)
      Allocator.finish x) := by
  simp only [beginRelease, startRelease, bind_assoc, pure_bind]

omit [Kernel κ] in
theorem startRelease_ok {x added : Nat} {m m₀ m' : Machine κ}
    (hedit : Edits x (fun a => { a with refs := a.refs - 1 }) m m₀)
    (he : (Buffer.startRelease x).exec m₀ = (.ok added, m')) :
    added = m.progress.slots.busy m.progress.bound ∧ Releases x m m' := by
  unfold Buffer.startRelease at he
  obtain ⟨b, -, he⟩ := bind_buffer_ok he
  obtain ⟨_, m₁, h₁, he⟩ := bind_ok he
  obtain ⟨_, m₂, h₂, he⟩ := bind_ok he
  obtain ⟨_, m₃, h₃, he⟩ := bind_ok he
  obtain ⟨_, m₄, h₄, he⟩ := bind_ok he
  cases he
  have hq := (quiet_writeHandle _ _).ok h₁
  have hclear : Edits x (fun a => { a with usage := [] }) m₁ m₂ := .of_modifyBuffer h₂ fun _ => rfl
  have hfirst := (hedit.quiet hq).trans hclear
  have hcount : Edits x (fun a => { a with gpuRefs := a.gpuRefs + Int32.ofNat added }) m₃ m' :=
    .of_modifyBuffer h₄ fun _ => rfl
  have hadded : added = m.progress.slots.busy m.progress.bound := by
    rw [← hfirst.progress]
    cases h₃
    rfl
  have hslots : m₃.progress =
      { m₂.progress with slots := m₂.progress.slots.awaitAll m₂.progress.bound (.release x) } ∧
      m₃.storage = m₂.storage ∧ m₃.device.handles = m₂.device.handles ∧
      m₃.batches = m₂.batches := by
    cases h₃
    exact ⟨rfl, rfl, rfl, rfl⟩
  refine ⟨hadded, ?_, ?_, fun k fd ho => ?_, ?_⟩
  · rw [hcount.progress, hslots.1, hfirst.progress]
  · rw [hcount.storage, hslots.2.1, hfirst.storage, Edits.modify_modify, hadded]
    rfl
  · refine hcount.owns k fd ?_
    rw [Machine.Owns, hslots.2.2.1]
    exact hfirst.owns k fd ho
  · obtain ⟨n, hn⟩ := hfirst.standings
    obtain ⟨n', hn'⟩ := hcount.standings
    refine ⟨n + n', ?_⟩
    rw [hn', Machine.standings, hslots.2.2.2, ← Machine.standings, hn, List.append_assoc,
      List.replicate_append_replicate]

/-- The release of a buffer up to where it waits or ends. -/
theorem beginRelease_ok {x : Nat} {m m₀ m' : Machine κ} {u : Unit}
    (hedit : Edits x (fun a => { a with refs := a.refs - 1 }) m m₀)
    (he : (Buffer.beginRelease x).exec m₀ = (.ok u, m')) :
    ∃ m₁, Releases x m m₁ ∧ ((m.progress.slots.busy m.progress.bound ≠ 0 ∧ m' = m₁) ∨
      (m.progress.slots.busy m.progress.bound = 0 ∧
        ∃ m₂, Quiet m₁ m₂ ∧ (Allocator.finish x).exec m₂ = (.ok (), m'))) := by
  rw [Buffer.beginRelease_eq] at he
  obtain ⟨added, m₁, h₁, he⟩ := bind_ok he
  obtain ⟨rfl, hreleases⟩ := startRelease_ok hedit h₁
  refine ⟨m₁, hreleases, ?_⟩
  split at he
  · rename_i h₀
    obtain ⟨b, -, he⟩ := bind_buffer_ok he
    obtain ⟨_, m₂, h₂, he⟩ := bind_ok he
    exact .inr ⟨h₀, m₂, (quiet_writeHandle _ _).ok h₂, he⟩
  · rename_i h₀
    cases he
    exact .inl ⟨h₀, rfl⟩

/-- A reference that is not the last one just goes; with the last one the release begins. -/
theorem unreference_ok {x : Nat} {m m' : Machine κ} {u : Unit}
    (he : (Buffer.unreference x).exec m = (.ok u, m')) :
    ∃ a, m.storage.accounts[x]? = some a ∧ ¬a.refs - 1 < 0 ∧
      ((a.refs - 1 ≠ 0 ∧ Edits x (fun a => { a with refs := a.refs - 1 }) m m') ∨
        (a.refs - 1 = 0 ∧ ∃ m₁, Releases x m m₁ ∧
          ((m.progress.slots.busy m.progress.bound ≠ 0 ∧ m' = m₁) ∨
            (m.progress.slots.busy m.progress.bound = 0 ∧
              ∃ m₂, Quiet m₁ m₂ ∧ (Allocator.finish x).exec m₂ = (.ok (), m'))))) := by
  unfold Buffer.unreference at he
  obtain ⟨_, m₁, h₁, he⟩ := bind_ok he
  have hedit : Edits x (fun a => { a with refs := a.refs - 1 }) m m₁ :=
    .of_modifyBuffer h₁ fun _ => rfl
  obtain ⟨b, hb, he⟩ := bind_buffer_ok he
  obtain ⟨a, ha, hab⟩ := exists_account_of_modify hedit hb
  have hrefs : b.refs = a.refs - 1 := congrArg Account.refs hab
  rw [hrefs] at he
  refine ⟨a, ha, ?_⟩
  split at he
  · simp at he
  · rename_i hneg
    refine ⟨hneg, ?_⟩
    split at he
    · rename_i h₀
      exact .inr ⟨h₀, beginRelease_ok hedit he⟩
    · rename_i h₀
      cases he
      exact .inl ⟨h₀, hedit⟩

/-- A reference that is not the last one just goes. -/
theorem unreference_other {x : Nat} {m m' : Machine κ} {u : Unit} {a : Account}
    (hx : m.storage.accounts[x]? = some a) (hrefs : a.refs ≠ 1)
    (he : (Buffer.unreference x).exec m = (.ok u, m')) :
    ¬a.refs - 1 < 0 ∧ a.refs - 1 ≠ 0 ∧ Edits x (fun a => { a with refs := a.refs - 1 }) m m' := by
  obtain ⟨a', hx', hneg, h | ⟨hlast, -⟩⟩ := unreference_ok he
  · rw [hx] at hx'
    cases hx'
    exact ⟨hneg, h⟩
  · rw [hx] at hx'
    cases hx'
    exact absurd (Int32.eq_one_of_pred hlast) hrefs

/-- With the last reference the release begins, and it ends at once where no queue is busy. -/
theorem unreference_last {x : Nat} {m m' : Machine κ} {u : Unit} {a : Account}
    (hx : m.storage.accounts[x]? = some a) (hrefs : a.refs = 1)
    (he : (Buffer.unreference x).exec m = (.ok u, m')) :
    ∃ m₁, Releases x m m₁ ∧
      ((m.progress.slots.busy m.progress.bound ≠ 0 ∧ m' = m₁) ∨
        (m.progress.slots.busy m.progress.bound = 0 ∧
          ∃ m₂, Quiet m₁ m₂ ∧ (Allocator.finish x).exec m₂ = (.ok (), m'))) := by
  obtain ⟨a', hx', -, ⟨hmore, -⟩ | ⟨-, h⟩⟩ := unreference_ok he
  · rw [hx] at hx'
    cases hx'
    rw [hrefs] at hmore
    exact absurd rfl hmore
  · exact h

omit [Kernel κ] in
/-- If no slot is busy, nothing waits. -/
def Progress.Drained (p : Progress) : Prop := p.slots.busy p.bound = 0 → ∀ c, p.slots.waiting c = 0

omit [Kernel κ] in
/-- Once the last reference is gone callbacks are to come, or the buffer is held. -/
theorem books_releases {x : Nat} {m m' : Machine κ} {a : Account} (h : Releases x m m')
    (hb : m.Books [] none) (hdrained : m.progress.Drained)
    (hx : m.storage.accounts[x]? = some a) (hrefs : a.refs - 1 = 0) :
    m'.Books [] (if m.progress.slots.busy m.progress.bound = 0 then some x else none) := by
  have hne : a.refs ≠ 0 := Int32.ne_zero_of_pred (by rw [hrefs]; decide)
  have hfreed : a.freed = false := by
    by_contra hf
    exact hne (hb.settled x a hx (.inl (by simpa using hf))).1
  have hcached : a.cachedIn = none := by
    by_contra hc
    exact hne (hb.settled x a hx (.inr (.inl hc))).1
  rw [Machine.Books, h.storage]
  refine Storage.Books.mono (Storage.Books.update hb hx rfl rfl rfl rfl (fun y hy => ?_)
    (fun y hy => ?_) (fun _ => ⟨hfreed, hcached⟩) ?_ (fun hp => ?_) fun _ _ hn => ?_) h.owns
  · rw [h.waiting, if_neg (Ne.symm hy), Nat.add_zero]
  · split
    · simp [Ne.symm hy]
    · rfl
  · rw [h.waiting, if_pos rfl, Int32.ofNat_add]
    show a.gpuRefs + _ = _
    rw [hb.counted x a hx]
  · simp only [hfreed, hcached, Bool.false_eq_true, ne_eq, not_true_eq_false, false_or] at hp
    split at hp
    · rename_i hbusy
      refine ⟨hrefs, ?_⟩
      rw [h.waiting, if_pos rfl, hbusy, Nat.add_zero, Machine.waiting,
        hdrained hbusy]
      rfl
    · cases hp
  · refine ⟨Int32.le_of_eq hrefs.symm, fun _ => ?_⟩
    have hbusy : m.progress.slots.busy m.progress.bound ≠ 0 := fun e => hn (if_pos e)
    rw [h.waiting, if_pos rfl]
    omega

theorem books_unreference {x : Nat} {m m' : Machine κ} {u : Unit}
    (he : (Buffer.unreference x).exec m = (.ok u, m')) (hb : m.Books [] none)
    (hdrained : m.progress.Drained) : m'.Books [] none := by
  obtain ⟨a, hx, hneg, ⟨h₀, h⟩ | ⟨h₀, m₁, h, ⟨hbusy, rfl⟩ | ⟨hbusy, m₂, hq, hfin⟩⟩⟩ :=
    unreference_ok he
  · have hne : a.refs ≠ 0 := Int32.ne_zero_of_pred hneg
    refine h.books hb hx rfl rfl rfl rfl (fun y _ => by rw [h.waiting]) (fun y _ => Iff.rfl)
      (fun hy => by cases hy) ?_ (fun hp => ?_) fun _ _ _ => ?_
    · rw [h.waiting]
      exact hb.counted x a hx
    · exact absurd (hb.settled x a hx hp).1 hne
    · exact ⟨Int32.not_lt.mp hneg, fun hz => absurd hz h₀⟩
  · have := books_releases h hb hdrained hx h₀
    rwa [if_neg hbusy] at this
  · have := books_releases h hb hdrained hx h₀
    rw [if_pos hbusy] at this
    exact (tidies_finish [] hfin).books (this.quiet hq)

/-! ## Queues that drain -/

/-- One callback less is to come; with the last one a release ends. -/
theorem queueDrained_ok {x : Nat} {m m' : Machine κ} {u : Unit}
    (he : (Buffer.queueDrained x).exec m = (.ok u, m')) :
    ∃ a m₁, m.storage.accounts[x]? = some a ∧
      Edits x (fun a => { a with gpuRefs := a.gpuRefs - 1 }) m m₁ ∧
      ((¬(a.gpuRefs - 1 = 0 ∧ a.refs = 0) ∧ m' = m₁) ∨
        (a.gpuRefs - 1 = 0 ∧ a.refs = 0 ∧
          ∃ m₂, Quiet m₁ m₂ ∧ (Allocator.finish x).exec m₂ = (.ok (), m'))) := by
  unfold Buffer.queueDrained at he
  obtain ⟨_, m₁, h₁, he⟩ := bind_ok he
  have hedit : Edits x (fun a => { a with gpuRefs := a.gpuRefs - 1 }) m m₁ :=
    .of_modifyBuffer h₁ fun _ => rfl
  obtain ⟨b, hb, he⟩ := bind_buffer_ok he
  obtain ⟨a, ha, hab⟩ := exists_account_of_modify hedit hb
  have hgpu : b.gpuRefs = a.gpuRefs - 1 := congrArg Account.gpuRefs hab
  have hrefs : b.refs = a.refs := congrArg Account.refs hab
  rw [hgpu, hrefs] at he
  refine ⟨a, m₁, ha, hedit, ?_⟩
  split at he
  · rename_i h
    obtain ⟨_, m₂, h₂, he⟩ := bind_ok he
    exact .inr ⟨h.1, h.2, m₂, (quiet_writeHandle _ _).ok h₂, he⟩
  · rename_i h
    cases he
    exact .inl ⟨h, rfl⟩

omit [Kernel κ] in
theorem Machine.waiting_cons (m : Machine κ) (ready : List Callback) (c : Callback) (y : Nat) :
    m.waiting (c :: ready) y = m.waiting ready y + if c = .release y then 1 else 0 := by
  rw [waiting, waiting, List.count_cons, ← Nat.add_assoc]
  simp

omit [Kernel κ] in
/-- A callback ran for a buffer.  Its count is zero exactly if that was the last one, and then the buffer is held if it
has no references. -/
theorem Edits.drained {x : Nat} {m m₁ : Machine κ} {ready : List Callback} {a : Account}
    (h : Edits x (fun a => { a with gpuRefs := a.gpuRefs - 1 }) m m₁) (hb : m.Books (.release x :: ready) none)
    (hx : m.storage.accounts[x]? = some a) (hlt : m.waiting (.release x :: ready) x < 2 ^ 32) :
    (a.gpuRefs - 1 = 0 ↔ m₁.waiting ready x = 0) ∧
      (a.gpuRefs - 1 = 0 → a.refs = 0 → m₁.Books ready (some x)) ∧
      (¬(a.gpuRefs - 1 = 0 ∧ a.refs = 0) → m₁.Books ready none) := by
  have hw (y : Nat) : m.waiting (.release x :: ready) y = m₁.waiting ready y + if x = y then 1 else 0 := by
    rw [h.waiting, Machine.waiting_cons]
    simp
  have hwx : m.waiting (.release x :: ready) x = m₁.waiting ready x + 1 := by
    rw [hw, if_pos rfl]
  have hothers (y : Nat) (hy : y ≠ x) : m₁.waiting ready y = m.waiting (.release x :: ready) y := by
    rw [hw, if_neg (Ne.symm hy), Nat.add_zero]
  -- a callback was to come, so the buffer is neither cached nor freed
  have hplace : a.freed = false ∧ a.cachedIn = none := by
    constructor
    · by_contra hf
      have := (hb.settled x a hx (.inl (by simpa using hf))).2
      omega
    · by_contra hc
      have := (hb.settled x a hx (.inr (.inl hc))).2
      omega
  have hcount : a.gpuRefs - 1 = Int32.ofNat (m₁.waiting ready x) := by
    rw [hb.counted x a hx, hwx, Int32.ofNat_pred (Nat.succ_pos _)]
    rfl
  have hzero : a.gpuRefs - 1 = 0 ↔ m₁.waiting ready x = 0 := by
    rw [hcount]
    refine ⟨Int32.eq_zero_of_ofNat (by omega), fun hz => ?_⟩
    rw [hz]
    rfl
  refine ⟨hzero, fun hgpu hrefs => ?_, fun hgo => ?_⟩
  · exact h.books hb hx rfl rfl rfl rfl hothers (fun y hy => by simp [Ne.symm hy]) (fun _ => hplace) hcount
      (fun _ => ⟨hrefs, hzero.mp hgpu⟩) fun _ _ hn => absurd rfl hn
  · refine h.books hb hx rfl rfl rfl rfl hothers (fun y _ => Iff.rfl) (fun hy => by cases hy) hcount
      (fun hp => ?_) fun hf hc hn => ⟨(hb.active x a hx hf hc hn).1, fun hz hnone => ?_⟩
    · simp [hplace.1, hplace.2] at hp
    · exact hgo ⟨hzero.mpr hnone, hz⟩

theorem books_queueDrained {x : Nat} {m m' : Machine κ} {u : Unit} {ready : List Callback}
    (he : (Buffer.queueDrained x).exec m = (.ok u, m')) (hb : m.Books (.release x :: ready) none)
    (hlt : m.waiting (.release x :: ready) x < 2 ^ 32) : m'.Books ready none := by
  obtain ⟨a, m₁, hx, h, hend⟩ := queueDrained_ok he
  obtain ⟨-, hheld, hrest⟩ := h.drained hb hx hlt
  rcases hend with ⟨hgo, rfl⟩ | ⟨hgpu, hrefs, m₂, hq, hfin⟩
  · exact hrest hgo
  · exact (tidies_finish ready hfin).books ((hheld hgpu hrefs).quiet hq)

/-! ## New buffers -/

omit [Kernel κ] in
/-- A buffer that is used again leaves the cache, and nothing else happens to it that matters. -/
theorem reuse_ok {x : Nat} {label : String} {m m' : Machine κ} {u : Unit}
    (he : (Allocator.reuse x label).exec m = (.ok u, m')) :
    ∃ m₁, (Allocator.uncache x).exec m = (.ok (), m₁) ∧ Quiet m₁ m' := by
  unfold Allocator.reuse at he
  obtain ⟨_, m₁, h₁, he⟩ := bind_ok he
  obtain ⟨_, m₂, h₂, he⟩ := bind_ok he
  obtain ⟨_, m₃, h₃, he⟩ := bind_ok he
  cases h₃
  obtain ⟨b, -, he⟩ := bind_buffer_ok he
  have hcheck : Quiet m₁ m₂ := (keeps_checkRule _).ok h₂
  have hlabel : Keeps (Quiet (κ := κ)) (modifyBuffer x fun b => { b with label }) :=
    quiet_modifyBuffer x fun _ => rfl
  have hhits : Keeps (Quiet (κ := κ)) (modifyAllocator fun a => { a with hits := a.hits + 1 }) :=
    quiet_modifyAllocator fun _ => rfl
  have hq : Quiet m₂ m' := by
    dsimp only at he
    split at he
    · exact (keeps_bind (keeps_error _ _) fun _ => keeps_bind hlabel fun _ => hhits).ok he
    · exact (keeps_bind hlabel fun _ => hhits).ok he
  exact ⟨m₁, h₁, hcheck.trans hq⟩

omit [Kernel κ] in
/-- A buffer out of the cache is held. -/
theorem tidies_reuse {x : Nat} {label : String} {m m' : Machine κ} {u : Unit}
    (ready : List Callback) (he : (Allocator.reuse x label).exec m = (.ok u, m')) :
    Tidies ready none (some x) m m' := by
  obtain ⟨m₁, huncache, hq⟩ := reuse_ok he
  exact (tidies_uncache ready huncache).trans (.of_quiet hq)

/-- Handing a buffer out gives it its first reference. -/
theorem handOut_ok {x : Nat} {m m' : Machine κ} {u : Unit}
    (he : (Allocator.handOut x).exec m = (.ok u, m')) :
    ∃ a, m.storage.accounts[x]? = some a ∧
      Edits x (fun a => { a with refs := 1, usage := [] }) m m' := by
  unfold Allocator.handOut at he
  obtain ⟨b, hget, he⟩ := bind_buffer_ok he
  refine ⟨b.account, Machine.accounts_of_buffer hget, ?_⟩
  obtain ⟨_, m₁, h₁, he⟩ := bind_ok he
  cases h₁
  have hrest {m₀ : Machine κ} (hq : Quiet m m₀) (he : (do
      modifyBuffer x fun b => { b with refs := 1, usage := [] }
      Allocator.write "alloc" (← buffer x) noFd : Op κ Unit).exec m₀ = (.ok u, m')) :
      Edits x (fun a => { a with refs := 1, usage := [] }) m m' := by
    obtain ⟨_, m₁, h₁, he⟩ := bind_ok he
    obtain ⟨b', -, he⟩ := bind_buffer_ok he
    have h : Edits x (fun a => { a with refs := 1, usage := [] }) m₀ m₁ :=
      .of_modifyBuffer h₁ fun _ => rfl
    have hm : Edits x (fun a => { a with refs := 1, usage := [] }) m m₁ :=
      ⟨hq.toUndisturbed.trans h.toUndisturbed, by rw [h.storage, hq.storage],
        fun k fd ho => h.owns k fd (hq.owns k fd ho)⟩
    exact hm.quiet ((quiet_write _ _ _ _).ok he)
  dsimp only at he
  split at he
  · obtain ⟨_, m₂, h₂, he⟩ := bind_ok he
    exact hrest ((keeps_clearBuffer x).ok h₂) he
  · exact hrest (.refl m) he

theorem books_handOut {x : Nat} {m m' : Machine κ} {u : Unit} {ready : List Callback}
    (he : (Allocator.handOut x).exec m = (.ok u, m')) (hb : m.Books ready (some x)) :
    m'.Books ready none := by
  obtain ⟨a, hx, h⟩ := handOut_ok he
  obtain ⟨a', hx', hfreed, hcached⟩ := hb.held x rfl
  rw [hx] at hx'
  cases hx'
  refine h.books hb hx rfl rfl rfl rfl (fun y _ => by rw [h.waiting])
    (fun y hy => by simp [Ne.symm hy]) (fun hy => by cases hy) ?_ (fun hp => ?_)
    fun _ _ _ => ⟨by show (0 : Int32) ≤ 1; decide, fun hz => absurd hz (by show (1 : Int32) ≠ 0; decide)⟩
  · rw [h.waiting]
    exact hb.counted x a hx
  · simp [hfreed, hcached] at hp

/-- A new account is opened under a handle. -/
structure Opens (a : Account) (m m' : Machine κ) : Prop extends Undisturbed m m' where
  storage : m'.storage = { m.storage with
    accounts := m.storage.accounts ++ [a]
    arena := (m.storage.arena.filter fun e => e.1 ≠ a.handle) ++
      [(a.handle, m.storage.accounts.length)] }
  owns : ∀ k fd, m.Owns k fd → m'.Owns k fd

omit [Kernel κ] in
/-- The accounts that were there stay as they are. -/
theorem Opens.account {a b : Account} {x : Nat} {m m' : Machine κ} (h : Opens a m m')
    (hx : m.storage.accounts[x]? = some b) : m'.storage.accounts[x]? = some b := by
  rw [h.storage]
  exact (List.getElem?_append_left (List.getElem?_eq_some_iff.mp hx).1).trans hx

omit [Kernel κ] in
theorem addBuffer_ok {b : Buffer} {x : Nat} {m m' : Machine κ}
    (he : (Allocator.addBuffer b).exec m = (.ok x, m')) :
    x = m.storage.accounts.length ∧ Opens b.account m m' := by
  unfold Allocator.addBuffer at he
  cases he
  refine ⟨?_, .of_eq rfl rfl, ?_, fun _ _ ho => ho⟩
  · show _ = (m.allocator.buffers.map Buffer.account).length
    rw [List.length_map]
  · show Allocator.storage _ = _
    simp only [Allocator.storage, Allocator.enter, Machine.storage, List.map_append, List.map_cons,
      List.map_nil, List.length_map]
    rfl

omit [Kernel κ] in
theorem books_addBuffer {b : Buffer} {x : Nat} {fd : Int} {m m' : Machine κ}
    {ready : List Callback} (he : (Allocator.addBuffer b).exec m = (.ok x, m'))
    (hb : m.Books ready none) (hfree : m.allocator.lookup? b.handle = none) (howns : m.Owns b.handle fd)
    (hshared : b.has BufferFlag.shared = true) (hgpu : b.gpuRefs = 0) (hcached : b.cachedIn = none)
    (hfreed : b.freed = false) (hrefs : 0 < b.refs) : m'.Books ready none := by
  obtain ⟨-, h⟩ := addBuffer_ok he
  rw [Machine.Books, h.storage, h.waiting]
  refine Storage.Books.add hb h.owns ⟨fd, h.owns _ _ howns, fun hs => ?_⟩ hfree hgpu hcached hfreed
    (.inl ⟨rfl, hrefs⟩)
  have : b.account.shared = true := hshared
  rw [hs] at this
  cases this

omit [Kernel κ] in
/-- A new region becomes a buffer under a handle that was not live before, without a descriptor. -/
theorem wrapRegion_ok {region : Region} {size : Int64} {flags : UInt32} {label : String} {x : Nat}
    {m m' : Machine κ} (he : (Allocator.wrapRegion region size flags label).exec m = (.ok x, m')) :
    ∃ h, (∀ fd, ¬m.Owns h fd) ∧ m'.Owns h noFd ∧ x = m.storage.accounts.length ∧
      Opens { handle := h, shared := hasFlag flags BufferFlag.shared } m m' := by
  unfold Allocator.wrapRegion at he
  obtain ⟨_, m₁, h₁, he⟩ := bind_ok he
  cases h₁
  obtain ⟨h, m₂, h₂, he⟩ := bind_ok he
  obtain ⟨hh, hm⟩ := allocHandle_ok h₂
  have hq := (quiet_allocHandle region.gpu noFd).ok h₂
  obtain ⟨hx, hopens⟩ := addBuffer_ok he
  have hnew : m₂.Owns h noFd := by
    rw [hm, hh]
    exact HandleTable.owns_alloc_self _ _ (by decide)
  refine ⟨h, fun fd ho => ?_, hopens.owns _ _ hnew, by rw [hx, hq.storage],
    hq.toUndisturbed.trans hopens.toUndisturbed, by rw [hopens.storage, hq.storage]; rfl,
    fun k fd ho => hopens.owns k fd (hq.owns k fd ho)⟩
  rw [hh] at ho
  exact m.device.handles.not_owns_freeIndex fd ho

omit [Kernel κ] in
theorem books_wrapRegion {region : Region} {size : Int64} {flags : UInt32} {label : String} {x : Nat}
    {m m' : Machine κ} {ready : List Callback}
    (he : (Allocator.wrapRegion region size flags label).exec m = (.ok x, m'))
    (hb : m.Books ready none) : m'.Books ready (some x) := by
  obtain ⟨h, hnew, howns, hx, hopens⟩ := wrapRegion_ok he
  rw [Machine.Books, hopens.storage, hopens.waiting]
  refine Storage.Books.add hb hopens.owns ⟨noFd, howns, fun _ => by decide⟩ ?_ rfl rfl rfl
    (.inr ⟨by rw [hx], rfl⟩)
  -- a handle in the arena would be that of a buffer that is not freed, and so live
  by_contra hne
  obtain ⟨y, hy⟩ := Option.ne_none_iff_exists'.mp hne
  obtain ⟨a, ha, hhandle, hfreed⟩ := (hb.arena _ y).mp hy
  obtain ⟨fd, ho, -⟩ := hb.owned y a ha hfreed
  rw [hhandle] at ho
  exact hnew fd ho

end Kernel

end Mali
