import Mali.Proofs.AccountHistory

/-!
# Dependencies between batches

A batch that uses a buffer depends on the earlier work that used it, as far as that work was recorded
on the buffer and is not past the last submission on its queue.

Recorded uses only grow while a buffer is in use, so nothing is lost there.  But uses of one queue are
merged to the latest number, and a number past the last submission is dropped by the cleaning.  A batch
that is numbered but never submitted, since its insert offset did not change, leaves such a number
behind, and the number it was merged with goes with it.

* `Config.Recorded`: recorded uses are on bound slots, and only submitted batches have dependencies.
* `Step.standings`, `Step.recorded`: what a step does to batches and recorded uses.
* `Run.covers`: a recorded use is kept while its buffer is in use.
* `Run.dependency_iff`: exactly when a dependency on earlier work is there.
-/

namespace Mali

open Op

variable {κ : Type}

/-- Recorded uses are on bound slots, and a batch that was not submitted has no dependencies yet. -/
structure Config.Recorded (c : Config κ) : Prop where
  below : ∀ x, Usage.Below c.progress.bound (c.machine.usage x)
  unsubmitted : ∀ s ∈ c.machine.standings, s.1 = false → s.2 = ([], [])

/-- A buffer has references, and is neither cached nor freed. -/
def Config.InUse (c : Config κ) (x : Nat) : Prop :=
  ∃ a ∈ c.account? x, a.refs ≠ 0 ∧ a.cachedIn = none ∧ a.freed = false

instance (c : Config κ) (x : Nat) : Decidable (c.InUse x) :=
  inferInstanceAs (Decidable (∃ a ∈ c.account? x, a.refs ≠ 0 ∧ a.cachedIn = none ∧ a.freed = false))

/-- The dependencies of a batch before they are cleaned. -/
def Machine.gathered [Kernel κ] (m : Machine κ) (id batch : Nat) (fragment : Bool) : List Usage :=
  ((((Submitter.gather id batch).exec m).2.batches[batch]?).map (·.deps fragment)).getD []

theorem Edits.usage {m m' : Machine κ} {x : Nat} {f : Account → Account} (h : Edits x f m m')
    (hf : ∀ a, (f a).usage = a.usage ∨ (f a).usage = []) (y : Nat) :
    m'.usage y = m.usage y ∨ m'.usage y = [] := by
  rw [Machine.usage, h.storage, List.getElem?_modify, Machine.usage]
  cases m.storage.accounts[y]? with
  | none => exact .inl rfl
  | some a =>
    split
    · exact hf a
    · exact .inl rfl

theorem Opens.usage {m m' : Machine κ} {a : Account} (h : Opens a m m') (ha : a.usage = []) (y : Nat) :
    m'.usage y = m.usage y ∨ m'.usage y = [] := by
  rw [Machine.usage, h.storage, getElem?_concat, Machine.usage]
  split
  · exact .inr ha
  · exact .inl rfl

theorem Releases.usage {m m' : Machine κ} {x : Nat} (h : Releases x m m') (y : Nat) :
    m'.usage y = m.usage y ∨ m'.usage y = [] := by
  rw [Machine.usage, h.storage, List.getElem?_modify, Machine.usage]
  cases m.storage.accounts[y]? with
  | none => exact .inl rfl
  | some a =>
    split
    · exact .inr rfl
    · exact .inl rfl

section Kernel

variable [Kernel κ] {c c' : Config κ} {act : Action}

/-! ## Batches -/

/-- Only collecting changes what a batch has come to, and only once for each. -/
theorem Step.standings (h : Step c act c') (hlt : act = .attach → c.progress.bound < slotCount) :
    (∃ n, c'.machine.standings = c.machine.standings ++ List.replicate n (false, [], [])) ∨
      ∃ id k s v f, act = .collect id k ∧ c.machine.standings[k]? = some s ∧ s.1 = false ∧
        c'.machine.standings = c.machine.standings.set k (true, v, f) := by
  have htrans {m₁ m₂ m₃ : Machine κ}
      (h₁ : ∃ n, m₂.standings = m₁.standings ++ List.replicate n (false, [], []))
      (h₂ : ∃ n, m₃.standings = m₂.standings ++ List.replicate n (false, [], [])) :
      ∃ n, m₃.standings = m₁.standings ++ List.replicate n (false, [], []) := by
    obtain ⟨n₁, h₁⟩ := h₁
    obtain ⟨n₂, h₂⟩ := h₂
    exact ⟨n₁ + n₂, by rw [h₂, h₁, List.append_assoc, List.replicate_append_replicate]⟩
  cases h.effect hlt with
  | still _ _ _ _ hstandings => exact .inl hstandings
  | count _ _ hedit => exact .inl hedit.standings
  | handOut _ _ hedit => exact .inl hedit.standings
  | opens _ _ hopens => exact .inl hopens.standings
  | tidies ht => exact .inl ht.standings
  | release _ _ hm₁ hend =>
    rcases hend with ⟨-, hm⟩ | ⟨-, ht⟩
    · exact .inl (hm ▸ hm₁.standings)
    · exact .inl (htrans hm₁.standings ht.standings)
  | drain _ hedit hend =>
    rcases hend with ⟨-, hm⟩ | ⟨-, -, ht⟩
    · exact .inl (hm ▸ hedit.standings)
    · exact .inl (htrans hedit.standings ht.standings)
  | @collect _ id k b hb hnew he =>
    obtain ⟨b', hg⟩ := gathers_of_collect hb he
    refine .inr ⟨id, k, b.standing, b'.vertexDeps, b'.fragmentDeps, rfl, ?_, hnew, ?_⟩
    · rw [Machine.standings, List.getElem?_map, hb]
      rfl
    · rw [Machine.standings, hg.batches, List.map_set, Batch.standing, hg.submitted]
      rfl

/-- What a batch has come to when it is submitted stays. -/
theorem Step.standing_kept (h : Step c act c') (hlt : act = .attach → c.progress.bound < slotCount)
    {k : Nat} {d : List Usage × List Usage} (hk : c.machine.standings[k]? = some (true, d)) :
    c'.machine.standings[k]? = some (true, d) := by
  rcases h.standings hlt with ⟨n, hn⟩ | ⟨id, j, s, v, f, -, hj, hs, hset⟩
  · rw [hn, List.getElem?_append_left (List.getElem?_eq_some_iff.mp hk).1]
    exact hk
  · have hne : j ≠ k := by
      rintro rfl
      rw [hk] at hj
      cases hj
      cases hs
    rw [hset, List.getElem?_set_ne hne]
    exact hk

/-! ## Recorded uses -/

theorem Step.below (h : Step c act c') (hs : c.progress.Sound)
    (hmax : c'.progress.streams.length ≤ slotCount)
    (hb : ∀ x, Usage.Below c.progress.bound (c.machine.usage x)) (x : Nat) :
    Usage.Below c.progress.bound (c'.machine.usage x) := by
  have hlt := h.bound_lt hs hmax
  have hsame {us : List Usage} (h : us = c.machine.usage x ∨ us = []) :
      Usage.Below c.progress.bound us := by
    rcases h with rfl | rfl
    · exact hb x
    · exact Usage.below_nil _
  have htrans {m₁ m₂ m₃ : Machine κ} (h₁ : m₂.usage x = m₁.usage x ∨ m₂.usage x = [])
      (h₂ : m₃.usage x = m₂.usage x ∨ m₃.usage x = []) : m₃.usage x = m₁.usage x ∨ m₃.usage x = [] := by
    rcases h₂ with h₂ | h₂
    · rw [h₂]
      exact h₁
    · exact .inr h₂
  cases h.effect hlt with
  | still _ _ _ hstorage => exact hsame (.inl (by rw [Machine.usage, hstorage, Machine.usage]))
  | count _ _ hedit => exact hsame (hedit.usage (fun _ => .inl rfl) x)
  | handOut _ _ hedit => exact hsame (hedit.usage (fun _ => .inr rfl) x)
  | opens _ husage hopens => exact hsame (hopens.usage husage x)
  | tidies ht => exact hsame (ht.uses x)
  | release _ _ hm₁ hend =>
    rcases hend with ⟨-, hm⟩ | ⟨-, ht⟩
    · exact hsame (hm ▸ hm₁.usage x)
    · exact hsame (htrans (hm₁.usage x) (ht.uses x))
  | drain _ hedit hend =>
    have hlowered := hedit.usage (fun _ => .inl rfl) x
    rcases hend with ⟨-, hm⟩ | ⟨-, -, ht⟩
    · exact hsame (hm ▸ hlowered)
    · exact hsame (htrans hlowered (ht.uses x))
  | collect hget _ he =>
    obtain ⟨_, _, -, -, hg⟩ := collect_ok hget hs.toNat_slot he
    exact hg.below hb x

theorem Step.recorded (h : Step c act c') (hs : c.progress.Sound)
    (hmax : c'.progress.streams.length ≤ slotCount) (hc : c.Recorded) : c'.Recorded where
  below x := by
    refine (h.below hs hmax hc.below x).mono ?_
    have := h.length_streams
    rw [hs.length_streams, (h.sound hs hmax).length_streams] at this
    omega
  unsubmitted s hmem hsub := by
    rcases h.standings (h.bound_lt hs hmax) with ⟨n, hn⟩ | ⟨id, k, s', v, f, -, -, -, hset⟩
    · rw [hn] at hmem
      rcases List.mem_append.mp hmem with hmem | hmem
      · exact hc.unsubmitted s hmem hsub
      · rw [List.eq_of_mem_replicate hmem]
    · rw [hset] at hmem
      rcases List.mem_or_eq_of_mem_set hmem with hmem | rfl
      · exact hc.unsubmitted s hmem hsub
      · cases hsub

omit [Kernel κ] in
theorem Fresh.recorded {m : Machine κ} (h : Fresh m) : (⟨m, [], none⟩ : Config κ).Recorded where
  below x := by
    show Usage.Below _ (m.usage x)
    rw [Machine.usage, h.accounts]
    exact Usage.below_nil _
  unsubmitted s hs := by
    have hs : s ∈ m.batches.map Batch.standing := hs
    rw [h.batches] at hs
    exact absurd hs List.not_mem_nil

/-- What is gathered for a batch, and that the final dependencies are this after cleaning. -/
theorem Step.gathered {id k : Nat} (h : Step c (.collect id k) c') (hs : c.progress.Sound)
    (hc : c.Recorded) {b : Batch} (hb : c.machine.batches[k]? = some b) :
    (∀ t x, (t, x) ∈ b.uses → ∀ v, Usage.Covers (c.machine.usage x) v →
      t.writes = true ∨ v.write = true →
        Usage.Covers (c.machine.gathered id k t.isFragment) v) ∧
    (∀ f, Usage.Below c.progress.bound (c.machine.gathered id k f)) ∧
    c'.machine.standings[k]? = some (true,
      Usage.clean c.progress.slots c.progress.bound (c.machine.gathered id k false),
      Usage.clean c.progress.slots c.progress.bound (c.machine.gathered id k true)) := by
  cases h with
  | @collect m m' _ _ b' hget hnew he =>
    have hb : m.batches[k]? = some b := hb
    rw [hget] at hb
    cases hb
    obtain ⟨m₁, g, hgather, hg, hfinal⟩ := collect_ok hget hs.toNat_slot he
    obtain ⟨g', hg', hbelow, hawaited⟩ := gather_ok hget hs.toNat_slot hgather
    have hlength := (List.getElem?_eq_some_iff.mp hget).1
    have hat : m₁.batches[k]? = some g := by rw [hg.batches, List.getElem?_set_self hlength]
    obtain rfl : g' = g := by
      rw [hg'.batches, List.getElem?_set_self hlength] at hat
      exact Option.some.inj hat
    have hgathered (f : Bool) : m.gathered id k f = g'.deps f := by
      rw [Machine.gathered, hgather]
      show (m₁.batches[k]?.map _).getD [] = _
      rw [hat]
      rfl
    have hnone (f : Bool) : b.deps f = [] := by
      have hempty := hc.unsubmitted b.standing (List.mem_map_of_mem (List.mem_of_getElem? hget)) hnew
      cases f
      · exact congrArg Prod.fst hempty
      · exact congrArg Prod.snd hempty
    refine ⟨fun t x hx v hv hw => ?_, fun f => ?_, ?_⟩
    · rw [hgathered]
      exact hawaited t x hx v hv hw
    · rw [hgathered]
      refine hbelow hc.below (fun f => ?_) f
      rw [hnone]
      exact Usage.below_nil _
    · rw [hgathered, hgathered]
      show (m'.batches.map Batch.standing)[k]? = _
      rw [List.getElem?_map, hfinal.batches, List.getElem?_set_self hlength]
      exact congrArg (fun s => some (s, _)) hg.submitted

/-! ## While a buffer is in use -/

/-- As long as a buffer is in use, a use that was recorded on it stays. -/
theorem Step.covers (h : Step c act c') (hlt : act = .attach → c.progress.bound < slotCount) {x : Nat}
    {u : Usage} (hx : c.InUse x) (hx' : c'.InUse x) (hheld : c.held ≠ some x)
    (hu : Usage.Covers (c.machine.usage x) u) : Usage.Covers (c'.machine.usage x) u := by
  have husage {d : Config κ} {a : Account} (ha : d.account? x = some a) :
      d.machine.usage x = a.usage := Machine.usage_of_account ha
  obtain ⟨a, ha, hrefs, hcached, -⟩ := hx
  rw [Option.mem_def] at ha
  rcases h.account hlt ha hcached hheld with ⟨a', ha', -, -, hgrows⟩ | ⟨-, ⟨b, hb, hzero⟩, -⟩ |
      ⟨_, _, -, -, -, hzero⟩
  · rw [husage ha']
    rw [husage ha] at hu
    exact hu.grow hgrows
  · -- the last reference went, so the buffer is no longer in use
    obtain ⟨a', ha', hrefs', -⟩ := hx'
    rw [hb] at ha'
    cases ha'
    exact absurd hzero hrefs'
  · exact absurd hzero hrefs

/-! ## Runs -/

omit [Kernel κ] in
theorem Machine.mem_streams_of_job {m : Machine κ} {id : Nat} {f : Bool} {q : Nat} {s : UInt64}
    (h : m.job? id f = some (q, s)) : q ∈ m.progress.streams := by
  unfold Machine.job? at h
  obtain ⟨_, -, h⟩ := Option.bind_eq_some_iff.mp h
  obtain ⟨_, -, h⟩ := Option.bind_eq_some_iff.mp h
  obtain ⟨t, ht, h⟩ := Option.bind_eq_some_iff.mp h
  cases h
  exact List.mem_map_of_mem (List.mem_of_getElem? ht)

namespace Run

variable {es : List (Config κ × Action)}

theorem recorded (h : Run c es c') (hs : c.progress.Sound)
    (hmax : c'.progress.streams.length ≤ slotCount) (hc : c.Recorded) : c'.Recorded := by
  induction h with
  | nil => exact hc
  | cons hstep hr ih =>
    have hmax' := Nat.le_trans hr.length_streams_le hmax
    exact ih (hstep.sound hs hmax') hmax (hstep.recorded hs hmax' hc)

/-- A use that was recorded on a buffer stays as long as the buffer is in use. -/
theorem covers (h : Run c es c') (hs : c.progress.Sound)
    (hmax : c'.progress.streams.length ≤ slotCount) {x : Nat} {u : Usage}
    (hx : ∀ d ∈ es.map (·.1) ++ [c'], d.InUse x) (hheld : c.held ≠ some x)
    (hu : Usage.Covers (c.machine.usage x) u) : Usage.Covers (c'.machine.usage x) u := by
  induction h with
  | nil => exact hu
  | @cons c c₁ c' a es hstep hr ih =>
    have hmax' := Nat.le_trans hr.length_streams_le hmax
    have hc := hx c List.mem_cons_self
    have hc₁ := hx c₁ (List.mem_cons_of_mem _ hr.head_mem)
    obtain ⟨a, ha, -, hcached, -⟩ := id hc
    exact ih (hstep.sound hs hmax') hmax (fun d hd => hx d (List.mem_cons_of_mem _ hd))
      (hstep.held_ne ha hcached hheld) (hstep.covers (hstep.bound_lt hs hmax') hc hc₁ hheld hu)

/-- What a submitted batch has come to stays. -/
theorem standing_kept (h : Run c es c') (hs : c.progress.Sound)
    (hmax : c'.progress.streams.length ≤ slotCount) {k : Nat} {d : List Usage × List Usage}
    (hk : c.machine.standings[k]? = some (true, d)) : c'.machine.standings[k]? = some (true, d) := by
  induction h with
  | nil => exact hk
  | cons hstep hr ih =>
    have hmax' := Nat.le_trans hr.length_streams_le hmax
    exact ih (hstep.sound hs hmax') hmax (hstep.standing_kept (hstep.bound_lt hs hmax') hk)

/-- The last submission on a slot is past all that were made. -/
theorem lt_lastSubmit (h : Run c es c') (hs : c.progress.Sound)
    (hmax : c'.progress.streams.length ≤ slotCount) {i : Nat} {n : UInt64}
    (hmem : .submit i n ∈ es.map (·.2)) (hn : n + 1 ≠ 0) : n < (c'.slot i).lastSubmit := by
  obtain ⟨⟨d, act⟩, he, rfl⟩ := List.mem_map.mp hmem
  obtain ⟨es₁, es₂, rfl⟩ := List.append_of_mem he
  obtain ⟨d', h₁, h₂⟩ := h.split
  cases h₂ with
  | @cons _ d₁ _ _ _ hstep hr =>
    have hmax₁ := Nat.le_trans hr.length_streams_le hmax
    have hsound := h₁.sound hs (Nat.le_trans (Run.length_streams_le (.cons hstep hr)) hmax)
    have hslot := hstep.slot hsound hmax₁ i
    have hle := hr.lastSubmit_le (hstep.sound hsound hmax₁) hmax i
    rw [hslot, Action.act, if_pos rfl] at hle
    exact UInt64.lt_of_lt_of_le (EventSlot.lt_submit_lastSubmit _ hn) hle

/-- A batch `k₁` used a buffer `x` under the number `s` on the slot `q`, and a later batch `k₂` uses it
too, one of the two for writing.  Whatever was submitted on the slot by then is before its last
submission `L`.  If the buffer was in use all the while, the number was gathered.  Among the final
dependencies it is exactly if it was submitted, and an entry was gathered that stands for it and is not
past `L`: the number of work that was skipped takes the earlier ones with it. -/
theorem dependency_iff {m : Machine κ} {c₁ c₂ c₃ c₄ c₅ : Config κ}
    {es₁ es₂ es₃ : List (Config κ × Action)} {id₁ k₁ id₂ k₂ : Nat} {b₁ b₂ b : Batch}
    {t₁ t₂ : UsageType} {x q : Nat} {s : UInt64} (hfresh : Fresh m) (h₁ : Run ⟨m, [], none⟩ es₁ c₁)
    (hfirst : Step c₁ (.collect id₁ k₁) c₂) (hb₁ : c₁.machine.batches[k₁]? = some b₁)
    (hx₁ : (t₁, x) ∈ b₁.uses) (hjob : c₂.machine.job? id₁ t₁.isFragment = some (q, s))
    (h₂ : Run c₂ es₂ c₃) (hsecond : Step c₃ (.collect id₂ k₂) c₄)
    (hb₂ : c₃.machine.batches[k₂]? = some b₂) (hx₂ : (t₂, x) ∈ b₂.uses)
    (hconflict : t₁.writes = true ∨ t₂.writes = true) (h₃ : Run c₄ es₃ c₅)
    (hb : c₅.machine.batches[k₂]? = some b) (hmax : c₅.progress.streams.length ≤ slotCount) :
    (∀ n, Action.submit q n ∈ (es₁ ++ es₂).map (·.2) → n + 1 ≠ 0 → n < (c₃.slot q).lastSubmit) ∧
    ((∀ d ∈ es₂.map (·.1) ++ [c₃], d.InUse x) →
      ∃ e ∈ c₃.machine.gathered id₂ k₂ t₂.isFragment, e.queue = UInt32.ofNat q ∧ s ≤ e.seqnum) ∧
    ((∃ d ∈ b.deps t₂.isFragment, d.queue = UInt32.ofNat q ∧ s ≤ d.seqnum) ↔
      s < (c₃.slot q).lastSubmit ∧ ∃ e ∈ c₃.machine.gathered id₂ k₂ t₂.isFragment,
        e.queue = UInt32.ofNat q ∧ s ≤ e.seqnum ∧ e.seqnum ≤ (c₃.slot q).lastSubmit) := by
  have hmax₄ := Nat.le_trans h₃.length_streams_le hmax
  have hrun₃ := h₁.append (.cons hfirst h₂)
  have hmax₃ := Nat.le_trans (Run.single hsecond).length_streams_le hmax₄
  have hmax₂ := Nat.le_trans h₂.length_streams_le hmax₃
  have hmax₁ := Nat.le_trans (Run.single hfirst).length_streams_le hmax₂
  have hs₁ := h₁.sound hfresh.sound hmax₁
  have hs₂ := hfirst.sound hs₁ hmax₂
  have hs₃ := hrun₃.sound hfresh.sound hmax₃
  have hs₄ := hsecond.sound hs₃ hmax₄
  have hrecorded := hrun₃.recorded hfresh.sound hmax₃ hfresh.recorded
  -- the slot was bound when the first batch was collected
  have hq : q < c₃.progress.bound := by
    have hle := h₂.length_streams_le
    rw [hs₂.length_streams, hs₃.length_streams] at hle
    have hmem : q ∈ c₂.progress.streams := Machine.mem_streams_of_job hjob
    rw [hs₂.streams, List.mem_range] at hmem
    exact Nat.lt_of_lt_of_le hmem hle
  have htoNat : (UInt32.ofNat q).toNat = q := UInt32.toNat_ofNat_of_lt' <|
    Nat.lt_of_lt_of_le hq (Nat.le_trans hs₃.slots.bound_le (by decide))
  -- what the first batch recorded is covered until the second one is collected
  have hcovered (hinuse : ∀ d ∈ es₂.map (·.1) ++ [c₃], d.InUse x) :
      Usage.Covers (c₃.machine.usage x) ⟨UInt32.ofNat q, t₁.writes, s⟩ := by
    cases hfirst with
    | collect hget _ he =>
      obtain ⟨_, hg⟩ := gathers_of_collect hget he
      rw [hget] at hb₁
      cases hb₁
      obtain ⟨i, n, hjob', hcovers⟩ := hg.recorded t₁ x hx₁
      rw [hjob] at hjob'
      cases hjob'
      exact h₂.covers hs₂ hmax₃ hinuse nofun hcovers
  obtain ⟨hawaited, hbelow, hstanding⟩ := hsecond.gathered hs₃ hrecorded hb₂
  have hdeps : b.deps t₂.isFragment = Usage.clean c₃.progress.slots c₃.progress.bound
      (c₃.machine.gathered id₂ k₂ t₂.isFragment) := by
    have hkept := h₃.standing_kept hs₄ hmax hstanding
    rw [Machine.standings, List.getElem?_map, hb] at hkept
    have hb := Option.some.inj hkept
    cases t₂.isFragment
    · exact congrArg (·.2.1) hb
    · exact congrArg (·.2.2) hb
  refine ⟨fun n hmem hn => ?_, fun hinuse => ?_, ?_⟩
  · refine hrun₃.lt_lastSubmit hfresh.sound hmax₃ ?_ hn
    rw [List.map_append, List.mem_append] at hmem ⊢
    exact hmem.imp_right (List.mem_cons_of_mem _)
  · obtain ⟨e, he, hin⟩ := hawaited t₂ x hx₂ _ (hcovered hinuse) hconflict.symm
    exact ⟨e, he, hin.queue, hin.seqnum⟩
  · rw [hdeps]
    exact Usage.exists_mem_clean_iff (hbelow _) (by rw [htoNat]; rfl)
      (hs₃.slots.started q hq).started

end Run

end Kernel

/-! ## A dependency that is lost -/

namespace Sample

/-- A batch that writes the live buffer. -/
def writer : Batch := { submitter := 0, uses := [(.writeVertex, 0)] }

/-- A batch that reads it. -/
def reader : Batch := { submitter := 0, uses := [(.readFragment, 0)] }

/-- There are three writers and a reader. -/
def batched : Machine Bench := { live with batches := [writer, writer, writer, reader] }

/-- The first writer got the number one. -/
@[irreducible] def numbered : Machine Bench := ((Submitter.collect 0 0).exec batched).2

/-- Its work was queued. -/
@[irreducible] def queued : Machine Bench := ((Device.submitSlot 0 1).exec numbered).2

/-- The second writer got a number, but its work was skipped. -/
@[irreducible] def skipped : Machine Bench := ((Submitter.collect 0 1).exec queued).2

/-- So it was with the third. -/
@[irreducible] def again : Machine Bench := ((Submitter.collect 0 2).exec skipped).2

/-- The dependencies of the reader were collected. -/
@[irreducible] def collected : Machine Bench := ((Submitter.collect 0 3).exec again).2

/-- The steps between the first writer and the reader. -/
def between : List (Config Bench × Action) :=
  [(⟨numbered, [], none⟩, .submit 0 1), (⟨queued, [], none⟩, .collect 0 1),
    (⟨skipped, [], none⟩, .collect 0 2)]

theorem run_batched : Run ⟨start, [], none⟩ (creation ++ [(⟨live, [], none⟩, .other)])
    ⟨batched, [], none⟩ :=
  run_live.append (.single (.quiet ⟨⟨rfl, 4, rfl⟩, rfl, fun _ _ h => h⟩))

-- evaluated all at once
theorem run_between : Step ⟨batched, [], none⟩ (.collect 0 0) ⟨numbered, [], none⟩ ∧
    Run ⟨numbered, [], none⟩ between ⟨again, [], none⟩ ∧
    Step ⟨again, [], none⟩ (.collect 0 3) ⟨collected, [], none⟩ ∧
    again.batches[3]? = some reader := by
  obtain ⟨h₀, h₁, h₂, h₃, h₄, hb₁, hb₂, hb₃, hstream⟩ :
      ((Submitter.collect 0 0).exec batched).1.toOption = some () ∧
      ((Device.submitSlot 0 1).exec numbered).1.toOption = some () ∧
      ((Submitter.collect 0 1).exec queued).1.toOption = some () ∧
      ((Submitter.collect 0 2).exec skipped).1.toOption = some () ∧
      ((Submitter.collect 0 3).exec again).1.toOption = some () ∧
      queued.batches[1]? = some writer ∧ skipped.batches[2]? = some writer ∧
      again.batches[3]? = some reader ∧ 0 ∈ numbered.progress.streams := by
    decide +kernel
  have hqueued : Step ⟨numbered, [], none⟩ (.submit 0 1) ⟨queued, [], none⟩ :=
    .submit hstream (by rw [queued]; exact exec_of_value h₁)
  have hskipped : Step ⟨queued, [], none⟩ (.collect 0 1) ⟨skipped, [], none⟩ :=
    .collect hb₁ rfl (by rw [skipped]; exact exec_of_value h₂)
  have hagain : Step ⟨skipped, [], none⟩ (.collect 0 2) ⟨again, [], none⟩ :=
    .collect hb₂ rfl (by rw [again]; exact exec_of_value h₃)
  exact ⟨.collect (b := writer) rfl rfl (by rw [numbered]; exact exec_of_value h₀),
    .cons hqueued (.cons hskipped (.single hagain)),
    .collect hb₃ rfl (by rw [collected]; exact exec_of_value h₄), hb₃⟩

end Sample

/-- Two batches that are skipped make the reader of a buffer lose its dependency on the work that writes
it, although that was submitted and the buffer was in use all the while. -/
theorem dependency_lost_sample :
    Action.submit 0 1 ∈ Sample.between.map (·.2) ∧
    (∀ d ∈ Sample.between.map (·.1) ++ [⟨Sample.again, [], none⟩], d.InUse 0) ∧
    Sample.numbered.job? 0 false = some (0, 1) ∧
    (⟨Sample.again, [], none⟩ : Config Bench).slot 0 = { last := 1, lastSubmit := 2 } ∧
    ∃ b, Sample.collected.batches[3]? = some b ∧
      ¬∃ d ∈ b.deps true, d.queue = 0 ∧ (1 : UInt64) ≤ d.seqnum := by
  obtain ⟨hinuse, hjob, hslot, hgathered, hbatch, hmax⟩ :
      (∀ d ∈ Sample.between.map (·.1) ++ [⟨Sample.again, [], none⟩], d.InUse 0) ∧
      Sample.numbered.job? 0 false = some (0, 1) ∧
      (⟨Sample.again, [], none⟩ : Config Bench).slot 0 = { last := 1, lastSubmit := 2 } ∧
      Sample.again.gathered 0 3 true = [⟨0, true, 3⟩] ∧
      (Sample.collected.batches[3]?).isSome = true ∧
      (⟨Sample.collected, [], none⟩ : Config Bench).progress.streams.length ≤ slotCount := by
    decide +kernel
  obtain ⟨b, hb⟩ := Option.isSome_iff_exists.mp hbatch
  obtain ⟨hfirst, hbetween, hlast, hreader⟩ := Sample.run_between
  refine ⟨List.mem_cons_self, hinuse, hjob, hslot, b, hb, fun hdep => ?_⟩
  obtain ⟨-, -, hiff⟩ := Run.dependency_iff Sample.fresh_start Sample.run_batched hfirst rfl
    (List.mem_singleton_self _) hjob hbetween hlast hreader (List.mem_singleton_self _) (.inl rfl)
    (.nil _) hb hmax
  obtain ⟨-, e, he, -, -, hle⟩ := hiff.mp hdep
  have he : e ∈ Sample.again.gathered 0 3 true := he
  rw [hgathered, List.mem_singleton] at he
  rw [hslot, he] at hle
  exact absurd hle (by decide)

end Mali
