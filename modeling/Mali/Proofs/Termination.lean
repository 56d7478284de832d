import Mali.Proofs.DeferredFree
import Mali.Proofs.Passes

/-!
# Releases after termination

Terminating a stream takes every callback off its slot and starts the progress of the slot over, but what
was submitted on the slot stays recorded.  So a terminated slot counts as busy until the GPU reports all
of that work after all, and until then it holds back every release that begins.

When a release ends is read off the slots that were bound when it began: a slot lets it go when it was
idle, or when something since took all its links up to the last submission off it.

* `Machine.Away`: a buffer is cached or freed, which nothing in a release undoes.
* `Config.Pending`, `Run.away_iff`: a release is over as soon as no callback is to come for it.
* `Action.LetsGo`, `Run.waiting_eq_zero_iff`: when no callback is to come.
* `Reported`, `Run.idle_iff_reported`: a terminated slot is idle only if the GPU reported its work since.
* `Run.away_iff_reported`: when a release after termination is over by the end of the next pass.
-/

namespace Mali

open Op

variable {κ : Type}

/-! ## Buffers that were put away -/

/-- A buffer is in the cache, or was freed. -/
def Machine.Away (m : Machine κ) (x : Nat) : Prop :=
  ∃ a ∈ m.storage.accounts[x]?, a.cachedIn ≠ none ∨ a.freed = true

instance (m : Machine κ) (x : Nat) : Decidable (m.Away x) :=
  inferInstanceAs (Decidable (∃ a ∈ m.storage.accounts[x]?, a.cachedIn ≠ none ∨ a.freed = true))

/-- A buffer that was put away stays so. -/
def StaysAway (x : Nat) (m m' : Machine κ) : Prop := m.Away x → m'.Away x

instance (x : Nat) : Journey (StaysAway (κ := κ) x) where
  refl _ h := h
  trans h h' ha := h' (h ha)

namespace StaysAway

variable {x y : Nat} {m m' : Machine κ}

theorem of_storage (h : m'.storage = m.storage) : StaysAway x m m' := by
  intro ha
  rwa [Machine.Away, h]

/-- A change of one account leaves the others away, and puts its own away if it says so. -/
theorem of_modify {f : Account → Account}
    (h : m'.storage.accounts = m.storage.accounts.modify y f)
    (hf : x = y → ∀ a, (f a).cachedIn ≠ none ∨ (f a).freed = true) : StaysAway x m m' := by
  rintro ⟨a, ha, haway⟩
  rw [Option.mem_def] at ha
  rcases eq_or_ne y x with rfl | hyx
  · exact ⟨f a, by rw [Option.mem_def, h, getElem?_modify_of_some ha, if_pos rfl], hf rfl a⟩
  · refine ⟨a, ?_, haway⟩
    rw [Option.mem_def, h, List.getElem?_modify, ha]
    simp [hyx]

end StaysAway

theorem Machine.away_of_modify {m m' : Machine κ} {x : Nat} {f : Account → Account} {a : Account}
    (ha : m.storage.accounts[x]? = some a)
    (h : m'.storage.accounts = m.storage.accounts.modify x f)
    (hf : (f a).cachedIn ≠ none ∨ (f a).freed = true) : m'.Away x :=
  ⟨f a, by rw [Option.mem_def, h, getElem?_modify_of_some ha, if_pos rfl], hf⟩

section Kernel

variable [Kernel κ]

theorem away_free {id : Nat} {m m' : Machine κ} (he : (Allocator.free id).exec m = (.ok (), m')) :
    m'.Away id ∧ ∀ x, StaysAway x m m' := by
  obtain ⟨b, hget, -, -, hstorage⟩ := free_ok he
  have haccounts := congrArg Storage.accounts hstorage
  exact ⟨Machine.away_of_modify (Machine.accounts_of_buffer hget) haccounts (.inr rfl),
    fun x => .of_modify haccounts fun _ _ => .inr rfl⟩

/-- What is evicted leaves the cache only to be freed. -/
theorem staysAway_evict (x id : Nat) : Keeps (StaysAway (κ := κ) x) (Allocator.evict id) := by
  refine (faultless_evict id).keeps fun {m m' _} he => ?_
  unfold Allocator.evict at he
  obtain ⟨_, m₁, h₁, he⟩ := bind_ok he
  obtain ⟨_, m₂, h₂, he⟩ := bind_ok he
  have hq : Quiet m₁ m₂ := Keeps.ok (by exact quiet_modifyAllocator fun _ => rfl) h₂
  obtain ⟨hfreed, hstay⟩ := away_free he
  rcases eq_or_ne x id with rfl | hx
  · exact fun _ => hfreed
  · obtain ⟨_, _, -, -, -, -, hstorage⟩ := uncache_ok h₁
    have huncache : StaysAway x m m₁ :=
      .of_modify (congrArg Storage.accounts hstorage) fun e => absurd e hx
    exact Journey.trans (Journey.trans huncache (.of_storage hq.storage)) (hstay x)

theorem staysAway_evictOld (x : Nat) : Keeps (StaysAway (κ := κ) x) Allocator.evictOld :=
  keeps_evictOld (staysAway_evict x)

/-- The end of a release puts its buffer away, and leaves away what was. -/
theorem away_finish {id : Nat} {m m' : Machine κ} (he : (Allocator.finish id).exec m = (.ok (), m')) :
    m'.Away id ∧ ∀ x, StaysAway x m m' := by
  obtain ⟨b, hget, ⟨-, hput⟩ | ⟨-, hfree⟩⟩ := finish_ok he
  · obtain ⟨m₁, m₂, henter, hold, hlabel⟩ := cachePut_ok hput
    have hq : Quiet m₂ m' := hlabel (quiet_modifyBuffer id fun _ => rfl)
    have hrest (x : Nat) : StaysAway x m₁ m' :=
      Journey.trans ((staysAway_evictOld x).ok hold) (.of_storage hq.storage)
    obtain ⟨_, -, -, -, hstorage⟩ := enterCache_ok hget henter
    have haccounts := congrArg Storage.accounts hstorage
    have hcached := Machine.away_of_modify (Machine.accounts_of_buffer hget) haccounts (.inl nofun)
    have hstay (x : Nat) : StaysAway x m m₁ := .of_modify haccounts fun _ _ => .inl nofun
    exact ⟨hrest id hcached, fun x => Journey.trans (hstay x) (hrest x)⟩
  · exact away_free hfree

theorem staysAway_runCallback {callback : Callback} {m m' : Machine κ} {u : Unit} (x : Nat)
    (he : (Device.runCallback callback).exec m = (.ok u, m')) : StaysAway x m m' := by
  cases callback with
  | report id => exact .of_storage ((keeps_report (R := Quiet) _).ok he).storage
  | release y =>
    obtain ⟨a, m₁, hy, hedit, hend⟩ := queueDrained_ok he
    have hlower : StaysAway x m m₁ := by
      rintro ⟨a', ha', haway⟩
      rcases eq_or_ne x y with rfl | hxy
      · rw [Option.mem_def, hy] at ha'
        cases ha'
        exact ⟨_, hedit.account hy, haway⟩
      · exact ⟨a', (hedit.account_of_ne hxy).trans ha', haway⟩
    rcases hend with ⟨-, rfl⟩ | ⟨-, -, m₂, hq, hf⟩
    · exact hlower
    · exact Journey.trans (Journey.trans hlower (.of_storage hq.storage)) ((away_finish hf).2 x)

/-! ## References in a pass -/

omit [Kernel κ] in
/-- Every buffer has as many references as before. -/
def SameReferences (m m' : Machine κ) : Prop :=
  m'.storage.accounts.map Account.refs = m.storage.accounts.map Account.refs

omit [Kernel κ] in
instance : Journey (SameReferences (κ := κ)) := ⟨fun _ => rfl, fun h h' => h'.trans h⟩

omit [Kernel κ] in
theorem SameReferences.of_storage {m m' : Machine κ} (h : m'.storage = m.storage) :
    SameReferences m m' := by rw [SameReferences, h]

theorem sameReferences_runCallback {callback : Callback} {m m' : Machine κ} {u : Unit}
    (he : (Device.runCallback callback).exec m = (.ok u, m')) : SameReferences m m' := by
  cases callback with
  | report id => exact .of_storage ((keeps_report (R := Quiet) _).ok he).storage
  | release x =>
    obtain ⟨a, m₁, hx, hedit, hend⟩ := queueDrained_ok he
    have hlower : SameReferences m m₁ := by
      rw [SameReferences, hedit.storage]
      exact map_modify_eq Account.refs (f := fun a => { a with gpuRefs := a.gpuRefs - 1 })
        (fun _ => rfl) m.storage.accounts x
    rcases hend with ⟨-, rfl⟩ | ⟨-, -, m₂, hq, hf⟩
    · exact hlower
    · have hfinish : SameReferences m₂ m' := by
        have := congrArg (List.map Prod.fst) (tidies_finish [] hf).counts
        rwa [List.map_map, List.map_map] at this
      exact Journey.trans (Journey.trans hlower (.of_storage hq.storage)) hfinish

/-! ## Releases that go on -/

omit [Kernel κ] in
/-- A buffer has no references. -/
def Config.Unused (c : Config κ) (x : Nat) : Prop := ∀ a ∈ c.account? x, a.refs = 0

omit [Kernel κ] in
instance (c : Config κ) (x : Nat) : Decidable (c.Unused x) :=
  inferInstanceAs (Decidable (∀ a ∈ c.account? x, a.refs = 0))

omit [Kernel κ] in
theorem Config.Unused.of_same {c c' : Config κ} {x : Nat} (hc : c.Unused x)
    (h : SameReferences c.machine c'.machine) : c'.Unused x := by
  intro a ha
  have ha : c'.machine.storage.accounts[x]? = some a := ha
  have hrefs : (c.machine.storage.accounts.map Account.refs)[x]? = some a.refs := by
    rw [← h, List.getElem?_map, ha]
    rfl
  rw [List.getElem?_map, Option.map_eq_some_iff] at hrefs
  obtain ⟨b, hb, hab⟩ := hrefs
  rw [← hab]
  exact hc b hb

omit [Kernel κ] in
/-- A buffer without references waits for callbacks, and is in no place yet. -/
structure Config.Pending (c : Config κ) (x : Nat) : Prop where
  unused : c.Unused x
  account : ∃ a ∈ c.account? x, a.cachedIn = none ∧ a.freed = false
  held : c.held ≠ some x
  waiting : c.waiting x ≠ 0

omit [Kernel κ] in
theorem Config.Pending.not_away {c : Config κ} {x : Nat} (h : c.Pending x) : ¬c.machine.Away x := by
  rintro ⟨a, ha, haway⟩
  obtain ⟨b, hb, hcached, hfreed⟩ := h.account
  have hab : some a = some b := ha.symm.trans hb
  cases hab
  simp [hcached, hfreed] at haway

variable {c c' : Config κ} {act : Action} {es : List (Config κ × Action)} {x : Nat}

/-- The last callback of a release puts its buffer away. -/
theorem Step.away_of_fire {i : Nat} {l : Link} {a : Account} (h : Step c (.fire i l) c')
    (hl : l.callback = .release x) (hx : c.account? x = some a) (hgpu : a.gpuRefs - 1 = 0)
    (hrefs : a.refs = 0) : c'.machine.Away x := by
  cases h with
  | @fire m m' i l ready he =>
    rw [hl] at he
    obtain ⟨b, m₁, hb, hedit, ⟨hgo, -⟩ | ⟨-, -, m₂, hq, hf⟩⟩ := queueDrained_ok he
    · have hx : m.storage.accounts[x]? = some a := hx
      rw [hx] at hb
      cases hb
      exact absurd ⟨hgpu, hrefs⟩ hgo
    · exact (away_finish hf).1

/-- A buffer without references is not released again. -/
theorem Step.ne_release (h : Step c act c') (hx : c.Unused x) : act ≠ .release x := by
  rintro rfl
  cases h with
  | release ha hrefs =>
    have := hx _ ha
    rw [hrefs] at this
    exact absurd this (by decide)

/-- Without a release no callback is added. -/
theorem Step.waiting_le (h : Step c act c') (hact : act ≠ .release x) : c'.waiting x ≤ c.waiting x := by
  have := h.waiting x
  rw [if_neg hact] at this
  omega

/-- A release that goes on is over exactly when no callback is to come any more. -/
theorem Step.pending_or_away (h : Step c act c') (hs : c.progress.Sound)
    (hmax : c'.progress.streams.length ≤ slotCount) (hc : c.Counted) (hlt : c.waiting x < 2 ^ 32)
    (hx : c.Pending x) (hunused : c'.Unused x) :
    c'.Pending x ∨ (c'.machine.Away x ∧ c'.waiting x = 0) := by
  obtain ⟨a, ha, hcached, hfreed⟩ := hx.account
  have hrefs : a.refs = 0 := hx.unused a ha
  have hact := h.ne_release hx.unused
  have hwaiting := h.waiting x
  rw [if_neg hact, Nat.add_zero] at hwaiting
  have hgpu : a.gpuRefs = Int32.ofNat (c.waiting x) := by
    rw [← hc x, Machine.gpuRefs_of_account ha]
  have hlast {i : Nat} {l : Link} (hfire : act = .fire i l) (hl : l.callback = .release x)
      (hone : a.gpuRefs - 1 = 0) : c'.machine.Away x ∧ c'.waiting x = 0 := by
    subst hfire
    refine ⟨h.away_of_fire hl ha hone hrefs, ?_⟩
    rw [hgpu, Int32.ofNat_pred (Nat.pos_of_ne_zero hx.waiting)] at hone
    have := Int32.eq_zero_of_ofNat (by omega) hone
    have hfired : c'.waiting x + 1 = c.waiting x := by simpa [Action.fires, hl] using hwaiting
    omega
  rcases h.account (h.bound_lt hs hmax) ha hcached hx.held with
    ⟨a', ha', hcached', hfreed', -⟩ | ⟨hrel, -⟩ | ⟨i, l, hfire, hl, hone, -⟩
  · by_cases hnone : c'.waiting x = 0
    · -- the callback that ran was the last one
      right
      rw [hnone, Nat.zero_add] at hwaiting
      cases act with
      | fire i l =>
        have hl : l.callback = .release x := by
          by_contra hne
          have := hx.waiting
          simp [Action.fires, hne] at hwaiting
          omega
        refine hlast rfl hl ?_
        have hone : c.waiting x = 1 := by simpa [Action.fires, hl] using hwaiting.symm
        rw [hgpu, hone]
        decide
      | _ => exact absurd hwaiting.symm hx.waiting
    · exact .inl ⟨hunused, ⟨a', ha', hcached', hfreed'.trans hfreed⟩, h.held_ne ha hcached hx.held,
        hnone⟩
  · exact absurd hrel hact
  · exact .inr (hlast hfire hl hone)

namespace Run

theorem ne_release (h : Run c es c') (hunused : ∀ d ∈ es.map (·.1), d.Unused x) :
    ∀ a ∈ es.map (·.2), a ≠ .release x := by
  induction h with
  | nil => exact fun _ ha => nomatch ha
  | cons hstep _ ih =>
    exact List.forall_mem_cons.mpr ⟨hstep.ne_release (hunused _ List.mem_cons_self),
      ih fun d hd => hunused d (List.mem_cons_of_mem _ hd)⟩

theorem waiting_le_of_unused (h : Run c es c') (hunused : ∀ d ∈ es.map (·.1), d.Unused x) :
    c'.waiting x ≤ c.waiting x := by
  induction h with
  | nil => exact Nat.le_refl _
  | @cons c c₁ c' a es hstep hr ih =>
    have hrest := ih fun d hd => hunused d (List.mem_cons_of_mem _ hd)
    exact Nat.le_trans hrest (hstep.waiting_le (hstep.ne_release (hunused c List.mem_cons_self)))

/-- By induction on the run: a release that nobody undoes is over at some point if and only if no
callback is to come at the end. -/
theorem away_iff (h : Run c es c') (hs : c.progress.Sound)
    (hmax : c'.progress.streams.length ≤ slotCount) (hc : c.Counted) (hlt : c.waiting x < 2 ^ 32)
    (hx : c.Pending x) (hunused : ∀ d ∈ es.map (·.1) ++ [c'], d.Unused x) :
    (∃ d ∈ es.map (·.1) ++ [c'], d.machine.Away x) ↔ c'.waiting x = 0 := by
  induction h with
  | nil c =>
    refine iff_of_false ?_ hx.waiting
    rintro ⟨d, hd, haway⟩
    obtain rfl := List.mem_singleton.mp hd
    exact hx.not_away haway
  | @cons c c₁ c' a es hstep hr ih =>
    have hmax' := Nat.le_trans hr.length_streams_le hmax
    have hs₁ := hstep.sound hs hmax'
    have hunused' : ∀ d ∈ es.map (·.1) ++ [c'], d.Unused x := fun d hd =>
      hunused d (List.mem_cons_of_mem _ hd)
    have hle := hstep.waiting_le (hstep.ne_release hx.unused)
    rcases hstep.pending_or_away hs hmax' hc hlt hx (hunused' c₁ hr.head_mem) with hx₁ | ⟨haway, hzero⟩
    · rw [← ih hs₁ hmax (hstep.counted hs hmax' hc) (Nat.lt_of_le_of_lt hle hlt) hx₁ hunused']
      constructor
      · rintro ⟨d, hd, haway⟩
        rcases List.mem_cons.mp hd with rfl | hd
        · exact absurd haway hx.not_away
        · exact ⟨d, hd, haway⟩
      · rintro ⟨d, hd, haway⟩
        exact ⟨d, List.mem_cons_of_mem _ hd, haway⟩
    · refine iff_of_true ⟨c₁, List.mem_cons_of_mem _ hr.head_mem, haway⟩ ?_
      have := hr.waiting_le_of_unused fun d hd => hunused' d (List.mem_append_left _ hd)
      omega

end Run

/-! ## Slots that let go -/

/-- What takes every link that waits for less than a number off a slot. -/
def Action.LetsGo (i : Nat) (n : UInt64) : Action → Prop
  | .advance j k | .update j k => j = i ∧ n ≤ k
  | .terminate j => j = i
  | _ => False

omit [Kernel κ] in
theorem EventSlot.le_advance_last_of_le {s : EventSlot} {n k : UInt64} (hk : n ≤ k)
    (hn : n ≤ s.lastSubmit) : n ≤ (s.advance k).2.last := by
  unfold advance
  split
  · rename_i hback
    have hlt : k < s.last := by simpa [isBackward] using hback
    exact UInt64.le_trans hk (UInt64.le_of_lt hlt)
  · show n ≤ s.limit k
    unfold limit
    split
    · exact hn
    · exact hk

/-- After a slot has let go only later links are left. -/
theorem Step.le_of_letsGo (h : Step c act c') (hs : c.progress.Sound)
    (hmax : c'.progress.streams.length ≤ slotCount) {i : Nat} {n : UInt64} (hact : act.LetsGo i n)
    (hn : n ≤ (c.slot i).lastSubmit) : ∀ l ∈ (c'.slot i).links, n ≤ l.seqnum := by
  intro l hl
  have hslots := (h.sound hs hmax).slots
  have hslot := h.slot hs hmax i
  cases act with
  | advance j k =>
    obtain ⟨rfl, hk⟩ := hact
    have hlast := ((hslots.started _ (hslots.lt_of_mem_links hl)).pending l hl).1
    have hle := EventSlot.le_advance_last_of_le hk hn
    rw [Action.act, if_pos rfl] at hslot
    rw [← hslot] at hle
    exact UInt64.le_trans hle hlast
  | update j k =>
    obtain ⟨rfl, hk⟩ := hact
    rw [Action.act, if_pos rfl] at hslot
    rw [hslot] at hl
    have hmem := (List.dropWhile_sublist _).subset hl
    have hordered := (hs.slots.started _ (hs.slots.lt_of_mem_links hmem)).ordered
    exact UInt64.le_trans hk (EventSlot.le_of_mem_dropWhile hordered hl)
  | terminate j =>
    obtain rfl : j = i := hact
    rw [Action.act, if_pos rfl] at hslot
    rw [hslot] at hl
    have hl : l ∈ (c.slot j).links.dropWhile (EventSlot.passed Device.endOfTime) := hl
    have hmem := (List.dropWhile_sublist _).subset hl
    have hnone := (hs.slots.started _ (hs.slots.lt_of_mem_links hmem)).take_max.2
    rw [show (c.slot j).links.dropWhile (EventSlot.passed Device.endOfTime) = [] from hnone] at hl
    exact absurd hl List.not_mem_nil
  | _ => exact hact.elim

/-- Only a release puts links for a buffer on the slots. -/
theorem Step.mem_links_of_mem (h : Step c act c') (hs : c.progress.Sound)
    (hmax : c'.progress.streams.length ≤ slotCount) (hact : act ≠ .release x) {i : Nat} {l : Link}
    (hl : l ∈ (c'.slot i).links) (hx : l.callback = .release x) : l ∈ (c.slot i).links := by
  have hmem : l ∈ (c.slot i).links ++ act.registers c.progress i := by
    rw [h.links hs hmax i]
    exact List.mem_append_right _ hl
  rcases List.mem_append.mp hmem with hold | hnew
  · exact hold
  · unfold Action.registers at hnew
    split at hnew
    · rename_i callback hcallback
      split at hnew
      · rw [List.mem_singleton] at hnew
        rw [hnew] at hx
        obtain rfl : callback = .release x := hx
        cases act with
        | release y =>
          cases hcallback
          exact absurd rfl hact
        | await id => cases hcallback
        | _ => cases hcallback
      · exact absurd hnew List.not_mem_nil
    · exact absurd hnew List.not_mem_nil

/-- A link for the last submission stays until its slot lets go. -/
theorem Step.mem_links_or_letsGo (h : Step c act c') (hs : c.progress.Sound)
    (hmax : c'.progress.streams.length ≤ slotCount) {i : Nat} {n : UInt64} {l : Link} (hn : 1 ≤ n)
    (hseq : l.seqnum = n - 1) (hl : l ∈ (c.slot i).links) :
    l ∈ (c'.slot i).links ∨ act.LetsGo i n := by
  have hmem : l ∈ linksOn i (act.takes c.progress) ++ (c'.slot i).links := by
    rw [← h.links hs hmax i]
    exact List.mem_append_left _ hl
  rcases List.mem_append.mp hmem with htaken | hstay
  · right
    have hpassed {k : UInt64} {ls : List Link} (hlt : l ∈ ls.takeWhile (EventSlot.passed k)) :
        n ≤ k := by
      have := EventSlot.passed_of_mem_takeWhile hlt
      rw [hseq] at this
      exact UInt64.le_of_pred_lt hn this
    cases act with
    | advance j k =>
      rw [Action.takes, linksOn_map] at htaken
      split at htaken
      · rename_i hij
        refine ⟨hij.symm, ?_⟩
        unfold EventSlot.advanced at htaken
        split at htaken
        · exact absurd htaken List.not_mem_nil
        · have hle := hpassed htaken
          unfold EventSlot.limit at hle
          split at hle
          · exact UInt64.le_trans hle (UInt64.le_of_lt ‹_›)
          · exact hle
      · exact absurd htaken List.not_mem_nil
    | update j k =>
      rw [Action.takes, linksOn_map] at htaken
      split at htaken
      · rename_i hij
        exact ⟨hij.symm, hpassed htaken⟩
      · exact absurd htaken List.not_mem_nil
    | terminate j =>
      rw [Action.takes, linksOn_map] at htaken
      split at htaken
      · rename_i hij
        exact hij.symm
      · exact absurd htaken List.not_mem_nil
    | _ => exact absurd htaken List.not_mem_nil
  · exact .inl hstay

namespace Run

/-- By induction on the run: what is on a slot at the end was there at the start. -/
theorem mem_links_of_mem (h : Run c es c') (hs : c.progress.Sound)
    (hmax : c'.progress.streams.length ≤ slotCount) (hact : ∀ a ∈ es.map (·.2), a ≠ .release x)
    {i : Nat} {l : Link} (hl : l ∈ (c'.slot i).links) (hx : l.callback = .release x) :
    l ∈ (c.slot i).links := by
  induction h with
  | nil => exact hl
  | cons hstep hr ih =>
    have hmax' := Nat.le_trans hr.length_streams_le hmax
    have hmid := ih (hstep.sound hs hmax') hmax (fun a ha => hact a (List.mem_cons_of_mem _ ha)) hl
    exact hstep.mem_links_of_mem hs hmax' (hact _ List.mem_cons_self) hmid hx

theorem mem_links_or_letsGo (h : Run c es c') (hs : c.progress.Sound)
    (hmax : c'.progress.streams.length ≤ slotCount) {i : Nat} {n : UInt64} {l : Link} (hn : 1 ≤ n)
    (hseq : l.seqnum = n - 1) (hl : l ∈ (c.slot i).links) :
    l ∈ (c'.slot i).links ∨ ∃ a ∈ es.map (·.2), a.LetsGo i n := by
  induction h with
  | nil => exact .inl hl
  | cons hstep hr ih =>
    have hmax' := Nat.le_trans hr.length_streams_le hmax
    rcases hstep.mem_links_or_letsGo hs hmax' hn hseq hl with hstay | hact
    · rcases ih (hstep.sound hs hmax') hmax hstay with hstay | ⟨a, ha, hact⟩
      · exact .inl hstay
      · exact .inr ⟨a, List.mem_cons_of_mem _ ha, hact⟩
    · exact .inr ⟨_, List.mem_cons_self, hact⟩

/-- By induction on the run: once a slot has let go, only later links for a buffer are left. -/
theorem le_of_letsGo (h : Run c es c') (hs : c.progress.Sound)
    (hmax : c'.progress.streams.length ≤ slotCount) (hact : ∀ a ∈ es.map (·.2), a ≠ .release x)
    {i : Nat} {n : UInt64} (hn : n ≤ (c.slot i).lastSubmit) (hgo : ∃ a ∈ es.map (·.2), a.LetsGo i n)
    {l : Link} (hl : l ∈ (c'.slot i).links) (hx : l.callback = .release x) : n ≤ l.seqnum := by
  induction h with
  | nil =>
    obtain ⟨a, ha, -⟩ := hgo
    exact absurd ha List.not_mem_nil
  | cons hstep hr ih =>
    have hmax' := Nat.le_trans hr.length_streams_le hmax
    have hs₁ := hstep.sound hs hmax'
    have hact' : ∀ a ∈ _, a ≠ Action.release x := fun a ha => hact a (List.mem_cons_of_mem _ ha)
    obtain ⟨a, ha, hgo⟩ := hgo
    rcases List.mem_cons.mp ha with rfl | ha
    · exact hstep.le_of_letsGo hs hmax' hgo hn l (hr.mem_links_of_mem hs₁ hmax hact' hl hx)
    · exact ih hs₁ hmax hact' (UInt64.le_trans hn (hstep.lastSubmit_le hs hmax' i)) ⟨a, ha, hgo⟩ hl

end Run

/-- At the start of a release the busy slots get links, and if there are none it is over at once. -/
theorem Step.pending_or_away_of_release (h : Step c (.release x) c') (hs : c.progress.Sound)
    (hmax : c'.progress.streams.length ≤ slotCount) {a : Account} (hx : c.account? x = some a)
    (hcached : a.cachedIn = none) (hfreed : a.freed = false) :
    (c.progress.slots.busy c.progress.bound = 0 ∧ c'.machine.Away x) ∨
      (c.progress.slots.busy c.progress.bound ≠ 0 ∧ c'.Pending x) := by
  have hwaiting := h.waiting x
  cases h with
  | @release m m' _ b hb hrefs he =>
    have hx : m.storage.accounts[x]? = some a := hx
    obtain ⟨m₁, hm₁, ⟨hbusy, rfl⟩ | ⟨hbusy, m₂, -, hf⟩⟩ := unreference_last hb hrefs he
    · right
      rw [hx] at hb
      cases hb
      have hat : m'.storage.accounts[x]? = some { a with
          refs := a.refs - 1
          gpuRefs := a.gpuRefs + Int32.ofNat (m.progress.slots.busy m.progress.bound)
          usage := [] } := by
        rw [hm₁.storage, getElem?_modify_of_some hx, if_pos rfl]
      refine ⟨hbusy, ?_, ⟨_, hat, hcached, hfreed⟩, nofun, ?_⟩
      · intro b hb
        have hb : m'.storage.accounts[x]? = some b := hb
        rw [hat] at hb
        cases hb
        rw [hrefs]
        rfl
      · rw [if_pos rfl] at hwaiting
        have hbusy : (⟨m, [], none⟩ : Config κ).progress.slots.busy m.progress.bound ≠ 0 := hbusy
        have hnofire : ((Action.release x).fires.map (·.2.callback)).count (.release x) = 0 := rfl
        rw [hnofire, Nat.add_zero] at hwaiting
        rw [hwaiting]
        intro hzero
        exact hbusy (Nat.eq_zero_of_add_eq_zero_left hzero)
    · exact .inl ⟨hbusy, (away_finish hf).1⟩

/-- When no callback is to come for a release any more: every slot that was bound when it began was idle,
or has let go since. -/
theorem Run.waiting_eq_zero_iff {c₁ c₂ : Config κ} (hrelease : Step c₁ (.release x) c₂)
    (h : Run c₂ es c') (hs : c₁.progress.Sound) (hmax : c'.progress.streams.length ≤ slotCount)
    (hact : ∀ a ∈ es.map (·.2), a ≠ .release x) (hready : c'.ready = []) :
    c'.waiting x = 0 ↔ ∀ i < c₁.progress.bound, (c₁.slot i).isIdle = true ∨
      ∃ a ∈ es.map (·.2), a.LetsGo i (c₁.slot i).lastSubmit := by
  have hmax' := Nat.le_trans h.length_streams_le hmax
  have hs₂ := hrelease.sound hs hmax'
  have hlinks : c'.waiting x = 0 ↔ ∀ i, ∀ l ∈ (c'.slot i).links, l.callback ≠ .release x := by
    rw [Config.waiting, Machine.waiting, hready, List.map_nil, List.count_nil, Nat.add_zero]
    exact SlotTable.waiting_eq_zero
  rw [hlinks]
  constructor
  · intro hnone i hi
    by_cases hidle : (c₁.slot i).isIdle = true
    · exact .inl hidle
    · have hlink := hrelease.link_of_release hs hmax' hi (Bool.not_eq_true _ ▸ hidle)
      have hn := (hs.slots.started i hi).started
      rcases h.mem_links_or_letsGo hs₂ hmax hn rfl hlink with hstay | hgo
      · exact absurd rfl (hnone i _ hstay)
      · exact .inr hgo
  · intro hgo i l hl hx
    have hl₂ := h.mem_links_of_mem hs₂ hmax hact hl hx
    have hslot := hrelease.slot hs hmax' i
    have hi : i < c₂.progress.bound := hs₂.slots.lt_of_mem_links hl₂
    have hsame : c₂.progress.bound = c₁.progress.bound := by
      rw [hrelease.progress (hrelease.bound_lt hs hmax')]
      rfl
    rw [hsame] at hi
    rw [Action.act, if_pos hi] at hslot
    have hsubmit : (c₂.slot i).lastSubmit = (c₁.slot i).lastSubmit := by
      rw [hslot, EventSlot.await_lastSubmit]
    rcases hgo i hi with hidle | hgo
    · have hnil : (c₁.slot i).links = [] := (hs.slots.started i hi).links_eq_nil hidle
      rw [hslot, EventSlot.await_links, hnil, if_pos hidle] at hl₂
      exact absurd hl₂ List.not_mem_nil
    · have hle := h.le_of_letsGo hs₂ hmax hact (UInt64.le_of_eq hsubmit.symm) hgo hl hx
      have hlt : l.seqnum < (c₂.slot i).lastSubmit :=
        ((hs₂.slots.started i (hsame ▸ hi)).pending l hl₂).2
      rw [hsubmit] at hlt
      exact absurd hlt (UInt64.not_lt.mpr hle)

/-! ## Slots of terminated streams -/

omit [Kernel κ] in
/-- A number from `n` on was reported for a slot, and its stream was not terminated since. -/
def Reported (i : Nat) (n : UInt64) (acts : List Action) : Prop :=
  ∃ before k after, acts = before ++ .advance i k :: after ∧ n ≤ k ∧ .terminate i ∉ after

omit [Kernel κ] in
/-- The stream of a slot was terminated, and no work was queued on the slot since. -/
def Terminated (i : Nat) (acts : List Action) : Prop :=
  ∃ before after, acts = before ++ .terminate i :: after ∧ ∀ n, .submit i n ∉ after

omit [Kernel κ] in
theorem Reported.cons {i : Nat} {n : UInt64} {acts : List Action} (a : Action)
    (h : Reported i n acts) : Reported i n (a :: acts) := by
  obtain ⟨before, k, after, rfl, hk, hafter⟩ := h
  exact ⟨a :: before, k, after, rfl, hk, hafter⟩

omit [Kernel κ] in
theorem Reported.append {i : Nat} {n : UInt64} {acts : List Action} (before : List Action)
    (h : Reported i n acts) : Reported i n (before ++ acts) := by
  obtain ⟨before', k, after, rfl, hk, hafter⟩ := h
  exact ⟨before ++ before', k, after, by rw [List.append_assoc], hk, hafter⟩

omit [Kernel κ] in
/-- What was reported before a termination does not count. -/
theorem Reported.of_terminate {i : Nat} {n : UInt64} {before after : List Action}
    (h : Reported i n (before ++ .terminate i :: after)) : Reported i n after := by
  obtain ⟨before', k, after', heq, hk, hafter⟩ := h
  rcases List.append_eq_append_iff.mp heq with ⟨as, -, has⟩ | ⟨as, -, has⟩
  · rcases List.cons_eq_append_iff.mp has with ⟨-, hhead⟩ | ⟨as', -, hrest⟩
    · cases hhead
    · exact ⟨as', k, after', hrest, hk, hafter⟩
  · -- the report is before the termination
    rcases List.cons_eq_append_iff.mp has with ⟨-, hhead⟩ | ⟨as', -, hrest⟩
    · cases hhead
    · rw [hrest] at hafter
      exact absurd (List.mem_append_right _ List.mem_cons_self) hafter

namespace Run

/-- By induction on the run: a slot that was bound at its start has come nowhere since it was last
terminated, or to a number that was reported since, or is still where it was. -/
theorem last_reported (h : Run c es c') (hs : c.progress.Sound)
    (hmax : c'.progress.streams.length ≤ slotCount) {i : Nat} (hi : i < c.progress.bound) :
    (c'.slot i).last = 0 ∨ Reported i (c'.slot i).last (es.map (·.2)) ∨
      ((c'.slot i).last = (c.slot i).last ∧ .terminate i ∉ es.map (·.2)) := by
  induction h with
  | nil => exact .inr (.inr ⟨rfl, List.not_mem_nil⟩)
  | @cons c c₁ c' act es hstep hr ih =>
    have hmax' := Nat.le_trans hr.length_streams_le hmax
    have hs₁ := hstep.sound hs hmax'
    have hslot := hstep.slot hs hmax' i
    have hsame {p : Prop} [Decidable p] {s : EventSlot} (h : s.last = (c.slot i).last) :
        (if p then s else c.slot i).last = (c.slot i).last := by
      split
      · exact h
      · rfl
    rcases ih hs₁ hmax (Nat.lt_of_lt_of_le hi (hstep.bound_le hs hmax')) with hzero | hreported | ⟨hkept, hnone⟩
    · exact .inl hzero
    · exact .inr (.inl (hreported.cons act))
    · -- nothing happened after the first step, which decides
      have hstay (h : (c₁.slot i).last = (c.slot i).last) (hact : act ≠ .terminate i) :
          (c'.slot i).last = (c.slot i).last ∧ .terminate i ∉ act :: es.map (·.2) := by
        refine ⟨hkept.trans h, fun hmem => ?_⟩
        rcases List.mem_cons.mp hmem with rfl | hmem
        · exact hact rfl
        · exact hnone hmem
      cases act with
      | terminate j =>
        by_cases hij : i = j
        · subst hij
          left
          rw [hkept, hslot, Action.act, if_pos rfl]
        · refine .inr (.inr (hstay ?_ fun e => hij (Action.terminate.inj e).symm))
          rw [hslot, Action.act, if_neg hij]
      | advance j k =>
        by_cases hij : i = j
        · subst hij
          by_cases hback : (c.slot i).isBackward k = true
          · refine .inr (.inr (hstay ?_ (by simp)))
            rw [hslot, Action.act, if_pos rfl, EventSlot.advance, if_pos hback]
          · refine .inr (.inl ⟨[], k, es.map (·.2), rfl, ?_, hnone⟩)
            rw [hkept, hslot, Action.act, if_pos rfl, EventSlot.advance, if_neg hback]
            show (c.slot i).limit k ≤ k
            unfold EventSlot.limit
            split
            · exact UInt64.le_of_lt ‹_›
            · exact UInt64.le_refl _
        · refine .inr (.inr (hstay ?_ (by simp)))
          rw [hslot, Action.act, if_neg hij]
      | attach =>
        refine .inr (.inr (hstay ?_ (by simp)))
        rw [hslot, Action.act, if_neg (Nat.ne_of_lt hi)]
      | release x =>
        refine .inr (.inr (hstay ?_ (by simp)))
        rw [hslot]
        exact hsame (EventSlot.await_last ..)
      | await id =>
        refine .inr (.inr (hstay ?_ (by simp)))
        rw [hslot]
        exact hsame (EventSlot.await_last ..)
      | submit j n =>
        refine .inr (.inr (hstay ?_ (by simp)))
        rw [hslot]
        exact hsame (EventSlot.submit_last ..)
      | update j n =>
        refine .inr (.inr (hstay ?_ (by simp)))
        rw [hslot]
        exact hsame (EventSlot.take_last ..)
      | _ => exact .inr (.inr (hstay (by rw [hslot]; rfl) (by simp)))

/-- What was reported for a slot is where it has come to, as far as it was submitted by then. -/
theorem le_last_of_reported (h : Run c es c') (hs : c.progress.Sound)
    (hmax : c'.progress.streams.length ≤ slotCount) {i : Nat} {n : UInt64}
    (hn : n ≤ (c.slot i).lastSubmit) (hreported : Reported i n (es.map (·.2))) :
    n ≤ (c'.slot i).last := by
  obtain ⟨before, k, after, heq, hk, hafter⟩ := hreported
  obtain ⟨es₁, es', rfl, rfl, hes'⟩ := List.map_eq_append_iff.mp heq
  obtain ⟨e, es₂, rfl, he, rfl⟩ := List.map_eq_cons_iff.mp hes'
  obtain ⟨d, h₁, h₂⟩ := h.split
  have hs₁ := h₁.sound hs (Nat.le_trans h₂.length_streams_le hmax)
  have hsubmit := h₁.lastSubmit_le hs (Nat.le_trans h₂.length_streams_le hmax) i
  cases h₂ with
  | @cons _ d₁ _ act _ hstep hr =>
    obtain rfl : act = .advance i k := he
    have hmax₁ := Nat.le_trans hr.length_streams_le hmax
    have hlast := EventSlot.le_advance_last_of_le hk (UInt64.le_trans hn hsubmit)
    have hslot := hstep.slot hs₁ hmax₁ i
    rw [Action.act, if_pos rfl] at hslot
    rw [← hslot] at hlast
    exact UInt64.le_trans hlast (hr.last_le (hstep.sound hs₁ hmax₁) hmax hafter)

/-- A slot whose stream was terminated is idle exactly if everything that was ever submitted on it was
reported since. -/
theorem idle_iff_reported (h : Run c es c') (hs : c.progress.Sound)
    (hmax : c'.progress.streams.length ≤ slotCount) {i : Nat} (hi : Terminated i (es.map (·.2))) :
    (c'.slot i).isIdle = true ↔ Reported i (c'.slot i).lastSubmit (es.map (·.2)) := by
  obtain ⟨before, after, heq, hafter⟩ := hi
  obtain ⟨es₁, es', rfl, rfl, hes'⟩ := List.map_eq_append_iff.mp heq
  obtain ⟨e, es₂, rfl, he, rfl⟩ := List.map_eq_cons_iff.mp hes'
  obtain ⟨d, h₁, h₂⟩ := h.split
  have hs₁ := h₁.sound hs (Nat.le_trans h₂.length_streams_le hmax)
  cases h₂ with
  | @cons _ d₁ _ act _ hstep hr =>
    obtain rfl : act = .terminate i := he
    have hmax₁ := Nat.le_trans hr.length_streams_le hmax
    have hs₂ := hstep.sound hs₁ hmax₁
    have hbound : i < d₁.progress.bound := by
      refine Nat.lt_of_lt_of_le ?_ (hstep.bound_le hs₁ hmax₁)
      cases hstep with
      | terminate hi =>
        rw [← List.mem_range]
        exact hs₁.streams ▸ hi
    have hsubmit := hr.lastSubmit_eq hs₂ hmax hbound hafter
    have hsound : (c'.slot i).Sound :=
      (hr.sound hs₂ hmax).slots.started i (Nat.lt_of_lt_of_le hbound (hr.bound_le hs₂ hmax))
    have hnotzero : (c'.slot i).lastSubmit ≠ 0 := by
      intro hzero
      have := hsound.started
      rw [hzero] at this
      exact absurd this (by decide)
    rw [List.map_append, List.map_cons]
    constructor
    · intro hidle
      have hlast : (c'.slot i).last = (c'.slot i).lastSubmit := beq_iff_eq.mp hidle
      have hcleared : (d₁.slot i).last = 0 := by
        rw [hstep.slot hs₁ hmax₁ i, Action.act, if_pos rfl]
      rcases hr.last_reported hs₂ hmax hbound with hzero | hreported | ⟨hkept, -⟩
      · exact absurd (hlast.symm.trans hzero) hnotzero
      · rw [hlast] at hreported
        exact (hreported.cons _).append _
      · exact absurd (hlast.symm.trans (hkept.trans hcleared)) hnotzero
    · intro hreported
      have hle := hr.le_last_of_reported hs₂ hmax (UInt64.le_of_eq hsubmit) hreported.of_terminate
      exact beq_iff_eq.mpr (UInt64.le_antisymm hsound.behind hle)

end Run

/-! ## Releases that begin after termination -/

namespace Pass

variable {reported : Nat → Option UInt64}

theorem letsGo_iff (h : Pass reported c es c') {i : Nat} {n : UInt64}
    (hall : ∀ k, reported i = some k → .advance i k ∈ es.map (·.2)) :
    (∃ a ∈ es.map (·.2), a.LetsGo i n) ↔ ∃ k, reported i = some k ∧ n ≤ k := by
  constructor
  · rintro ⟨a, ha, hgo⟩
    have hpass := h.acts a ha
    cases a with
    | advance j k =>
      obtain ⟨rfl, hk⟩ := hgo
      exact ⟨k, hpass, hk⟩
    | update j k => exact hpass.elim
    | terminate j => exact hpass.elim
    | _ => exact hgo.elim
  · rintro ⟨k, hk, hle⟩
    exact ⟨.advance i k, hall k hk, rfl, hle⟩

theorem unused (h : Pass reported c es c') (hx : c.Unused x) :
    ∀ d ∈ es.map (·.1) ++ [c'], d.Unused x := by
  obtain ⟨hend, hmid⟩ := h.relate (R := SameReferences) SameReferences.of_storage
    sameReferences_runCallback
  intro d hd
  rcases List.mem_append.mp hd with hd | hd
  · exact hx.of_same (hmid d hd).1
  · obtain rfl := List.mem_singleton.mp hd
    exact hx.of_same hend

/-- What a pass puts away is away at its end. -/
theorem away_iff (h : Pass reported c es c') :
    (∃ d ∈ es.map (·.1) ++ [c'], d.machine.Away x) ↔ c.machine.Away x ∨ c'.machine.Away x := by
  obtain ⟨-, hmid⟩ := h.relate (R := StaysAway x) StaysAway.of_storage (staysAway_runCallback x)
  constructor
  · rintro ⟨d, hd, haway⟩
    right
    rcases List.mem_append.mp hd with hd | hd
    · exact (hmid d hd).2 haway
    · rwa [← List.mem_singleton.mp hd]
  · rintro (haway | haway)
    · exact ⟨c, h.run.head_mem, haway⟩
    · exact ⟨c', List.mem_append_right _ (List.mem_singleton_self c'), haway⟩

end Pass

/-- Along every run from a fresh device on which at most 256 streams are attached: if every stream was
terminated, and nothing was queued on its slot since, when the last reference to a buffer goes, and nobody
takes a reference again, then the buffer is in the cache or freed at the latest after the next pass if and
only if for every slot the GPU has reported, since the termination or in that pass, everything that was
ever submitted on it; other ways to let go are a report by hand and a second termination.

So a terminated stream holds back every later release until work is reported on it that was given up with
the stream. -/
theorem Run.away_iff_reported {m m₃ m₄ : Machine κ} {c₁ c₂ : Config κ}
    {es₁ es₂ : List (Config κ × Action)} {a : Account} {fine : Bool} (hfresh : Fresh m)
    (hbefore : Run ⟨m, [], none⟩ es₁ c₁)
    (hterminated : ∀ i < c₁.progress.bound, Terminated i (es₁.map (·.2)))
    (hrelease : Step c₁ (.release x) c₂) (hx : c₁.account? x = some a) (hcached : a.cachedIn = none)
    (hfreed : a.freed = false) (hafter : Run c₂ es₂ ⟨m₃, [], none⟩)
    (hunused : ∀ d ∈ es₂.map (·.1) ++ [⟨m₃, [], none⟩], d.Unused x)
    (hpass : Device.handleEvents.exec m₃ = (.ok fine, m₄))
    (hmax : m₃.progress.streams.length ≤ slotCount) (hcount : c₂.waiting x < 2 ^ 32) :
    (∃ d ∈ es₂.map (·.1) ++ [⟨m₃, [], none⟩, ⟨m₄, [], none⟩], d.machine.Away x) ↔
      ∀ i < c₁.progress.bound,
        Reported i (c₁.slot i).lastSubmit (es₁.map (·.2)) ∨
        (∃ act ∈ es₂.map (·.2), act.LetsGo i (c₁.slot i).lastSubmit) ∨
        ∃ n, m₃.reported? i = some n ∧ (c₁.slot i).lastSubmit ≤ n := by
  have hmax₂ := Nat.le_trans hafter.length_streams_le hmax
  have hmax₁ := Nat.le_trans (Run.length_streams_le (.single hrelease)) hmax₂
  have hs₁ := hbefore.sound hfresh.sound hmax₁
  have hs₂ := hrelease.sound hs₁ hmax₂
  have hs₃ := hafter.sound hs₂ hmax
  have hcsf : m₃.progress.generation = .csf :=
    ((hbefore.append ((Run.single hrelease).append hafter)).generation).trans
      hfresh.generation
  obtain ⟨esp, hesp, hall⟩ := handleEvents_ok hcsf hpass
  have hmax₄ : (⟨m₄, [], none⟩ : Config κ).progress.streams.length ≤ slotCount := by
    rw [hesp.length_streams]
    exact hmax
  have hrun := hafter.append hesp.run
  have hunused' : ∀ d ∈ (es₂ ++ esp).map (·.1) ++ [⟨m₄, [], none⟩], d.Unused x := by
    intro d hd
    rw [List.map_append, List.append_assoc] at hd
    rcases List.mem_append.mp hd with hd | hd
    · exact hunused d (List.mem_append_left _ hd)
    · exact hesp.unused (hunused _ (List.mem_append_right _ (List.mem_singleton_self _))) d hd
  -- the slots that were idle when the release began are those whose work was reported
  have hidle : ∀ i < c₁.progress.bound,
      ((c₁.slot i).isIdle = true ↔ Reported i (c₁.slot i).lastSubmit (es₁.map (·.2))) := fun i hi =>
    hbefore.idle_iff_reported hfresh.sound hmax₁ (hterminated i hi)
  -- in the pass a slot lets go if its record says so
  have hgo : ∀ i < c₁.progress.bound, ((∃ act ∈ (es₂ ++ esp).map (·.2),
      act.LetsGo i (c₁.slot i).lastSubmit) ↔ (∃ act ∈ es₂.map (·.2),
        act.LetsGo i (c₁.slot i).lastSubmit) ∨
        ∃ n, m₃.reported? i = some n ∧ (c₁.slot i).lastSubmit ≤ n) := by
    intro i hi
    have hi₃ : i < m₃.progress.bound :=
      Nat.lt_of_lt_of_le hi (Nat.le_trans (hrelease.bound_le hs₁ hmax₂) (hafter.bound_le hs₂ hmax))
    rw [List.map_append, ← hesp.letsGo_iff (hall i hi₃)]
    simp only [List.mem_append, or_and_right, exists_or]
  have hputAway : (∃ d ∈ es₂.map (·.1) ++ [⟨m₃, [], none⟩, ⟨m₄, [], none⟩], d.machine.Away x) ↔
      ∃ d ∈ (es₂ ++ esp).map (·.1) ++ [⟨m₄, [], none⟩], d.machine.Away x := by
    rw [List.map_append, List.append_assoc]
    simp only [List.mem_append, or_and_right, exists_or]
    have hpassed := hesp.away_iff (x := x)
    simp only [List.mem_append, or_and_right, exists_or] at hpassed
    rw [hpassed]
    simp
  rw [hputAway]
  have hacts : ∀ act ∈ (es₂ ++ esp).map (·.2), act ≠ .release x :=
    hrun.ne_release fun d hd => hunused' d (List.mem_append_left _ hd)
  rcases hrelease.pending_or_away_of_release hs₁ hmax₂ hx hcached hfreed with
    ⟨hbusy, haway⟩ | ⟨-, hpending⟩
  · refine iff_of_true ⟨c₂, hrun.head_mem, haway⟩ fun i hi => .inl ((hidle i hi).mp ?_)
    exact SlotTable.isIdle_of_not_busy hbusy hi (Nat.lt_of_lt_of_le hi hs₁.slots.bound_le)
  · have hcounted : c₂.Counted :=
      ((hbefore.append (.single hrelease)).sound_invariant (I := Config.Counted)
        (fun _ _ _ h hs hs' hc => h.counted hs (hs'.length_streams ▸ hs'.slots.bound_le) hc)
        hfresh.sound hmax₂ hfresh.counted).2
    rw [hrun.away_iff hs₂ hmax₄ hcounted hcount hpending hunused',
      Run.waiting_eq_zero_iff hrelease hrun hs₁ hmax₄ hacts rfl]
    refine forall_congr' fun i => forall_congr' fun hi => ?_
    rw [hidle i hi, hgo i hi]

end Kernel

namespace Sample

-- a table of 256 slots is evaluated
set_option maxRecDepth 20000

/-- The busy stream was terminated. -/
def stopped : Machine Bench := ((Device.clearSlot 0).exec busy).2

/-- The other stream was terminated, too. -/
def halted : Machine Bench := ((Device.clearSlot 1).exec stopped).2

/-- The only reference to the buffer went after that. -/
def dropped : Machine Bench := ((Buffer.unreference 0).exec halted).2

/-- The GPU had done a part of the work when the stream was terminated, and its record says so. -/
def written : Machine Bench := { dropped with memory := dropped.memory.setWord 0x1000 3 }

/-- Events were handled once more. -/
def handled : Machine Bench := (Device.handleEvents.exec written).2

/-- The steps up to the second termination. -/
def halting : List (Config Bench × Action) :=
  submission ++ [(⟨busy, [], none⟩, .terminate 0), (⟨stopped, [], none⟩, .terminate 1)]

theorem run_halted : Run ⟨start, [], none⟩ halting ⟨halted, [], none⟩ := by
  have hstop : Step ⟨busy, [], none⟩ (.terminate 0) ⟨stopped, [], none⟩ := by
    have htakes : [] ++ (Action.terminate 0).takes busy.progress = [] := by decide
    exact htakes ▸ .terminate (by decide) (exec_of_value (a := []) (by decide))
  have hhalt : Step ⟨stopped, [], none⟩ (.terminate 1) ⟨halted, [], none⟩ := by
    have htakes : [] ++ (Action.terminate 1).takes stopped.progress = [] := by decide
    exact htakes ▸ .terminate (by decide) (exec_of_value (a := []) (by decide))
  exact run_busy.append (.cons hstop (.single hhalt))

theorem step_dropped : Step ⟨halted, [], none⟩ (.release 0) ⟨dropped, [], none⟩ :=
  .release (a := { handle := 0, refs := 1 }) (by decide) rfl
    (exec_of_value (a := ()) (by decide))

theorem run_written : Run ⟨dropped, [], none⟩ [(⟨dropped, [], none⟩, .other)] ⟨written, [], none⟩ := by
  have hquiet (m : Machine Bench) (memory : Memory) : Quiet m { m with memory } := .of_eq rfl rfl rfl
  exact .single (.quiet (hquiet dropped _))

theorem exec_handled : Device.handleEvents.exec written = (.ok true, handled) :=
  exec_of_value (by cbv)

end Sample

set_option maxRecDepth 20000 in
/-- A buffer is released after both streams were terminated.  The record of the first slot says that a part
of its work was done, and never will say more, so the buffer is held back. -/
theorem held_back_sample :
    (⟨Sample.halted, [], none⟩ : Config Bench).slot 0 = { last := 0, lastSubmit := 6 } ∧
    Sample.written.reported? 0 = some 3 ∧
    ¬∃ d ∈ [(⟨Sample.dropped, [], none⟩ : Config Bench), ⟨Sample.written, [], none⟩,
      ⟨Sample.handled, [], none⟩], d.machine.Away 0 := by
  have hslot : (⟨Sample.halted, [], none⟩ : Config Bench).slot 0 = { last := 0, lastSubmit := 6 } := by
    decide
  have hreported : Sample.written.reported? 0 = some 3 := by cbv
  have hbound : (⟨Sample.halted, [], none⟩ : Config Bench).progress.bound = 2 := by decide
  have hsplit : Sample.halting.map (·.2) =
      Sample.submission.map (·.2) ++ [.terminate 0, .terminate 1] := rfl
  have hterminated : ∀ i < (⟨Sample.halted, [], none⟩ : Config Bench).progress.bound,
      Terminated i (Sample.halting.map (·.2)) := by
    intro i hi
    rw [hbound] at hi
    obtain rfl | rfl : i = 0 ∨ i = 1 := by omega
    · exact ⟨Sample.submission.map (·.2), [.terminate 1], hsplit, by simp⟩
    · exact ⟨Sample.submission.map (·.2) ++ [.terminate 0], [], hsplit, by simp⟩
  have hcount := (Sample.run_halted.append (.single Sample.step_dropped)).waiting_le
    Sample.fresh_start.sound (by decide) 0
  rw [Sample.fresh_start.waiting] at hcount
  have haway := Run.away_iff_reported Sample.fresh_start Sample.run_halted hterminated
    Sample.step_dropped (a := { handle := 0, refs := 1 }) (by decide) rfl rfl Sample.run_written
    (by decide) Sample.exec_handled (by decide) (Nat.lt_of_le_of_lt hcount (by decide))
  refine ⟨hslot, hreported, fun h => ?_⟩
  rcases haway.mp h 0 (by decide) with hold | ⟨act, hact, hgo⟩ | ⟨n, hn, hle⟩
  · -- nothing was reported after the termination
    rw [hsplit] at hold
    obtain ⟨before, k, after, heq, -, -⟩ := hold.of_terminate
    have hmem : Action.advance 0 k ∈ [Action.terminate 1] := heq ▸ by simp
    simp at hmem
  · obtain rfl := List.mem_singleton.mp hact
    exact hgo
  · obtain rfl : 3 = n := Option.some.inj (hreported.symm.trans hn)
    rw [hslot] at hle
    exact absurd hle (by decide)

end Mali
