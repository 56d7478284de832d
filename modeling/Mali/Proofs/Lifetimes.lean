import Mali.Proofs.Ledger

/-!
# The life of a buffer in the journal

A buffer that was not imported is handed out, released and put away, maybe many times over, and freed at the end.
The journal has a line for each of these.  What it says of one buffer is therefore a part of a lifetime: rounds of
`alloc`, `free` and the end of the release, and `memfree` after the last of them.

* `Stage`: how far the life of a buffer has come, and `Stage.Suits`: what its account looks like then.
* `Stage.Told`: what the journal says of a buffer up to a stage.
* `lifetime`: what it says of a whole life, and `Stage.Told.lifetime`: that it begins so.
* `Line`: a line of the journal with the buffer that it is about, and `Line.names`: what the lines say of a buffer.
-/

namespace Mali

/-- How far the life of a buffer has come. -/
inductive Stage where
  /-- It is made, and about to be handed out for the first time. -/
  | new
  /-- It was handed out. -/
  | used
  /-- Its last reference went, and queues are busy that were busy then. -/
  | released
  /-- Its release is over, and it is cached or about to be handed out again. -/
  | spare
  /-- It was freed. -/
  | gone
  deriving DecidableEq

namespace Stage

/-- What the account of a buffer looks like in a stage, given how many callbacks are to come for it and whether it is
held. -/
structure Suits (q : Stage) (a : Account) (waiting : Nat) (held : Prop) : Prop where
  refs : q ≠ used → a.refs = 0
  gpuRefs : a.gpuRefs = Int32.ofNat waiting
  waits : 0 < waiting ↔ q = released
  /-- A release waits for the busy slots only. -/
  few : waiting ≤ slotCount
  cached : a.cachedIn ≠ none ↔ q = spare ∧ ¬held
  freed : a.freed = true ↔ q = gone
  made : q = new → held
  held : held → q = new ∨ q = spare

/-- What the journal says of a buffer up to a stage, oldest first. -/
inductive Told : List String → Stage → Prop
  | new : Told [] new
  | alloc {names : List String} {q : Stage} (h : Told names q) (hq : q = .new ∨ q = spare) :
    Told (names ++ ["alloc"]) used
  | free {names : List String} (h : Told names used) : Told (names ++ ["free"]) released
  | immfree {names : List String} (h : Told names released) : Told (names ++ ["immfree"]) spare
  | gpufree {names : List String} (h : Told names released) : Told (names ++ ["gpufree"]) spare
  | memfree {names : List String} (h : Told names spare) : Told (names ++ ["memfree"]) gone

end Stage

/-- What the journal says of some rounds, given how each release ended. -/
def rounds (ends : List String) : List String := ends.flatMap fun e => ["alloc", "free", e]

/-- What the journal says of a whole life. -/
def lifetime (ends : List String) : List String := rounds ends ++ ["memfree"]

theorem rounds_append (ends : List String) (e : String) :
    rounds (ends ++ [e]) = rounds ends ++ ["alloc", "free", e] := by
  simp [rounds]

/-- The two ways in which a release ends. -/
def Ending (e : String) : Prop := e = "immfree" ∨ e = "gpufree"

namespace Stage

/-- What is told up to a stage, in terms of the rounds that are over. -/
def Shape (ends names : List String) : Stage → Prop
  | new => ends = [] ∧ names = []
  | used => names = rounds ends ++ ["alloc"]
  | released => names = rounds ends ++ ["alloc", "free"]
  | spare => ends ≠ [] ∧ names = rounds ends
  | gone => ends ≠ [] ∧ names = lifetime ends

namespace Told

variable {names : List String} {q : Stage}

theorem shape (h : Told names q) : ∃ ends, (∀ e ∈ ends, Ending e) ∧ q.Shape ends names := by
  -- a release that ends makes one round more
  have hround {ends names : List String} {e : String} (hends : ∀ e ∈ ends, Ending e) (he : Ending e)
      (hnames : names = rounds ends ++ ["alloc", "free"]) :
      ∃ ends, (∀ e ∈ ends, Ending e) ∧ spare.Shape ends (names ++ [e]) := by
    refine ⟨ends ++ [e], fun e' he' => ?_, by simp, ?_⟩
    · rcases List.mem_append.mp he' with he' | he'
      · exact hends e' he'
      · rwa [List.mem_singleton.mp he']
    · rw [rounds_append, hnames, List.append_assoc]
      rfl
  induction h with
  | new => exact ⟨[], nofun, rfl, rfl⟩
  | alloc _ hq ih =>
    obtain ⟨ends, hends, hshape⟩ := ih
    rcases hq with rfl | rfl
    · obtain ⟨rfl, rfl⟩ := hshape
      exact ⟨[], nofun, rfl⟩
    · obtain ⟨-, rfl⟩ := hshape
      exact ⟨ends, hends, rfl⟩
  | free _ ih =>
    obtain ⟨ends, hends, hnames⟩ := ih
    refine ⟨ends, hends, ?_⟩
    rw [show _ = rounds ends ++ ["alloc"] from hnames, Shape, List.append_assoc]
    rfl
  | immfree _ ih =>
    obtain ⟨ends, hends, hnames⟩ := ih
    exact hround hends (.inl rfl) hnames
  | gpufree _ ih =>
    obtain ⟨ends, hends, hnames⟩ := ih
    exact hround hends (.inr rfl) hnames
  | memfree _ ih =>
    obtain ⟨ends, hends, hne, rfl⟩ := ih
    exact ⟨ends, hends, hne, rfl⟩

/-- What the journal says of a buffer is how a lifetime begins. -/
theorem lifetime (h : Told names q) :
    ∃ ends, ends ≠ [] ∧ (∀ e ∈ ends, Ending e) ∧ names <+: Mali.lifetime ends := by
  obtain ⟨ends, hends, hshape⟩ := h.shape
  -- a round that has begun may end in any way
  have hmore : ends ++ ["immfree"] ≠ [] ∧ ∀ e ∈ ends ++ ["immfree"], Ending e := by
    refine ⟨by simp, fun e he => ?_⟩
    rcases List.mem_append.mp he with he | he
    · exact hends e he
    · exact .inl (List.mem_singleton.mp he)
  have hword : Mali.lifetime (ends ++ ["immfree"]) = rounds ends ++ ["alloc", "free", "immfree", "memfree"] := by
    rw [Mali.lifetime, rounds_append, List.append_assoc]
    rfl
  cases q with
  | new =>
    obtain ⟨-, rfl⟩ := hshape
    exact ⟨_, hmore.1, hmore.2, List.nil_prefix⟩
  | used =>
    refine ⟨_, hmore.1, hmore.2, ?_⟩
    rw [show names = _ from hshape, hword]
    exact ⟨["free", "immfree", "memfree"], by simp⟩
  | released =>
    refine ⟨_, hmore.1, hmore.2, ?_⟩
    rw [show names = _ from hshape, hword]
    exact ⟨["immfree", "memfree"], by simp⟩
  | spare =>
    obtain ⟨hne, rfl⟩ := hshape
    exact ⟨ends, hne, hends, List.prefix_append _ _⟩
  | gone =>
    obtain ⟨hne, rfl⟩ := hshape
    exact ⟨ends, hne, hends, List.prefix_refl _⟩

theorem memfree_mem_iff (h : Told names q) : "memfree" ∈ names ↔ q = gone := by
  induction h with
  | new => simp
  | alloc _ hq ih =>
    rcases hq with rfl | rfl
    · simp [ih]
    · simp [ih]
  | free _ ih => simp [ih]
  | immfree _ ih => simp [ih]
  | gpufree _ ih => simp [ih]
  | memfree => simp

/-- Something is told of a buffer that was handed out once. -/
theorem ne_nil (h : Told names q) (hq : q ≠ .new) : names ≠ [] := by
  cases h <;> simp_all

end Told

end Stage

/-! ## Lines -/

/-- A line of the journal, and the buffer that it is about if it is not about an import. -/
structure Line where
  buffer : Option Nat
  event : BufferEvent

namespace Line

/-- What lines say of a buffer, oldest first.  Of the lines the newest is the first. -/
def names (x : Nat) (ls : List Line) : List String :=
  ((ls.filter fun l => l.buffer = some x).map (·.event.name)).reverse

variable {x : Nat} {l : Line} {ls ls' : List Line}

@[simp] theorem names_nil : names x [] = [] := rfl

theorem names_append : names x (ls' ++ ls) = names x ls ++ names x ls' := by
  simp [names]

theorem names_eq_nil (h : ∀ l ∈ ls, l.buffer ≠ some x) : names x ls = [] := by
  simpa [names, List.filter_eq_nil_iff] using h

theorem names_cons_self {e : BufferEvent} : names x (⟨some x, e⟩ :: ls) = names x ls ++ [e.name] := by
  simp [names]

end Line

end Mali
