import Mali.Device.Stream
import Mali.Kernel.Bench
import Mali.Proofs.Collecting

/-!
# Runs of a command stream device

A call of the library goes on in steps, and between two of them the callbacks that it took off a slot
wait for their turn, and a buffer that left the cache, or is new, waits to be handed out.  A
configuration is a machine together with these.

Each step is an execution of one of the operations that touch a slot, a buffer or the dependencies of a
batch; everything else is a quiet step, so the kernel, the clock and the event records may do what they
like at any time.  The steps follow each other in any order that keeps a call together: callbacks that
were taken run before anything but more of them is taken, and a buffer is handed out before another is.

* `Config`, `Action`, `Step`: one step, and what it does to the slots.
* `Run`: steps one after the other, with a record of them.
* `Fresh`: a command stream device and an allocator that were just made.
* `Vacant`: the same for a device of any kind.
* `Effect`, `Step.effect`: what a step comes to on the accounts, the slots and the batches.
* `Action.move`, `Action.takes`, `Step.progress`, `Step.ready`: what a step does to slots and callbacks.
* `Run.sound`: the slots are sound all along.
-/

namespace Mali

open Op

/-- A machine in the middle of a call. -/
structure Config (κ : Type) where
  machine : Machine κ
  /-- Callbacks that were taken off a slot and did not run yet, with the slot. -/
  ready : List (Nat × Link) := []
  /-- A buffer that is in no place. -/
  held : Option Nat := none

/-- What a step does, as far as slots, releases and dependencies are concerned. -/
inductive Action where
  /-- The last reference to a buffer goes. -/
  | release (buffer : Nat)
  /-- A callback of a caller waits on every busy slot. -/
  | await (id : Int)
  /-- A stream gets the next slot. -/
  | attach
  /-- Work is queued on a slot. -/
  | submit (slot : Nat) (seqnum : UInt64)
  /-- The GPU reports a number on a slot. -/
  | advance (slot : Nat) (seqnum : UInt64)
  /-- A caller says that a number was passed. -/
  | update (slot : Nat) (seqnum : UInt64)
  /-- The stream of a slot is terminated. -/
  | terminate (slot : Nat)
  /-- A callback that was taken off a slot runs. -/
  | fire (slot : Nat) (link : Link)
  /-- A submission context collects the dependencies of a batch. -/
  | collect (submitter batch : Nat)
  | other
  deriving DecidableEq

variable {κ : Type}

/-- The callbacks to come for a buffer, on slots and off them. -/
def Config.waiting (c : Config κ) (x : Nat) : Nat :=
  c.machine.waiting (c.ready.map (·.2.callback)) x

/-- A callback that was taken is one of those to come. -/
theorem Config.waiting_ready {m : Machine κ} {i x : Nat} {l : Link} {ready : List (Nat × Link)} {held : Option Nat}
    (hl : l.callback = .release x) : (⟨m, (i, l) :: ready, held⟩ : Config κ).waiting x ≠ 0 := by
  show m.waiting (l.callback :: ready.map (·.2.callback)) x ≠ 0
  rw [Machine.waiting_cons, if_pos hl]
  exact Nat.succ_ne_zero _

/-- The progress of a configuration. -/
def Config.progress (c : Config κ) : Progress := c.machine.progress

/-- A slot of a configuration. -/
def Config.slot (c : Config κ) (i : Nat) : EventSlot := c.progress.slots.entry i

/-- The account of a buffer. -/
def Config.account? (c : Config κ) (x : Nat) : Option Account := c.machine.storage.accounts[x]?

/-- A device and an allocator without slots, buffers or batches in use. -/
structure Fresh (m : Machine κ) : Prop where
  generation : m.progress.generation = .csf
  slots : m.progress.slots = Vector.replicate slotCount {}
  bound : m.progress.bound = 0
  streams : m.progress.streams = []
  accounts : m.storage.accounts = []
  arena : m.storage.arena = []
  frees : m.storage.frees = 0
  cache : m.storage.cache = .empty m.storage.options.bucketCount
  range : m.storage.options.minBucket ≤ m.storage.options.maxBucket
  batches : m.batches = []

/-- A device of any kind and an allocator without slots or buffers in use. -/
structure Vacant (m : Machine κ) : Prop where
  slots : m.progress.slots = Vector.replicate slotCount {}
  bound : m.progress.bound = 0
  streams : m.progress.streams = []
  accounts : m.storage.accounts = []
  arena : m.storage.arena = []
  frees : m.storage.frees = 0
  cache : m.storage.cache = .empty m.storage.options.bucketCount
  range : m.storage.options.minBucket ≤ m.storage.options.maxBucket

theorem Fresh.vacant {m : Machine κ} (h : Fresh m) : Vacant m :=
  ⟨h.slots, h.bound, h.streams, h.accounts, h.arena, h.frees, h.cache, h.range⟩

/-- The links that an action takes off the slots. -/
def Action.takes (p : Progress) : Action → List (Nat × Link)
  | .advance i n => ((p.slots.entry i).advanced n).map (i, ·)
  | .update i n => ((p.slots.entry i).links.takeWhile (EventSlot.passed n)).map (i, ·)
  | .terminate i =>
    ((p.slots.entry i).links.takeWhile (EventSlot.passed Device.endOfTime)).map (i, ·)
  | _ => []

/-- What an action does to the slots. -/
def Action.move (p : Progress) : Action → Progress
  | .release x => { p with slots := p.slots.awaitAll p.bound (.release x) }
  | .await id => { p with slots := p.slots.awaitAll p.bound (.report id) }
  | .attach => p.attach
  | .submit i n => p.put i ((p.slots.entry i).submit n)
  | .advance i n => p.put i ((p.slots.entry i).advance n).2
  | .update i n => p.put i ((p.slots.entry i).take n).2
  | .terminate i => p.put i { ((p.slots.entry i).take Device.endOfTime).2 with last := 0 }
  | .fire _ _ | .collect _ _ | .other => p

section Kernel

variable [Kernel κ]

/-- One step of a call. -/
inductive Step : Config κ → Action → Config κ → Prop
  | quiet {m m' : Machine κ} {ready : List (Nat × Link)} {held : Option Nat} (h : Quiet m m') :
    Step ⟨m, ready, held⟩ .other ⟨m', ready, held⟩
  | reference {m m' : Machine κ} {x : Nat} (he : (Buffer.reference x).exec m = (.ok (), m')) :
    Step ⟨m, [], none⟩ .other ⟨m', [], none⟩
  /-- An import finds the buffer that the handle of a file stands for. -/
  | revive {m m' : Machine κ} {x handle : Nat} {fd : Int}
    (hlookup : m.allocator.lookup? handle = some x) (howns : m.Owns handle fd) (hfd : 0 ≤ fd)
    (he : (Allocator.revive x).exec m = (.ok (), m')) : Step ⟨m, [], none⟩ .other ⟨m', [], none⟩
  /-- A reference goes that is not the last one. -/
  | unreference {m m' : Machine κ} {x : Nat} {a : Account}
    (ha : m.storage.accounts[x]? = some a) (hrefs : a.refs ≠ 1)
    (he : (Buffer.unreference x).exec m = (.ok (), m')) : Step ⟨m, [], none⟩ .other ⟨m', [], none⟩
  | release {m m' : Machine κ} {x : Nat} {a : Account}
    (ha : m.storage.accounts[x]? = some a) (hrefs : a.refs = 1)
    (he : (Buffer.unreference x).exec m = (.ok (), m')) :
    Step ⟨m, [], none⟩ (.release x) ⟨m', [], none⟩
  /-- An imported file becomes a buffer under a handle that stands for none. -/
  | enter {m m' : Machine κ} {b : Buffer} {x : Nat} {fd : Int}
    (hfree : m.allocator.lookup? b.handle = none) (howns : m.Owns b.handle fd)
    (hshared : b.has BufferFlag.shared = true) (hgpu : b.gpuRefs = 0) (hcached : b.cachedIn = none)
    (hfreed : b.freed = false) (hrefs : b.refs = 1) (husage : b.usage = [])
    (he : (Allocator.addBuffer b).exec m = (.ok x, m')) : Step ⟨m, [], none⟩ .other ⟨m', [], none⟩
  /-- An import is given up, and its handle goes. -/
  | abandon {m m' : Machine κ} {handle : Nat} (hfree : m.allocator.lookup? handle = none)
    (he : (Device.freeHandle handle).exec m = (.ok (), m')) : Step ⟨m, [], none⟩ .other ⟨m', [], none⟩
  | reuse {m m' : Machine κ} {x : Nat} {label : String}
    (he : (Allocator.reuse x label).exec m = (.ok (), m')) :
    Step ⟨m, [], none⟩ .other ⟨m', [], some x⟩
  | wrap {m m' : Machine κ} {region : Region} {size : Int64} {flags : UInt32} {label : String} {x : Nat}
    (he : (Allocator.wrapRegion region size flags label).exec m = (.ok x, m')) :
    Step ⟨m, [], none⟩ .other ⟨m', [], some x⟩
  | handOut {m m' : Machine κ} {x : Nat} (he : (Allocator.handOut x).exec m = (.ok (), m')) :
    Step ⟨m, [], some x⟩ .other ⟨m', [], none⟩
  | evictStale {m m' : Machine κ} (he : Allocator.evictOld.exec m = (.ok (), m')) :
    Step ⟨m, [], none⟩ .other ⟨m', [], none⟩
  | evictAll {m m' : Machine κ} {indices : List Nat}
    (he : (Allocator.evictBuckets indices).exec m = (.ok (), m')) :
    Step ⟨m, [], none⟩ .other ⟨m', [], none⟩
  | await {m m' : Machine κ} {id : Int} {n : Nat}
    (he : (Device.callbackAll (.report id)).exec m = (.ok n, m')) :
    Step ⟨m, [], none⟩ (.await id) ⟨m', [], none⟩
  | attach {m m' : Machine κ} {s : Stream} {n : Nat}
    (he : (Device.attachStream s).exec m = (.ok n, m')) :
    Step ⟨m, [], none⟩ .attach ⟨m', [], none⟩
  | submit {m m' : Machine κ} {i : Nat} {n : UInt64} (hi : i ∈ m.progress.streams)
    (he : (Device.submitSlot i n).exec m = (.ok (), m')) :
    Step ⟨m, [], none⟩ (.submit i n) ⟨m', [], none⟩
  | advance {m m' : Machine κ} {i : Nat} {n : UInt64} {ready : List (Nat × Link)}
    {taken : List Callback} (he : (Device.advanceSlot i n).exec m = (.ok taken, m')) :
    Step ⟨m, ready, none⟩ (.advance i n)
      ⟨m', ready ++ (Action.advance i n).takes m.progress, none⟩
  | update {m m' : Machine κ} {i : Nat} {n : UInt64} {ready : List (Nat × Link)}
    {taken : List Callback} (he : (Device.takeCallbacks i n).exec m = (.ok taken, m')) :
    Step ⟨m, ready, none⟩ (.update i n)
      ⟨m', ready ++ (Action.update i n).takes m.progress, none⟩
  | terminate {m m' : Machine κ} {i : Nat} {ready : List (Nat × Link)} {taken : List Callback}
    (hi : i ∈ m.progress.streams) (he : (Device.clearSlot i).exec m = (.ok taken, m')) :
    Step ⟨m, ready, none⟩ (.terminate i)
      ⟨m', ready ++ (Action.terminate i).takes m.progress, none⟩
  | fire {m m' : Machine κ} {i : Nat} {l : Link} {ready : List (Nat × Link)}
    (he : (Device.runCallback l.callback).exec m = (.ok (), m')) :
    Step ⟨m, (i, l) :: ready, none⟩ (.fire i l) ⟨m', ready, none⟩
  | collect {m m' : Machine κ} {id batch : Nat} {b : Batch} (hb : m.batches[batch]? = some b)
    (hnew : b.submitted = false) (he : (Submitter.collect id batch).exec m = (.ok (), m')) :
    Step ⟨m, [], none⟩ (.collect id batch) ⟨m', [], none⟩

/-- Steps one after the other, with the configuration before each and its action. -/
inductive Run : Config κ → List (Config κ × Action) → Config κ → Prop
  | nil (c : Config κ) : Run c [] c
  | cons {c c₁ c' : Config κ} {a : Action} {es : List (Config κ × Action)} (hs : Step c a c₁)
    (hr : Run c₁ es c') : Run c ((c, a) :: es) c'

namespace Run

variable {c c₁ c₂ : Config κ} {es es' : List (Config κ × Action)}

theorem single {a : Action} (h : Step c a c₁) : Run c [(c, a)] c₁ := .cons h (.nil c₁)

theorem append (h : Run c es c₁) (h' : Run c₁ es' c₂) : Run c (es ++ es') c₂ := by
  induction h with
  | nil => exact h'
  | cons hs _ ih => exact .cons hs (ih h')

theorem head_mem (h : Run c es c₁) : c ∈ es.map (·.1) ++ [c₁] := by
  cases h with
  | nil => exact List.mem_singleton_self _
  | cons => exact List.mem_cons_self

/-- A run can be cut anywhere. -/
theorem split {es₁ es₂ : List (Config κ × Action)} (h : Run c (es₁ ++ es₂) c₂) :
    ∃ c₁, Run c es₁ c₁ ∧ Run c₁ es₂ c₂ := by
  induction es₁ generalizing c with
  | nil => exact ⟨c, .nil c, h⟩
  | cons e es₁ ih =>
    cases h with
    | cons hs hr =>
      obtain ⟨c₁, h₁, h₂⟩ := ih hr
      exact ⟨c₁, .cons hs h₁, h₂⟩

/-- A run comes by each of its configurations. -/
theorem through {d : Config κ} (h : Run c es c₁) (hd : d ∈ es.map (·.1) ++ [c₁]) :
    ∃ es₁ es₂, es = es₁ ++ es₂ ∧ Run c es₁ d ∧ Run d es₂ c₁ := by
  rcases List.mem_append.mp hd with hd | hd
  · obtain ⟨⟨_, act⟩, he, rfl⟩ := List.mem_map.mp hd
    obtain ⟨es₁, es₂, rfl⟩ := List.append_of_mem he
    obtain ⟨_, h₁, h₂⟩ := h.split
    cases h₂ with
    | cons hstep hr => exact ⟨es₁, _, rfl, h₁, .cons hstep hr⟩
  · obtain rfl := List.mem_singleton.mp hd
    exact ⟨es, [], (List.append_nil es).symm, h, .nil _⟩

/-- What every step keeps is kept by a run. -/
theorem invariant {I : Config κ → Prop} (hstep : ∀ c a c', Step c a c' → I c → I c')
    (h : Run c es c₁) (hc : I c) : I c₁ := by
  induction h with
  | nil => exact hc
  | cons hs _ ih => exact ih (hstep _ _ _ hs hc)

end Run

/-! ## What a step comes to -/

/-- What a step comes to on the accounts, the slots and the batches.  Only a few things can be done to them, each
in several ways. -/
inductive Effect (c : Config κ) : Action → Config κ → Prop
  /-- Accounts stay as they are, and the slots move as the action says. -/
  | still {act : Action} {c' : Config κ} (hrelease : ∀ x, act ≠ .release x)
    (hfire : ∀ i n x, act ≠ .fire i ⟨n, .release x⟩) (hprogress : c'.progress = act.move c.progress)
    (hstorage : c'.machine.storage = c.machine.storage)
    (hstandings : ∃ n, c'.machine.standings = c.machine.standings ++ List.replicate n (false, [], [])) :
    Effect c act c'
  /-- The number of references of a buffer changes, and is not zero afterwards. -/
  | count {c' : Config κ} {x : Nat} {a : Account} {f : Int32 → Int32} (ha : c.account? x = some a)
    (hf : 0 ≤ a.refs → f a.refs ≠ 0)
    (h : Edits x (fun a => { a with refs := f a.refs }) c.machine c'.machine) : Effect c .other c'
  /-- The buffer that is held gets its first reference. -/
  | handOut {c' : Config κ} {x : Nat} {a : Account} (hheld : c.held = some x) (ha : c.account? x = some a)
    (h : Edits x (fun a => { a with refs := 1, usage := [] }) c.machine c'.machine) : Effect c .other c'
  | opens {c' : Config κ} {a : Account} (hgpu : a.gpuRefs = 0) (husage : a.usage = [])
    (h : Opens a c.machine c'.machine) : Effect c .other c'
  | tidies {c' : Config κ} (h : Tidies [] c.held c'.held c.machine c'.machine) : Effect c .other c'
  /-- The last reference goes, and the buffer with it if no queue is busy. -/
  | release {c' : Config κ} {x : Nat} {a : Account} {m₁ : Machine κ} (ha : c.account? x = some a)
    (hrefs : a.refs = 1) (h : Releases x c.machine m₁)
    (hend : (c.progress.slots.busy c.progress.bound ≠ 0 ∧ c'.machine = m₁) ∨
      (c.progress.slots.busy c.progress.bound = 0 ∧ Tidies [] (some x) none m₁ c'.machine)) :
    Effect c (.release x) c'
  /-- A queue has drained, and the buffer goes if it waited for no other. -/
  | drain {c' : Config κ} {i x : Nat} {n : UInt64} {a : Account} {m₁ : Machine κ} (ha : c.account? x = some a)
    (h : Edits x (fun a => { a with gpuRefs := a.gpuRefs - 1 }) c.machine m₁)
    (hend : (¬(a.gpuRefs - 1 = 0 ∧ a.refs = 0) ∧ c'.machine = m₁) ∨
      (a.gpuRefs - 1 = 0 ∧ a.refs = 0 ∧ Tidies [] (some x) none m₁ c'.machine)) :
    Effect c (.fire i ⟨n, .release x⟩) c'
  | collect {c' : Config κ} {id batch : Nat} {b : Batch} (hb : c.machine.batches[batch]? = some b)
    (hnew : b.submitted = false) (he : (Submitter.collect id batch).exec c.machine = (.ok (), c'.machine)) :
    Effect c (.collect id batch) c'

omit [Kernel κ] in
theorem Effect.of_moves {c c' : Config κ} {act : Action} (hrelease : ∀ x, act ≠ .release x)
    (hfire : ∀ i n x, act ≠ .fire i ⟨n, .release x⟩) (h : Moves (act.move c.progress) c.machine c'.machine) :
    Effect c act c' := .still hrelease hfire h.progress h.storage h.standings

/-- What each step comes to, if there is a slot left for a stream that is attached. -/
theorem Step.effect {c c' : Config κ} {act : Action} (h : Step c act c')
    (hlt : act = .attach → c.progress.bound < slotCount) : Effect c act c' := by
  cases h with
  | quiet h => exact .of_moves nofun nofun (.of_quiet h)
  | reference he =>
    obtain ⟨a, ha, -, hedit⟩ := reference_ok he
    exact .count (f := (· + 1)) ha Int32.succ_ne_zero hedit
  | revive _ _ _ he =>
    obtain ⟨a, ha, hedit⟩ := revive_ok he
    refine .count (f := fun r => if r = 0 then 1 else r + 1) ha (fun hrefs => ?_) hedit
    split
    · decide
    · exact Int32.succ_ne_zero hrefs
  | unreference ha hrefs he =>
    obtain ⟨-, hmore, hedit⟩ := unreference_other ha hrefs he
    exact .count (f := (· - 1)) ha (fun _ => hmore) hedit
  | release ha hrefs he =>
    obtain ⟨m₁, hm₁, hend | ⟨hbusy, m₂, hq, hf⟩⟩ := unreference_last ha hrefs he
    · exact .release ha hrefs hm₁ (.inl hend)
    · exact .release ha hrefs hm₁ (.inr ⟨hbusy, (Tidies.of_quiet hq).trans (tidies_finish [] hf)⟩)
  | enter _ _ _ hgpu _ _ _ husage he => exact .opens hgpu husage (addBuffer_ok he).2
  | abandon _ he =>
    have hdrop := (dropping_freeHandle _).ok he
    exact .still nofun nofun hdrop.progress hdrop.storage hdrop.standings
  | reuse he => exact .tidies (tidies_reuse [] he)
  | wrap he =>
    obtain ⟨_, -, -, -, hopens⟩ := wrapRegion_ok he
    exact .opens rfl rfl hopens
  | handOut he =>
    obtain ⟨a, ha, hedit⟩ := handOut_ok he
    exact .handOut rfl ha hedit
  | evictStale he => exact .tidies ((tidies_evictOld []).ok he)
  | evictAll he => exact .tidies ((tidies_evictBuckets [] _).ok he)
  | await he => exact .of_moves nofun nofun (callbackAll_ok he).2
  | attach he => exact .of_moves nofun nofun ((attachStream_ok he).2 (hlt rfl))
  | submit _ he => exact .of_moves nofun nofun (submitSlot_ok he)
  | advance he => exact .of_moves nofun nofun (advanceSlot_ok he).2.2
  | update he => exact .of_moves nofun nofun (takeCallbacks_ok he).2.2
  | terminate _ he => exact .of_moves nofun nofun (clearSlot_ok he).2.2
  | @fire m m' i l ready he =>
    obtain ⟨n, callback⟩ := l
    cases callback with
    | report id => exact .of_moves nofun nofun (.of_quiet ((keeps_report _).ok he))
    | release x =>
      obtain ⟨a, m₁, ha, hedit, hend | ⟨hgpu, hrefs, m₂, hq, hf⟩⟩ := queueDrained_ok he
      · exact .drain ha hedit (.inl hend)
      · exact .drain ha hedit (.inr ⟨hgpu, hrefs, (Tidies.of_quiet hq).trans (tidies_finish [] hf)⟩)
  | collect hb hnew he => exact .collect hb hnew he

/-! ## Slots along a run -/

/-- What an action does to the progress, if there is a slot left for a stream that is attached. -/
theorem Step.progress {c c' : Config κ} {a : Action} (h : Step c a c')
    (hlt : a = .attach → c.progress.bound < slotCount) : c'.progress = Action.move c.progress a := by
  cases h.effect hlt with
  | still _ _ hprogress => exact hprogress
  | count _ _ h => exact h.progress
  | handOut _ _ h => exact h.progress
  | opens _ _ h => exact h.progress
  | tidies h => exact h.progress
  | release _ _ hm₁ hend =>
    rcases hend with ⟨-, hm⟩ | ⟨-, ht⟩
    · exact (congrArg Machine.progress hm).trans hm₁.progress
    · exact ht.progress.trans hm₁.progress
  | drain _ hm₁ hend =>
    rcases hend with ⟨-, hm⟩ | ⟨-, -, ht⟩
    · exact (congrArg Machine.progress hm).trans hm₁.progress
    · exact ht.progress.trans hm₁.progress
  | collect hb _ he =>
    obtain ⟨_, hg⟩ := gathers_of_collect hb he
    exact congrArg Device.progress hg.device

theorem Step.length_streams {c c' : Config κ} {a : Action} (h : Step c a c') :
    c'.progress.streams.length = c.progress.streams.length + if a = .attach then 1 else 0 := by
  rcases eq_or_ne a .attach with rfl | ha
  · cases h with
    | attach he => exact (attachStream_ok he).1
  · rw [h.progress fun e => absurd e ha, if_neg ha]
    cases a <;> first | rfl | exact absurd rfl ha

/-- A step that attaches a stream finds a slot for it if there are not too many afterwards. -/
theorem Step.bound_lt {c c' : Config κ} {a : Action} (h : Step c a c') (hs : c.progress.Sound)
    (hmax : c'.progress.streams.length ≤ slotCount) (ha : a = .attach) :
    c.progress.bound < slotCount := by
  have hlen := h.length_streams
  rw [if_pos ha, hs.length_streams] at hlen
  omega

theorem Step.sound {c c' : Config κ} {a : Action} (h : Step c a c') (hs : c.progress.Sound)
    (hmax : c'.progress.streams.length ≤ slotCount) : c'.progress.Sound := by
  have hlt := h.bound_lt hs hmax
  rw [h.progress hlt]
  cases h with
  | release => exact hs.awaitAll _
  | await => exact hs.awaitAll _
  | attach => exact hs.attach (hlt rfl)
  | submit hi => exact hs.submit hi _
  | advance => exact hs.advance _ _
  | update => exact hs.take _ _
  | terminate hi => exact hs.clear hi
  | _ => exact hs

namespace Run

variable {c c' : Config κ} {es : List (Config κ × Action)}

theorem length_streams_le (h : Run c es c') :
    c.progress.streams.length ≤ c'.progress.streams.length := by
  induction h with
  | nil => exact Nat.le_refl _
  | cons hs _ ih =>
    have := hs.length_streams
    omega

/-- What every step between sound slots keeps is kept by a run, if not too many streams were attached
by its end. -/
theorem sound_invariant {I : Config κ → Prop}
    (hstep : ∀ c a c', Step c a c' → c.progress.Sound → c'.progress.Sound → I c → I c')
    (h : Run c es c') (hs : c.progress.Sound) (hmax : c'.progress.streams.length ≤ slotCount)
    (hc : I c) : c'.progress.Sound ∧ I c' := by
  induction h with
  | nil => exact ⟨hs, hc⟩
  | cons hstep' hr ih =>
    have hs' := hstep'.sound hs (Nat.le_trans hr.length_streams_le hmax)
    exact ih hs' hmax (hstep _ _ _ hstep' hs hs' hc)

theorem sound (h : Run c es c') (hs : c.progress.Sound)
    (hmax : c'.progress.streams.length ≤ slotCount) : c'.progress.Sound :=
  (h.sound_invariant (I := fun _ => True) (fun _ _ _ _ _ _ _ => trivial) hs hmax trivial).1

end Run

omit [Kernel κ] in
theorem Vacant.sound {m : Machine κ} (h : Vacant m) : m.progress.Sound := by
  refine ⟨⟨?_, fun i hi => ?_, fun i _ => ?_⟩, ?_⟩
  · rw [h.bound]
    exact Nat.zero_le _
  · rw [h.bound] at hi
    exact absurd hi (Nat.not_lt_zero i)
  · rw [h.slots, SlotTable.entry_replicate]
  · rw [h.streams, h.bound, List.range_zero]

omit [Kernel κ] in
theorem Fresh.sound {m : Machine κ} (h : Fresh m) : m.progress.Sound := h.vacant.sound

end Kernel

/-! ## A short run -/

namespace Sample

-- a table of 256 slots is evaluated
set_option maxRecDepth 20000

/-- A device that has records for its slots, with an allocator that caches nothing. -/
def start : Machine Bench where
  kernel := {}
  device := { eventMemory := some ⟨0x1000, 8192⟩ }
  allocator := { started := true, options := { noCache := true }, cache := .empty 1 }
  submitters :=
    [{ vertex := some { stream := 0, ring := 0 }, fragment := some { stream := 1, ring := 0 } }]

theorem fresh_start : Fresh start := by
  constructor
  case range => exact Int.le_refl _
  all_goals rfl

/-- A stream has the first slot. -/
def attached : Machine Bench :=
  ((Device.attachStream { context := 0, va := 0, size := 0, csi := 0 }).exec start).2

/-- Another stream has the second slot. -/
def paired : Machine Bench :=
  ((Device.attachStream { context := 0, va := 0, size := 0, csi := 1 }).exec attached).2

/-- A region became a buffer. -/
def wrapped : Machine Bench :=
  ((Allocator.wrapRegion ⟨⟨0, 0⟩, 0⟩ 4096 0 "sample").exec paired).2

/-- The buffer was handed out. -/
def live : Machine Bench := ((Allocator.handOut 0).exec wrapped).2

/-- Work was queued on the first slot. -/
def busy : Machine Bench := ((Device.submitSlot 0 5).exec live).2

/-- The only reference to the buffer went. -/
def released : Machine Bench := ((Buffer.unreference 0).exec busy).2

/-- The work was reported. -/
def reported : Machine Bench := ((Device.advanceSlot 0 6).exec released).2

/-- The callback of the release ran. -/
def freed : Machine Bench := ((Device.runCallback (.release 0)).exec reported).2

/-- The link that waited for the work. -/
def link : Link := ⟨5, .release 0⟩

/-- The steps up to a live buffer. -/
def creation : List (Config Bench × Action) :=
  [(⟨start, [], none⟩, .attach), (⟨attached, [], none⟩, .attach), (⟨paired, [], none⟩, .other),
    (⟨wrapped, [], some 0⟩, .other)]

theorem run_live : Run ⟨start, [], none⟩ creation ⟨live, [], none⟩ :=
  .cons (.attach (exec_of_value (a := 0) (by decide))) <|
  .cons (.attach (exec_of_value (a := 1) (by decide))) <|
  .cons (.wrap (exec_of_value (a := 0) (by decide))) <|
  .cons (.handOut (exec_of_value (a := ()) (by decide))) (.nil _)

theorem step_busy : Step ⟨live, [], none⟩ (.submit 0 5) ⟨busy, [], none⟩ :=
  .submit (by decide) (exec_of_value (a := ()) (by decide))

theorem step_released : Step ⟨busy, [], none⟩ (.release 0) ⟨released, [], none⟩ :=
  .release (a := { handle := 0, refs := 1 }) (by decide) rfl
    (exec_of_value (a := ()) (by decide))

theorem step_reported : Step ⟨released, [], none⟩ (.advance 0 6) ⟨reported, [(0, link)], none⟩ := by
  have htakes : [] ++ (Action.advance 0 6).takes released.progress = [(0, link)] := by decide
  exact htakes ▸ .advance (exec_of_value (a := [.release 0]) (by decide))

theorem step_freed : Step ⟨reported, [(0, link)], none⟩ (.fire 0 link) ⟨freed, [], none⟩ :=
  .fire (exec_of_value (a := ()) (by decide))

/-- The steps up to a busy slot. -/
def submission : List (Config Bench × Action) := creation ++ [(⟨live, [], none⟩, .submit 0 5)]

/-- The steps of the release. -/
def draining : List (Config Bench × Action) :=
  [(⟨busy, [], none⟩, .release 0), (⟨released, [], none⟩, .advance 0 6),
    (⟨reported, [(0, link)], none⟩, .fire 0 link)]

theorem run_busy : Run ⟨start, [], none⟩ submission ⟨busy, [], none⟩ :=
  run_live.append (.single step_busy)

theorem run_freed : Run ⟨busy, [], none⟩ draining ⟨freed, [], none⟩ :=
  .cons step_released (.cons step_reported (.single step_freed))

end Sample

end Mali
