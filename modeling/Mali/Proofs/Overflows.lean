import Mali.Proofs.AccountHistory
import Mali.Proofs.Atoms
import Mali.Proofs.Notices

/-!
# Counts that overflow

A buffer counts the callbacks that are to come for it in a word of 32 bits, and nothing keeps it from going round.  As
long as a slot is busy, a buffer for a file can be released and imported again any number of times, with one more link
each time.  After `2 ^ 32` rounds the count says that nothing is to come, and the next release is over when the first
link goes, whatever the others wait for.  The last link frees the buffer once more, with whatever its handle stands for
by then.

* `exec_unreference_busy`, `exec_queueDrained_of_ne`: a release and a callback that end nothing.
* `EventSlot.advance_of_split`: a notice, said by what it takes and what it leaves.
* `Sample.laden`: machines that differ in one slot and one buffer, and what operations do to them.
* `Sample.exists_run_rounds`: rounds of a release and an import, by induction.
* `Sample.exists_run_overflowing`: the count is back at zero.
* `Sample.exists_run_callbacks`: callbacks that are counted for a buffer that is freed, by induction.
* `Sample.exists_run_doomed`: a released buffer has the handle that the last link will free.
-/

namespace Mali

open Op

variable {κ : Type}

/-! ## What ends nothing -/

theorem SlotTable.put_put (t : SlotTable) (i : Nat) (s s' : EventSlot) : (t.put i s).put i s' = t.put i s' :=
  Vector.ext fun j hj => by
    simp only [put, Vector.getElem_setIfInBounds]
    split <;> rfl

theorem Allocator.mapBuffer_mapBuffer (a : Allocator) (x : Nat) (f g : Buffer → Buffer) :
    (a.mapBuffer x f).mapBuffer x g = a.mapBuffer x (g ∘ f) :=
  congrArg (fun bs => { a with buffers := bs }) (List.modify_modify_eq f g x a.buffers)

/-- Without a journal no line is written. -/
theorem exec_writeHandle_of_none (name : String) (b : Buffer) {m : Machine κ}
    (h : m.allocator.options.events = .none) : (Allocator.writeHandle name b).exec m = (.ok (), m) := by
  have hfd : ∃ fd, (Allocator.handleFd b).exec m = (.ok fd, m) := by
    unfold Allocator.handleFd
    rw [exec_bind_of_ok (exec_allocator m)]
    split
    · exact ⟨_, rfl⟩
    · exact ⟨_, rfl⟩
  obtain ⟨fd, hfd⟩ := hfd
  unfold Allocator.writeHandle Allocator.write
  rw [exec_bind_of_ok hfd, exec_bind_of_ok (exec_allocator m), h]
  rfl

section Kernel

variable [Kernel κ]

/-- On a busy device the last reference leaves links, and their number in the count. -/
theorem exec_unreference_busy {m : Machine κ} {x : Nat} {b : Buffer} (hb : m.allocator.buffers[x]? = some b)
    (hone : b.refs = 1) (hsilent : m.allocator.options.events = .none)
    (hbusy : m.device.slots.busy m.device.bound ≠ 0) :
    (Buffer.unreference x).exec m = (.ok (), { m with
      device := { m.device with slots := m.device.slots.awaitAll m.device.bound (.release x) }
      allocator := m.allocator.mapBuffer x fun b => { b with
        refs := b.refs - 1, usage := []
        gpuRefs := b.gpuRefs + Int32.ofNat (m.device.slots.busy m.device.bound) } }) := by
  have hx := Allocator.getElem?_mapBuffer_of_some hb fun b => { b with refs := b.refs - 1 }
  have hzero : b.refs - 1 = 0 := by
    rw [hone]
    rfl
  have hpositive : ¬b.refs - 1 < 0 := by
    rw [hzero]
    decide
  have hcall (m : Machine κ) : (Device.callbackAll (.release x)).exec m =
      (.ok (m.device.slots.busy m.device.bound), { m with device :=
        { m.device with slots := m.device.slots.awaitAll m.device.bound (.release x) } }) := rfl
  unfold Buffer.unreference Buffer.beginRelease
  rw [exec_bind_of_ok (exec_modifyBuffer x _ m), exec_bind_of_ok (exec_buffer_of_some hx), if_neg hpositive,
    if_pos hzero, exec_bind_of_ok (exec_buffer_of_some hx)]
  rw [exec_bind_of_ok (exec_writeHandle_of_none _ _ (by exact hsilent)), exec_bind_of_ok (exec_modifyBuffer x _ _),
    exec_bind_of_ok (hcall _), exec_bind_of_ok (exec_modifyBuffer x _ _), if_neg hbusy, exec_pure,
    Allocator.mapBuffer_mapBuffer, Allocator.mapBuffer_mapBuffer]
  rfl

/-- A callback that is not the last one only counts. -/
theorem exec_queueDrained_of_ne {m : Machine κ} {x : Nat} {b : Buffer} (hb : m.allocator.buffers[x]? = some b)
    (hne : b.gpuRefs - 1 ≠ 0) : (Buffer.queueDrained x).exec m = (.ok (), { m with
      allocator := m.allocator.mapBuffer x fun b => { b with gpuRefs := b.gpuRefs - 1 } }) := by
  have hx := Allocator.getElem?_mapBuffer_of_some hb fun b => { b with gpuRefs := b.gpuRefs - 1 }
  unfold Buffer.queueDrained
  rw [exec_bind_of_ok (exec_modifyBuffer x _ m), exec_bind_of_ok (exec_buffer_of_some hx), if_neg fun h => hne h.1]
  rfl

end Kernel

/-- A notice that is within what was submitted takes the links up to it. -/
theorem EventSlot.advance_of_split {s : EventSlot} {n : UInt64} {taken left : List Link}
    (hforward : s.isBackward n = false) (hlimit : s.limit n = n)
    (hsplit : s.links.takeWhile (passed n) = taken ∧ s.links.dropWhile (passed n) = left) :
    s.advance n = (taken.map (·.callback), { s with last := n, links := left }) ∧ s.advanced n = taken := by
  obtain ⟨rfl, rfl⟩ := hsplit
  unfold advance advanced take
  rw [hforward, if_neg Bool.false_ne_true, if_neg Bool.false_ne_true, hlimit]
  exact ⟨rfl, rfl⟩

namespace Sample

-- a table of 256 slots is evaluated
set_option maxRecDepth 20000

/-! ## A buffer for a file -/

/-- A device that has records for its slots and knows a file, with an allocator that caches. -/
def pantry : Machine Bench :=
  { start with
    kernel := { files := [(52, { id := 0, size := 4096 })] }
    allocator := { started := true, cache := .empty 1 } }

theorem fresh_pantry : Fresh pantry := by
  constructor
  case range => exact Int.le_refl _
  all_goals rfl

/-- A stream has the first slot. -/
def homed : Machine Bench :=
  ((Device.attachStream { context := 0, va := 0, size := 0, csi := 0 }).exec pantry).2

/-- Another stream has the second slot. -/
def housed : Machine Bench :=
  ((Device.attachStream { context := 0, va := 0, size := 0, csi := 1 }).exec homed).2

/-- The file got a handle. -/
def filed : Machine Bench := ((Device.allocHandle 0 52).exec housed).2

/-- A buffer for the file, with its counts. -/
def loan (refs gpuRefs : Int32) : Buffer where
  gpu := 0
  cpu := none
  size := 4096
  flags := BufferFlag.shared
  handle := 0
  refs := refs
  gpuRefs := gpuRefs
  dmabufFd := 52

/-- The file became a buffer. -/
def lent : Machine Bench := ((Allocator.addBuffer (loan 1 0)).exec filed).2

theorem owns_filed : filed.Owns 0 52 := ⟨_, rfl, rfl, by decide⟩

/-- The steps up to the buffer for the file. -/
def lending : List (Config Bench × Action) :=
  [(⟨pantry, [], none⟩, .attach), (⟨homed, [], none⟩, .attach), (⟨housed, [], none⟩, .other),
    (⟨filed, [], none⟩, .other)]

theorem run_lent : Run ⟨pantry, [], none⟩ lending ⟨lent, [], none⟩ :=
  .cons (.attach (exec_of_value (a := 0) (by decide))) <|
  .cons (.attach (exec_of_value (a := 1) (by decide))) <|
  .cons (.quiet ((quiet_allocHandle 0 52).ok (exec_of_value (a := 0) (by decide)))) <|
  .cons (.enter (b := loan 1 0) (x := 0) (by decide) owns_filed (by decide) rfl rfl rfl rfl rfl
    (exec_of_value (by decide))) (.nil _)

/-! ## Machines that differ in a slot and a buffer -/

/-- A machine with another first slot, and one buffer. -/
def laden (m : Machine Bench) (s : EventSlot) (b : Buffer) : Machine Bench :=
  { m with
    device := { m.device with slots := m.device.slots.put 0 s }
    allocator := { m.allocator with buffers := [b] } }

section Laden

variable (m : Machine Bench) (s : EventSlot) (b : Buffer)

theorem slot_laden (ready : List (Nat × Link)) : (⟨laden m s b, ready, none⟩ : Config Bench).slot 0 = s :=
  (SlotTable.entry_put _ (by decide) _ _).trans (if_pos rfl)

theorem mapBuffer_laden (f : Buffer → Buffer) :
    { laden m s b with allocator := (laden m s b).allocator.mapBuffer 0 f } = laden m s (f b) := rfl

theorem exec_slot_laden : (Device.slot 0).exec (laden m s b) = (.ok s, laden m s b) := by
  have hslot := exec_slot (i := 0) (by decide) (laden m s b)
  have hentry : (laden m s b).progress.slots.entry 0 = s := slot_laden m s b []
  rwa [hentry] at hslot

theorem exec_setSlot_laden (s' : EventSlot) :
    (Device.setSlot (Int.toNat 0) s').exec (laden m s b) = (.ok (), laden m s' b) :=
  congrArg (fun t => (Except.ok (), { laden m s b with device := { m.device with slots := t } }))
    (SlotTable.put_put ..)

theorem exec_submitSlot_laden (n : UInt64) :
    (Device.submitSlot 0 n).exec (laden m s b) = (.ok (), laden m (s.submit n) b) :=
  (exec_bind_of_ok (exec_slot_laden m s b)).trans (exec_setSlot_laden ..)

variable {m s}

theorem exec_advanceSlot_laden {n : UInt64} (hverbose : m.device.options.isVerbose = false)
    (hforward : s.isBackward n = false) (hcheck : (s.advance n).2.check = none) :
    (Device.advanceSlot 0 n).exec (laden m s b) = (.ok (s.advance n).1, laden m (s.advance n).2 b) := by
  have htrace : (Device.traceReady 0 (s.limit n) (s.advance n).1).exec (laden m (s.advance n).2 b) =
      (.ok (), laden m (s.advance n).2 b) := by
    unfold Device.traceReady trace
    split
    · have hverbose : (laden m (s.advance n).2 b).device.options.isVerbose = false := hverbose
      rw [exec_bind_of_ok (exec_device _), hverbose]
      rfl
    · rfl
  unfold Device.advanceSlot
  rw [exec_bind_of_ok (exec_slot_laden m s b), hforward, if_neg Bool.false_ne_true]
  dsimp only
  rw [exec_bind_of_ok (exec_setSlot_laden m s b _), exec_bind_of_ok htrace, exec_bind_of_ok (exec_checkRule hcheck)]
  rfl

theorem step_advance_laden {n : UInt64} {taken left : List Link} (hverbose : m.device.options.isVerbose = false)
    (hforward : s.isBackward n = false) (hlimit : s.limit n = n)
    (hsplit : s.links.takeWhile (EventSlot.passed n) = taken ∧ s.links.dropWhile (EventSlot.passed n) = left)
    (hcheck : { s with last := n, links := left : EventSlot }.check = none) :
    Step ⟨laden m s b, [], none⟩ (.advance 0 n)
      ⟨laden m { s with last := n, links := left } b, taken.map (0, ·), none⟩ := by
  obtain ⟨hadvance, hadvanced⟩ := EventSlot.advance_of_split hforward hlimit hsplit
  have htakes : [] ++ (Action.advance 0 n).takes (laden m s b).progress = taken.map (0, ·) := by
    rw [Action.takes, List.nil_append, ← hadvanced]
    exact congrArg (fun s : EventSlot => (s.advanced n).map (0, ·)) (slot_laden m s b [])
  have he := exec_advanceSlot_laden b hverbose hforward (by rw [hadvance]; exact hcheck)
  rw [hadvance] at he
  exact htakes ▸ .advance he

end Laden

/-! ## Releases and imports -/

theorem exec_release_loan {s : EventSlot} (hs : s.isIdle = false) (g : Int32) :
    (Buffer.unreference 0).exec (laden lent s (loan 1 g)) =
      (.ok (), laden lent (s.append (s.lastSubmit - 1) (.release 0)) (loan 0 (g + 1))) := by
  have hb : (laden lent s (loan 1 g)).allocator.buffers[0]? = some (loan 1 g) := rfl
  have hbound : (laden lent s (loan 1 g)).device.bound = 2 := rfl
  have hother : (lent.device.slots.entry 1).isIdle = true := by decide
  have hslots : (laden lent s (loan 1 g)).device.slots.awaitAll 2 (.release 0) =
      lent.device.slots.put 0 (s.append (s.lastSubmit - 1) (.release 0)) := by
    refine SlotTable.ext_entry fun i => ?_
    rw [SlotTable.entry_awaitAll]
    show (if i < 2 then EventSlot.await ((lent.device.slots.put 0 s).entry i) _
      else (lent.device.slots.put 0 s).entry i) = _
    simp only [SlotTable.entry_put _ (show 0 < slotCount by decide)]
    rcases i with _ | _ | i
    · simp [EventSlot.await, hs]
    · simp [EventSlot.await, hother]
    · simp
  have hbusy : (laden lent s (loan 1 g)).device.slots.busy 2 = 1 := by
    have hlist : (laden lent s (loan 1 g)).device.slots.toList.take 2 = [s, lent.device.slots.entry 1] := rfl
    unfold SlotTable.busy
    rw [hlist]
    simp [hs, hother]
  have hbuffers : (laden lent s (loan 1 g)).allocator.mapBuffer 0 (fun b => { b with
      refs := b.refs - 1, usage := [], gpuRefs := b.gpuRefs + Int32.ofNat 1 }) =
      { lent.allocator with buffers := [loan 0 (g + 1)] } := by
    show { lent.allocator with buffers := [loan (1 - 1) (g + Int32.ofNat 1)] } = _
    rw [Int32.sub_self]
    rfl
  rw [exec_unreference_busy hb rfl rfl (by rw [hbound, hbusy]; decide), hbound, hslots, hbusy, hbuffers]
  rfl

theorem step_release {s : EventSlot} (hs : s.isIdle = false) (g : Int32) :
    Step ⟨laden lent s (loan 1 g), [], none⟩ (.release 0)
      ⟨laden lent (s.append (s.lastSubmit - 1) (.release 0)) (loan 0 (g + 1)), [], none⟩ :=
  .release (a := (loan 1 g).account) rfl rfl (exec_release_loan hs g)

theorem step_revive (s : EventSlot) (g : Int32) :
    Step ⟨laden lent s (loan 0 g), [], none⟩ .other ⟨laden lent s (loan 1 g), [], none⟩ := by
  have hlookup : (laden lent s (loan 0 g)).allocator.lookup? 0 = some 0 := rfl
  have howns : (laden lent s (loan 0 g)).Owns 0 52 := owns_filed
  exact .revive hlookup howns (by decide) rfl

theorem step_submit (s : EventSlot) (b : Buffer) (n : UInt64) :
    Step ⟨laden lent s b, [], none⟩ (.submit 0 n) ⟨laden lent (s.submit n) b, [], none⟩ := by
  have hstream : 0 ∈ lent.progress.streams := by decide
  exact .submit hstream (exec_submitSlot_laden lent s b n)

/-- A slot with more links for what was submitted last. -/
def linked (s : EventSlot) (n : Nat) : EventSlot :=
  { s with links := s.links ++ List.replicate n ⟨s.lastSubmit - 1, .release 0⟩ }

/-- Nothing stops a buffer from being released and imported again while a slot is busy.  By induction on the number of
rounds. -/
theorem exists_run_rounds {s : EventSlot} (hs : s.isIdle = false) (g : Int32) (n : Nat) :
    ∃ es, Run ⟨laden lent s (loan 1 g), [], none⟩ es
      ⟨laden lent (linked s n) (loan 1 (g + Int32.ofNat n)), [], none⟩ := by
  induction n with
  | zero =>
    have hcount : g + Int32.ofNat 0 = g := Int32.add_zero g
    rw [linked, List.replicate_zero, List.append_nil, hcount]
    exact ⟨[], .nil _⟩
  | succ n ih =>
    obtain ⟨es, hrun⟩ := ih
    have hslot : (linked s n).append (s.lastSubmit - 1) (.release 0) = linked s (n + 1) := by
      rw [EventSlot.append, linked, linked, List.append_assoc, ← List.replicate_succ']
    have hcount : g + Int32.ofNat n + 1 = g + Int32.ofNat (n + 1) := by
      rw [Int32.ofNat_add, Int32.add_assoc]
      rfl
    have hrelease := step_release (s := linked s n) hs (g + Int32.ofNat n)
    have hround := hrun.append ((Run.single hrelease).append (.single (step_revive _ _)))
    rw [hcount] at hround
    exact ⟨_, hslot ▸ hround⟩

/-! ## The count is back at zero -/

/-- A slot on which work is under way, and the links that wait for some of it. -/
def crowded (n : Nat) : EventSlot where
  last := 1
  lastSubmit := 10
  links := ⟨1, .release 0⟩ :: List.replicate n ⟨5, .release 0⟩

/-- After as many rounds as a count has values, the count is that of a buffer for which nothing is to come. -/
theorem exists_run_overflowing {n : Nat} (hn : n + 1 = 2 ^ 32) :
    ∃ es, Run ⟨pantry, [], none⟩ es ⟨laden lent (crowded n) (loan 1 0), [], none⟩ := by
  have hcount : 1 + Int32.ofNat n = 0 := by
    have hround : Int32.ofNat n + 1 = Int32.ofNat (n + 1) := (Int32.ofNat_add n 1).symm
    rw [Int32.add_comm, hround, hn]
    decide
  -- one round for the first work, and the rest for the second
  have hfirst : Run ⟨lent, [], none⟩ _
      ⟨laden lent { last := 1, lastSubmit := 6, links := [⟨1, .release 0⟩] } (loan 1 1), [], none⟩ :=
    .cons (step_submit { last := 1, lastSubmit := 1 } (loan 1 0) 1) <|
    .cons (step_release (s := { last := 1, lastSubmit := 2 }) rfl 0) <|
    .cons (step_revive _ 1) <|
    .single (step_submit _ _ 5)
  obtain ⟨es, hrounds⟩ := exists_run_rounds (s := { last := 1, lastSubmit := 6, links := [⟨1, .release 0⟩] }) rfl 1 n
  rw [hcount] at hrounds
  exact ⟨_, (run_lent.append hfirst).append (hrounds.append (.single (step_submit _ _ 9)))⟩

theorem step_overflown (n : Nat) :
    Step ⟨laden lent (crowded n) (loan 1 0), [], none⟩ (.release 0)
      ⟨laden lent ((crowded n).append 9 (.release 0)) (loan 0 1), [], none⟩ := by
  have hstep := step_release (s := crowded n) rfl 0
  have hlast : (crowded n).lastSubmit - 1 = 9 := by
    show (10 : UInt64) - 1 = 9
    decide
  rwa [hlast, Int32.zero_add] at hstep

/-- The slot after the first work. -/
def opened (n : Nat) : EventSlot where
  last := 2
  lastSubmit := 10
  links := List.replicate n ⟨5, .release 0⟩ ++ [⟨9, .release 0⟩]

theorem check_opened (n : Nat) : (opened n).check = none := by
  have hordered : (opened n).links.Pairwise fun a b => a.seqnum ≤ b.seqnum := by
    refine List.pairwise_append.mpr
      ⟨List.pairwise_replicate.mpr (.inr (by decide)), List.pairwise_singleton .., ?_⟩
    intro a ha b hb
    rw [List.eq_of_mem_replicate ha, List.mem_singleton.mp hb]
    decide
  have hbehind : ¬(opened n).lastSubmit < (opened n).last := by
    show ¬(10 : UInt64) < 2
    decide
  rw [EventSlot.check, if_neg fun h => hbehind h.1]
  exact EventSlot.firstDisorder_eq_none hordered _

/-- The first link goes. -/
theorem step_opened (n : Nat) :
    Step ⟨laden lent ((crowded n).append 9 (.release 0)) (loan 0 1), [], none⟩ (.advance 0 2)
      ⟨laden lent (opened n) (loan 0 1), [(0, ⟨1, .release 0⟩)], none⟩ := by
  have hsplit : ((crowded n).append 9 (.release 0)).links.takeWhile (EventSlot.passed 2) = [⟨1, .release 0⟩] ∧
      ((crowded n).append 9 (.release 0)).links.dropWhile (EventSlot.passed 2) = (opened n).links := by
    cases n <;> exact ⟨rfl, rfl⟩
  exact step_advance_laden (loan 0 1) rfl rfl rfl hsplit (check_opened n)

/-- The buffer was freed. -/
def spent (gpuRefs : Int32) : Buffer := { loan 0 gpuRefs with dmabufFd := -1, freed := true }

/-- The machine after the buffer was freed. -/
def gone : Machine Bench := ((Allocator.free 0).exec (laden lent {} (loan 0 0))).2

theorem exec_free_loan (s : EventSlot) :
    (Allocator.free 0).exec (laden lent s (loan 0 0)) = (.ok (), laden gone s (spent 0)) := by
  have hx : (laden lent s (loan 0 0)).allocator.buffers[0]? = some (loan 0 0) := rfl
  have hunmap : (Allocator.unmapBuffer 0).exec (laden lent s (loan 0 0)) = (.ok (), laden lent s (loan 0 0)) := rfl
  have hregion : (Allocator.freeBufferRegion 0).exec (laden lent s (loan 0 0)) = (.ok (), laden lent s (loan 0 0)) :=
    rfl
  unfold Allocator.free
  rw [exec_bind_of_ok (exec_buffer_of_some hx), exec_bind_of_ok (exec_writeHandle_of_none _ _ rfl),
    exec_bind_of_ok hunmap, exec_bind_of_ok hregion]
  rfl

/-- The last callback, as the count has it, frees the buffer. -/
theorem step_gone (n : Nat) :
    Step ⟨laden lent (opened n) (loan 0 1), [(0, ⟨1, .release 0⟩)], none⟩ (.fire 0 ⟨1, .release 0⟩)
      ⟨laden gone (opened n) (spent 0), [], none⟩ := by
  have hx : (laden lent (opened n) (loan 0 0)).allocator.buffers[0]? = some (loan 0 0) := rfl
  have hcount : (modifyBuffer 0 fun b => { b with gpuRefs := b.gpuRefs - 1 }).exec
      (laden lent (opened n) (loan 0 1)) = (.ok (), laden lent (opened n) (loan 0 0)) := rfl
  have hshared : (laden lent (opened n) (loan 0 0)).allocator.mayCache (loan 0 0) = false := rfl
  refine .fire ?_
  unfold Device.runCallback Buffer.queueDrained Allocator.finish
  rw [exec_bind_of_ok hcount, exec_bind_of_ok (exec_buffer_of_some hx), if_pos ⟨rfl, rfl⟩,
    exec_bind_of_ok (exec_writeHandle_of_none _ _ (by rfl)), exec_bind_of_ok (exec_allocator _),
    exec_bind_of_ok (exec_buffer_of_some hx), hshared, if_neg Bool.false_ne_true, exec_free_loan]

/-! ## The count goes round once more -/

/-- The slot after the second work. -/
def drained : EventSlot where
  last := 6
  lastSubmit := 10
  links := [⟨9, .release 0⟩]

/-- All links but the last one go. -/
theorem step_drained (n : Nat) :
    Step ⟨laden gone (opened n) (spent 0), [], none⟩ (.advance 0 6)
      ⟨laden gone drained (spent 0), List.replicate n (0, ⟨5, .release 0⟩), none⟩ := by
  have hpassed : ∀ l ∈ List.replicate n (⟨5, .release 0⟩ : Link), EventSlot.passed 6 l = true := by
    intro l hl
    rw [List.eq_of_mem_replicate hl]
    rfl
  have hsplit : (opened n).links.takeWhile (EventSlot.passed 6) = List.replicate n ⟨5, .release 0⟩ ∧
      (opened n).links.dropWhile (EventSlot.passed 6) = drained.links := by
    rw [opened, List.takeWhile_append_of_pos hpassed, List.dropWhile_append_of_pos hpassed]
    exact ⟨List.append_nil _, rfl⟩
  have hstep := step_advance_laden (m := gone) (spent 0) rfl rfl rfl hsplit rfl
  rwa [List.map_replicate] at hstep

theorem exec_callback_spent (s : EventSlot) {g : Int32} (hg : g - 1 ≠ 0) :
    (Device.runCallback (.release 0)).exec (laden gone s (spent g)) = (.ok (), laden gone s (spent (g - 1))) := by
  have hx : (laden gone s (spent g)).allocator.buffers[0]? = some (spent g) := rfl
  exact (exec_queueDrained_of_ne hx hg).trans (congrArg (Prod.mk _) (mapBuffer_laden ..))

/-- Callbacks for a freed buffer only count, down to one.  By induction on the callbacks. -/
theorem exists_run_callbacks (s : EventSlot) (l : Nat × Link) (hl : l.2.callback = .release 0) (n : Nat)
    (hn : n < 2 ^ 32) :
    ∃ es, Run ⟨laden gone s (spent (Int32.ofNat (n + 1))), List.replicate n l, none⟩ es
      ⟨laden gone s (spent 1), [], none⟩ := by
  induction n with
  | zero => exact ⟨[], .nil _⟩
  | succ n ih =>
    obtain ⟨es, hrun⟩ := ih (Nat.lt_of_succ_lt hn)
    have hcount : Int32.ofNat (n + 2) - 1 = Int32.ofNat (n + 1) := Int32.ofNat_pred (Nat.succ_pos _)
    have hne : Int32.ofNat (n + 2) - 1 ≠ 0 := by
      rw [hcount]
      exact fun h => absurd (Int32.eq_zero_of_ofNat hn h) (Nat.succ_ne_zero n)
    have hfire := exec_callback_spent s hne
    rw [hcount, ← hl] at hfire
    exact ⟨_, .cons (.fire hfire) hrun⟩

/-! ## The handle stands for another buffer -/

/-- One link is left for the freed buffer. -/
def spare : Machine Bench := laden gone drained (spent 1)

/-- A region became a buffer, under the handle that is free. -/
def reused : Machine Bench := ((Allocator.wrapRegion ⟨⟨0, 0⟩, 0⟩ 4096 0 "sample").exec spare).2

/-- The second buffer was handed out. -/
def shown : Machine Bench := ((Allocator.handOut 1).exec reused).2

/-- The only reference to the second buffer went. -/
def yielded : Machine Bench := ((Buffer.unreference 1).exec shown).2

/-- Work was queued on the second slot. -/
def doomed : Machine Bench := ((Device.submitSlot 1 5).exec yielded).2

/-- A second buffer waits for the slot, behind the link that will free its handle. -/
theorem exists_run_doomed : ∃ es, Run ⟨pantry, [], none⟩ es ⟨doomed, [], none⟩ := by
  obtain ⟨n, hn⟩ : ∃ n, n + 1 = 2 ^ 32 := ⟨2 ^ 32 - 1, by decide⟩
  have hcount : Int32.ofNat (n + 1) = 0 := by
    rw [hn]
    decide
  obtain ⟨es, hoverflowing⟩ := exists_run_overflowing hn
  obtain ⟨es', hcallbacks⟩ := exists_run_callbacks drained (0, ⟨5, .release 0⟩) rfl n (by omega)
  rw [hcount] at hcallbacks
  have hgone : Run ⟨laden lent (crowded n) (loan 1 0), [], none⟩ _
      ⟨laden gone drained (spent 0), List.replicate n (0, ⟨5, .release 0⟩), none⟩ :=
    .cons (step_overflown n) <| .cons (step_opened n) <| .cons (step_gone n) <| .single (step_drained n)
  have hdoomed : Run ⟨spare, [], none⟩ _ ⟨doomed, [], none⟩ :=
    .cons (.wrap (exec_of_value (a := 1) (by decide))) <|
    .cons (.handOut (exec_of_value (a := ()) (by decide))) <|
    .cons (.release (a := { handle := 0, refs := 1 }) (by decide) rfl (exec_of_value (a := ()) (by decide))) <|
    .single (.submit (by decide) (exec_of_value (a := ()) (by decide)))
  exact ⟨_, (hoverflowing.append hgone).append (hcallbacks.append hdoomed)⟩

end Sample

end Mali
