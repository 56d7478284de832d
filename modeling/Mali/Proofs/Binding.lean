import Mali.Proofs.Fences
import Mali.Proofs.Passes

/-!
# What binding a stream leaves alone

However many streams were bound before, the slots of a device stay in range and behind their submissions.
So a stream that is bound starts a slot that no stream has, as long as one is left, and writes only event
records past those in use.  When none is left it shares the newest slot, and starts that slot over under
the streams that have it: their callbacks wait on, but what they submitted is forgotten.

The kernel may write to the records at any call.  What is said of a record is therefore said from the
moment on when the ring is bound and only the slot is missing.

* `Progress.Fits`: what holds of the slots even when streams share them.
* `Served`: all that happened to memory was done by the kernel while it answered calls.
* `Machine.eventRecord`: the number and the error word of a slot.
* `startSlot_record`: starting a slot leaves the records before it alone.
* `Run.bind_frame`: binding leaves the slots of other streams alone, unless one is shared.
-/

namespace Mali

open Op

variable {κ : Type}

/-! ## Slots that may be shared -/

/-- What holds of the slots however many streams there are. -/
structure Progress.Fits (p : Progress) : Prop where
  bound_le : p.bound ≤ slotCount
  streams : ∀ i ∈ p.streams, i < p.bound
  behind : ∀ i, (p.slots.entry i).last ≤ (p.slots.entry i).lastSubmit

namespace EventSlot

variable {s : EventSlot}

theorem behind_submit (h : s.last ≤ s.lastSubmit) (n : UInt64) :
    (s.submit n).last ≤ (s.submit n).lastSubmit := by
  rw [submit_last]
  exact UInt64.le_trans h (le_submit_lastSubmit s n)

theorem behind_advance (h : s.last ≤ s.lastSubmit) (n : UInt64) :
    (s.advance n).2.last ≤ (s.advance n).2.lastSubmit := by
  unfold advance
  split
  · exact h
  · exact limit_le s n

theorem behind_await (h : s.last ≤ s.lastSubmit) (c : Callback) :
    (s.await c).last ≤ (s.await c).lastSubmit := by
  unfold await
  split <;> exact h

end EventSlot

/-- Replacing a slot changes no other, and none at all past the last. -/
theorem SlotTable.entry_put_or (t : SlotTable) (i : Nat) (s : EventSlot) (j : Nat) :
    (i = j ∧ (t.put i s).entry j = s) ∨ (t.put i s).entry j = t.entry j := by
  rcases Nat.lt_or_ge i slotCount with hi | hi
  · rw [entry_put _ hi]
    by_cases hij : i = j
    · exact .inl ⟨hij, if_pos hij⟩
    · exact .inr (if_neg hij)
  · rw [put, Vector.setIfInBounds_eq_of_size_le hi]
    exact .inr rfl

namespace Progress.Fits

variable {p : Progress}

theorem put (h : p.Fits) {i : Nat} {s : EventSlot}
    (hs : (p.slots.entry i).last ≤ (p.slots.entry i).lastSubmit → s.last ≤ s.lastSubmit) :
    (p.put i s).Fits where
  bound_le := h.bound_le
  streams := h.streams
  behind j := by
    rcases p.slots.entry_put_or i s j with ⟨rfl, hput⟩ | hput
    · rw [Progress.put, hput]
      exact hs (h.behind i)
    · rw [Progress.put, hput]
      exact h.behind j

theorem awaitAll (h : p.Fits) (c : Callback) :
    ({ p with slots := p.slots.awaitAll p.bound c } : Progress).Fits where
  bound_le := h.bound_le
  streams := h.streams
  behind i := by
    rw [SlotTable.entry_awaitAll]
    split
    · exact EventSlot.behind_await (h.behind i) c
    · exact h.behind i

theorem next_lt (h : p.Fits) : p.next < slotCount := by
  have hle := h.bound_le
  have hpos : 0 < slotCount := by decide
  unfold Progress.next
  split
  · omega
  · omega

theorem entry_join (h : p.Fits) (i : Nat) : p.join.slots.entry i =
    if p.next = i then { p.slots.entry p.next with last := 1, lastSubmit := 1 } else p.slots.entry i := by
  rw [Progress.join, SlotTable.entry_put _ h.next_lt]

theorem join (h : p.Fits) : p.join.Fits where
  bound_le := h.next_lt
  streams i hi := by
    show i < p.next + 1
    rcases List.mem_append.mp hi with hi | hi
    · have hlt := h.streams i hi
      have hle := h.bound_le
      unfold Progress.next
      split
      · omega
      · omega
    · rw [List.mem_singleton.mp hi]
      exact Nat.lt_succ_self _
  behind i := by
    rw [h.entry_join]
    split
    · exact UInt64.le_refl _
    · exact h.behind i

/-- The next slot comes after all slots that streams have, unless all are taken. -/
theorem lt_next (h : p.Fits) {i : Nat} (hi : i ∈ p.streams)
    (hother : ¬(p.bound = slotCount ∧ i + 1 = slotCount)) : i < p.next := by
  have hlt := h.streams i hi
  have hle := h.bound_le
  unfold Progress.next
  split
  · omega
  · omega

end Progress.Fits

section Kernel

variable [Kernel κ]

theorem Step.fits {c c' : Config κ} {a : Action} (h : Step c a c') (hp : c.progress.Fits) :
    c'.progress.Fits := by
  rcases eq_or_ne a .attach with rfl | hne
  · cases h with
    | attach he =>
      show (Machine.progress _).Fits
      rw [(attachStream_join he).progress]
      exact hp.join
  · rw [h.progress fun e => absurd e hne]
    cases a with
    | release => exact hp.awaitAll _
    | await => exact hp.awaitAll _
    | attach => exact absurd rfl hne
    | submit i n => exact hp.put fun hs => EventSlot.behind_submit hs n
    | advance i n => exact hp.put fun hs => EventSlot.behind_advance hs n
    | update => exact hp.put fun hs => hs
    | terminate => exact hp.put fun _ => UInt64.zero_le
    | fire => exact hp
    | collect => exact hp
    | other => exact hp

theorem Run.fits {c c' : Config κ} {es : List (Config κ × Action)} (h : Run c es c')
    (hp : c.progress.Fits) : c'.progress.Fits :=
  h.invariant (I := fun c => c.progress.Fits) (fun _ _ _ hstep => hstep.fits) hp

omit [Kernel κ] in
theorem Fresh.fits {m : Machine κ} (h : Fresh m) : m.progress.Fits where
  bound_le := by
    rw [h.bound]
    exact Nat.zero_le _
  streams i hi := by
    rw [h.streams] at hi
    cases hi
  behind i := by
    rw [h.slots, SlotTable.entry_replicate]
    exact UInt64.le_refl _

/-! ## What the kernel stores -/

/-- The kernel answers a call, and stores what it likes meanwhile. -/
def Answered (p p' : κ × Memory) : Prop :=
  ∃ c, p' = ((Kernel.call p.1 c).2, (Kernel.call p.1 c).1.stores.foldl Memory.apply p.2)

/-- All that happened to memory was done by the kernel while it answered calls. -/
structure Served (m m' : Machine κ) : Prop where
  memory : Relation.ReflTransGen Answered (m.kernel, m.memory) (m'.kernel, m'.memory)
  place : m'.device.eventMemory = m.device.eventMemory
  options : m'.device.options = m.device.options

instance : Journey (Served (κ := κ)) where
  refl _ := ⟨.refl, rfl, rfl⟩
  trans h h' := ⟨h.memory.trans h'.memory, h'.place.trans h.place, h'.options.trans h.options⟩

theorem served_log (level : LogLevel) (message : String) (fields : List (String × String)) :
    Keeps (Served (κ := κ)) (log level message fields) := keeps_modify fun _ => ⟨.refl, rfl, rfl⟩

theorem served_call (c : Syscall) : Keeps (Served (κ := κ)) (call c) :=
  fun _ _ => ⟨.single ⟨c, rfl⟩, rfl, rfl⟩

theorem served_streamRequest (asking name : String) (r : Ioctl) :
    Keeps (Served (κ := κ)) (Interface.streamRequest asking name r) := by
  have hrequest : Keeps (Served (κ := κ)) (Interface.request name r) := by
    unfold Interface.request
    refine keeps_bind keeps_device fun d => keeps_bind (served_call _) fun answer => ?_
    split
    · exact keeps_pure _
    · exact keeps_bind (served_log _ _ _) fun _ => keeps_fail _
  unfold Interface.streamRequest
  refine keeps_bind keeps_device fun d => ?_
  split
  · exact hrequest
  · exact keeps_fail _
  · exact keeps_fail _

theorem served_bindRing (s : Stream) : Keeps (Served (κ := κ)) (Device.bindRing s) := by
  have hmap (offset length : Int64) (prot : Int) :
      Keeps (Served (κ := κ)) (mapMemory offset length prot) := by
    unfold mapMemory
    refine keeps_bind keeps_device fun d => keeps_bind (served_call _) fun answer => ?_
    split
    · exact keeps_pure _
    · exact keeps_pure _
  unfold Device.bindRing
  refine keeps_bind (served_streamRequest _ _ _) fun _ => keeps_bind (keeps_context _) fun c =>
    keeps_bind (served_streamRequest _ _ _) fun cookie => keeps_bind keeps_device fun d =>
    keeps_bind (hmap _ _ _) fun answer => ?_
  split
  · exact keeps_pure _
  · exact keeps_bind (served_log _ _ _) fun _ => keeps_fail _

theorem served_prepareRing (ctx : Nat) (va : UInt64) (size : UInt32) :
    Keeps (Served (κ := κ)) (Device.prepareRing ctx va size) := by
  have hcontext : Keeps (Served (κ := κ))
      (Device.modifyContext ctx fun c => { c with interfaces := c.interfaces + 1 }) :=
    keeps_modify fun _ => ⟨.refl, rfl, rfl⟩
  exact keeps_bind (served_log _ _ _) fun _ => keeps_bind (keeps_context ctx) fun c =>
    keeps_bind hcontext fun _ => keeps_bind (served_bindRing _) fun _ => keeps_pure _

end Kernel

/-! ## Records -/

namespace Memory

theorem load_congr {μ μ' : Memory} {addr n : Nat}
    (h : ∀ x, addr ≤ x → x < addr + n → μ.byte x = μ'.byte x) : μ.load addr n = μ'.load addr n := by
  induction n generalizing addr with
  | zero => rfl
  | succ n ih =>
    rw [load, load, h addr (Nat.le_refl _) (by omega)]
    rw [ih fun x hx hlt => h x (by omega) (by omega)]

/-- A word keeps its value when a word behind it is written. -/
theorem word_setWord (μ : Memory) {a b : Nat} (hlt : a + 8 ≤ b) (v : UInt64) :
    (μ.setWord b v).word a = μ.word a := by
  unfold word setWord
  rw [load_congr fun x _ hx => ?_]
  rw [byte_store, if_neg (by omega)]

end Memory

theorem setEventWord_ok {offset : Int64} {v : UInt64} {m m' : Machine κ} {u : Unit}
    (he : (Device.setEventWord offset v).exec m = (.ok u, m')) :
    ∃ addr, m.device.eventWord? offset = some addr ∧
      m' = { m with memory := m.memory.setWord addr v } := by
  unfold Device.setEventWord at he
  obtain ⟨d, m₁, h₁, he⟩ := bind_ok he
  cases h₁
  obtain ⟨addr, haddr, he⟩ := bind_require_ok he
  cases he
  exact ⟨addr, haddr, rfl⟩

theorem Device.eventWord?_eq_some {d : Device} {offset : Int64} {addr : Nat}
    (h : d.eventWord? offset = some addr) : ∃ p, d.eventMemory = some p ∧ 0 ≤ offset.toInt ∧
      offset.toInt < p.length ∧ addr = p.addr.toNat + offset.toInt.toNat := by
  unfold eventWord? at h
  obtain ⟨p, hp, h⟩ := Option.bind_eq_some_iff.mp h
  unfold Mapping.byteAddr? at h
  split at h
  · rename_i hin
    exact ⟨p, hp, hin.1, hin.2, (Option.some.inj h).symm⟩
  · cases h

/-- A word of the event records. -/
def Machine.eventWord? (m : Machine κ) (offset : Int64) : Option UInt64 :=
  (m.device.eventWord? offset).map m.memory.word

/-- The event record of a slot: the number that the GPU reported, and the error word. -/
def Machine.eventRecord (m : Machine κ) (i : Nat) : Option UInt64 × Option UInt64 :=
  (m.record? i, m.eventWord? (Device.recordOffset (Int64.ofNat i) + 8))

/-- Words before the one that is written stay as they are. -/
theorem eventWord?_setEventWord {a b : Int64} {v : UInt64} {m m' : Machine κ} {u : Unit}
    (he : (Device.setEventWord b v).exec m = (.ok u, m')) (hlt : 0 ≤ b.toInt → a.toInt + 8 ≤ b.toInt) :
    m'.eventWord? a = m.eventWord? a := by
  obtain ⟨addr, haddr, rfl⟩ := setEventWord_ok he
  show (m.device.eventWord? a).map _ = (m.device.eventWord? a).map _
  cases ha : m.device.eventWord? a with
  | none => rw [Option.map_none, Option.map_none]
  | some place =>
    obtain ⟨p, hp, hb, -, rfl⟩ := Device.eventWord?_eq_some haddr
    obtain ⟨p', hp', hnonneg, -, rfl⟩ := Device.eventWord?_eq_some ha
    rw [hp] at hp'
    cases hp'
    have := hlt hb
    rw [Option.map_some, Option.map_some, Memory.word_setWord _ (by omega)]

/-- The records of a slot are where they are expected. -/
theorem toInt_recordOffset {i : Nat} (hi : i < slotCount) :
    (Device.recordOffset (Int64.ofNat i)).toInt = 16 * i ∧
      (Device.recordOffset (Int64.ofNat i) + 8).toInt = 16 * i + 8 := by
  have hi : i < 256 := hi
  have hslot : (Int64.ofNat i).toInt = i := Int64.toInt_ofNat_of_lt (by omega)
  have hsize : (Int64.ofNat recordSize).toInt = 16 := by decide
  have hword : (8 : Int64).toInt = 8 := by decide
  have hnumber : (Device.recordOffset (Int64.ofNat i)).toInt = 16 * i := by
    rw [Device.recordOffset, Int64.toInt_mul, hslot, hsize]
    rw [Int.bmod_eq_of_le (by omega) (by omega), Int.mul_comm]
  refine ⟨hnumber, ?_⟩
  rw [Int64.toInt_add, hnumber, hword]
  exact Int.bmod_eq_of_le (by omega) (by omega)

/-- An offset into the second page is not before the same offset into the first, unless it is out of
range. -/
theorem le_toInt_page_add {page o : Int64} (hpage : 0 ≤ page.toInt) (ho : 0 ≤ o.toInt)
    (hin : 0 ≤ (page + o).toInt) : o.toInt ≤ (page + o).toInt := by
  have hpage' := Int64.toInt_lt page
  have ho' := Int64.toInt_lt o
  rw [Int64.toInt_add] at hin ⊢
  unfold Int.bmod at hin ⊢
  simp only at hin ⊢
  split at hin <;> split <;> omega

/-- Starting a slot leaves the records of the slots before it alone. -/
theorem startSlot_record {i j : Nat} {m m' : Machine κ} {u : Unit}
    (he : (Device.startSlot j).exec m = (.ok u, m')) (hij : i < j) (hj : j < slotCount)
    (hpage : 0 ≤ m.device.options.pageSize.toInt) : m'.eventRecord i = m.eventRecord i := by
  unfold Device.startSlot at he
  obtain ⟨d, m₁, h₁, he⟩ := bind_ok he
  cases h₁
  obtain ⟨_, m₂, h₂, he⟩ := bind_ok he
  obtain ⟨_, m₃, h₃, he⟩ := bind_ok he
  obtain ⟨_, m₄, h₄, he⟩ := bind_ok he
  obtain ⟨_, m₅, h₅, he⟩ := bind_ok he
  obtain ⟨-, -, he⟩ := bind_slot_ok he
  cases he
  obtain ⟨hnumber, herror⟩ := toInt_recordOffset hj
  obtain ⟨hnumber', herror'⟩ := toInt_recordOffset (Nat.lt_trans hij hj)
  -- every word that is written is at least as far as the record of the slot that starts
  have hword (a : Int64) (ha : a.toInt + 8 ≤ 16 * j) : m₅.eventWord? a = m.eventWord? a := by
    rw [eventWord?_setEventWord h₅ fun hin => ?_, eventWord?_setEventWord h₄ fun hin => ?_,
      eventWord?_setEventWord h₃ fun _ => ?_, eventWord?_setEventWord h₂ fun _ => ?_]
    · omega
    · omega
    · have := le_toInt_page_add hpage (by omega) hin
      omega
    · have := le_toInt_page_add hpage (by omega) hin
      omega
  exact Prod.ext (hword _ (by omega)) (hword _ (by omega))

/-- A new stream leaves the records of the slots before its own alone. -/
theorem attachStream_record {s : Stream} {i n : Nat} {m m' : Machine κ}
    (he : (Device.attachStream s).exec m = (.ok n, m')) (hi : i < m.progress.next)
    (hlt : m.progress.next < slotCount) (hpage : 0 ≤ m.device.options.pageSize.toInt) :
    m'.eventRecord i = m.eventRecord i := by
  unfold Device.attachStream at he
  obtain ⟨j, m₁, h₁, he⟩ := bind_ok he
  obtain ⟨_, m₂, h₂, he⟩ := bind_ok he
  obtain ⟨d, m₃, h₃, he⟩ := bind_ok he
  cases h₃
  cases he
  obtain ⟨rfl, hdevice, hmemory, -⟩ := takeSlot_ok h₁
  have hstart : m₂.eventRecord i = m₁.eventRecord i :=
    startSlot_record h₂ hi hlt (by rw [hdevice]; exact hpage)
  have htake : m₁.eventRecord i = m.eventRecord i := by
    unfold Machine.eventRecord Machine.record? Machine.eventWord? Device.eventWord?
    rw [hdevice, hmemory]
  exact hstart.trans htake

/-! ## Devices that bind any stream -/

/-- Nothing changes that the kernel and the requests depend on, nor where the records are. -/
structure SameSetting (m m' : Machine κ) : Prop where
  kernel : m'.kernel = m.kernel
  generation : m'.device.generation = m.device.generation
  contexts : m'.device.contexts = m.device.contexts
  options : m'.device.options = m.device.options
  records : m'.device.eventMemory = m.device.eventMemory

namespace SameSetting

variable {m m₁ m₂ : Machine κ}

theorem trans (h : SameSetting m m₁) (h' : SameSetting m₁ m₂) : SameSetting m m₂ :=
  ⟨h'.kernel.trans h.kernel, h'.generation.trans h.generation, h'.contexts.trans h.contexts,
    h'.options.trans h.options, h'.records.trans h.records⟩

theorem eventWord? (h : SameSetting m m₁) : m₁.device.eventWord? = m.device.eventWord? := by
  funext offset
  rw [Device.eventWord?, Device.eventWord?, h.records]

end SameSetting

/-- Every slot has a record for its stream, and one for a processor queue. -/
def Machine.HasRecords (m : Machine κ) : Prop :=
  ∀ i < slotCount, ∀ o ∈ [Device.recordOffset (Int64.ofNat i), Device.recordOffset (Int64.ofNat i) + 8],
    (m.device.eventWord? o).isSome ∧ (m.device.eventWord? (m.device.options.pageSize + o)).isSome

theorem SameSetting.hasRecords {m m' : Machine κ} (h : SameSetting m m') (hm : m.HasRecords) :
    m'.HasRecords := by
  unfold Machine.HasRecords
  rw [h.eventWord?, h.options]
  exact hm

theorem exec_setEventWord {offset : Int64} {m : Machine κ} (h : (m.device.eventWord? offset).isSome)
    (v : UInt64) : ∃ m', (Device.setEventWord offset v).exec m = (.ok (), m') ∧ SameSetting m m' := by
  obtain ⟨addr, haddr⟩ := Option.isSome_iff_exists.mp h
  refine ⟨{ m with memory := m.memory.setWord addr v }, ?_, ⟨rfl, rfl, rfl, rfl, rfl⟩⟩
  unfold Device.setEventWord
  rw [exec_bind_of_ok (exec_device m), haddr]
  rfl

theorem exec_startSlot {i : Nat} {m : Machine κ} (h : m.HasRecords) (hi : i < slotCount) :
    ∃ m', (Device.startSlot i).exec m = (.ok (), m') ∧ SameSetting m m' := by
  obtain ⟨hnumber, hcpuNumber⟩ := h i hi _ List.mem_cons_self
  obtain ⟨herror, hcpuError⟩ := h i hi _ (List.mem_cons_of_mem _ List.mem_cons_self)
  obtain ⟨m₁, h₁, hs₁⟩ := exec_setEventWord hnumber 1
  rw [← hs₁.eventWord?] at herror
  obtain ⟨m₂, h₂, hs₂⟩ := exec_setEventWord herror 0
  have hs₂ := hs₁.trans hs₂
  rw [← hs₂.eventWord?] at hcpuNumber
  obtain ⟨m₃, h₃, hs₃⟩ := exec_setEventWord hcpuNumber 0
  have hs₃ := hs₂.trans hs₃
  rw [← hs₃.eventWord?] at hcpuError
  obtain ⟨m₄, h₄, hs₄⟩ := exec_setEventWord hcpuError 0
  unfold Device.startSlot
  rw [exec_bind_of_ok (exec_device m), exec_bind_of_ok h₁, exec_bind_of_ok h₂, exec_bind_of_ok h₃,
    exec_bind_of_ok h₄, exec_bind_of_ok (exec_slot hi _)]
  exact ⟨_, rfl, (hs₃.trans hs₄).trans ⟨rfl, rfl, rfl, rfl, rfl⟩⟩

theorem exec_takeSlot (m : Machine κ) :
    ∃ m', Device.takeSlot.exec m = (.ok m.progress.next, m') ∧ SameSetting m m' := by
  unfold Device.takeSlot Progress.next
  rw [exec_bind_of_ok (exec_device m)]
  change ∃ m', _ = (Except.ok (if slotCount ≤ m.device.bound then m.device.bound - 1 else m.device.bound), m') ∧ _
  by_cases hfull : slotCount ≤ m.device.bound
  · simp only [if_pos hfull]
    exact ⟨_, rfl, ⟨rfl, rfl, rfl, rfl, rfl⟩⟩
  · simp only [if_neg hfull]
    exact ⟨_, rfl, ⟨rfl, rfl, rfl, rfl, rfl⟩⟩

/-- A device that has records binds any stream. -/
theorem exec_attachStream {m : Machine κ} (h : m.HasRecords) (hfits : m.progress.Fits) (s : Stream) :
    ∃ n m', (Device.attachStream s).exec m = (.ok n, m') ∧ SameSetting m m' := by
  obtain ⟨m₁, h₁, hs₁⟩ := exec_takeSlot m
  obtain ⟨m₂, h₂, hs₂⟩ := exec_startSlot (hs₁.hasRecords h) hfits.next_lt
  unfold Device.attachStream
  rw [exec_bind_of_ok h₁, exec_bind_of_ok h₂, exec_bind_of_ok (exec_device m₂),
    exec_bind_of_ok (exec_modifyDevice _ _)]
  exact ⟨_, _, rfl, (hs₁.trans hs₂).trans ⟨rfl, rfl, rfl, rfl, rfl⟩⟩

/-! ## Binding after any run -/

section Kernel

variable [Kernel κ]

/-- A stream that is bound takes the next slot, or shares the newest one. -/
theorem bindStream_join {m m' : Machine κ} {ctx n : Nat} {va : UInt64} {size : UInt32}
    (he : (Device.bindStream ctx va size).exec m = (.ok n, m')) : m'.progress = m.progress.join := by
  rcases (bindStream_ok he trivial).2 with ⟨-, hp⟩ | ⟨⟨f, hf⟩, -⟩
  · exact hp
  · cases hf

/-- Binding a stream is a quiet step, and then one that gives it a slot. -/
theorem run_bindStream {m m' : Machine κ} {ctx n : Nat} {va : UInt64} {size : UInt32}
    (he : (Device.bindStream ctx va size).exec m = (.ok n, m')) :
    ∃ es, Run ⟨m, [], none⟩ es ⟨m', [], none⟩ := by
  rw [Device.bindStream_eq] at he
  obtain ⟨s, m₁, h₁, he⟩ := bind_ok he
  exact ⟨_, .cons (.quiet ((quiet_prepareRing ctx va size).ok h₁)) (.single (.attach he))⟩

/-- Binding a stream leaves the slot and the event record of every other stream as they are.  Only if
every slot is taken do the streams on the newest one see it start over; callbacks stay there. -/
theorem Run.bind_frame {es : List (Config κ × Action)} {m₀ m m' : Machine κ} {ctx n : Nat} {va : UInt64}
    {size : UInt32} (hfresh : Fresh m₀) (h : Run ⟨m₀, [], none⟩ es ⟨m, [], none⟩)
    (hpage : 0 ≤ m.device.options.pageSize.toInt)
    (he : (Device.bindStream ctx va size).exec m = (.ok n, m')) :
    ∃ s m₁, (Device.prepareRing ctx va size).exec m = (.ok s, m₁) ∧ Served m m₁ ∧
      ∀ i ∈ m.progress.streams,
        if m.progress.bound = slotCount ∧ i + 1 = slotCount then
          m'.progress.slots.entry i = { m.progress.slots.entry i with last := 1, lastSubmit := 1 }
        else
          m'.progress.slots.entry i = m.progress.slots.entry i ∧ m'.eventRecord i = m₁.eventRecord i := by
  have hfits : m.progress.Fits := h.fits hfresh.fits
  have hjoin := bindStream_join he
  rw [Device.bindStream_eq] at he
  obtain ⟨s, m₁, h₁, he⟩ := bind_ok he
  have hserved : Served m m₁ := (served_prepareRing ctx va size).ok h₁
  refine ⟨s, m₁, h₁, hserved, fun i hi => ?_⟩
  split
  · rename_i hshared
    have hnext : m.progress.next = i := by
      unfold Progress.next
      rw [if_pos (Nat.le_of_eq hshared.1.symm)]
      omega
    rw [hjoin, hfits.entry_join, if_pos hnext, hnext]
  · rename_i hother
    have hlt := hfits.lt_next hi hother
    have hsame : m₁.progress = m.progress := ((quiet_prepareRing ctx va size).ok h₁).progress
    refine ⟨?_, attachStream_record he ?_ ?_ ?_⟩
    · rw [hjoin, hfits.entry_join, if_neg (Nat.ne_of_gt hlt)]
    · rwa [hsame]
    · rw [hsame]
      exact hfits.next_lt
    · rwa [hserved.options]

end Kernel

namespace Sample

/-- A second stream is bound. -/
def doubled : Machine Bench := ((Device.bindStream 0 0x10000 4096).exec streamed).2

end Sample

set_option maxRecDepth 20000 in
/-- A second stream leaves the slot and the record of the first one alone. -/
theorem bind_frame_sample :
    0 ≤ Sample.streamed.device.options.pageSize.toInt ∧
    ∃ es m, Run ⟨Sample.grouped, [], none⟩ es ⟨Sample.streamed, [], none⟩ ∧ Served Sample.streamed m ∧
      Sample.doubled.progress.slots.entry 0 = Sample.streamed.progress.slots.entry 0 ∧
      Sample.doubled.eventRecord 0 = m.eventRecord 0 := by
  have hfirst : (Device.bindStream 0 0 4096).exec Sample.grouped = (.ok 0, Sample.streamed) :=
    exec_of_value (by decide)
  have hsecond : (Device.bindStream 0 0x10000 4096).exec Sample.streamed = (.ok 1, Sample.doubled) :=
    exec_of_value (by decide)
  have hpage : 0 ≤ Sample.streamed.device.options.pageSize.toInt := by decide
  obtain ⟨es, hrun⟩ := run_bindStream hfirst
  obtain ⟨s, m, -, hserved, hslots⟩ := Run.bind_frame Sample.fresh_grouped hrun hpage hsecond
  have hfirst := hslots 0 (by decide)
  rw [if_neg (by decide)] at hfirst
  exact ⟨hpage, es, m, hrun, hserved, hfirst⟩

/-! ## A slot that is shared -/

/-- A device with one queue group, whose kernel grants everything. -/
structure Granting (m : Machine Bench) : Prop where
  model : m.kernel.model = .scripted {}
  plans : m.kernel.plans = []
  generation : m.device.generation = .csf
  contexts : ∃ c, m.device.contexts = [c]
  options : m.device.options = { pageSize := 4096 }
  records : m.device.eventMemory = some ⟨0x1000, 8192⟩

namespace Granting

variable {m m' : Machine Bench}

theorem mono (h : Granting m) (hs : SameSetting m m') : Granting m' where
  model := by rw [hs.kernel, h.model]
  plans := by rw [hs.kernel, h.plans]
  generation := by rw [hs.generation, h.generation]
  contexts := by
    rw [hs.contexts]
    exact h.contexts
  options := by rw [hs.options, h.options]
  records := by rw [hs.records, h.records]

theorem hasRecords (h : Granting m) : m.HasRecords := by
  have hpage : (4096 : Int64).toInt = 4096 := by decide
  have hword {o : Int64} (hlow : 0 ≤ o.toInt) (hhigh : o.toInt < 8192) :
      (m.device.eventWord? o).isSome := by
    rw [Device.eventWord?, h.records, Option.bind_some, Mapping.byteAddr?, if_pos ⟨hlow, hhigh⟩]
    rfl
  intro i hi o ho
  obtain ⟨hnumber, herror⟩ := toInt_recordOffset hi
  have hi : i < 256 := hi
  have hin : 0 ≤ o.toInt ∧ o.toInt < 4096 := by
    rw [List.mem_pair] at ho
    rcases ho with rfl | rfl
    · omega
    · omega
  refine ⟨hword hin.1 (by omega), ?_⟩
  have hsum : (m.device.options.pageSize + o).toInt = 4096 + o.toInt := by
    rw [h.options, Int64.toInt_add, hpage]
    exact Int.bmod_eq_of_le (by omega) (by omega)
  exact hword (by omega) (by omega)

theorem exec_prepareRing (h : Granting m) (va : UInt64) (size : UInt32) :
    ∃ s m₁, (Device.prepareRing 0 va size).exec m = (.ok s, m₁) ∧ Granting m₁ := by
  obtain ⟨hmodel, hplans, hgeneration, ⟨c, hcontexts⟩, hoptions, hrecords⟩ := h
  rcases m with ⟨⟨model, _, _, plans⟩, _, _, _, _, _, ⟨fd, generation, options⟩⟩
  dsimp only at hmodel hplans hgeneration hcontexts hoptions hrecords
  subst hmodel hplans hgeneration hcontexts hoptions hrecords
  exact ⟨_, _, rfl, ⟨rfl, rfl, rfl, ⟨_, rfl⟩, rfl, rfl⟩⟩

theorem exec_bindStream (h : Granting m) (hfits : m.progress.Fits) (va : UInt64) (size : UInt32) :
    ∃ n m', (Device.bindStream 0 va size).exec m = (.ok n, m') ∧ Granting m' := by
  obtain ⟨s, m₁, h₁, hm₁⟩ := h.exec_prepareRing va size
  have hsame : m₁.progress = m.progress := ((quiet_prepareRing 0 va size).ok h₁).progress
  obtain ⟨n, m', h₂, hs⟩ := exec_attachStream hm₁.hasRecords (by rwa [hsame]) s
  refine ⟨n, m', ?_, hm₁.mono hs⟩
  rw [Device.bindStream_eq, exec_bind_of_ok h₁, h₂]

/-- Any number of streams can be bound while there are slots.  By induction on the number. -/
theorem exists_run_bind (h : Granting m) (hfresh : Fresh m) (n : Nat) (hn : n ≤ slotCount) :
    ∃ es m', Run ⟨m, [], none⟩ es ⟨m', [], none⟩ ∧ Granting m' ∧ m'.progress.Sound ∧
      m'.progress.bound = n ∧
      ∀ i < n, m'.progress.slots.entry i = { last := 1, lastSubmit := 1 } := by
  induction n with
  | zero => exact ⟨[], m, .nil _, h, hfresh.sound, hfresh.bound, fun i hi => absurd hi (Nat.not_lt_zero i)⟩
  | succ n ih =>
    obtain ⟨es, m₁, hrun, hm₁, hs, hbound, hentry⟩ := ih (Nat.le_of_succ_le hn)
    obtain ⟨k, m', he, hm'⟩ := hm₁.exec_bindStream (hrun.fits hfresh.fits) 0 4096
    obtain ⟨es', hrun'⟩ := run_bindStream he
    have hlt : m₁.progress.bound < slotCount := by rwa [hbound]
    have hattach : m'.progress = m₁.progress.attach := by
      rw [bindStream_join he, Progress.join_of_lt hlt]
    refine ⟨_, m', hrun.append hrun', hm', by rw [hattach]; exact hs.attach hlt, ?_, fun i hi => ?_⟩
    · rw [hattach]
      show m₁.progress.bound + 1 = n + 1
      rw [hbound]
    · rw [hattach, Progress.attach, SlotTable.entry_put _ hlt]
      split
      · rw [hs.slots.rest _ (Nat.le_refl _)]
      · exact hentry i (by omega)

end Granting

/-- A device with a queue group whose kernel grants everything. -/
def Sample.granted : Machine Bench := { Sample.grouped with kernel := { model := .scripted {} } }

/-- After 256 streams another one restarts the newest slot, and what was submitted there is forgotten. -/
theorem bind_restarts_shared :
    Fresh Sample.granted ∧
    ∃ es m n m', Run ⟨Sample.granted, [], none⟩ es ⟨m, [], none⟩ ∧ 255 ∈ m.progress.streams ∧
      (Device.bindStream 0 0 4096).exec m = (.ok n, m') ∧
      m.progress.slots.entry 255 = { last := 1, lastSubmit := 6 } ∧
      m'.progress.slots.entry 255 = { last := 1, lastSubmit := 1 } := by
  have hfresh : Fresh Sample.granted := by
    constructor
    case range => exact Int.le_refl _
    all_goals rfl
  have hgranting : Granting Sample.granted := ⟨rfl, rfl, rfl, ⟨_, rfl⟩, rfl, rfl⟩
  refine ⟨hfresh, ?_⟩
  obtain ⟨es, m₁, hrun, hm₁, hs, hbound, hentry⟩ :=
    hgranting.exists_run_bind hfresh slotCount (Nat.le_refl _)
  have hmem : 255 ∈ m₁.progress.streams := by
    rw [hs.streams, hbound]
    decide
  have hslot := exec_slot (show 255 < slotCount by decide) m₁
  obtain ⟨m, hsubmit, hsetting⟩ :
      ∃ m, (Device.submitSlot (255 : Nat) 5).exec m₁ = (.ok (), m) ∧ SameSetting m₁ m := by
    unfold Device.submitSlot
    rw [exec_bind_of_ok hslot]
    exact ⟨_, rfl, ⟨rfl, rfl, rfl, rfl, rfl⟩⟩
  have hprogress := (submitSlot_ok hsubmit).progress
  rw [Int.toNat_natCast] at hprogress
  have hlast : m.progress.slots.entry 255 = { last := 1, lastSubmit := 6 } := by
    rw [hprogress, Progress.put, SlotTable.entry_put _ (by decide), if_pos rfl, hentry 255 (by decide)]
    rfl
  have hrun := hrun.append (.single (.submit hmem hsubmit))
  have hfits : m.progress.Fits := hrun.fits hfresh.fits
  obtain ⟨n, m', he, -⟩ := (hm₁.mono hsetting).exec_bindStream hfits 0 4096
  refine ⟨_, m, n, m', hrun, ?_, he, hlast, ?_⟩
  · rw [hprogress, Progress.put_streams]
    exact hmem
  · have hnext : m.progress.next = 255 := by
      rw [hprogress, Progress.next, Progress.put_bound, hbound]
      rfl
    rw [bindStream_join he, hfits.entry_join, if_pos hnext, hnext, hlast]

end Mali
