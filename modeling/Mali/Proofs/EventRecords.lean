import Mali.Proofs.Binding
import Mali.Proofs.Holders
import Mali.Proofs.Records

/-!
# Who writes the event records

The event records live in a mapping of their own, which the GPU and the library write.  While buffers are released
nobody else does, as long as the mappings of buffers lie elsewhere and the kernel, which takes memory and descriptors
back meanwhile, stores nothing there: an unused buffer is marked in its own mapping, and everything else that a release
does is told to the tables of the library.

* `Device.InRecord`: the bytes of the event records.
* `Machine.Secluded`: neither buffers nor a kernel that takes something back get at them.
* `Unmoved`: submission contexts and references stay as they are, and no buffer gets a mapping.
* `Skirts`: besides, syncobjs and insert offsets stay as they are, and so do secluded records.
* `skirts_runCallbacks`, `unreference_skirts`: what releases leave alone.
-/

namespace Mali

open Op

variable {κ : Type}

/-! ## Bytes of the records -/

/-- Whether a byte belongs to an event record. -/
def Device.InRecord (d : Device) (a : Nat) : Prop :=
  ∃ (i w : Nat), d.eventWord? (Device.recordOffset (Int64.ofNat i)) = some w ∧ w ≤ a ∧ a < w + 8

/-- Whether a byte belongs to a mapping. -/
def Mapping.Covers (r : Mapping) (a : Nat) : Prop := r.addr.toNat ≤ a ∧ a < r.addr.toNat + r.length

/-- Whether a byte belongs to the word that is stored. -/
def Store.Covers : Store → Nat → Prop
  | .set addr _, a | .add addr _, a => addr ≤ a ∧ a < addr + 8

/-- Whether a call gives memory or a descriptor back. -/
def Syscall.givesBack : Syscall → Bool
  | .munmap _ | .close _ | .ioctl _ (.memFree _) | .ioctl _ (.old _ (.memFree _)) => true
  | _ => false

/-- Neither do the mappings of buffers reach into the event records, nor does the kernel store anything there while it
takes memory or a descriptor back. -/
structure Machine.Secluded [Kernel κ] (m : Machine κ) : Prop where
  mappings : ∀ b ∈ m.allocator.buffers, ∀ r, b.cpu = some r → ∀ a, r.Covers a → ¬m.device.InRecord a
  kernel : ∀ (k : κ) (c : Syscall), c.givesBack = true → ∀ s ∈ (Kernel.call k c).1.stores, ∀ a, s.Covers a →
    ¬m.device.InRecord a

/-- Records stay secluded as long as no buffer gets a mapping. -/
theorem Machine.Secluded.mono [Kernel κ] {m m' : Machine κ} (h : m.Secluded)
    (hp : m'.device.eventMemory = m.device.eventMemory)
    (hmaps : ∀ b' ∈ m'.allocator.buffers, ∀ r, b'.cpu = some r → ∃ b ∈ m.allocator.buffers, b.cpu = some r) :
    m'.Secluded := by
  have hin (a : Nat) : m'.device.InRecord a ↔ m.device.InRecord a := by
    unfold Device.InRecord Device.eventWord?
    rw [hp]
  refine ⟨fun b' hb' r hr a ha hrecord => ?_, fun k c hc s hs a ha hrecord => ?_⟩
  · obtain ⟨b, hb, hr'⟩ := hmaps b' hb' r hr
    exact h.mappings b hb r hr' a ha ((hin a).mp hrecord)
  · exact h.kernel k c hc s hs a ha ((hin a).mp hrecord)

namespace Memory

/-- A write leaves the bytes outside its range alone. -/
theorem byte_store_of_outside (μ : Memory) {addr a : Nat} {bs : List UInt8} (h : ¬(addr ≤ a ∧ a < addr + bs.length)) :
    (μ.store addr bs).byte a = μ.byte a := by
  rw [byte_store]
  split
  · rw [List.getD_eq_getElem?_getD, List.getElem?_eq_none (by omega), Option.getD_none]
  · rfl

theorem byte_setWord_of_outside (μ : Memory) {addr a : Nat} (v : UInt64) (h : ¬(addr ≤ a ∧ a < addr + 8)) :
    (μ.setWord addr v).byte a = μ.byte a := μ.byte_store_of_outside (by rwa [length_leBytes])

theorem word_setWord_of_apart (μ : Memory) {a b : Nat} (h : a + 8 ≤ b ∨ b + 8 ≤ a) (v : UInt64) :
    (μ.setWord b v).word a = μ.word a := by
  rw [word, load_congr fun x hle hlt => μ.byte_setWord_of_outside v (by omega), word]

/-- What was written is read. -/
theorem load_store (μ : Memory) (addr : Nat) (bs : List UInt8) : (μ.store addr bs).load addr bs.length = bs := by
  induction bs generalizing μ addr with
  | nil => rfl
  | cons b bs ih => rw [store, List.length_cons, load, ih, byte_store, if_neg (by omega), byte_setByte, if_pos rfl]

theorem word_setWord_self (μ : Memory) (a : Nat) (v : UInt64) : (μ.setWord a v).word a = v := by
  have hload := μ.load_store a (leBytes 8 v.toNat)
  rw [length_leBytes] at hload
  have hlt : v.toNat < 256 ^ 8 := v.toNat_lt
  rw [word, setWord, hload, ofLE_leBytes, Nat.mod_eq_of_lt hlt, UInt64.ofNat_toNat]

/-- What is stored leaves the other bytes alone. -/
theorem byte_apply (μ : Memory) {s : Store} {a : Nat} (h : ¬s.Covers a) : (μ.apply s).byte a = μ.byte a := by
  cases s with
  | set addr value => exact μ.byte_setWord_of_outside value h
  | add addr value => exact μ.byte_setWord_of_outside _ h

theorem byte_foldl_apply {ss : List Store} (μ : Memory) {a : Nat} (h : ∀ s ∈ ss, ¬s.Covers a) :
    (ss.foldl apply μ).byte a = μ.byte a := by
  induction ss generalizing μ with
  | nil => rfl
  | cons s ss ih =>
    rw [List.forall_mem_cons] at h
    rw [List.foldl_cons, ih _ h.2, μ.byte_apply h.1]

/-- A mark lies within its mapping. -/
theorem byte_mark (μ : Memory) {r : Mapping} {a : Nat} (h : ¬r.Covers a) : (μ.mark r).byte a = μ.byte a := by
  unfold mark
  split
  · rfl
  · rename_i hlong
    refine μ.byte_store_of_outside fun ⟨hle, hlt⟩ => h ⟨hle, ?_⟩
    have hmarker : marker.length = markerLength := by decide
    omega

end Memory

/-! ## What operations leave alone -/

/-- No buffer gets a mapping if the one that changes does not. -/
theorem mapping_of_modify {bs : List Buffer} {x : Nat} {f : Buffer → Buffer}
    (hcpu : ∀ b r, (f b).cpu = some r → b.cpu = some r) :
    ∀ b' ∈ bs.modify x f, ∀ r, b'.cpu = some r → ∃ b ∈ bs, b.cpu = some r := by
  intro b' hb' r hr
  obtain ⟨i, hi⟩ := List.mem_iff_getElem?.mp hb'
  rw [List.getElem?_modify] at hi
  obtain ⟨b, hb, rfl⟩ := Option.map_eq_some_iff.mp hi
  refine ⟨b, List.mem_of_getElem? hb, ?_⟩
  split at hr
  · exact hcpu b r hr
  · exact hr

/-- Submission contexts and references stay as they are, and no buffer gets a mapping. -/
structure Unmoved (m m' : Machine κ) : Prop where
  submitters : m'.submitters = m.submitters
  refs : m'.allocator.buffers.map (·.refs) = m.allocator.buffers.map (·.refs)
  place : m'.device.eventMemory = m.device.eventMemory
  mappings : ∀ b' ∈ m'.allocator.buffers, ∀ r, b'.cpu = some r → ∃ b ∈ m.allocator.buffers, b.cpu = some r

namespace Unmoved

variable {m m₁ m' : Machine κ}

theorem of_same (hs : m'.submitters = m.submitters) (ha : m'.allocator.buffers = m.allocator.buffers)
    (hp : m'.device.eventMemory = m.device.eventMemory) : Unmoved m m' :=
  ⟨hs, by rw [ha], hp, fun b hb _ hr => ⟨b, ha ▸ hb, hr⟩⟩

theorem trans (h : Unmoved m m₁) (h' : Unmoved m₁ m') : Unmoved m m' where
  submitters := h'.submitters.trans h.submitters
  refs := h'.refs.trans h.refs
  place := h'.place.trans h.place
  mappings b' hb' r hr := by
    obtain ⟨b₁, hb₁, hr₁⟩ := h'.mappings b' hb' r hr
    exact h.mappings b₁ hb₁ r hr₁

/-- A buffer changes that keeps its references, and its mapping if it has one afterwards. -/
theorem of_modify {x : Nat} {f : Buffer → Buffer} (hrefs : ∀ b, (f b).refs = b.refs)
    (hcpu : ∀ b r, (f b).cpu = some r → b.cpu = some r) (hs : m'.submitters = m.submitters)
    (ha : m'.allocator.buffers = m.allocator.buffers.modify x f)
    (hp : m'.device.eventMemory = m.device.eventMemory) : Unmoved m m' where
  submitters := hs
  refs := by
    rw [ha]
    exact map_modify_eq Buffer.refs hrefs _ _
  place := hp
  mappings := by
    rw [ha]
    exact mapping_of_modify hcpu

instance : Journey (Unmoved (κ := κ)) where
  refl _ := of_same rfl rfl rfl
  trans := trans

instance : Inward (Unmoved (κ := κ)) where
  of_eq hd ha hs _ := of_same hs (by rw [ha]) (by rw [hd])

instance : Slotless (Unmoved (κ := κ)) where
  of_pace _ _ _ := of_same rfl rfl rfl

theorem count (h : Unmoved m m') (x : Nat) : m'.refs x = m.refs x := by
  have hof (m : Machine κ) : m.refs x = ((m.allocator.buffers.map (·.refs))[x]?).getD 0 := by
    rw [Machine.refs, List.getElem?_map]
  rw [hof, hof, h.refs]

theorem inRecord (h : Unmoved m m') (a : Nat) : m'.device.InRecord a ↔ m.device.InRecord a := by
  unfold Device.InRecord Device.eventWord?
  rw [h.place]

theorem secluded [Kernel κ] (h : Unmoved m m') (hm : m.Secluded) : m'.Secluded := hm.mono h.place h.mappings

end Unmoved

/-- Besides, syncobjs and insert offsets stay as they are, and so do the bytes of records that nobody else gets at. -/
structure Skirts [Kernel κ] (m m' : Machine κ) : Prop extends Unmoved m m' where
  syncobjs : m'.device.syncobjs = m.device.syncobjs
  inserts : m'.device.streams.map (·.lastInsert) = m.device.streams.map (·.lastInsert)
  bytes : m.Secluded → ∀ a, m.device.InRecord a → m'.memory.byte a = m.memory.byte a

section Kernel

variable [Kernel κ]

namespace Skirts

variable {m m₁ m' : Machine κ}

theorem trans (h : Skirts m m₁) (h' : Skirts m₁ m') : Skirts m m' where
  toUnmoved := h.toUnmoved.trans h'.toUnmoved
  syncobjs := h'.syncobjs.trans h.syncobjs
  inserts := h'.inserts.trans h.inserts
  bytes hm a ha :=
    (h'.bytes (h.secluded hm) a ((h.inRecord a).mpr ha)).trans (h.bytes hm a ha)

/-- Nothing happens to the memory, and to the device nothing that matters here. -/
theorem of_unmoved (h : Unmoved m m') (ho : m'.device.syncobjs = m.device.syncobjs)
    (hs : m'.device.streams.map (·.lastInsert) = m.device.streams.map (·.lastInsert))
    (hm : m'.memory = m.memory) : Skirts m m' := ⟨h, ho, hs, fun _ _ _ => by rw [hm]⟩

instance : Journey (Skirts (κ := κ)) where
  refl m := of_unmoved (Journey.refl m) rfl rfl rfl
  trans := trans

/-- Secluded records say what they said. -/
theorem record? (h : Skirts m m') (hm : m.Secluded) : m'.record? = m.record? := by
  funext i
  unfold Machine.record?
  have hplace : m'.device.eventWord? = m.device.eventWord? := by
    funext offset
    rw [Device.eventWord?, h.place, Device.eventWord?]
  rw [hplace]
  refine Option.map_congr fun w hw => ?_
  have hload : m'.memory.load w 8 = m.memory.load w 8 :=
    Memory.load_congr fun a hle hlt => h.bytes hm a ⟨i, w, hw, hle, hlt⟩
  rw [Memory.word, hload, Memory.word]

theorem lastInsert (h : Skirts m m') (k : Nat) :
    m'.device.streams[k]?.map (·.lastInsert) = m.device.streams[k]?.map (·.lastInsert) := by
  rw [← List.getElem?_map, h.inserts, List.getElem?_map]

end Skirts

/-! ## Releases -/

omit [Kernel κ] in
theorem unmoved_modifyDevice {f : Device → Device} (hp : ∀ d, (f d).eventMemory = d.eventMemory) :
    Keeps (Unmoved (κ := κ)) (modifyDevice f) := keeps_modify fun m => .of_same rfl rfl (hp m.device)

theorem skirts_log (level : LogLevel) (message : String) (fields : List (String × String)) :
    Keeps (Skirts (κ := κ)) (log level message fields) :=
  keeps_modify fun _ => .of_unmoved (.of_same rfl rfl rfl) rfl rfl rfl

theorem skirts_report (r : Report) : Keeps (Skirts (κ := κ)) (report r) :=
  keeps_modify fun _ => .of_unmoved (.of_same rfl rfl rfl) rfl rfl rfl

theorem skirts_trace (message : String) (fields : List (String × String)) :
    Keeps (Skirts (κ := κ)) (trace message fields) := by
  unfold trace
  refine keeps_bind keeps_device fun d => ?_
  split
  · exact skirts_log _ _ _
  · exact keeps_pure ()

/-- A call that gives something back stores nothing in secluded records. -/
theorem skirts_call {c : Syscall} (hc : c.givesBack = true) : Keeps (Skirts (κ := κ)) (call c) :=
  fun m _ => ⟨.of_same rfl rfl rfl, rfl, rfl, fun hm a ha =>
    m.memory.byte_foldl_apply fun s hs hcovers => hm.kernel m.kernel c hc s hs a hcovers ha⟩

theorem skirts_editAllocator {f : Allocator → Allocator} (hf : ∀ a, (f a).buffers = a.buffers) :
    Keeps (Skirts (κ := κ)) (modifyAllocator f) :=
  keeps_modify fun m => .of_unmoved (.of_same rfl (hf m.allocator) rfl) rfl rfl rfl

/-- A change of a buffer that keeps its references and gets no mapping. -/
theorem skirts_editBuffer (x : Nat) {f : Buffer → Buffer} (hrefs : ∀ b, (f b).refs = b.refs)
    (hcpu : ∀ b r, (f b).cpu = some r → b.cpu = some r) : Keeps (Skirts (κ := κ)) (modifyBuffer x f) :=
  keeps_modify fun _ => .of_unmoved (.of_modify hrefs hcpu rfl rfl rfl) rfl rfl rfl

theorem skirts_writeHandle (name : String) (b : Buffer) : Keeps (Skirts (κ := κ)) (Allocator.writeHandle name b) := by
  have hwrite (fd : Int) : Keeps (Skirts (κ := κ)) (Allocator.write name b fd) := by
    unfold Allocator.write
    refine keeps_bind keeps_allocator fun a => ?_
    split
    · exact keeps_pure ()
    · exact skirts_editAllocator fun _ => rfl
    · exact skirts_log _ _ _
  exact keeps_writeHandle_of hwrite

theorem skirts_freeRegion (va : UInt64) : Keeps (Skirts (κ := κ)) (Interface.freeRegion va) := by
  have hrequest (name : String) {r : Ioctl} (hr : ∀ fd, (Syscall.ioctl fd r).givesBack = true) :
      Keeps (Skirts (κ := κ)) (Interface.request name r) :=
    keeps_bind keeps_device fun d => keeps_bind_except (skirts_call (hr d.fd)) (fun _ => keeps_pure _)
      fun _ => keeps_bind (skirts_log _ _ _) fun _ => keeps_fail _
  have hold : Keeps (Skirts (κ := κ)) (Interface.oldRequest "MEM_FREE" (.memFree va)) := by
    refine keeps_bind (hrequest _ fun _ => rfl) fun reply => ?_
    split
    · exact keeps_pure _
    · exact keeps_bind (skirts_log _ _ _) fun _ => keeps_fail _
  unfold Interface.freeRegion
  refine keeps_bind keeps_device fun d => ?_
  split
  · exact hold
  · exact hrequest _ fun _ => rfl
  · exact hrequest _ fun _ => rfl

theorem skirts_freeHandle (handle : Int) : Keeps (Skirts (κ := κ)) (Device.freeHandle handle) := by
  have hset (t : HandleTable) : Keeps (Skirts (κ := κ)) (Device.setHandles t) :=
    keeps_modify fun _ => .of_unmoved (.of_same rfl rfl rfl) rfl rfl rfl
  unfold Device.freeHandle
  refine keeps_bind keeps_device fun d => ?_
  split
  · exact keeps_pure ()
  · refine keeps_bind (hset _) fun _ => keeps_bind (keeps_checkRule _) fun _ => ?_
    split
    · exact keeps_bind_except (skirts_call rfl) (fun _ => keeps_pure ()) fun _ => skirts_log _ _ _
    · exact keeps_pure ()

theorem skirts_free (x : Nat) : Keeps (Skirts (κ := κ)) (Allocator.free x) := by
  have hunmap : Keeps (Skirts (κ := κ)) (Allocator.unmapBuffer x) := by
    have hset : Keeps (Skirts (κ := κ)) (modifyBuffer x fun b => { b with cpu := none }) :=
      skirts_editBuffer x (fun _ => rfl) fun _ _ h => nomatch h
    have hcall (r : Mapping) : Keeps (Skirts (κ := κ)) (unmapMemory r) :=
      keeps_bind_except (skirts_call rfl) (fun _ => keeps_pure _) fun _ => keeps_pure _
    unfold Allocator.unmapBuffer
    refine keeps_bind (keeps_buffer x) fun b => ?_
    split
    · exact keeps_pure ()
    · exact keeps_bind_option (hcall _) hset fun _ => keeps_bind (skirts_log _ _ _) fun _ => hset
  have hregion : Keeps (Skirts (κ := κ)) (Allocator.freeBufferRegion x) := by
    have hfree (va : UInt64) : Keeps (Skirts (κ := κ)) (Device.free va) := by
      refine keeps_bind (skirts_log _ _ _) fun _ => keeps_bind (skirts_freeRegion va) fun _ =>
        keeps_bind keeps_device fun d => ?_
      split
      · exact skirts_report _
      · exact keeps_pure ()
    unfold Allocator.freeBufferRegion
    refine keeps_bind (keeps_buffer x) fun b => ?_
    split
    · exact keeps_bind_except (keeps_attempt (hfree _)) (fun _ => keeps_pure ()) fun _ => skirts_log _ _ _
    · exact keeps_pure ()
  unfold Allocator.free
  exact keeps_bind (keeps_buffer x) fun b => keeps_bind (skirts_writeHandle _ b) fun _ => keeps_bind hunmap fun _ =>
    keeps_bind hregion fun _ => keeps_bind (skirts_editAllocator fun _ => rfl) fun _ =>
    keeps_bind (skirts_freeHandle _) fun _ => keeps_bind (skirts_editBuffer x (fun _ => rfl) fun _ _ h => h) fun _ =>
    skirts_editAllocator fun _ => rfl

theorem skirts_evict (x : Nat) : Keeps (Skirts (κ := κ)) (Allocator.evict x) :=
  have huncache : Keeps (Skirts (κ := κ)) (Allocator.uncache x) :=
    keeps_uncache_of (fun _ => skirts_editAllocator fun _ => rfl)
      (skirts_editBuffer x (fun _ => rfl) fun _ _ h => h)
  keeps_bind huncache fun _ => keeps_bind (skirts_editAllocator fun _ => rfl) fun _ => skirts_free x

/-- Unused buffers are marked in their mappings, which do not reach into secluded records. -/
theorem skirts_markUnused (x : Nat) : Keeps (Skirts (κ := κ)) (Allocator.markUnused x) := by
  refine (faultless_markUnused x).keeps fun {m m' u} he => ?_
  unfold Allocator.markUnused at he
  obtain ⟨b, hb, he⟩ := bind_buffer_ok he
  rw [exec_bind_of_ok (exec_get m)] at he
  split at he
  · split at he
    · rename_i r hr
      cases he
      exact ⟨.of_same rfl rfl rfl, rfl, rfl, fun hm a ha => m.memory.byte_mark fun hcovers =>
        hm.mappings b (List.mem_of_getElem? hb) r hr a hcovers ha⟩
    · cases he
      exact Journey.refl m
  · cases he
    exact Journey.refl m

theorem skirts_finish (x : Nat) : Keeps (Skirts (κ := κ)) (Allocator.finish x) := by
  have henter : Keeps (Skirts (κ := κ)) (Allocator.enterCache x) :=
    keeps_enterCache_of (fun _ => skirts_editAllocator fun _ => rfl)
      fun _ _ _ => skirts_editBuffer x (fun _ => rfl) fun _ _ h => h
  exact keeps_finish_of henter (keeps_evictOld skirts_evict) (skirts_editBuffer x (fun _ => rfl) fun _ _ h => h)
    (skirts_markUnused x) (skirts_free x)

theorem skirts_runCallbacks (cs : List Callback) : Keeps (Skirts (κ := κ)) (Device.runCallbacks cs) := by
  have hdrained (x : Nat) : Keeps (Skirts (κ := κ)) (Buffer.queueDrained x) :=
    keeps_queueDrained_of skirts_writeHandle (skirts_finish x) (skirts_editBuffer x (fun _ => rfl) fun _ _ h => h)
  exact keeps_runCallbacks_of (keeps_runCallback_of (fun _ => skirts_report _) hdrained) cs

theorem skirts_advance (i : Int) (n : UInt64) : Keeps (Skirts (κ := κ)) (Device.advance i n) := by
  have hset (s : EventSlot) : Keeps (Skirts (κ := κ)) (Device.setSlot i.toNat s) :=
    keeps_modify fun _ => .of_unmoved (.of_same rfl rfl rfl) rfl rfl rfl
  have hready (n : UInt64) (cs : List Callback) : Keeps (Skirts (κ := κ)) (Device.traceReady i n cs) := by
    unfold Device.traceReady
    split
    · exact skirts_trace _ _
    · exact keeps_pure ()
  have hslot : Keeps (Skirts (κ := κ)) (Device.advanceSlot i n) := by
    unfold Device.advanceSlot
    refine keeps_bind (keeps_slot i) fun s => ?_
    split
    · exact keeps_bind (skirts_trace _ _) fun _ => keeps_pure _
    · exact keeps_bind (hset _) fun _ => keeps_bind (hready _ _) fun _ => keeps_bind (keeps_checkRule _) fun _ =>
        keeps_pure _
  exact keeps_bind hslot fun cs => skirts_runCallbacks cs

theorem skirts_beginRelease (x : Nat) : Keeps (Skirts (κ := κ)) (Buffer.beginRelease x) := by
  have hawait : Keeps (Skirts (κ := κ)) (Device.callbackAll (.release x)) :=
    keeps_bind keeps_device fun _ => keeps_bind
      (keeps_modify fun _ => .of_unmoved (.of_same rfl rfl rfl) rfl rfl rfl) fun _ => keeps_pure _
  exact keeps_beginRelease_of skirts_writeHandle (skirts_finish x) (skirts_editBuffer x (fun _ => rfl) fun _ _ h => h)
    hawait fun _ => skirts_editBuffer x (fun _ => rfl) fun _ _ h => h

/-! ## Writing a record -/

omit [Kernel κ] in
/-- Writing the record of a slot leaves the records of the others alone. -/
theorem setEventSeq_record {i k : Nat} {n : UInt64} {m m' : Machine κ} {u : Unit}
    (he : (Device.setEventSeq (Int64.ofNat i) n).exec m = (.ok u, m')) (hi : i < slotCount) (hk : k < slotCount) :
    m'.record? k = if k = i then some n else m.record? k := by
  obtain ⟨w, hw, rfl⟩ := setEventWord_ok he
  show (m.device.eventWord? (Device.recordOffset (Int64.ofNat k))).map _ = _
  split
  · rename_i hki
    rw [hki, hw, Option.map_some, Memory.word_setWord_self]
  · rename_i hki
    refine Option.map_congr fun w' hw' => Memory.word_setWord_of_apart _ ?_ n
    obtain ⟨p, hp, -, -, rfl⟩ := Device.eventWord?_eq_some hw
    obtain ⟨p', hp', -, -, rfl⟩ := Device.eventWord?_eq_some hw'
    rw [hp] at hp'
    cases hp'
    have hnumber := (toInt_recordOffset hi).1
    have hnumber' := (toInt_recordOffset hk).1
    omega

end Kernel

/-! ## A bench -/

/-- What gives something back stores nothing on a bench, and takes no time there. -/
theorem Bench.call_givesBack (b : Bench) {c : Syscall} (hc : c.givesBack = true) :
    (b.call c).1.stores = [] ∧ (b.call c).2.clock = b.clock := by
  have hidle (b : Bench) (s : IdleState) {fd : Int} {r : Ioctl} (hr : (Syscall.ioctl fd r).givesBack = true) :
      (b.idleIoctl s r).1.stores = [] ∧ (b.idleIoctl s r).2.clock = b.clock := by
    unfold idleIoctl
    dsimp only
    split
    · exact ⟨rfl, rfl⟩
    · cases r with
      | memFree => exact ⟨rfl, rfl⟩
      | old => exact ⟨rfl, rfl⟩
      | _ => cases hr
  have hscript (b : Bench) (s : ScriptState) {fd : Int} {r : Ioctl} (hr : (Syscall.ioctl fd r).givesBack = true) :
      (b.scriptIoctl s r).1.stores = [] ∧ (b.scriptIoctl s r).2.clock = b.clock := by
    cases r with
    | memFree => exact ⟨rfl, rfl⟩
    | old flags r =>
      cases r with
      | memFree =>
        unfold scriptIoctl
        dsimp only
        split <;> exact ⟨rfl, rfl⟩
      | _ => cases hr
    | _ => cases hr
  have hperform (b : Bench) : (b.perform c).1.stores = [] ∧ (b.perform c).2.clock = b.clock := by
    cases c with
    | ioctl fd r =>
      unfold perform
      split
      · exact hidle _ _ hc
      · exact hscript _ _ hc
    | munmap p =>
      show (b.munmap p).1.stores = [] ∧ (b.munmap p).2.clock = b.clock
      unfold munmap mapIdle
      split
      · dsimp only [ok]
        split <;> exact ⟨rfl, rfl⟩
      · exact ⟨rfl, rfl⟩
    | close fd =>
      simp only [perform]
      split_ifs <;> exact ⟨rfl, rfl⟩
    | _ => cases hc
  unfold call
  split
  · exact hperform b
  · split
    · exact ⟨rfl, rfl⟩
    · exact hperform _

end Mali
