import Mali.Proofs.Requests

/-!
# What calls do

Every call is kept with its answer, so it can be read off a stretch of calls which regions, mappings and descriptors
it took from the kernel and which it gave back.  A call that gives something back counts whether or not the kernel
accepts it.

Operations that only make calls leave the library as it is.  What such an operation does is said by its outcome: to
each value or fault belong the deeds that lead to it.  Sequences do what their parts do.

* `Deed`, `CallRecord.deed`, `deedsOf`: what calls did.
* `Did`: calls did something, and the library stays as it is.
* `Does`, `Does.bind`, `Does.attempt`: what an operation does, by its outcome.
* `does_allocRegion`, `does_freeRegion`, `does_importFd`, `does_mapMemory`: the requests for memory.
-/

namespace Mali

open Op

/-! ## Deeds -/

/-- What a call took from the kernel or gave back. -/
inductive Deed where
  /-- A region was made. -/
  | region (r : RegionReply)
  /-- A region was made for a descriptor. -/
  | imported (r : ImportReply)
  /-- A region was to be given back. -/
  | freed (va : UInt64)
  /-- A part of the device file was mapped. -/
  | mapped (offset : Int64) (p : Mapping)
  /-- A mapping was to be ended. -/
  | unmapped (p : Mapping)
  /-- A descriptor was duplicated. -/
  | duplicated (fd : Int)
  /-- A descriptor was to be closed. -/
  | closed (fd : Int)
  /-- A descriptor was found to be of the same file as another. -/
  | same (fd other : Int)

/-- What a call did.  The oldest generation also answers with codes, and has one cookie for all regions. -/
def CallRecord.deed : CallRecord → Option Deed
  | ⟨.ioctl _ (.memAlloc _), .ok reply⟩ => some (.region reply)
  | ⟨.ioctl _ (.old _ (.memAlloc _)), .ok reply⟩ =>
    if reply.code = 0 then some (.region ⟨reply.value.flags, Interface.oldCookie⟩) else none
  | ⟨.ioctl _ (.memImport _), .ok reply⟩ => some (.imported reply)
  | ⟨.ioctl _ (.old _ (.memImport _)), .ok reply⟩ => if reply.code = 0 then some (.imported reply.value) else none
  | ⟨.ioctl _ (.memFree va), _⟩ | ⟨.ioctl _ (.old _ (.memFree va)), _⟩ => some (.freed va)
  | ⟨.mmap _ offset length _ _, .ok addr⟩ => some (.mapped offset ⟨addr, length.toInt.toNat⟩)
  | ⟨.munmap p, _⟩ => some (.unmapped p)
  | ⟨.dup _, .ok fd⟩ => some (.duplicated fd)
  | ⟨.close fd, _⟩ => some (.closed fd)
  | ⟨.sameFile fd other, .ok true⟩ => some (.same fd other)
  | _ => none

/-- What calls did, newest first as the calls are. -/
def deedsOf (cs : List CallRecord) : List Deed := cs.filterMap CallRecord.deed

namespace Deed

/-- The region that a deed made. -/
def region? : Deed → Option RegionReply
  | .region r => some r
  | _ => none

/-- The address of the region that a deed gave back. -/
def freed? : Deed → Option UInt64
  | .freed va => some va
  | _ => none

/-- The mapping that a deed made. -/
def mapped? : Deed → Option Mapping
  | .mapped _ p => some p
  | _ => none

/-- The mapping that a deed ended. -/
def unmapped? : Deed → Option Mapping
  | .unmapped p => some p
  | _ => none

/-- The descriptor that a deed made. -/
def duplicated? : Deed → Option Int
  | .duplicated fd => some fd
  | _ => none

/-- The descriptor that a deed closed. -/
def closed? : Deed → Option Int
  | .closed fd => some fd
  | _ => none

end Deed

variable {κ α β : Type}

/-- Calls did something, and the library and what it told stay as they are. -/
structure Did (es : List Deed) (m m' : Machine κ) : Prop extends SameInside m m' where
  calls : ∃ cs, m'.calls = cs ++ m.calls ∧ deedsOf cs = es
  reports : m'.reports = m.reports

namespace Did

variable {es ds : List Deed} {m m₁ m' : Machine κ}

theorem refl (m : Machine κ) : Did [] m m := ⟨⟨rfl, rfl, rfl, rfl⟩, ⟨[], rfl, rfl⟩, rfl⟩

theorem trans (h : Did es m m₁) (h' : Did ds m₁ m') : Did (ds ++ es) m m' := by
  obtain ⟨cs, hcs, rfl⟩ := h.calls
  obtain ⟨cs', hcs', rfl⟩ := h'.calls
  refine ⟨Journey.trans h.toSameInside h'.toSameInside, ⟨cs' ++ cs, ?_, List.filterMap_append⟩,
    h'.reports.trans h.reports⟩
  rw [hcs', hcs, List.append_assoc]

/-- The log does not matter. -/
theorem log (m : Machine κ) (log : List LogRecord) : Did [] m { m with log } :=
  ⟨⟨rfl, rfl, rfl, rfl⟩, ⟨[], rfl, rfl⟩, rfl⟩

end Did

/-! ## What operations do -/

theorem deedsOf_append (cs ds : List CallRecord) : deedsOf (ds ++ cs) = deedsOf ds ++ deedsOf cs :=
  List.filterMap_append

/-- What a single call did. -/
theorem deedsOf_single (c : CallRecord) : deedsOf [c] = c.deed.toList := by
  unfold deedsOf
  cases hdeed : c.deed <;> simp [hdeed]

/-- On a device, an operation comes to a value or a fault, and what its calls do goes with that. -/
def Does (d : Device) (x : Op κ α) (S : Except Fault α → List Deed → Prop) : Prop :=
  ∀ m : Machine κ, m.device = d →
    ∃ r es m', x.exec m = (r.mapError Halt.fault, m') ∧ Did es m m' ∧ S r es

section

variable {d : Device} {x : Op κ α} {S : Except Fault α → List Deed → Prop}

/-- An operation does what its calls do. -/
theorem does_iff_calls : Does d x S ↔ Calls d x fun r cs => S r (deedsOf cs) := by
  refine forall₂_congr fun m _ => ⟨?_, ?_⟩
  · rintro ⟨r, es, m', he, hdid, hr⟩
    obtain ⟨cs, hcalls, rfl⟩ := hdid.calls
    exact ⟨r, cs, m', he, ⟨hdid.toSameInside, hcalls, hdid.reports⟩, hr⟩
  · rintro ⟨r, cs, m', he, hcalled, hr⟩
    exact ⟨r, _, m', he, ⟨hcalled.toSameInside, ⟨cs, hcalled.calls, rfl⟩, hcalled.reports⟩, hr⟩

end

namespace Does

variable {d : Device} {x : Op κ α} {f : α → Op κ β} {S : Except Fault α → List Deed → Prop}
  {T : Except Fault β → List Deed → Prop}

theorem mono (h : Does d x S) {S' : Except Fault α → List Deed → Prop} (hS : ∀ r es, S r es → S' r es) :
    Does d x S' :=
  does_iff_calls.2 ((does_iff_calls.1 h).mono fun r _ => hS r _)

theorem pure {a : α} (h : S (.ok a) []) : Does d (Pure.pure a : Op κ α) S := does_iff_calls.2 (.pure h)

theorem fail {f : Fault} (h : S (.error f) []) : Does d (Op.fail f : Op κ α) S := does_iff_calls.2 (.fail h)

/-- A sequence stops at a fault of its first part, or does what its second part does after the first. -/
theorem bind (hx : Does d x S) (herror : ∀ h es, S (.error h) es → T (.error h) es)
    (hok : ∀ a es, S (.ok a) es → Does d (f a) fun r ds => T r (ds ++ es)) : Does d (x >>= f) T := by
  refine does_iff_calls.2 ((does_iff_calls.1 hx).bind (fun h _ => herror h _) fun a cs hr => ?_)
  refine (does_iff_calls.1 (hok a _ hr)).mono fun r ds hT => ?_
  rwa [deedsOf_append]

/-- What goes before comes to a value and makes no call. -/
theorem next {P : α → Prop} (hx : Calls d x fun r cs => cs = [] ∧ ∃ a, r = .ok a ∧ P a)
    (hf : ∀ a, P a → Does d (f a) T) : Does d (x >>= f) T :=
  does_iff_calls.2 (hx.next fun a ha => does_iff_calls.1 (hf a ha))

theorem attempt (hx : Does d x S) : Does d (Op.attempt x) fun r es => ∃ r', r = .ok r' ∧ S r' es :=
  does_iff_calls.2 (does_iff_calls.1 hx).attempt

theorem ignore (hx : Does d x S) : Does d (Op.ignore x) fun r es => r = .ok () ∧ ∃ r', S r' es :=
  does_iff_calls.2 (does_iff_calls.1 hx).ignore

end Does

section

variable {d : Device} [Kernel κ]

theorem does_call (c : Syscall) : Does d (call c : Op κ _) fun r es =>
    ∃ answer, r = .ok answer ∧ es = (CallRecord.deed ⟨c, answer⟩).toList := by
  refine does_iff_calls.2 ((calls_call c).mono ?_)
  rintro r cs ⟨answer, rfl, rfl⟩
  exact ⟨answer, rfl, deedsOf_single _⟩

/-! ## Requests for memory -/

/-- A request does what its answer says. -/
theorem does_request (name : String) (r : Ioctl) : Does d (Interface.request name r : Op κ r.Reply) fun out es =>
    ∃ answer, es = (CallRecord.deed ⟨.ioctl d.fd r, answer⟩).toList ∧ out = answer.mapError fun e =>
      .during (.request name) (.ofErrno e) := by
  refine does_iff_calls.2 ((calls_request name r).mono ?_)
  rintro out cs ⟨answer, rfl, hout⟩
  exact ⟨answer, deedsOf_single _, hout⟩

/-- A request of the oldest generation does so if no code was answered. -/
theorem does_oldRequest (name : String) (r : OldIoctl) :
    Does d (Interface.oldRequest name r : Op κ r.Reply) fun out es =>
      ∃ answer, es = (CallRecord.deed ⟨.ioctl d.fd (.old r.command.headerId r), answer⟩).toList ∧
        ((∃ reply : Coded r.Reply, answer = .ok reply ∧ reply.code = 0 ∧ out = .ok reply.value) ∨
          ((∀ reply : Coded r.Reply, answer = .ok reply → reply.code ≠ 0) ∧ ∃ f, out = .error f)) := by
  refine does_iff_calls.2 ((calls_oldRequest name r).mono ?_)
  rintro out cs ⟨answer, rfl, hok | ⟨hcode, f, e, hout, -⟩⟩
  · exact ⟨answer, deedsOf_single _, .inl hok⟩
  · exact ⟨answer, deedsOf_single _, .inr ⟨hcode, f, hout⟩⟩

/-- A region is made, or the kernel refuses. -/
theorem does_allocRegion (r : RegionRequest) : Does d (Interface.allocRegion r : Op κ RegionReply) fun out es =>
    (∃ reply, out = .ok reply ∧ es = [.region reply]) ∨ (∃ f, out = .error f ∧ es = []) := by
  have hrequest : Does d (Interface.request "MEM_ALLOC" (.memAlloc r) : Op κ RegionReply) fun out es =>
      (∃ reply, out = .ok reply ∧ es = [.region reply]) ∨ (∃ f, out = .error f ∧ es = []) := by
    refine (does_request _ _).mono ?_
    rintro out es ⟨answer, rfl, rfl⟩
    cases answer with
    | ok reply => exact .inl ⟨reply, rfl, rfl⟩
    | error e => exact .inr ⟨_, rfl, rfl⟩
  unfold Interface.allocRegion
  refine .next calls_device fun _ hd => ?_
  subst hd
  split
  · refine (does_oldRequest _ _).bind ?_ ?_
    · rintro h es ⟨answer, rfl, ⟨reply, -, -, hout⟩ | ⟨hcode, -⟩⟩
      · cases hout
      · refine .inr ⟨h, rfl, ?_⟩
        cases answer with
        | ok reply => simp [CallRecord.deed, hcode reply rfl]
        | error e => rfl
    · rintro reply es ⟨answer, rfl, ⟨reply', rfl, hcode, hout⟩ | ⟨-, f, hout⟩⟩
      · cases hout
        exact .pure (.inl ⟨_, rfl, by simp [CallRecord.deed, hcode]⟩)
      · cases hout
  · exact hrequest
  · exact hrequest

/-- A region is to be given back, whether or not the kernel does so. -/
theorem does_freeRegion (va : UInt64) :
    Does d (Interface.freeRegion va : Op κ Unit) fun _ es => es = [.freed va] := by
  have hrequest : Does d (Interface.request "MEM_FREE" (.memFree va) : Op κ Unit) fun _ es => es = [.freed va] := by
    refine (does_request _ _).mono ?_
    rintro out es ⟨answer, rfl, -⟩
    cases answer <;> rfl
  unfold Interface.freeRegion
  refine .next calls_device fun _ hd => ?_
  subst hd
  split
  · refine (does_oldRequest _ _).mono ?_
    rintro out es ⟨answer, rfl, -⟩
    cases answer <;> rfl
  · exact hrequest
  · exact hrequest

/-- A region is made for a descriptor, or the kernel refuses. -/
theorem does_importFd (fd : Int) (flags : UInt64) :
    Does d (Interface.importFd fd flags : Op κ ImportReply) fun out es =>
      (∃ reply, out = .ok reply ∧ es = [.imported reply]) ∨ (∃ f, out = .error f ∧ es = []) := by
  have hrequest (r : ImportRequest) :
      Does d (Interface.request "MEM_IMPORT" (.memImport r) : Op κ ImportReply) fun out es =>
        (∃ reply, out = .ok reply ∧ es = [.imported reply]) ∨ (∃ f, out = .error f ∧ es = []) := by
    refine (does_request _ _).mono ?_
    rintro out es ⟨answer, rfl, rfl⟩
    cases answer with
    | ok reply => exact .inl ⟨reply, rfl, rfl⟩
    | error e => exact .inr ⟨_, rfl, rfl⟩
  unfold Interface.importFd
  refine .next calls_device fun _ hd => ?_
  subst hd
  split
  · refine (does_oldRequest _ _).mono ?_
    rintro out es ⟨answer, rfl, ⟨reply, rfl, hcode, rfl⟩ | ⟨hcode, f, rfl⟩⟩
    · exact .inl ⟨_, rfl, by simp [CallRecord.deed, hcode]⟩
    · refine .inr ⟨f, rfl, ?_⟩
      cases answer with
      | ok reply => simp [CallRecord.deed, hcode reply rfl]
      | error e => rfl
  · exact hrequest _
  · exact hrequest _

/-- A part of the device file is mapped, or an error tells that it is not. -/
theorem does_mapMemory (offset length : Int64) (prot : Int) :
    Does d (mapMemory offset length prot : Op κ _) fun out es =>
      (∃ p, out = .ok (.ok p) ∧ es = [.mapped offset p]) ∨ (∃ e, out = .ok (.error e) ∧ es = []) := by
  refine does_iff_calls.2 ((calls_mapMemory offset length prot).mono ?_)
  rintro out cs ⟨answer, rfl, rfl⟩
  cases answer with
  | ok addr => exact .inl ⟨_, rfl, rfl⟩
  | error e => exact .inr ⟨e, rfl, rfl⟩

end

end Mali
