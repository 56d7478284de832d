import Mali.Kernel.Call
import Mali.Notification
import Mali.Options

/-!
# Simulated kernels

A bench is a kernel without hardware whose time is virtual: it passes only while something sleeps
or polls, and actions can be planned for later moments of it.  Two models share the bench's
descriptors, mappings, notifications and failure plans.

* The *idle* model always answers like one particular command stream GPU that never does any
  work, except that its processor queues run at once.
* The *scripted* model answers for any of the three generations, from queued answers where there
  are some.

Main declarations:

* `Plan`: let some calls pass, then answer some with an error number, then pass again.
* `Control`, `Bench.control`: what can be done to a bench from outside.
* `Bench.elapse`: passing time, with everything planned for it.
* the instance `Kernel Bench`.
-/

namespace Mali

/-! ## Names of calls -/

/-- What a failure plan can be made for. -/
inductive CallName where
  | command (c : Abi.Command)
  | mmap | munmap | dup | close | seek | sameFile | read
  /-- Polls of the device. -/
  | poll
  /-- Polls of other descriptors. -/
  | pollFd
  deriving DecidableEq, Repr, Inhabited

namespace CallName

/-- The call with a given name. -/
def ofName? (s : String) : Option CallName :=
  match s with
  | "mmap" => some mmap
  | "munmap" => some munmap
  | "dup" => some dup
  | "close" => some close
  | "seek" => some seek
  | "samefile" => some sameFile
  | "read" => some read
  | "poll" => some poll
  | "poll_fd" => some pollFd
  | s => (Abi.Command.ofName? s).map command

end CallName

/-! ## Plans -/

/-- Lets `skip` calls pass, answers the next `count` with `answer`, then lets all pass. -/
structure Plan (α : Type) where
  answer : α
  skip : Nat := 0
  count : Nat := 0
  deriving DecidableEq, Repr, Inhabited

namespace Plan

variable {α : Type}

/-- What happens to the next call, and the plan for the calls after it. -/
def next (p : Plan α) : Option α × Plan α :=
  if 0 < p.skip then (none, { p with skip := p.skip - 1 })
  else if 0 < p.count then (some p.answer, { p with count := p.count - 1 })
  else (none, p)

end Plan

/-- Plans by what they are for. -/
abbrev Plans (β α : Type) := List (β × Plan α)

namespace Plans

variable {α β : Type} [DecidableEq β]

/-- Replaces the plan for a key. -/
def put (ps : Plans β α) (key : β) (p : Plan α) : Plans β α :=
  (key, p) :: ps.filter (·.1 ≠ key)

/-- What happens to the next call of a key. -/
def next (ps : Plans β α) (key : β) : Option α × Plans β α :=
  match ps.lookup key with
  | none => (none, ps)
  | some p =>
    let (answer, p) := p.next
    (answer, put ps key p)

end Plans

/-! ## Control -/

/-- Something done to a bench from outside the program. -/
inductive Control where
  /-- Replaces the failure plan of a call. -/
  | fail (call : CallName) (plan : Plan Errno)
  /-- Replaces the return code plan of a request of the oldest generation. -/
  | code (command : Abi.Command) (plan : Plan UInt32)
  /-- Replaces the idle model's own failure plan of a request. -/
  | failNext (request : Abi.Request) (plan : Plan Errno)
  /-- Queues an answer to one memory request. -/
  | allocResult (r : RegionReply)
  /-- Queues an answer to one import. -/
  | importResult (r : ImportReply)
  /-- Queues an answer to one group creation. -/
  | groupResult (r : GroupReply)
  /-- Sets what polls of other descriptors answer. -/
  | dmabuf (ready : Bool)
  /-- Queues a record for the next read of the device. -/
  | inject (record : List UInt8)
  /-- Writes a word to memory, as the GPU does. -/
  | store (addr : Nat) (value : UInt64)
  /-- Does something after a number of nanoseconds. -/
  | after (delay : Nat) (control : Control)
  deriving Repr, Inhabited

namespace Control

/-- Whether an action writes to memory, now or later. -/
def writes : Control → Bool
  | store .. => true
  | after _ c => c.writes
  | _ => false

/-- How many actions an action stands for, counting those it plans. -/
def weight : Control → Nat
  | after _ c => c.weight + 1
  | _ => 1

/-- A notification of a command stream event. -/
def notify : Control := inject (Notification.encode {})

end Control

/-! ## Benches -/

/-- A file behind descriptors. -/
structure File where
  /-- Descriptors of one file share its number. -/
  id : Nat
  size : Int := 0
  /-- Where the next read begins.  Descriptors of one file share it. -/
  position : Int := 0
  /-- Sync files cannot be measured.  They hold one signal, which the first read takes. -/
  seekable : Bool := true
  deriving DecidableEq, Repr, Inhabited

/-- An action planned for a moment. -/
structure Timer where
  due : Nat
  control : Control
  deriving Repr, Inhabited

/-- What the idle model remembers. -/
structure IdleState where
  /-- Calls of each request, failed ones included. -/
  calls : List (Abi.Request × Nat) := []
  failures : Plans Abi.Request Errno := []
  /-- Live mappings. -/
  mapped : Int := 0
  groups : UInt32 := 0
  queues : UInt8 := 0
  deriving Repr, Inhabited

/-- What the scripted model is told and remembers. -/
structure ScriptState where
  generation : Generation := .csf
  page : Int64 := 4096
  /-- Replaces the major version. -/
  major : Option UInt16 := none
  props : List UInt8 := []
  /-- Replaces the reported size of the properties. -/
  propsSize : Option Int := none
  /-- Replaces the number of property bytes reported as read. -/
  propsRead : Option Int := none
  dump : RegisterDump := {}
  codes : Plans Abi.Command UInt32 := []
  allocResults : List RegionReply := []
  importResults : List ImportReply := []
  groupResults : List GroupReply := []
  /-- The next address of an executable region. -/
  execVa : UInt64 := 0x800000000
  groups : Nat := 0
  heaps : Nat := 0
  queues : Nat := 0
  deriving Repr, Inhabited

/-- The two models. -/
inductive Model where
  | idle (s : IdleState)
  | scripted (s : ScriptState)
  deriving Repr, Inhabited

/-- A kernel without hardware. -/
structure Bench where
  model : Model := .idle {}
  /-- Virtual nanoseconds. -/
  clock : Nat := 0
  timers : List Timer := []
  plans : Plans CallName Errno := []
  files : List (Int × File) := []
  nextFd : Int := 100
  nextFile : Nat := 0
  mappings : List Mapping := []
  nextAddr : Nat := 0x2000000000
  records : List (List UInt8) := []
  /-- Whether a record was queued since a poll last waited for one. -/
  signalled : Bool := false
  dmabufReady : Bool := true
  deriving Repr, Inhabited

namespace Bench

/-- A bench with files of the given sizes under the descriptors from fifty on. -/
def create (model : Model) (sizes : List Int) : Bench where
  model := model
  files := sizes.zipIdx.map fun (size, i) => ((50 + i : Int), { id := i, size })
  nextFile := sizes.length

/-- The kernel of a device that has none: idle, without files, and with mappings far from those of
other kernels. -/
def standIn : Bench := { model := .idle {}, nextAddr := 0x6000000000 }

/-- Whether a descriptor is that of the device. -/
def isDevice (b : Bench) (fd : Int) : Bool :=
  match b.model with
  | .idle _ => fd < 0
  | .scripted _ => fd = 3 || fd = -1

/-- Changes the state of the idle model. -/
def mapIdle (b : Bench) (f : IdleState → IdleState) : Bench :=
  match b.model with
  | .idle s => { b with model := .idle (f s) }
  | .scripted _ => b

/-- Changes the state of the scripted model. -/
def mapScript (b : Bench) (f : ScriptState → ScriptState) : Bench :=
  match b.model with
  | .idle _ => b
  | .scripted s => { b with model := .scripted (f s) }

/-! ### Control and time -/

/-- Does something to a bench, which may write to memory. -/
def control (b : Bench) : Control → List Store × Bench
  | .fail call plan => ([], { b with plans := b.plans.put call plan })
  | .code command plan => ([], b.mapScript fun s => { s with codes := s.codes.put command plan })
  | .failNext request plan =>
    ([], b.mapIdle fun s => { s with failures := s.failures.put request plan })
  | .allocResult r => ([], b.mapScript fun s => { s with allocResults := s.allocResults ++ [r] })
  | .importResult r =>
    ([], b.mapScript fun s => { s with importResults := s.importResults ++ [r] })
  | .groupResult r => ([], b.mapScript fun s => { s with groupResults := s.groupResults ++ [r] })
  | .dmabuf ready => ([], { b with dmabufReady := ready })
  | .inject record => ([], { b with records := b.records ++ [record], signalled := true })
  | .store addr value => ([.set addr value], b)
  | .after delay c => ([], { b with timers := b.timers ++ [⟨b.clock + delay, c⟩] })

/-- The earliest timer due by a moment, the first planned of those due together, and the rest. -/
def nextTimer? (timers : List Timer) (moment : Nat) : Option (Timer × List Timer) :=
  match (timers.filter (·.due ≤ moment)).map (·.due) |>.min? with
  | none => none
  | some due =>
    let i := timers.findIdx (·.due == due)
    timers[i]?.map fun t => (t, timers.eraseIdx i)

/-- The number of actions planned. -/
def timerWeight (b : Bench) : Nat := b.timers.foldl (fun n t => n + t.control.weight) 0

/-- Runs the timers due by `moment`, or only until one queues a record when `wake` is set, and says
whether one did. -/
def runTimers (wake : Bool) (moment : Nat) :
    (fuel : Nat) → Bench → List Store → Bool × List Store × Bench
  | 0, b, stores => (false, stores, b)
  | fuel + 1, b, stores =>
    match nextTimer? b.timers moment with
    | none => (false, stores, b)
    | some (t, rest) =>
      let before := b.records.length
      let (written, b) := control { b with timers := rest, clock := max b.clock t.due } t.control
      let stores := stores ++ written
      if wake && before < b.records.length then (true, stores, b)
      else runTimers wake moment fuel b stores

/-- Lets time pass up to a moment. -/
def elapse (b : Bench) (moment : Nat) : List Store × Bench :=
  let (_, stores, b) := runTimers false moment b.timerWeight b []
  (stores, { b with clock := max b.clock moment })

/-- Lets time pass up to a moment or until a record is queued, and says which. -/
def elapseUntilRecord (b : Bench) (moment : Nat) : Bool × List Store × Bench :=
  let (woken, stores, b) := runTimers true moment b.timerWeight b []
  if woken then (true, stores, b) else (false, stores, { b with clock := max b.clock moment })

/-! ### Descriptors and mappings -/

/-- The file behind a descriptor. -/
def file? (b : Bench) (fd : Int) : Option File := b.files.lookup fd

/-- Moves the position of a file, for all its descriptors. -/
def moveFile (b : Bench) (f : File) (position : Int) : Bench :=
  { b with files := b.files.map fun (fd, g) => (fd, if g.id = f.id then { g with position } else g) }

/-- Opens a new descriptor of a file. -/
def openFd (b : Bench) (f : File) : Int × Bench :=
  (b.nextFd, { b with files := b.files ++ [(b.nextFd, f)], nextFd := b.nextFd + 1 })

/-- Opens a descriptor of a new sync file. -/
def openFence (b : Bench) : Int × Bench :=
  { b with nextFile := b.nextFile + 1 }.openFd { id := b.nextFile, seekable := false }

/-- The largest mapping, in bytes. -/
def mappingLimit : Int := 0x10000000

/-- Rounds up to whole pages of the simulated machine. -/
def roundPage (n : Nat) : Nat := (n + 4095) / 4096 * 4096

/-- Places a mapping, leaving a page between it and the next. -/
def place (b : Bench) (length : Nat) : UInt64 × Bench :=
  let addr := UInt64.ofNat b.nextAddr
  (addr, { b with
    mappings := ⟨addr, length⟩ :: b.mappings
    nextAddr := b.nextAddr + roundPage length + 4096 })

/-! ### Answers -/

/-- A successful answer. -/
def ok {α : Type} (v : α) (b : Bench) : Answer α × Bench := (⟨.ok v, []⟩, b)

/-- A failed answer. -/
def err {α : Type} (e : Errno) (b : Bench) : Answer α × Bench := (⟨.error e, []⟩, b)

/-! ### The idle model -/

/-- Cookies that the idle model maps. -/
def trackingCookie : Int64 := 3 * 4096
@[inherit_doc trackingCookie] def userRegCookie : Int64 := 47 * 4096
@[inherit_doc trackingCookie] def allocCookie : Int64 := 0x41000
@[inherit_doc trackingCookie] def userIoCookie : Int64 := 0x42000
@[inherit_doc trackingCookie] def importCookie : Int64 := 0x43000

/-- The properties of the GPU that the idle model shows. -/
def idleProps : List UInt8 :=
  [(Property.rawGpuId, 0xa8670000), (Property.productId, 0xa867),
    (Property.rawShaderPresent, 0x50005), (Property.rawTextureFeatures0, 0xc1ffff9e),
    (Property.tlsAlloc, 0x800), (Property.rawTilerFeatures, 0x809)].flatMap fun (name, value) =>
      leBytes 4 (Property.key name 2).toNat ++ leBytes 4 value

/-- The flag of a region whose GPU address is its mapped address. -/
def sameVaFlag : UInt64 := 0x2000

/-- The flag of an imported region that has to be mapped. -/
def needMmapFlag : UInt64 := 0x4000

/-- Runs processor queue commands at once, in order: signalled fences get a new descriptor, sync words
are set, waits are over, and anything else is refused. -/
def runCommands : List QueueCommand → List Int → List Store → Bench →
    Answer (List Int) × Bench
  | [], fds, stores, b => (⟨.ok fds, stores⟩, b)
  | c :: cs, fds, stores, b =>
    if c.type = QueueCommand.fenceSignal then
      let (fd, b) := b.openFence
      runCommands cs (fds ++ [c.fenceAfter fd]) stores b
    else if c.type = QueueCommand.syncSet then
      let written := c.operations.map fun o =>
        if o.operation = SyncOperation.setAdd then Store.add o.addr.toNat o.value
        else Store.set o.addr.toNat o.value
      runCommands cs (fds ++ [c.fence.toInt]) (stores ++ written) b
    else if c.type = QueueCommand.fenceWait ∨ c.type = QueueCommand.syncWait then
      runCommands cs (fds ++ [c.fence.toInt]) stores b
    else (⟨.error .inval, stores⟩, b)

/-- Runs processor queue commands.  If one is refused, the words set before it stay set, but the
descriptors made before it are given back. -/
def enqueueCommands (commands : List QueueCommand) (b : Bench) : Answer (List Int) × Bench :=
  match runCommands commands [] [] b with
  | (⟨.ok fds, stores⟩, after) => (⟨.ok fds, stores⟩, after)
  | (⟨.error e, stores⟩, _) => (⟨.error e, stores⟩, b)

/-- The requests that both models answer without looking at their argument. -/
def unreadCommands : List Abi.Command :=
  [.setFlags, .memExecInit, .memJitInit, .memFree, .memSync, .csQueueRegister, .csQueueKick,
    .csQueueTerminate, .csTilerHeapTerm, .csQueueGroupTerminate, .kcpuQueueDelete]

/-- The requests that both models answer from their argument or into it. -/
def readCommands : List Abi.Command :=
  [.getGpuProps, .memAlloc, .memImport, .csQueueGroupCreate, .csQueueBind, .csTilerHeapInit,
    .kcpuQueueCreate, .kcpuQueueEnqueue]

/-- Whether the model would look into the argument of a request. -/
def readsArgument (b : Bench) (r : Abi.Request) : Bool :=
  match b.model with
  | .idle s => (s.failures.next r).1.isNone && readCommands.any (·.request == r)
  | .scripted _ =>
    match Abi.Command.all.find? (·.request == r) with
    | none | some .jobSubmit | some .versionCheckReserved => false
    | some c => !unreadCommands.contains c

/-- The answer of the idle model to a request. -/
def idleRequest (b : Bench) (s : IdleState) : (r : Ioctl) → Answer r.Reply × Bench
  | .getGpuProps size _ =>
    ok ⟨idleProps.length, if size = 0 then [] else idleProps.take size.toNat⟩ b
  | .memAlloc _ => ok ⟨sameVaFlag, allocCookie.toUInt64⟩ b
  | .csQueueGroupCreate _ =>
    ok ⟨s.groups.toUInt8, s.groups + 1⟩ (b.mapIdle fun s => { s with groups := s.groups + 1 })
  | .csTilerHeapInit _ => ok ⟨0x60000, 0x61000⟩ b
  | .csQueueBind _ _ _ => ok userIoCookie.toUInt64 b
  | .memImport r =>
    if r.type ≠ 2 then err .inval b
    else
      match b.file? r.fd.toInt with
      | none => err .badf b
      | some f =>
        if f.seekable then
          ok ⟨needMmapFlag, importCookie.toUInt64, UInt64.ofInt (f.size + 4095) / 4096⟩
            (b.moveFile f f.size)
        else err .spipe b
  | .kcpuQueueCreate => ok s.queues (b.mapIdle fun s => { s with queues := s.queues + 1 })
  | .kcpuQueueEnqueue _ commands => enqueueCommands commands b
  | .setFlags _ => ok () b
  | .memExecInit _ => ok () b
  | .memJitInit _ _ _ _ _ => ok () b
  | .memFree _ => ok () b
  | .memSync _ => ok () b
  | .csQueueRegister _ _ _ => ok () b
  | .csQueueKick _ => ok () b
  | .csQueueTerminate _ => ok () b
  | .csTilerHeapTerm _ => ok () b
  | .csQueueGroupTerminate _ => ok () b
  | .kcpuQueueDelete _ => ok () b
  | .versionCheck _ => err .nosys b
  | .jobSubmit _ => err .nosys b
  | .old _ _ => err .nosys b
  | .unknown r => if unreadCommands.any (·.request == r) then ok () b else err .nosys b

/-- Counts a call of a request. -/
def countCall (calls : List (Abi.Request × Nat)) (r : Abi.Request) : List (Abi.Request × Nat) :=
  (r, (calls.lookup r).getD 0 + 1) :: calls.filter (·.1 ≠ r)

/-- A request to the idle model: it is counted, then failed or answered. -/
def idleIoctl (b : Bench) (s : IdleState) (r : Ioctl) : Answer r.Reply × Bench :=
  let (failure, failures) := s.failures.next r.request
  let s := { s with calls := countCall s.calls r.request, failures }
  let b := { b with model := .idle s }
  match failure with
  | some e => err e b
  | none => b.idleRequest s r

/-! ### The scripted model -/

/-- Replaces the state of the model. -/
def withScript (b : Bench) (s : ScriptState) : Bench := { b with model := .scripted s }

/-- The first of some queued answers, and the rest. -/
def dequeue {α : Type} : List α → Option α × List α
  | [] => (none, [])
  | a :: as => (some a, as)

/-- The answer of the scripted model to an import. -/
def scriptImport (b : Bench) (s : ScriptState) (r : ImportRequest) : Answer ImportReply × Bench :=
  match b.file? r.fd.toInt with
  | none => err .badf b
  | some f =>
    if f.seekable then
      match dequeue s.importResults with
      | (some reply, rest) => ok reply (b.withScript { s with importResults := rest })
      | (none, _) =>
        let pages := (Int64.ofInt f.size + s.page - 1) / s.page
        ok ⟨needMmapFlag, importCookie.toUInt64, pages.toUInt64⟩ b
    else err .spipe b

/-- Gives every signalled fence a new descriptor. -/
def signalFences : List QueueCommand → Bench → List Int × Bench
  | [], b => ([], b)
  | c :: cs, b =>
    if c.type = QueueCommand.fenceSignal then
      let (fd, b) := b.openFence
      let (fds, b) := signalFences cs b
      (c.fenceAfter fd :: fds, b)
    else
      let (fds, b) := signalFences cs b
      (c.fence.toInt :: fds, b)

/-- The answer of the scripted model to a request of the oldest generation. -/
def scriptOld (b : Bench) (s : ScriptState) : (r : OldIoctl) → Answer (Coded r.Reply) × Bench
  | .getVersion => ok { value := ⟨10, 2⟩ } b
  | .memAlloc r =>
    match dequeue s.allocResults with
    | (some reply, rest) =>
      ok { value := ⟨reply.flags, 0⟩ } (b.withScript { s with allocResults := rest })
    | (none, _) => ok { value := ⟨r.flags, 0⟩ } b
  | .memImport r =>
    match b.scriptImport s r with
    | (⟨.ok reply, stores⟩, b) => (⟨.ok { value := reply }, stores⟩, b)
    | (⟨.error e, stores⟩, b) => (⟨.error e, stores⟩, b)
  | .gpuPropsRegDump => ok { value := s.dump } b
  | .memFree _ => ok { value := () } b
  | .memSync _ => ok { value := () } b
  | .setFlags _ => ok { value := () } b
  | .jobSubmit _ => ok { value := () } b

/-- The answer of the scripted model to a request. -/
def scriptIoctl (b : Bench) (s : ScriptState) : (r : Ioctl) → Answer r.Reply × Bench
  | .versionCheck reserved =>
    if reserved && s.generation ≠ .csf then err .notty b
    else
      ok ⟨s.major.getD (if s.generation = .old then 3 else 11), 2⟩ b
  | .getGpuProps size _ =>
    let length : Int := s.props.length
    if size = 0 then ok ⟨s.propsSize.getD length, []⟩ b
    else ok ⟨s.propsRead.getD length, s.props.take size.toNat⟩ b
  | .memAlloc r =>
    match dequeue s.allocResults with
    | (some reply, rest) => ok reply (b.withScript { s with allocResults := rest })
    | (none, _) =>
      if r.flags &&& sameVaFlag ≠ 0 then ok ⟨r.flags, allocCookie.toUInt64⟩ b
      else
        ok ⟨r.flags, s.execVa⟩
          (b.withScript { s with execVa := s.execVa + r.vaPages * s.page.toUInt64 })
  | .memImport r => b.scriptImport s r
  | .csQueueGroupCreate _ =>
    match dequeue s.groupResults with
    | (some reply, rest) => ok reply (b.withScript { s with groupResults := rest })
    | (none, _) =>
      ok ⟨UInt8.ofNat s.groups, UInt32.ofNat (s.groups + 1)⟩
        (b.withScript { s with groups := s.groups + 1 })
  | .csTilerHeapInit _ =>
    let heap := UInt64.ofNat (0x60000 + 0x2000 * s.heaps)
    ok ⟨heap, heap + 0x1000⟩ (b.withScript { s with heaps := s.heaps + 1 })
  | .csQueueBind _ _ _ => ok userIoCookie.toUInt64 b
  | .kcpuQueueCreate =>
    ok (UInt8.ofNat s.queues) (b.withScript { s with queues := s.queues + 1 })
  | .kcpuQueueEnqueue _ commands =>
    let (fds, b) := signalFences commands b
    ok fds b
  | .old _ r =>
    let (code, codes) := s.codes.next r.command
    let s := { s with codes }
    let b := b.withScript s
    match code with
    | some code => ok { code, value := r.untouched } b
    | none => b.scriptOld s r
  | .setFlags _ => ok () b
  | .jobSubmit _ => ok () b
  | .memFree _ => ok () b
  | .memJitInit _ _ _ _ _ => ok () b
  | .memSync _ => ok () b
  | .memExecInit _ => ok () b
  | .csQueueRegister _ _ _ => ok () b
  | .csQueueKick _ => ok () b
  | .csQueueTerminate _ => ok () b
  | .csQueueGroupTerminate _ => ok () b
  | .kcpuQueueDelete _ => ok () b
  | .csTilerHeapTerm _ => ok () b
  | .unknown r =>
    if r = Abi.Command.versionCheckReserved.request then
      if s.generation = .csf then ok () b else err .notty b
    else if (Abi.Command.jobSubmit :: unreadCommands).any (·.request == r) then ok () b
    else err .nosys b

/-! ### All calls -/

/-- Maps memory.  The idle model only knows a few cookies. -/
def mmap (b : Bench) (offset length : Int64) : Answer UInt64 × Bench :=
  if mappingLimit < length.toInt then err .nomem b
  else
    match b.model with
    | .idle _ =>
      if [trackingCookie, userRegCookie, allocCookie, userIoCookie, importCookie].contains offset
      then
        if length ≤ 0 then err .inval b
        else
          let (addr, b) := b.place length.toInt.toNat
          ok addr (b.mapIdle fun s => { s with mapped := s.mapped + 1 })
      else err .nosys b
    | .scripted _ =>
      if length ≤ 0 then err .inval b
      else
        let (addr, b) := b.place length.toInt.toNat
        ok addr b

/-- Unmaps memory, which has to be a whole live mapping. -/
def munmap (b : Bench) (m : Mapping) : Answer Unit × Bench :=
  if b.mappings.contains m then
    ok () ({ b with mappings := b.mappings.erase m }.mapIdle fun s =>
      { s with mapped := s.mapped - 1 })
  else err .inval b

/-- Lets time pass up to a moment or until something wakes a poll, and says which.  A poll is also woken
by a record that was queued, and read, since a poll last waited. -/
def awaitRecord (b : Bench) (moment : Nat) : Bool × List Store × Bench :=
  let (woken, stores, b) := if b.signalled then (true, [], b) else b.elapseUntilRecord moment
  (woken, stores, if woken then { b with signalled := false } else b)

/-- Waits for a record.  The scripted model finds nothing if it was woken by one that is gone. -/
def pollDevice (b : Bench) (timeout : Int) : Answer Bool × Bench :=
  if !b.records.isEmpty then ok true b
  else if timeout ≤ 0 then ok false b
  else
    let (woken, stores, b) := b.awaitRecord (b.clock + timeout.toNat)
    (⟨.ok ((woken && b.model matches .idle _) || !b.records.isEmpty), stores⟩, b)

/-- Where a seek leads: relative to the start, the position or the end of a file. -/
def seekTarget (f : File) (offset whence : Int) : Option Int :=
  let target : Int :=
    if whence = 0 then offset
    else if whence = 1 then f.position + offset
    else if whence = 2 then f.size + offset
    else -1
  if target < 0 then none else some target

/-- Moves the position of a file and tells where it is.  The scripted model always seeks from the end,
and to any place. -/
def seek (b : Bench) (f : File) (offset whence : Int) : Answer Int × Bench :=
  if !f.seekable then err .spipe b
  else
    let target? := match b.model with
      | .idle _ => seekTarget f offset whence
      | .scripted _ => some (f.size + offset)
    match target? with
    | some target => ok target (b.moveFile f target)
    | none => err .inval b

/-- Reads from a file, whose bytes are zero.  A sync file gives its signal as one word. -/
def readFile (b : Bench) (f : File) (length : Nat) : Answer (List UInt8) × Bench :=
  if f.seekable then
    let count := min length (f.size - f.position).toNat
    ok (List.replicate count 0) (b.moveFile f (f.position + count))
  else if length < 8 then err .inval b
  else if f.position = 0 then ok (leBytes 8 1) (b.moveFile f 8)
  else err .again b

/-- The plan name of a call. -/
def callName? (b : Bench) : Syscall → Option CallName
  | .ioctl _ r => r.command?.map .command
  | .mmap .. => some .mmap
  | .munmap _ => some .munmap
  | .dup _ => some .dup
  | .close _ => some .close
  | .seek .. => some .seek
  | .sameFile .. => some .sameFile
  | .poll fd _ _ => some (if b.isDevice fd then .poll else .pollFd)
  | .read _ _ => some .read
  | .sleep _ => none
  | .await _ => none

/-- Answers a call that no plan fails. -/
def perform (b : Bench) : (c : Syscall) → Answer c.Reply × Bench
  | .ioctl _ r =>
    match b.model with
    | .idle s => b.idleIoctl s r
    | .scripted s => b.scriptIoctl s r
  | .mmap _ offset length _ _ => b.mmap offset length
  | .munmap m => b.munmap m
  | .dup fd =>
    match b.file? fd with
    | some f =>
      let (fd, b) := b.openFd f
      ok fd b
    | none => err .badf b
  | .close fd =>
    if b.isDevice fd && (fd = 3 || b.model matches .idle _) then ok () b
    else if (b.file? fd).isSome then ok () { b with files := b.files.filter (·.1 ≠ fd) }
    else err .badf b
  | .seek fd offset whence =>
    match b.file? fd with
    | some f => b.seek f offset whence
    | none => err .badf b
  | .sameFile fd other =>
    match b.file? fd, b.file? other with
    | some f, some g => ok (f.id == g.id) b
    | _, _ => err .badf b
  | .poll fd _ timeout =>
    if b.isDevice fd then b.pollDevice timeout
    else
      match b.model with
      | .idle _ => ok true b
      | .scripted _ => ok b.dmabufReady b
  | .read fd length =>
    if b.isDevice fd then
      match b.records with
      | [] => err .again b
      | r :: rs => ok (r.take length) { b with records := rs }
    else
      match b.file? fd with
      | some f => b.readFile f length
      | none => err .badf b
  | .sleep duration =>
    let (stores, b) := b.elapse (b.clock + duration)
    (⟨.ok (), stores⟩, b)
  | .await moment =>
    let (woken, stores, b) := b.awaitRecord moment
    (⟨.ok woken, stores⟩, b)

/-- Answers a call, or fails it as planned. -/
def call (b : Bench) (c : Syscall) : Answer c.Reply × Bench :=
  match b.callName? c with
  | none => b.perform c
  | some name =>
    match b.plans.next name with
    | (some e, plans) => err e { b with plans }
    | (none, plans) => { b with plans }.perform c

instance : Kernel Bench where
  call := call
  now b := b.clock
  pageSize b :=
    match b.model with
    | .idle _ => 4096
    | .scripted s => s.page
  simulated b :=
    match b.model with
    | .idle _ => true
    | .scripted _ => false

end Bench

end Mali
