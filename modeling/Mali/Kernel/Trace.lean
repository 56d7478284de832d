import Mali.Kernel.Call

/-!
# Text of system calls

A call reads as its name and its arguments as they were before the call, then an equals sign and
what it answered, or an exclamation mark and the error number.  All numbers are decimal.

* `Ioctl.fields`: the arguments of a request as name and text.
* `CallRecord.text?`: the line of a call.  Reads, sleeps, and what is done to wait for the
  device itself have none.
-/

namespace Mali

/-- The size of an atom in memory. -/
def atomSize : Nat := Abi.jdAtomV2.size

namespace Atom

/-- The fields of an atom; those the program never sets are zero. -/
def fields (a : Atom) : List (String × String) :=
  [("NrAtoms", "1"), ("Stride", toString atomSize), ("JC", toString a.jobChain),
    ("UData", s!"{a.seqnum},0"),
    ("Extres",
      "[" ++ ",".intercalate ((a.resources.take a.resourceCount.toNat).map toString) ++ "]"),
    ("CompatCoreReq", "0"),
    ("PreDep",
      s!"{a.dependency0.atom}:{a.dependency0.type},{a.dependency1.atom}:{a.dependency1.type}"),
    ("AtomNumber", toString a.number), ("Prio", "0"), ("DeviceNr", "0"),
    ("CoreReq", toString a.requirements)]

end Atom

/-- The fields of a region request. -/
def RegionRequest.fields (r : RegionRequest) : List (String × String) :=
  [("VAPages", toString r.vaPages), ("CommitPages", toString r.commitPages),
    ("Extension", toString r.extension), ("Flags", toString r.flags)]

/-- The fields of an import request. -/
def ImportRequest.fields (r : ImportRequest) : List (String × String) :=
  [("fd", toString r.fd), ("Type", toString r.type), ("Flags", toString r.flags)]

/-- The fields of a cache maintenance request. -/
def SyncRequest.fields (r : SyncRequest) : List (String × String) :=
  [("Handle", toString r.handle), ("UserAddr", toString r.userAddr), ("Size", toString r.size),
    ("Type", toString r.type)]

/-- The fields of a processor queue command. -/
def QueueCommand.fields (c : QueueCommand) : List (String × String) :=
  ("Type", toString c.type) ::
    if c.type = fenceSignal ∨ c.type = fenceWait then
      [("Fence", s!"{c.payloadStart.1},{c.payloadStart.2}")]
    else if c.type = syncWait ∨ c.type = syncSet then
      c.operations.map fun o =>
        ("CQS", s!"{o.addr},{o.value},{o.operation},{o.dataType}")
    else []

/-- The fields of a request of the oldest generation after its header. -/
def OldIoctl.fields : OldIoctl → List (String × String)
  | getVersion => []
  | memAlloc r => r.fields
  | memImport r => r.fields
  | memFree va => [("GPUAddr", toString va)]
  | memSync r => r.fields
  | gpuPropsRegDump => []
  | setFlags flags => [("CreateFlags", toString flags)]
  | jobSubmit atom => atom.fields

namespace Ioctl

/-- The arguments of a request in the order they are shown. -/
def fields : Ioctl → List (String × String)
  | versionCheck _ => []
  | setFlags flags => [("CreateFlags", toString flags)]
  | jobSubmit atom => atom.fields
  | getGpuProps size flags => [("Size", toString size), ("Flags", toString flags)]
  | memAlloc r => r.fields
  | memFree va => [("GPUAddr", toString va)]
  | memJitInit vaPages maxAllocations trim group physPages =>
    [("VAPages", toString vaPages), ("MaxAllocations", toString maxAllocations),
      ("Trim", toString trim), ("Group", toString group), ("PhysPages", toString physPages)]
  | memSync r => r.fields
  | memImport r => r.fields
  | memExecInit vaPages => [("VAPages", toString vaPages)]
  | csQueueRegister va size priority =>
    [("BufferGPUAddr", toString va), ("BufferSize", toString size),
      ("Priority", toString priority)]
  | csQueueKick va => [("BufferGPUAddr", toString va)]
  | csQueueBind va group csi =>
    [("BufferGPUAddr", toString va), ("GroupHandle", toString group), ("CSIIndex", toString csi)]
  | csQueueTerminate va => [("BufferGPUAddr", toString va)]
  | csQueueGroupCreate r =>
    [("TilerMask", toString r.tilerMask), ("FragmentMask", toString r.fragmentMask),
      ("ComputeMask", toString r.computeMask), ("CSMin", toString r.streamMin),
      ("Priority", toString r.priority), ("TilerMax", toString r.tilerMax),
      ("FragmentMax", toString r.fragmentMax), ("ComputeMax", toString r.computeMax)]
  | csQueueGroupTerminate group => [("GroupHandle", toString group)]
  | kcpuQueueCreate => []
  | kcpuQueueDelete id => [("ID", toString id)]
  | kcpuQueueEnqueue id commands =>
    ("NrCommands", toString commands.length) :: ("ID", toString id) ::
      commands.flatMap (·.fields)
  | csTilerHeapInit r =>
    [("ChunkSize", toString r.chunkSize), ("InitialChunks", toString r.initialChunks),
      ("MaxChunks", toString r.maxChunks), ("TargetInFlight", toString r.targetInFlight),
      ("GroupID", toString r.group)]
  | csTilerHeapTerm va => [("GPUHeapVA", toString va)]
  | old id r => ("ID", toString id) :: r.fields
  | unknown _ => []

/-- The name of a request, or its number if it has no name. -/
def title (c : Ioctl) : String :=
  match c.command? with
  | some command => command.name
  | none => "0x" ++ hexDigits c.request.toNat

/-- A request with its arguments. -/
def text (c : Ioctl) : String :=
  " ".intercalate (c.title :: c.fields.map fun f => f.1 ++ "=" ++ f.2)

end Ioctl

namespace Syscall

/-- A call with its arguments, for the calls that are shown. -/
def text? : Syscall → Option String
  | ioctl _ request => some s!"ioctl {request.text}"
  | mmap _ offset length prot flags =>
    some s!"mmap offset={offset.toInt} length={length.toInt} prot={prot} flags={flags}"
  | munmap m => some s!"munmap addr={m.address} length={m.length}"
  | dup fd => some s!"dup fd={fd}"
  | close fd => some s!"close fd={fd}"
  | seek fd offset whence => some s!"seek fd={fd} offset={offset} whence={whence}"
  | sameFile fd other => some s!"samefile {fd} {other}"
  | poll fd events _ => some s!"poll fd={fd} events={events}"
  | read _ _ => none
  | sleep _ => none
  | await _ => none

/-- What a successful call answered. -/
def replyText : (c : Syscall) → c.Reply → String
  | ioctl _ request, r => toString (request.returned r)
  | mmap _ _ _ _ _, r => toString (r : UInt64)
  | munmap _, _ => "0"
  | dup _, r => toString (r : Int)
  | close _, _ => "0"
  | seek _ _ _, r => toString (r : Int)
  | sameFile _ _, r => toString (r : Bool)
  | poll _ _ _, r => toString (r : Bool)
  | read _ _, _ => ""
  | sleep _, _ => ""
  | await _, _ => ""

end Syscall

namespace CallRecord

/-- The line of a call.  `isDevice` tells the descriptors of the device, whose polls are not
shown. -/
def text? (isDevice : Int → Bool) (r : CallRecord) : Option String :=
  let shown := match r.call with
    | .poll fd _ _ => !isDevice fd
    | _ => true
  if shown then
    r.call.text?.map fun t =>
      match r.result with
      | .ok v => t ++ " = " ++ r.call.replyText v
      | .error e => t ++ " ! " ++ e.name
  else none

end CallRecord

end Mali
