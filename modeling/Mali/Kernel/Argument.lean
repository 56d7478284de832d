import Mali.Kernel.Call

/-!
# Requests and their argument records

A request travels as a command and a record whose layout the command fixes.  Here records are read
as requests, and what a request leaves behind is written as the record that lies over the start of
its argument.

* `Abi.Fields.number`: the number in a field of a record, reached by the names on the way to it.
* `Ioctl.ofArgument?`: the request that a command and its record stand for.  A record only holds the
  address of the descriptor to import, so the descriptor comes beside it.  A record that points at
  atoms or commands stands for none.
* `Ioctl.output?`: the record that the kernel writes over the argument.
-/

namespace Mali

namespace Abi

mutual

/-- The number that a path of names leads to in a value, or zero if it leads nowhere. -/
def Layout.number : (l : Layout) → l.Value → List String → Nat
  | .word _ _, v, [] => v.toNat
  | .word _ _, _, _ :: _ => 0
  | .array _ _, _, _ => 0
  | .record _, _, [] => 0
  | .record fields, v, name :: path => fields.number v name path

/-- The number in the field called `name`, or further along `path` inside it. -/
def Fields.number : (fs : Fields) → fs.Value → (name : String) → (path : List String) → Nat
  | .done, _, _, _ => 0
  | .pad _ rest, v, name, path => rest.number v name path
  | .field own type rest, v, name, path =>
    if own = name then type.number v.1 path else rest.number v.2 name path

end

end Abi

namespace Ioctl

/-- The request of a command whose record holds the numbers that `get` gives for the names of its
fields.  `id` is the function number in the header of the oldest generation's records. -/
def ofFields (c : Abi.Command) (get : String → Nat) (id : UInt32) (fd : Int32) : Ioctl :=
  let byte (name : String) : UInt8 := UInt8.ofNat (get name)
  let half (name : String) : UInt32 := UInt32.ofNat (get name)
  let long (name : String) : UInt64 := UInt64.ofNat (get name)
  let region : RegionRequest :=
    { vaPages := long "VAPages", commitPages := long "CommitPages"
      extension := long "Extension", flags := long "Flags" }
  let imported : ImportRequest := { fd, type := half "Type", flags := long "Flags" }
  let range : SyncRequest :=
    { handle := long "Handle", userAddr := long "UserAddr", size := long "Size"
      type := byte "Type" }
  match c with
  | .versionCheck => versionCheck false
  | .versionCheckReserved => versionCheck true
  | .setFlags => setFlags (half "CreateFlags")
  | .jobSubmit => jobSubmit {}
  | .getGpuProps => getGpuProps (half "Size") (half "Flags")
  | .memAlloc => memAlloc region
  | .memFree => memFree (long "GPUAddr")
  | .memJitInit =>
    memJitInit (long "VAPages") (byte "MaxAllocations") (byte "Trim") (byte "Group")
      (long "PhysPages")
  | .memSync => memSync range
  | .memImport => memImport imported
  | .memExecInit => memExecInit (long "VAPages")
  | .csQueueRegister =>
    csQueueRegister (long "BufferGPUAddr") (half "BufferSize") (byte "Priority")
  | .csQueueKick => csQueueKick (long "BufferGPUAddr")
  | .csQueueBind => csQueueBind (long "BufferGPUAddr") (byte "GroupHandle") (byte "CSIIndex")
  | .csQueueTerminate => csQueueTerminate (long "BufferGPUAddr")
  | .csQueueGroupCreate =>
    csQueueGroupCreate {
      tilerMask := long "TilerMask", fragmentMask := long "FragmentMask"
      computeMask := long "ComputeMask", streamMin := byte "CSMin", priority := byte "Priority"
      tilerMax := byte "TilerMax", fragmentMax := byte "FragmentMax"
      computeMax := byte "ComputeMax" }
  | .csQueueGroupTerminate => csQueueGroupTerminate (byte "GroupHandle")
  | .kcpuQueueCreate => kcpuQueueCreate
  | .kcpuQueueDelete => kcpuQueueDelete (byte "ID")
  | .kcpuQueueEnqueue => kcpuQueueEnqueue (byte "ID") []
  | .csTilerHeapInit =>
    csTilerHeapInit {
      chunkSize := half "ChunkSize", initialChunks := half "InitialChunks"
      maxChunks := half "MaxChunks", targetInFlight := UInt16.ofNat (get "TargetInFlight")
      group := byte "GroupID" }
  | .csTilerHeapTerm => csTilerHeapTerm (long "GPUHeapVA")
  | .oldGetVersion => old id .getVersion
  | .oldMemAlloc => old id (.memAlloc region)
  | .oldMemImport => old id (.memImport imported)
  | .oldMemFree => old id (.memFree (long "GPUAddr"))
  | .oldMemSync => old id (.memSync range)
  | .oldGpuPropsRegDump => old id .gpuPropsRegDump
  | .oldSetFlags => old id (.setFlags (half "CreateFlags"))
  | .oldJobSubmit => old id (.jobSubmit {})

/-- Whether a record points at atoms or commands. -/
def refersOutside (c : Abi.Command) (get : String → Nat) : Bool :=
  match c with
  | .jobSubmit | .oldJobSubmit => true
  | .kcpuQueueEnqueue => get "NrCommands" != 0
  | _ => false

/-- The request that a command and its record stand for. -/
def ofArgument? (c : Abi.Command) (v : c.argument.Value) (fd : Int32) : Option Ioctl :=
  let get (name : String) := c.argument.number v name []
  if refersOutside c get then none
  else some (ofFields c get (UInt32.ofNat (c.argument.number v "Header" ["ID"])) fd)

/-- Reading a record as a request keeps the command. -/
theorem command?_ofFields (c : Abi.Command) (get : String → Nat) (id : UInt32) (fd : Int32) :
    (ofFields c get id fd).command? = some c := by
  cases c <;> rfl

/-- The layout and the bytes of the record that the kernel writes over the argument. -/
def output? : (c : Ioctl) → c.Reply → Option (Abi.Fields × List UInt8)
  | memAlloc _, (r : RegionReply) =>
    some (Abi.memAllocOut, leBytes 8 r.flags.toNat ++ leBytes 8 r.va.toNat)
  | memImport _, (r : ImportReply) =>
    some (Abi.memImportOut,
      leBytes 8 r.flags.toNat ++ leBytes 8 r.va.toNat ++ leBytes 8 r.vaPages.toNat)
  | csQueueBind _ _ _, (handle : UInt64) => some (Abi.csQueueBindOut, leBytes 8 handle.toNat)
  | csQueueGroupCreate _, (r : GroupReply) =>
    some (Abi.csQueueGroupCreateOut, leBytes 4 r.handle.toNat ++ leBytes 4 r.uid.toNat)
  | csTilerHeapInit _, (r : HeapReply) =>
    some (Abi.csTilerHeapInitOut, leBytes 8 r.heapVa.toNat ++ leBytes 8 r.firstChunkVa.toNat)
  | kcpuQueueCreate, (id : UInt8) => some (Abi.kcpuQueueNew, leBytes 1 id.toNat)
  | _, _ => none

end Ioctl

end Mali
