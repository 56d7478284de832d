import Mali.Device.Interface

/-!
# Trying requests

A generation of the interface refuses the requests it does not have.  A probe issues one request by
its name, with arguments that ask for nothing, so that what comes back tells whether the device has
the request at all.

* `Interface.probe`: one request by its name.
-/

namespace Mali

namespace Interface

variable {κ : Type} [Kernel κ]

/-- Issues one request by its name.  `flags` are the creation flags to set, and `va` is the region to
give back; every other argument is as small as it can be.  An unknown name does nothing. -/
def probe (name : String) (flags : UInt32) (va : UInt64) : Op κ Unit :=
  match name with
  | "SetFlags" => setFlags flags
  | "GPUProps" => discard gpuProperties
  | "MemAlloc" => discard (allocRegion default)
  | "MemFree" => freeRegion va
  | "MemImport" => discard (importFd 0 0)
  | "MemSync" => syncRange 0 0 0 false
  | "MemExecInit" => initExecutable 1
  | "MemJITInit" => initJit 1 2 3
  | "JobSubmit" => submitAtom {}
  | "GroupCreate" => discard (createGroup default)
  | "GroupTerm" => terminateGroup 0
  | "TilerHeapInit" => discard (createHeap default)
  | "TilerHeapTerm" => terminateHeap 0
  | "QueueRegister" => registerQueue 0 0 0
  | "QueueBind" => discard (bindQueue 0 0 0)
  | "QueueTerminate" => terminateQueue 0
  | "QueueKick" => kickQueue 0
  | "KCPUQueueCreate" => discard createCpuQueue
  | "KCPUQueueDelete" => deleteCpuQueue 0
  | "KCPUEnqueue" => discard (enqueue 0 { type := QueueCommand.fenceWait })
  | _ => pure ()

end Interface

end Mali
