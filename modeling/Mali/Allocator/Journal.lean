import Mali.Machine

/-!
# The journal of buffers

Every step in the life of a buffer can be written to a journal.  A journal that cannot be written
to only leaves a log record.

* `Allocator.write`: one line.
* `Allocator.handleFd`: the descriptor that a line names, looked up only if there is a journal.
-/

namespace Mali

namespace Allocator

open Op

variable {κ : Type}

/-- Whether there is a journal. -/
def keepsJournal (a : Allocator) : Bool := a.options.events != .none

/-- Writes a line about a buffer. -/
def write (name : String) (b : Buffer) (fd : Int) (imported : Option (Int × Bool) := none) :
    Op κ Unit := do
  match (← allocator).options.events with
  | .none => pure ()
  | .journal =>
    let e : BufferEvent :=
      { name, start := b.gpu, size := b.size, label := b.label, handle := b.handle, fd, imported }
    modifyAllocator fun a => { a with journal := e :: a.journal }
  | .refusing e =>
    error "failed to write buffer object event" [("event", name), ("error", e.message)]

/-- The descriptor of a buffer's handle, for the journal. -/
def handleFd (b : Buffer) : Op κ Int := do
  if (← allocator).keepsJournal then return ((← device).handles.get b.handle).fd
  else return noFd

/-- Writes a line about a buffer that names the descriptor of its handle. -/
def writeHandle (name : String) (b : Buffer) : Op κ Unit := do
  write name b (← handleFd b)

end Allocator

end Mali
