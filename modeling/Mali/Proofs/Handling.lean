import Mali.Proofs.Access
import Mali.Proofs.Streams

/-!
# Steps and the table of handles

Buffers are freed, and with them their handles; new regions get handles that own no descriptor.  Beside these
two, and beside what is quiet, no step changes the table of handles, and none closes a descriptor.

* `OfFiles`: relations that look at the kernel and at the table of handles only.
* `Step.keeps`: every step that is not quiet keeps what giving out handles and freeing them keeps.
-/

namespace Mali

open Op

variable {κ : Type}

/-- Relations that look at the kernel and at the table of handles only. -/
class OfFiles (R : Machine κ → Machine κ → Prop) : Prop extends Journey R where
  of_files {m m' : Machine κ} : m'.kernel = m.kernel → m'.device.handles = m.device.handles → R m m'

instance (R : Machine κ → Machine κ → Prop) [OfFiles R] : OfDriver R where
  of_driver hk hd _ := OfFiles.of_files hk (congrArg Device.handles hd)

instance (R : Machine κ → Machine κ → Prop) [OfFiles R] : OfTables R where
  of_tables hk _ ht := OfFiles.of_files hk ht

section Kernel

variable [Kernel κ] {R : Machine κ → Machine κ → Prop} [OfFiles R]

omit [Kernel κ] in
theorem keeps_useBuffer (deps : List Usage) (x : Nat) (u : Usage) : Keeps R (Submitter.useBuffer deps x u) :=
  keeps_bind (keeps_buffer x) fun _ => keeps_bind (keeps_modifyBuffer x _) fun _ => keeps_pure _

variable [Tolerant R] (hfree : ∀ handle, Keeps R (Device.freeHandle handle))
include hfree

/-- A step keeps what freeing handles keeps, and giving out handles without a descriptor, if it is not quiet or
keeps it anyway. -/
theorem Step.keeps (halloc : ∀ va, Keeps R (Device.allocHandle va noFd)) {c c' : Config κ} {act : Action}
    (h : Step c act c')
    (hquiet : act = .other → c'.held = c.held → Quiet c.machine c'.machine → R c.machine c'.machine) :
    R c.machine c'.machine := by
  have hevict (x : Nat) : Keeps R (Allocator.evict x) := keeps_evict (keeps_free hfree) x
  cases h with
  | quiet h => exact hquiet rfl rfl h
  | reference he => exact (keeps_reference _).ok he
  | revive _ _ _ he => exact (keeps_revive _).ok he
  | unreference _ _ he => exact (keeps_unreference (keeps_free hfree) _).ok he
  | release _ _ he => exact (keeps_unreference (keeps_free hfree) _).ok he
  | enter _ _ _ _ _ _ _ _ he => exact (keeps_addBuffer _).ok he
  | abandon _ he => exact (hfree _).ok he
  | reuse he => exact (keeps_reuse _ _).ok he
  | wrap he => exact (keeps_wrapRegion halloc _ _ _ _).ok he
  | handOut he => exact (keeps_handOut _).ok he
  | evictStale he => exact (keeps_evictOld hevict).ok he
  | evictAll he => exact (keeps_evictBuckets hevict _).ok he
  | await he => exact (keeps_callbackAll _).ok he
  | attach he => exact (keeps_attachStream _).ok he
  | submit _ he => exact (keeps_submitSlot _ _).ok he
  | advance he => exact (keeps_advanceSlot _ _).ok he
  | update he => exact (keeps_takeCallbacks _ _).ok he
  | terminate _ he => exact (keeps_clearSlot _).ok he
  | fire he => exact (keeps_runCallback (keeps_free hfree) _).ok he
  | collect _ _ he => exact (keeps_collect keeps_useBuffer _ _).ok he

end Kernel

end Mali
