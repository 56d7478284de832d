import Mali.Device
import Mali.Json

/-!
# Summary of a device

* `Device.summary`: interface, handles, event slots and live syncobjs as JSON.
-/

namespace Mali

namespace Device

/-- A fence in a summary. -/
def fenceSummary (f : Fence) : Json :=
  .object [("Slot", .number f.slot.toNat), ("Value", .double f.value.toNat)]

/-- A syncobj in a summary. -/
def syncobjSummary (o : Syncobj) : Json :=
  .object [("ID", .double o.id.toNat), ("Fences", .array (o.fences.map fenceSummary))]

/-- An event slot in a summary. -/
def slotSummary (index : Nat) (s : EventSlot) : Json :=
  .object [("Slot", .number index), ("Last", .double s.last.toNat),
    ("LastSubmit", .double s.lastSubmit.toNat), ("PendingCallbacks", .number s.links.length)]

/-- The bound slots with their places. -/
def boundSlots (d : Device) : List (EventSlot × Nat) := (d.slots.toList.take d.bound).zipIdx

/-- A device as JSON. -/
def summary (d : Device) : Json :=
  .object [("API", .text d.generation.name), ("PageSize", .number d.options.pageSize.toInt),
    ("Flags", .text (DeviceFlag.names.describe d.options.flags)),
    ("Handles", .number d.handles.size),
    ("EventSlots", .array (d.boundSlots.map fun (s, i) => slotSummary i s)),
    ("Syncobjs", .array ((d.syncobjs.filter (·.live)).map syncobjSummary))]

end Device

end Mali
