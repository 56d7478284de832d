import Mali.Bytes
import Mali.Abi.Structs

/-!
# GPU properties

The newer generations answer a property query with a stream of entries: a four byte key whose low
two bits give the binary logarithm of the value's width, and the value.  The oldest generation
answers with a register dump of which five values are used.

* `Property.key`: the key of a name and a width.
* `findProperty`: the first entry of a stream with a given name.  A value that is cut off ends the
  stream.
* `Properties.find?`: a property from either source.
* `parameterProperty?`: the property behind each parameter of the open-source driver interface.
-/

namespace Mali

namespace Property

/-- The key of a property name with a value of `2 ^ (sizeLog2 % 4)` bytes. -/
def key (name sizeLog2 : UInt32) : UInt32 := name <<< 2 ||| (sizeLog2 &&& 3)

/-- Names of properties. -/
def productId : UInt32 := 1
@[inherit_doc productId] def rawShaderPresent : UInt32 := 25
@[inherit_doc productId] def rawTilerPresent : UInt32 := 26
@[inherit_doc productId] def rawL2Present : UInt32 := 27
@[inherit_doc productId] def rawStackPresent : UInt32 := 28
@[inherit_doc productId] def rawL2Features : UInt32 := 29
@[inherit_doc productId] def rawCoreFeatures : UInt32 := 30
@[inherit_doc productId] def rawMemFeatures : UInt32 := 31
@[inherit_doc productId] def rawMmuFeatures : UInt32 := 32
@[inherit_doc productId] def rawAsPresent : UInt32 := 33
@[inherit_doc productId] def rawJsPresent : UInt32 := 34
@[inherit_doc productId] def rawTilerFeatures : UInt32 := 51
@[inherit_doc productId] def rawTextureFeatures0 : UInt32 := 52
@[inherit_doc productId] def rawGpuId : UInt32 := 55
@[inherit_doc productId] def rawThreadMaxThreads : UInt32 := 56
@[inherit_doc productId] def rawThreadFeatures : UInt32 := 59
@[inherit_doc productId] def tlsAlloc : UInt32 := 84

/-- Parameters of the open-source driver interface that are not plain properties. -/
def paramGpuRevision : UInt32 := 1
@[inherit_doc paramGpuRevision] def paramAfbcFeatures : UInt32 := 40

end Property

/-- The width of the value that follows a key. -/
def valueWidth (key : Nat) : Nat := 1 <<< (key % 4)

/-- The value of the first entry with the given name in a stream of keys and values. -/
def findProperty (name : UInt32) (bytes : List UInt8) : Option UInt64 :=
  if bytes.length < 4 then none
  else
    let key := ofLE (bytes.take 4)
    let rest := bytes.drop 4
    if rest.length < valueWidth key then none
    else if key / 4 = name.toNat then some (UInt64.ofNat (ofLE (rest.take (valueWidth key))))
    else findProperty name (rest.drop (valueWidth key))
termination_by bytes.length
decreasing_by simp only [List.length_drop]; omega

/-- The values used of a register dump. -/
structure RegisterDump where
  productId : UInt32 := 0
  shaderPresent : UInt64 := 0
  textureFeatures0 : UInt32 := 0
  tilerFeatures : UInt32 := 0
  gpuId : UInt32 := 0
  deriving DecidableEq, Repr, Inhabited

namespace RegisterDump

/-- The property of a name, for the few names a dump answers. -/
def find? (d : RegisterDump) (name : UInt32) : Option UInt64 :=
  if name = Property.productId then some d.productId.toUInt64
  else if name = Property.rawShaderPresent then some d.shaderPresent
  else if name = Property.rawTextureFeatures0 then some d.textureFeatures0.toUInt64
  else if name = Property.rawTilerFeatures then some d.tilerFeatures.toUInt64
  else if name = Property.rawGpuId then some d.gpuId.toUInt64
  else none

end RegisterDump

/-- Properties as a device keeps them. -/
inductive Properties where
  /-- The stream of a newer generation. -/
  | stream (bytes : List UInt8)
  /-- The dump of the oldest generation. -/
  | dump (registers : RegisterDump)
  deriving DecidableEq, Repr, Inhabited

namespace Properties

/-- The value of a property. -/
def find? (p : Properties) (name : UInt32) : Option UInt64 :=
  match p with
  | stream bytes => findProperty name bytes
  | dump registers => registers.find? name

/-- The property that answers a parameter unchanged. -/
def parameterProperty? (param : UInt32) : Option UInt32 :=
  [((0 : UInt32), Property.productId), (2, Property.rawShaderPresent),
    (3, Property.rawTilerPresent), (4, Property.rawL2Present), (5, Property.rawStackPresent),
    (6, Property.rawAsPresent), (7, Property.rawJsPresent), (8, Property.rawL2Features),
    (9, Property.rawCoreFeatures), (10, Property.rawTilerFeatures), (11, Property.rawMemFeatures),
    (12, Property.rawMmuFeatures), (13, Property.rawThreadFeatures),
    (14, Property.rawThreadMaxThreads), (18, Property.rawTextureFeatures0),
    (39, Property.tlsAlloc)].lookup param

/-- The property of a device that may have none. -/
def lookup (p : Option Properties) (name : UInt32) : Option UInt64 :=
  p.bind (·.find? name)

/-- The value of a driver parameter.  The revision is the low half of the identity register, and
the answer that no compression features exist needs no property.  The second component tells
whether there is an answer. -/
def parameter (p : Option Properties) (param : UInt32) : UInt64 × Bool :=
  if param = Property.paramAfbcFeatures then (0, true)
  else if param = Property.paramGpuRevision then
    match lookup p Property.rawGpuId with
    | some id => (id &&& 0xffff, true)
    | none => (0, false)
  else
    match (parameterProperty? param).bind (lookup p) with
    | some v => (v, true)
    | none => (0, false)

end Properties

end Mali
