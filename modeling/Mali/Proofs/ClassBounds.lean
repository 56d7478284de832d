import Mali.Proofs.BufferSizes
import Mali.Proofs.Sessions
import Mali.Proofs.SizeClasses
import Mathlib

/-!
# What size classes are labelled with

A summary labels every size class with a power of two, and lists the buffers that are cached in it.  A size is rounded
up to find its class, so the label is the largest size of a class, not the smallest: a class has the sizes past the
label of the class before, up to its own label.  The first class also has all that is smaller, and the last one all that
is larger.

A buffer is cached by the class of its size, or of a page if it is smaller.  Requests are rounded up to whole pages, so
only an import can be smaller, and no import is cached.

* `AllocatorOptions.bucketIndex_eq_iff`: the sizes of a class.
* `AllocatorOptions.Labelled`: where sizes lie between the labels.
* `SameOrigins`: buffers stay imported, or not imported.
* `PagedStep`, `PagedRun`, `Machine.Paged`: only whole pages are allocated.
* `Json.classes`, `Json.Lists`: what a summary says of the classes.
* `AllocatorOptions.labels_exact`: what is listed lies where it should.
-/

namespace Mali

open Op

/-! ## Labels -/

namespace AllocatorOptions

variable {o : AllocatorOptions}

/-- Shifts that stay short of the sign. -/
theorem toInt_shiftLeft_one : ∀ k < 63, (1 <<< Int64.ofInt (k : Nat) : Int64).toInt = 2 ^ k := by decide

/-- What a class is labelled with is a power of two. -/
theorem toInt_minBucketSize {i : Nat} (hpos : 0 < o.minBucket) (h : o.minBucket + i < 63) :
    (o.minBucketSize i).toInt = 2 ^ (o.minBucket + i).toNat := by
  obtain ⟨k, hk⟩ := Int.eq_ofNat_of_zero_le (show 0 ≤ o.minBucket + i by omega)
  rw [minBucketSize, hk, if_pos (by omega), Int.toNat_natCast]
  exact toInt_shiftLeft_one k (by omega)

variable (hpos : 0 < o.minBucket) (hle : o.minBucket ≤ o.maxBucket) (hmax : o.maxBucket < 62)
include hpos hle hmax

/-- A later class has a larger label. -/
theorem minBucketSize_lt {i j : Nat} (hij : i < j) (hj : j ≤ o.bucketCount) :
    o.minBucketSize i < o.minBucketSize j := by
  rw [bucketCount] at hj
  rw [Int64.lt_iff_toInt_lt, toInt_minBucketSize hpos (by omega), toInt_minBucketSize hpos (by omega)]
  exact pow_lt_pow_right₀ (by decide) (by omega)

/-- A class has the sizes that are past the label of the class before, and at most its own. -/
theorem bucketIndex_eq_iff {size : Int64} (hsize : 0 < size) {i : Nat} (hi : i < o.bucketCount) :
    o.bucketIndex size = i ↔
      (i = 0 ∨ o.minBucketSize (i - 1) < size) ∧ (i + 1 = o.bucketCount ∨ size ≤ o.minBucketSize i) := by
  have hindex := bucketIndex_eq hle size
  have hnat : (size.toInt.toNat : Int) = size.toInt :=
    Int.toNat_of_nonneg (Int64.lt_iff_toInt_lt.mp hsize).le
  have hlog (k : Nat) : Nat.clog 2 size.toInt.toNat ≤ k ↔ size.toInt ≤ 2 ^ k := by
    rw [Nat.clog_le_iff_le_pow (by decide), ← Int.ofNat_le, hnat]
    push_cast
    rfl
  rw [bucketCount] at hi ⊢
  have hlabel (j : Nat) (hj : j ≤ i) : (o.minBucketSize j).toInt = 2 ^ (o.minBucket + j).toNat :=
    toInt_minBucketSize hpos (by omega)
  rw [Int64.lt_iff_toInt_lt, Int64.le_iff_toInt_le, hlabel i le_rfl, hlabel (i - 1) (by omega), ← hlog,
    ← not_le, ← hlog]
  omega

omit hpos hle hmax in
/-- Where sizes lie between the labels of the classes. -/
structure Labelled (o : AllocatorOptions) : Prop where
  /-- A size is past the labels of all classes before its own. -/
  past : ∀ size : Int64, 0 < size → ∀ i < o.bucketIndex size, o.minBucketSize i < size
  /-- It is at most the label of its own class, and below the next one, unless its class is the last. -/
  upTo : ∀ size : Int64, 0 < size → o.bucketIndex size + 1 < o.bucketCount →
    size ≤ o.minBucketSize (o.bucketIndex size) ∧ size < o.minBucketSize (o.bucketIndex size + 1)
  /-- Its own label is a lower bound only if it is that label, or larger and in the last class. -/
  own : ∀ size : Int64, 0 < size →
    (o.minBucketSize (o.bucketIndex size) ≤ size ↔ size = o.minBucketSize (o.bucketIndex size) ∨
      o.bucketIndex size + 1 = o.bucketCount ∧ o.minBucketSize (o.bucketIndex size) < size)

/-- Every size lies where its class says. -/
theorem labelled : o.Labelled := by
  have hlt := bucketIndex_lt hle
  have hclass {size : Int64} (hsize : 0 < size) := (bucketIndex_eq_iff hpos hle hmax hsize (hlt size)).mp rfl
  have hupTo {size : Int64} (hsize : 0 < size) (hlast : o.bucketIndex size + 1 < o.bucketCount) :
      size ≤ o.minBucketSize (o.bucketIndex size) := (hclass hsize).2.resolve_left (Nat.ne_of_lt hlast)
  constructor
  case past =>
    intro size hsize i hi
    have hbefore := (hclass hsize).1.resolve_left (by omega)
    rcases Nat.lt_or_ge i (o.bucketIndex size - 1) with hlow | hhigh
    · exact Int64.lt_trans (minBucketSize_lt hpos hle hmax hlow (by have := hlt size; omega)) hbefore
    · obtain rfl : i = o.bucketIndex size - 1 := by omega
      exact hbefore
  case upTo =>
    intro size hsize hlast
    exact ⟨hupTo hsize hlast, Int64.lt_of_le_of_lt (hupTo hsize hlast)
      (minBucketSize_lt hpos hle hmax (Nat.lt_succ_self _) hlast.le)⟩
  case own =>
    intro size hsize
    rw [Int64.le_iff_toInt_le, Int64.lt_iff_toInt_lt, ← Int64.toInt_inj]
    constructor
    · intro hlabel
      rcases Nat.lt_or_ge (o.bucketIndex size + 1) o.bucketCount with hlast | hlast
      · exact .inl (le_antisymm (Int64.le_iff_toInt_le.mp (hupTo hsize hlast)) hlabel)
      · exact hlabel.eq_or_lt.imp Eq.symm fun hlabel => ⟨le_antisymm (hlt size) hlast, hlabel⟩
    · rintro (hsame | ⟨-, hlabel⟩)
      · exact hsame.ge
      · exact hlabel.le

end AllocatorOptions

/-! ## Imports and other buffers -/

variable {κ : Type}

/-- Which buffers were imported. -/
def Allocator.origins (a : Allocator) : List Bool := a.buffers.map (·.has BufferFlag.shared)

/-- Buffers stay imported, or not imported, and new ones are added at the end. -/
def SameOrigins (m m' : Machine κ) : Prop := m.allocator.origins <+: m'.allocator.origins

namespace SameOrigins

theorem of_eq {m m' : Machine κ} (h : m'.allocator.origins = m.allocator.origins) : SameOrigins m m' := by
  rw [SameOrigins, h]

instance : OfAllocator (SameOrigins (κ := κ)) where
  refl _ := List.prefix_refl _
  trans h h' := List.IsPrefix.trans h h'
  of_allocator ha := of_eq (by rw [ha])

instance : Domestic (SameOrigins (κ := κ)) where
  of_domestic _ _ _ _ _ hb _ := of_eq <| by
    have hflags := congrArg (List.map fun k => hasFlag k.2.2.2 BufferFlag.shared) hb
    rwa [List.map_map, List.map_map] at hflags

end SameOrigins

theorem sameOrigins_modifyBuffer (x : Nat) {f : Buffer → Buffer} (hf : ∀ b, (f b).flags = b.flags) :
    Keeps (SameOrigins (κ := κ)) (modifyBuffer x f) :=
  keeps_modify fun m => .of_eq <| map_modify_eq (fun b : Buffer => b.has BufferFlag.shared)
    (fun b => by rw [Buffer.has, hf, Buffer.has]) m.allocator.buffers x

theorem sameOrigins_addBuffer (b : Buffer) : Keeps (SameOrigins (κ := κ)) (Allocator.addBuffer b) := by
  refine keeps_bind keeps_allocator fun a => keeps_bind (keeps_modify fun m => ?_) fun _ => keeps_pure _
  show m.allocator.buffers.map _ <+: (m.allocator.buffers ++ [b]).map _
  rw [List.map_append]
  exact List.prefix_append _ _

theorem sameOrigins_useBuffer (deps : List Usage) (x : Nat) (u : Usage) :
    Keeps (SameOrigins (κ := κ)) (Submitter.useBuffer deps x u) :=
  keeps_bind (keeps_buffer x) fun _ =>
    keeps_bind (sameOrigins_modifyBuffer x fun _ => rfl) fun _ => keeps_pure _

section Kernel

variable [Kernel κ]

theorem sameOrigins_free (x : Nat) : Keeps (SameOrigins (κ := κ)) (Allocator.free x) := by
  have hunmap : Keeps (SameOrigins (κ := κ)) (Allocator.unmapBuffer x) :=
    keeps_unmapBuffer_of (sameOrigins_modifyBuffer x fun _ => rfl)
  have hmodify {f : Allocator → Allocator} (hf : ∀ a, (f a).buffers = a.buffers) :
      Keeps (SameOrigins (κ := κ)) (modifyAllocator f) :=
    keeps_modify fun m => .of_eq (congrArg (List.map _) (hf m.allocator))
  unfold Allocator.free
  exact keeps_bind (keeps_buffer x) fun b => keeps_bind (keeps_writeHandle _ b) fun _ => keeps_bind hunmap fun _ =>
    keeps_bind (keeps_freeBufferRegion x) fun _ => keeps_bind (hmodify fun _ => rfl) fun _ =>
    keeps_bind (keeps_freeHandle _) fun _ => keeps_bind (sameOrigins_modifyBuffer x fun _ => rfl) fun _ =>
    hmodify fun _ => rfl

variable {c c' : Config κ} {act : Action}

omit [Kernel κ] in
/-- Which buffers were imported is a matter of the accounts. -/
theorem Quiet.origins {m m' : Machine κ} (h : Quiet m m') : SameOrigins m m' := .of_eq <| by
  have hshared := congrArg (fun S => S.accounts.map Account.shared) h.storage
  simp only [Machine.storage, Allocator.storage, List.map_map] at hshared
  exact hshared

/-- No step changes which buffers were imported. -/
theorem Step.origins (h : Step c act c') : SameOrigins c.machine c'.machine := by
  cases h with
  | quiet h => exact h.origins
  | reference he => exact (keeps_reference _).ok he
  | revive _ _ _ he => exact (keeps_revive _).ok he
  | unreference _ _ he => exact (keeps_unreference sameOrigins_free _).ok he
  | release _ _ he => exact (keeps_unreference sameOrigins_free _).ok he
  | enter _ _ _ _ _ _ _ _ he => exact (sameOrigins_addBuffer _).ok he
  | abandon _ he => exact (keeps_freeHandle _).ok he
  | reuse he => exact (keeps_reuse _ _).ok he
  | wrap he =>
    have hadd (b : Buffer) := sameOrigins_addBuffer (κ := κ) b
    exact (keeps_bind keeps_allocator fun _ => keeps_bind (keeps_allocHandle _ _) fun _ => hadd _).ok he
  | handOut he => exact (keeps_handOut _).ok he
  | evictStale he => exact (keeps_evictOld (keeps_evict sameOrigins_free)).ok he
  | evictAll he => exact (keeps_evictBuckets (keeps_evict sameOrigins_free) _).ok he
  | await he => exact (keeps_callbackAll _).ok he
  | attach he => exact (keeps_attachStream _).ok he
  | submit _ he => exact (keeps_submitSlot _ _).ok he
  | advance he => exact (keeps_advanceSlot _ _).ok he
  | update he => exact (keeps_takeCallbacks _ _).ok he
  | terminate _ he => exact (keeps_clearSlot _).ok he
  | fire he => exact (keeps_runCallback sameOrigins_free _).ok he
  | collect _ _ he => exact (keeps_collect sameOrigins_useBuffer _ _).ok he

theorem ShelfStep.origins (h : ShelfStep c act c') (hc : c.progress.generation = .csf ∨ c.machine.Calm) :
    SameOrigins c.machine c'.machine := by
  cases h with
  | stream _ h => exact h.origins
  | job _ _ h => exact h.origins
  | @submit m m' held va requirements o handles r _ he hr =>
    have hkeeps : Keeps (SameOrigins (κ := κ)) (Device.submitJob va requirements o handles) :=
      keeps_submitJob keeps_retireAtom (fun number slot => keeps_markAtom number slot handles) va requirements o
    exact (hkeeps m).survives he hr
  | event hjob he => exact handleJobEvent_keeps keeps_retireAtom (hc.resolve_left hjob).links he

/-! ## Whole pages -/

/-- Every buffer that was not imported is at least a page. -/
def Machine.Paged (m : Machine κ) : Prop :=
  ∀ b ∈ m.allocator.buffers, b.has BufferFlag.shared = false → pageAlign ≤ b.size

omit [Kernel κ] in
/-- One more buffer. -/
theorem Machine.Paged.concat {m m' : Machine κ} {b : Buffer} (h : m.Paged)
    (hbuffers : m'.allocator.buffers = m.allocator.buffers ++ [b])
    (hb : b.has BufferFlag.shared = false → pageAlign ≤ b.size) : m'.Paged := by
  intro b' hb'
  rw [hbuffers, List.mem_append, List.mem_singleton] at hb'
  rcases hb' with hb' | rfl
  · exact h b' hb'
  · exact hb

omit [Kernel κ] in
/-- Neither the sizes nor the imports change. -/
theorem Machine.Paged.of_same {m m' : Machine κ} (h : m.Paged)
    (hsizes : m'.allocator.buffers.map (·.size) = m.allocator.buffers.map (·.size))
    (horigins : m'.allocator.origins = m.allocator.origins) : m'.Paged := by
  intro b hb hshared
  obtain ⟨x, hx⟩ := List.mem_iff_getElem?.mp hb
  have hsize := congrArg (·[x]?) hsizes
  have horigin := congrArg (·[x]?) horigins
  simp only [Allocator.origins, List.getElem?_map, hx, Option.map_some] at hsize horigin
  obtain ⟨b', hb', hsize⟩ := Option.map_eq_some_iff.mp hsize.symm
  rw [hb', Option.map_some, hshared] at horigin
  exact hsize ▸ h b' (List.mem_of_getElem? hb') (Option.some.inj horigin).symm

/-- Steps that allocate whole pages only. -/
inductive PagedStep : Config κ → Trade → Config κ → Prop
  /-- A request is rounded up before a region is allocated for it. -/
  | allocate {m m' : Machine κ} {request : Int64} {flags : UInt32} {label : String} {x : Nat} (hpos : 0 < request)
    (hclock : Kernel.now m.kernel ≤ Kernel.now m'.kernel)
    (he : (Allocator.allocate (pageUp request) flags label).exec m = (.ok x, m')) :
    PagedStep ⟨m, [], none⟩ .allocate ⟨m', [], some x⟩
  | other {c c' : Config κ} {t : Trade} (h : StockStep c t c') (ht : t ≠ .allocate) : PagedStep c t c'

/-- Steps one after the other, with what each is. -/
inductive PagedRun : Config κ → List (Config κ × Trade) → Config κ → Prop
  | nil (c : Config κ) : PagedRun c [] c
  | cons {c c₁ c' : Config κ} {t : Trade} {es : List (Config κ × Trade)} (hs : PagedStep c t c₁)
    (hr : PagedRun c₁ es c') : PagedRun c ((c, t) :: es) c'

theorem PagedStep.stock {c c' : Config κ} {t : Trade} (h : PagedStep c t c') : StockStep c t c' := by
  cases h with
  | allocate _ hclock he => exact .allocate hclock he
  | other h => exact h

theorem PagedRun.stock {c c' : Config κ} {es : List (Config κ × Trade)} (h : PagedRun c es c') : StockRun c es c' := by
  induction h with
  | nil c => exact .nil c
  | cons hs _ ih => exact .cons hs.stock ih

variable (hk : Measured κ)
include hk

/-- A request that can be allocated at all is rounded up to a page at least. -/
theorem PagedStep.paged {t : Trade} {wraps : Nat} (h : PagedStep c t c') (hc : c.Stocked wraps)
    (hm : c.machine.Paged) : c'.machine.Paged := by
  cases h with
  | @allocate m m' request _ _ _ hpos _ he =>
    obtain ⟨_, _, region, m₁, m₂, halloc, hwrap, rfl⟩ := allocate_ok he
    have hsame : m₁.allocator = m.allocator := (keeps_alloc (R := SameAllocator) _ _ _).ok halloc
    obtain ⟨-, b, hbuffers, hsize, -⟩ := wrapRegion_buffer hwrap
    have hpage : pageAlign ≤ pageUp request := by
      have hsize := Int64.lt_iff_toInt_lt.mp (alloc_size hk halloc)
      rw [Int64.toInt_zero] at hsize
      rw [Int64.le_iff_toInt_le, show pageAlign.toInt = 4096 from rfl]
      rw [toInt_pageUp hpos] at hsize ⊢
      split at hsize <;> omega
    have hmade : m₂.Paged := hm.concat (hsame ▸ hbuffers) fun _ => hsize ▸ hpage
    exact hmade
  | other h ht =>
    cases h with
    | allocate => exact absurd rfl ht
    | shelf h _ hsame hquiet =>
      have hdevice := hc.inOrder.device.imp_left (·.1)
      have hsizes := (h.tallies hdevice hquiet).sizes.eq_of_length (by simp [hsame])
      have horigins := (h.origins hdevice).eq_of_length (by simp [Allocator.origins, hsame])
      exact hm.of_same hsizes.symm horigins.symm
    | wrapImport _ _ _ he =>
      obtain ⟨b, m₁, himported, hadd⟩ := wrapImport_ok he
      have hsame : m₁.allocator = _ := (keeps_importedBuffer (R := SameAllocator) _ _ _).ok himported
      obtain ⟨-, _, _, _, -, rfl⟩ := importedBuffer_ok himported
      have hshared : hasFlag BufferFlag.shared BufferFlag.shared = true := by decide
      cases hadd
      refine hm.concat (congrArg (·.buffers ++ _) hsame) fun hno => ?_
      have hno : hasFlag BufferFlag.shared BufferFlag.shared = false := hno
      rw [hshared] at hno
      cases hno

/-- By induction on the run. -/
theorem PagedRun.paged {es : List (Config κ × Trade)} {wraps : Nat} (h : PagedRun c es c')
    (hmax : ∀ d ∈ es.map (·.1) ++ [c'], d.progress.streams.length ≤ slotCount)
    (hbounded : ∀ d ∈ es.map (·.1) ++ [c'], d.Bounded) (hc : c.Stocked wraps) (hm : c.machine.Paged) :
    c'.machine.Paged := by
  induction h generalizing wraps with
  | nil => exact hm
  | @cons c c₁ c' t es hs hr ih =>
    have hfirst : ∀ d ∈ [(c, t)].map (·.1) ++ [c₁], d ∈ c :: (es.map (·.1) ++ [c']) := by
      intro d hd
      rcases List.mem_cons.mp hd with rfl | hd
      · exact List.mem_cons_self
      · exact List.mem_cons_of_mem _ (List.mem_singleton.mp hd ▸ hr.stock.head_mem)
    have hone : StockRun c [(c, t)] c₁ := .cons hs.stock (.nil c₁)
    exact ih (fun d hd => hmax d (List.mem_cons_of_mem _ hd)) (fun d hd => hbounded d (List.mem_cons_of_mem _ hd))
      (hone.stocked hk (fun d hd => hmax d (hfirst d hd)) (fun d hd => hbounded d (hfirst d hd)) hc) (hs.paged hk hc hm)

end Kernel

/-! ## What a summary lists -/

namespace Json

/-- What a summary says of every size class: the label, and the sizes of the buffers that it lists. -/
def classes (summary : Json) : List (Option Int × List Int) :=
  ((summary.member? "Buckets").elim [] items).map fun b =>
    ((b.member? "MinSize").bind number?,
      ((b.member? "BOs").elim [] items).filterMap fun e => (e.member? "Size").bind number?)

/-- A summary lists buffers by size class. -/
structure Lists (summary : Json) (o : AllocatorOptions) (bs : List Buffer) : Prop where
  /-- All of them, each once. -/
  all : (summary.classes.flatMap (·.2)).Perm (sizes bs)
  /-- Every class has its label, and lists what is in it. -/
  sized : ∀ (i : Nat) (label : Option Int) (ns : List Int), summary.classes[i]? = some (label, ns) →
    label = some (o.minBucketSize i).toInt ∧
      ∀ n ∈ ns, ∃ size : Int64, n = size.toInt ∧ 0 < size ∧ o.bucketIndex size = i
  /-- The label of a class is below every size that is listed in a later one. -/
  past : summary.classes.Pairwise fun c c' => ∀ label ∈ c.1, ∀ n ∈ c'.2, label < n
  /-- No size that is listed is above the label of its class, unless that is the last. -/
  upTo : ∀ (i : Nat) (label : Int) (ns : List Int), summary.classes[i]? = some (some label, ns) →
    i + 1 < o.bucketCount → ∀ n ∈ ns, n ≤ label

end Json

theorem Allocator.classes_summary (a : Allocator) : (a.summary true).classes =
    a.cache.buckets.zipIdx.map fun e =>
      (some (a.options.minBucketSize e.2).toInt, sizes (e.1.filterMap a.cachedEntry?)) := by
  have hbuckets : (a.summary true).member? "Buckets" =
      some (.array (a.cache.buckets.zipIdx.map fun e => a.bucketSummary true e.1 e.2)) := rfl
  rw [Json.classes, hbuckets]
  show (a.cache.buckets.zipIdx.map fun e => a.bucketSummary true e.1 e.2).map _ = _
  rw [List.map_map]
  refine List.map_congr_left fun e _ => ?_
  have hsizes : ((e.1.filterMap a.cachedEntry?).map bufferSummary).filterMap
      (fun j => (j.member? "Size").bind Json.number?) = sizes (e.1.filterMap a.cachedEntry?) := by
    rw [List.filterMap_map, sizes, ← List.filterMap_eq_map]
    rfl
  exact congrArg (Prod.mk _) hsizes

variable {m : Machine κ} {ready : List Callback} {held : Option Nat} {time : Int}

/-- What is in a class of the cache was not imported, so it is in the class of its size. -/
theorem Machine.Books.mem_class (h : m.Books ready held) (haged : m.allocator.Aged time) (hpaged : m.Paged)
    {i x : Nat} (hx : x ∈ m.allocator.cache.bucket i) :
    ∃ b, m.allocator.buffers[x]? = some b ∧ m.allocator.cachedEntry? x = some b ∧ 0 < b.size ∧
      m.allocator.options.bucketIndex b.size = i := by
  obtain ⟨a, ha, hcached⟩ := (h.buckets i x).mp hx
  obtain ⟨b, hb, rfl⟩ := Machine.exists_buffer ha
  have hpage : pageAlign ≤ b.size :=
    hpaged b (List.mem_of_getElem? hb) (h.unshared x b.account ha (by rw [hcached]; exact nofun))
  have hclass : i = m.allocator.options.sizeClass b.size := haged.sized x b.size b.lastUsed i <| by
    rw [Allocator.card?_of_buffer hb, Buffer.card, show b.cachedIn = some i from hcached]
  rw [AllocatorOptions.sizeClass, if_neg (Int64.not_lt.mpr hpage)] at hclass
  refine ⟨b, hb, ?_, Int64.lt_of_lt_of_le (by decide) hpage, hclass.symm⟩
  rw [Allocator.cachedEntry?, h.cached?_of_mem hx]
  exact hb

/-- A class has its label, and lists buffers of its own sizes. -/
theorem Machine.Books.classes_sized (h : m.Books ready held) (haged : m.allocator.Aged time) (hpaged : m.Paged)
    {i : Nat} {label : Option Int} {ns : List Int}
    (hi : (m.allocator.summary true).classes[i]? = some (label, ns)) :
    label = some (m.allocator.options.minBucketSize i).toInt ∧
      ∀ n ∈ ns, ∃ size : Int64, n = size.toInt ∧ 0 < size ∧ m.allocator.options.bucketIndex size = i := by
  rw [Allocator.classes_summary, List.getElem?_map] at hi
  obtain ⟨e, he, hsame⟩ := Option.map_eq_some_iff.mp hi
  rw [List.getElem?_zipIdx, Nat.zero_add] at he
  obtain ⟨l, hl, rfl⟩ := Option.map_eq_some_iff.mp he
  cases hsame
  refine ⟨rfl, fun n hn => ?_⟩
  obtain ⟨b, hb, rfl⟩ := List.mem_map.mp hn
  obtain ⟨x, hx, he⟩ := List.mem_filterMap.mp hb
  obtain ⟨b', -, he', hpos, hindex⟩ := h.mem_class haged hpaged (BufferCache.mem_bucket_of_getElem? hl ▸ hx)
  rw [he] at he'
  cases he'
  exact ⟨b.size, rfl, hpos, hindex⟩

/-- The classes together list what is cached. -/
theorem Machine.Books.classes_perm (h : m.Books ready held) (haged : m.allocator.Aged time) (hpaged : m.Paged) :
    ((m.allocator.summary true).classes.flatMap (·.2)).Perm (sizes m.allocator.cachedBuffers) := by
  have hlisted : (m.allocator.summary true).classes.map (·.2) =
      m.allocator.cache.buckets.map fun l => sizes (l.filterMap (m.allocator.buffers[·]?)) := by
    refine List.ext_getElem? fun i => ?_
    rw [Allocator.classes_summary, List.map_map, List.getElem?_map, List.getElem?_zipIdx, List.getElem?_map]
    cases hl : m.allocator.cache.buckets[i]? with
    | none => rfl
    | some l =>
      have hentries : l.filterMap m.allocator.cachedEntry? = l.filterMap (m.allocator.buffers[·]?) :=
        List.filterMap_congr fun x hx => by
          obtain ⟨b, hb, he, -⟩ := h.mem_class haged hpaged (BufferCache.mem_bucket_of_getElem? hl ▸ hx)
          rw [he, hb]
      exact congrArg (some ∘ sizes) hentries
  have hflat : (m.allocator.cache.buckets.map fun l => sizes (l.filterMap (m.allocator.buffers[·]?))).flatten =
      sizes (m.allocator.cache.buckets.flatten.filterMap (m.allocator.buffers[·]?)) := by
    rw [sizes, List.filterMap_flatten, List.map_flatten, List.map_map]
    rfl
  rw [List.flatMap_def, hlisted, hflat]
  exact ((haged.flatten_perm.filterMap (m.allocator.buffers[·]?)).trans haged.recency_perm).map _

/-- While the books and the order of the cache are as they should be, a summary lists what is cached. -/
theorem Machine.Books.lists (h : m.Books ready held) (haged : m.allocator.Aged time) (hpaged : m.Paged)
    (hlabelled : m.allocator.options.Labelled) :
    (m.allocator.summary true).Lists m.allocator.options m.allocator.cachedBuffers := by
  constructor
  case all => exact h.classes_perm haged hpaged
  case sized => exact fun i label ns hi => h.classes_sized haged hpaged hi
  case past =>
    refine List.pairwise_iff_getElem.mpr fun i j hi hj hij label hlabel n hn => ?_
    obtain ⟨hlabel', -⟩ := h.classes_sized haged hpaged (List.getElem?_eq_getElem hi)
    obtain ⟨-, hlisted⟩ := h.classes_sized haged hpaged (List.getElem?_eq_getElem hj)
    obtain ⟨size, rfl, hpos, rfl⟩ := hlisted n hn
    obtain rfl := Option.some.inj (hlabel.symm.trans hlabel')
    exact Int64.lt_iff_toInt_lt.mp (hlabelled.past size hpos i hij)
  case upTo =>
    intro i label ns hi hlast n hn
    obtain ⟨hlabel, hlisted⟩ := h.classes_sized haged hpaged hi
    obtain ⟨size, rfl, hpos, rfl⟩ := hlisted n hn
    cases hlabel
    exact Int64.le_iff_toInt_le.mp (hlabelled.upTo size hpos hlast).1

/-- With any bounds that are positive and below 62 once defaults are filled in, a size is past the labels of all classes
before its own, and at most the label of its own unless its class is the last.  So a label is a lower bound for what is
in later classes, and for its own class only at the largest size or in the last class.  After any run on at most 256
streams, a summary lists the buffers that are cached, in the class of their size. -/
theorem AllocatorOptions.labels_exact (o : AllocatorOptions) (hpos : 0 < o.withDefaults.minBucket)
    (hmax : o.withDefaults.maxBucket < 62) :
    o.withDefaults.Labelled ∧
    ∀ {κ : Type} [Kernel κ] {m m' : Machine κ} {es : List (Config κ × Trade)}, Measured κ → Vacant m →
      m.device.handles.check = none → m.allocator.started = true → m.allocator.allocations = 0 →
      m.allocator.evictions = 0 → m'.allocator.options = o.withDefaults →
      PagedRun ⟨m, [], none⟩ es ⟨m', [], none⟩ →
      (∀ d ∈ es.map (·.1) ++ [⟨m', [], none⟩], d.progress.streams.length ≤ slotCount) →
      (∀ d ∈ es.map (·.1) ++ [⟨m', [], none⟩], d.Bounded) →
      (Allocator.summaryText true).exec m' = (.ok (m'.allocator.summary true).render, m') ∧
      (m'.allocator.summary true).Lists o.withDefaults m'.allocator.cachedBuffers := by
  have hlabelled := labelled hpos o.minBucket_le_withDefaults hmax
  refine ⟨hlabelled, fun hk hm hrules hstarted hallocations hevictions hoptions hrun hmax hbounded => ?_⟩
  have hstocked := hm.stocked hrules hstarted hallocations hevictions
  have hbuffers : _ = [] := List.map_eq_nil_iff.mp hm.accounts
  have hpaged := hrun.paged hk hmax hbounded hstocked fun b hb => by
    rw [hbuffers] at hb
    cases hb
  have h := hrun.stock.stocked hk hmax hbounded hstocked
  have hbooks := h.inOrder.books
  refine ⟨(hbooks.summary_exact h.inOrder.aged h.started true).1, ?_⟩
  have hlists := hbooks.lists h.inOrder.aged hpaged (hoptions ▸ hlabelled)
  exact hoptions ▸ hlists

/-! ## A buffer in the third class -/

namespace ClassSample

/-- A job manager device and an allocator with the default bounds. -/
def start : Machine Depot where
  kernel := .open
  device := { generation := .jm, options := { pageSize := 4096 } }
  allocator := { started := true, options := ({} : AllocatorOptions).withDefaults, cache := .empty 11 }

/-- Three pages are allocated. -/
def allocated : Machine Depot := ((Allocator.allocate (pageUp 12000) 0 "three").exec start).2

/-- They have their first reference. -/
def handed : Machine Depot := ((Allocator.handOut 0).exec allocated).2

/-- They are cached. -/
def cached : Machine Depot := ((Buffer.unreference 0).exec handed).2

def steps : List (Config Depot × Trade) :=
  [(⟨start, [], none⟩, .allocate), (⟨allocated, [], some 0⟩, .step .other), (⟨handed, [], none⟩, .step (.release 0))]

-- a table of 256 slots is evaluated
set_option maxRecDepth 20000

theorem outcomes :
    ((Allocator.allocate (pageUp 12000) 0 "three").exec start).1.toOption = some 0 ∧
    ((Allocator.handOut 0).exec allocated).1.toOption = some () ∧
    ((Buffer.unreference 0).exec handed).1.toOption = some () ∧
    (handed.storage.accounts[0]?).map (·.refs) = some 1 ∧
    allocated.allocator.buffers.length = 1 ∧ handed.allocator.buffers.length = 1 ∧
    cached.allocator.buffers.length = 1 ∧
    cached.allocator.options = ({} : AllocatorOptions).withDefaults ∧
    ((cached.allocator.summary true).classes[2]? == some (some 16384, [12288])) = true := by
  decide +kernel

theorem vacant_start : Vacant start := by
  constructor
  case range => decide
  all_goals rfl

theorem run_cached : PagedRun ⟨start, [], none⟩ steps ⟨cached, [], none⟩ := by
  obtain ⟨hallocate, hhand, hrelease, hrefs, h₁, h₂, h₃, -⟩ := outcomes
  have hallocated : (Allocator.allocate (pageUp 12000) 0 "three").exec start = (.ok 0, allocated) :=
    exec_of_value hallocate
  have hhanded : (Allocator.handOut 0).exec allocated = (.ok (), handed) := exec_of_value hhand
  have hcached : (Buffer.unreference 0).exec handed = (.ok (), cached) := exec_of_value hrelease
  obtain ⟨a, ha, hone⟩ := Option.map_eq_some_iff.mp hrefs
  have hhands : StockStep ⟨allocated, [], some 0⟩ (.step .other) ⟨handed, [], none⟩ := by
    refine .shelf (.of_plain (.handOut hhanded) (.inl rfl))
      ⟨Nat.le_refl _, fun _ _ _ => ?_, fun _ _ => ?_, by rintro _ _ ⟨⟩⟩ (h₂.trans h₁.symm) fun _ _ => ?_
    · exact (cards_handOut 0).ok hhanded
    · exact (keeps_handOut 0).ok hhanded
    · exact (tallies_handOut 0).ok hhanded
  have hreleases : StockStep ⟨handed, [], none⟩ (.step (.release 0)) ⟨cached, [], none⟩ :=
    .shelf (.of_plain (.release ha hone hcached) (.inr ⟨0, rfl⟩))
      ⟨Nat.le_refl _, by rintro ⟨⟩, by rintro ⟨⟩, by rintro _ _ ⟨⟩⟩ (h₃.trans h₂.symm) (by rintro ⟨⟩)
  have hpos : (0 : Int64) < 12000 := by decide
  have hallocates : PagedStep ⟨start, [], none⟩ .allocate ⟨allocated, [], some 0⟩ :=
    .allocate hpos (Nat.le_refl _) hallocated
  exact .cons hallocates <| .cons (.other hhands (by decide)) <| .cons (.other hreleases (by decide)) (.nil _)

theorem bounded_steps : ∀ d ∈ steps.map (·.1) ++ [⟨cached, [], none⟩], d.Bounded := by
  have hcalm := run_cached.stock.calm (vacant_start.csf_or_calm.resolve_left (by decide))
  have hready : ∀ d ∈ steps.map (·.1) ++ [⟨cached, [], none⟩], d.ready = [] := by decide +kernel
  have hrefs : ∀ d ∈ steps.map (·.1) ++ [⟨cached, [], none⟩], ∀ a ∈ d.machine.storage.accounts,
    a.refs ≠ Int32.minValue := by decide +kernel
  exact fun d hd => (hcalm d hd).bounded (hready d hd) (hrefs d hd)

theorem max_steps : ∀ d ∈ steps.map (·.1) ++ [⟨cached, [], none⟩], d.progress.streams.length ≤ slotCount := by
  decide +kernel

end ClassSample

/-- Three pages are listed in a class with a label of four. -/
theorem labels_exact_sample : Vacant ClassSample.start ∧
    PagedRun ⟨ClassSample.start, [], none⟩ ClassSample.steps ⟨ClassSample.cached, [], none⟩ ∧
    (ClassSample.cached.allocator.summary true).classes[2]? = some (some 16384, [12288]) ∧
    (ClassSample.cached.allocator.summary true).Lists ({} : AllocatorOptions).withDefaults
      ClassSample.cached.allocator.cachedBuffers ∧
    ({} : AllocatorOptions).withDefaults.minBucketSize 1 < 12288 ∧
    ¬({} : AllocatorOptions).withDefaults.minBucketSize 2 ≤ 12288 := by
  obtain ⟨hlabelled, hlists⟩ := AllocatorOptions.labels_exact {} (by decide) (by decide)
  obtain ⟨-, -, -, -, -, -, -, hoptions, hclass⟩ := ClassSample.outcomes
  have hindex : ({} : AllocatorOptions).withDefaults.bucketIndex 12288 = 2 := by decide
  refine ⟨ClassSample.vacant_start, ClassSample.run_cached, eq_of_beq hclass,
    (hlists Depot.measured ClassSample.vacant_start rfl rfl rfl rfl hoptions ClassSample.run_cached
      ClassSample.max_steps ClassSample.bounded_steps).2, hlabelled.past 12288 (by decide) 1 (by decide), ?_⟩
  rw [← hindex, hlabelled.own 12288 (by decide)]
  decide

end Mali
