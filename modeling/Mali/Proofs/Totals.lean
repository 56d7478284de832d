import Mali.Allocator.Summary
import Mali.Proofs.CacheRuns

/-!
# Totals

A summary of an allocator goes through the arena for its totals, and through the size classes of the cache for what
it says about each of them.  While the books and the order of the cache are as they should be, the arena has the
buffers that are not freed and the classes have those that are cached, each once, so both are sums over the same
buffers.

* `List.filterMap_getElem?_perm`: numbers that name the entries of one kind.
* `Statistics.Detailed.foldl_countBuffer`: the totals over a list of buffers.
* `Machine.Books.live_perm`, `Machine.Books.cached_perm`: what the arena and the cache have.
* `Json.column`: what a summary says of every size class.
* `Machine.Books.statistics_live`: the totals are those of the buffers that are not freed.
* `Machine.Books.summary_exact`: they agree with the size classes.
-/

namespace Mali

open Op

/-! ## Lists of numbers -/

/-- Numbers that are all different and name the entries of one kind lead to these entries. -/
theorem List.filterMap_getElem?_perm {α : Type} {l : List Nat} {bs : List α} {p : α → Bool} (hl : l.Nodup)
    (h : ∀ x, x ∈ l ↔ ∃ b, bs[x]? = some b ∧ p b = true) :
    (l.filterMap (bs[·]?)).Perm (bs.filter p) := by
  have hperm : l.Perm ((bs.zipIdx.filter (p ·.1)).map (·.2)) := by
    refine (List.perm_ext_iff_of_nodup hl ?_).mpr fun x => ?_
    · have hsub : ((bs.zipIdx.filter (p ·.1)).map (·.2)).Sublist (bs.zipIdx.map (·.2)) :=
        List.filter_sublist.map _
      rw [List.zipIdx_map_snd] at hsub
      exact hsub.nodup List.nodup_range'
    · rw [h x, List.mem_map]
      constructor
      · rintro ⟨b, hb, hp⟩
        exact ⟨(b, x), List.mem_filter.mpr ⟨List.mem_zipIdx_iff_getElem?.mpr hb, hp⟩, rfl⟩
      · rintro ⟨⟨b, _⟩, hb, rfl⟩
        obtain ⟨hb, hp⟩ := List.mem_filter.mp hb
        exact ⟨b, List.mem_zipIdx_iff_getElem?.mp hb, hp⟩
  have hread : ((bs.zipIdx.filter (p ·.1)).map (·.2)).filterMap (bs[·]?) = bs.filter p := by
    have hsome : ∀ e ∈ bs.zipIdx.filter (p ·.1), ((bs[·]?) ∘ (·.2)) e = some e.1 := fun e he =>
      List.mem_zipIdx_iff_getElem?.mp (List.mem_filter.mp he).1
    rw [List.filterMap_map, List.filterMap_congr hsome, List.filterMap_eq_map']
    conv_rhs => rw [← List.zipIdx_map_fst 0 bs, List.filter_map]
    rfl
  exact hread ▸ hperm.filterMap _

/-! ## Sums -/

/-- The sizes of some buffers. -/
def sizes (bs : List Buffer) : List Int := bs.map (·.size.toInt)

/-- A sum of words is the word of the sum. -/
theorem Allocator.bytes_eq (bs : List Buffer) : Allocator.bytes bs = Int64.ofInt (sizes bs).sum := by
  have hfold (l : List Int64) (s : Int64) : l.foldl (· + ·) s = s + Int64.ofInt (l.map (·.toInt)).sum := by
    induction l generalizing s with
    | nil => simp
    | cons n l ih =>
      rw [List.foldl_cons, ih, List.map_cons, List.sum_cons, Int64.ofInt_add, Int64.ofInt_toInt, Int64.add_assoc]
  rw [Allocator.bytes, hfold, Int64.zero_add, List.map_map]
  rfl

namespace Statistics.Detailed

/-- The totals over some buffers after others. -/
theorem foldl_countBuffer (bs : List Buffer) (s : Detailed) :
    (bs.foldl Allocator.countBuffer s).buffers = s.buffers + Int64.ofNat bs.length ∧
    (bs.foldl Allocator.countBuffer s).bytes = s.bytes + Int64.ofInt (sizes bs).sum ∧
    (bs.foldl Allocator.countBuffer s).cached = s.cached + Int64.ofNat (bs.filter (·.cachedIn.isSome)).length ∧
    (bs.foldl Allocator.countBuffer s).cachedBytes =
      s.cachedBytes + Int64.ofInt (sizes (bs.filter (·.cachedIn.isSome))).sum := by
  induction bs generalizing s with
  | nil => simp [sizes]
  | cons b bs ih =>
    obtain ⟨hbuffers, hbytes, hcached, hcachedBytes⟩ := ih (Allocator.countBuffer s b)
    have hone (n : Nat) : Int64.ofNat (n + 1) = 1 + Int64.ofNat n := by
      rw [Nat.add_comm, Int64.ofNat_add]
      rfl
    have hsum (b : Buffer) (bs : List Buffer) :
        Int64.ofInt (sizes (b :: bs)).sum = b.size + Int64.ofInt (sizes bs).sum := by
      rw [sizes, List.map_cons, List.sum_cons, Int64.ofInt_add, Int64.ofInt_toInt, sizes]
    rw [List.foldl_cons]
    refine ⟨?_, ?_, ?_, ?_⟩
    · rw [hbuffers, List.length_cons, hone, ← Int64.add_assoc]
      unfold Allocator.countBuffer
      split <;> rfl
    · rw [hbytes, hsum, ← Int64.add_assoc]
      unfold Allocator.countBuffer
      split <;> rfl
    · rw [hcached]
      unfold Allocator.countBuffer
      split
      · rename_i hb
        rw [List.filter_cons_of_pos (p := fun b : Buffer => b.cachedIn.isSome) hb, List.length_cons, hone,
          ← Int64.add_assoc]
        rfl
      · rename_i hb
        rw [List.filter_cons_of_neg (p := fun b : Buffer => b.cachedIn.isSome) hb]
        rfl
    · rw [hcachedBytes]
      unfold Allocator.countBuffer
      split
      · rename_i hb
        rw [List.filter_cons_of_pos (p := fun b : Buffer => b.cachedIn.isSome) hb, hsum, ← Int64.add_assoc]
        rfl
      · rename_i hb
        rw [List.filter_cons_of_neg (p := fun b : Buffer => b.cachedIn.isSome) hb]
        rfl

/-- The smallest size is one that was counted, or the one there was. -/
theorem foldl_sizeMin (bs : List Buffer) (s : Detailed) :
    ((bs.foldl Allocator.countBuffer s).sizeMin = s.sizeMin ∨
      ∃ b ∈ bs, (bs.foldl Allocator.countBuffer s).sizeMin = b.size) ∧
    (bs.foldl Allocator.countBuffer s).sizeMin ≤ s.sizeMin ∧
    ∀ b ∈ bs, (bs.foldl Allocator.countBuffer s).sizeMin ≤ b.size := by
  induction bs generalizing s with
  | nil => simp
  | cons b bs ih =>
    obtain ⟨hfound, hle, hall⟩ := ih (Allocator.countBuffer s b)
    have hone : (Allocator.countBuffer s b).sizeMin = if b.size < s.sizeMin then b.size else s.sizeMin := by
      unfold Allocator.countBuffer
      split <;> rfl
    rw [List.foldl_cons]
    rw [hone] at hfound hle
    split at hfound
    · rename_i hlt
      rw [if_pos hlt] at hle
      refine ⟨.inr ?_, Int64.le_trans hle (Int64.le_of_lt hlt), List.forall_mem_cons.mpr ⟨hle, hall⟩⟩
      rcases hfound with hsame | ⟨b', hb', hsame⟩
      · exact ⟨b, List.mem_cons_self, hsame⟩
      · exact ⟨b', List.mem_cons_of_mem _ hb', hsame⟩
    · rename_i hlt
      rw [if_neg hlt] at hle
      refine ⟨hfound.imp_right ?_, hle, List.forall_mem_cons.mpr ⟨Int64.le_trans hle (Int64.not_lt.mp hlt), hall⟩⟩
      rintro ⟨b', hb', hsame⟩
      exact ⟨b', List.mem_cons_of_mem _ hb', hsame⟩

/-- The greatest size is one that was counted, or the one there was. -/
theorem foldl_sizeMax (bs : List Buffer) (s : Detailed) :
    ((bs.foldl Allocator.countBuffer s).sizeMax = s.sizeMax ∨
      ∃ b ∈ bs, (bs.foldl Allocator.countBuffer s).sizeMax = b.size) ∧
    s.sizeMax ≤ (bs.foldl Allocator.countBuffer s).sizeMax ∧
    ∀ b ∈ bs, b.size ≤ (bs.foldl Allocator.countBuffer s).sizeMax := by
  induction bs generalizing s with
  | nil => simp
  | cons b bs ih =>
    obtain ⟨hfound, hle, hall⟩ := ih (Allocator.countBuffer s b)
    have hone : (Allocator.countBuffer s b).sizeMax = if s.sizeMax < b.size then b.size else s.sizeMax := by
      unfold Allocator.countBuffer
      split <;> rfl
    rw [List.foldl_cons]
    rw [hone] at hfound hle
    split at hfound
    · rename_i hlt
      rw [if_pos hlt] at hle
      refine ⟨.inr ?_, Int64.le_trans (Int64.le_of_lt hlt) hle, List.forall_mem_cons.mpr ⟨hle, hall⟩⟩
      rcases hfound with hsame | ⟨b', hb', hsame⟩
      · exact ⟨b, List.mem_cons_self, hsame⟩
      · exact ⟨b', List.mem_cons_of_mem _ hb', hsame⟩
    · rename_i hlt
      rw [if_neg hlt] at hle
      refine ⟨hfound.imp_right ?_, hle, List.forall_mem_cons.mpr ⟨Int64.le_trans (Int64.not_lt.mp hlt) hle, hall⟩⟩
      rintro ⟨b', hb', hsame⟩
      exact ⟨b', List.mem_cons_of_mem _ hb', hsame⟩

end Statistics.Detailed

/-! ## What the arena and the cache have -/

variable {κ : Type} {m : Machine κ} {ready : List Callback} {held : Option Nat}

/-- A number with a key of its own is found under it. -/
theorem List.lookup_eq_some_iff_mem {l : List (Nat × Nat)} (hl : (l.map (·.1)).Nodup) {k x : Nat} :
    l.lookup k = some x ↔ (k, x) ∈ l := by
  induction l with
  | nil => simp
  | cons e l ih =>
    obtain ⟨hnew, hl⟩ := List.nodup_cons.mp hl
    specialize ih hl
    obtain ⟨k', x'⟩ := e
    rw [List.lookup_cons, List.mem_cons, Prod.mk.injEq, ← ih]
    by_cases hk : k = k'
    · subst hk
      have hnone : l.lookup k ≠ some x := fun hx => hnew (List.mem_map.mpr ⟨_, ih.mp hx, rfl⟩)
      simp [hnone, eq_comm]
    · simp [hk, beq_false_of_ne hk]

/-- A buffer is in the arena while it is not freed. -/
theorem Machine.Books.mem_arena (h : m.Books ready held) (hkeys : (m.allocator.arena.map (·.1)).Nodup) {k x : Nat} :
    (k, x) ∈ m.allocator.arena ↔ ∃ b, m.allocator.buffers[x]? = some b ∧ b.handle = k ∧ b.freed = false := by
  rw [← List.lookup_eq_some_iff_mem hkeys]
  refine (h.arena k x).trans ⟨?_, ?_⟩
  · rintro ⟨a, ha, hk, hfreed⟩
    obtain ⟨b, hb, rfl⟩ := Machine.exists_buffer ha
    exact ⟨b, hb, hk, hfreed⟩
  · rintro ⟨b, hb, hk, hfreed⟩
    exact ⟨b.account, Machine.accounts_of_buffer hb, hk, hfreed⟩

/-- The arena leads to the buffers that are not freed. -/
theorem Machine.Books.live_perm (h : m.Books ready held) (hkeys : (m.allocator.arena.map (·.1)).Nodup) :
    m.allocator.live.Perm (m.allocator.buffers.filter (!·.freed)) := by
  have hnumbers : (m.allocator.arena.map (·.2)).Nodup := by
    refine List.Nodup.map_on ?_ (.of_map _ hkeys)
    rintro ⟨k, x⟩ hk ⟨k', _⟩ hk' rfl
    obtain ⟨b, hb, rfl, -⟩ := (h.mem_arena hkeys).mp hk
    obtain ⟨b', hb', rfl, -⟩ := (h.mem_arena hkeys).mp hk'
    rw [hb] at hb'
    cases hb'
    rfl
  have hlive : m.allocator.live = (m.allocator.arena.map (·.2)).filterMap (m.allocator.buffers[·]?) := by
    rw [List.filterMap_map]
    rfl
  rw [hlive]
  refine List.filterMap_getElem?_perm hnumbers fun x => ?_
  rw [List.mem_map]
  constructor
  · rintro ⟨⟨k, _⟩, hk, rfl⟩
    obtain ⟨b, hb, -, hfreed⟩ := (h.mem_arena hkeys).mp hk
    exact ⟨b, hb, by simp [hfreed]⟩
  · rintro ⟨b, hb, hfreed⟩
    exact ⟨(b.handle, x), (h.mem_arena hkeys).mpr ⟨b, hb, rfl, by simpa using hfreed⟩, rfl⟩

/-- The arena has as many entries as there are buffers that are not freed. -/
theorem Machine.Books.length_arena (h : m.Books ready held) (hkeys : (m.allocator.arena.map (·.1)).Nodup) :
    m.allocator.arena.length = m.allocator.buffers.countP (!·.freed) := by
  have hall : ∀ e ∈ m.allocator.arena, (m.allocator.buffers[e.2]?).isSome = true := by
    rintro ⟨k, x⟩ he
    obtain ⟨b, hb, -⟩ := (h.mem_arena hkeys).mp he
    rw [hb]
    rfl
  have hlength : m.allocator.live.length = m.allocator.arena.length := by
    rw [Allocator.live, List.length_filterMap_eq_countP, List.countP_eq_length]
    exact hall
  rw [← hlength, (h.live_perm hkeys).length_eq, List.countP_eq_length_filter]

/-- The buffers that are cached. -/
def Allocator.cachedBuffers (a : Allocator) : List Buffer := a.buffers.filter (·.cachedIn.isSome)

/-- What is cached is not freed. -/
theorem Machine.Books.cached_live (h : m.Books ready held) :
    (m.allocator.buffers.filter (!·.freed)).filter (·.cachedIn.isSome) = m.allocator.cachedBuffers := by
  rw [List.filter_filter, Allocator.cachedBuffers]
  refine List.filter_congr fun b hb => ?_
  obtain ⟨x, hx⟩ := List.mem_iff_getElem?.mp hb
  cases hfreed : b.freed with
  | false => simp
  | true =>
    have hcached : b.cachedIn = none := h.apart x _ (Machine.accounts_of_buffer hx) hfreed
    simp [hcached]

/-- The list by age leads to the buffers that are cached. -/
theorem Allocator.Aged.recency_perm {a : Allocator} {time : Int} (h : a.Aged time) :
    (a.cache.recency.filterMap (a.buffers[·]?)).Perm a.cachedBuffers := by
  refine List.filterMap_getElem?_perm h.nodup fun x => ?_
  rw [h.listed x]
  constructor
  · intro hx
    obtain ⟨i, hi⟩ := Option.ne_none_iff_exists'.mp hx
    obtain ⟨b, hb, hcached⟩ := Allocator.exists_of_classOf hi
    exact ⟨b, hb, by simp [hcached]⟩
  · rintro ⟨b, hb, hcached⟩
    rw [Allocator.classOf_of_buffer hb]
    exact Option.isSome_iff_ne_none.mp hcached

theorem Allocator.Aged.length_recency {a : Allocator} {time : Int} (h : a.Aged time) :
    a.cache.recency.length = a.cachedBuffers.length := by
  rw [← h.recency_perm.length_eq, List.length_filterMap_eq_countP, eq_comm, List.countP_eq_length]
  intro x hx
  obtain ⟨i, hi⟩ := Option.ne_none_iff_exists'.mp ((h.listed x).mp hx)
  obtain ⟨b, hb, -⟩ := Allocator.exists_of_classOf hi
  rw [hb]
  rfl

/-- The classes together have what the list by age has. -/
theorem Allocator.Aged.flatten_perm {a : Allocator} {time : Int} (h : a.Aged time) :
    a.cache.buckets.flatten.Perm a.cache.recency := by
  have hbucket {i : Nat} {l : List Nat} (hl : a.cache.buckets[i]? = some l) :
      l = a.cache.recency.filter fun x => a.classOf x = some i := by
    rw [← h.bucket i, BufferCache.bucket, List.getD_eq_getElem?_getD, hl]
    rfl
  refine (List.perm_ext_iff_of_nodup ?_ h.nodup).mpr fun x => ?_
  · refine List.nodup_flatten.mpr ⟨fun l hl => ?_, List.pairwise_iff_getElem.mpr fun i j hi hj hij => ?_⟩
    · obtain ⟨i, hi⟩ := List.mem_iff_getElem?.mp hl
      rw [hbucket hi]
      exact h.nodup.filter _
    · rw [hbucket (List.getElem?_eq_getElem hi), hbucket (List.getElem?_eq_getElem hj)]
      intro x hx hx'
      have hclass := (List.mem_filter.mp hx).2
      have hclass' := (List.mem_filter.mp hx').2
      simp only [decide_eq_true_eq] at hclass hclass'
      rw [hclass] at hclass'
      exact absurd (Option.some.inj hclass') (Nat.ne_of_lt hij)
  · rw [List.mem_flatten]
    constructor
    · rintro ⟨l, hl, hx⟩
      obtain ⟨i, hi⟩ := List.mem_iff_getElem?.mp hl
      rw [hbucket hi] at hx
      exact (List.mem_filter.mp hx).1
    · intro hx
      obtain ⟨i, hi⟩ := Option.ne_none_iff_exists'.mp ((h.listed x).mp hx)
      obtain ⟨b, hb, hcached⟩ := Allocator.exists_of_classOf hi
      have hclass : i = a.options.sizeClass b.size := h.sized x b.size b.lastUsed i (by
        rw [Allocator.card?_of_buffer hb, Buffer.card, hcached])
      have hlt : i < a.cache.buckets.length := hclass ▸ h.room _
      refine ⟨a.cache.buckets[i], List.getElem_mem hlt, ?_⟩
      rw [hbucket (List.getElem?_eq_getElem hlt)]
      exact List.mem_filter.mpr ⟨hx, by simpa using hi⟩

/-! ## Totals -/

/-- The totals are those of the buffers that are not freed.  Sums wrap like every other size. -/
theorem Machine.Books.statistics_live (h : m.Books ready held) (hkeys : (m.allocator.arena.map (·.1)).Nodup) :
    m.allocator.statistics.buffers = Int64.ofNat (m.allocator.buffers.filter (!·.freed)).length ∧
    m.allocator.statistics.bytes = Int64.ofInt (sizes (m.allocator.buffers.filter (!·.freed))).sum ∧
    m.allocator.statistics.cached = Int64.ofNat m.allocator.cachedBuffers.length ∧
    m.allocator.statistics.cachedBytes = Int64.ofInt (sizes m.allocator.cachedBuffers).sum := by
  obtain ⟨hbuffers, hbytes, hcached, hcachedBytes⟩ := Statistics.Detailed.foldl_countBuffer m.allocator.live
    { Statistics.Detailed.empty with buckets := Int64.ofNat m.allocator.cache.buckets.length }
  have hlive := h.live_perm hkeys
  have hlisted := hlive.filter (·.cachedIn.isSome)
  rw [h.cached_live] at hlisted
  rw [hlive.length_eq] at hbuffers
  rw [sizes, (hlive.map _).sum_eq] at hbytes
  rw [hlisted.length_eq] at hcached
  rw [sizes, (hlisted.map _).sum_eq] at hcachedBytes
  exact ⟨hbuffers.trans (Int64.zero_add _), hbytes.trans (Int64.zero_add _), hcached.trans (Int64.zero_add _),
    hcachedBytes.trans (Int64.zero_add _)⟩

/-- The extreme sizes are those of the buffers that are not freed, if there are any. -/
theorem Machine.Books.extremes_exact (h : m.Books ready held) (hkeys : (m.allocator.arena.map (·.1)).Nodup)
    (hsizes : ∀ b ∈ m.allocator.buffers, 0 < b.size) (hlive : m.allocator.buffers.filter (!·.freed) ≠ []) :
    (∃ b ∈ m.allocator.buffers.filter (!·.freed), m.allocator.statistics.sizeMin = b.size) ∧
    (∃ b ∈ m.allocator.buffers.filter (!·.freed), m.allocator.statistics.sizeMax = b.size) ∧
    ∀ b ∈ m.allocator.buffers.filter (!·.freed),
      m.allocator.statistics.sizeMin ≤ b.size ∧ b.size ≤ m.allocator.statistics.sizeMax := by
  have hperm := h.live_perm hkeys
  obtain ⟨b₀, hb₀⟩ := List.exists_mem_of_ne_nil _ hlive
  have hpos : 0 < b₀.size := hsizes b₀ (List.mem_filter.mp hb₀).1
  obtain ⟨hmin, -, hminAll⟩ := Statistics.Detailed.foldl_sizeMin m.allocator.live
    { Statistics.Detailed.empty with buckets := Int64.ofNat m.allocator.cache.buckets.length }
  obtain ⟨hmax, -, hmaxAll⟩ := Statistics.Detailed.foldl_sizeMax m.allocator.live
    { Statistics.Detailed.empty with buckets := Int64.ofNat m.allocator.cache.buckets.length }
  refine ⟨?_, ?_, fun b hb => ⟨hminAll b (hperm.mem_iff.mpr hb), hmaxAll b (hperm.mem_iff.mpr hb)⟩⟩
  · rcases hmin with hmin | ⟨b, hb, hmin⟩
    · -- the smallest size is the greatest word only if every size is
      have hle := hminAll b₀ (hperm.mem_iff.mpr hb₀)
      rw [hmin] at hle
      exact ⟨b₀, hb₀, hmin.trans (Int64.le_antisymm hle (Int64.le_maxValue _))⟩
    · exact ⟨b, hperm.mem_iff.mp hb, hmin⟩
  · rcases hmax with hmax | ⟨b, hb, hmax⟩
    · have hle := hmaxAll b₀ (hperm.mem_iff.mpr hb₀)
      rw [hmax] at hle
      exact absurd hpos (Int64.not_lt.mpr hle)
    · exact ⟨b, hperm.mem_iff.mp hb, hmax⟩

/-! ## Size classes -/

namespace Json

/-- The member of an object. -/
def member? (name : String) : Json → Option Json
  | object members => members.lookup name
  | _ => none

/-- The items of an array. -/
def items : Json → List Json
  | array items => items
  | _ => []

/-- A number. -/
def number? : Json → Option Int
  | number n => some n
  | _ => none

/-- What a summary says of every size class under a name. -/
def column (name : String) (summary : Json) : List Int :=
  ((summary.member? "Buckets").elim [] items).filterMap fun b => (b.member? name).bind number?

end Json

namespace Allocator

variable (a : Allocator) (detailed : Bool)

theorem column_summary {name : String} {f : List Nat → Int}
    (h : ∀ entries index, ((a.bucketSummary detailed entries index).member? name).bind Json.number? =
      some (f entries)) : (a.summary detailed).column name = a.cache.buckets.map f := by
  have hbuckets : (a.summary detailed).member? "Buckets" =
      some (.array (a.cache.buckets.zipIdx.map fun e => a.bucketSummary detailed e.1 e.2)) := rfl
  rw [Json.column, hbuckets]
  show (a.cache.buckets.zipIdx.map fun e => a.bucketSummary detailed e.1 e.2).filterMap _ = _
  rw [List.filterMap_map]
  conv_rhs => rw [← List.zipIdx_map_fst 0 a.cache.buckets, List.map_map, ← List.filterMap_eq_map]
  exact List.filterMap_congr fun e _ => h e.1 e.2

theorem column_count : (a.summary detailed).column "Count" = a.cache.buckets.map fun es => (es.length : Int) :=
  a.column_summary detailed fun _ _ => rfl

theorem column_bytes : (a.summary detailed).column "Bytes" =
    a.cache.buckets.map fun es => (bytes (es.filterMap a.cachedEntry?)).toInt :=
  a.column_summary detailed fun _ _ => rfl

end Allocator

/-- The handle of a cached buffer leads to it. -/
theorem Machine.Books.cached?_of_mem (h : m.Books ready held) {i x : Nat} (hx : x ∈ m.allocator.cache.bucket i) :
    m.allocator.cached? x = some x := by
  obtain ⟨a, ha, hcached⟩ := (h.buckets i x).mp hx
  obtain ⟨b, hb, rfl⟩ := Machine.exists_buffer ha
  have hfreed : b.account.freed = false := by
    by_contra hf
    have hnone := h.apart x _ ha (by simpa using hf)
    rw [hcached] at hnone
    cases hnone
  rw [Allocator.cached?, hb]
  exact (h.arena b.handle x).mpr ⟨_, ha, rfl, hfreed⟩

theorem BufferCache.mem_bucket_of_getElem? {c : BufferCache} {i : Nat} {l : List Nat} (h : c.buckets[i]? = some l) :
    c.bucket i = l := by
  rw [bucket, List.getD_eq_getElem?_getD, h]
  rfl

/-- A word that is read as a number and written again is the word. -/
theorem ofInt_sum_toInt (ns : List Int) :
    Int64.ofInt (ns.map fun n => (Int64.ofInt n).toInt).sum = Int64.ofInt ns.sum := by
  induction ns with
  | nil => rfl
  | cons n ns ih =>
    rw [List.map_cons, List.sum_cons, List.sum_cons, Int64.ofInt_add, Int64.ofInt_add, Int64.ofInt_toInt, ih]

/-- What a summary says of the size classes adds up to what is cached, and every cached handle stands for a buffer. -/
theorem Machine.Books.summary_exact {time : Int} (h : m.Books ready held) (haged : m.allocator.Aged time)
    (hstarted : m.allocator.started = true) (detailed : Bool) :
    (Allocator.summaryText detailed).exec m = (.ok (m.allocator.summary detailed).render, m) ∧
    ((m.allocator.summary detailed).column "Count").sum = m.allocator.cachedBuffers.length ∧
    Int64.ofInt ((m.allocator.summary detailed).column "Bytes").sum =
      Int64.ofInt (sizes m.allocator.cachedBuffers).sum := by
  have hknown {l : List Nat} (hl : l ∈ m.allocator.cache.buckets) {x : Nat} (hx : x ∈ l) :
      m.allocator.cached? x = some x := by
    obtain ⟨i, hi⟩ := List.mem_iff_getElem?.mp hl
    exact h.cached?_of_mem (BufferCache.mem_bucket_of_getElem? hi ▸ hx)
  refine ⟨?_, ?_, ?_⟩
  · have horphan : m.allocator.orphan? = none := by
      rw [Allocator.orphan?, List.find?_eq_none]
      intro x hx
      obtain ⟨l, hl, hx⟩ := List.mem_flatten.mp hx
      simp [hknown hl hx]
    unfold Allocator.summaryText
    rw [exec_bind_of_ok (exec_requireAllocator hstarted), exec_bind_of_ok (exec_allocator m), horphan]
    rfl
  · rw [Allocator.column_count, ← haged.length_recency, ← haged.flatten_perm.length_eq, List.length_flatten]
    induction m.allocator.cache.buckets with
    | nil => rfl
    | cons l ls ih => simp [ih]
  · have hentries : ∀ l ∈ m.allocator.cache.buckets,
        (Allocator.bytes (l.filterMap m.allocator.cachedEntry?)).toInt =
          (Int64.ofInt (sizes (l.filterMap (m.allocator.buffers[·]?))).sum).toInt := by
      intro l hl
      rw [Allocator.bytes_eq, List.filterMap_congr fun x hx => ?_]
      rw [Allocator.cachedEntry?, hknown hl hx]
      rfl
    rw [Allocator.column_bytes, List.map_congr_left hentries, ← Function.comp_def (g := fun l : List Nat =>
      (sizes (l.filterMap (m.allocator.buffers[·]?))).sum) (f := fun n => (Int64.ofInt n).toInt), ← List.map_map,
      ofInt_sum_toInt]
    have hsum (ls : List (List Nat)) : (ls.map fun l => (sizes (l.filterMap (m.allocator.buffers[·]?))).sum).sum =
        (sizes (ls.flatten.filterMap (m.allocator.buffers[·]?))).sum := by
      induction ls with
      | nil => rfl
      | cons l ls ih =>
        rw [List.map_cons, List.sum_cons, ih, List.flatten_cons, List.filterMap_append, sizes, sizes, sizes,
          List.map_append, List.sum_append]
    have hperm := (haged.flatten_perm.filterMap (m.allocator.buffers[·]?)).trans haged.recency_perm
    rw [hsum, sizes, (hperm.map _).sum_eq, sizes]

end Mali
