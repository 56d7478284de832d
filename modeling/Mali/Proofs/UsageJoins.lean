import Mali.Proofs.Usages

/-!
# Joining usage lists

A usage list that is strictly sorted by queue is a partial function from queues to uses, and adding
uses is the join of two such functions, queue by queue: the later number, and writing if either
writes.  A join does not care for order or repetition, so dependencies can be collected from several
buffers in any order.

Adding in order resumes each search where the last use landed.  Everything before that place is on an
earlier queue, so the next use, which is on a later one, does not miss its own.

* `Usage.Sorted`, `Usage.get?`: strictly sorted lists, and the entry of a queue.
* `Usage.Sorted.ext`: the entries determine the list.
* `Usage.addAfter_eq`, `Usage.addAll_eq`: where a search may start.
* `Usage.get?_insert`, `Usage.get?_updateDeps`: adding is joining.
* `Usage.updateDeps_join`: the main result.
-/

namespace Mali

/-! ## The later of two numbers -/

theorem UInt32.toNat_max (a b : UInt32) : (max a b).toNat = max a.toNat b.toNat := by
  show (if a ≤ b then b else a).toNat = max a.toNat b.toNat
  split <;> rename_i h <;> rw [UInt32.le_iff_toNat_le] at h <;> omega

theorem UInt64.toNat_max (a b : UInt64) : (max a b).toNat = max a.toNat b.toNat := by
  show (if a ≤ b then b else a).toNat = max a.toNat b.toNat
  split <;> rename_i h <;> rw [UInt64.le_iff_toNat_le] at h <;> omega

namespace Usage

/-- The join of two uses, component by component: of two uses on one queue it is a use on that queue
with the later number, and writes if either does. -/
def join (d u : Usage) : Usage where
  queue := max d.queue u.queue
  write := d.write || u.write
  seqnum := max d.seqnum u.seqnum

theorem ext_toNat {d u : Usage} (hq : d.queue.toNat = u.queue.toNat) (hw : d.write = u.write)
    (hs : d.seqnum.toNat = u.seqnum.toNat) : d = u := by
  obtain ⟨q, w, s⟩ := d
  obtain ⟨q', w', s'⟩ := u
  obtain rfl : q = q' := UInt32.toNat_inj.mp hq
  obtain rfl : s = s' := UInt64.toNat_inj.mp hs
  obtain rfl : w = w' := hw
  rfl

instance : Std.Commutative join where
  comm d u := by
    refine ext_toNat ?_ (Bool.or_comm ..) ?_
    · simp only [join, UInt32.toNat_max, Nat.max_comm]
    · simp only [join, UInt64.toNat_max, Nat.max_comm]

instance : Std.Associative join where
  assoc d u v := by
    refine ext_toNat ?_ (Bool.or_assoc ..) ?_
    · simp only [join, UInt32.toNat_max, Nat.max_assoc]
    · simp only [join, UInt64.toNat_max, Nat.max_assoc]

instance : Std.IdempotentOp join where
  idempotent d := by
    refine ext_toNat ?_ (Bool.or_self _) ?_
    · simp only [join, UInt32.toNat_max, Nat.max_self]
    · simp only [join, UInt64.toNat_max, Nat.max_self]

theorem merge_join_assoc (a b c : Option Usage) :
    (a.merge join b).merge join c = a.merge join (b.merge join c) := Std.Associative.assoc a b c

theorem merge_join_comm (a b : Option Usage) : a.merge join b = b.merge join a := Std.Commutative.comm a b

theorem merge_join_self (a : Option Usage) : a.merge join a = a := Std.IdempotentOp.idempotent a

/-- Merging two uses on one queue is joining them. -/
theorem merge_eq_join {d u : Usage} (h : d.queue = u.queue) : d.merge u = join d u := by
  refine ext_toNat ?_ rfl ?_
  · simp only [merge, join, UInt32.toNat_max, ← h, Nat.max_self]
  · simp only [merge, join, UInt64.toNat_max]
    split <;> rename_i hlt <;> rw [UInt64.lt_iff_toNat_lt] at hlt <;> omega

/-! ## Sorted lists as functions -/

/-- Uses are in the order of their queues, with one for each. -/
def Sorted (us : List Usage) : Prop := us.Pairwise fun d e => d.queue < e.queue

/-- The entry of a queue. -/
def get? (l : List Usage) (q : UInt32) : Option Usage := l.find? fun u => u.queue = q

theorem sorted_cons {d : Usage} {l : List Usage} :
    Sorted (d :: l) ↔ (∀ u ∈ l, d.queue < u.queue) ∧ Sorted l := List.pairwise_cons

theorem Sorted.filter {l : List Usage} (h : Sorted l) (p : Usage → Bool) : Sorted (l.filter p) :=
  List.Pairwise.filter p h

@[simp] theorem get?_nil (q : UInt32) : get? [] q = none := rfl

theorem get?_cons (d : Usage) (l : List Usage) (q : UInt32) :
    get? (d :: l) q = if d.queue = q then some d else get? l q := by
  rw [get?, List.find?_cons]
  by_cases h : d.queue = q <;> simp [h, get?]

theorem get?_eq_some {l : List Usage} {q : UInt32} {e : Usage} (h : get? l q = some e) :
    e ∈ l ∧ e.queue = q :=
  ⟨List.mem_of_find?_eq_some h, by simpa using List.find?_some h⟩

theorem get?_eq_none {l : List Usage} {q : UInt32} : get? l q = none ↔ ∀ e ∈ l, e.queue ≠ q := by
  simp [get?]

/-- There is nothing on the queues up to one that all entries are above. -/
theorem get?_of_lt {l : List Usage} {q q' : UInt32} (h : ∀ e ∈ l, q < e.queue) (hq : q' ≤ q) :
    get? l q' = none :=
  get?_eq_none.mpr fun e he => Ne.symm (UInt32.ne_of_lt (UInt32.lt_of_le_of_lt hq (h e he)))

/-- An entry of a sorted list is the entry of its queue. -/
theorem Sorted.get?_of_mem {l : List Usage} (h : Sorted l) {e : Usage} (he : e ∈ l) :
    get? l e.queue = some e := by
  induction l with
  | nil => exact absurd he List.not_mem_nil
  | cons d l ih =>
    obtain ⟨hlt, hl⟩ := sorted_cons.mp h
    rw [get?_cons]
    rcases List.mem_cons.mp he with rfl | he
    · rw [if_pos rfl]
    · rw [if_neg (UInt32.ne_of_lt (hlt e he)), ih hl he]

/-- The relevant entry of a queue is its entry, if that is relevant. -/
theorem Sorted.get?_filter {l : List Usage} (h : Sorted l) (p : Usage → Bool) (q : UInt32) :
    get? (l.filter p) q = (get? l q).filter p := by
  cases he : get? l q with
  | none =>
    exact get?_eq_none.mpr fun e hmem => get?_eq_none.mp he e (List.mem_of_mem_filter hmem)
  | some e =>
    obtain ⟨hmem, rfl⟩ := get?_eq_some he
    by_cases hp : p e = true
    · rw [Option.filter_some_pos hp]
      exact (h.filter p).get?_of_mem (List.mem_filter.mpr ⟨hmem, hp⟩)
    · rw [Option.filter_some_neg ((Bool.not_eq_true _).mp hp)]
      refine get?_eq_none.mpr fun d hd hq => hp ?_
      obtain ⟨hd, hpd⟩ := List.mem_filter.mp hd
      rw [← hq, h.get?_of_mem hd] at he
      exact Option.some.inj he ▸ hpd

/-- A sorted list is determined by its entries. -/
theorem Sorted.ext {l l' : List Usage} (h : Sorted l) (h' : Sorted l')
    (heq : ∀ q, get? l q = get? l' q) : l = l' := by
  have hmem (e : Usage) : e ∈ l ↔ e ∈ l' :=
    ⟨fun he => (get?_eq_some ((heq _).symm.trans (h.get?_of_mem he))).1,
      fun he => (get?_eq_some ((heq _).trans (h'.get?_of_mem he))).1⟩
  have hnodup {l : List Usage} (h : Sorted l) : l.Nodup := h.imp fun hlt he => by
    rw [he] at hlt
    exact UInt32.lt_irrefl _ hlt
  refine ((List.perm_ext_iff_of_nodup (hnodup h) (hnodup h')).mpr hmem).eq_of_pairwise ?_ h h'
  exact fun d u _ _ hdu hud => absurd hud (UInt32.lt_asymm hdu)

/-! ## Adding one use -/

theorem merge_queue (d u : Usage) : (d.merge u).queue = d.queue := rfl

/-- What is in a list after a use was added. -/
theorem mem_insert {u e : Usage} : ∀ {us : List Usage}, e ∈ (insert u us).1 →
    e ∈ us ∨ e = u ∨ ∃ d ∈ us, d.queue = u.queue ∧ e = d.merge u
  | [], he => .inr (.inl (List.mem_singleton.mp he))
  | d :: ds, he => by
    unfold insert at he
    split at he
    · rename_i hq
      rcases List.mem_cons.mp he with rfl | he
      · exact .inr (.inr ⟨d, List.mem_cons_self, hq, rfl⟩)
      · exact .inl (List.mem_cons_of_mem _ he)
    · split at he
      · rcases List.mem_cons.mp he with rfl | he
        · exact .inr (.inl rfl)
        · exact .inl he
      · rcases List.mem_cons.mp he with rfl | he
        · exact .inl List.mem_cons_self
        · rcases mem_insert he with he | rfl | ⟨d', hd', hq, rfl⟩
          · exact .inl (List.mem_cons_of_mem _ he)
          · exact .inr (.inl rfl)
          · exact .inr (.inr ⟨d', List.mem_cons_of_mem _ hd', hq, rfl⟩)

theorem sorted_insert (u : Usage) : ∀ {us : List Usage}, Sorted us → Sorted (insert u us).1
  | [], _ => List.pairwise_singleton _ _
  | d :: ds, h => by
    obtain ⟨hd, hds⟩ := List.pairwise_cons.mp h
    unfold insert
    split
    · exact List.pairwise_cons.mpr ⟨fun e he => hd e he, hds⟩
    · rename_i hne
      split
      · rename_i hlt
        refine List.pairwise_cons.mpr ⟨fun e he => ?_, h⟩
        rcases List.mem_cons.mp he with rfl | he
        · exact hlt
        · exact UInt32.lt_trans hlt (hd e he)
      · rename_i hge
        have hlt : d.queue < u.queue := UInt32.lt_of_le_of_ne (UInt32.not_lt.mp hge) hne
        refine List.pairwise_cons.mpr ⟨fun e he => ?_, sorted_insert u hds⟩
        rcases mem_insert he with he | rfl | ⟨d', hd', -, rfl⟩
        · exact hd e he
        · exact hlt
        · exact hd d' hd'

/-- Adding a use joins it to the entry of its queue, and leaves the other entries alone. -/
theorem get?_insert {l : List Usage} (h : Sorted l) (u : Usage) (q : UInt32) :
    get? (insert u l).1 q = (get? l q).merge join (get? [u] q) := by
  induction l with
  | nil => rw [insert, get?_nil, Option.merge_none_left]
  | cons d l ih =>
    obtain ⟨hlt, hl⟩ := sorted_cons.mp h
    unfold insert
    split
    · rename_i hqueue
      have hmerged := merge_queue d u
      simp only [get?_cons, get?_nil, hmerged, ← hqueue]
      split
      · rw [Option.merge_some_some, merge_eq_join hqueue]
      · rw [Option.merge_none_right]
    · rename_i hne
      split
      · rename_i hud
        rw [get?_cons u, get?_cons u]
        split
        · rename_i hq
          have habove : ∀ e ∈ d :: l, u.queue < e.queue :=
            List.forall_mem_cons.mpr ⟨hud, fun e he => UInt32.lt_trans hud (hlt e he)⟩
          rw [get?_of_lt habove (UInt32.le_of_eq hq.symm), Option.merge_none_left]
        · rw [get?_nil, Option.merge_none_right]
      · simp only [get?_cons d, ih hl]
        split
        · rename_i hq
          rw [get?_cons, if_neg (hq ▸ Ne.symm hne), get?_nil, Option.merge_none_right]
        · rfl

/-! ## Where a search may start -/

/-- A search passes over what is on earlier queues. -/
theorem insert_append {u : Usage} {l₁ : List Usage} (h : ∀ d ∈ l₁, d.queue < u.queue) (l₂ : List Usage) :
    insert u (l₁ ++ l₂) = (l₁ ++ (insert u l₂).1, l₁.length + (insert u l₂).2) := by
  induction l₁ with
  | nil => simp
  | cons d l₁ ih =>
    obtain ⟨hd, hl₁⟩ := List.forall_mem_cons.mp h
    rw [List.cons_append, insert, if_neg (UInt32.ne_of_lt hd), if_neg (UInt32.lt_asymm hd), ih hl₁]
    simp only [List.cons_append, List.length_cons]
    rw [Nat.add_right_comm]

/-- A search may start anywhere behind earlier queues. -/
theorem addAfter_eq {l : List Usage} {u : Usage} {i : Nat} (h : ∀ d ∈ l.take i, d.queue < u.queue) :
    addAfter l u i = insert u l := by
  have happend := insert_append h (l.drop i)
  rw [List.take_append_drop] at happend
  exact happend.symm

/-- A use lands behind earlier queues. -/
theorem lt_of_mem_take_insert {u d : Usage} {l : List Usage} (h : d ∈ (insert u l).1.take (insert u l).2) :
    d.queue < u.queue := by
  induction l with
  | nil => exact absurd h List.not_mem_nil
  | cons e l ih =>
    unfold insert at h
    split at h
    · exact absurd h List.not_mem_nil
    · rename_i hne
      split at h
      · exact absurd h List.not_mem_nil
      · rename_i hue
        rcases List.mem_cons.mp h with rfl | h
        · exact UInt32.lt_of_le_of_ne (UInt32.not_lt.mp hue) hne
        · exact ih h

theorem record_eq (us : List Usage) (u : Usage) : record us u = (insert u us).1 := rfl

theorem sorted_record {l : List Usage} (h : Sorted l) (u : Usage) : Sorted (record l u) := sorted_insert u h

/-- Adding uses in order, each search starting where the last use landed, is adding each from the
start: the next use is on a later queue than all before that place. -/
theorem addAll_eq {us : List Usage} (hus : Sorted us) {l : List Usage} {i : Nat}
    (h : ∀ d ∈ l.take i, ∀ u ∈ us, d.queue < u.queue) : addAll l us i = us.foldl record l := by
  induction us generalizing l i with
  | nil => rfl
  | cons u us ih =>
    obtain ⟨hlt, hus⟩ := sorted_cons.mp hus
    rw [addAll, addAfter_eq fun d hd => h d hd u List.mem_cons_self, List.foldl_cons, record_eq]
    exact ih hus fun d hd v hv => UInt32.lt_trans (lt_of_mem_take_insert hd) (hlt v hv)

/-! ## Adding several -/

theorem sorted_foldl_record {l : List Usage} (h : Sorted l) (us : List Usage) :
    Sorted (us.foldl record l) := by
  induction us generalizing l with
  | nil => exact h
  | cons u us ih => exact ih (sorted_record h u)

theorem get?_foldl_record {l us : List Usage} (h : Sorted l) (hus : Sorted us) (q : UInt32) :
    get? (us.foldl record l) q = (get? l q).merge join (get? us q) := by
  induction us generalizing l with
  | nil => rw [List.foldl_nil, get?_nil, Option.merge_none_right]
  | cons u us ih =>
    obtain ⟨hlt, hus⟩ := sorted_cons.mp hus
    have hcons : (get? [u] q).merge join (get? us q) = get? (u :: us) q := by
      simp only [get?_cons u, get?_nil]
      split
      · rename_i hq
        rw [get?_of_lt hlt (UInt32.le_of_eq hq.symm), Option.merge_none_right]
      · rw [Option.merge_none_left]
    rw [List.foldl_cons, ih (sorted_record h u) hus, record_eq, get?_insert h,
      merge_join_assoc, hcons]

theorem updateDeps_eq {usage : List Usage} (h : Sorted usage) (deps : List Usage) (write : Bool) :
    updateDeps deps usage write = (usage.filter (relevant write)).foldl record deps :=
  addAll_eq (h.filter _) fun _ hd => absurd hd List.not_mem_nil

theorem sorted_updateDeps {deps usage : List Usage} (hd : Sorted deps) (hu : Sorted usage) (write : Bool) :
    Sorted (updateDeps deps usage write) := by
  rw [updateDeps_eq hu]
  exact sorted_foldl_record hd _

/-- Updating dependencies joins the relevant use of each queue to its entry. -/
theorem get?_updateDeps {deps usage : List Usage} (hd : Sorted deps) (hu : Sorted usage) (write : Bool)
    (q : UInt32) : get? (updateDeps deps usage write) q =
      (get? deps q).merge join ((get? usage q).filter (relevant write)) := by
  rw [updateDeps_eq hu, get?_foldl_record hd (hu.filter _), hu.get?_filter]

theorem updateDeps_comm {deps u v : List Usage} (hd : Sorted deps) (hu : Sorted u) (hv : Sorted v)
    (write write' : Bool) : updateDeps (updateDeps deps u write) v write' =
      updateDeps (updateDeps deps v write') u write := by
  have hdu := sorted_updateDeps hd hu write
  have hdv := sorted_updateDeps hd hv write'
  refine (sorted_updateDeps hdu hv write').ext (sorted_updateDeps hdv hu write) fun q => ?_
  rw [get?_updateDeps hdu hv, get?_updateDeps hd hu, get?_updateDeps hdv hu, get?_updateDeps hd hv,
    merge_join_assoc, merge_join_assoc, merge_join_comm ((get? u q).filter _)]

theorem updateDeps_idem {deps usage : List Usage} (hd : Sorted deps) (hu : Sorted usage) (write : Bool) :
    updateDeps (updateDeps deps usage write) usage write = updateDeps deps usage write := by
  have hdu := sorted_updateDeps hd hu write
  refine (sorted_updateDeps hdu hu write).ext hdu fun q => ?_
  rw [get?_updateDeps hdu hu, get?_updateDeps hd hu, merge_join_assoc, merge_join_self]

/-! ## Several accesses -/

/-- The dependencies after several accesses, each to a buffer with some uses, writing or not. -/
def collectDeps (deps : List Usage) (accesses : List (List Usage × Bool)) : List Usage :=
  accesses.foldl (fun deps a => updateDeps deps a.1 a.2) deps

theorem sorted_collectDeps {deps : List Usage} {as : List (List Usage × Bool)} (hd : Sorted deps)
    (has : ∀ a ∈ as, Sorted a.1) : Sorted (collectDeps deps as) := by
  induction as generalizing deps with
  | nil => exact hd
  | cons a as ih =>
    obtain ⟨ha, has⟩ := List.forall_mem_cons.mp has
    exact ih (sorted_updateDeps hd ha a.2) has

theorem collectDeps_perm {deps : List Usage} {as as' : List (List Usage × Bool)} (h : as.Perm as')
    (hd : Sorted deps) (has : ∀ a ∈ as, Sorted a.1) : collectDeps deps as = collectDeps deps as' := by
  induction h generalizing deps with
  | nil => rfl
  | cons a _ ih =>
    obtain ⟨ha, has⟩ := List.forall_mem_cons.mp has
    exact ih (sorted_updateDeps hd ha a.2) has
  | swap a b as =>
    obtain ⟨hb, has⟩ := List.forall_mem_cons.mp has
    obtain ⟨ha, -⟩ := List.forall_mem_cons.mp has
    exact congrArg (collectDeps · as) (updateDeps_comm hd hb ha b.2 a.2)
  | trans h₁ _ ih₁ ih₂ => exact (ih₁ hd has).trans (ih₂ hd fun a ha => has a (h₁.mem_iff.mpr ha))

/-- An access that was made already adds nothing: it might have been the last one. -/
theorem collectDeps_absorb {deps : List Usage} {as : List (List Usage × Bool)} {a : List Usage × Bool}
    (ha : a ∈ as) (hd : Sorted deps) (has : ∀ b ∈ as, Sorted b.1) :
    updateDeps (collectDeps deps as) a.1 a.2 = collectDeps deps as := by
  obtain ⟨s, t, rfl⟩ := List.append_of_mem ha
  have hlast : (s ++ a :: t).Perm (s ++ t ++ [a]) :=
    List.perm_middle.trans (List.perm_append_singleton a _).symm
  have hrest : Sorted (collectDeps deps (s ++ t)) := sorted_collectDeps hd fun b hb =>
    has b (hlast.mem_iff.mpr (List.mem_append_left _ hb))
  have hsplit : collectDeps deps (s ++ t ++ [a]) = updateDeps (collectDeps deps (s ++ t)) a.1 a.2 := by
    rw [collectDeps, List.foldl_append]
    rfl
  rw [collectDeps_perm hlast hd has, hsplit]
  exact updateDeps_idem hrest (has a ha) a.2

/-- Resuming each search where the last use landed, dependencies become what adding every relevant use
from the start makes of them.  They stay sorted, and each queue has the join of its entry and of the
buffer's use on it, if that is relevant.  So accesses can be made in any order, and again. -/
theorem updateDeps_join {deps usage : List Usage} (hd : Sorted deps) (hu : Sorted usage) (write : Bool) :
    updateDeps deps usage write =
      (usage.filter (relevant write)).foldl (fun deps u => (addAfter deps u 0).1) deps ∧
    Sorted (updateDeps deps usage write) ∧
    (∀ q, get? (updateDeps deps usage write) q =
      (get? deps q).merge join ((get? usage q).filter (relevant write))) ∧
    (∀ as as' : List (List Usage × Bool), (∀ a ∈ as, Sorted a.1) → as.Perm as' →
      collectDeps deps as = collectDeps deps as') ∧
    ∀ as : List (List Usage × Bool), (∀ a ∈ as, Sorted a.1) → ∀ a ∈ as,
      updateDeps (collectDeps deps as) a.1 a.2 = collectDeps deps as :=
  ⟨updateDeps_eq hu deps write, sorted_updateDeps hd hu write, get?_updateDeps hd hu write,
    fun _ _ has h => collectDeps_perm h hd has, fun _ has _ ha => collectDeps_absorb ha hd has⟩

end Usage

/-- A queue is merged, two are inserted, and one of them only by a writer. -/
theorem updateDeps_join_sample :
    Usage.Sorted [⟨1, false, 8⟩, ⟨2, true, 1⟩] ∧ Usage.Sorted [⟨0, false, 4⟩, ⟨1, true, 6⟩, ⟨3, false, 2⟩] ∧
    Usage.updateDeps [⟨1, false, 8⟩, ⟨2, true, 1⟩] [⟨0, false, 4⟩, ⟨1, true, 6⟩, ⟨3, false, 2⟩] true =
      [⟨0, false, 4⟩, ⟨1, true, 8⟩, ⟨2, true, 1⟩, ⟨3, false, 2⟩] ∧
    Usage.collectDeps [⟨1, false, 8⟩, ⟨2, true, 1⟩]
        [([⟨0, false, 4⟩, ⟨1, true, 6⟩, ⟨3, false, 2⟩], false), ([⟨3, true, 9⟩], true)] =
      Usage.collectDeps [⟨1, false, 8⟩, ⟨2, true, 1⟩]
        [([⟨3, true, 9⟩], true), ([⟨0, false, 4⟩, ⟨1, true, 6⟩, ⟨3, false, 2⟩], false)] := by
  have hdeps : Usage.Sorted [⟨1, false, 8⟩, ⟨2, true, 1⟩] := by simp [Usage.Sorted]
  have husage : Usage.Sorted [⟨0, false, 4⟩, ⟨1, true, 6⟩, ⟨3, false, 2⟩] := by simp [Usage.Sorted]
  have hsingle : Usage.Sorted [⟨3, true, 9⟩] := by simp [Usage.Sorted]
  obtain ⟨heq, -, -, hperm, -⟩ := Usage.updateDeps_join hdeps husage true
  refine ⟨hdeps, husage, heq.trans (by decide), hperm _ _ ?_ (List.Perm.swap _ _ _)⟩
  intro a ha
  rcases List.mem_pair.mp ha with rfl | rfl
  · exact husage
  · exact hsingle

end Mali
