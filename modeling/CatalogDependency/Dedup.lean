import Mathlib.Data.List.Sort
import CatalogDependency.ObjectAddress

/-!
`eliminate_duplicate_dependencies` and `object_address_comparator`.

The code sorts the used slots with `qsort`, then compacts them in place: a slot
equal to `priorobj` is dropped, a whole-object `priorobj` followed by a part of
the same object becomes that part, and anything else is copied to the slot
after `priorobj`. The comparator orders addresses by class, object and
sub-object id read as unsigned, so every correct sort returns the same array,
with each whole object ahead of its parts. The result is strictly increasing,
and its entries are the parts in the array together with the whole objects
none of whose parts is in it (`eliminateDuplicateDependencies_spec`).
-/

namespace CatalogDependency

/-! ## The comparator -/

/-- `object_address_comparator`: class, then object, then sub-object id as an
unsigned number, so that a whole object comes before its parts. -/
def objectAddressComparator (a b : ObjectAddress) : Int :=
  if a.classId < b.classId then -1
  else if a.classId > b.classId then 1
  else if a.objectId < b.objectId then -1
  else if a.objectId > b.objectId then 1
  else if a.objectSubId.toNat < b.objectSubId.toNat then -1
  else if a.objectSubId.toNat > b.objectSubId.toNat then 1
  else 0

/-- `a` sorts strictly before `b`. -/
def ObjectAddress.Before (a b : ObjectAddress) : Prop :=
  a.classId < b.classId ∨ a.classId = b.classId ∧
    (a.objectId < b.objectId ∨ a.objectId = b.objectId ∧
      a.objectSubId.toNat < b.objectSubId.toNat)

theorem ObjectAddress.eq_of_toNat {a b : ObjectAddress} (h1 : (a.classId : Nat) = b.classId)
    (h2 : (a.objectId : Nat) = b.objectId) (h3 : a.objectSubId.toNat = b.objectSubId.toNat) :
    a = b := by
  obtain ⟨c, o, k⟩ := a
  obtain ⟨c', o', k'⟩ := b
  simp only at h1 h2 h3
  rw [h1, h2, BitVec.eq_of_toNat_eq h3]

/-- One link of the comparator's chain: a field decides unless the two tie. -/
private theorem chain_neg_iff {x y : Nat} {r : Int} :
    (if x < y then -1 else if x > y then 1 else r) < 0 ↔ x < y ∨ x = y ∧ r < 0 := by
  by_cases h1 : x < y
  · simp only [h1, if_true, true_or, iff_true]; decide
  · by_cases h2 : x > y
    · simp only [h1, h2, if_false, if_true, false_or]; omega
    · simp only [h1, h2, if_false, false_or]; omega

private theorem chain_eq_zero_iff {x y : Nat} {r : Int} :
    (if x < y then -1 else if x > y then 1 else r) = 0 ↔ x = y ∧ r = 0 := by
  by_cases h1 : x < y
  · simp only [h1, if_true]; omega
  · by_cases h2 : x > y
    · simp only [h1, h2, if_false, if_true]; omega
    · simp only [h1, h2, if_false]; omega

theorem comparator_neg_iff (a b : ObjectAddress) :
    objectAddressComparator a b < 0 ↔ a.Before b := by
  unfold objectAddressComparator ObjectAddress.Before
  rw [chain_neg_iff, chain_neg_iff, chain_neg_iff]
  simp only [lt_self_iff_false, and_false, or_false]

theorem comparator_eq_zero_iff (a b : ObjectAddress) :
    objectAddressComparator a b = 0 ↔ a = b := by
  unfold objectAddressComparator
  rw [chain_eq_zero_iff, chain_eq_zero_iff, chain_eq_zero_iff]
  exact ⟨fun ⟨h1, h2, h3, _⟩ => ObjectAddress.eq_of_toNat h1 h2 h3, by rintro rfl; simp⟩

theorem comparator_nonpos_iff (a b : ObjectAddress) :
    objectAddressComparator a b ≤ 0 ↔ a.Before b ∨ a = b := by
  rw [← comparator_neg_iff, ← comparator_eq_zero_iff]
  omega

/-- The order `qsort` sorts by: the comparator answers at most zero. -/
def AddrLe (a b : ObjectAddress) : Prop := objectAddressComparator a b ≤ 0

instance : DecidableRel AddrLe := fun _ _ => inferInstanceAs (Decidable (_ ≤ _))

theorem addrLe_iff (a b : ObjectAddress) : AddrLe a b ↔ a.Before b ∨ a = b :=
  comparator_nonpos_iff a b

theorem addrLe_total (a b : ObjectAddress) : AddrLe a b ∨ AddrLe b a := by
  simp only [addrLe_iff, ObjectAddress.Before]
  by_cases h : a = b
  · exact .inl (.inr h)
  · have : ¬ (a.classId = b.classId ∧ a.objectId = b.objectId ∧
        a.objectSubId.toNat = b.objectSubId.toNat) :=
      fun ⟨h1, h2, h3⟩ => h (ObjectAddress.eq_of_toNat h1 h2 h3)
    dsimp only [Oid] at *
    omega

theorem ObjectAddress.Before.trans {a b c : ObjectAddress} (hab : a.Before b) (hbc : b.Before c) :
    a.Before c := by
  unfold ObjectAddress.Before at *; dsimp only [Oid] at *; omega

theorem addrLe_trans {a b c : ObjectAddress} : AddrLe a b → AddrLe b c → AddrLe a c := by
  simp only [addrLe_iff]
  rintro (h | rfl) (h' | rfl)
  · exact .inl (h.trans h')
  · exact .inl h
  · exact .inl h'
  · exact .inr rfl

theorem addrLe_antisymm {a b : ObjectAddress} : AddrLe a b → AddrLe b a → a = b := by
  simp only [addrLe_iff, ObjectAddress.Before]
  rintro (h | rfl) (h' | h')
  · dsimp only [Oid] at *; omega
  · exact h'.symm
  · rfl
  · rfl

instance : IsTotal ObjectAddress AddrLe := ⟨addrLe_total⟩

instance : IsTrans ObjectAddress AddrLe := ⟨fun _ _ _ => addrLe_trans⟩

instance : IsAntisymm ObjectAddress AddrLe := ⟨fun _ _ => addrLe_antisymm⟩

/-! ## The sort -/

/-- `qsort` of the first `n` slots with `object_address_comparator`. Any
correct sort returns the same slots (`qsort_unique`); insertion sort stands
for the C library's. -/
def qsort (refs : List ObjectAddress) (n : Nat) : List ObjectAddress :=
  (refs.take n).insertionSort AddrLe ++ refs.drop n

theorem length_qsort (refs : List ObjectAddress) (n : Nat) :
    (qsort refs n).length = refs.length := by
  rw [qsort, List.length_append, (List.perm_insertionSort _ _).length_eq, ← List.length_append,
    List.take_append_drop]

/-- Every permutation of the first `n` slots that the comparator orders is the
one `qsort` returns. -/
theorem qsort_unique (refs : List ObjectAddress) (n : Nat) {sorted : List ObjectAddress}
    (hperm : sorted.Perm (refs.take n)) (hsorted : sorted.Sorted AddrLe) :
    sorted ++ refs.drop n = qsort refs n :=
  congrArg (· ++ refs.drop n) (List.eq_of_perm_of_sorted
    (hperm.trans (List.perm_insertionSort _ _).symm) hsorted (List.sorted_insertionSort _ _))

/-! ## The compaction loop -/

/-- One iteration of the loop of `eliminate_duplicate_dependencies`, on the
slot of `priorobj` and the array: slot `oldref` is dropped when it equals
`priorobj`, merged into it when `priorobj` is its whole object, and otherwise
copied to the slot after `priorobj`. -/
def dedupStep : Nat × List ObjectAddress → Nat → Nat × List ObjectAddress
  | (prior, refs), oldref =>
    let priorobj := refs.getD prior default
    let thisobj := refs.getD oldref default
    if priorobj.classId = thisobj.classId ∧ priorobj.objectId = thisobj.objectId then
      if priorobj.objectSubId = thisobj.objectSubId then (prior, refs)
      else if priorobj.objectSubId = 0 then
        (prior, refs.set prior { priorobj with objectSubId := thisobj.objectSubId })
      else (prior + 1, refs.set (prior + 1) thisobj)
    else (prior + 1, refs.set (prior + 1) thisobj)

/-- The loop over slots `1` to `numrefs - 1`, from `priorobj` at slot `0`. -/
def dedupLoop (numrefs : Nat) (refs : List ObjectAddress) : Nat × List ObjectAddress :=
  (List.range' 1 (numrefs - 1)).foldl dedupStep (0, refs)

theorem length_foldl_dedupStep :
    ∀ (l : List Nat) (st : Nat × List ObjectAddress),
      (l.foldl dedupStep st).2.length = st.2.length ∧ (l.foldl dedupStep st).1 ≤ st.1 + l.length
  | [], _ => by simp
  | oldref :: l, (prior, refs) => by
    have ih := length_foldl_dedupStep l (dedupStep (prior, refs) oldref)
    have : (dedupStep (prior, refs) oldref).2.length = refs.length ∧
        (dedupStep (prior, refs) oldref).1 ≤ prior + 1 := by
      simp only [dedupStep]; split_ifs <;> simp
    simp only [List.foldl_cons, List.length_cons]
    omega

/-- `eliminate_duplicate_dependencies`: nothing to do for at most one entry;
otherwise sort, compact, and keep the slots up to `priorobj`. -/
def eliminateDuplicateDependencies (addrs : ObjectAddresses) : ObjectAddresses :=
  if h : addrs.numrefs ≤ 1 then addrs
  else
    { refs := (dedupLoop addrs.numrefs (qsort addrs.refs addrs.numrefs)).2
      numrefs := (dedupLoop addrs.numrefs (qsort addrs.refs addrs.numrefs)).1 + 1
      maxrefs := addrs.maxrefs
      refs_length := by
        rw [dedupLoop, (length_foldl_dedupStep _ _).1, length_qsort, addrs.refs_length]
      numrefs_le := by
        have hloop := (length_foldl_dedupStep (List.range' 1 (addrs.numrefs - 1))
          (0, qsort addrs.refs addrs.numrefs)).2
        have := addrs.numrefs_le
        simp only [List.length_range'] at hloop
        rw [dedupLoop]
        omega
      maxrefs_pos := addrs.maxrefs_pos }

/-- The loop on lists: `out` holds the entries before `priorobj`, `prior` the
entry in its slot, and the last argument the sorted entries not yet read. -/
def dedupFold : List ObjectAddress → ObjectAddress → List ObjectAddress → List ObjectAddress
  | out, prior, [] => out ++ [prior]
  | out, prior, y :: ys =>
    if prior.classId = y.classId ∧ prior.objectId = y.objectId then
      if prior.objectSubId = y.objectSubId then dedupFold out prior ys
      else if prior.objectSubId = 0 then dedupFold out { prior with objectSubId := y.objectSubId } ys
      else dedupFold (out ++ [prior]) y ys
    else dedupFold (out ++ [prior]) y ys

/-- The array during the loop: `out` in the slots before `priorobj`, `prior`
in its slot, and from slot `oldref` on the sorted slots, none yet written. -/
structure DedupSim (sorted : List ObjectAddress) (oldref : Nat) (out : List ObjectAddress)
    (prior : ObjectAddress) (st : Nat × List ObjectAddress) : Prop where
  length_eq : st.2.length = sorted.length
  take_prior : st.2.take st.1 = out
  get_prior : st.2[st.1]? = some prior
  lt_oldref : st.1 < oldref
  unread : st.2.drop oldref = sorted.drop oldref

theorem DedupSim.take_succ {sorted : List ObjectAddress} {k : Nat} {out : List ObjectAddress}
    {prior : ObjectAddress} {st : Nat × List ObjectAddress} (h : DedupSim sorted k out prior st) :
    st.2.take (st.1 + 1) = out ++ [prior] := by
  rw [List.take_succ, h.take_prior, h.get_prior]
  rfl

/-- **The compaction never overwrites a slot it has not read.** Run from a
state that agrees with the sorted array from `oldref` on, the loop leaves in
the slots up to `priorobj` what the loop on lists computes. -/
theorem foldl_dedupStep_sim (sorted : List ObjectAddress) :
    ∀ m k (st : Nat × List ObjectAddress) out prior, DedupSim sorted k out prior st →
      k + m ≤ sorted.length →
      ((List.range' k m).foldl dedupStep st).2.take
          (((List.range' k m).foldl dedupStep st).1 + 1) =
        dedupFold out prior ((sorted.drop k).take m) := by
  intro m
  induction m with
  | zero => intro k st out prior h _; simpa [dedupFold] using h.take_succ
  | succ m ih =>
    intro k st out prior h hk
    obtain ⟨p, refs⟩ := st
    have hkl : k < sorted.length := by omega
    have hlt : p < k := h.lt_oldref
    have hlen : refs.length = sorted.length := h.length_eq
    have hthis : refs.getD k default = sorted[k] := by
      have := congrArg (·[0]?) h.unread
      simp only [List.getElem?_drop, Nat.add_zero] at this
      simp [this, hkl]
    have hprior : refs.getD p default = prior := by simp [h.get_prior]
    have hdrop : refs.drop (k + 1) = sorted.drop (k + 1) := by
      rw [← List.drop_drop, h.unread, List.drop_drop]
    -- anything but a duplicate or a part after its whole object: copied to the
    -- slot after `priorobj`
    have hp1 : p + 1 < refs.length := by omega
    have hcopy := ih (k + 1) (p + 1, refs.set (p + 1) sorted[k]) (out ++ [prior]) sorted[k]
      ⟨by simpa using hlen, by rw [List.set_take, List.set_eq_of_length_le
        (List.length_take_le _ _)]; exact h.take_succ, by simp [hp1], Nat.succ_lt_succ hlt,
        by rw [List.drop_set_of_lt _ _ (Nat.succ_lt_succ hlt), hdrop]⟩ (by omega)
    rw [List.range'_succ, List.foldl_cons, List.drop_eq_getElem_cons hkl, List.take_succ_cons,
      dedupFold]
    simp only [dedupStep, hthis, hprior]
    by_cases hsame : prior.classId = sorted[k].classId ∧ prior.objectId = sorted[k].objectId
    · by_cases hsub : prior.objectSubId = sorted[k].objectSubId
      · -- identical: the slot is dropped
        simp only [if_pos hsame, if_pos hsub]
        exact ih (k + 1) _ _ _ ⟨h.length_eq, h.take_prior, h.get_prior, Nat.lt_succ_of_lt hlt,
          hdrop⟩ (by omega)
      · by_cases hzero : prior.objectSubId = 0
        · -- a whole object followed by one of its parts: merged into `priorobj`
          simp only [if_pos hsame, if_neg hsub, if_pos hzero]
          refine ih (k + 1) _ _ _ ⟨?_, ?_, ?_, ?_, ?_⟩ (by omega)
          · simpa using hlen
          · rw [List.set_take, List.set_eq_of_length_le (List.length_take_le _ _)]
            exact h.take_prior
          · simp [show p < refs.length by omega]
          · exact Nat.lt_succ_of_lt hlt
          · rw [List.drop_set_of_lt _ _ (Nat.lt_succ_of_lt hlt), hdrop]
        · simpa only [if_pos hsame, if_neg hsub, if_neg hzero] using hcopy
    · simpa only [if_neg hsame] using hcopy

/-! ## What the compaction keeps -/

section Order

variable {a b c : ObjectAddress}

theorem addrLe_refl (a : ObjectAddress) : AddrLe a a := (addrLe_iff a a).mpr (.inr rfl)

/-- Within one object, the order is that of the unsigned sub-object ids. -/
theorem AddrLe.subId_le (h : AddrLe a b) (hc : a.classId = b.classId)
    (ho : a.objectId = b.objectId) : a.objectSubId.toNat ≤ b.objectSubId.toNat := by
  rcases (addrLe_iff a b).mp h with h | rfl
  · unfold ObjectAddress.Before at h; dsimp only [Oid] at *; omega
  · exact Nat.le_refl _

/-- An address between two of one object belongs to that object. -/
theorem AddrLe.same_between (hab : AddrLe a b) (hbc : AddrLe b c) (hc : a.classId = c.classId)
    (ho : a.objectId = c.objectId) : a.classId = b.classId ∧ a.objectId = b.objectId := by
  rcases (addrLe_iff a b).mp hab with h | rfl
  · rcases (addrLe_iff b c).mp hbc with h' | rfl
    · unfold ObjectAddress.Before at h h'; dsimp only [Oid] at *; omega
    · unfold ObjectAddress.Before at h; dsimp only [Oid] at *; omega
  · exact ⟨rfl, rfl⟩

theorem AddrLe.before_of_ne (h : AddrLe a b) (hne : a ≠ b) : a.Before b :=
  ((addrLe_iff a b).mp h).resolve_right hne

/-- Setting the sub-object id of `a` to that of a part `b` of the same object
gives `b`. -/
theorem withSubId_eq (hc : a.classId = b.classId) (ho : a.objectId = b.objectId) :
    { a with objectSubId := b.objectSubId } = b := by
  obtain ⟨c, o, k⟩ := b
  simp only at hc ho
  rw [hc, ho]

theorem subId_eq_zero_iff (a : ObjectAddress) : a.objectSubId = 0 ↔ a.objectSubId.toNat = 0 :=
  BitVec.toNat_eq

end Order

/-- What the compaction keeps of `l`: every part, and every whole object no
part of which is in `l`. -/
def Kept (l : List ObjectAddress) (x : ObjectAddress) : Prop :=
  x ∈ l ∧ (x.objectSubId ≠ 0 ∨
    ∀ y ∈ l, y.classId = x.classId → y.objectId = x.objectId → y.objectSubId = 0)

theorem Kept.congr {l l' : List ObjectAddress} (h : ∀ z, z ∈ l ↔ z ∈ l') (x : ObjectAddress) :
    Kept l x ↔ Kept l' x := by
  simp only [Kept, h]

/-- The entry `prior` written out by the loop before `y`: its membership
changes nothing, when `prior` is kept and no kept whole object of `l` shares
its object with a `prior` that is a part. -/
theorem kept_push {prior : ObjectAddress} {l out : List ObjectAddress}
    (hp : Kept (prior :: l) prior)
    (hl : ∀ x ∈ l, x.objectSubId = 0 →
      (∀ z ∈ l, z.classId = x.classId → z.objectId = x.objectId → z.objectSubId = 0) →
      prior.classId = x.classId → prior.objectId = x.objectId → prior.objectSubId = 0)
    (x : ObjectAddress) :
    (x ∈ out ++ [prior] ∨ Kept l x) ↔ (x ∈ out ∨ Kept (prior :: l) x) := by
  simp only [List.mem_append, List.mem_singleton]
  constructor
  · rintro ((h | rfl) | ⟨hm, hk⟩)
    · exact .inl h
    · exact .inr hp
    · refine .inr ⟨.tail _ hm, hk.imp_right fun hall z hz hc ho => ?_⟩
      rcases List.mem_cons.mp hz with rfl | hz
      · by_cases hx : x.objectSubId = 0
        · exact hl x hm hx hall hc ho
        · exact absurd (hall x hm rfl rfl) hx
      · exact hall z hz hc ho
  · rintro (h | ⟨hm, hk⟩)
    · exact .inl (.inl h)
    · rcases List.mem_cons.mp hm with rfl | hm
      · exact .inl (.inr rfl)
      · exact .inr ⟨hm, hk.imp_right fun hall z hz => hall z (.tail _ hz)⟩

/-- **Membership.** On a sorted list, the loop keeps what it held before and
the kept entries of the list. -/
theorem mem_dedupFold :
    ∀ (ys out : List ObjectAddress) (prior x : ObjectAddress), (prior :: ys).Sorted AddrLe →
      (x ∈ dedupFold out prior ys ↔ x ∈ out ∨ Kept (prior :: ys) x)
  | [], out, p, x, _ => by
    have hp : Kept [p] p := ⟨List.mem_singleton_self p, by
      by_cases hp : p.objectSubId = 0
      · exact .inr fun y hy _ _ => List.mem_singleton.mp hy ▸ hp
      · exact .inl hp⟩
    have h := @kept_push p [] out hp nofun x
    rw [dedupFold]
    simpa only [Kept, List.not_mem_nil, false_and, or_false] using h
  | y :: ys, out, p, x, hs => by
    have hpz : ∀ z ∈ y :: ys, AddrLe p z := List.rel_of_sorted_cons hs
    have hys : (y :: ys).Sorted AddrLe := hs.of_cons
    have hyz : ∀ z ∈ y :: ys, AddrLe y z := fun z hz =>
      (List.mem_cons.mp hz).elim (· ▸ addrLe_refl y) (List.rel_of_sorted_cons hys z)
    rw [dedupFold]
    split_ifs with hsame hsub hzero
    · -- `y` is `p` again
      obtain rfl : p = y := by
        rw [← withSubId_eq hsame.1 hsame.2, ← hsub]
      rw [mem_dedupFold ys out p x (hs.sublist (List.Sublist.cons_cons _ (List.sublist_cons_self _ _)))]
      exact or_congr_right (Kept.congr (fun z => by simp) x)
    · -- the whole object `p` gives way to its part `y`
      rw [withSubId_eq hsame.1 hsame.2, mem_dedupFold ys out y x hys]
      refine or_congr_right ⟨fun ⟨hm, hk⟩ => ⟨.tail _ hm, hk.imp_right fun hall z hz hc ho => ?_⟩,
        fun ⟨hm, hk⟩ => ?_⟩
      · rcases List.mem_cons.mp hz with rfl | hz
        · exact hzero
        · exact hall z hz hc ho
      · rcases List.mem_cons.mp hm with rfl | hm
        · rcases hk with hk | hall
          · exact absurd hzero hk
          · exact absurd ((hall y (.tail _ (List.mem_cons_self _ _)) hsame.1.symm
              hsame.2.symm).trans hzero.symm) (Ne.symm hsub)
        · exact ⟨hm, hk.imp_right fun hall z hz => hall z (.tail _ hz)⟩
    · -- a second part of the object of `p`: `p` is written out
      rw [mem_dedupFold ys _ y x hys]
      refine kept_push ⟨List.mem_cons_self _ _, .inl hzero⟩ (fun x hx hx0 hall hc ho => ?_) x
      have hy0 := hall y (List.mem_cons_self _ _) (hc ▸ hsame.1.symm) (ho ▸ hsame.2.symm)
      have := (hpz y (List.mem_cons_self _ _)).subId_le hsame.1 hsame.2
      rw [subId_eq_zero_iff] at hy0 ⊢
      omega
    · -- another object: `p` is written out
      rw [mem_dedupFold ys _ y x hys]
      have hother : ∀ z ∈ y :: ys, ¬ (p.classId = z.classId ∧ p.objectId = z.objectId) :=
        fun z hz ⟨hc, ho⟩ => hsame ((hpz y (List.mem_cons_self _ _)).same_between (hyz z hz) hc ho)
      refine kept_push ⟨List.mem_cons_self _ _, ?_⟩
        (fun x hx _ _ hc ho => absurd ⟨hc, ho⟩ (hother x hx)) x
      by_cases hp : p.objectSubId = 0
      · refine .inr fun z hz hc ho => ?_
        rcases List.mem_cons.mp hz with rfl | hz
        · exact hp
        · exact absurd ⟨hc.symm, ho.symm⟩ (hother z hz)
      · exact .inl hp

/-- **Order.** On a sorted list, the loop writes a strictly increasing array. -/
theorem pairwise_dedupFold :
    ∀ (ys out : List ObjectAddress) (prior : ObjectAddress), (prior :: ys).Sorted AddrLe →
      (out ++ [prior]).Pairwise ObjectAddress.Before →
      (dedupFold out prior ys).Pairwise ObjectAddress.Before
  | [], _, _, _, h => h
  | y :: ys, out, p, hs, h => by
    have hpy : AddrLe p y := List.rel_of_sorted_cons hs y (List.mem_cons_self _ _)
    have hys : (y :: ys).Sorted AddrLe := hs.of_cons
    -- `p` before `y` lets the loop put `y` after `p`, or in place of `p`
    have hext : p.Before y → (out ++ [p] ++ [y]).Pairwise ObjectAddress.Before ∧
        (out ++ [y]).Pairwise ObjectAddress.Before := fun hb => by
      simp only [List.pairwise_append, List.pairwise_singleton, List.mem_singleton,
        List.mem_append, forall_eq, true_and] at h ⊢
      exact ⟨⟨h, fun o ho => by rcases ho with ho | rfl; exacts [(h.2 o ho).trans hb, hb]⟩,
        h.1, fun o ho => (h.2 o ho).trans hb⟩
    rw [dedupFold]
    split_ifs with hsame hsub hzero
    · obtain rfl : p = y := by rw [← withSubId_eq hsame.1 hsame.2, ← hsub]
      exact pairwise_dedupFold ys out p (hs.sublist (List.Sublist.cons_cons _ (List.sublist_cons_self _ _))) h
    · rw [withSubId_eq hsame.1 hsame.2]
      exact pairwise_dedupFold ys out y hys
        (hext (hpy.before_of_ne fun he => hsub (congrArg _ he))).2
    · exact pairwise_dedupFold ys _ y hys
        (hext (hpy.before_of_ne fun he => hsub (congrArg _ he))).1
    · exact pairwise_dedupFold ys _ y hys
        (hext (hpy.before_of_ne fun he => hsame ⟨congrArg _ he, congrArg _ he⟩)).1

instance : IsIrrefl ObjectAddress ObjectAddress.Before :=
  ⟨fun a h => by unfold ObjectAddress.Before at h; dsimp only [Oid] at *; omega⟩

instance : IsAntisymm ObjectAddress ObjectAddress.Before :=
  ⟨fun a _ h h' => absurd (h.trans h') (irrefl a)⟩

/-- The loop on lists over a whole sorted list. -/
def dedupList : List ObjectAddress → List ObjectAddress
  | [] => []
  | p :: ys => dedupFold [] p ys

/-- The array `eliminate_duplicate_dependencies` leaves is the loop on lists
over the sorted entries. -/
theorem items_eliminateDuplicateDependencies (addrs : ObjectAddresses) :
    (eliminateDuplicateDependencies addrs).items =
      dedupList (addrs.items.insertionSort AddrLe) := by
  unfold eliminateDuplicateDependencies
  split
  · next h =>
    have hlen := addrs.length_items
    match hi : addrs.items, hlen with
    | [], _ => rfl
    | [a], _ => rfl
    | _ :: _ :: _, hlen => simp only [List.length_cons] at hlen; omega
  · next h =>
    have hn : addrs.items.length = addrs.numrefs := addrs.length_items
    obtain ⟨a, rest, hL⟩ : ∃ a rest, addrs.items.insertionSort AddrLe = a :: rest := by
      cases hc : addrs.items.insertionSort AddrLe with
      | nil =>
        have := (List.perm_insertionSort AddrLe addrs.items).length_eq
        rw [hc] at this; simp at this; omega
      | cons a rest => exact ⟨a, rest, rfl⟩
    have hrest : rest.length = addrs.numrefs - 1 := by
      have := (List.perm_insertionSort AddrLe addrs.items).length_eq
      rw [hL] at this; simp only [List.length_cons] at this; omega
    have hsorted : qsort addrs.refs addrs.numrefs = a :: (rest ++ addrs.refs.drop addrs.numrefs) := by
      rw [qsort, ← ObjectAddresses.items, hL, List.cons_append]
    have hlen : (qsort addrs.refs addrs.numrefs).length = addrs.maxrefs := by
      rw [length_qsort, addrs.refs_length]
    have hsim : DedupSim (qsort addrs.refs addrs.numrefs) 1 [] a
        (0, qsort addrs.refs addrs.numrefs) :=
      ⟨rfl, rfl, by rw [hsorted]; simp, Nat.one_pos, rfl⟩
    simp only [ObjectAddresses.items, dedupLoop]
    rw [foldl_dedupStep_sim _ (addrs.numrefs - 1) 1 _ [] a hsim
      (by have := addrs.numrefs_le; omega), ← ObjectAddresses.items, hL, hsorted]
    simp [dedupList, ← hrest]

/-- **The entries left.** Whatever their order and repetitions, the array
keeps exactly the parts it held and the whole objects none of whose parts it
held. -/
theorem mem_eliminateDuplicateDependencies (addrs : ObjectAddresses) (x : ObjectAddress) :
    x ∈ (eliminateDuplicateDependencies addrs).items ↔ Kept addrs.items x := by
  have hperm := List.perm_insertionSort AddrLe addrs.items
  rw [items_eliminateDuplicateDependencies, ← Kept.congr (fun z => hperm.mem_iff) x]
  cases hL : addrs.items.insertionSort AddrLe with
  | nil => simp [dedupList, Kept]
  | cons a rest =>
    rw [dedupList, mem_dedupFold rest [] a x (hL ▸ List.sorted_insertionSort AddrLe addrs.items)]
    simp

/-- **No reference is lost.** Every entry of the array covers one the
compaction keeps: itself, or, for a whole object dropped in favour of one of
its parts, that part. -/
theorem eliminateDuplicateDependencies_covers (addrs : ObjectAddresses) {r : ObjectAddress}
    (hr : r ∈ addrs.items) : ∃ a ∈ (eliminateDuplicateDependencies addrs).items, r.covers a := by
  simp only [mem_eliminateDuplicateDependencies, Kept]
  by_cases hkept : r.objectSubId ≠ 0 ∨
      ∀ y ∈ addrs.items, y.classId = r.classId → y.objectId = r.objectId → y.objectSubId = 0
  · exact ⟨r, ⟨hr, hkept⟩, ObjectAddress.covers_refl r⟩
  -- a whole object with a part in the array: the part is kept
  push_neg at hkept
  obtain ⟨hwhole, y, hy, hc, ho, hsub⟩ := hkept
  exact ⟨y, ⟨hy, .inl hsub⟩, hc.symm, ho.symm, .inl hwhole⟩

/-- **The order.** The array left is strictly increasing. -/
theorem pairwise_eliminateDuplicateDependencies (addrs : ObjectAddresses) :
    (eliminateDuplicateDependencies addrs).items.Pairwise ObjectAddress.Before := by
  rw [items_eliminateDuplicateDependencies]
  cases hL : addrs.items.insertionSort AddrLe with
  | nil => exact List.Pairwise.nil
  | cons a rest =>
    exact pairwise_dedupFold rest [] a (hL ▸ List.sorted_insertionSort AddrLe addrs.items)
      (List.pairwise_singleton _ a)

/-- **Deduplication.** For every array, `eliminate_duplicate_dependencies` leaves
an array strictly increasing under `object_address_comparator`, whose entries
are the parts in the array and the whole objects none of whose parts is in it.
The result depends only on the set of entries, and two of its entries share an
object only when both are parts. -/
theorem eliminateDuplicateDependencies_spec (addrs : ObjectAddresses) :
    (eliminateDuplicateDependencies addrs).items.Pairwise
        (fun a b => objectAddressComparator a b < 0) ∧
      (∀ x, x ∈ (eliminateDuplicateDependencies addrs).items ↔ x ∈ addrs.items ∧
        (x.objectSubId ≠ 0 ∨ ∀ y ∈ addrs.items, y.classId = x.classId →
          y.objectId = x.objectId → y.objectSubId = 0)) ∧
      (∀ addrs' : ObjectAddresses, (∀ x, x ∈ addrs'.items ↔ x ∈ addrs.items) →
        (eliminateDuplicateDependencies addrs').items =
          (eliminateDuplicateDependencies addrs).items) ∧
      ∀ x ∈ (eliminateDuplicateDependencies addrs).items,
        ∀ y ∈ (eliminateDuplicateDependencies addrs).items, x ≠ y →
          x.classId = y.classId → x.objectId = y.objectId →
            x.objectSubId ≠ 0 ∧ y.objectSubId ≠ 0 := by
  have hmem := mem_eliminateDuplicateDependencies addrs
  refine ⟨(pairwise_eliminateDuplicateDependencies addrs).imp (comparator_neg_iff _ _).mpr,
    hmem, fun addrs' hsame => ?_, fun x hx y hy hne hc ho => ?_⟩
  · -- two strictly increasing arrays with the same entries are equal
    have hm : ∀ x, x ∈ (eliminateDuplicateDependencies addrs').items ↔
        x ∈ (eliminateDuplicateDependencies addrs).items := fun x => by
      rw [mem_eliminateDuplicateDependencies, hmem, Kept.congr hsame]
    have h := pairwise_eliminateDuplicateDependencies addrs'
    have h' := pairwise_eliminateDuplicateDependencies addrs
    exact List.eq_of_perm_of_sorted ((List.perm_ext_iff_of_nodup h.nodup h'.nodup).mpr hm) h h'
  · -- a whole object is kept only when no part of it is in the array
    obtain ⟨hxm, hx⟩ := (hmem x).mp hx
    obtain ⟨hym, hy⟩ := (hmem y).mp hy
    have hsub : x.objectSubId = 0 → y.objectSubId = 0 → False := fun hx0 hy0 =>
      hne (ObjectAddress.eq_of_toNat hc ho (by rw [hx0, hy0]))
    refine ⟨fun hx0 => hsub hx0 ?_, fun hy0 => hsub ?_ hy0⟩
    · exact hx.resolve_left (not_not.mpr hx0) y hym hc.symm ho.symm
    · exact hy.resolve_left (not_not.mpr hy0) x hxm hc ho

end CatalogDependency
