import CatalogDependency.Walker
import CatalogDependency.Dedup
import CatalogDependency.PgDepend

/-!
`recordDependencyOnExpr` and `recordDependencyOnSingleRelExpr`: scan an
expression, remove duplicate references, and record one `pg_depend` entry per
reference.

`recordDependencyOnSingleRelExpr` records references to its relation with
`self_behavior` and the others with `behavior`. When the two kinds differ it
moves the self-references into a second array with a loop that compacts
`context.addrs` in place. That loop never overwrites a slot it has not read
yet (`separateStep_sim`). The entries recorded are, up to order, one per
deduplicated reference with the kind its relation decides, whichever branch
runs (`recordDependencyOnSingleRelExpr_spec`).

`recordMultipleDependencies` is in `pg_depend.c`, outside this file, and is
modelled from the spec's `insert_many`.
-/

namespace CatalogDependency

/-- Modelled from the spec: `recordMultipleDependencies` (`pg_depend.c`) is not
in this file. As the spec's `insert_many(dependent, refs[], kind)`, it writes
"`depender` depends on `r`" of type `behavior` for each of the first
`nreferenced` references `r`, in order; the result is the list of entries
written. -/
def recordMultipleDependencies (depender : ObjectAddress) (referenced : List ObjectAddress)
    (nreferenced : Nat) (behavior : DependencyType) : List FormDataPgDepend :=
  (referenced.take nreferenced).map fun r => FormDataPgDepend.ofAddresses depender r behavior.toChar

/-- `recordDependencyOnExpr`: scan with `rtable` for the `Var`s of level 0,
remove duplicates, record every reference with `behavior`. -/
def recordDependencyOnExpr (env : ExprEnv) (fuel : Nat) (depender : ObjectAddress) (expr : Node)
    (rtable : List RangeTblEntry) (behavior : DependencyType) :
    Except WalkError (List FormDataPgDepend) :=
  match findExprReferencesWalker env fuel expr ⟨newObjectAddresses, [rtable]⟩ with
  | .error e _ => .error e
  | .ok _ context =>
    let addrs := eliminateDuplicateDependencies context.addrs
    .ok (recordMultipleDependencies depender addrs.refs addrs.numrefs behavior)

/-! ## Separating the self-dependencies -/

section Separate

variable (env : ExprEnv) (relId : Oid)

/-- The reference names the relation `relId` itself or one of its columns:
its class is `RelationRelationId`, the first entry of `object_classes`. -/
def IsSelfReference (a : ObjectAddress) : Prop :=
  a.classId = env.objectClasses .oclassClass ∧ a.objectId = relId

instance (a : ObjectAddress) : Decidable (IsSelfReference env relId a) :=
  inferInstanceAs (Decidable (_ ∧ _))

/-- One iteration of the loop on `(outrefs, refs, self_addrs)`: slot `oldref`
moves to `self_addrs` when it is a self-reference, and is otherwise copied
down to slot `outrefs`. -/
def separateStep : Nat × List ObjectAddress × ObjectAddresses → Nat →
    Nat × List ObjectAddress × ObjectAddresses
  | (outrefs, refs, selfAddrs), oldref =>
    let thisobj := refs.getD oldref default
    if thisobj.classId = env.objectClasses .oclassClass ∧ thisobj.objectId = relId then
      (outrefs, refs, addObjectAddress env.objectClasses .oclassClass relId thisobj.objectSubId
        selfAddrs)
    else (outrefs + 1, refs.set outrefs thisobj, selfAddrs)

/-- The loop over the used slots of `context.addrs`. -/
def separateSelfDependencies (addrs : ObjectAddresses) :
    Nat × List ObjectAddress × ObjectAddresses :=
  (List.range addrs.numrefs).foldl (separateStep env relId) (0, addrs.refs, newObjectAddresses)

/-- The partitioning branch: record the self-references with `selfBehavior`,
then what is left in `context.addrs` with `behavior`. -/
def recordSeparated (depender : ObjectAddress) (addrs : ObjectAddresses)
    (behavior selfBehavior : DependencyType) : List FormDataPgDepend :=
  match separateSelfDependencies env relId addrs with
  | (outrefs, refs, selfAddrs) =>
    recordMultipleDependencies depender selfAddrs.refs selfAddrs.numrefs selfBehavior ++
      recordMultipleDependencies depender refs outrefs behavior

/-- The loop state after reading the first `k` slots of `slots`: the copied
prefix holds the other references read so far, the slots from `k` on are
untouched, and `self_addrs` holds the self-references read so far. -/
structure SeparateSim (slots : List ObjectAddress) (k : Nat)
    (st : Nat × List ObjectAddress × ObjectAddresses) : Prop where
  length_eq : st.2.1.length = slots.length
  outrefs_le : st.1 ≤ k
  copied : st.2.1.take st.1 = (slots.take k).filter fun a => ¬ IsSelfReference env relId a
  unread : st.2.1.drop k = slots.drop k
  moved : st.2.2.items = (slots.take k).filter fun a => IsSelfReference env relId a

theorem separateStep_sim {slots : List ObjectAddress} {k : Nat}
    {st : Nat × List ObjectAddress × ObjectAddresses} (h : SeparateSim env relId slots k st)
    (hk : k < slots.length) : SeparateSim env relId slots (k + 1) (separateStep env relId st k) := by
  obtain ⟨outrefs, refs, selfAddrs⟩ := st
  obtain ⟨hlen, hle, hcopied, hunread, hmoved⟩ := h
  simp only at hlen hle hcopied hunread hmoved
  have hread : refs.getD k default = slots[k] := by
    have h := congrArg (·[0]?) hunread
    simp only [List.getElem?_drop, Nat.add_zero] at h
    rw [List.getD_eq_getElem?_getD, h, List.getElem?_eq_getElem hk]
    rfl
  have htake : slots.take (k + 1) = slots.take k ++ [slots[k]] := by
    rw [List.take_succ, List.getElem?_eq_getElem hk]; rfl
  have hdrop : ∀ l : List ObjectAddress, l.drop (k + 1) = (l.drop k).drop 1 := fun l => by
    rw [List.drop_drop, Nat.add_comm]
  simp only [separateStep, hread]
  by_cases hself : slots[k].classId = env.objectClasses .oclassClass ∧ slots[k].objectId = relId
  · rw [if_pos hself]
    have hs : IsSelfReference env relId slots[k] := hself
    have hobj : (⟨env.objectClasses .oclassClass, relId, slots[k].objectSubId⟩ : ObjectAddress) =
        slots[k] := by rw [← hself.1, ← hself.2]
    refine ⟨hlen, by omega, ?_, by rw [hdrop, hunread, ← hdrop], ?_⟩
    · simp only [htake, List.filter_append, hcopied]
      simp [hs]
    · simp only [addObjectAddress, ObjectAddresses.items_push, hmoved, htake, List.filter_append]
      simp [hs, hobj]
  · rw [if_neg hself]
    have hs : ¬ IsSelfReference env relId slots[k] := hself
    have hout : outrefs < refs.length := by omega
    refine ⟨by simp [hlen], by omega, ?_, ?_, ?_⟩
    · simp only
      rw [List.take_succ, List.getElem?_set_self hout, List.set_take,
        List.set_eq_of_length_le (List.length_take_le _ _), hcopied, htake, List.filter_append]
      simp [hs]
    · simp only
      rw [List.drop_set_of_lt _ _ (by omega), hdrop, hunread, ← hdrop]
    · simp only [hmoved, htake, List.filter_append]
      simp [hs]

theorem foldl_separateStep_sim (slots : List ObjectAddress) :
    ∀ k, k ≤ slots.length →
      SeparateSim env relId slots k
        ((List.range k).foldl (separateStep env relId) (0, slots, newObjectAddresses))
  | 0, _ => ⟨rfl, le_refl 0, rfl, rfl, rfl⟩
  | k + 1, hk => by
    rw [List.range_succ, List.foldl_append, List.foldl_cons, List.foldl_nil]
    exact separateStep_sim env relId (foldl_separateStep_sim slots k (by omega)) (by omega)

/-- The partitioning branch records every used slot once, references to
`relId` with `selfBehavior` and the others with `behavior`. -/
theorem recordSeparated_perm (depender : ObjectAddress) (addrs : ObjectAddresses)
    (behavior selfBehavior : DependencyType) :
    (recordSeparated env relId depender addrs behavior selfBehavior).Perm
      (addrs.items.map fun a => FormDataPgDepend.ofAddresses depender a
        (if a.classId = env.objectClasses .oclassClass ∧ a.objectId = relId then selfBehavior
          else behavior).toChar) := by
  have hsim := foldl_separateStep_sim env relId addrs.refs addrs.numrefs
    (by rw [addrs.refs_length]; exact addrs.numrefs_le)
  unfold recordSeparated separateSelfDependencies
  generalize (List.range addrs.numrefs).foldl (separateStep env relId)
    (0, addrs.refs, newObjectAddresses) = st at hsim
  obtain ⟨outrefs, refs, selfAddrs⟩ := st
  have hself : selfAddrs.refs.take selfAddrs.numrefs = addrs.items.filter
      fun a => IsSelfReference env relId a := hsim.moved
  have hother : refs.take outrefs = addrs.items.filter
      fun a => !decide (IsSelfReference env relId a) := by
    rw [hsim.copied]; simp only [decide_not]; rfl
  simp only [recordMultipleDependencies, hself, hother]
  refine List.Perm.trans (List.Perm.of_eq ?_) ((List.filter_append_perm
    (fun a => decide (IsSelfReference env relId a)) addrs.items).map _)
  rw [List.map_append]
  congr 1 <;> refine List.map_congr_left fun a ha => ?_
  · have : IsSelfReference env relId a := by simpa using (List.mem_filter.mp ha).2
    simp only [IsSelfReference] at this
    simp [this]
  · have : ¬ IsSelfReference env relId a := by simpa using (List.mem_filter.mp ha).2
    simp only [IsSelfReference] at this
    simp [this]

end Separate

/-- `recordDependencyOnSingleRelExpr`: scan with a range table holding one
plain relation entry for `relId`, remove duplicates, and record references to
`relId` with `selfBehavior`, the others with `behavior`. -/
def recordDependencyOnSingleRelExpr (env : ExprEnv) (fuel : Nat) (depender : ObjectAddress)
    (expr : Node) (relId : Oid) (behavior selfBehavior : DependencyType) :
    Except WalkError (List FormDataPgDepend) :=
  match findExprReferencesWalker env fuel expr ⟨newObjectAddresses, [[.relation relId]]⟩ with
  | .error e _ => .error e
  | .ok _ context =>
    let addrs := eliminateDuplicateDependencies context.addrs
    if behavior ≠ selfBehavior ∧ addrs.numrefs > 0 then
      .ok (recordSeparated env relId depender addrs behavior selfBehavior)
    else .ok (recordMultipleDependencies depender addrs.refs addrs.numrefs behavior)

/-- **What `recordDependencyOnSingleRelExpr` records.** For every expression,
relation and pair of kinds, the call raises when the scan raises. Otherwise
the entries it writes are, up to order, one for each reference that
`eliminate_duplicate_dependencies` leaves: of kind `selfBehavior` for the
relation `relId` and its columns, and `behavior` for the rest. When the two
kinds agree, the partitioning branch writes the same entries as the shortcut,
up to order. After `k` iterations, the partitioning loop has written only
below slot `k`, so the slots it has still to read are untouched. -/
theorem recordDependencyOnSingleRelExpr_spec (env : ExprEnv) (fuel : Nat)
    (depender : ObjectAddress) (expr : Node) (relId : Oid)
    (behavior selfBehavior : DependencyType) :
    (match findExprReferencesWalker env fuel expr ⟨newObjectAddresses, [[.relation relId]]⟩ with
      | .error e _ =>
        recordDependencyOnSingleRelExpr env fuel depender expr relId behavior selfBehavior = .error e
      | .ok _ context => ∃ entries,
        recordDependencyOnSingleRelExpr env fuel depender expr relId behavior selfBehavior =
          .ok entries ∧
        entries.Perm ((eliminateDuplicateDependencies context.addrs).items.map fun a =>
          FormDataPgDepend.ofAddresses depender a
            (if a.classId = env.objectClasses .oclassClass ∧ a.objectId = relId then selfBehavior
              else behavior).toChar)) ∧
      (∀ addrs : ObjectAddresses, (recordSeparated env relId depender addrs behavior behavior).Perm
        (recordMultipleDependencies depender addrs.refs addrs.numrefs behavior)) ∧
      ∀ addrs : ObjectAddresses, ∀ k ≤ addrs.numrefs,
        ((List.range k).foldl (separateStep env relId) (0, addrs.refs, newObjectAddresses)).1 ≤ k ∧
        ((List.range k).foldl (separateStep env relId)
          (0, addrs.refs, newObjectAddresses)).2.1.drop k = addrs.refs.drop k := by
  refine ⟨?_, fun addrs => ?_, fun addrs k hk => ?_⟩
  · unfold recordDependencyOnSingleRelExpr
    cases findExprReferencesWalker env fuel expr ⟨newObjectAddresses, [[.relation relId]]⟩ with
    | error e _ => rfl
    | ok _ context =>
      simp only
      split_ifs with h
      · exact ⟨_, rfl, recordSeparated_perm env relId _ _ _ _⟩
      · refine ⟨_, rfl, List.Perm.of_eq (List.map_congr_left fun a ha => ?_)⟩
        -- the shortcut runs when the kinds agree or nothing is left
        rcases not_and_or.mp h with h | h
        · rw [not_not.mp h, ite_self]
        · have hnil : (eliminateDuplicateDependencies context.addrs).items = [] :=
            List.length_eq_zero.mp (by rw [ObjectAddresses.length_items]; omega)
          exact absurd (hnil ▸ ha) (List.not_mem_nil a)
  · simpa only [ite_self] using recordSeparated_perm env relId depender addrs behavior behavior
  · have hsim := foldl_separateStep_sim env relId addrs.refs k
      (by have := addrs.numrefs_le; rw [addrs.refs_length]; omega)
    exact ⟨hsim.outrefs_le, hsim.unread⟩

/-- **What `recordDependencyOnExpr` records.** For every expression, range
table, behavior and fuel: when the reference function `exprRefs` raises, the
call raises the same error; otherwise it records, from `depender` and of type
`behavior`, one entry for each address `eliminate_duplicate_dependencies` keeps
of the references `exprRefs` lists (every part, and every whole object none of
whose parts is listed), in strictly increasing order. -/
theorem recordDependencyOnExpr_records_refs (env : ExprEnv) (fuel : Nat)
    (depender : ObjectAddress) (expr : Node) (rtable : List RangeTblEntry)
    (behavior : DependencyType) :
    match exprRefs env fuel expr [rtable] with
    | .error e => recordDependencyOnExpr env fuel depender expr rtable behavior = .error e
    | .ok refs => ∃ addrs : List ObjectAddress,
        recordDependencyOnExpr env fuel depender expr rtable behavior =
          .ok (addrs.map fun a => FormDataPgDepend.ofAddresses depender a behavior.toChar) ∧
        addrs.Pairwise (fun a b => objectAddressComparator a b < 0) ∧
        ∀ x, x ∈ addrs ↔ x ∈ refs ∧ (x.objectSubId ≠ 0 ∨
          ∀ y ∈ refs, y.classId = x.classId → y.objectId = x.objectId → y.objectSubId = 0) := by
  have h := walker_matches env fuel expr [rtable]
  cases hr : exprRefs env fuel expr [rtable] with
  | error e =>
    rw [hr] at h
    obtain ⟨c, hc⟩ := h newObjectAddresses
    simp only [recordDependencyOnExpr, hc]
  | ok refs =>
    rw [hr] at h
    have hitems : (newObjectAddresses.pushAll refs).items = refs := by simp
    refine ⟨(eliminateDuplicateDependencies (newObjectAddresses.pushAll refs)).items, ?_,
      (pairwise_eliminateDuplicateDependencies _).imp (comparator_neg_iff _ _).mpr, fun x => ?_⟩
    · simp only [recordDependencyOnExpr, h newObjectAddresses]
      rfl
    · rw [mem_eliminateDuplicateDependencies, hitems]
      rfl

end CatalogDependency
