import Mathlib.Algebra.Group.Nat.Basic
import CatalogDependency.Dedup

/-!
Runs of the operations on one `ObjectAddresses` array: `new_object_addresses`,
`add_object_address`, `add_exact_object_address` and
`eliminate_duplicate_dependencies`.

The bound `numrefs ≤ maxrefs` is part of the array's type. Along a run the
capacity stays 32 doubled some number of times (`capacityInv_runAddressOps`),
every store of an operation lands in an allocated slot (`storesInBounds`), and
between compactions the slots in use hold the addresses recorded, in order
(`items_foldl_of_isAdd`).
-/

namespace CatalogDependency

/-- An operation on an `ObjectAddresses` array. -/
inductive AddressOp where
  /-- `new_object_addresses()`, which starts a fresh array. -/
  | new
  /-- `add_object_address(oclass, objectId, subId, addrs)`. -/
  | add (oclass : ObjectClass) (objectId : Oid) (subId : BitVec 32)
  /-- `add_exact_object_address(object, addrs)`. -/
  | addExact (object : ObjectAddress)
  /-- `eliminate_duplicate_dependencies(addrs)`. -/
  | dedup

namespace AddressOp

/-- The array after the operation. -/
def apply (objectClasses : ObjectClass → Oid) (addrs : ObjectAddresses) :
    AddressOp → ObjectAddresses
  | new => newObjectAddresses
  | add oclass objectId subId => addObjectAddress objectClasses oclass objectId subId addrs
  | addExact object => addExactObjectAddress object addrs
  | dedup => eliminateDuplicateDependencies addrs

/-- The address the operation records, its class translated through
`object_classes`. -/
def recorded (objectClasses : ObjectClass → Oid) : AddressOp → Option ObjectAddress
  | add oclass objectId subId => some ⟨objectClasses oclass, objectId, subId⟩
  | addExact object => some object
  | new | dedup => none

/-- The operation records an address. -/
def isAdd : AddressOp → Bool
  | add .. | addExact _ => true
  | new | dedup => false

end AddressOp

/-- The array after the operations `ops`, from the one `new_object_addresses`
returns. -/
def runAddressOps (objectClasses : ObjectClass → Oid) (ops : List AddressOp) : ObjectAddresses :=
  ops.foldl (AddressOp.apply objectClasses) newObjectAddresses

variable (objectClasses : ObjectClass → Oid)

/-! ## The capacity -/

/-- The capacity is 32 doubled some number of times. -/
def CapacityInv (addrs : ObjectAddresses) : Prop :=
  ∃ j, addrs.maxrefs = 32 * 2 ^ j

theorem ObjectAddresses.maxrefs_enlarge (addrs : ObjectAddresses) :
    addrs.enlarge.maxrefs = addrs.maxrefs ∨ addrs.enlarge.maxrefs = addrs.maxrefs * 2 := by
  unfold ObjectAddresses.enlarge
  split
  · exact .inr rfl
  · exact .inl rfl

theorem maxrefs_eliminateDuplicateDependencies (addrs : ObjectAddresses) :
    (eliminateDuplicateDependencies addrs).maxrefs = addrs.maxrefs := by
  unfold eliminateDuplicateDependencies
  split <;> rfl

/-- **Step.** Every operation keeps the capacity a doubling of 32. -/
theorem CapacityInv.apply {addrs : ObjectAddresses} (h : CapacityInv addrs) (op : AddressOp) :
    CapacityInv (op.apply objectClasses addrs) := by
  obtain ⟨j, hj⟩ := h
  have hpush : ∀ item, CapacityInv (addrs.push item) := fun _ => by
    rcases addrs.maxrefs_enlarge with he | he
    · exact ⟨j, he.trans hj⟩
    · exact ⟨j + 1, he.trans (by rw [hj, Nat.pow_succ, Nat.mul_assoc])⟩
  cases op with
  | new => exact ⟨0, rfl⟩
  | add => exact hpush _
  | addExact => exact hpush _
  | dedup => exact ⟨j, (maxrefs_eliminateDuplicateDependencies addrs).trans hj⟩

/-- **Run.** -/
theorem capacityInv_foldl :
    ∀ (ops : List AddressOp) (addrs : ObjectAddresses),
      CapacityInv addrs → CapacityInv (ops.foldl (AddressOp.apply objectClasses) addrs)
  | [], _, h => h
  | op :: ops, _, h => capacityInv_foldl ops _ (h.apply objectClasses op)

theorem capacityInv_runAddressOps (ops : List AddressOp) :
    CapacityInv (runAddressOps objectClasses ops) :=
  capacityInv_foldl objectClasses ops _ ⟨0, rfl⟩

/-! ## Where the operations store -/

/-- `qsort` of the first `n` slots leaves the others as they were. -/
theorem qsort_getElem?_of_le (refs : List ObjectAddress) {n : Nat} (hn : n ≤ refs.length)
    {j : Nat} (hj : n ≤ j) : (qsort refs n)[j]? = refs[j]? := by
  have hlen : ((refs.take n).insertionSort AddrLe).length = n := by
    rw [(List.perm_insertionSort _ _).length_eq, List.length_take, Nat.min_eq_left hn]
  rw [qsort, List.getElem?_append_right (by omega), hlen, List.getElem?_drop, Nat.add_sub_cancel' hj]

/-- One iteration of the compaction changes at most the slot of its new
`priorobj`. -/
theorem dedupStep_getElem?_of_ne (st : Nat × List ObjectAddress) (oldref : Nat) {j : Nat}
    (hj : j ≠ (dedupStep st oldref).1) : (dedupStep st oldref).2[j]? = st.2[j]? := by
  obtain ⟨prior, refs⟩ := st
  simp only [dedupStep] at hj ⊢
  split_ifs at hj ⊢ <;> first | rfl | exact List.getElem?_set_ne (Ne.symm hj)

/-- The stores of an operation, as the code computes their slots, land in the
array: `add_object_address` and `add_exact_object_address` store at `numrefs`
after enlarging, below the new `maxrefs`; `eliminate_duplicate_dependencies`,
given two entries or more, sorts the slots in use, and each iteration of its
loop changes at most the slot of its new `priorobj`, a slot in use. -/
def StoresInBounds (addrs : ObjectAddresses) : AddressOp → Prop
  | .new => True
  | .add .. | .addExact _ => addrs.enlarge.numrefs < addrs.enlarge.maxrefs
  | .dedup => 1 < addrs.numrefs →
      (∀ j, addrs.numrefs ≤ j → (qsort addrs.refs addrs.numrefs)[j]? = addrs.refs[j]?) ∧
      ∀ oldref, 1 ≤ oldref → oldref < addrs.numrefs →
        let st := (List.range' 1 (oldref - 1)).foldl dedupStep (0, qsort addrs.refs addrs.numrefs)
        (dedupStep st oldref).1 < addrs.numrefs ∧
          ∀ j, j ≠ (dedupStep st oldref).1 → (dedupStep st oldref).2[j]? = st.2[j]?

/-- Every operation, on every array, stores only into allocated slots. -/
theorem storesInBounds (addrs : ObjectAddresses) : ∀ op, StoresInBounds addrs op
  | .new => trivial
  | .add .. | .addExact _ => addrs.numrefs_lt_enlarge
  | .dedup => fun _ => by
    refine ⟨fun j hj => qsort_getElem?_of_le _ (by rw [addrs.refs_length]; exact addrs.numrefs_le) hj,
      fun oldref h1 hlt => ⟨?_, fun j hj => dedupStep_getElem?_of_ne _ _ hj⟩⟩
    -- `priorobj` stays below `oldref` before the iteration, and moves by at most one
    have hprior := (length_foldl_dedupStep (List.range' 1 (oldref - 1))
      (0, qsort addrs.refs addrs.numrefs)).2
    have hstep := (length_foldl_dedupStep [oldref]
      ((List.range' 1 (oldref - 1)).foldl dedupStep (0, qsort addrs.refs addrs.numrefs))).2
    simp only [List.length_range', List.foldl_cons, List.foldl_nil, List.length_singleton] at hprior hstep
    omega

/-! ## The entries in use -/

theorem items_apply_of_isAdd {op : AddressOp} (hop : op.isAdd = true) (addrs : ObjectAddresses) :
    (op.apply objectClasses addrs).items = addrs.items ++ (op.recorded objectClasses).toList := by
  cases op with
  | add => exact addrs.items_push _
  | addExact => exact addrs.items_push _
  | new | dedup => cases hop

/-- **Insertion order.** Operations that record addresses append them, in
order, to the entries in use. -/
theorem items_foldl_of_isAdd :
    ∀ (more : List AddressOp) (addrs : ObjectAddresses), (∀ op ∈ more, op.isAdd = true) →
      (more.foldl (AddressOp.apply objectClasses) addrs).items =
        addrs.items ++ more.filterMap (AddressOp.recorded objectClasses)
  | [], _, _ => by simp
  | op :: more, addrs, h => by
    rw [List.foldl_cons, items_foldl_of_isAdd more _ fun o ho => h o (.tail _ ho),
      items_apply_of_isAdd objectClasses (h op (.head _)), List.filterMap_cons]
    cases op.recorded objectClasses <;> simp

/-- **The array along a run.** After any operations: `numrefs ≤ maxrefs`, the
capacity is 32 doubled `j` times, the next operation stores only into
allocated slots, and operations that record addresses, up to the next
compaction or reset, append exactly those addresses in order, classes
translated through `object_classes`. -/
theorem addressOps_invariant (ops : List AddressOp) :
    (runAddressOps objectClasses ops).numrefs ≤ (runAddressOps objectClasses ops).maxrefs ∧
      (∃ j, (runAddressOps objectClasses ops).maxrefs = 32 * 2 ^ j) ∧
      (∀ op, StoresInBounds (runAddressOps objectClasses ops) op) ∧
      ∀ more, (∀ op ∈ more, op.isAdd = true) →
        (runAddressOps objectClasses (ops ++ more)).items =
          (runAddressOps objectClasses ops).items ++
            more.filterMap (AddressOp.recorded objectClasses) :=
  ⟨(runAddressOps objectClasses ops).numrefs_le, capacityInv_runAddressOps objectClasses ops,
    storesInBounds _, fun more h => by
      rw [runAddressOps, List.foldl_append]
      exact items_foldl_of_isAdd objectClasses more _ h⟩

end CatalogDependency
