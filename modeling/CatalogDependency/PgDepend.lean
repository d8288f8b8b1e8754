import CatalogDependency.ObjectAddress

/-!
The `pg_depend` catalog as the deletion code sees it: tuples with a depender
triple, a referenced triple and a one-character `deptype`, the two scan keys
of `dependency.c`, and the invariants of a well-formed catalog: PIN entries
have a zero depender, and an object has at most one INTERNAL owner.
-/

namespace CatalogDependency

/-- `DependencyType`: the recognized values of `pg_depend.deptype`. -/
inductive DependencyType where
  | dependencyNormal | dependencyAuto | dependencyInternal | dependencyPin
  deriving DecidableEq, Repr

/-- The on-disk character of each dependency type. -/
def DependencyType.toChar : DependencyType → Char
  | .dependencyNormal => 'n'
  | .dependencyAuto => 'a'
  | .dependencyInternal => 'i'
  | .dependencyPin => 'p'

/-- The `switch (foundDep->deptype)` of the code: `none` is its `default` arm. -/
def DependencyType.ofChar (c : Char) : Option DependencyType :=
  if c = 'n' then some .dependencyNormal
  else if c = 'a' then some .dependencyAuto
  else if c = 'i' then some .dependencyInternal
  else if c = 'p' then some .dependencyPin
  else none

@[simp] theorem DependencyType.ofChar_toChar (t : DependencyType) : ofChar t.toChar = some t := by
  cases t <;> decide

theorem DependencyType.ofChar_eq_some {c : Char} {t : DependencyType} :
    ofChar c = some t ↔ c = t.toChar := by
  constructor
  · intro h
    unfold ofChar at h
    split_ifs at h <;> cases h <;> assumption
  · rintro rfl; exact ofChar_toChar t

/-- `FormData_pg_depend`: one dependency, "the depender depends on the
referenced object". -/
structure FormDataPgDepend where
  classid : Oid
  objid : Oid
  objsubid : BitVec 32
  refclassid : Oid
  refobjid : Oid
  refobjsubid : BitVec 32
  deptype : Char
  deriving DecidableEq, Repr

namespace FormDataPgDepend

/-- The depending object, `(classid, objid, objsubid)`. -/
def depender (d : FormDataPgDepend) : ObjectAddress := ⟨d.classid, d.objid, d.objsubid⟩

/-- The referenced object, `(refclassid, refobjid, refobjsubid)`. -/
def referenced (d : FormDataPgDepend) : ObjectAddress :=
  ⟨d.refclassid, d.refobjid, d.refobjsubid⟩

/-- The entry "`depender` depends on `referenced`", of type `deptype`. -/
def ofAddresses (depender referenced : ObjectAddress) (deptype : Char) : FormDataPgDepend :=
  ⟨depender.classId, depender.objectId, depender.objectSubId, referenced.classId,
    referenced.objectId, referenced.objectSubId, deptype⟩

@[simp] theorem depender_ofAddresses (a b : ObjectAddress) (c : Char) :
    (ofAddresses a b c).depender = a := rfl

@[simp] theorem referenced_ofAddresses (a b : ObjectAddress) (c : Char) :
    (ofAddresses a b c).referenced = b := rfl

@[simp] theorem deptype_ofAddresses (a b : ObjectAddress) (c : Char) :
    (ofAddresses a b c).deptype = c := rfl

end FormDataPgDepend

/-- A heap tuple of `pg_depend`: its item pointer (`t_self`) and contents. -/
structure HeapTuple where
  tid : Nat
  form : FormDataPgDepend
  deriving DecidableEq, Repr

/-! ## Scan keys -/

/-- `WHERE classid = :1 AND objid = :2 [AND objsubid = :3]`: tuples whose
depender is `object`; for a whole object, also those of its sub-objects. -/
def dependerKey (object : ObjectAddress) (d : FormDataPgDepend) : Bool :=
  if object.objectSubId ≠ 0 then
    d.classid == object.classId && d.objid == object.objectId && d.objsubid == object.objectSubId
  else d.classid == object.classId && d.objid == object.objectId

/-- `WHERE refclassid = :1 AND refobjid = :2 [AND refobjsubid = :3]`. -/
def referencedKey (object : ObjectAddress) (d : FormDataPgDepend) : Bool :=
  if object.objectSubId ≠ 0 then
    d.refclassid == object.classId && d.refobjid == object.objectId &&
      d.refobjsubid == object.objectSubId
  else d.refclassid == object.classId && d.refobjid == object.objectId

private theorem key_iff (object x : ObjectAddress) :
    (if object.objectSubId ≠ 0 then
      x.classId == object.classId && x.objectId == object.objectId &&
        x.objectSubId == object.objectSubId
    else x.classId == object.classId && x.objectId == object.objectId) = true ↔
      object.covers x := by
  unfold ObjectAddress.covers
  by_cases h : object.objectSubId = 0
  · simp only [h, ne_eq, not_true_eq_false, ↓reduceIte, Bool.and_eq_true, beq_iff_eq, true_or,
      and_true]
    exact ⟨fun ⟨a, b⟩ => ⟨a.symm, b.symm⟩, fun ⟨a, b⟩ => ⟨a.symm, b.symm⟩⟩
  · simp only [h, ne_eq, not_false_eq_true, ↓reduceIte, Bool.and_eq_true, beq_iff_eq, false_or]
    exact ⟨fun ⟨⟨a, b⟩, c⟩ => ⟨a.symm, b.symm, c.symm⟩, fun ⟨a, b, c⟩ => ⟨⟨a.symm, b.symm⟩, c.symm⟩⟩

@[simp] theorem dependerKey_iff (object : ObjectAddress) (d : FormDataPgDepend) :
    dependerKey object d = true ↔ object.covers d.depender :=
  key_iff object d.depender

@[simp] theorem referencedKey_iff (object : ObjectAddress) (d : FormDataPgDepend) :
    referencedKey object d = true ↔ object.covers d.referenced :=
  key_iff object d.referenced

/-! ## Catalog invariants -/

/-- The dependent triple of a PIN entry: all zeroes. -/
def zeroAddress : ObjectAddress := ⟨0, 0, 0⟩

/-- The invariants of a well-formed `pg_depend`: PIN entries have a zero
depender, and no depender has two INTERNAL entries. -/
structure CatalogInvariants (rel : List FormDataPgDepend) : Prop where
  pin_depender : ∀ d ∈ rel, d.deptype = 'p' → d.depender = zeroAddress
  internal_unique : ∀ a : ObjectAddress,
    (rel.filter fun d => d.deptype = 'i' ∧ d.depender = a).length ≤ 1

/-- The invariants, with uniqueness checked only at the dependers that occur. -/
theorem catalogInvariants_iff (rel : List FormDataPgDepend) :
    CatalogInvariants rel ↔ (∀ d ∈ rel, d.deptype = 'p' → d.depender = zeroAddress) ∧
      ∀ d ∈ rel, d.deptype = 'i' →
        (rel.filter fun e => e.deptype = 'i' ∧ e.depender = d.depender).length ≤ 1 := by
  refine ⟨fun h => ⟨h.pin_depender, fun d _ _ => h.internal_unique d.depender⟩,
    fun ⟨hp, hi⟩ => ⟨hp, fun a => ?_⟩⟩
  cases hl : rel.filter (fun d => d.deptype = 'i' ∧ d.depender = a) with
  | nil => simp
  | cons d ds =>
    obtain ⟨hmem, hda⟩ := List.mem_filter.mp (hl ▸ List.mem_cons_self d ds)
    simp only [decide_eq_true_eq] at hda
    rw [← hl, ← hda.2]
    exact hi d hmem hda.1

instance (rel : List FormDataPgDepend) : Decidable (CatalogInvariants rel) :=
  decidable_of_iff _ (catalogInvariants_iff rel).symm

end CatalogDependency
