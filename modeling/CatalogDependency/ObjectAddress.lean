import Mathlib.Data.List.GetD

/-!
Object identities of `dependency.c` and the expansible `ObjectAddresses` array.

An `ObjectAddress` is the triple `(classId, objectId, objectSubId)`; a zero
`objectSubId` names the whole object, any other value one of its sub-objects.
`ObjectAddress.covers a x` is the subsumption every scan and every
`object_address_present` test of the file uses: `a` is `x`, or `a` is the whole
object of which `x` is a part.
-/

namespace CatalogDependency

/-- Catalog object identifiers (`Oid`, an unsigned 32-bit value that the code
only compares). -/
abbrev Oid := Nat

/-- `ObjectAddress`: catalog class, object, and `int32` sub-object number. -/
structure ObjectAddress where
  classId : Oid
  objectId : Oid
  objectSubId : BitVec 32
  deriving DecidableEq, Repr, Inhabited

/-- `a` covers `x`: same class and object, and `a` is either the whole object
or exactly `x`. -/
def ObjectAddress.covers (a x : ObjectAddress) : Prop :=
  a.classId = x.classId ∧ a.objectId = x.objectId ∧
    (a.objectSubId = 0 ∨ a.objectSubId = x.objectSubId)

instance (a x : ObjectAddress) : Decidable (a.covers x) :=
  inferInstanceAs (Decidable (_ ∧ _ ∧ _))

namespace ObjectAddress

@[simp] theorem covers_refl (a : ObjectAddress) : a.covers a :=
  ⟨rfl, rfl, Or.inr rfl⟩

theorem covers_trans {a b c : ObjectAddress} (hab : a.covers b) (hbc : b.covers c) :
    a.covers c := by
  obtain ⟨h1, h2, h3⟩ := hab
  obtain ⟨h4, h5, h6⟩ := hbc
  refine ⟨h1.trans h4, h2.trans h5, ?_⟩
  rcases h3 with h3 | h3
  · exact Or.inl h3
  · rcases h6 with h6 | h6
    · exact Or.inl (h3.trans h6)
    · exact Or.inr (h3.trans h6)

/-- A sub-object covers only itself. -/
theorem covers_of_ne_zero {a x : ObjectAddress} (h : a.objectSubId ≠ 0) :
    a.covers x ↔ a = x := by
  constructor
  · rintro ⟨h1, h2, h3 | h3⟩
    · exact absurd h3 h
    · cases a; cases x; simp_all
  · rintro rfl; exact covers_refl a

/-- Two whole objects cover each other only when they are equal. -/
theorem covers_whole {a x : ObjectAddress} (hx : x.objectSubId = 0) :
    a.covers x ↔ a = x := by
  constructor
  · rintro ⟨h1, h2, h3 | h3⟩
    · cases a; cases x; simp_all
    · cases a; cases x; simp_all
  · rintro rfl; exact covers_refl a

end ObjectAddress

/-! ## Object classes -/

/-- `ObjectClass`, in the order of the `object_classes` table. -/
inductive ObjectClass where
  | oclassClass | oclassProc | oclassType | oclassCast | oclassConstraint
  | oclassConversion | oclassDefault | oclassLanguage | oclassOperator
  | oclassOpclass | oclassRewrite | oclassTrigger | oclassSchema | oclassRole
  | oclassDatabase | oclassTblspace | oclassFilespace | oclassFilesystem
  | oclassFdw | oclassForeignServer | oclassUserMapping | oclassExtprotocol
  | oclassCompression
  deriving DecidableEq, Repr

/-- Every object class, in the order of the `switch` of `getObjectClass`. -/
def allObjectClasses : List ObjectClass :=
  [.oclassClass, .oclassProc, .oclassType, .oclassCast, .oclassConstraint,
    .oclassConversion, .oclassDefault, .oclassLanguage, .oclassOperator,
    .oclassOpclass, .oclassRewrite, .oclassTrigger, .oclassSchema, .oclassRole,
    .oclassDatabase, .oclassTblspace, .oclassFilespace, .oclassFilesystem,
    .oclassFdw, .oclassForeignServer, .oclassUserMapping, .oclassExtprotocol,
    .oclassCompression]

/-- `getObjectClass`: the class whose catalog OID in `object_classes` is the
address's `classId`; `none` where the code raises "unrecognized object class".
The OIDs live in catalog headers outside this file, so the table is a
parameter. -/
def getObjectClass (objectClasses : ObjectClass → Oid) (object : ObjectAddress) :
    Option ObjectClass :=
  allObjectClasses.find? (fun c => objectClasses c == object.classId)

theorem getObjectClass_classId {objectClasses : ObjectClass → Oid}
    {object : ObjectAddress} {c : ObjectClass}
    (h : getObjectClass objectClasses object = some c) :
    objectClasses c = object.classId := by
  simpa using List.find?_some h

/-! ## The expansible array -/

/-- `ObjectAddresses`: `maxrefs` palloc'd slots of which the first `numrefs`
are in use. The slot count, the bound on `numrefs` and a positive capacity are
part of the value. -/
structure ObjectAddresses where
  refs : List ObjectAddress
  numrefs : Nat
  maxrefs : Nat
  refs_length : refs.length = maxrefs
  numrefs_le : numrefs ≤ maxrefs
  maxrefs_pos : 0 < maxrefs

namespace ObjectAddresses

/-- The addresses in use, oldest first. -/
def items (addrs : ObjectAddresses) : List ObjectAddress :=
  addrs.refs.take addrs.numrefs

theorem length_items (addrs : ObjectAddresses) : addrs.items.length = addrs.numrefs := by
  simp [items, addrs.refs_length, Nat.min_eq_left addrs.numrefs_le]

end ObjectAddresses

/-- `new_object_addresses`: an empty array of 32 slots. -/
def newObjectAddresses : ObjectAddresses where
  refs := List.replicate 32 default
  numrefs := 0
  maxrefs := 32
  refs_length := List.length_replicate _ _
  numrefs_le := Nat.zero_le _
  maxrefs_pos := by decide

@[simp] theorem items_newObjectAddresses : newObjectAddresses.items = [] := rfl

/-- The array after "enlarge array if needed": doubled when full (`repalloc`
keeps the used slots; the new ones are unspecified). -/
def ObjectAddresses.enlarge (addrs : ObjectAddresses) : ObjectAddresses :=
  if h : addrs.numrefs ≥ addrs.maxrefs then
    { refs := addrs.refs ++ List.replicate addrs.maxrefs default
      numrefs := addrs.numrefs
      maxrefs := addrs.maxrefs * 2
      refs_length := by simp [addrs.refs_length]; omega
      numrefs_le := by have := addrs.numrefs_le; omega
      maxrefs_pos := by have := addrs.maxrefs_pos; omega }
  else addrs

theorem ObjectAddresses.numrefs_lt_enlarge (addrs : ObjectAddresses) :
    addrs.enlarge.numrefs < addrs.enlarge.maxrefs := by
  unfold enlarge
  split
  · have := addrs.maxrefs_pos; have := addrs.numrefs_le; simp; omega
  · omega

theorem ObjectAddresses.items_enlarge (addrs : ObjectAddresses) :
    addrs.enlarge.items = addrs.items := by
  unfold enlarge items
  split
  · simp [List.take_append_of_le_length, addrs.refs_length, addrs.numrefs_le]
  · rfl

/-- Record `item` in the first free slot, enlarging the array first if needed:
the common body of `add_object_address` and `add_exact_object_address`. -/
def ObjectAddresses.push (addrs : ObjectAddresses) (item : ObjectAddress) :
    ObjectAddresses :=
  let big := addrs.enlarge
  { refs := big.refs.set big.numrefs item
    numrefs := big.numrefs + 1
    maxrefs := big.maxrefs
    refs_length := by simp [big.refs_length]
    numrefs_le := addrs.numrefs_lt_enlarge
    maxrefs_pos := big.maxrefs_pos }

@[simp] theorem ObjectAddresses.items_push (addrs : ObjectAddresses) (item : ObjectAddress) :
    (addrs.push item).items = addrs.items ++ [item] := by
  have hlt := addrs.numrefs_lt_enlarge
  have hlen := addrs.enlarge.refs_length
  rw [← addrs.items_enlarge]
  simp only [push, items]
  generalize addrs.enlarge = big at hlt hlen
  rw [List.take_succ, List.getElem?_set_self (by omega), List.set_take,
    List.set_eq_of_length_le (List.length_take_le _ _)]
  rfl

/-- `add_exact_object_address`. -/
def addExactObjectAddress (object : ObjectAddress) (addrs : ObjectAddresses) :
    ObjectAddresses :=
  addrs.push object

/-- `add_object_address`: as above, with the class given by its `ObjectClass`
and translated through `object_classes`. -/
def addObjectAddress (objectClasses : ObjectClass → Oid) (oclass : ObjectClass)
    (objectId : Oid) (subId : BitVec 32) (addrs : ObjectAddresses) : ObjectAddresses :=
  addrs.push ⟨objectClasses oclass, objectId, subId⟩

/-- The array after recording the addresses of `l` one after another. -/
def ObjectAddresses.pushAll (addrs : ObjectAddresses) (l : List ObjectAddress) :
    ObjectAddresses :=
  l.foldl ObjectAddresses.push addrs

@[simp] theorem ObjectAddresses.pushAll_nil (addrs : ObjectAddresses) : addrs.pushAll [] = addrs :=
  rfl

@[simp] theorem ObjectAddresses.pushAll_cons (addrs : ObjectAddresses) (a : ObjectAddress)
    (l : List ObjectAddress) : addrs.pushAll (a :: l) = (addrs.push a).pushAll l :=
  rfl

theorem ObjectAddresses.pushAll_append (addrs : ObjectAddresses) (l l' : List ObjectAddress) :
    addrs.pushAll (l ++ l') = (addrs.pushAll l).pushAll l' :=
  List.foldl_append _ _ _ _

@[simp] theorem ObjectAddresses.items_pushAll (addrs : ObjectAddresses) (l : List ObjectAddress) :
    (addrs.pushAll l).items = addrs.items ++ l := by
  induction l generalizing addrs with
  | nil => simp
  | cons a l ih => simp [ih]

@[simp] theorem items_addExactObjectAddress (object : ObjectAddress) (addrs : ObjectAddresses) :
    (addExactObjectAddress object addrs).items = addrs.items ++ [object] :=
  addrs.items_push object

/-- `object_address_present`: scanning the used slots from the last one down,
is some entry `object` itself or its whole object? -/
def objectAddressPresent (object : ObjectAddress) (addrs : ObjectAddresses) : Bool :=
  loop addrs.numrefs
where
  /-- Slots `i - 1` down to `0`. -/
  loop : Nat → Bool
    | 0 => false
    | i + 1 =>
      let thisobj := addrs.refs.getD i default
      (object.classId == thisobj.classId && object.objectId == thisobj.objectId &&
        (object.objectSubId == thisobj.objectSubId || thisobj.objectSubId == 0)) || loop i

theorem objectAddressPresent_loop_iff (object : ObjectAddress) (addrs : ObjectAddresses)
    (i : Nat) (hi : i ≤ addrs.refs.length) :
    objectAddressPresent.loop object addrs i = true ↔
      ∃ y ∈ addrs.refs.take i, y.covers object := by
  induction i with
  | zero => simp [objectAddressPresent.loop]
  | succ i ih =>
    have hget : addrs.refs.getD i default = addrs.refs[i] := List.getD_eq_getElem _ _ (by omega)
    rw [objectAddressPresent.loop, List.take_succ, List.getElem?_eq_getElem (by omega)]
    simp only [hget, Bool.or_eq_true, Bool.and_eq_true, beq_iff_eq, ih (by omega),
      Option.toList_some, List.mem_append, List.mem_singleton]
    constructor
    · rintro (⟨⟨h1, h2⟩, h3⟩ | ⟨y, hy, hc⟩)
      · exact ⟨_, Or.inr rfl, h1.symm, h2.symm, h3.elim (fun h => Or.inr h.symm) Or.inl⟩
      · exact ⟨y, Or.inl hy, hc⟩
    · rintro ⟨y, hy | rfl, hc⟩
      · exact Or.inr ⟨y, hy, hc⟩
      · obtain ⟨h1, h2, h3⟩ := hc
        exact Or.inl ⟨⟨h1.symm, h2.symm⟩, h3.elim Or.inr (fun h => Or.inl h.symm)⟩

/-- `object_address_present` finds exactly the entries that cover the object. -/
theorem objectAddressPresent_iff (object : ObjectAddress) (addrs : ObjectAddresses) :
    objectAddressPresent object addrs = true ↔ ∃ y ∈ addrs.items, y.covers object := by
  have := addrs.numrefs_le
  exact objectAddressPresent_loop_iff object addrs _ (by rw [addrs.refs_length]; omega)

end CatalogDependency
