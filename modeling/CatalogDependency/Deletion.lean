import CatalogDependency.PgDepend

/-!
The cascading-deletion engine of `dependency.c`: `findAutoDeletableObjects`,
`recursiveDeletion` with its three steps, `deleteDependentObjects`,
`doDeletion`, and the entry points `performDeletion`,
`performDeletionWithList`, `performMultipleDeletions` and
`deleteWhatDependsOn`.

A run threads a `DropState`: the live tuples of `pg_depend`, the objects passed
to `doDeletion` in order, the messages reported below `ERROR`, and the
`alreadyDeleted` list when the caller keeps one. `ereport(ERROR)` keeps the
state, as `EStateM` does, so a run that raises still shows what it did.

Every scan runs under SnapshotNow: a `caql_getnext` returns a live tuple
matching the keys that this scan has not returned yet, so a tuple deleted by a
nested call is never returned. Which candidate comes next is the environment's
`scanOrder`, indexed by the number of tuples returned so far in the run, so
every order of every scan is some `scanOrder`. Recursion depth is bounded by a
fuel argument and a scan by the number of live tuples when it starts; running
out raises `outOfFuel`.
-/

namespace CatalogDependency

/-- `DropBehavior`. -/
inductive DropBehavior where
  | dropRestrict | dropCascade
  deriving DecidableEq, Repr

/-- The message levels below `ERROR` that the code uses. -/
inductive ElogLevel where
  | debug2 | debug1 | notice
  deriving DecidableEq, Repr

/-- Messages reported below `ERROR`; objects are named by their address. -/
inductive DropMessage where
  /-- "drop auto-cascades to %s" -/
  | autoCascades (other : ObjectAddress)
  /-- "%s depends on %s" -/
  | dependsOn (other object : ObjectAddress)
  /-- "drop cascades to %s" -/
  | cascadesTo (other : ObjectAddress)
  /-- "dependency: not yet implemented!" -/
  | notYetImplemented
  deriving DecidableEq, Repr

/-- The errors the deletion code raises. -/
inductive DropError where
  /-- "cannot drop %s because it is required by the database system" -/
  | requiredBySystem (object : ObjectAddress)
  /-- "cannot drop %s because %s requires it" -/
  | requiresIt (object other : ObjectAddress)
  /-- "multiple INTERNAL dependencies for %s" -/
  | multipleInternal (object : ObjectAddress)
  /-- "incorrect use of PIN dependency with %s" -/
  | incorrectPin (object : ObjectAddress)
  /-- "unrecognized dependency type '%c' for %s" -/
  | unrecognizedDeptype (deptype : Char) (object : ObjectAddress)
  /-- "cannot drop %s because other objects depend on it" -/
  | othersDependOnIt (object : ObjectAddress)
  /-- "failed to drop all objects depending on %s" -/
  | failedToDropAll (object : ObjectAddress)
  /-- "unrecognized object class: %u" -/
  | unrecognizedObjectClass (classId : Oid)
  /-- The model's bound on recursion depth or scan length was reached. -/
  | outOfFuel
  deriving DecidableEq, Repr

/-- What a run depends on besides `pg_depend`: the `object_classes` OIDs,
whether `Gp_role == GP_ROLE_EXECUTE`, and the order of the scans. -/
structure DropEnv where
  objectClasses : ObjectClass → Oid
  executeRole : Bool
  /-- The `k`-th tuple returned in the run is candidate `scanOrder k` (modulo
  the number of candidates). -/
  scanOrder : Nat → Nat

/-- The state a deletion run changes. -/
structure DropState where
  /-- The live tuples of `pg_depend`. -/
  depRel : List HeapTuple
  /-- The objects passed to `doDeletion`, oldest first. -/
  deleted : List ObjectAddress
  messages : List (ElogLevel × DropMessage)
  /-- The caller's `alreadyDeleted` list, `none` when it passed `NULL`. -/
  alreadyDeleted : Option ObjectAddresses
  /-- Tuples returned by scans so far. -/
  scans : Nat

namespace DropState

/-! Each update matches on the state, so that evaluating a concrete run
builds small terms. -/

/-- A scan returned one more tuple. -/
def tick : DropState → DropState
  | ⟨depRel, deleted, messages, alreadyDeleted, scans⟩ =>
    ⟨depRel, deleted, messages, alreadyDeleted, scans + 1⟩

/-- `simple_heap_delete` of the tuple `t`. -/
def deleteTuple (t : HeapTuple) : DropState → DropState
  | ⟨depRel, deleted, messages, alreadyDeleted, scans⟩ =>
    ⟨depRel.filter fun u => decide (u ≠ t), deleted, messages, alreadyDeleted, scans⟩

/-- A message reported below `ERROR`. -/
def report (msg : ElogLevel × DropMessage) : DropState → DropState
  | ⟨depRel, deleted, messages, alreadyDeleted, scans⟩ =>
    ⟨depRel, deleted, messages ++ [msg], alreadyDeleted, scans⟩

/-- An object passed to `doDeletion`. -/
def logDeletion (object : ObjectAddress) : DropState → DropState
  | ⟨depRel, deleted, messages, alreadyDeleted, scans⟩ =>
    ⟨depRel, deleted ++ [object], messages, alreadyDeleted, scans⟩

/-- A change of the caller's `alreadyDeleted` list. -/
def updateAlreadyDeleted (f : Option ObjectAddresses → Option ObjectAddresses) :
    DropState → DropState
  | ⟨depRel, deleted, messages, alreadyDeleted, scans⟩ =>
    ⟨depRel, deleted, messages, f alreadyDeleted, scans⟩

end DropState

/-- The state before a run on the catalog `rel`, tuples numbered by position. -/
def DropState.init (rel : List FormDataPgDepend) : DropState where
  depRel := rel.enum.map fun p => ⟨p.1, p.2⟩
  deleted := []
  messages := []
  alreadyDeleted := none
  scans := 0

/-- Deletion code runs in a state monad whose errors keep the state. -/
abbrev DropM := EStateM DropError DropState

/-- The final state of a run, whether it returned or raised. -/
def finalState {α : Type} : EStateM.Result DropError DropState α → DropState
  | .ok _ s => s
  | .error _ s => s

/-- The error a run raised, `none` when it returned. -/
def raised {α : Type} : EStateM.Result DropError DropState α → Option DropError
  | .ok _ _ => none
  | .error e _ => some e

/-! ## Primitives -/

section Primitives

variable (env : DropEnv)

/-- `caql_getnext`: the next live tuple matching `key` that the scan has not
returned yet (`seen`), chosen by the scan order. -/
def caqlGetnext (key : FormDataPgDepend → Bool) (seen : List HeapTuple) :
    DropM (Option HeapTuple) :=
  fun s =>
    match s.depRel.filter (fun t => key t.form && decide (t ∉ seen)) with
    | [] => .ok none s
    | t :: ts =>
      match (t :: ts).getD (env.scanOrder s.scans % (ts.length + 1)) t with
      | ⟨tid, form⟩ => .ok (some ⟨tid, form⟩) s.tick

/-- `caql_delete_current`: delete the tuple the scan last returned. -/
def caqlDeleteCurrent (t : HeapTuple) : DropM Unit :=
  modify (DropState.deleteTuple t)

/-- `ereport` below `ERROR`. -/
def ereport (level : ElogLevel) (msg : DropMessage) : DropM Unit :=
  modify (DropState.report (level, msg))

/-- `getObjectDescription`, through its class lookup: it raises for a class OID
outside `object_classes`. The text itself is not modelled, nor are the
per-class catalog lookups, which raise `cache lookup failed` for an object
whose row is gone. One call of an entry point describes only its target before
dropping anything and the ends of entries it has just read from `pg_depend`,
which `Swept` shows it has not dropped. -/
def getObjectDescription (object : ObjectAddress) : DropM Unit :=
  match getObjectClass env.objectClasses object with
  | none => throw (.unrecognizedObjectClass object.classId)
  | some _ => pure ()

/-- `doDeletion`: record the call, then dispatch on the object class; roles,
databases and tablespaces fall to the `default` arm. The per-class
destructors do not touch `pg_depend`. -/
def doDeletion (object : ObjectAddress) : DropM Unit := do
  modify (DropState.logDeletion object)
  match getObjectClass env.objectClasses object with
  | none | some .oclassRole | some .oclassDatabase | some .oclassTblspace =>
    throw (.unrecognizedObjectClass object.classId)
  | some .oclassCompression => ereport .notice .notYetImplemented
  | some _ => pure ()

/-- One iteration after another of `while (HeapTupleIsValid(tup =
caql_getnext(pcqCtx))) body`, threading the loop's variables `acc`. -/
def caqlScan {α : Type} (key : FormDataPgDepend → Bool)
    (body : HeapTuple → α → DropM α) : Nat → List HeapTuple → α → DropM α
  | 0, _, _ => throw .outOfFuel
  | n + 1, seen, acc => do
    match ← caqlGetnext env key seen with
    | none => pure acc
    | some t => caqlScan key body n (t :: seen) (← body t acc)

/-- `caql_beginscan` and its loop: a scan returns each live tuple at most once,
so the live tuples at its start bound its length. -/
def caqlBeginscan {α : Type} (key : FormDataPgDepend → Bool)
    (body : HeapTuple → α → DropM α) (init : α) : DropM α := do
  let s ← get
  caqlScan env key body (s.depRel.length + 1) [] init

end Primitives

/-! ## The deletion steps -/

section Steps

variable (env : DropEnv) (behavior : DropBehavior) (msglevel : ElogLevel)
  (oktodelete : ObjectAddresses)

/-- The level of a RESTRICT complaint: NOTICE becomes DEBUG1 on a segment. -/
def restrictLevel : ElogLevel :=
  if msglevel = .notice ∧ env.executeRole then .debug1 else msglevel

/-- The level of a cascade notice: DEBUG1 on a segment, whatever `msglevel`. -/
def cascadeLevel : ElogLevel :=
  if env.executeRole then .debug1 else msglevel

/-- The check that the owner redirection of `recursiveDeletion` and the NORMAL
arm of `deleteDependentObjects` make before recursing into `other` on behalf
of `object`: silent when `other` is in `oktodelete`, a violation under
RESTRICT, a cascade notice otherwise. Returns `false` on a violation. -/
def reportCascade (other object : ObjectAddress) : DropM Bool :=
  if objectAddressPresent other oktodelete then do
    ereport .debug2 (.autoCascades other)
    pure true
  else if behavior = .dropRestrict then do
    ereport (restrictLevel env msglevel) (.dependsOn other object)
    pure false
  else do
    ereport (cascadeLevel env msglevel) (.cascadesTo other)
    pure true

/-- The body of the Step 1 loop of `recursiveDeletion` for `object`, called
from `callingObject`; the loop variable is `owningObject` (`amOwned` when it
is `some`). -/
def sweepOutgoing (object : ObjectAddress) (callingObject : Option ObjectAddress)
    (t : HeapTuple) (owningObject : Option ObjectAddress) : DropM (Option ObjectAddress) :=
  let otherObject := t.form.referenced
  match DependencyType.ofChar t.form.deptype with
  | some .dependencyNormal | some .dependencyAuto => do
    caqlDeleteCurrent t
    pure owningObject
  | some .dependencyInternal =>
    match callingObject with
    | none => throw (.requiresIt object otherObject)
    | some caller =>
      if caller.classId = otherObject.classId ∧ caller.objectId = otherObject.objectId ∧
          (caller.objectSubId = otherObject.objectSubId ∨ caller.objectSubId = 0) then do
        caqlDeleteCurrent t
        pure owningObject
      else
        match owningObject with
        | some _ => throw (.multipleInternal object)
        | none => pure (some otherObject)
  | some .dependencyPin => throw (.incorrectPin object)
  | none => throw (.unrecognizedDeptype t.form.deptype object)

/-- The body of the loop of `deleteDependentObjects` for `object`; `recurse`
is `recursiveDeletion` one level down, and the loop variable is `ok`. -/
def dropDependent (recurse : ObjectAddress → Option ObjectAddress → DropM Bool)
    (object : ObjectAddress) (t : HeapTuple) (ok : Bool) : DropM Bool :=
  let otherObject := t.form.depender
  match DependencyType.ofChar t.form.deptype with
  | some .dependencyNormal => do
    let fine ← reportCascade env behavior msglevel oktodelete otherObject object
    let r ← recurse otherObject (some object)
    pure (ok && fine && r)
  | some .dependencyAuto | some .dependencyInternal => do
    ereport .debug2 (.autoCascades otherObject)
    let r ← recurse otherObject (some object)
    pure (ok && r)
  | some .dependencyPin => throw (.requiredBySystem object)
  | none => throw (.unrecognizedDeptype t.form.deptype object)

/-- `deleteDependentObjects`: recurse into everything that depends on
`object` (or on one of its sub-objects, for a whole object). -/
def deleteDependentObjects (recurse : ObjectAddress → Option ObjectAddress → DropM Bool)
    (object : ObjectAddress) : DropM Bool :=
  caqlBeginscan env (referencedKey object)
    (dropDependent env behavior msglevel oktodelete recurse object) true

/-- Step 3's bookkeeping: add `object` to `alreadyDeleted`, if the caller keeps
that list and `object` is not present in it yet. -/
def noteDeleted (object : ObjectAddress) : DropM Unit :=
  modify <| DropState.updateAlreadyDeleted <| Option.map fun ad =>
    if objectAddressPresent object ad then ad else addExactObjectAddress object ad

/-- `recursiveDeletion`: Step 1 removes the entries from `object` to others and
finds an owner, if any; an owned object hands the deletion to its owner;
otherwise Step 2 deletes the dependents and Step 3 the object. -/
def recursiveDeletion : Nat → ObjectAddress → Option ObjectAddress → DropM Bool
  | 0, _, _ => throw .outOfFuel
  | fuel + 1, object, callingObject => do
    getObjectDescription env object
    let owning ← caqlBeginscan env (dependerKey object)
      (sweepOutgoing object callingObject) none
    match owning with
    | some owningObject =>
      let fine ← reportCascade env behavior msglevel oktodelete owningObject object
      let r ← recursiveDeletion fuel owningObject (some object)
      pure (fine && r)
    | none =>
      let ok ← deleteDependentObjects env behavior msglevel oktodelete
        (recursiveDeletion fuel) object
      doDeletion env object
      noteDeleted object
      pure ok

end Steps

/-! ## The pre-scan -/

section PreScan

variable (env : DropEnv)

/-- The body of the loop of `findAutoDeletableObjects` for `object`. -/
def collectAuto (recurse : ObjectAddress → ObjectAddresses → DropM ObjectAddresses)
    (object : ObjectAddress) (t : HeapTuple) (oktodelete : ObjectAddresses) :
    DropM ObjectAddresses :=
  match DependencyType.ofChar t.form.deptype with
  | some .dependencyNormal => pure oktodelete
  | some .dependencyAuto | some .dependencyInternal => recurse t.form.depender oktodelete
  | some .dependencyPin => throw (.requiredBySystem object)
  | none => throw (.unrecognizedDeptype t.form.deptype object)

/-- `findAutoDeletableObjects`: add to `oktodelete` everything reachable from
`object` through AUTO or INTERNAL entries (and `object` itself when
`addself`), stopping at objects already present. -/
def findAutoDeletableObjects :
    Nat → ObjectAddress → ObjectAddresses → Bool → DropM ObjectAddresses
  | 0, _, _, _ => throw .outOfFuel
  | fuel + 1, object, oktodelete, addself =>
    if objectAddressPresent object oktodelete then pure oktodelete
    else
      caqlBeginscan env (referencedKey object)
        (collectAuto (fun o okt => findAutoDeletableObjects fuel o okt true) object)
        (if addself then addExactObjectAddress object oktodelete else oktodelete)

end PreScan

/-! ## Entry points -/

section EntryPoints

variable (env : DropEnv) (fuel : Nat)

/-- `performDeletion`. -/
def performDeletion (object : ObjectAddress) (behavior : DropBehavior) : DropM Unit := do
  getObjectDescription env object
  let oktodelete ← findAutoDeletableObjects env fuel object newObjectAddresses true
  modify (DropState.updateAlreadyDeleted fun _ => none)
  let ok ← recursiveDeletion env behavior .notice oktodelete fuel object none
  if !ok then throw (.othersDependOnIt object)

/-- `performDeletionWithList`: `oktodelete` may be non-empty already; the
caller's list comes back with this object's implicit objects added. -/
def performDeletionWithList (object : ObjectAddress) (oktodelete : ObjectAddresses)
    (behavior : DropBehavior) : DropM ObjectAddresses := do
  getObjectDescription env object
  let oktodelete ← findAutoDeletableObjects env fuel object oktodelete true
  let ok ← recursiveDeletion env behavior .notice oktodelete fuel object none
  if !ok then throw (.othersDependOnIt object)
  pure oktodelete

/-- The first loop of `performMultipleDeletions`: the implicit objects of
every target not already implicit. -/
def collectImplicit : List ObjectAddress → ObjectAddresses → DropM ObjectAddresses
  | [], implicit => pure implicit
  | obj :: rest, implicit =>
    if objectAddressPresent obj implicit then collectImplicit rest implicit
    else do
      let implicit ← findAutoDeletableObjects env fuel obj implicit false
      collectImplicit rest implicit

/-- Whether `obj` is present in the `alreadyDeleted` list of the state. -/
def presentInAlreadyDeleted (obj : ObjectAddress) (s : DropState) : Bool :=
  match s.alreadyDeleted with
  | some ad => objectAddressPresent obj ad
  | none => false

/-- The second loop of `performMultipleDeletions`. -/
def deleteTargets (behavior : DropBehavior) :
    List ObjectAddress → ObjectAddresses → DropM Unit
  | [], _ => pure ()
  | obj :: rest, implicit => do
    let s ← get
    if presentInAlreadyDeleted obj s then deleteTargets behavior rest implicit
    else if objectAddressPresent obj implicit then deleteTargets behavior rest implicit
    else do
      let implicit ← performDeletionWithList env fuel obj implicit behavior
      deleteTargets behavior rest implicit

/-- `performMultipleDeletions`. -/
def performMultipleDeletions (objects : ObjectAddresses) (behavior : DropBehavior) :
    DropM Unit := do
  modify (DropState.updateAlreadyDeleted fun _ => some newObjectAddresses)
  let implicit ← collectImplicit env fuel objects.items newObjectAddresses
  deleteTargets env fuel behavior objects.items implicit

/-- `deleteWhatDependsOn`: Step 2 of `recursiveDeletion` alone, always CASCADE. -/
def deleteWhatDependsOn (object : ObjectAddress) (showNotices : Bool) : DropM Unit := do
  getObjectDescription env object
  let oktodelete ← findAutoDeletableObjects env fuel object newObjectAddresses true
  modify (DropState.updateAlreadyDeleted fun _ => none)
  let msglevel := if showNotices then ElogLevel.notice else ElogLevel.debug2
  let ok ← deleteDependentObjects env .dropCascade msglevel oktodelete
    (recursiveDeletion env .dropCascade msglevel oktodelete fuel) object
  if !ok then throw (.failedToDropAll object)

end EntryPoints

/-! ## Concrete runs -/

/-- An environment for concrete runs: class OIDs `1, 2, ...` in the order of
`ObjectClass`, so that relations have class OID `1`, outside a segment, with
the given scan order. -/
def exampleEnv (scanOrder : Nat → Nat) : DropEnv where
  objectClasses c := c.toCtorIdx + 1
  executeRole := false
  scanOrder := scanOrder

/-- The relation `relid` as a whole object. -/
def relationAddress (relid : Oid) : ObjectAddress := ⟨1, relid, 0⟩

/-- Column `attnum` of the relation `relid`. -/
def columnAddress (relid : Oid) (attnum : BitVec 32) : ObjectAddress := ⟨1, relid, attnum⟩

end CatalogDependency
