import CatalogDependency.Soundness

/-!
Re-entry through an INTERNAL owner.

When a dependent reached in Step 2 of an object is owned, through an INTERNAL
entry, by an object whose own run is still in progress further up, Step 1 of
the dependent hands the deletion back to that object. The inner run then
deletes the object while the outer one goes on. Three consequences follow, each
against a comment of the source:

* the outer run passes the object to `doDeletion` a second time
  (`performDeletion_deletes_twice`), although the header of
  `deleteDependentObjects` says the scans keep it from trying to delete an
  already-deleted object;
* a column is dropped before an object that depends on it
  (`column_dropped_before_dependent`), although Step 2 runs first so that
  dependent objects are deleted before the ones they reference;
* `deleteWhatDependsOn` drops its own target (`deleteWhatDependsOn_drops_target`),
  although it is meant to drop what depends on the object but not the object.

Without such a path back to the target, `deleteWhatDependsOn` does spare it: no
run passes to `doDeletion` the target or a part of it, or removes an entry from
one, when the closure of its dependents never reaches its object
(`deleteWhatDependsOn_spares_target`).
-/

namespace CatalogDependency

/-! ## What `deleteWhatDependsOn` may reach -/

/-- The union of the deletion closures of the dependers of the entries to
`target`: the objects a run of `deleteWhatDependsOn target` may visit. -/
def DependentsClosure (rel : List FormDataPgDepend) (target x : ObjectAddress) : Prop :=
  ∃ d ∈ rel, d.deptype ≠ 'p' ∧ target.covers d.referenced ∧ DeletionClosure rel d.depender x

theorem DependentsClosure.closedUnder (rel : List FormDataPgDepend) (target : ObjectAddress) :
    ClosedUnder rel (DependentsClosure rel target) :=
  ⟨fun _ hd hp _ ⟨d, h₁, h₂, h₃, hm⟩ hc => ⟨d, h₁, h₂, h₃, .dependent hd hp hm hc⟩,
    fun _ hd hi _ ⟨d, h₁, h₂, h₃, hm⟩ hc => ⟨d, h₁, h₂, h₃, .owner hd hi hm hc⟩⟩

/-- Every run of `deleteWhatDependsOn` is sound for the closure of the
target's dependents, which need not contain the target. -/
theorem deleteWhatDependsOn_sound_dependents (env : DropEnv) (fuel : Nat)
    (rel : List FormDataPgDepend) (target : ObjectAddress) (showNotices : Bool) :
    Sound (DropState.init rel).depRel (DependentsClosure rel target)
      (finalState (deleteWhatDependsOn env fuel target showNotices (DropState.init rel))) :=
  have hJ := Sound.deletionInvariant (DependentsClosure.closedUnder rel target).init
  have hdeps : DependentsIn (DependentsClosure rel target)
      (Sound (DropState.init rel).depRel (DependentsClosure rel target)) target :=
    fun _ h t ht hp hc =>
      ⟨t.form, DropState.init_depRel_form rel ▸ List.mem_map_of_mem _ (h.live ht), hp, hc, .target⟩
  deleteWhatDependsOn_steps env fuel (hJ newObjectAddresses).entryRel
    (fun msglevel okt => deleteDependentObjects_keeps env .dropCascade msglevel okt (hJ okt)
      (recursiveDeletion_keeps env .dropCascade msglevel okt (hJ okt) fuel) hdeps)
    _ (Sound.init rel)

/-- **`deleteWhatDependsOn` spares its target** when no object of the closure
of its dependents is the target's object or a part of it: no run, returning or
raising, passes to `doDeletion` the target or a part of it, or removes an entry
from one. -/
theorem deleteWhatDependsOn_spares_target (env : DropEnv) (fuel : Nat)
    (rel : List FormDataPgDepend) (target : ObjectAddress) (showNotices : Bool)
    (hsep : ∀ x, DependentsClosure rel target x →
      ¬ (x.classId = target.classId ∧ x.objectId = target.objectId)) :
    (∀ x ∈ (finalState (deleteWhatDependsOn env fuel target showNotices
        (DropState.init rel))).deleted, ¬ target.covers x) ∧
      ∀ t ∈ (DropState.init rel).depRel, target.covers t.form.depender →
        t ∈ (finalState (deleteWhatDependsOn env fuel target showNotices
          (DropState.init rel))).depRel := by
  have h := deleteWhatDependsOn_sound_dependents env fuel rel target showNotices
  refine ⟨fun x hx hc => hsep x (h.deleted x hx) ⟨hc.1.symm, hc.2.1.symm⟩, fun t ht hc => ?_⟩
  by_contra hn
  obtain ⟨m, hm, hmc⟩ := h.removed t ht hn
  exact hsep m hm ⟨hmc.1.trans hc.1.symm, hmc.2.1.trans hc.2.1.symm⟩

/-- Relation `41` depends on relation `40`, relation `42` on `41`, and `42` is
also owned by `40` through an AUTO entry. -/
def autoOwnerCatalog : List FormDataPgDepend :=
  [.ofAddresses (relationAddress 41) (relationAddress 40) 'n',
    .ofAddresses (relationAddress 42) (relationAddress 41) 'n',
    .ofAddresses (relationAddress 42) (relationAddress 40) 'a']

/-- The closure of the dependents of `40` is `41` and `42`, away from `40`. -/
theorem autoOwner_dependents_apart :
    ∀ x, DependentsClosure autoOwnerCatalog (relationAddress 40) x →
      ¬ (x.classId = (relationAddress 40).classId ∧ x.objectId = (relationAddress 40).objectId) := by
  have hQ : ClosedUnder autoOwnerCatalog (· ∈ [relationAddress 41, relationAddress 42]) :=
    ⟨by decide, by decide⟩
  rintro x ⟨d, hd, hp, hc, hx⟩
  have hstart : ∀ d ∈ autoOwnerCatalog, d.deptype ≠ 'p' →
      (relationAddress 40).covers d.referenced →
        d.depender ∈ [relationAddress 41, relationAddress 42] := by decide
  have hout : ∀ x ∈ [relationAddress 41, relationAddress 42],
      ¬ (x.classId = (relationAddress 40).classId ∧
        x.objectId = (relationAddress 40).objectId) := by decide
  exact hout x (DeletionClosure.minimal hQ (hstart d hd hp hc) hx)

theorem deleteWhatDependsOn_spares_target_auto :
    (∀ x, DependentsClosure autoOwnerCatalog (relationAddress 40) x →
      ¬ (x.classId = (relationAddress 40).classId ∧ x.objectId = (relationAddress 40).objectId)) ∧
    (∀ x ∈ (finalState (deleteWhatDependsOn (exampleEnv fun _ => 0) 5 (relationAddress 40) true
        (DropState.init autoOwnerCatalog))).deleted, ¬ (relationAddress 40).covers x) ∧
      ∀ t ∈ (DropState.init autoOwnerCatalog).depRel, (relationAddress 40).covers t.form.depender →
        t ∈ (finalState (deleteWhatDependsOn (exampleEnv fun _ => 0) 5 (relationAddress 40) true
          (DropState.init autoOwnerCatalog))).depRel :=
  ⟨autoOwner_dependents_apart, deleteWhatDependsOn_spares_target (exampleEnv fun _ => 0) 5 _ _ true
    autoOwner_dependents_apart⟩

/-! ## Re-entry -/

/-- Relation `41` depends on relation `40`, relation `42` on `41`, and `42` is
owned by `40` through an INTERNAL entry. No object has two INTERNAL entries, and
every entry goes from a higher object id to a lower one, so there is no cycle. -/
def reentryCatalog : List FormDataPgDepend :=
  [.ofAddresses (relationAddress 41) (relationAddress 40) 'n',
    .ofAddresses (relationAddress 42) (relationAddress 41) 'n',
    .ofAddresses (relationAddress 42) (relationAddress 40) 'i']

/-- Dropping relation `40` with CASCADE, when the scan of its dependents returns
the entry from `41` first: `41` leads to `42`, which hands the deletion back to
its owner `40`. That inner run deletes `42` and `40`; then `41` is deleted, and
the outer run passes `40` to `doDeletion` once more. -/
theorem performDeletion_deletes_twice :
    CatalogInvariants reentryCatalog ∧
      (∀ d ∈ reentryCatalog, d.referenced.objectId < d.depender.objectId) ∧
      (finalState (performDeletion (exampleEnv fun _ => 0) 5 (relationAddress 40) .dropCascade
        (DropState.init reentryCatalog))).deleted =
        [relationAddress 42, relationAddress 40, relationAddress 41, relationAddress 40] := by
  decide

/-- `deleteWhatDependsOn` on relation `40` follows the same path and drops
relation `40` itself. -/
theorem deleteWhatDependsOn_drops_target :
    CatalogInvariants reentryCatalog ∧
      raised (deleteWhatDependsOn (exampleEnv fun _ => 0) 5 (relationAddress 40) true
        (DropState.init reentryCatalog)) = none ∧
      (finalState (deleteWhatDependsOn (exampleEnv fun _ => 0) 5 (relationAddress 40) true
        (DropState.init reentryCatalog))).deleted =
        [relationAddress 42, relationAddress 40, relationAddress 41] := by
  decide

/-- Relation `32` depends on column `1` of relation `30`, relation `33` on `32`,
and `33` is owned by that column through an INTERNAL entry. -/
def columnOwnerCatalog : List FormDataPgDepend :=
  [.ofAddresses (relationAddress 32) (columnAddress 30 1) 'n',
    .ofAddresses (relationAddress 33) (relationAddress 32) 'n',
    .ofAddresses (relationAddress 33) (columnAddress 30 1) 'i']

/-- Dropping relation `30` with CASCADE returns, after passing each object to
`doDeletion` once; but `32`, which depends on column `1` of `30`, is deleted
after the column: `33`, reached from `32`, hands the deletion to the column it
belongs to while `32` is still in progress. -/
theorem column_dropped_before_dependent :
    CatalogInvariants columnOwnerCatalog ∧
      (∀ d ∈ columnOwnerCatalog, d.referenced.objectId < d.depender.objectId) ∧
      raised (performDeletion (exampleEnv fun _ => 0) 5 (relationAddress 30) .dropCascade
        (DropState.init columnOwnerCatalog)) = none ∧
      (finalState (performDeletion (exampleEnv fun _ => 0) 5 (relationAddress 30) .dropCascade
        (DropState.init columnOwnerCatalog))).deleted =
        [relationAddress 33, columnAddress 30 1, relationAddress 32, relationAddress 30] := by
  decide

end CatalogDependency
