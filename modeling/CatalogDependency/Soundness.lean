import CatalogDependency.Closure

/-!
What every run of the three entry points leaves behind, from the catalog `rel`
it starts on, whether it returns or raises.

`Sound heap P s` says that the live tuples are tuples the run started with and
include every PIN tuple, that every object passed to `doDeletion` is a member
of `P`, that every tuple removed is an entry from an object a member covers,
and that no live entry is from or to an object passed to `doDeletion`. It holds
at the end of every run of `performDeletion` and `deleteWhatDependsOn` with `P`
the deletion closure of the target, and of `performMultipleDeletions` with `P`
the union of the closures of its targets.

Consequence: no pinned object is ever passed to `doDeletion`
(`pinned_objects_survive`).

A run of `performDeletion` that returns need not have passed every member of
the closure. A whole object takes the entries of its parts with it, so a part
that is a member is destroyed without being passed
(`whole_object_takes_part_entries`). A whole object owned through an INTERNAL
entry of one of its columns is handed to that owner, which recurses back only
into the column, and the whole object is never dropped
(`performDeletion_loses_whole_owned_through_column`).
-/

namespace CatalogDependency

/-! ## Sound runs -/

/-- The state of a run that started with the tuples `heap`, for the set `P`. -/
structure Sound (heap : List HeapTuple) (P : ObjectAddress → Prop) (s : DropState) : Prop where
  live : s.depRel ⊆ heap
  pinned : ∀ t ∈ heap, t.form.deptype = 'p' → t ∈ s.depRel
  deleted : ∀ x ∈ s.deleted, P x
  removed : ∀ t ∈ heap, t ∉ s.depRel → ∃ m, P m ∧ m.covers t.form.depender
  swept : ∀ x ∈ s.deleted, ∀ t ∈ s.depRel,
    ¬ x.covers t.form.depender ∧ ¬ x.covers t.form.referenced

namespace Sound

variable {heap : List HeapTuple} {P : ObjectAddress → Prop}

theorem init (rel : List FormDataPgDepend) :
    Sound (DropState.init rel).depRel P (DropState.init rel) where
  live := List.Subset.refl _
  pinned _ h _ := h
  deleted := by simp [DropState.init]
  removed _ ht hn := absurd ht hn
  swept := by simp [DropState.init]

theorem deletionInvariant (hP : ClosedUnder (heap.map HeapTuple.form) P)
    (oktodelete : ObjectAddresses) : DeletionInvariant P oktodelete (Sound heap P) where
  closed _ h := hP.mono (List.map_subset _ h.live)
  congr _ _ h1 h2 _ h :=
    ⟨h1 ▸ h.live, h1 ▸ h.pinned, h2 ▸ h.deleted, h1 ▸ h.removed, by rw [h1, h2]; exact h.swept⟩
  report _ _ _ _ h := ⟨h.1, h.2, h.3, h.4, h.5⟩
  sever s object t hobj hc hp h := by
    have hmem : ∀ u, u ∈ s.depRel.filter (fun u => decide (u ≠ t)) ↔ u ∈ s.depRel ∧ u ≠ t := by
      simp
    refine ⟨fun u hu => h.live ((hmem u).mp hu).1,
      fun u hu hpin => (hmem u).mpr ⟨h.pinned u hu hpin, fun e => hp (e ▸ hpin)⟩, h.deleted,
      fun u hu hn => ?_, fun x hx u hu => h.swept x hx u ((hmem u).mp hu).1⟩
    by_cases e : u = t
    · exact ⟨object, hobj, e ▸ hc⟩
    · exact h.removed u hu fun hl => hn ((hmem u).mpr ⟨hl, e⟩)
  destroy s object hobj hclean h := by
    have hx : ∀ x ∈ s.deleted ++ [object], x ∈ s.deleted ∨ x = object := by simp
    exact ⟨h.live, h.pinned, fun x hm => (hx x hm).elim (h.deleted x) (· ▸ hobj), h.removed,
      fun x hm => (hx x hm).elim (h.swept x) (· ▸ hclean)⟩

end Sound

theorem ClosedUnder.init {rel : List FormDataPgDepend} {P : ObjectAddress → Prop}
    (h : ClosedUnder rel P) : ClosedUnder ((DropState.init rel).depRel.map HeapTuple.form) P := by
  rw [DropState.init_depRel_form]
  exact h

/-! ## The entry points -/

section Entry

variable (env : DropEnv) (fuel : Nat) (rel : List FormDataPgDepend)

/-- Every run of `performDeletion` is sound for the closure of its target. -/
theorem performDeletion_sound (target : ObjectAddress) (behavior : DropBehavior) :
    Sound (DropState.init rel).depRel (DeletionClosure rel target)
      (finalState (performDeletion env fuel target behavior (DropState.init rel))) :=
  have hJ := Sound.deletionInvariant (DeletionClosure.closedUnder rel target).init
  performDeletion_steps env fuel (hJ newObjectAddresses).entryRel
    (fun okt => recursiveDeletion_keeps env behavior .notice okt (hJ okt) fuel target .target none)
    _ (Sound.init rel)

/-- Every run of `performMultipleDeletions` is sound for the union of the
closures of its targets. -/
theorem performMultipleDeletions_sound (objects : ObjectAddresses) (behavior : DropBehavior) :
    Sound (DropState.init rel).depRel (fun x => ∃ t ∈ objects.items, DeletionClosure rel t x)
      (finalState (performMultipleDeletions env fuel objects behavior (DropState.init rel))) :=
  have hJ := Sound.deletionInvariant (ClosedUnder.union rel objects.items).init
  performMultipleDeletions_steps env fuel (hJ newObjectAddresses).entryRel
    (fun o ho okt => recursiveDeletion_keeps env behavior .notice okt (hJ okt) fuel o
      ⟨o, ho, .target⟩ none)
    _ (Sound.init rel)

/-- Every run of `deleteWhatDependsOn` is sound for the closure of its target. -/
theorem deleteWhatDependsOn_sound (target : ObjectAddress) (showNotices : Bool) :
    Sound (DropState.init rel).depRel (DeletionClosure rel target)
      (finalState (deleteWhatDependsOn env fuel target showNotices (DropState.init rel))) :=
  have hJ := Sound.deletionInvariant (DeletionClosure.closedUnder rel target).init
  deleteWhatDependsOn_steps env fuel (hJ newObjectAddresses).entryRel
    (fun msglevel okt => deleteDependentObjects_keeps env .dropCascade msglevel okt (hJ okt)
      (recursiveDeletion_keeps env .dropCascade msglevel okt (hJ okt) fuel)
      ((hJ okt).dependentsIn .target))
    _ (Sound.init rel)

end Entry

/-! ## Pinned objects -/

/-- Every PIN entry of `rel` is still live, and no object passed to
`doDeletion` covers the object a PIN entry references. -/
def PinSafe (rel : List FormDataPgDepend) (s : DropState) : Prop :=
  (∀ t ∈ (DropState.init rel).depRel, t.form.deptype = 'p' → t ∈ s.depRel) ∧
    ∀ x ∈ s.deleted, ∀ d ∈ rel, d.deptype = 'p' → ¬ x.covers d.referenced

theorem Sound.pinSafe {rel : List FormDataPgDepend} {P : ObjectAddress → Prop} {s : DropState}
    (h : Sound (DropState.init rel).depRel P s) : PinSafe rel s := by
  refine ⟨h.pinned, fun x hx d hd hp => ?_⟩
  rw [← DropState.init_depRel_form rel] at hd
  obtain ⟨t, ht, rfl⟩ := List.mem_map.mp hd
  exact (h.swept x hx t (h.pinned t ht hp)).2

/-- **Pinned objects survive.** For every catalog, target or target list,
behavior and scan order, no run of the three entry points, returning or
raising, removes a PIN entry or passes to `doDeletion` an object covering one
that a PIN entry references. -/
theorem pinned_objects_survive (env : DropEnv) (fuel : Nat) (rel : List FormDataPgDepend) :
    (∀ target behavior,
      PinSafe rel (finalState (performDeletion env fuel target behavior (DropState.init rel)))) ∧
    (∀ objects behavior, PinSafe rel
      (finalState (performMultipleDeletions env fuel objects behavior (DropState.init rel)))) ∧
    ∀ target showNotices, PinSafe rel
      (finalState (deleteWhatDependsOn env fuel target showNotices (DropState.init rel))) :=
  ⟨fun target behavior => (performDeletion_sound env fuel rel target behavior).pinSafe,
    fun objects behavior => (performMultipleDeletions_sound env fuel rel objects behavior).pinSafe,
    fun target showNotices => (deleteWhatDependsOn_sound env fuel rel target showNotices).pinSafe⟩

/-! ## Runs that pass less than the closure -/

/-- Relation `31` depends on relation `30`, and column `2` of `30` depends on
`31`. -/
def subsumedColumnCatalog : List FormDataPgDepend :=
  [.ofAddresses (relationAddress 31) (relationAddress 30) 'n',
    .ofAddresses (columnAddress 30 2) (relationAddress 31) 'n']

/-- Column `2` of relation `30` is in the deletion closure of `30`, through `31`. -/
theorem subsumedColumn_mem_closure :
    DeletionClosure subsumedColumnCatalog (relationAddress 30) (columnAddress 30 2) :=
  .dependent (List.mem_cons_of_mem _ (List.mem_singleton_self _)) (by decide)
    (.dependent (List.mem_cons_self _ _) (by decide) .target (ObjectAddress.covers_refl _))
    (ObjectAddress.covers_refl _)

/-- Dropping relation `30` with CASCADE: column `2` of `30` is a member of the
deletion closure, but Step 1 of the whole relation removes the column's entry
before Step 2 of `31` can reach it, so only `31` and `30` are passed, the
column going with its relation. -/
theorem whole_object_takes_part_entries :
    CatalogInvariants subsumedColumnCatalog ∧
      DeletionClosure subsumedColumnCatalog (relationAddress 30) (columnAddress 30 2) ∧
      raised (performDeletion (exampleEnv fun _ => 0) 3 (relationAddress 30) .dropCascade
        (DropState.init subsumedColumnCatalog)) = none ∧
      (finalState (performDeletion (exampleEnv fun _ => 0) 3 (relationAddress 30) .dropCascade
        (DropState.init subsumedColumnCatalog))).deleted =
        [relationAddress 31, relationAddress 30] ∧
      (finalState (performDeletion (exampleEnv fun _ => 0) 3 (relationAddress 30) .dropCascade
        (DropState.init subsumedColumnCatalog))).depRel = [] :=
  ⟨by decide, subsumedColumn_mem_closure, by decide, by decide, by decide⟩

/-- A whole relation `20` is INTERNAL to the target `10` while its column `1`
is INTERNAL to `13`, which is AUTO on `10`; relation `21` depends on `20`. -/
def lostWholeCatalog : List FormDataPgDepend :=
  [.ofAddresses (relationAddress 20) (relationAddress 10) 'i',
    .ofAddresses (columnAddress 20 1) (relationAddress 13) 'i',
    .ofAddresses (relationAddress 21) (relationAddress 20) 'n',
    .ofAddresses (relationAddress 13) (relationAddress 10) 'a']

/-- Relation `20`, and `21` through it, are in the deletion closure of `10`. -/
theorem lostWhole_mem_closure :
    DeletionClosure lostWholeCatalog (relationAddress 10) (relationAddress 20) ∧
      DeletionClosure lostWholeCatalog (relationAddress 10) (relationAddress 21) :=
  have h20 : DeletionClosure lostWholeCatalog (relationAddress 10) (relationAddress 20) :=
    .dependent (d := .ofAddresses (relationAddress 20) (relationAddress 10) 'i') (by decide)
      (by decide) .target (ObjectAddress.covers_refl _)
  ⟨h20, .dependent (d := .ofAddresses (relationAddress 21) (relationAddress 20) 'n') (by decide)
    (by decide) h20 (ObjectAddress.covers_refl _)⟩

/-- **A whole object owned through a column is lost.** Dropping relation `10`
of `lostWholeCatalog` with CASCADE, the scan of `10`'s dependents returning the
INTERNAL entry from `20` first: Step 1 of the whole relation `20` removes that
entry, keeps the INTERNAL entry of its column `1` to `13` and hands the
deletion to `13`, which recurses back only into the column. The run returns
having passed the column, `13` and `10`: relation `20` and its dependent `21`,
members of the closure, are never passed, and the entry from `21` to `20` is
left, although case 3 keeps the INTERNAL link so that the owner recurses back
to the object. -/
theorem performDeletion_loses_whole_owned_through_column :
    CatalogInvariants lostWholeCatalog ∧
      DeletionClosure lostWholeCatalog (relationAddress 10) (relationAddress 20) ∧
      DeletionClosure lostWholeCatalog (relationAddress 10) (relationAddress 21) ∧
      raised (performDeletion (exampleEnv fun _ => 0) 4 (relationAddress 10) .dropCascade
        (DropState.init lostWholeCatalog)) = none ∧
      (finalState (performDeletion (exampleEnv fun _ => 0) 4 (relationAddress 10) .dropCascade
        (DropState.init lostWholeCatalog))).deleted =
        [columnAddress 20 1, relationAddress 13, relationAddress 10] ∧
      (finalState (performDeletion (exampleEnv fun _ => 0) 4 (relationAddress 10) .dropCascade
        (DropState.init lostWholeCatalog))).depRel.map HeapTuple.form =
        [.ofAddresses (relationAddress 21) (relationAddress 20) 'n'] :=
  ⟨by decide, lostWhole_mem_closure.1, lostWhole_mem_closure.2, by decide, by decide, by decide⟩

end CatalogDependency
