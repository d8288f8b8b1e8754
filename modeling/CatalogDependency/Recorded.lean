import CatalogDependency.RecordExpr
import CatalogDependency.Restrict

/-!
Recording and dropping together.

`recordDependencyOnExpr` writes one `pg_depend` entry from the depender for
each address `eliminate_duplicate_dependencies` keeps of the references the
walker finds, and the deletion functions follow those entries. The compaction
drops a whole object only for one of its parts
(`eliminateDuplicateDependencies_covers`), so every reference of the
expression covers a recorded one. Hence nothing the expression references can
be dropped while the depender stays: a `performDeletion` of it, or of anything
covering it, that returns has dropped the depender and removed every entry the
call recorded, and under RESTRICT it returns only when the depender goes with
the target (`recorded_depender_dropped_with_reference`).
-/

namespace CatalogDependency

/-- When the references of the expression are `refs`, the entries recorded are
one from `depender` of kind `behavior` for each address the compaction keeps. -/
theorem recordDependencyOnExpr_ok (env : ExprEnv) (fuel : Nat) (depender : ObjectAddress)
    (expr : Node) (rtable : List RangeTblEntry) (behavior : DependencyType)
    {refs : List ObjectAddress} (hrefs : exprRefs env fuel expr [rtable] = .ok refs) :
    recordDependencyOnExpr env fuel depender expr rtable behavior =
      .ok ((eliminateDuplicateDependencies (newObjectAddresses.pushAll refs)).items.map
        fun a => FormDataPgDepend.ofAddresses depender a behavior.toChar) := by
  have h := walker_matches env fuel expr [rtable]
  rw [hrefs] at h
  simp only [recordDependencyOnExpr, h newObjectAddresses]
  rfl

/-- **A recorded dependency keeps its depender from outliving what it
references.** Say `recordDependencyOnExpr` records, with a kind other than PIN,
the references `refs` of an expression, and the entries join a catalog whose
INTERNAL entries are from whole objects (the depender is whole if the kind is
INTERNAL). Then every `performDeletion` of an object covering one of `refs`
that returns, in any scan order, with any behavior and fuel, has destroyed the
depender and removed every entry recorded; under RESTRICT it returns only when
the depender is covered by the target or by an object reachable from it
through AUTO or INTERNAL entries. -/
theorem recorded_depender_dropped_with_reference (wenv : ExprEnv) (wfuel : Nat)
    (depender : ObjectAddress) (expr : Node) (rtable : List RangeTblEntry)
    (behavior : DependencyType) (hpin : behavior ≠ .dependencyPin)
    (hint : behavior = .dependencyInternal → depender.objectSubId = 0)
    {refs : List ObjectAddress} (hrefs : exprRefs wenv wfuel expr [rtable] = .ok refs)
    {entries : List FormDataPgDepend}
    (hrec : recordDependencyOnExpr wenv wfuel depender expr rtable behavior = .ok entries)
    (rel : List FormDataPgDepend) (hwhole : ∀ d ∈ rel, d.deptype = 'i' → d.depender.objectSubId = 0)
    (env : DropEnv) (fuel : Nat) {r target : ObjectAddress} (hr : r ∈ refs)
    (hcov : target.covers r) (dropBehavior : DropBehavior) {s : DropState}
    (h : performDeletion env fuel target dropBehavior (DropState.init (rel ++ entries)) = .ok () s) :
    Destroyed s depender ∧
      (∀ t ∈ (DropState.init (rel ++ entries)).depRel, t.form ∈ entries → t ∉ s.depRel) ∧
      (dropBehavior = .dropRestrict →
        target.covers depender ∨ ∃ y, AutoReachable (rel ++ entries) target y ∧ y.covers depender) := by
  have hentries := Except.ok.inj
    ((recordDependencyOnExpr_ok wenv wfuel depender expr rtable behavior hrefs).symm.trans hrec)
  have hform : ∀ d ∈ entries, d.depender = depender ∧ d.deptype = behavior.toChar := by
    rw [← hentries]
    simp
  have hwhole' : ∀ d ∈ rel ++ entries, d.deptype = 'i' → d.depender.objectSubId = 0 := by
    intro d hd hi
    rcases List.mem_append.mp hd with hd | hd
    · exact hwhole d hd hi
    · rw [(hform d hd).1]
      exact hint (by revert hi; rw [(hform d hd).2]; cases behavior <;> decide)
  -- the reference covers a kept address, whose entry leads from the target to the depender
  obtain ⟨a, ha, hra⟩ := eliminateDuplicateDependencies_covers (newObjectAddresses.pushAll refs)
    (by simpa using hr)
  have hmem : FormDataPgDepend.ofAddresses depender a behavior.toChar ∈ rel ++ entries :=
    List.mem_append_right _ (hentries ▸ List.mem_map_of_mem _ ha)
  have hclosure : DeletionClosure (rel ++ entries) target depender :=
    .dependent hmem
      (by rw [FormDataPgDepend.deptype_ofAddresses]; cases behavior <;> first | decide | exact absurd rfl hpin)
      .target (ObjectAddress.covers_trans hcov hra)
  have hdestroyed : Destroyed s depender :=
    (performDeletion_destroyed_iff env fuel hwhole' h depender).mpr
      ⟨depender, hclosure, depender.covers_refl⟩
  obtain ⟨hs, -, hacc⟩ := performDeletion_completes env fuel hwhole' h
  refine ⟨hdestroyed, fun t ht hte hts => ((hs.mem_depRel_iff hacc ht).mp hts).1 ?_, ?_⟩
  · rw [(hform _ hte).1]
    exact hdestroyed
  · rintro rfl
    exact performDeletion_restrict_destroyed env fuel _ target h hdestroyed

/-- An index `97` on an expression over column `2` of table `90`, recorded as
AUTO: dropping the table under RESTRICT goes through and takes the index. -/
theorem recorded_depender_dropped_with_reference_index :
    ∃ refs entries s, exprRefs exampleExprEnv 2 (.var 1 2 0) [[.relation 90]] = .ok refs ∧
      columnAddress 90 2 ∈ refs ∧
      recordDependencyOnExpr exampleExprEnv 2 (relationAddress 97) (.var 1 2 0) [.relation 90]
        .dependencyAuto = .ok entries ∧
      performDeletion (exampleEnv fun _ => 0) 5 (relationAddress 90) .dropRestrict
        (DropState.init (toastedTableCatalog ++ entries)) = .ok () s ∧
      Destroyed s (relationAddress 97) ∧
      (∀ t ∈ (DropState.init (toastedTableCatalog ++ entries)).depRel,
        t.form ∈ entries → t ∉ s.depRel) ∧
      (DropBehavior.dropRestrict = .dropRestrict → (relationAddress 90).covers (relationAddress 97) ∨
        ∃ y, AutoReachable (toastedTableCatalog ++ entries) (relationAddress 90) y ∧
          y.covers (relationAddress 97)) :=
  ⟨_, _, _, rfl, by decide, rfl, rfl,
    recorded_depender_dropped_with_reference exampleExprEnv 2 (relationAddress 97) (.var 1 2 0)
      [.relation 90] .dependencyAuto (by decide) (by decide) rfl rfl _ (by decide)
      (exampleEnv fun _ => 0) 5 (r := columnAddress 90 2) (by decide) (by decide) _ rfl⟩

end CatalogDependency
