import CatalogDependency.MultipleCompleteness

/-!
Deleting several targets at once against deleting them one by one.

The comment of `performMultipleDeletions` compares it with issuing one
`performDeletion` per target: the only difference meant is that the implicit
list is the union of those of all targets, which makes each RESTRICT check
more relaxed. `performDeletions` is that sequence of calls. A `performDeletion`
that returns from a swept state reached from the catalog destroys the
deletion closure of its target over the whole catalog, on top of what was
destroyed before (`performDeletion_from`), so a sequence that returns has
destroyed the union of the closures of its targets. When both return, the two
ways leave the same `pg_depend` tuples and have destroyed the same addresses
(`performMultipleDeletions_agrees_with_performDeletions`).
-/

namespace CatalogDependency

/-- Issuing one `performDeletion` per target, in order. -/
def performDeletions (env : DropEnv) (fuel : Nat) (behavior : DropBehavior) :
    List ObjectAddress → DropM Unit
  | [] => pure ()
  | t :: rest => performDeletion env fuel t behavior >>= fun _ =>
      performDeletions env fuel behavior rest

theorem DeletionClosure.mono {rel rel' : List FormDataPgDepend} {target x : ObjectAddress}
    (h : DeletionClosure rel' target x) (hsub : rel' ⊆ rel) : DeletionClosure rel target x :=
  DeletionClosure.minimal ((DeletionClosure.closedUnder rel target).mono hsub) .target h

theorem Destroyed.not_init {rel : List FormDataPgDepend} {x : ObjectAddress} :
    ¬ Destroyed (DropState.init rel) x :=
  fun ⟨_, h, _⟩ => List.not_mem_nil _ h

theorem coveredBy_cons {P : ObjectAddress → ObjectAddress → Prop} {t x : ObjectAddress}
    {rest : List ObjectAddress} :
    CoveredBy (fun y => ∃ t' ∈ t :: rest, P t' y) x ↔
      CoveredBy (P t) x ∨ CoveredBy (fun y => ∃ t' ∈ rest, P t' y) x := by
  constructor
  · rintro ⟨y, ⟨t', ht', hy⟩, hc⟩
    rcases List.mem_cons.mp ht' with rfl | ht'
    · exact .inl ⟨y, hy, hc⟩
    · exact .inr ⟨y, ⟨t', ht', hy⟩, hc⟩
  · rintro (⟨y, hy, hc⟩ | ⟨y, ⟨t', ht', hy⟩, hc⟩)
    · exact ⟨y, ⟨t, List.mem_cons_self _ _, hy⟩, hc⟩
    · exact ⟨y, ⟨t', List.mem_cons_of_mem _ ht', hy⟩, hc⟩

/-- Over the live entries of a swept state, adding the objects passed to
`doDeletion` keeps a set closed: no live entry is from or to one of them. -/
theorem Swept.closedUnder_or_deleted {s : DropState} (hs : Swept s) {Q : ObjectAddress → Prop}
    (hQ : ClosedUnder (s.depRel.map HeapTuple.form) Q) :
    ClosedUnder (s.depRel.map HeapTuple.form) (fun x => x ∈ s.deleted ∨ Q x) := by
  constructor
  · rintro d hd hp m (hm | hm) hc
    · obtain ⟨u, hu, rfl⟩ := List.mem_map.mp hd
      exact absurd hc (hs m hm u hu).2
    · exact .inr (hQ.dependent d hd hp m hm hc)
  · rintro d hd hi m (hm | hm) hc
    · obtain ⟨u, hu, rfl⟩ := List.mem_map.mp hd
      exact absurd hc (hs m hm u hu).1
    · exact .inr (hQ.owner d hd hi m hm hc)

section Sequence

variable (env : DropEnv) (fuel : Nat) (behavior : DropBehavior) {rel : List FormDataPgDepend}
  (hwhole : ∀ d ∈ rel, d.deptype = 'i' → d.depender.objectSubId = 0)
include hwhole

/-- **One call of the sequence.** From a swept state reached from the catalog
`rel` that accounts for what it removed, a `performDeletion` that returns
destroys what was destroyed before and the deletion closure of its target over
`rel`, and nothing else. What it passes to `doDeletion` is in the closure over
the live entries, which the closure over `rel` contains; and the destroyed set
stays closed under `rel`, so it holds the whole closure over `rel`. -/
theorem performDeletion_from {target : ObjectAddress} {s₀ s : DropState}
    (hev₀ : Evolves (DropState.init rel) s₀) (hs₀ : Swept s₀)
    (hacc₀ : Accounted none (DropState.init rel) s₀)
    (h : performDeletion env fuel target behavior s₀ = .ok () s) :
    Evolves (DropState.init rel) s ∧ Swept s ∧ Accounted none (DropState.init rel) s ∧
      ∀ x, Destroyed s x ↔ Destroyed s₀ x ∨ CoveredBy (DeletionClosure rel target) x := by
  obtain ⟨okt, s₁, -, hrel, hdel, hr⟩ := performDeletion_ok_from env fuel h
  have hs₁ : Swept s₁ := by unfold Swept; rw [hrel, hdel]; exact hs₀
  obtain ⟨htarget, hacc⟩ := recursiveDeletion_completes (wholeOwners_init hwhole) fuel target
    none hr (hrel ▸ hev₀.depRel_subset) hs₁
  have hev : Evolves s₀ s := Steps.of_ok (performDeletion_steps env fuel Evolves.entryRel
    fun okt => recursiveDeletion_evolves env behavior .notice okt fuel target none) h
  have hs : Swept s := Steps.of_ok (recursiveDeletion_keeps env behavior .notice okt
    (Swept.deletionInvariant okt) fuel target trivial none) hr hs₁
  have hacc : Accounted none (DropState.init rel) s := hacc₀.trans (hacc.congr_left hrel) hev
  -- what it passes to `doDeletion` was destroyed or is in the closure over the live entries
  let P : ObjectAddress → Prop := fun x =>
    x ∈ s₀.deleted ∨ DeletionClosure (s₀.depRel.map HeapTuple.form) target x
  have hJ := Sound.deletionInvariant
    (hs₀.closedUnder_or_deleted (DeletionClosure.closedUnder _ target))
  have hsound : Sound s₀.depRel P s := by
    have := performDeletion_steps env fuel (hJ newObjectAddresses).entryRel
      (fun okt => recursiveDeletion_keeps env behavior .notice okt (hJ okt) fuel target
        (.inr .target) none) s₀
      ⟨List.Subset.refl _, fun _ h _ => h, fun _ hx => .inl hx, fun _ ht hn => absurd ht hn, hs₀⟩
    rwa [h, finalState_ok] at this
  have hsub : s₀.depRel.map HeapTuple.form ⊆ rel :=
    DropState.init_depRel_form rel ▸ List.map_subset _ hev₀.depRel_subset
  refine ⟨Evolves.runRel.trans hev₀ hev, hs, hacc, fun x => ⟨?_, ?_⟩⟩
  · rintro ⟨y, hy, hc⟩
    rcases hsound.deleted y hy with hy | hy
    · exact .inl ⟨y, hy, hc⟩
    · exact .inr ⟨y, hy.mono hsub, hc⟩
  · rintro (hx | ⟨y, hy, hc⟩)
    · exact hx.mono hev.deleted_prefix
    · exact (DeletionClosure.minimal (closedUnder_destroyed hs hacc) htarget hy).of_covers hc

/-- **The sequence.** Issuing one `performDeletion` per target, from such a
state, destroys, when every call returns, what was destroyed before and the
union of the closures of the targets over `rel`. -/
theorem performDeletions_from :
    ∀ (targets : List ObjectAddress) {s₀ s : DropState},
      Evolves (DropState.init rel) s₀ → Swept s₀ → Accounted none (DropState.init rel) s₀ →
      performDeletions env fuel behavior targets s₀ = .ok () s →
      Evolves (DropState.init rel) s ∧ Swept s ∧ Accounted none (DropState.init rel) s ∧
        ∀ x, Destroyed s x ↔
          Destroyed s₀ x ∨ CoveredBy (fun y => ∃ t ∈ targets, DeletionClosure rel t y) x
  | [], s₀, s, hev₀, hs₀, hacc₀, h => by
    cases h
    exact ⟨hev₀, hs₀, hacc₀, fun x => (or_iff_left fun ⟨_, ⟨_, ht, _⟩, _⟩ => nomatch ht).symm⟩
  | t :: rest, s₀, s, hev₀, hs₀, hacc₀, h => by
    obtain ⟨_, s₁, h₁, h⟩ := bind_eq_ok.mp h
    obtain ⟨hev₁, hs₁, hacc₁, hiff₁⟩ :=
      performDeletion_from env fuel behavior hwhole hev₀ hs₀ hacc₀ h₁
    obtain ⟨hev, hs, hacc, hiff⟩ := performDeletions_from rest hev₁ hs₁ hacc₁ h
    exact ⟨hev, hs, hacc, fun x => by rw [hiff, hiff₁, coveredBy_cons, or_assoc]⟩

end Sequence

/-- **Deleting together agrees with deleting one by one.** When the INTERNAL
entries of the catalog are from whole objects and no target sits below itself,
a `performMultipleDeletions` that returns leaves the same `pg_depend` tuples,
and has destroyed the same addresses, as issuing one `performDeletion` per
target, in any order, when every call returns, whatever the scan orders,
behaviors and fuel of the two. -/
theorem performMultipleDeletions_agrees_with_performDeletions (rel : List FormDataPgDepend)
    (hwhole : ∀ d ∈ rel, d.deptype = 'i' → d.depender.objectSubId = 0)
    (objects : ObjectAddresses)
    (hacyclic : ∀ t ∈ objects.items, ∀ y, AutoReachable rel t y → ¬ y.covers t)
    (targets : List ObjectAddress) (hmem : ∀ t, t ∈ targets ↔ t ∈ objects.items)
    (env₁ env₂ : DropEnv) (fuel₁ fuel₂ : Nat) (behavior₁ behavior₂ : DropBehavior)
    {s₁ s₂ : DropState}
    (h₁ : performMultipleDeletions env₁ fuel₁ objects behavior₁ (DropState.init rel) = .ok () s₁)
    (h₂ : performDeletions env₂ fuel₂ behavior₂ targets (DropState.init rel) = .ok () s₂) :
    s₁.depRel = s₂.depRel ∧ ∀ x, Destroyed s₁ x ↔ Destroyed s₂ x := by
  obtain ⟨hev₂, hs₂, hacc₂, hiff₂⟩ := performDeletions_from env₂ fuel₂ behavior₂ hwhole targets
    (Evolves.runRel.refl _) (Swept.of_deleted_nil rfl) (Accounted.of_subset (List.Subset.refl _)) h₂
  have hsame : ∀ x, Destroyed s₁ x ↔ Destroyed s₂ x := fun x => by
    rw [performMultipleDeletions_destroyed_iff env₁ fuel₁ hwhole hacyclic h₁, hiff₂,
      or_iff_right Destroyed.not_init]
    simp only [hmem]
  obtain ⟨hs₁, hacc₁, -⟩ := performMultipleDeletions_completes env₁ fuel₁ hwhole hacyclic h₁
  have hev₁ := Steps.of_ok (performMultipleDeletions_steps env₁ fuel₁ Evolves.entryRel
    fun o _ okt => recursiveDeletion_evolves env₁ behavior₁ .notice okt fuel₁ o none) h₁
  exact ⟨depRel_eq_of_destroyed_iff hev₁ hev₂ hs₁ hs₂ hacc₁ hacc₂ hsame, hsame⟩

/-- Dropping index `71` and table `70` together, and one after the other. -/
theorem performMultipleDeletions_agrees_with_performDeletions_index :
    ∃ s₁ s₂, performMultipleDeletions (exampleEnv fun _ => 0) 5
        (targetList [relationAddress 71, relationAddress 70]) .dropCascade
        (DropState.init indexedTableCatalog) = .ok () s₁ ∧
      performDeletions (exampleEnv fun _ => 1) 5 .dropCascade [relationAddress 71, relationAddress 70]
        (DropState.init indexedTableCatalog) = .ok () s₂ ∧
      s₁.depRel = s₂.depRel ∧ ∀ x, Destroyed s₁ x ↔ Destroyed s₂ x :=
  ⟨_, _, rfl, rfl, performMultipleDeletions_agrees_with_performDeletions indexedTableCatalog
    (by decide) _ indexedTable_targets_acyclic [relationAddress 71, relationAddress 70]
    (fun _ => Iff.rfl) (exampleEnv fun _ => 0) (exampleEnv fun _ => 1) 5 5 .dropCascade .dropCascade
    rfl rfl⟩

end CatalogDependency
