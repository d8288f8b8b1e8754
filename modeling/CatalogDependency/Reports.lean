import CatalogDependency.Soundness

/-!
The messages of a deletion run, and the RESTRICT verdict of `recursiveDeletion`.

Every message of a run of `performDeletion` names members of the deletion
closure of the target, and every RESTRICT violation or cascade notice names a
member missing from the `oktodelete` list of the pre-scan
(`performDeletion_messages_sound`). Which members get named depends on the
order of the scans. Under CASCADE an object reached along an AUTO entry is
dropped silently (`cascade_notices_depend_on_order`); under RESTRICT the same
happens to violations (`restrict_violations_depend_on_order`), although the
header of `recursiveDeletion` says the `oktodelete` list makes the behavior
independent of the order in which `pg_depend` entries are visited.

A `recursiveDeletion` that answers `false` has reported a RESTRICT violation
(`recursiveDeletion_false_reports`), so a refusal under RESTRICT always names a
closure member missing from `oktodelete` (`restrict_refusal_names_missing_member`).
The converse fails: when a whole object is owned through one of its columns,
the owner deletes only the column, and whether the whole object's dependents
are ever examined depends on the scan order
(`restrict_verdict_depends_on_order`).
-/

namespace CatalogDependency

/-! ## Messages -/

/-- A sound run whose messages are sound for `oktodelete`. -/
def Announced (heap : List HeapTuple) (P : ObjectAddress → Prop) (oktodelete : ObjectAddresses)
    (s : DropState) : Prop :=
  Sound heap P s ∧ ∀ m ∈ s.messages, MessageSound P oktodelete m.2

theorem Announced.deletionInvariant {heap : List HeapTuple} {P : ObjectAddress → Prop}
    (hP : ClosedUnder (heap.map HeapTuple.form) P) (oktodelete : ObjectAddresses) :
    DeletionInvariant P oktodelete (Announced heap P oktodelete) :=
  have hS := Sound.deletionInvariant hP oktodelete
  { closed := fun s h => hS.closed s h.1
    congr := fun s s' h1 h2 h3 h => ⟨hS.congr s s' h1 h2 h3 h.1, h3 ▸ h.2⟩
    report := fun s level msg hm h => ⟨hS.report s level msg hm h.1, fun m hm' =>
      (List.mem_append.mp hm').elim (h.2 m) fun e => by rw [List.mem_singleton.mp e]; exact hm⟩
    sever := fun s object t hobj hc hp h => ⟨hS.sever s object t hobj hc hp h.1, h.2⟩
    destroy := fun s object hobj hclean h => ⟨hS.destroy s object hobj hclean h.1, h.2⟩ }

/-- The state in which `performDeletion` starts `recursiveDeletion`: the
pre-scan changed only the scan counter, and `alreadyDeleted` is `NULL`. -/
theorem announced_after_prescan (env : DropEnv) (fuel : Nat) (rel : List FormDataPgDepend)
    (target : ObjectAddress) {oktodelete : ObjectAddresses} {s₁ : DropState}
    (hokt : findAutoDeletableObjects env fuel target newObjectAddresses true (DropState.init rel) =
      .ok oktodelete s₁) :
    Announced (DropState.init rel).depRel (DeletionClosure rel target) oktodelete
      (s₁.updateAlreadyDeleted fun _ => none) := by
  have hs := findAutoDeletableObjects_frame env fuel target newObjectAddresses true
    (DropState.init rel)
  rw [hokt, finalState_ok] at hs
  have hJ := Announced.deletionInvariant (DeletionClosure.closedUnder rel target).init oktodelete
  exact hJ.congr s₁ _ rfl rfl rfl
    (hJ.congr _ s₁ hs.1 hs.2.1 hs.2.2.1 ⟨Sound.init rel, by simp [DropState.init]⟩)

/-- Relation `51` depends on the target `10`, `52` is AUTO on `51`, and `53`
is INTERNAL to `52` and depends on `10`. -/
def noticeCatalog : List FormDataPgDepend :=
  [.ofAddresses (relationAddress 51) (relationAddress 10) 'n',
    .ofAddresses (relationAddress 52) (relationAddress 51) 'a',
    .ofAddresses (relationAddress 53) (relationAddress 52) 'i',
    .ofAddresses (relationAddress 53) (relationAddress 10) 'n']

/-- Dropping relation `10` with CASCADE gives one NOTICE when the scan of its
dependents returns the entry from `51` first, and three when it returns the
entry from `53` first: reached from `51` through AUTO and INTERNAL entries,
`52` and `53` are dropped silently. -/
theorem cascade_notices_depend_on_order :
    CatalogInvariants noticeCatalog ∧
      raised (performDeletion (exampleEnv fun _ => 0) 4 (relationAddress 10) .dropCascade
        (DropState.init noticeCatalog)) = none ∧
      raised (performDeletion (exampleEnv fun _ => 1) 4 (relationAddress 10) .dropCascade
        (DropState.init noticeCatalog)) = none ∧
      ((finalState (performDeletion (exampleEnv fun _ => 0) 4 (relationAddress 10) .dropCascade
        (DropState.init noticeCatalog))).messages.filter fun m => m.1 == .notice) =
        [(.notice, .cascadesTo (relationAddress 51))] ∧
      ((finalState (performDeletion (exampleEnv fun _ => 1) 4 (relationAddress 10) .dropCascade
        (DropState.init noticeCatalog))).messages.filter fun m => m.1 == .notice) =
        [(.notice, .cascadesTo (relationAddress 53)), (.notice, .cascadesTo (relationAddress 52)),
          (.notice, .cascadesTo (relationAddress 51))] := by
  decide

/-- **The RESTRICT violations depend on the scan order.** Dropping relation
`10` with RESTRICT is refused in both scan orders. When the scan of its
dependents returns the entry from `51` first, `52` and `53` are reached from
`51` along AUTO and INTERNAL entries and dropped silently, and the one
violation names `51`. When it returns the entry from `53` first, the
violations name `53`, its owner `52` and `51`. No entry of the catalog is from
a column. The header of `recursiveDeletion` says that RESTRICT mode reports all
the direct and indirect dependencies, and that the `oktodelete` list makes the
behavior independent of the order in which `pg_depend` entries are visited. -/
theorem restrict_violations_depend_on_order :
    CatalogInvariants noticeCatalog ∧
      raised (performDeletion (exampleEnv fun _ => 0) 4 (relationAddress 10) .dropRestrict
        (DropState.init noticeCatalog)) = some (.othersDependOnIt (relationAddress 10)) ∧
      raised (performDeletion (exampleEnv fun _ => 1) 4 (relationAddress 10) .dropRestrict
        (DropState.init noticeCatalog)) = some (.othersDependOnIt (relationAddress 10)) ∧
      ((finalState (performDeletion (exampleEnv fun _ => 0) 4 (relationAddress 10) .dropRestrict
        (DropState.init noticeCatalog))).messages.filter fun m => m.1 == .notice) =
        [(.notice, .dependsOn (relationAddress 51) (relationAddress 10))] ∧
      ((finalState (performDeletion (exampleEnv fun _ => 1) 4 (relationAddress 10) .dropRestrict
        (DropState.init noticeCatalog))).messages.filter fun m => m.1 == .notice) =
        [(.notice, .dependsOn (relationAddress 53) (relationAddress 10)),
          (.notice, .dependsOn (relationAddress 52) (relationAddress 53)),
          (.notice, .dependsOn (relationAddress 51) (relationAddress 10))] := by
  decide

/-! ## The RESTRICT verdict -/

/-- Some RESTRICT violation has been reported. -/
def Violated (s : DropState) : Prop :=
  ∃ level other object, (level, DropMessage.dependsOn other object) ∈ s.messages

theorem Violated.evolves {s s' : DropState} (h : Violated s) (hev : Evolves s s') : Violated s' :=
  let ⟨level, other, object, hm⟩ := h
  ⟨level, other, object, hev.messages_prefix.subset hm⟩

theorem Violated.report {s : DropState} (h : Violated s) (ms : List (ElogLevel × DropMessage)) :
    Violated { s with messages := s.messages ++ ms } :=
  h.evolves (Evolves.report s ms)

/-- A report that answers `false` is a RESTRICT violation. -/
theorem Reported.violated {behavior : DropBehavior} {oktodelete : ObjectAddresses}
    {other object : ObjectAddress} {msg : DropMessage}
    (h : Reported behavior oktodelete other object false msg) (s : DropState) (level : ElogLevel) :
    Violated { s with messages := s.messages ++ [(level, msg)] } := by
  rcases h with ⟨-, h, -⟩ | ⟨-, -, -, rfl⟩ | ⟨-, -, h, -⟩
  · cases h
  · exact ⟨level, other, object, by simp⟩
  · cases h

section Verdict

variable (env : DropEnv) (behavior : DropBehavior) (msglevel : ElogLevel)
  (oktodelete : ObjectAddresses)

/-- One entry of Step 2 keeps the fact that a `false` answer so far has been
reported, when the recursion answers `false` only after a report. -/
theorem dropDependent_false_reports {recurse : ObjectAddress → Option ObjectAddress → DropM Bool}
    (hrec : ∀ o c, Steps Evolves (recurse o c))
    (hfalse : ∀ o c {s s' : DropState}, recurse o c s = .ok false s' → Violated s')
    {object : ObjectAddress} {t : HeapTuple} {acc acc' : Bool} {s s' : DropState}
    (hI : acc = false → Violated s)
    (hd : dropDependent env behavior msglevel oktodelete recurse object t acc s = .ok acc' s') :
    acc' = false → Violated s' := by
  intro hf
  rcases dropDependent_cases env behavior msglevel oktodelete recurse object t acc s with
    ⟨-, _, -, e⟩ | ⟨-, fine, level, msg, hn, ha, e⟩ <;> rw [e] at hd
  · cases hd
  obtain ⟨r, s₁, hr, hp⟩ := bind_eq_ok.mp hd
  cases hp
  have hev := Steps.of_ok (hrec _ _) hr
  cases acc
  · exact ((hI rfl).report _).evolves hev
  cases fine
  · by_cases hnorm : t.form.deptype = 'n'
    · exact ((hn hnorm).violated s level).evolves hev
    · cases (ha hnorm).1
  cases r
  · exact hfalse _ _ hr
  · cases hf

/-- Step 2 answers `false` only after a reported violation. -/
theorem deleteDependentObjects_false_reports
    {recurse : ObjectAddress → Option ObjectAddress → DropM Bool}
    (hrec : ∀ o c, Steps Evolves (recurse o c))
    (hfalse : ∀ o c {s s' : DropState}, recurse o c s = .ok false s' → Violated s')
    {object : ObjectAddress} {s s' : DropState}
    (h : deleteDependentObjects env behavior msglevel oktodelete recurse object s = .ok false s') :
    Violated s' :=
  have ⟨_, hI, _⟩ := caqlBeginscan_ok env (fun _ acc s => acc = false → Violated s)
    (fun _ _ _ h hf => (h hf).evolves (Evolves.runRel.scan _))
    (fun _ _ _ _ _ _ hI _ _ _ hd => dropDependent_false_reports env behavior msglevel oktodelete
      hrec hfalse hI hd)
    (fun h => by cases h) h
  hI rfl

/-- **Refusals are reported.** A `recursiveDeletion` that answers `false` has
reported a RESTRICT violation. -/
theorem recursiveDeletion_false_reports :
    ∀ fuel object callingObject {s s' : DropState},
      recursiveDeletion env behavior msglevel oktodelete fuel object callingObject s =
        .ok false s' → Violated s' := by
  intro fuel
  induction fuel with
  | zero => intro _ _ _ _ h; cases h
  | succ fuel ih =>
    intro object callingObject s s' h
    have hrec := recursiveDeletion_evolves env behavior msglevel oktodelete fuel
    obtain ⟨owning, s₁, -, hb⟩ := recursiveDeletion_ok_cases env behavior msglevel oktodelete h
    rcases hb with ⟨-, hb⟩ | ⟨w, -, hb⟩
    · -- Steps 2 and 3: Step 2 answered `false`, and the rest only adds to the state
      obtain ⟨ok, s₂, hdd, hb⟩ := bind_eq_ok.mp hb
      obtain ⟨_, s₃, hdel, hb⟩ := bind_eq_ok.mp hb
      obtain ⟨_, s₄, hnote, hb⟩ := bind_eq_ok.mp hb
      cases hb
      exact ((deleteDependentObjects_false_reports env behavior msglevel oktodelete hrec
        (fun o c _ _ => ih o c) hdd).evolves
          (Steps.of_ok (doDeletion_evolves env object) hdel)).evolves
        (Steps.of_ok (noteDeleted_evolves object) hnote)
    · -- the owner branch: the report or the owner answered `false`
      obtain ⟨fine, level, msg, e, hr⟩ :=
        reportCascade_cases env behavior msglevel oktodelete w object s₁
      rw [bind_of_ok e] at hb
      obtain ⟨r, s₂, hown, hp⟩ := bind_eq_ok.mp hb
      cases fine <;> cases r <;> cases hp
      case true.false.refl => exact ih _ _ hown
      all_goals exact (hr.violated s₁ level).evolves (Steps.of_ok (hrec _ _) hown)

end Verdict

/-- The RESTRICT violations that the `recursiveDeletion` of `performDeletion`
reports name members of the deletion closure not present in `oktodelete`. -/
theorem recursiveDeletion_violations_missing (env : DropEnv) (fuel : Nat)
    (rel : List FormDataPgDepend) (target : ObjectAddress) (behavior : DropBehavior)
    {oktodelete : ObjectAddresses} {s₁ s : DropState} {b : Bool}
    (hokt : findAutoDeletableObjects env fuel target newObjectAddresses true (DropState.init rel) =
      .ok oktodelete s₁)
    (h : recursiveDeletion env behavior .notice oktodelete fuel target none
      (s₁.updateAlreadyDeleted fun _ => none) = .ok b s)
    {level : ElogLevel} {other object : ObjectAddress}
    (hm : (level, DropMessage.dependsOn other object) ∈ s.messages) :
    DeletionClosure rel target other ∧ objectAddressPresent other oktodelete = false := by
  have hJ := Announced.deletionInvariant (DeletionClosure.closedUnder rel target).init oktodelete
  have hA := recursiveDeletion_keeps env behavior .notice oktodelete hJ fuel target .target none _
    (announced_after_prescan env fuel rel target hokt)
  rw [h, finalState_ok] at hA
  exact hA.2 _ hm

/-- **Refusals name missing members.** When the `recursiveDeletion` that
`performDeletion` runs on its target answers `false`, it has reported that a
member of the deletion closure not present in `oktodelete` depends on an
object being deleted. -/
theorem restrict_refusal_names_missing_member (env : DropEnv) (fuel : Nat)
    (rel : List FormDataPgDepend) (target : ObjectAddress) (behavior : DropBehavior)
    {oktodelete : ObjectAddresses} {s₁ s : DropState}
    (hokt : findAutoDeletableObjects env fuel target newObjectAddresses true (DropState.init rel) =
      .ok oktodelete s₁)
    (h : recursiveDeletion env behavior .notice oktodelete fuel target none
      (s₁.updateAlreadyDeleted fun _ => none) = .ok false s) :
    ∃ level other object, (level, DropMessage.dependsOn other object) ∈ s.messages ∧
      DeletionClosure rel target other ∧ objectAddressPresent other oktodelete = false := by
  obtain ⟨level, other, object, hm⟩ :=
    recursiveDeletion_false_reports env behavior .notice oktodelete fuel target none h
  exact ⟨level, other, object, hm,
    recursiveDeletion_violations_missing env fuel rel target behavior hokt h hm⟩

theorem restrict_refusal_names_missing_member_lost :
    ∃ oktodelete s₁ s, findAutoDeletableObjects (exampleEnv fun _ => 1) 4 (relationAddress 10)
        newObjectAddresses true (DropState.init lostWholeCatalog) = .ok oktodelete s₁ ∧
      recursiveDeletion (exampleEnv fun _ => 1) .dropRestrict .notice oktodelete 4
        (relationAddress 10) none (s₁.updateAlreadyDeleted fun _ => none) = .ok false s ∧
      ∃ level other object, (level, DropMessage.dependsOn other object) ∈ s.messages ∧
        DeletionClosure lostWholeCatalog (relationAddress 10) other ∧
        objectAddressPresent other oktodelete = false :=
  ⟨_, _, _, rfl, rfl,
    restrict_refusal_names_missing_member (exampleEnv fun _ => 1) 4 _ _ .dropRestrict rfl rfl⟩

/-- Dropping relation `10` with RESTRICT is refused when the scan of its
dependents returns the AUTO entry from `13` first, and allowed when it returns
the INTERNAL entry from `20` first, although `21` is in the deletion closure
and not in `oktodelete` either way: Step 1 of `20` hands the deletion to `13`,
which recurses back only into column `1`, so Step 2 of the whole relation
`20`, where `21` would be examined, never runs. -/
theorem restrict_verdict_depends_on_order :
    CatalogInvariants lostWholeCatalog ∧
      DeletionClosure lostWholeCatalog (relationAddress 10) (relationAddress 21) ∧
      (∃ oktodelete s₁, findAutoDeletableObjects (exampleEnv fun _ => 0) 4 (relationAddress 10)
          newObjectAddresses true (DropState.init lostWholeCatalog) = .ok oktodelete s₁ ∧
        objectAddressPresent (relationAddress 21) oktodelete = false) ∧
      raised (performDeletion (exampleEnv fun _ => 0) 4 (relationAddress 10) .dropRestrict
        (DropState.init lostWholeCatalog)) = none ∧
      raised (performDeletion (exampleEnv fun _ => 1) 4 (relationAddress 10) .dropRestrict
        (DropState.init lostWholeCatalog)) = some (.othersDependOnIt (relationAddress 10)) :=
  ⟨by decide, lostWhole_mem_closure.2, ⟨_, _, rfl, by decide⟩, by decide, by decide⟩

end CatalogDependency
