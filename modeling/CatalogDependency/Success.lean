import CatalogDependency.Refusals
import CatalogDependency.Restrict

/-!
When a deletion goes through.

Every error a deletion run raises is met at an object the run visits: a PIN
entry to or from it, an entry of unknown type at it, a class that
`getObjectDescription` does not know or `doDeletion` cannot drop, an INTERNAL
entry from the target itself, or a second INTERNAL entry from one object.
Besides these, only the refusal of RESTRICT and the model's `outOfFuel`
remain. The runs of `performDeletion` visit only members of the target's
deletion closure, so when no member meets one of these errors (`Droppable`),
the run raises only `outOfFuel` or, under RESTRICT, the refusal. Where
ownership is ranked (`OwnerRanked`), the fuel bounds of `Termination` and
`PreScan` rule out the first, and CASCADE never refuses, so a CASCADE deletion
returns (`performDeletion_goes_through`). The same holds of `performMultipleDeletions`
over the union of the closures of its targets, whatever targets its loops skip
(`performMultipleDeletions_goes_through`), and of `deleteWhatDependsOn`, which
never runs Step 1 on its target and so goes through even for an owned one
(`deleteWhatDependsOn_goes_through`).

Under RESTRICT, a refusal names a member of the closure that the pre-scan did
not find, and the pre-scan finds everything reachable through AUTO and
INTERNAL entries. With whole INTERNAL dependers the returns of
`performDeletion` name only such objects too, so its RESTRICT verdict is the
closure's and the scan order does not matter
(`performDeletion_restrict_verdict`).
-/

namespace CatalogDependency

variable {α β : Type}

/-- The classes `doDeletion` drops: every arm of its `switch` but the `default`
one, which roles, databases and tablespaces fall to. -/
def doDeletionDrops : Option ObjectClass → Bool
  | none | some .oclassRole | some .oclassDatabase | some .oclassTblspace => false
  | some _ => true

/-- What the members of `C` need of the catalog `rel` so that deleting them
meets none of the code's errors: a class that `doDeletion` drops, a known type
on every entry from or to them, no PIN entry there, and at most one INTERNAL
entry from each member and its parts. -/
structure Droppable (env : DropEnv) (rel : List FormDataPgDepend) (C : ObjectAddress → Prop) :
    Prop where
  droppable : ∀ x, C x → doDeletionDrops (getObjectClass env.objectClasses x) = true
  known : ∀ d ∈ rel, ∀ x, C x → x.covers d.depender ∨ x.covers d.referenced →
    DependencyType.ofChar d.deptype ≠ none
  unpinned : ∀ d ∈ rel, d.deptype = 'p' → ∀ x, C x →
    ¬ x.covers d.depender ∧ ¬ x.covers d.referenced
  oneInternal : ∀ x, C x →
    (rel.filter fun d => d.deptype = 'i' ∧ x.covers d.depender).length ≤ 1

theorem Droppable.mono {env : DropEnv} {rel : List FormDataPgDepend}
    {C Q : ObjectAddress → Prop} (hQ : Droppable env rel Q) (h : ∀ x, C x → Q x) :
    Droppable env rel C :=
  ⟨fun x hx => hQ.droppable x (h x hx), fun d hd x hx => hQ.known d hd x (h x hx),
    fun d hd hp x hx => hQ.unpinned d hd hp x (h x hx), fun x hx => hQ.oneInternal x (h x hx)⟩

/-- A known type other than PIN is one the loops of Steps 1 and 2 follow. -/
theorem DependencyType.ofChar_followed {c : Char} (h : DependencyType.ofChar c ≠ none)
    (hp : c ≠ 'p') : c = 'n' ∨ c = 'a' ∨ c = 'i' := by
  unfold DependencyType.ofChar at h
  split_ifs at h <;> simp_all

/-! ## Runs that raise only `outOfFuel` -/

/-- Every error `x` raises, from a state whose live entries are among `rel`,
is the model's `outOfFuel`. -/
def FuelOnly (rel : List FormDataPgDepend) (x : DropM α) : Prop :=
  ∀ s e s', List.Sublist (s.depRel.map HeapTuple.form) rel → x s = .error e s' → e = .outOfFuel

section FuelOnly

variable {rel : List FormDataPgDepend}

theorem FuelOnly.of_ok {x : DropM α} (h : ∀ s, ∃ a s', x s = .ok a s') : FuelOnly rel x := by
  intro s e s' _ he
  obtain ⟨a, s₁, h⟩ := h s
  rw [h] at he
  cases he

theorem FuelOnly.pure (a : α) : FuelOnly rel (pure a : DropM α) :=
  .of_ok fun s => ⟨a, s, rfl⟩

theorem FuelOnly.bind {x : DropM α} {f : α → DropM β} (hx : FuelOnly rel x)
    (hxe : Steps Evolves x) (hf : ∀ a, FuelOnly rel (f a)) : FuelOnly rel (x >>= f) := by
  intro s e s' hs h
  rcases bind_eq_error.mp h with h | ⟨a, s₁, hx', h⟩
  · exact hx s e s' hs h
  · exact hf a s₁ e s' (((hxe.of_ok hx').depRel_sublist.map _).trans hs) h

/-- A scan whose body raises only `outOfFuel` on the entries it is given. -/
theorem FuelOnly.caqlBeginscan (env : DropEnv) {key : FormDataPgDepend → Bool}
    {body : HeapTuple → α → DropM α}
    (hbody : ∀ t acc, key t.form = true → t.form ∈ rel → FuelOnly rel (body t acc))
    (hbe : ∀ t acc, Steps Evolves (body t acc)) (init : α) :
    FuelOnly rel (caqlBeginscan env key body init) := by
  intro s e s' hs h
  rcases caqlBeginscan_error env (fun _ _ s₁ => Evolves s s₁)
      (fun _ _ _ h => Evolves.runRel.trans h (Evolves.runRel.scan _))
      (fun _ acc _ t _ _ h _ _ _ hb => Evolves.runRel.trans h ((hbe t acc).of_ok hb))
      (Evolves.runRel.refl s) h with rfl | ⟨_, acc, s₁, t, hev, ht, hk, -, hb⟩
  · rfl
  · have hs₁ := (hev.depRel_sublist.map HeapTuple.form).trans hs
    exact hbody t acc hk (hs₁.subset (List.mem_map_of_mem _ ht)) s₁ e s' hs₁ hb

end FuelOnly

/-! ## The runs on a droppable set -/

section Runs

variable (env : DropEnv) (behavior : DropBehavior) (msglevel : ElogLevel)
  (oktodelete : ObjectAddresses) {rel : List FormDataPgDepend} {C : ObjectAddress → Prop}
  (hC : ClosedUnder rel C) (hD : Droppable env rel C)

include hD in
theorem getObjectDescription_of_droppable {object : ObjectAddress} (hobj : C object)
    (s : DropState) : getObjectDescription env object s = .ok () s := by
  have hdrop := hD.droppable object hobj
  unfold getObjectDescription
  cases hc : getObjectClass env.objectClasses object with
  | none => rw [hc] at hdrop; cases hdrop
  | some c => rfl

include hD in
theorem doDeletion_fuelOnly {object : ObjectAddress} (hobj : C object) :
    FuelOnly rel (doDeletion env object) := by
  have hdrop := hD.droppable object hobj
  intro s e s' _ h
  unfold doDeletion at h
  rw [bind_of_ok (modify_apply _ _)] at h
  revert hdrop h
  cases getObjectClass env.objectClasses object with
  | none => intro hdrop; cases hdrop
  | some c => cases c <;> intro hdrop h <;> first | exact absurd hdrop (by decide) | cases h

theorem reportCascade_fuelOnly (other object : ObjectAddress) :
    FuelOnly rel (reportCascade env behavior msglevel oktodelete other object) :=
  .of_ok fun s =>
    have ⟨_, _, _, h, _⟩ := reportCascade_cases env behavior msglevel oktodelete other object s
    ⟨_, _, h⟩

include hC hD in
/-- **Step 2, one entry.** An entry to a member of `C` is neither PIN nor of
unknown type, and its depender is in `C`. -/
theorem dropDependent_fuelOnly {recurse : ObjectAddress → Option ObjectAddress → DropM Bool}
    {object : ObjectAddress} (hrec : ∀ o, C o → FuelOnly rel (recurse o (some object)))
    (hrece : ∀ o c, Steps Evolves (recurse o c)) (hobj : C object) (t : HeapTuple)
    (ht : t.form ∈ rel) (hk : object.covers t.form.referenced) (ok : Bool) :
    FuelOnly rel (dropDependent env behavior msglevel oktodelete recurse object t ok) := by
  intro s e s' hs h
  have hnp : t.form.deptype ≠ 'p' := fun hp => (hD.unpinned _ ht hp object hobj).2 hk
  rcases dropDependent_cases env behavior msglevel oktodelete recurse object t ok s with
    ⟨hty, -⟩ | ⟨-, fine, level, msg, -, -, h'⟩
  · rcases DependencyType.ofChar_followed (hD.known _ ht object hobj (.inr hk)) hnp with
      h | h | h
    exacts [absurd h hty.1, absurd h hty.2.1, absurd h hty.2.2]
  · rw [h'] at h
    exact ((hrec _ (hC.dependent _ ht hnp object hobj hk)).bind (hrece _ _)
      fun r => .pure (ok && fine && r)) { s with messages := s.messages ++ [(level, msg)] } e s'
      hs h

include hC hD in
/-- **`recursiveDeletion` on a droppable set.** A call on a member of `C`, not
at the outermost level or on an object with no INTERNAL entry from it, raises
only `outOfFuel`: Step 1 meets only what `Droppable` excludes, an owner is the
other end of an INTERNAL entry and Step 2 recurses into dependers, all in `C`. -/
theorem recursiveDeletion_fuelOnly :
    ∀ fuel object callingObject, C object →
      (callingObject = none → ∀ d ∈ rel, d.deptype = 'i' → ¬ object.covers d.depender) →
      FuelOnly rel (recursiveDeletion env behavior msglevel oktodelete fuel object callingObject) := by
  intro fuel
  induction fuel with
  | zero => intro _ _ _ _ _ _ _ _ h; cases h; rfl
  | succ fuel ih =>
    intro object callingObject hobj htop s e s' hs h
    rw [recursiveDeletion_succ, bind_of_ok (getObjectDescription_of_droppable env hD hobj s)] at h
    have hrece := recursiveDeletion_evolves env behavior msglevel oktodelete fuel
    rcases bind_eq_error.mp h with h | ⟨owning, s₁, hsw, h⟩
    · -- Step 1 meets only what the catalog has from `object`
      have hmem : ∀ t ∈ s.depRel, t.form ∈ rel := fun t ht =>
        hs.subset (List.mem_map_of_mem _ ht)
      rcases sweep_error env callingObject h with he | ⟨-, t, ht, hp, hkey⟩ | ⟨-, h2⟩ |
        ⟨_, -, hnone, t, ht, hi, hkey⟩ | ⟨t, ht, -, hnone, hkey⟩
      · exact he
      · exact absurd hkey (hD.unpinned _ (hmem t ht) hp object hobj).1
      · have hle := (hs.filter fun d => d.deptype = 'i' ∧ object.covers d.depender).length_le
        rw [List.filter_map, List.length_map, Function.comp_def] at hle
        have := hD.oneInternal object hobj
        omega
      · exact absurd hkey (htop hnone _ (hmem t ht) hi)
      · exact absurd hnone (hD.known _ (hmem t ht) object hobj (.inl hkey))
    have hs₁ := ((Steps.of_ok (sweep_evolves env object callingObject) hsw).depRel_sublist.map
      HeapTuple.form).trans hs
    rcases owning with _ | w
    · -- Steps 2 and 3
      exact (FuelOnly.bind (FuelOnly.caqlBeginscan env (fun t acc hk ht =>
        dropDependent_fuelOnly env behavior msglevel oktodelete hC hD
          (fun o ho => ih o (some object) ho nofun) hrece hobj t ht ((referencedKey_iff _ _).mp hk)
          acc)
        (dropDependent_evolves env behavior msglevel oktodelete hrece object) true)
        (deleteDependentObjects_evolves env behavior msglevel oktodelete hrece object) fun _ =>
          (doDeletion_fuelOnly env hD hobj).bind (doDeletion_evolves env object) fun _ =>
            (FuelOnly.of_ok fun s => ⟨_, _, noteDeleted_apply object s⟩).bind
              (noteDeleted_evolves object) fun _ => .pure _) s₁ e s' hs₁ h
    · -- the owner is the other end of a live INTERNAL entry from `object`
      obtain ⟨t, ht, hkey, ⟨hi, -⟩, hwt⟩ := (sweep_ok env object callingObject hsw).2.2.1 w rfl
      have hw : C w := hwt ▸ hC.owner _ (hs₁.subset (List.mem_map_of_mem _ ht)) hi object hobj hkey
      dsimp only at h
      exact ((reportCascade_fuelOnly env behavior msglevel oktodelete w object).bind
        (reportCascade_evolves env behavior msglevel oktodelete w object) fun fine =>
          (ih w (some object) hw nofun).bind (hrece _ _) fun r => .pure (fine && r)) s₁ e s' hs₁ h

include hC hD in
/-- **The pre-scan on a droppable set** raises only `outOfFuel`: it follows
AUTO and INTERNAL entries to dependers in `C`, and meets no PIN entry and no
entry of unknown type. -/
theorem findAutoDeletableObjects_fuelOnly :
    ∀ fuel object okt addself, C object →
      FuelOnly rel (findAutoDeletableObjects env fuel object okt addself) := by
  intro fuel
  induction fuel with
  | zero => intro _ _ _ _ _ _ _ _ h; cases h; rfl
  | succ fuel ih =>
    intro object okt addself hobj
    rw [findAutoDeletableObjects_succ]
    split
    · exact .pure _
    refine FuelOnly.caqlBeginscan env (fun t okt hk ht => ?_) (collectAuto_evolves env fuel object) _
    have hk := (referencedKey_iff _ _).mp hk
    intro s e s' hs h
    unfold collectAuto at h
    rcases hc : DependencyType.ofChar t.form.deptype with _ | k <;> rw [hc] at h
    · exact absurd hc (hD.known _ ht object hobj (.inr hk))
    have hty := DependencyType.ofChar_eq_some.mp hc
    cases k
    case dependencyNormal => cases h
    case dependencyPin => exact absurd hk (hD.unpinned _ ht hty object hobj).2
    all_goals
      exact ih _ _ _ (hC.dependent _ ht (by rw [hty]; decide) object hobj hk) s e s' hs h

end Runs

/-! ## Entry points -/

section Entries

variable (env : DropEnv) (fuel : Nat) {rel : List FormDataPgDepend} {C : ObjectAddress → Prop}
  (hC : ClosedUnder rel C) (hD : Droppable env rel C)

include hC hD in
/-- The outermost `recursiveDeletion` and the check of its answer: running out
of fuel, or the refusal, which CASCADE never reaches. -/
theorem recursiveDeletion_check_error_cases {γ : Type} {behavior : DropBehavior}
    {okt : ObjectAddresses} {object : ObjectAddress} {k : Bool → DropM γ}
    (hk : ∀ b s e s', k b s = .error e s' → b = false ∧ e = .othersDependOnIt object)
    (hobj : C object) (htop : ∀ d ∈ rel, d.deptype = 'i' → ¬ object.covers d.depender)
    {s s' : DropState} {e : DropError} (hs : List.Sublist (s.depRel.map HeapTuple.form) rel)
    (h : (recursiveDeletion env behavior .notice okt fuel object none >>= k) s = .error e s') :
    e = .outOfFuel ∨ (behavior = .dropRestrict ∧ e = .othersDependOnIt object) := by
  rcases bind_eq_error.mp h with h | ⟨ok, s₂, hr, hok⟩
  · exact .inl (recursiveDeletion_fuelOnly env behavior .notice okt hC hD fuel object none hobj
      (fun _ => htop) s e s' hs h)
  obtain ⟨rfl, rfl⟩ := hk ok s₂ e s' hok
  cases behavior
  · exact .inr ⟨rfl, rfl⟩
  · exact absurd (recursiveDeletion_cascade_true env .notice okt fuel object none hr) nofun

include hC hD in
theorem performDeletionWithList_error_cases {object : ObjectAddress} (hobj : C object)
    (htop : ∀ d ∈ rel, d.deptype = 'i' → ¬ object.covers d.depender)
    {implicit : ObjectAddresses} {behavior : DropBehavior} {s s' : DropState} {e : DropError}
    (hs : List.Sublist (s.depRel.map HeapTuple.form) rel)
    (h : performDeletionWithList env fuel object implicit behavior s = .error e s') :
    e = .outOfFuel ∨ (behavior = .dropRestrict ∧ e = .othersDependOnIt object) := by
  unfold performDeletionWithList at h
  rw [bind_of_ok (getObjectDescription_of_droppable env hD hobj s)] at h
  rcases bind_eq_error.mp h with h | ⟨okt, s₁, hf, h⟩
  · exact .inl (findAutoDeletableObjects_fuelOnly env hC hD fuel object _ true hobj s e s' hs h)
  have hs₁ : List.Sublist (s₁.depRel.map HeapTuple.form) rel := by
    rw [(Steps.of_ok (findAutoDeletableObjects_frame env fuel object _ true) hf).1]
    exact hs
  refine recursiveDeletion_check_error_cases env fuel hC hD (fun b s₂ e s' h => ?_) hobj htop hs₁ h
  cases b
  · rcases bind_eq_error.mp h with h | ⟨_, _, -, h⟩
    · cases h
      exact ⟨rfl, rfl⟩
    · cases h
  · rcases bind_eq_error.mp h with h | ⟨_, _, -, h⟩ <;> cases h

include hC hD in
theorem collectImplicit_fuelOnly :
    ∀ (objs : List ObjectAddress) implicit, (∀ o ∈ objs, C o) →
      FuelOnly rel (collectImplicit env fuel objs implicit)
  | [], _, _ => .pure _
  | obj :: rest, implicit, hobjs => by
    have hrest := collectImplicit_fuelOnly rest
    unfold collectImplicit
    split
    · exact hrest implicit fun o ho => hobjs o (.tail _ ho)
    · exact (findAutoDeletableObjects_fuelOnly env hC hD fuel obj implicit false
        (hobjs obj (.head _))).bind (Evolves.entryRel.findAuto env fuel obj implicit false)
          fun okt => hrest okt fun o ho => hobjs o (.tail _ ho)

include hC hD in
/-- **The second loop of `performMultipleDeletions`** raises only `outOfFuel`
or the refusal of one of its targets. -/
theorem deleteTargets_error_cases {behavior : DropBehavior} :
    ∀ (objs : List ObjectAddress) implicit {s s' : DropState} {e : DropError},
      (∀ o ∈ objs, C o ∧ ∀ d ∈ rel, d.deptype = 'i' → ¬ o.covers d.depender) →
      List.Sublist (s.depRel.map HeapTuple.form) rel →
      deleteTargets env fuel behavior objs implicit s = .error e s' →
      e = .outOfFuel ∨ (behavior = .dropRestrict ∧ ∃ o ∈ objs, e = .othersDependOnIt o)
  | [], _, _, _, _, _, _, h => by cases h
  | obj :: rest, implicit, s, s', e, hobjs, hs, h => by
    have hrest : ∀ o ∈ rest, C o ∧ ∀ d ∈ rel, d.deptype = 'i' → ¬ o.covers d.depender :=
      fun o ho => hobjs o (.tail _ ho)
    have hlift : e = .outOfFuel ∨ (behavior = .dropRestrict ∧ ∃ o ∈ rest, e = .othersDependOnIt o) →
        e = .outOfFuel ∨ (behavior = .dropRestrict ∧ ∃ o ∈ obj :: rest, e = .othersDependOnIt o) :=
      Or.imp_right fun ⟨hb, o, ho, he⟩ => ⟨hb, o, .tail _ ho, he⟩
    unfold deleteTargets at h
    rcases bind_eq_error.mp h with h | ⟨_, _, hget, h⟩
    · cases h
    cases hget
    split at h
    · exact hlift (deleteTargets_error_cases rest implicit hrest hs h)
    split at h
    · exact hlift (deleteTargets_error_cases rest implicit hrest hs h)
    rcases bind_eq_error.mp h with h | ⟨implicit₁, s₁, hp, h⟩
    · rcases performDeletionWithList_error_cases env fuel hC hD (hobjs obj (.head _)).1
        (hobjs obj (.head _)).2 hs h with he | ⟨hb, he⟩
      exacts [.inl he, .inr ⟨hb, obj, .head _, he⟩]
    · have hev := Steps.of_ok (performDeletionWithList_steps env fuel Evolves.entryRel
        (fun okt => recursiveDeletion_evolves env behavior .notice okt fuel obj none) implicit) hp
      exact hlift (deleteTargets_error_cases rest implicit₁ hrest ((hev.depRel_sublist.map _).trans hs) h)

end Entries

/-- The errors of a `performDeletion` on a droppable closure, whose target has
no INTERNAL entry from it: running out of fuel, or the refusal of RESTRICT. -/
theorem performDeletion_error_cases (env : DropEnv) (fuel : Nat) {rel : List FormDataPgDepend}
    {target : ObjectAddress} {behavior : DropBehavior}
    (hD : Droppable env rel (DeletionClosure rel target))
    (htop : ∀ d ∈ rel, d.deptype = 'i' → ¬ target.covers d.depender) {e : DropError}
    {s' : DropState} (h : performDeletion env fuel target behavior (DropState.init rel) = .error e s') :
    e = .outOfFuel ∨ (behavior = .dropRestrict ∧ e = .othersDependOnIt target) := by
  have hC := DeletionClosure.closedUnder rel target
  have hs : List.Sublist ((DropState.init rel).depRel.map HeapTuple.form) rel := by
    rw [DropState.init_depRel_form]
  unfold performDeletion at h
  rw [bind_of_ok (getObjectDescription_of_droppable env hD .target _)] at h
  rcases bind_eq_error.mp h with h | ⟨okt, s₁, hf, h⟩
  · exact .inl (findAutoDeletableObjects_fuelOnly env hC hD fuel target _ true .target _ e s' hs h)
  rw [bind_of_ok (modify_apply _ _)] at h
  have hs₁ : List.Sublist
      ((DropState.updateAlreadyDeleted (fun _ => none) s₁).depRel.map HeapTuple.form) rel := by
    show List.Sublist (s₁.depRel.map HeapTuple.form) rel
    rw [(Steps.of_ok (findAutoDeletableObjects_frame env fuel target _ true) hf).1]
    exact hs
  refine recursiveDeletion_check_error_cases env fuel hC hD (fun b s₂ e s' h => ?_) .target htop
    hs₁ h
  cases b
  · cases h
    exact ⟨rfl, rfl⟩
  · cases h

/-- The errors of a `performMultipleDeletions` on a droppable union of
closures, whose targets have no INTERNAL entry from them: running out of fuel,
or the refusal of RESTRICT for one of the targets. -/
theorem performMultipleDeletions_error_cases (env : DropEnv) (fuel : Nat)
    {rel : List FormDataPgDepend} {objects : ObjectAddresses} {behavior : DropBehavior}
    (hD : Droppable env rel fun x => ∃ t ∈ objects.items, DeletionClosure rel t x)
    (htop : ∀ t ∈ objects.items, ∀ d ∈ rel, d.deptype = 'i' → ¬ t.covers d.depender)
    {e : DropError} {s' : DropState}
    (h : performMultipleDeletions env fuel objects behavior (DropState.init rel) = .error e s') :
    e = .outOfFuel ∨ (behavior = .dropRestrict ∧ ∃ t ∈ objects.items, e = .othersDependOnIt t) := by
  have hC := ClosedUnder.union rel objects.items
  have hs : List.Sublist ((DropState.updateAlreadyDeleted (fun _ => some newObjectAddresses)
      (DropState.init rel)).depRel.map HeapTuple.form) rel := by
    show List.Sublist ((DropState.init rel).depRel.map HeapTuple.form) rel
    rw [DropState.init_depRel_form]
  have hmem : ∀ o ∈ objects.items, ∃ t ∈ objects.items, DeletionClosure rel t o :=
    fun o ho => ⟨o, ho, .target⟩
  unfold performMultipleDeletions at h
  rw [bind_of_ok (modify_apply _ _)] at h
  rcases bind_eq_error.mp h with h | ⟨implicit, s₂, hc, h⟩
  · exact .inl (collectImplicit_fuelOnly env fuel hC hD _ _ hmem _ e s' hs h)
  have hev := Steps.of_ok (collectImplicit_steps env fuel Evolves.entryRel _ _) hc
  exact deleteTargets_error_cases env fuel hC hD _ implicit (fun o ho => ⟨hmem o ho, htop o ho⟩)
    ((hev.depRel_sublist.map _).trans hs) h

/-- The errors of a `deleteWhatDependsOn` on a droppable closure: running out
of fuel alone. Step 1 never runs on the target, and Step 2 is CASCADE. -/
theorem deleteWhatDependsOn_error_cases (env : DropEnv) (fuel : Nat)
    {rel : List FormDataPgDepend} {target : ObjectAddress} {showNotices : Bool}
    (hD : Droppable env rel (DeletionClosure rel target)) {e : DropError} {s' : DropState}
    (h : deleteWhatDependsOn env fuel target showNotices (DropState.init rel) = .error e s') :
    e = .outOfFuel := by
  have hC := DeletionClosure.closedUnder rel target
  have hs : List.Sublist ((DropState.init rel).depRel.map HeapTuple.form) rel := by
    rw [DropState.init_depRel_form]
  unfold deleteWhatDependsOn at h
  rw [bind_of_ok (getObjectDescription_of_droppable env hD .target _)] at h
  rcases bind_eq_error.mp h with h | ⟨okt, s₁, hf, h⟩
  · exact findAutoDeletableObjects_fuelOnly env hC hD fuel target _ true .target _ e s' hs h
  rw [bind_of_ok (modify_apply _ _)] at h
  have hs₁ : List.Sublist
      ((DropState.updateAlreadyDeleted (fun _ => none) s₁).depRel.map HeapTuple.form) rel := by
    show List.Sublist (s₁.depRel.map HeapTuple.form) rel
    rw [(Steps.of_ok (findAutoDeletableObjects_frame env fuel target _ true) hf).1]
    exact hs
  have hrece := recursiveDeletion_evolves env .dropCascade
    (if showNotices then .notice else .debug2) okt fuel
  rcases bind_eq_error.mp h with h | ⟨ok, s₂, hdd, h⟩
  · exact FuelOnly.caqlBeginscan env (fun t acc hk ht =>
      dropDependent_fuelOnly env .dropCascade _ okt hC hD
        (fun o ho => recursiveDeletion_fuelOnly env .dropCascade _ okt hC hD fuel o (some target) ho
          nofun) hrece .target t ht ((referencedKey_iff _ _).mp hk) acc)
      (dropDependent_evolves env .dropCascade _ okt hrece target) true _ e s' hs₁ h
  · -- under CASCADE, Step 2 answers `true`
    rw [deleteDependentObjects_cascade_true env _ okt (recursiveDeletion_cascade_true env _ okt fuel)
      hdd] at h
    cases h

/-! ## Enough fuel -/

section Fuel

variable (env : DropEnv) (fuel : Nat) {r : ObjectAddress → Nat} {N : Nat}
  {rel : List FormDataPgDepend}

/-- The outermost `recursiveDeletion` and the check of its answer, from a
state whose entries are ranked, given `N + 1` times one more than the live
entries of fuel. -/
theorem recursiveDeletion_check_within_fuel (hr : OwnerRanked r N rel) {γ : Type}
    {behavior : DropBehavior}
    {okt : ObjectAddresses} {object : ObjectAddress} {k : Bool → DropM γ}
    (hk : ∀ b s, raised (k b s) ≠ some .outOfFuel) {s : DropState}
    (hlive : ∀ t ∈ s.depRel, t.form ∈ rel) (hlen : (N + 1) * (s.depRel.length + 1) ≤ fuel) :
    raised ((recursiveDeletion env behavior .notice okt fuel object none >>= k) s) ≠
      some .outOfFuel :=
  raised_bind_ne (recursiveDeletion_within_ranked_fuel env behavior .notice okt hr fuel object none
    s hlive (hr.measure_lt object none hlen)) fun b s₂ _ => hk b s₂

/-- Under ranked ownership and with more than `N + 1` times one more than the
live entries of fuel, `performDeletion` never runs out of fuel. -/
theorem performDeletion_within_fuel (hr : OwnerRanked r N rel) (target : ObjectAddress)
    (behavior : DropBehavior) {s : DropState} (hlive : ∀ t ∈ s.depRel, t.form ∈ rel)
    (hlen : (N + 1) * (s.depRel.length + 1) < fuel) :
    raised (performDeletion env fuel target behavior s) ≠ some .outOfFuel := by
  unfold performDeletion
  rcases getObjectDescription_cases env target s with hd | hd
  swap
  · rw [bind_of_error hd]; nofun
  rw [raised_bind_ok hd]
  refine raised_bind_ne (findAutoDeletableObjects_within_fuel env fuel target _ true s
    ((Nat.le_mul_of_pos_left _ N.succ_pos).trans_lt hlen)) fun okt s₁ hf => ?_
  have hrel : s₁.depRel = s.depRel :=
    (Steps.of_ok (findAutoDeletableObjects_frame env fuel target _ true) hf).1
  rw [raised_bind_ok (modify_apply _ _)]
  exact recursiveDeletion_check_within_fuel env fuel hr (fun b _ => by cases b <;> nofun)
    (s := DropState.updateAlreadyDeleted (fun _ => none) s₁) (by rw [← hrel] at hlive; exact hlive)
    (by show (N + 1) * (s₁.depRel.length + 1) ≤ fuel; rw [hrel]; omega)

theorem performDeletionWithList_within_fuel (hr : OwnerRanked r N rel) (object : ObjectAddress)
    (implicit : ObjectAddresses)
    (behavior : DropBehavior) {s : DropState} (hlive : ∀ t ∈ s.depRel, t.form ∈ rel)
    (hlen : (N + 1) * (s.depRel.length + 1) < fuel) :
    raised (performDeletionWithList env fuel object implicit behavior s) ≠ some .outOfFuel := by
  unfold performDeletionWithList
  rcases getObjectDescription_cases env object s with hd | hd
  swap
  · rw [bind_of_error hd]; nofun
  rw [raised_bind_ok hd]
  refine raised_bind_ne (findAutoDeletableObjects_within_fuel env fuel object _ true s
    ((Nat.le_mul_of_pos_left _ N.succ_pos).trans_lt hlen)) fun okt s₁ hf => ?_
  have hrel : s₁.depRel = s.depRel :=
    (Steps.of_ok (findAutoDeletableObjects_frame env fuel object _ true) hf).1
  exact recursiveDeletion_check_within_fuel env fuel hr (fun b _ => by cases b <;> nofun)
    (hrel ▸ hlive) (by rw [hrel]; omega)

theorem collectImplicit_within_fuel :
    ∀ (objs : List ObjectAddress) implicit {s : DropState}, s.depRel.length + 1 < fuel →
      raised (collectImplicit env fuel objs implicit s) ≠ some .outOfFuel
  | [], _, _, _ => nofun
  | obj :: rest, implicit, s, hlen => by
    unfold collectImplicit
    split
    · exact collectImplicit_within_fuel rest implicit hlen
    · refine raised_bind_ne (findAutoDeletableObjects_within_fuel env fuel obj _ false s hlen)
        fun okt s₁ hf => collectImplicit_within_fuel rest okt ?_
      rwa [(Steps.of_ok (findAutoDeletableObjects_frame env fuel obj _ false) hf).1]

/-- The fuel bound holds on fewer live entries. -/
theorem ranked_fuel_mono {s s' : DropState} (hsub : List.Sublist s'.depRel s.depRel)
    (hlen : (N + 1) * (s.depRel.length + 1) < fuel) :
    (N + 1) * (s'.depRel.length + 1) < fuel :=
  (Nat.mul_le_mul_left _ (Nat.succ_le_succ hsub.length_le)).trans_lt hlen

theorem deleteTargets_within_fuel (hr : OwnerRanked r N rel) {behavior : DropBehavior} :
    ∀ (objs : List ObjectAddress) implicit {s : DropState},
      (∀ t ∈ s.depRel, t.form ∈ rel) → (N + 1) * (s.depRel.length + 1) < fuel →
      raised (deleteTargets env fuel behavior objs implicit s) ≠ some .outOfFuel
  | [], _, _, _, _ => nofun
  | obj :: rest, implicit, s, hlive, hlen => by
    unfold deleteTargets
    rw [raised_bind_ok (show (get : DropM DropState) s = .ok s s from rfl)]
    split
    · exact deleteTargets_within_fuel hr rest implicit hlive hlen
    split
    · exact deleteTargets_within_fuel hr rest implicit hlive hlen
    refine raised_bind_ne (performDeletionWithList_within_fuel env fuel hr obj implicit behavior
      hlive hlen) fun implicit₁ s₁ hp => ?_
    have hev := Steps.of_ok (performDeletionWithList_steps env fuel Evolves.entryRel
      (fun okt => recursiveDeletion_evolves env behavior .notice okt fuel obj none) implicit) hp
    exact deleteTargets_within_fuel hr rest implicit₁ (fun t ht => hlive t (hev.depRel_subset ht))
      (ranked_fuel_mono fuel hev.depRel_sublist hlen)

theorem performMultipleDeletions_within_fuel (hr : OwnerRanked r N rel) (objects : ObjectAddresses)
    (behavior : DropBehavior) {s : DropState} (hlive : ∀ t ∈ s.depRel, t.form ∈ rel)
    (hlen : (N + 1) * (s.depRel.length + 1) < fuel) :
    raised (performMultipleDeletions env fuel objects behavior s) ≠ some .outOfFuel := by
  unfold performMultipleDeletions
  rw [raised_bind_ok (modify_apply _ _)]
  refine raised_bind_ne (collectImplicit_within_fuel env fuel _ _
    (s := DropState.updateAlreadyDeleted _ s) ((Nat.le_mul_of_pos_left _ N.succ_pos).trans_lt hlen))
    fun implicit s₂ hc => ?_
  have hev := Steps.of_ok (collectImplicit_steps env fuel Evolves.entryRel _ _) hc
  exact deleteTargets_within_fuel env fuel hr _ implicit (fun t ht => hlive t (hev.depRel_subset ht))
    (ranked_fuel_mono fuel hev.depRel_sublist hlen)

theorem deleteWhatDependsOn_within_fuel (hr : OwnerRanked r N rel) (target : ObjectAddress)
    (showNotices : Bool) {s : DropState} (hlive : ∀ t ∈ s.depRel, t.form ∈ rel)
    (hlen : (N + 1) * (s.depRel.length + 1) < fuel) :
    raised (deleteWhatDependsOn env fuel target showNotices s) ≠ some .outOfFuel := by
  unfold deleteWhatDependsOn
  rcases getObjectDescription_cases env target s with hd | hd
  swap
  · rw [bind_of_error hd]; nofun
  rw [raised_bind_ok hd]
  refine raised_bind_ne (findAutoDeletableObjects_within_fuel env fuel target _ true s
    ((Nat.le_mul_of_pos_left _ N.succ_pos).trans_lt hlen)) fun okt s₁ hf => ?_
  have hrel : s₁.depRel = s.depRel :=
    (Steps.of_ok (findAutoDeletableObjects_frame env fuel target _ true) hf).1
  rw [raised_bind_ok (modify_apply _ _)]
  refine raised_bind_ne (deleteDependentObjects_within_fuel env .dropCascade _ okt
    (recursiveDeletion_evolves env .dropCascade _ okt fuel) fun s' hs' t ht hk =>
      recursiveDeletion_within_ranked_fuel env .dropCascade _ okt hr fuel _ _ s'
        (fun u hu => hlive u (hrel ▸ hs'.subset hu))
        ((hr.dependent_lt ht hk (hrel ▸ hs'.length_le)).trans_le ?_)) fun b _ _ => by cases b <;> nofun
  rw [Nat.mul_add_one] at hlen
  omega

end Fuel

/-- The tuples before a run on `rel` hold the entries of `rel`. -/
theorem DropState.mem_init_form {rel : List FormDataPgDepend} :
    ∀ t ∈ (DropState.init rel).depRel, t.form ∈ rel :=
  fun _ ht => DropState.init_depRel_form rel ▸ List.mem_map_of_mem _ ht

theorem DropState.length_init (rel : List FormDataPgDepend) :
    (DropState.init rel).depRel.length = rel.length := by
  rw [← List.length_map _ HeapTuple.form, DropState.init_depRel_form]

/-- A run that raises nothing but `outOfFuel` and never runs out of fuel
returns. -/
theorem returns_of_fuelOnly {x : DropM Unit} {s : DropState}
    (herr : ∀ e s', x s = .error e s' → e = .outOfFuel)
    (hnf : raised (x s) ≠ some .outOfFuel) : ∃ s', x s = .ok () s' := by
  cases h : x s with
  | ok _ s' => exact ⟨s', rfl⟩
  | error e s' => rw [h, herr e s' h] at hnf; exact absurd rfl hnf

/-- **A deletion of a droppable closure goes through.** When no member of the
deletion closure of the target meets one of the code's errors (`Droppable`) and
no INTERNAL entry is from the target, a `performDeletion` of it, under either
behavior, in any scan order and with any fuel, raises only the model's
`outOfFuel` or, under RESTRICT, "cannot drop %s because other objects depend on
it". When ownership among the entries is ranked (`OwnerRanked`, ranks at most
`N`), a CASCADE deletion given more than `N + 1` times one past the entries of
fuel returns. -/
theorem performDeletion_goes_through (env : DropEnv) (fuel : Nat) (rel : List FormDataPgDepend)
    (target : ObjectAddress) (behavior : DropBehavior)
    (hD : Droppable env rel (DeletionClosure rel target))
    (htop : ∀ d ∈ rel, d.deptype = 'i' → ¬ target.covers d.depender) :
    (∀ e s', performDeletion env fuel target behavior (DropState.init rel) = .error e s' →
      e = .outOfFuel ∨ (behavior = .dropRestrict ∧ e = .othersDependOnIt target)) ∧
      (∀ (r : ObjectAddress → Nat) (N : Nat), OwnerRanked r N rel →
        (N + 1) * (rel.length + 1) < fuel → behavior = .dropCascade →
        ∃ s, performDeletion env fuel target behavior (DropState.init rel) = .ok () s) := by
  refine ⟨fun e s' h => performDeletion_error_cases env fuel hD htop h,
    fun r N hr hfuel hb => returns_of_fuelOnly (fun e s' h => ?_)
      (performDeletion_within_fuel env fuel hr target behavior DropState.mem_init_form
        (by rw [DropState.length_init]; exact hfuel))⟩
  subst hb
  exact (performDeletion_error_cases env fuel hD htop h).resolve_right nofun

/-- The members of the closures in `ownerChainCatalog`: the four relations. -/
theorem ownerChain_closedUnder : ClosedUnder ownerChainCatalog
    (· ∈ [relationAddress 90, relationAddress 91, relationAddress 92, relationAddress 93]) :=
  ⟨by decide, by decide⟩

/-- Ownership in `ownerChainCatalog` ranked by `93 - objectId`, at most `2`. -/
theorem ownerChain_ranked :
    OwnerRanked (fun x => min (93 - x.objectId) 2) 2 ownerChainCatalog :=
  OwnerRanked.of_objects (f := fun _ o => min (93 - o) 2) (fun _ _ => Nat.min_le_right _ _)
    (by decide)

/-- Dropping relation `90` of `ownerChainCatalog` with CASCADE: its closure is
the four relations, `91` as a dependent and `92` and `93` as owners; with the
ranks at most `2`, thirteen units of fuel are enough. -/
theorem performDeletion_goes_through_ownerChain :
    Droppable (exampleEnv fun _ => 0) ownerChainCatalog
        (DeletionClosure ownerChainCatalog (relationAddress 90)) ∧
      (∀ d ∈ ownerChainCatalog, d.deptype = 'i' → ¬ (relationAddress 90).covers d.depender) ∧
      (∀ e s', performDeletion (exampleEnv fun _ => 0) 13 (relationAddress 90) .dropCascade
          (DropState.init ownerChainCatalog) = .error e s' →
        e = .outOfFuel ∨ (DropBehavior.dropCascade = .dropRestrict ∧
          e = .othersDependOnIt (relationAddress 90))) ∧
      ∃ s, performDeletion (exampleEnv fun _ => 0) 13 (relationAddress 90) .dropCascade
        (DropState.init ownerChainCatalog) = .ok () s :=
  have hD : Droppable (exampleEnv fun _ => 0) ownerChainCatalog
      (DeletionClosure ownerChainCatalog (relationAddress 90)) :=
    Droppable.mono ⟨by decide, by decide, by decide, by decide⟩
      fun _ hx => DeletionClosure.minimal ownerChain_closedUnder (by decide) hx
  have htop : ∀ d ∈ ownerChainCatalog, d.deptype = 'i' →
      ¬ (relationAddress 90).covers d.depender := by decide
  have h := performDeletion_goes_through (exampleEnv fun _ => 0) 13 _ _ .dropCascade hD htop
  ⟨hD, htop, h.1, h.2 _ 2 ownerChain_ranked (by decide) rfl⟩

/-! ## The RESTRICT verdict -/

/-- A refusal of `performDeletion` comes from its check: the pre-scan returned
and the `recursiveDeletion` after it answered `false`. -/
theorem performDeletion_refused (env : DropEnv) (fuel : Nat) (target : ObjectAddress)
    (behavior : DropBehavior) {s s' : DropState} {e : DropError}
    (h : performDeletion env fuel target behavior s = .error e s') (he : e.isRefusal = true) :
    ∃ okt s₁ s₂, findAutoDeletableObjects env fuel target newObjectAddresses true s = .ok okt s₁ ∧
      recursiveDeletion env behavior .notice okt fuel target none
        (s₁.updateAlreadyDeleted fun _ => none) = .ok false s₂ := by
  unfold performDeletion at h
  rcases getObjectDescription_cases env target s with hd | hd
  swap
  · rw [bind_of_error hd] at h; cases h; cases he
  rw [bind_of_ok hd] at h
  rcases bind_eq_error.mp h with hf | ⟨okt, s₁, hf, h⟩
  · simp [findAutoDeletableObjects_noRefusal env fuel target _ true s e s' hf] at he
  rw [bind_of_ok (modify_apply _ _)] at h
  rcases bind_eq_error.mp h with hr | ⟨b, s₂, hr, h⟩
  · simp [recursiveDeletion_noRefusal env behavior .notice okt fuel target none _ e s' hr] at he
  cases b
  · exact ⟨okt, s₁, s₂, hf, hr⟩
  · cases h

/-- The pre-scan of `performDeletion` makes present in `oktodelete` what the
target covers and what an object reachable from it through AUTO or INTERNAL
entries covers. -/
theorem prescan_present (env : DropEnv) (fuel : Nat) {rel : List FormDataPgDepend}
    {target : ObjectAddress} {okt : ObjectAddresses} {s₁ : DropState}
    (hokt : findAutoDeletableObjects env fuel target newObjectAddresses true (DropState.init rel) =
      .ok okt s₁)
    {x : ObjectAddress} (hx : target.covers x ∨ ∃ y, AutoReachable rel target y ∧ y.covers x) :
    objectAddressPresent x okt = true := by
  have hnew : objectAddressPresent target newObjectAddresses = false := rfl
  obtain ⟨rest, hrest, -⟩ := findAutoDeletableObjects_appends env fuel target _ true hokt
  obtain ⟨hC, hdeps⟩ := findAutoDeletableObjects_closedExcept env fuel target _ true []
    ((autoClosed_iff _ _).mp (autoClosed_newObjectAddresses _)) hokt
  rw [objectAddressPresent_iff]
  rcases hx with hc | ⟨y, hy, hc⟩
  · exact ⟨target, by rw [hrest]; simp [hnew], hc⟩
  · rw [← DropState.init_depRel_form rel] at hy
    obtain ⟨z, hz, hzy⟩ := (objectAddressPresent_iff _ _).mp
      (AutoReachable.present ((autoClosed_iff _ _).mpr hC) (hdeps hnew) hy)
    exact ⟨z, hz, ObjectAddress.covers_trans hzy hc⟩

/-- **The RESTRICT verdict is the closure's.** When the INTERNAL entries are
from whole objects, no member of the target's deletion closure meets one of the
code's errors, no INTERNAL entry is from the target, and ownership is ranked
with enough fuel, a `performDeletion` under RESTRICT returns, in any scan
order, exactly when every member of the closure is covered by the target or by
an object reachable from it through AUTO or INTERNAL entries. -/
theorem performDeletion_restrict_verdict (env : DropEnv) (fuel : Nat)
    (rel : List FormDataPgDepend) (hwhole : ∀ d ∈ rel, d.deptype = 'i' → d.depender.objectSubId = 0)
    (target : ObjectAddress) (hD : Droppable env rel (DeletionClosure rel target))
    (htop : ∀ d ∈ rel, d.deptype = 'i' → ¬ target.covers d.depender)
    (r : ObjectAddress → Nat) (N : Nat) (hr : OwnerRanked r N rel)
    (hfuel : (N + 1) * (rel.length + 1) < fuel) :
    (∃ s, performDeletion env fuel target .dropRestrict (DropState.init rel) = .ok () s) ↔
      ∀ x, DeletionClosure rel target x →
        target.covers x ∨ ∃ y, AutoReachable rel target y ∧ y.covers x := by
  constructor
  · rintro ⟨s, h⟩ x hx
    exact performDeletion_restrict_destroyed env fuel rel target h
      ((performDeletion_destroyed_iff env fuel hwhole h x).mpr ⟨x, hx, x.covers_refl⟩)
  intro hall
  refine returns_of_fuelOnly (fun e s' h => ?_) (performDeletion_within_fuel env fuel hr target
    .dropRestrict DropState.mem_init_form (by rw [DropState.length_init]; exact hfuel))
  refine (performDeletion_error_cases env fuel hD htop h).resolve_right fun ⟨_, he⟩ => ?_
  subst he
  -- a refusal names a member of the closure that the pre-scan did not find
  obtain ⟨okt, s₁, s₂, hokt, hrd⟩ := performDeletion_refused env fuel target _ h rfl
  obtain ⟨level, other, object, hm⟩ :=
    recursiveDeletion_false_reports env .dropRestrict .notice okt fuel target none hrd
  obtain ⟨hcl, hmiss⟩ := recursiveDeletion_violations_missing env fuel rel target _ hokt hrd hm
  rw [prescan_present env fuel hokt (hall other hcl)] at hmiss
  cases hmiss

/-- Dropping table `90` of `toastedTableCatalog` (its TOAST table `92`
INTERNAL to it, index `91` AUTO on it, index `93` AUTO on the TOAST table) with
RESTRICT: the owned TOAST table ranks above the table. -/
theorem performDeletion_restrict_verdict_toasted :
    (∀ d ∈ toastedTableCatalog, d.deptype = 'i' → d.depender.objectSubId = 0) ∧
      Droppable (exampleEnv fun _ => 0) toastedTableCatalog
        (DeletionClosure toastedTableCatalog (relationAddress 90)) ∧
      (∀ d ∈ toastedTableCatalog, d.deptype = 'i' → ¬ (relationAddress 90).covers d.depender) ∧
      OwnerRanked (fun x => min (x.objectId - 90) 1) 1 toastedTableCatalog ∧
      (1 + 1) * (toastedTableCatalog.length + 1) < 9 ∧
      ((∃ s, performDeletion (exampleEnv fun _ => 0) 9 (relationAddress 90) .dropRestrict
          (DropState.init toastedTableCatalog) = .ok () s) ↔
        ∀ x, DeletionClosure toastedTableCatalog (relationAddress 90) x →
          (relationAddress 90).covers x ∨
            ∃ y, AutoReachable toastedTableCatalog (relationAddress 90) y ∧ y.covers x) :=
  have hwhole : ∀ d ∈ toastedTableCatalog, d.deptype = 'i' → d.depender.objectSubId = 0 := by
    decide
  have hQ : ClosedUnder toastedTableCatalog
      (· ∈ [relationAddress 90, relationAddress 91, relationAddress 92, relationAddress 93]) :=
    ⟨by decide, by decide⟩
  have hD : Droppable (exampleEnv fun _ => 0) toastedTableCatalog
      (DeletionClosure toastedTableCatalog (relationAddress 90)) :=
    Droppable.mono ⟨by decide, by decide, by decide, by decide⟩
      fun _ hx => DeletionClosure.minimal hQ (by decide) hx
  have htop : ∀ d ∈ toastedTableCatalog, d.deptype = 'i' →
      ¬ (relationAddress 90).covers d.depender := by decide
  have hr : OwnerRanked (fun x => min (x.objectId - 90) 1) 1 toastedTableCatalog :=
    OwnerRanked.of_objects (f := fun _ o => min (o - 90) 1) (fun _ _ => Nat.min_le_right _ _)
      (by decide)
  have hfuel : (1 + 1) * (toastedTableCatalog.length + 1) < 9 := by decide
  ⟨hwhole, hD, htop, hr, hfuel,
    performDeletion_restrict_verdict _ 9 _ hwhole _ hD htop _ 1 hr hfuel⟩

/-- **`deleteWhatDependsOn` on a droppable closure goes through.** When no
member of the deletion closure of the target meets one of the code's errors
(`Droppable`), a `deleteWhatDependsOn` of it, in any scan order and with any
fuel, raises only the model's `outOfFuel`, even when the target is owned
through an INTERNAL entry; when ownership among the entries is ranked
(`OwnerRanked`, ranks at most `N`), one given more than `N + 1` times one past
the entries of fuel returns. -/
theorem deleteWhatDependsOn_goes_through (env : DropEnv) (fuel : Nat)
    (rel : List FormDataPgDepend) (target : ObjectAddress) (showNotices : Bool)
    (hD : Droppable env rel (DeletionClosure rel target)) :
    (∀ e s', deleteWhatDependsOn env fuel target showNotices (DropState.init rel) = .error e s' →
      e = .outOfFuel) ∧
      (∀ (r : ObjectAddress → Nat) (N : Nat), OwnerRanked r N rel →
        (N + 1) * (rel.length + 1) < fuel →
        ∃ s, deleteWhatDependsOn env fuel target showNotices (DropState.init rel) = .ok () s) :=
  ⟨fun e s' h => deleteWhatDependsOn_error_cases env fuel hD h, fun r N hr hfuel =>
    returns_of_fuelOnly (fun e s' h => deleteWhatDependsOn_error_cases env fuel hD h)
      (deleteWhatDependsOn_within_fuel env fuel hr target showNotices DropState.mem_init_form
        (by rw [DropState.length_init]; exact hfuel))⟩

/-- Dropping what depends on relation `92` of `ownerChainCatalog`, which is
owned by `93`: its dependent `91` goes, although `performDeletion` of `92`
itself would raise that `93` requires it. -/
theorem deleteWhatDependsOn_goes_through_ownerChain :
    Droppable (exampleEnv fun _ => 0) ownerChainCatalog
        (DeletionClosure ownerChainCatalog (relationAddress 92)) ∧
      (∀ e s', deleteWhatDependsOn (exampleEnv fun _ => 0) 13 (relationAddress 92) true
          (DropState.init ownerChainCatalog) = .error e s' → e = .outOfFuel) ∧
      ∃ s, deleteWhatDependsOn (exampleEnv fun _ => 0) 13 (relationAddress 92) true
        (DropState.init ownerChainCatalog) = .ok () s :=
  have hD : Droppable (exampleEnv fun _ => 0) ownerChainCatalog
      (DeletionClosure ownerChainCatalog (relationAddress 92)) :=
    Droppable.mono ⟨by decide, by decide, by decide, by decide⟩
      fun _ hx => DeletionClosure.minimal ownerChain_closedUnder (by decide) hx
  have h := deleteWhatDependsOn_goes_through (exampleEnv fun _ => 0) 13 _ _ true hD
  ⟨hD, h.1, h.2 _ 2 ownerChain_ranked (by decide)⟩

/-- **A deletion of droppable closures goes through.** When no member of the
union of the deletion closures of the targets meets one of the code's errors
(`Droppable`) and no INTERNAL entry is from a target, a
`performMultipleDeletions` of them, under either behavior, in any scan order and
with any fuel, raises only the model's `outOfFuel` or, under RESTRICT, "cannot
drop %s because other objects depend on it" for one of the targets. When
ownership among the entries is ranked (`OwnerRanked`, ranks at most `N`), a
CASCADE deletion given more than `N + 1` times one past the entries of fuel
returns. -/
theorem performMultipleDeletions_goes_through (env : DropEnv) (fuel : Nat)
    (rel : List FormDataPgDepend) (objects : ObjectAddresses) (behavior : DropBehavior)
    (hD : Droppable env rel fun x => ∃ t ∈ objects.items, DeletionClosure rel t x)
    (htop : ∀ t ∈ objects.items, ∀ d ∈ rel, d.deptype = 'i' → ¬ t.covers d.depender) :
    (∀ e s', performMultipleDeletions env fuel objects behavior (DropState.init rel) = .error e s' →
      e = .outOfFuel ∨ (behavior = .dropRestrict ∧ ∃ t ∈ objects.items, e = .othersDependOnIt t)) ∧
      (∀ (r : ObjectAddress → Nat) (N : Nat), OwnerRanked r N rel →
        (N + 1) * (rel.length + 1) < fuel → behavior = .dropCascade →
        ∃ s, performMultipleDeletions env fuel objects behavior (DropState.init rel) = .ok () s) := by
  refine ⟨fun e s' h => performMultipleDeletions_error_cases env fuel hD htop h,
    fun r N hr hfuel hb => returns_of_fuelOnly (fun e s' h => ?_)
      (performMultipleDeletions_within_fuel env fuel hr objects behavior DropState.mem_init_form
        (by rw [DropState.length_init]; exact hfuel))⟩
  subst hb
  exact (performMultipleDeletions_error_cases env fuel hD htop h).resolve_right nofun

/-- Dropping relations `93` and `90` of `ownerChainCatalog` together with
CASCADE: the closure of `93` is its two dependents through INTERNAL entries,
that of `90` the four relations. -/
theorem performMultipleDeletions_goes_through_ownerChain :
    Droppable (exampleEnv fun _ => 0) ownerChainCatalog (fun x =>
        ∃ t ∈ (targetList [relationAddress 93, relationAddress 90]).items,
          DeletionClosure ownerChainCatalog t x) ∧
      (∀ t ∈ (targetList [relationAddress 93, relationAddress 90]).items,
        ∀ d ∈ ownerChainCatalog, d.deptype = 'i' → ¬ t.covers d.depender) ∧
      (∀ e s', performMultipleDeletions (exampleEnv fun _ => 0) 13
          (targetList [relationAddress 93, relationAddress 90]) .dropCascade
          (DropState.init ownerChainCatalog) = .error e s' →
        e = .outOfFuel ∨ (DropBehavior.dropCascade = .dropRestrict ∧
          ∃ t ∈ (targetList [relationAddress 93, relationAddress 90]).items,
            e = .othersDependOnIt t)) ∧
      ∃ s, performMultipleDeletions (exampleEnv fun _ => 0) 13
        (targetList [relationAddress 93, relationAddress 90]) .dropCascade
        (DropState.init ownerChainCatalog) = .ok () s :=
  have hsub : ∀ t ∈ (targetList [relationAddress 93, relationAddress 90]).items,
      t ∈ [relationAddress 90, relationAddress 91, relationAddress 92, relationAddress 93] :=
    by decide
  have hD : Droppable (exampleEnv fun _ => 0) ownerChainCatalog (fun x =>
      ∃ t ∈ (targetList [relationAddress 93, relationAddress 90]).items,
        DeletionClosure ownerChainCatalog t x) :=
    Droppable.mono ⟨by decide, by decide, by decide, by decide⟩
      fun _ ⟨t, ht, hx⟩ => DeletionClosure.minimal ownerChain_closedUnder (hsub t ht) hx
  have htop : ∀ t ∈ (targetList [relationAddress 93, relationAddress 90]).items,
      ∀ d ∈ ownerChainCatalog, d.deptype = 'i' → ¬ t.covers d.depender := by decide
  have h := performMultipleDeletions_goes_through (exampleEnv fun _ => 0) 13 _ _ .dropCascade hD
    htop
  ⟨hD, htop, h.1, h.2 _ 2 ownerChain_ranked (by decide) rfl⟩

end CatalogDependency
