import CatalogDependency.MultipleCompleteness

/-!
What a RESTRICT deletion that goes through has dropped.

Under RESTRICT, `reportCascade` answers `true` only for an object present in
`oktodelete`, and the pre-scan leaves that list closed under AUTO and INTERNAL
entries. So a call of `recursiveDeletion` on a present object that answers
`true` recursed only into present objects, and passed to `doDeletion` only
present objects (`recursiveDeletion_restrict_within`). A `performDeletion`
under RESTRICT that returns has therefore dropped only its target and objects
reachable from it through AUTO or INTERNAL entries, on every catalog and in
every scan order (`performDeletion_restrict_drops_implicit`).

Together with the completeness of `Completeness`, this says when RESTRICT may
return at all: only when the whole deletion closure of the target goes with it
(`performDeletion_restrict_closure_implicit`), and, for several targets, when
every member of a closure goes with one of the targets
(`performMultipleDeletions_restrict_closures_implicit`).
-/

namespace CatalogDependency

/-- Every object passed to `doDeletion` after `s` is present in `oktodelete`. -/
def DeletedWithin (oktodelete : ObjectAddresses) (s s' : DropState) : Prop :=
  ∀ x ∈ s'.deleted, x ∈ s.deleted ∨ objectAddressPresent x oktodelete = true

theorem DeletedWithin.runRel (oktodelete : ObjectAddresses) :
    RunRel (DeletedWithin oktodelete) where
  refl _ _ hx := .inl hx
  trans h₁ h₂ x hx := (h₂ x hx).elim (h₁ x) .inr
  scan _ _ hx := .inl hx

/-- A closed list stays closed over fewer entries. -/
theorem AutoClosed.mono {rel rel' : List FormDataPgDepend} {okt : ObjectAddresses}
    (h : AutoClosed rel okt) (hsub : rel' ⊆ rel) : AutoClosed rel' okt :=
  fun x hx d hd => h x hx d (hsub hd)

/-- A pre-scan started from a closed list returns a closed list. -/
theorem findAutoDeletableObjects_autoClosed (env : DropEnv) {fuel : Nat} {object : ObjectAddress}
    {oktodelete okt' : ObjectAddresses} {addself : Bool} {s s' : DropState}
    (hclosed : AutoClosed (s.depRel.map HeapTuple.form) oktodelete)
    (h : findAutoDeletableObjects env fuel object oktodelete addself s = .ok okt' s') :
    AutoClosed (s.depRel.map HeapTuple.form) okt' :=
  (autoClosed_iff _ _).mpr (findAutoDeletableObjects_closedExcept env fuel object oktodelete
    addself [] ((autoClosed_iff _ _).mp hclosed) h).1

/-- Under RESTRICT, `reportCascade` lets through only present objects. -/
theorem Reported.present_of_restrict {oktodelete : ObjectAddresses} {other object : ObjectAddress}
    {msg : DropMessage} (h : Reported .dropRestrict oktodelete other object true msg) :
    objectAddressPresent other oktodelete = true := by
  rcases h with ⟨hp, -⟩ | ⟨-, -, h, -⟩ | ⟨-, h, -⟩
  · exact hp
  · cases h
  · cases h

/-! ## Calls that answer `true` -/

section Calls

variable (env : DropEnv) (msglevel : ElogLevel) (oktodelete : ObjectAddresses)
  (heap : List HeapTuple)

/-- Every call of `recursiveDeletion` under RESTRICT at `fuel`, on a present
object and live entries from `heap`, that answers `true` passed to
`doDeletion` only present objects. -/
def AnswersWithin (fuel : Nat) : Prop :=
  ∀ object callingObject {s s' : DropState},
    recursiveDeletion env .dropRestrict msglevel oktodelete fuel object callingObject s =
      .ok true s' →
    objectAddressPresent object oktodelete = true → s.depRel ⊆ heap →
      DeletedWithin oktodelete s s'

variable {env msglevel oktodelete heap}
  (hclosed : AutoClosed (heap.map HeapTuple.form) oktodelete)
include hclosed

/-- **Step 2.** A scan of the entries to a present object that answers `true`
recursed only into present dependers, each answering `true`: an AUTO or
INTERNAL depender is present since the list is closed, a NORMAL one since
`reportCascade` let it through. -/
theorem deleteDependentObjects_restrict_within {fuel : Nat}
    (hrec : AnswersWithin env msglevel oktodelete heap fuel) {object : ObjectAddress}
    {s s' : DropState} (hobj : objectAddressPresent object oktodelete = true)
    (hheap : s.depRel ⊆ heap)
    (h : deleteDependentObjects env .dropRestrict msglevel oktodelete
      (recursiveDeletion env .dropRestrict msglevel oktodelete fuel) object s = .ok true s') :
    DeletedWithin oktodelete s s' := by
  have hR := DeletedWithin.runRel oktodelete
  obtain ⟨-, ⟨-, hwithin⟩, -⟩ := caqlBeginscan_ok env
    (fun _ acc s₁ => Evolves s s₁ ∧ (acc = true → DeletedWithin oktodelete s s₁))
    (fun _ _ _ h => ⟨Evolves.runRel.trans h.1 (Evolves.runRel.scan _),
      fun ha => hR.trans (h.2 ha) (hR.scan _)⟩)
    (fun _ acc s₁ t _ s₂ ⟨hev, hacc⟩ ht hk _ hb => by
      have hev₂ := Steps.of_ok (dropDependent_evolves env .dropRestrict msglevel oktodelete
        (recursiveDeletion_evolves env .dropRestrict msglevel oktodelete fuel) object t acc) hb
      rcases dropDependent_cases env .dropRestrict msglevel oktodelete _ object t acc s₁ with
        ⟨-, e, -, h'⟩ | ⟨hty, fine, level, msg, hn, ha, h'⟩ <;> rw [h'] at hb
      · cases hb
      obtain ⟨r, s₃, hr, hp⟩ := bind_eq_ok.mp hb
      cases hp
      refine ⟨Evolves.runRel.trans hev hev₂, fun hall => ?_⟩
      simp only [Bool.and_eq_true] at hall
      obtain ⟨⟨hacc₁, hfine⟩, hr₁⟩ := hall
      -- the depender is present
      have hdep : objectAddressPresent t.form.depender oktodelete = true := by
        by_cases hnorm : t.form.deptype = 'n'
        · exact (hfine ▸ hn hnorm).present_of_restrict
        · have hai : t.form.deptype = 'a' ∨ t.form.deptype = 'i' := hty.resolve_left hnorm
          exact hclosed object hobj t.form (List.mem_map_of_mem _ (hheap (hev.depRel_subset ht)))
            hai ((referencedKey_iff _ _).mp hk)
      have hmid :
          DeletedWithin oktodelete s { s₁ with messages := s₁.messages ++ [(level, msg)] } :=
        hR.trans (hacc hacc₁) fun x hx => .inl hx
      exact hR.trans hmid (hrec _ _ (hr₁ ▸ hr) hdep fun _ hx => hheap (hev.depRel_subset hx)))
    ⟨Evolves.runRel.refl s, fun _ => hR.refl s⟩ h
  exact hwithin rfl

/-- **Calls that answer `true`.** Under RESTRICT, every call of
`recursiveDeletion` on a present object that answers `true` has passed to
`doDeletion` only present objects: Step 3 deletes the present object itself,
and an owner is recursed into only when `reportCascade` let it through. -/
theorem recursiveDeletion_restrict_within :
    ∀ fuel, AnswersWithin env msglevel oktodelete heap fuel := by
  have hR := DeletedWithin.runRel oktodelete
  intro fuel
  induction fuel with
  | zero => intro _ _ _ _ h; cases h
  | succ fuel ih =>
    intro object callingObject s s' h hobj hheap
    obtain ⟨owning, s₁, hsw, hb⟩ := recursiveDeletion_ok_cases env .dropRestrict msglevel
      oktodelete h
    have hheap₁ : s₁.depRel ⊆ heap := fun _ hx =>
      hheap ((sweep_ok env object callingObject hsw).1 hx)
    have hsweep : DeletedWithin oktodelete s s₁ := Steps.of_ok (Steps.caqlBeginscan env hR
      (fun _ acc s t _ _ _ => by
        rcases sweepOutgoing_cases object callingObject t acc s with
          ⟨-, e⟩ | ⟨-, -, -, e⟩ | ⟨_, -, e⟩ <;> rw [e] <;> exact fun x hx => .inl hx) none) hsw
    refine hR.trans hsweep ?_
    rcases hb with ⟨-, hb⟩ | ⟨w, rfl, hb⟩
    · -- Steps 2 and 3
      obtain ⟨ok, s₂, hdd, hb⟩ := bind_eq_ok.mp hb
      obtain ⟨rfl, -, -, hdel⟩ := deleteObject_ok env hb
      refine hR.trans (deleteDependentObjects_restrict_within hclosed ih hobj hheap₁ hdd)
        fun x hx => ?_
      rw [hdel, List.mem_append, List.mem_singleton] at hx
      exact hx.imp_right fun (e : x = object) => e ▸ hobj
    · -- the owner branch: `reportCascade` let the owner through
      obtain ⟨fine, level, msg, hrc, hrep⟩ :=
        reportCascade_cases env .dropRestrict msglevel oktodelete w object s₁
      obtain ⟨r, s₂, hr, hp⟩ := bind_eq_ok.mp (bind_of_ok hrc ▸ hb)
      obtain ⟨hfr, rfl⟩ := EStateM.Result.ok.inj hp
      simp only [Bool.and_eq_true] at hfr
      obtain ⟨rfl, rfl⟩ := hfr
      have hmid :
          DeletedWithin oktodelete s₁ { s₁ with messages := s₁.messages ++ [(level, msg)] } :=
        fun x hx => .inl hx
      exact hR.trans hmid (ih w (some object) hr hrep.present_of_restrict hheap₁)

end Calls

/-! ## Entry points under RESTRICT -/

/-- What a returning RESTRICT `performDeletion` destroyed is covered by its
target or by an object reachable from it through AUTO or INTERNAL entries. -/
theorem performDeletion_restrict_destroyed (env : DropEnv) (fuel : Nat)
    (rel : List FormDataPgDepend) (target : ObjectAddress) {s : DropState}
    (h : performDeletion env fuel target .dropRestrict (DropState.init rel) = .ok () s)
    {x : ObjectAddress} (hx : Destroyed s x) :
    target.covers x ∨ ∃ y, AutoReachable rel target y ∧ y.covers x := by
  obtain ⟨okt, s₁, ⟨s₀, hf⟩, hrel, hdel, hr⟩ := performDeletion_ok_from env fuel h
  have hclosed := findAutoDeletableObjects_autoClosed env (autoClosed_newObjectAddresses _) hf
  have hwithin := recursiveDeletion_restrict_within hclosed fuel target none hr
    (findAutoDeletableObjects_present env hf).2 (hrel ▸ List.Subset.refl _)
  obtain ⟨rest, hitems, hreach⟩ := findAutoDeletableObjects_appends env fuel target _ true hf
  obtain ⟨z, hz, hzx⟩ := hx
  rcases hwithin z hz with hz | hp
  · rw [hdel] at hz; cases hz
  -- the pre-scan's list is the target, then what is reachable from it
  obtain ⟨y, hy, hc⟩ := (objectAddressPresent_iff _ _).mp hp
  rw [hitems, items_newObjectAddresses, List.nil_append, List.mem_append] at hy
  rcases hy with hy | hy
  · split at hy
    · exact .inl (List.mem_singleton.mp hy ▸ ObjectAddress.covers_trans hc hzx)
    · cases hy
  · exact .inr ⟨y, DropState.init_depRel_form rel ▸ hreach y hy,
      ObjectAddress.covers_trans hc hzx⟩

/-- **RESTRICT drops only what goes with the target.** Every `performDeletion`
under RESTRICT that returns, on any catalog, in any scan order and with any
fuel, has passed to `doDeletion` only objects covered by its target or by an
object reachable from its target through AUTO or INTERNAL entries. -/
theorem performDeletion_restrict_drops_implicit (env : DropEnv) (fuel : Nat)
    (rel : List FormDataPgDepend) (target : ObjectAddress) {s : DropState}
    (h : performDeletion env fuel target .dropRestrict (DropState.init rel) = .ok () s) :
    ∀ x ∈ s.deleted, target.covers x ∨ ∃ y, AutoReachable rel target y ∧ y.covers x :=
  fun x hx => performDeletion_restrict_destroyed env fuel rel target h ⟨x, hx, x.covers_refl⟩

theorem performDeletion_restrict_drops_implicit_lostWhole :
    ∃ s, performDeletion (exampleEnv fun _ => 0) 4 (relationAddress 10) .dropRestrict
        (DropState.init lostWholeCatalog) = .ok () s ∧
      ∀ x ∈ s.deleted, (relationAddress 10).covers x ∨
        ∃ y, AutoReachable lostWholeCatalog (relationAddress 10) y ∧ y.covers x :=
  ⟨_, rfl, performDeletion_restrict_drops_implicit (exampleEnv fun _ => 0) 4 _ _ rfl⟩

/-! ## Multiple deletions under RESTRICT -/

/-- The first loop keeps the implicit list closed. -/
theorem collectImplicit_autoClosed (env : DropEnv) (fuel : Nat) :
    ∀ (objs : List ObjectAddress) (implicit : ObjectAddresses) {s : DropState}
      {implicit' : ObjectAddresses} {s' : DropState},
      collectImplicit env fuel objs implicit s = .ok implicit' s' →
      AutoClosed (s.depRel.map HeapTuple.form) implicit →
      AutoClosed (s.depRel.map HeapTuple.form) implicit'
  | [], _, _, _, _, h, hc => by cases h; exact hc
  | obj :: rest, implicit, s, implicit', s', h, hc => by
    unfold collectImplicit at h
    split at h
    · exact collectImplicit_autoClosed env fuel rest implicit h hc
    · obtain ⟨okt, s₁, hf, hr⟩ := bind_eq_ok.mp h
      have hrel := (Steps.of_ok (findAutoDeletableObjects_frame env fuel obj implicit false) hf).1
      have hc₁ := findAutoDeletableObjects_autoClosed env hc hf
      rw [← hrel] at hc₁ ⊢
      exact collectImplicit_autoClosed env fuel rest okt hr hc₁

/-- An object that goes with one of `targets`: a target, or reachable from one
through AUTO or INTERNAL entries of `heap`. -/
def GoesWithTargets (heap : List HeapTuple) (targets : List ObjectAddress) (y : ObjectAddress) :
    Prop :=
  ∃ t ∈ targets, y = t ∨ AutoReachable (heap.map HeapTuple.form) t y

/-- What the second loop keeps under RESTRICT: live entries from `heap`, a
closed implicit list of objects that go with the targets, and only objects such
objects cover deleted. -/
structure RestrictInv (heap : List HeapTuple) (targets : List ObjectAddress)
    (implicit : ObjectAddresses) (s : DropState) : Prop where
  live : s.depRel ⊆ heap
  closed : AutoClosed (s.depRel.map HeapTuple.form) implicit
  implicit_goes : ∀ y ∈ implicit.items, GoesWithTargets heap targets y
  deleted_goes : ∀ x ∈ s.deleted, CoveredBy (GoesWithTargets heap targets) x

section RestrictLoop

variable (env : DropEnv) (fuel : Nat) {heap : List HeapTuple} {targets : List ObjectAddress}

/-- One deleted target under RESTRICT: its pre-scan extends the implicit list
by the target and what is reachable from it, and the deletion, answering
`true`, stays within that list. -/
theorem performDeletionWithList_restrict {object : ObjectAddress} (hobj : object ∈ targets)
    {implicit implicit' : ObjectAddresses} {s s' : DropState}
    (hI : RestrictInv heap targets implicit s)
    (h : performDeletionWithList env fuel object implicit .dropRestrict s = .ok implicit' s') :
    RestrictInv heap targets implicit' s' := by
  obtain ⟨s₁, hf, hsame, himp, hr⟩ := performDeletionWithList_ok_from env fuel h
  have hclosed := findAutoDeletableObjects_autoClosed env hI.closed hf
  have hwithin := recursiveDeletion_restrict_within hclosed fuel object none hr
    (findAutoDeletableObjects_present env hf).2 (hsame.1 ▸ List.Subset.refl _)
  have hsub : s'.depRel ⊆ s.depRel := hsame.1 ▸
    (Steps.of_ok (recursiveDeletion_evolves env .dropRestrict .notice implicit' fuel object none)
      hr).depRel_subset
  have hgoes : ∀ y ∈ implicit'.items, GoesWithTargets heap targets y := fun y hy => by
    rcases himp y hy with hy | rfl | hreach
    · exact hI.implicit_goes y hy
    · exact ⟨y, hobj, .inl rfl⟩
    · exact ⟨object, hobj, .inr (hreach.mono (List.map_subset _ hI.live))⟩
  refine ⟨fun _ hx => hI.live (hsub hx), hclosed.mono (List.map_subset _ hsub), hgoes,
    fun x hx => ?_⟩
  rcases hwithin x hx with hx | hp
  · exact hI.deleted_goes x (hsame.2.1 ▸ hx)
  · obtain ⟨y, hy, hc⟩ := (objectAddressPresent_iff _ _).mp hp
    exact ⟨y, hgoes y hy, hc⟩

/-- **The second loop under RESTRICT** deletes only objects that go with the
targets: a skipped target changes nothing, a deleted one keeps the invariant. -/
theorem deleteTargets_restrict :
    ∀ (objs : List ObjectAddress) (implicit : ObjectAddresses) {s s' : DropState},
      deleteTargets env fuel .dropRestrict objs implicit s = .ok () s' → objs ⊆ targets →
      RestrictInv heap targets implicit s →
      ∀ x ∈ s'.deleted, CoveredBy (GoesWithTargets heap targets) x
  | [], _, _, _, h, _, hI => by cases h; exact hI.deleted_goes
  | obj :: rest, implicit, s, s', h, hsub, hI => by
    have hrest : rest ⊆ targets := fun _ hx => hsub (List.mem_cons_of_mem _ hx)
    unfold deleteTargets at h
    obtain ⟨_, _, hget, h⟩ := bind_eq_ok.mp h
    cases hget
    split at h
    · exact deleteTargets_restrict rest implicit h hrest hI
    split at h
    · exact deleteTargets_restrict rest implicit h hrest hI
    obtain ⟨implicit₁, s₁, hp, h⟩ := bind_eq_ok.mp h
    exact deleteTargets_restrict rest implicit₁ h hrest
      (performDeletionWithList_restrict env fuel (hsub (List.mem_cons_self _ _)) hI hp)

end RestrictLoop

/-- What a returning RESTRICT `performMultipleDeletions` destroyed is covered by
one of its targets or by an object reachable from one through AUTO or INTERNAL
entries. -/
theorem performMultipleDeletions_restrict_destroyed (env : DropEnv) (fuel : Nat)
    (rel : List FormDataPgDepend) (objects : ObjectAddresses) {s : DropState}
    (h : performMultipleDeletions env fuel objects .dropRestrict (DropState.init rel) = .ok () s)
    {x : ObjectAddress} (hx : Destroyed s x) :
    ∃ t ∈ objects.items, t.covers x ∨ ∃ y, AutoReachable rel t y ∧ y.covers x := by
  obtain ⟨_, s₁, hm, h⟩ := bind_eq_ok.mp h
  rw [modify_apply] at hm
  cases hm
  obtain ⟨implicit, s₂, hc, h⟩ := bind_eq_ok.mp h
  obtain ⟨hsame, himp⟩ := collectImplicit_ok env fuel objects.items newObjectAddresses hc
  have hclosed := collectImplicit_autoClosed env fuel _ _ hc (autoClosed_newObjectAddresses _)
  -- after the first loop: an implicit list of objects reachable from targets
  have hI : RestrictInv (DropState.init rel).depRel objects.items implicit s₂ := by
    refine ⟨by rw [hsame.1]; exact List.Subset.refl _, by rw [hsame.1]; exact hclosed,
      fun y hy => ?_, fun x hx => by rw [hsame.2.1] at hx; cases hx⟩
    rcases himp y hy with hy | ⟨t, ht, hr⟩
    · cases hy
    · exact ⟨t, ht, .inr hr⟩
  obtain ⟨z, hz, hzx⟩ := hx
  obtain ⟨y, ⟨t, ht, hy⟩, hc⟩ :=
    deleteTargets_restrict env fuel objects.items implicit h (List.Subset.refl _) hI z hz
  rw [DropState.init_depRel_form] at hy
  rcases hy with rfl | hr
  · exact ⟨y, ht, .inl (ObjectAddress.covers_trans hc hzx)⟩
  · exact ⟨t, ht, .inr ⟨y, hr, ObjectAddress.covers_trans hc hzx⟩⟩

/-- **RESTRICT drops only what goes with the targets.** Every
`performMultipleDeletions` under RESTRICT that returns, on any catalog, in any
scan order and with any fuel, has passed to `doDeletion` only objects covered
by one of its targets or by an object reachable from one through AUTO or
INTERNAL entries. -/
theorem performMultipleDeletions_restrict_drops_implicit (env : DropEnv) (fuel : Nat)
    (rel : List FormDataPgDepend) (objects : ObjectAddresses) {s : DropState}
    (h : performMultipleDeletions env fuel objects .dropRestrict (DropState.init rel) = .ok () s) :
    ∀ x ∈ s.deleted, ∃ t ∈ objects.items, t.covers x ∨ ∃ y, AutoReachable rel t y ∧ y.covers x :=
  fun x hx =>
    performMultipleDeletions_restrict_destroyed env fuel rel objects h ⟨x, hx, x.covers_refl⟩

/-- Dropping view `72`, index `71` and table `70` together under RESTRICT, in
this order: `72` goes first, `71` is implicit in `70`, and `70` then has no
dependent left that is not implicit. -/
theorem performMultipleDeletions_restrict_drops_implicit_indexed :
    ∃ s, performMultipleDeletions (exampleEnv fun _ => 0) 5
        (targetList [relationAddress 72, relationAddress 71, relationAddress 70]) .dropRestrict
        (DropState.init indexedTableCatalog) = .ok () s ∧
      ∀ x ∈ s.deleted, ∃ t ∈ (targetList [relationAddress 72, relationAddress 71,
          relationAddress 70]).items,
        t.covers x ∨ ∃ y, AutoReachable indexedTableCatalog t y ∧ y.covers x :=
  ⟨_, rfl, performMultipleDeletions_restrict_drops_implicit (exampleEnv fun _ => 0) 5 _ _ rfl⟩

/-! ## When RESTRICT refuses -/

/-- **A RESTRICT `performDeletion` goes through only when its whole deletion
closure goes with the target.** When the INTERNAL entries of the catalog are
from whole objects, a `performDeletion` under RESTRICT that returns, in any scan
order and with any fuel, has destroyed exactly the addresses covered by its
target or by an object reachable from it through AUTO or INTERNAL entries, and
every member of the target's deletion closure is so covered. So when some
member is not, a NORMAL dependent of the target say, RESTRICT raises. -/
theorem performDeletion_restrict_closure_implicit (env : DropEnv) (fuel : Nat)
    (rel : List FormDataPgDepend) (hwhole : ∀ d ∈ rel, d.deptype = 'i' → d.depender.objectSubId = 0)
    (target : ObjectAddress) {s : DropState}
    (h : performDeletion env fuel target .dropRestrict (DropState.init rel) = .ok () s) :
    (∀ x, Destroyed s x ↔ target.covers x ∨ ∃ y, AutoReachable rel target y ∧ y.covers x) ∧
      ∀ x, DeletionClosure rel target x →
        target.covers x ∨ ∃ y, AutoReachable rel target y ∧ y.covers x := by
  have hiff := performDeletion_destroyed_iff env fuel hwhole h
  have hout := fun x => performDeletion_restrict_destroyed env fuel rel target h (x := x)
  refine ⟨fun x => ⟨hout x, fun hx => (hiff x).mpr ?_⟩,
    fun x hx => hout x ((hiff x).mpr ⟨x, hx, x.covers_refl⟩)⟩
  -- what goes with the target is in its closure
  rcases hx with hc | ⟨y, hy, hc⟩
  · exact ⟨target, .target, hc⟩
  · exact ⟨y, hy.deletionClosure, hc⟩

/-- Table `90` with a TOAST table `92` INTERNAL to it, an index `91` AUTO on it
and an index `93` AUTO on the TOAST table. -/
def toastedTableCatalog : List FormDataPgDepend :=
  [.ofAddresses (relationAddress 92) (relationAddress 90) 'i',
    .ofAddresses (relationAddress 91) (relationAddress 90) 'a',
    .ofAddresses (relationAddress 93) (relationAddress 92) 'a']

theorem performDeletion_restrict_closure_implicit_toasted :
    (∀ d ∈ toastedTableCatalog, d.deptype = 'i' → d.depender.objectSubId = 0) ∧
      ∃ s, performDeletion (exampleEnv fun _ => 0) 4 (relationAddress 90) .dropRestrict
          (DropState.init toastedTableCatalog) = .ok () s ∧
        (∀ x, Destroyed s x ↔ (relationAddress 90).covers x ∨
          ∃ y, AutoReachable toastedTableCatalog (relationAddress 90) y ∧ y.covers x) ∧
        ∀ x, DeletionClosure toastedTableCatalog (relationAddress 90) x →
          (relationAddress 90).covers x ∨
            ∃ y, AutoReachable toastedTableCatalog (relationAddress 90) y ∧ y.covers x :=
  ⟨by decide, _, rfl,
    performDeletion_restrict_closure_implicit (exampleEnv fun _ => 0) 4 _ (by decide) _ rfl⟩

/-- **A RESTRICT `performMultipleDeletions` goes through only when the union of
the closures goes with the targets.** When the INTERNAL entries of the catalog
are from whole objects and no target sits below itself, a
`performMultipleDeletions` under RESTRICT that returns, in any scan order and
with any fuel, has destroyed exactly the addresses covered by a target or by an
object reachable from one through AUTO or INTERNAL entries, and every member of
a target's deletion closure is so covered: a dependent of one target may go
with another, but not with none. -/
theorem performMultipleDeletions_restrict_closures_implicit (env : DropEnv) (fuel : Nat)
    (rel : List FormDataPgDepend) (hwhole : ∀ d ∈ rel, d.deptype = 'i' → d.depender.objectSubId = 0)
    (objects : ObjectAddresses)
    (hacyclic : ∀ t ∈ objects.items, ∀ y, AutoReachable rel t y → ¬ y.covers t) {s : DropState}
    (h : performMultipleDeletions env fuel objects .dropRestrict (DropState.init rel) = .ok () s) :
    (∀ x, Destroyed s x ↔
      ∃ t ∈ objects.items, t.covers x ∨ ∃ y, AutoReachable rel t y ∧ y.covers x) ∧
      ∀ t ∈ objects.items, ∀ x, DeletionClosure rel t x →
        ∃ t' ∈ objects.items, t'.covers x ∨ ∃ y, AutoReachable rel t' y ∧ y.covers x := by
  have hiff := performMultipleDeletions_destroyed_iff env fuel hwhole hacyclic h
  have hout := fun x => performMultipleDeletions_restrict_destroyed env fuel rel objects h (x := x)
  refine ⟨fun x => ⟨hout x, fun hx => (hiff x).mpr ?_⟩,
    fun t ht x hx => hout x ((hiff x).mpr ⟨x, ⟨t, ht, hx⟩, x.covers_refl⟩)⟩
  -- what goes with a target is in that target's closure
  obtain ⟨t, ht, hc | ⟨y, hy, hc⟩⟩ := hx
  · exact ⟨t, ⟨t, ht, .target⟩, hc⟩
  · exact ⟨y, ⟨t, ht, hy.deletionClosure⟩, hc⟩

/-- Dropping view `72`, index `71` and table `70` together under RESTRICT: the
view, the only NORMAL dependent of the table, is a target itself. -/
theorem performMultipleDeletions_restrict_closures_implicit_indexed :
    (∀ d ∈ indexedTableCatalog, d.deptype = 'i' → d.depender.objectSubId = 0) ∧
      (∀ t ∈ (targetList [relationAddress 72, relationAddress 71, relationAddress 70]).items,
        ∀ y, AutoReachable indexedTableCatalog t y → ¬ y.covers t) ∧
      ∃ s, performMultipleDeletions (exampleEnv fun _ => 0) 5
          (targetList [relationAddress 72, relationAddress 71, relationAddress 70]) .dropRestrict
          (DropState.init indexedTableCatalog) = .ok () s ∧
        (∀ x, Destroyed s x ↔ ∃ t ∈ (targetList [relationAddress 72, relationAddress 71,
            relationAddress 70]).items,
          t.covers x ∨ ∃ y, AutoReachable indexedTableCatalog t y ∧ y.covers x) ∧
        ∀ t ∈ (targetList [relationAddress 72, relationAddress 71, relationAddress 70]).items,
          ∀ x, DeletionClosure indexedTableCatalog t x →
            ∃ t' ∈ (targetList [relationAddress 72, relationAddress 71, relationAddress 70]).items,
              t'.covers x ∨ ∃ y, AutoReachable indexedTableCatalog t' y ∧ y.covers x :=
  have hacyclic : ∀ t ∈ (targetList [relationAddress 72, relationAddress 71,
      relationAddress 70]).items, ∀ y, AutoReachable indexedTableCatalog t y → ¬ y.covers t :=
    fun _ _ _ hy => hy.not_covers_source (by decide)
  ⟨by decide, hacyclic, _, rfl,
    performMultipleDeletions_restrict_closures_implicit (exampleEnv fun _ => 0) 5 _ (by decide) _
      hacyclic rfl⟩

end CatalogDependency
