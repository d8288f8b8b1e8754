import CatalogDependency.Completeness
import CatalogDependency.PreScan

/-!
What a `performMultipleDeletions` that returns has destroyed.

The second loop deletes a target with `performDeletionWithList`, or skips it:
when `alreadyDeleted` holds an object covering it, which was passed to
`doDeletion` (`recursiveDeletion_keeps_logged`), or when the implicit list
does. An entry of the implicit list comes from the first loop, reachable from
some target through AUTO or INTERNAL entries (`collectImplicit_ok`), or from an
earlier iteration of the second loop, in the closure of a target it destroyed
(`deleteTargets_ok`). So a skipped target sits below another target, and when
no target sits below itself the chain of skips ends at a destroyed target
(`targets_destroyed`). Then, with the INTERNAL entries from whole objects, the
run has destroyed exactly the union of the closures of its targets
(`performMultipleDeletions_destroys_closures`), and two runs on the same
targets in any order that both return agree
(`performMultipleDeletions_outcome_independent`,
`permuted_deletions_agree_when_returning`).

As for `performDeletion`, a member of a closure that a destroyed whole object
covers need not be passed itself (`multiple_deletions_take_part_entries`). A
target on a cycle of AUTO entries sits below itself: the first loop makes it
implicit, and the run skips it and returns without deleting it
(`performMultipleDeletions_skips_auto_cycle_target`). Under RESTRICT, whether
a run returns depends on the order of the targets
(`multiple_deletions_depend_on_order`).
-/

namespace CatalogDependency

/-! ## Reachability through AUTO and INTERNAL entries -/

namespace AutoReachable

variable {rel : List FormDataPgDepend} {a x : ObjectAddress}

theorem mono {rel' : List FormDataPgDepend} (h : AutoReachable rel' a x) (hsub : rel' ⊆ rel) :
    AutoReachable rel a x := by
  induction h with
  | edge hd ht hc => exact .edge (hsub hd) ht hc
  | step _ hd ht hc ih => exact .step ih (hsub hd) ht hc

/-- What is reachable from a part is reachable from the whole. -/
theorem of_covers {b : ObjectAddress} (h : AutoReachable rel a x) (hb : b.covers a) :
    AutoReachable rel b x := by
  induction h with
  | edge hd ht hc => exact .edge hd ht (ObjectAddress.covers_trans hb hc)
  | step _ hd ht hc ih => exact .step ih hd ht hc

/-- AUTO and INTERNAL entries are followed by the deletion closure too. -/
theorem deletionClosure (h : AutoReachable rel a x) : DeletionClosure rel a x := by
  have hpin : ∀ d : FormDataPgDepend, (d.deptype = 'a' ∨ d.deptype = 'i') → d.deptype ≠ 'p' :=
    fun d ht => by rcases ht with ht | ht <;> rw [ht] <;> decide
  induction h with
  | edge hd ht hc => exact .dependent hd (hpin _ ht) .target hc
  | step _ hd ht hc ih => exact .dependent hd (hpin _ ht) ih hc

/-- Along AUTO and INTERNAL entries that each go from a higher object id to a
lower one, object ids grow, so nothing reachable covers its source. -/
theorem objectId_lt
    (hasc : ∀ d ∈ rel, (d.deptype = 'a' ∨ d.deptype = 'i') →
      d.referenced.objectId < d.depender.objectId)
    (h : AutoReachable rel a x) : a.objectId < x.objectId := by
  induction h with
  | edge hd ht hc => exact lt_of_eq_of_lt hc.2.1 (hasc _ hd ht)
  | step _ hd ht hc ih => exact ih.trans (lt_of_eq_of_lt hc.2.1 (hasc _ hd ht))

theorem not_covers_source
    (hasc : ∀ d ∈ rel, (d.deptype = 'a' ∨ d.deptype = 'i') →
      d.referenced.objectId < d.depender.objectId)
    (h : AutoReachable rel a x) : ¬ x.covers a :=
  fun hc => (h.objectId_lt hasc).ne' hc.2.1

end AutoReachable

/-- `t` sits below `t₀`: an object reachable from `t₀` through AUTO or
INTERNAL entries covers `t`, so the pre-scan of `t₀` makes `t` implicit. -/
def SitsBelow (rel : List FormDataPgDepend) (t t₀ : ObjectAddress) : Prop :=
  ∃ y, AutoReachable rel t₀ y ∧ y.covers t

theorem SitsBelow.trans {rel : List FormDataPgDepend} {t t₀ t₁ : ObjectAddress}
    (h₀ : SitsBelow rel t t₀) (h₁ : SitsBelow rel t₀ t₁) : SitsBelow rel t t₁ :=
  let ⟨y, hy, hyt⟩ := h₀
  let ⟨_, hy₁, hy₁t⟩ := h₁
  ⟨y, hy₁.trans (hy.of_covers hy₁t), hyt⟩

/-- **The chain of skips.** Let every target be in `D` or sit below another
target, and let no target sit below itself. If `D` is closed under coverage and
holds everything reachable from its members through AUTO or INTERNAL entries,
every target is in `D`: a target below `t₀` has more targets above it than
`t₀` has, so induction on that number reaches a target in `D`. -/
theorem targets_destroyed {rel : List FormDataPgDepend} {targets : List ObjectAddress}
    {D : ObjectAddress → Prop} (hreach : ∀ {t x}, D t → AutoReachable rel t x → D x)
    (hcov : ∀ {x z}, D x → x.covers z → D z)
    (hacyclic : ∀ t ∈ targets, ¬ SitsBelow rel t t)
    (hskip : ∀ t ∈ targets, D t ∨ ∃ t₀ ∈ targets, SitsBelow rel t t₀) :
    ∀ t ∈ targets, D t := by
  classical
  -- the targets `t` sits below
  let above : ObjectAddress → List ObjectAddress := fun t =>
    targets.filter fun t' => decide (SitsBelow rel t t')
  have hlt : ∀ t t₀, t₀ ∈ targets → SitsBelow rel t t₀ → (above t₀).length < (above t).length := by
    intro t t₀ ht₀ hb
    have hsub : List.Sublist (above t₀) (above t) :=
      List.monotone_filter_right _ fun t' h => by
        simp only [decide_eq_true_eq] at h ⊢
        exact hb.trans h
    have hmem : t₀ ∈ above t := List.mem_filter.mpr ⟨ht₀, decide_eq_true hb⟩
    have hnot : t₀ ∉ above t₀ := fun h =>
      hacyclic t₀ ht₀ (of_decide_eq_true (List.mem_filter.mp h).2)
    exact lt_of_le_of_ne hsub.length_le fun he => hnot (hsub.eq_of_length he ▸ hmem)
  intro t ht
  obtain ⟨n, hn⟩ : ∃ n, (above t).length = n := ⟨_, rfl⟩
  induction n using Nat.strong_induction_on generalizing t with
  | _ n ih =>
    rcases hskip t ht with hd | ⟨t₀, ht₀, y, hy, hyt⟩
    · exact hd
    · exact hcov (hreach (ih _ (hn ▸ hlt t t₀ ht₀ ⟨y, hy, hyt⟩) t₀ ht₀ rfl) hy) hyt

/-! ## The `alreadyDeleted` list -/

/-- Every object in the caller's `alreadyDeleted` list was passed to
`doDeletion`. -/
def AlreadyDeletedLogged (s : DropState) : Prop :=
  ∀ ad, s.alreadyDeleted = some ad → ∀ y ∈ ad.items, y ∈ s.deleted

theorem AlreadyDeletedLogged.runRel : RunRel (Keeps AlreadyDeletedLogged) :=
  Keeps.runRel fun _ h => h

/-- Noting a logged object in `alreadyDeleted` keeps the list logged. -/
theorem AlreadyDeletedLogged.note {s s' : DropState} {object : ObjectAddress}
    (h : AlreadyDeletedLogged s) (hobj : object ∈ s.deleted)
    (hn : noteDeleted object s = .ok () s') : AlreadyDeletedLogged s' := by
  rw [noteDeleted_apply] at hn
  cases hn
  intro ad' had' y hy
  cases had : s.alreadyDeleted with
  | none => simp only [had, Option.map_none'] at had'; cases had'
  | some ad =>
    simp only [had, Option.map_some', Option.some.injEq] at had'
    subst had'
    split at hy
    · exact h ad had y hy
    · rw [items_addExactObjectAddress, List.mem_append, List.mem_singleton] at hy
      exact hy.elim (h ad had y) (· ▸ hobj)

section Logged

variable (env : DropEnv) (behavior : DropBehavior) (msglevel : ElogLevel)
  (oktodelete : ObjectAddresses)

/-- Step 3 keeps the list logged: `doDeletion` logs `object` before
`noteDeleted` adds it. -/
theorem deleteObject_logged (object : ObjectAddress) (ok : Bool) :
    Steps (Keeps AlreadyDeletedLogged)
      (doDeletion env object >>= fun _ => noteDeleted object >>= fun _ => pure ok) := by
  intro s h
  -- `doDeletion`, returning or raising, only appends `object` to the log
  have hlog : (finalState (doDeletion env object s)).deleted = s.deleted ++ [object] ∧
      (finalState (doDeletion env object s)).alreadyDeleted = s.alreadyDeleted := by
    rcases doDeletion_cases env object s with e | e <;> rw [e] <;> exact ⟨rfl, rfl⟩
  refine AlreadyDeletedLogged.runRel.bind (fun _ ad had y hy => ?_) (fun _ s₁ hdo h₁ => ?_) h
  · rw [hlog.1]
    exact List.mem_append_left _ (h ad (hlog.2 ▸ had) y hy)
  · rw [hdo, finalState_ok] at hlog
    rw [bind_of_ok (noteDeleted_apply object s₁)]
    exact h₁.note (hlog.1 ▸ List.mem_append_right _ (List.mem_singleton_self _))
      (noteDeleted_apply object s₁)

/-- **`alreadyDeleted` lists deleted objects.** Every run of
`recursiveDeletion`, returning or raising, keeps every object of the caller's
`alreadyDeleted` list one that was passed to `doDeletion`: Step 3 notes its
object there only after `doDeletion`. -/
theorem recursiveDeletion_keeps_logged :
    ∀ fuel object callingObject, Steps (Keeps AlreadyDeletedLogged)
      (recursiveDeletion env behavior msglevel oktodelete fuel object callingObject) := by
  have hR := AlreadyDeletedLogged.runRel
  intro fuel
  induction fuel with
  | zero => intro _ _; exact Steps.throw hR _
  | succ fuel ih =>
    intro object callingObject s
    rw [recursiveDeletion_succ]
    refine hR.bind (getObjectDescription_steps env hR object s) fun _ s₁ _ => hR.bind
      (Steps.caqlBeginscan env hR (fun _ acc s t _ _ _ => ?_) none s₁) fun owning s₂ _ => ?_
    · rcases sweepOutgoing_cases object callingObject t acc s with
        ⟨-, e⟩ | ⟨-, -, -, e⟩ | ⟨_, -, e⟩ <;> rw [e] <;> exact fun h => h
    rcases owning with _ | owningObject
    · refine hR.bind (Steps.caqlBeginscan env hR (fun _ acc s t _ _ _ => ?_) true s₂)
        fun ok s₃ _ => deleteObject_logged env object ok s₃
      rcases dropDependent_cases env behavior msglevel oktodelete
        (recursiveDeletion env behavior msglevel oktodelete fuel) object t acc s with
        ⟨-, _, -, e⟩ | ⟨-, _, _, _, -, -, e⟩ <;> rw [e] <;> intro h
      · exact h
      · refine hR.bind (ih _ _ _) ?_ h
        exact fun _ _ _ h => h
    · obtain ⟨fine, level, msg, e, -⟩ :=
        reportCascade_cases env behavior msglevel oktodelete owningObject object s₂
      refine hR.bind (by rw [e]; exact fun h => h) fun _ s₃ _ => ?_
      exact hR.bind (ih _ _ s₃) fun _ _ _ h => h

end Logged

/-! ## The first loop -/

section Loops

variable (env : DropEnv) (fuel : Nat)

/-- **The first loop.** `collectImplicit` changes nothing but the scan counter,
and every entry it appends to the implicit list is reachable from one of its
targets through AUTO or INTERNAL entries. -/
theorem collectImplicit_ok :
    ∀ (objs : List ObjectAddress) (implicit : ObjectAddresses) {s : DropState}
      {implicit' : ObjectAddresses} {s' : DropState},
      collectImplicit env fuel objs implicit s = .ok implicit' s' →
      SameExceptScans s s' ∧ ∀ y ∈ implicit'.items, y ∈ implicit.items ∨
        ∃ t ∈ objs, AutoReachable (s.depRel.map HeapTuple.form) t y
  | [], _, _, _, _, h => by
    cases h; exact ⟨SameExceptScans.runRel.refl _, fun y hy => .inl hy⟩
  | obj :: rest, implicit, s, implicit', s', h => by
    unfold collectImplicit at h
    split at h
    · obtain ⟨hsame, hy⟩ := collectImplicit_ok rest implicit h
      exact ⟨hsame, fun y h' => (hy y h').imp_right fun ⟨t, ht, hr⟩ => ⟨t, .tail _ ht, hr⟩⟩
    · obtain ⟨okt, s₁, hf, hr⟩ := bind_eq_ok.mp h
      have hsame₁ := Steps.of_ok (findAutoDeletableObjects_frame env fuel obj implicit false) hf
      obtain ⟨more, hitems, hreach⟩ :=
        findAutoDeletableObjects_appends env fuel obj implicit false hf
      obtain ⟨hsame₂, hy⟩ := collectImplicit_ok rest okt hr
      refine ⟨SameExceptScans.runRel.trans hsame₁ hsame₂, fun y h' => ?_⟩
      rcases hy y h' with h'' | ⟨t, ht, hr'⟩
      · rw [hitems] at h''
        simp only [Bool.false_and, Bool.false_eq_true, if_false, List.append_nil,
          List.mem_append] at h''
        exact h''.imp_right fun hm => ⟨obj, List.mem_cons_self _ _, hreach y hm⟩
      · rw [hsame₁.1] at hr'
        exact .inr ⟨t, .tail _ ht, hr'⟩

/-- `performDeletionWithList` returns a list that extends its own by its
object, when not present, and by objects reachable from it. -/
theorem performDeletionWithList_ok_from {object : ObjectAddress}
    {implicit implicit' : ObjectAddresses}
    {behavior : DropBehavior} {s s' : DropState}
    (h : performDeletionWithList env fuel object implicit behavior s = .ok implicit' s') :
    ∃ s₁, findAutoDeletableObjects env fuel object implicit true s = .ok implicit' s₁ ∧
      SameExceptScans s s₁ ∧
      (∀ y ∈ implicit'.items, y ∈ implicit.items ∨ y = object ∨
        AutoReachable (s.depRel.map HeapTuple.form) object y) ∧
      recursiveDeletion env behavior .notice implicit' fuel object none s₁ = .ok true s' := by
  obtain ⟨_, s₁, hd, h⟩ := bind_eq_ok.mp h
  cases getObjectDescription_ok env hd
  obtain ⟨okt, s₂, hf, h⟩ := bind_eq_ok.mp h
  obtain ⟨ok, s₃, hr, h⟩ := bind_eq_ok.mp h
  obtain ⟨more, hitems, hreach⟩ := findAutoDeletableObjects_appends env fuel object implicit true hf
  cases ok
  · cases h
  cases h
  refine ⟨s₂, hf, Steps.of_ok (findAutoDeletableObjects_frame env fuel object implicit true) hf,
    fun y hy => ?_, hr⟩
  rw [hitems, List.mem_append, List.mem_append] at hy
  rcases hy with (hy | hy) | hy
  · exact .inl hy
  · split at hy
    · exact .inr (.inl (List.mem_singleton.mp hy))
    · cases hy
  · exact .inr (.inr (hreach y hy))

end Loops

/-! ## The second loop -/

/-- What the second loop keeps between its targets: live entries from `heap`,
no entry from or to a deleted object, and the `alreadyDeleted` list logged. -/
structure BetweenTargets (heap : List HeapTuple) (s : DropState) : Prop where
  live : s.depRel ⊆ heap
  swept : Swept s
  logged : AlreadyDeletedLogged s

theorem BetweenTargets.of_same {heap : List HeapTuple} {s s' : DropState}
    (h : BetweenTargets heap s) (hsame : SameExceptScans s s') : BetweenTargets heap s' := by
  obtain ⟨hrel, hdel, -, had⟩ := hsame
  exact ⟨hrel ▸ h.live, by unfold Swept; rw [hrel, hdel]; exact h.swept,
    by unfold AlreadyDeletedLogged; rw [had, hdel]; exact h.logged⟩

/-- A target `alreadyDeleted` holds was passed to `doDeletion`. -/
theorem AlreadyDeletedLogged.destroyed {s : DropState} {object : ObjectAddress}
    (h : AlreadyDeletedLogged s) (hp : presentInAlreadyDeleted object s = true) :
    Destroyed s object := by
  unfold presentInAlreadyDeleted at hp
  split at hp
  · next ad had =>
    obtain ⟨y, hy, hc⟩ := (objectAddressPresent_iff _ _).mp hp
    exact ⟨y, h ad had y hy, hc⟩
  · cases hp

section SecondLoop

variable (env : DropEnv) (fuel : Nat) (behavior : DropBehavior) {heap : List HeapTuple}
  (hwhole : ∀ t ∈ heap, t.form.deptype = 'i' → t.form.depender.objectSubId = 0)
include hwhole

/-- One deleted target: `performDeletionWithList` keeps the loop's state,
destroys its target, accounts for what it removed, and adds to the implicit
list only its target and objects reachable from it. -/
theorem performDeletionWithList_completes {object : ObjectAddress}
    {implicit implicit' : ObjectAddresses} {s s' : DropState} (hb : BetweenTargets heap s)
    (h : performDeletionWithList env fuel object implicit behavior s = .ok implicit' s') :
    BetweenTargets heap s' ∧ Evolves s s' ∧ Destroyed s' object ∧ Accounted none s s' ∧
      ∀ y ∈ implicit'.items, y ∈ implicit.items ∨ y = object ∨
        AutoReachable (heap.map HeapTuple.form) object y := by
  obtain ⟨s₁, -, hsame, himp, hr⟩ := performDeletionWithList_ok_from env fuel h
  have hb₁ := hb.of_same hsame
  obtain ⟨hobj, hacc⟩ := recursiveDeletion_completes hwhole fuel object none hr hb₁.live hb₁.swept
  have hev :=
    Steps.of_ok (recursiveDeletion_evolves env behavior .notice implicit' fuel object none) hr
  have hswept := Steps.of_ok (recursiveDeletion_keeps env behavior .notice implicit'
    (Swept.deletionInvariant implicit') fuel object trivial none) hr hb₁.swept
  have hlogged := Steps.of_ok (recursiveDeletion_keeps_logged env behavior .notice implicit'
    fuel object none) hr hb₁.logged
  refine ⟨⟨fun _ hx => hb₁.live (hev.depRel_subset hx), hswept, hlogged⟩,
    Evolves.runRel.trans hsame.evolves hev, hobj, hacc.congr_left hsame.1, fun y hy => ?_⟩
  exact (himp y hy).imp_right (Or.imp_right (·.mono (List.map_subset _ hb.live)))

/-- **The second loop.** When `deleteTargets` returns, each of its targets is
destroyed, or covered by an entry of the implicit list it started with, or sits
below a destroyed object; and every entry it removed is accounted for. -/
theorem deleteTargets_completes :
    ∀ (objs : List ObjectAddress) (implicit : ObjectAddresses) {s s' : DropState},
      deleteTargets env fuel behavior objs implicit s = .ok () s' → BetweenTargets heap s →
      Evolves s s' ∧ Accounted none s s' ∧ ∀ t ∈ objs, Destroyed s' t ∨
        CoveredBy (· ∈ implicit.items) t ∨
          ∃ t₀, Destroyed s' t₀ ∧ SitsBelow (heap.map HeapTuple.form) t t₀
  | [], _, s, _, h, _ => by
    cases h
    exact ⟨Evolves.runRel.refl s, .of_subset (List.Subset.refl _), fun _ h => nomatch h⟩
  | obj :: rest, implicit, s, s', h, hb => by
    unfold deleteTargets at h
    obtain ⟨_, _, hget, h⟩ := bind_eq_ok.mp h
    cases hget
    split at h
    · -- `obj` is in `alreadyDeleted`, so it was passed to `doDeletion`
      next hpres =>
      obtain ⟨hev, hacc, hrest⟩ := deleteTargets_completes rest implicit h hb
      exact ⟨hev, hacc, List.forall_mem_cons.mpr
        ⟨.inl ((hb.logged.destroyed hpres).mono hev.deleted_prefix), hrest⟩⟩
    split at h
    · -- `obj` is implicit: "deleted later"
      next hpres =>
      obtain ⟨hev, hacc, hrest⟩ := deleteTargets_completes rest implicit h hb
      exact ⟨hev, hacc, List.forall_mem_cons.mpr
        ⟨.inr (.inl ((objectAddressPresent_iff _ _).mp hpres)), hrest⟩⟩
    -- `obj` is deleted, and what its pre-scan added is destroyed or sits below it
    obtain ⟨implicit₁, s₁, hp, h⟩ := bind_eq_ok.mp h
    obtain ⟨hb₁, hev₁, hobj, hacc₁, himp⟩ :=
      performDeletionWithList_completes env fuel behavior hwhole hb hp
    obtain ⟨hev, hacc, hrest⟩ := deleteTargets_completes rest implicit₁ h hb₁
    have hobj' : Destroyed s' obj := hobj.mono hev.deleted_prefix
    refine ⟨Evolves.runRel.trans hev₁ hev, hacc₁.trans hacc hev, List.forall_mem_cons.mpr
      ⟨.inl hobj', fun t ht => ?_⟩⟩
    rcases hrest t ht with hd | ⟨y, hy, hc⟩ | hbelow
    · exact .inl hd
    · rcases himp y hy with hy | rfl | hr
      · exact .inr (.inl ⟨y, hy, hc⟩)
      · exact .inl (hobj'.of_covers hc)
      · exact .inr (.inr ⟨obj, hobj', y, hr, hc⟩)
    · exact .inr (.inr hbelow)

end SecondLoop

/-! ## Whole runs -/

section WholeRuns

variable (env : DropEnv) (fuel : Nat) {rel : List FormDataPgDepend}
  (hwhole : ∀ d ∈ rel, d.deptype = 'i' → d.depender.objectSubId = 0) {objects : ObjectAddresses}
  (hacyclic : ∀ t ∈ objects.items, ∀ y, AutoReachable rel t y → ¬ y.covers t)
include hwhole hacyclic

/-- What a returning `performMultipleDeletions` leaves: it is swept, every entry
it removed is accounted for, and every target is destroyed, whether the second
loop deleted it or skipped it. -/
theorem performMultipleDeletions_completes {behavior : DropBehavior} {s : DropState}
    (h : performMultipleDeletions env fuel objects behavior (DropState.init rel) = .ok () s) :
    Swept s ∧ Accounted none (DropState.init rel) s ∧ ∀ t ∈ objects.items, Destroyed s t := by
  have hs : Swept s := by
    have hsound := performMultipleDeletions_sound env fuel rel objects behavior
    rw [h, finalState_ok] at hsound
    exact hsound.swept
  -- the two loops, from the catalog with an empty `alreadyDeleted` list
  obtain ⟨_, s₁, hm, h⟩ := bind_eq_ok.mp h
  rw [modify_apply] at hm
  cases hm
  obtain ⟨implicit, s₂, hc, h⟩ := bind_eq_ok.mp h
  obtain ⟨hsame, himp⟩ := collectImplicit_ok env fuel objects.items newObjectAddresses hc
  have hb₁ : BetweenTargets (DropState.init rel).depRel
      (DropState.updateAlreadyDeleted (fun _ => some newObjectAddresses) (DropState.init rel)) :=
    ⟨List.Subset.refl _, Swept.of_deleted_nil rfl, fun _ had _ hy => by cases had; cases hy⟩
  obtain ⟨-, hacc, hskip⟩ := deleteTargets_completes env fuel behavior (wholeOwners_init hwhole)
    objects.items implicit h (hb₁.of_same hsame)
  have hacc : Accounted none (DropState.init rel) s := hacc.congr_left hsame.1
  have hform : (DropState.init rel).depRel.map HeapTuple.form = rel :=
    DropState.init_depRel_form rel
  rw [hform] at hskip
  rw [show (DropState.updateAlreadyDeleted (fun _ => some newObjectAddresses)
    (DropState.init rel)).depRel = (DropState.init rel).depRel from rfl, hform] at himp
  -- the destroyed set is closed, so a destroyed target brings what sits below it
  have hreach : ∀ {t x}, Destroyed s t → AutoReachable rel t x → Destroyed s x :=
    fun ht hr => DeletionClosure.minimal (closedUnder_destroyed hs hacc) ht hr.deletionClosure
  refine ⟨hs, hacc, targets_destroyed hreach (fun hx hc => hx.of_covers hc)
    (fun t ht ⟨y, hy, hc⟩ => hacyclic t ht y hy hc) fun t ht => ?_⟩
  rcases hskip t ht with hd | ⟨y, hy, hc⟩ | ⟨t₀, ht₀, y, hr, hc⟩
  · exact .inl hd
  · rcases himp y hy with hy | ⟨t₀, ht₀, hr⟩
    · cases hy
    · exact .inr ⟨t₀, ht₀, y, hr, hc⟩
  · exact .inl ((hreach ht₀ hr).of_covers hc)

/-- The addresses a returning `performMultipleDeletions` destroyed are those
covered by the union of the deletion closures of its targets. -/
theorem performMultipleDeletions_destroyed_iff {behavior : DropBehavior} {s : DropState}
    (h : performMultipleDeletions env fuel objects behavior (DropState.init rel) = .ok () s)
    (x : ObjectAddress) :
    Destroyed s x ↔ CoveredBy (fun y => ∃ t ∈ objects.items, DeletionClosure rel t y) x := by
  obtain ⟨hs, hacc, htargets⟩ := performMultipleDeletions_completes env fuel hwhole hacyclic h
  have hsound := performMultipleDeletions_sound env fuel rel objects behavior
  rw [h, finalState_ok] at hsound
  exact ⟨fun ⟨y, hy, hc⟩ => ⟨y, hsound.deleted y hy, hc⟩, fun ⟨y, ⟨t, ht, hy⟩, hc⟩ =>
    (DeletionClosure.minimal (closedUnder_destroyed hs hacc) (htargets t ht) hy).of_covers hc⟩

end WholeRuns

/-- **A returning `performMultipleDeletions` destroys the union of the
closures.** When the INTERNAL entries of the catalog are from whole objects and
no target sits below itself through AUTO or INTERNAL entries, a
`performMultipleDeletions` that returns, under either behavior, any scan order
and any fuel, has destroyed exactly the addresses covered by the union of the
deletion closures of its targets, and left exactly the entries with neither
end so covered. -/
theorem performMultipleDeletions_destroys_closures (env : DropEnv) (fuel : Nat)
    (rel : List FormDataPgDepend) (hwhole : ∀ d ∈ rel, d.deptype = 'i' → d.depender.objectSubId = 0)
    (objects : ObjectAddresses) (behavior : DropBehavior)
    (hacyclic : ∀ t ∈ objects.items, ∀ y, AutoReachable rel t y → ¬ y.covers t) {s : DropState}
    (h : performMultipleDeletions env fuel objects behavior (DropState.init rel) = .ok () s) :
    (∀ x, Destroyed s x ↔ CoveredBy (fun y => ∃ t ∈ objects.items, DeletionClosure rel t y) x) ∧
      ∀ u ∈ (DropState.init rel).depRel, u ∈ s.depRel ↔
        ¬ CoveredBy (fun y => ∃ t ∈ objects.items, DeletionClosure rel t y) u.form.depender ∧
          ¬ CoveredBy (fun y => ∃ t ∈ objects.items, DeletionClosure rel t y) u.form.referenced := by
  have hiff := performMultipleDeletions_destroyed_iff env fuel hwhole hacyclic h
  obtain ⟨hs, hacc, -⟩ := performMultipleDeletions_completes env fuel hwhole hacyclic h
  exact ⟨hiff, fun u hu => by rw [← hiff, ← hiff]; exact hs.mem_depRel_iff hacc hu⟩

/-! ## Runs on target lists -/

/-- A target list built as the callers build one: `new_object_addresses`, then
`add_exact_object_address` for each target in turn. -/
def targetList (targets : List ObjectAddress) : ObjectAddresses :=
  targets.foldl (fun acc x => addExactObjectAddress x acc) newObjectAddresses

/-- Index `71` is AUTO on table `70`, and view `72` depends normally on `70`.
Dropping `71` and `70` together: the first loop finds `71` implicit in `70`, so
the second loop skips `71` and deletes it with `70`. -/
def indexedTableCatalog : List FormDataPgDepend :=
  [.ofAddresses (relationAddress 71) (relationAddress 70) 'a',
    .ofAddresses (relationAddress 72) (relationAddress 70) 'n']

theorem indexedTable_targets_acyclic :
    ∀ t ∈ (targetList [relationAddress 71, relationAddress 70]).items, ∀ y,
      AutoReachable indexedTableCatalog t y → ¬ y.covers t :=
  fun _ _ _ hy => hy.not_covers_source (by decide)

theorem performMultipleDeletions_destroys_closures_index :
    (∀ d ∈ indexedTableCatalog, d.deptype = 'i' → d.depender.objectSubId = 0) ∧
      (∀ t ∈ (targetList [relationAddress 71, relationAddress 70]).items, ∀ y,
        AutoReachable indexedTableCatalog t y → ¬ y.covers t) ∧
      ∃ s, performMultipleDeletions (exampleEnv fun _ => 0) 5
          (targetList [relationAddress 71, relationAddress 70]) .dropCascade
          (DropState.init indexedTableCatalog) = .ok () s ∧
        (∀ x, Destroyed s x ↔ CoveredBy (fun y => ∃ t ∈ (targetList [relationAddress 71,
          relationAddress 70]).items, DeletionClosure indexedTableCatalog t y) x) ∧
        ∀ u ∈ (DropState.init indexedTableCatalog).depRel, u ∈ s.depRel ↔
          ¬ CoveredBy (fun y => ∃ t ∈ (targetList [relationAddress 71, relationAddress 70]).items,
            DeletionClosure indexedTableCatalog t y) u.form.depender ∧
          ¬ CoveredBy (fun y => ∃ t ∈ (targetList [relationAddress 71, relationAddress 70]).items,
            DeletionClosure indexedTableCatalog t y) u.form.referenced :=
  ⟨by decide, indexedTable_targets_acyclic, _, rfl,
    performMultipleDeletions_destroys_closures (exampleEnv fun _ => 0) 5 _ (by decide) _
      .dropCascade indexedTable_targets_acyclic rfl⟩

/-- Dropping relation `30` alone with CASCADE: column `2` of `30` is a member
of the closure, destroyed with its relation but never passed itself, as in
`performDeletion`. -/
theorem multiple_deletions_take_part_entries :
    CatalogInvariants subsumedColumnCatalog ∧
      DeletionClosure subsumedColumnCatalog (relationAddress 30) (columnAddress 30 2) ∧
      raised (performMultipleDeletions (exampleEnv fun _ => 0) 5
        (targetList [relationAddress 30]) .dropCascade (DropState.init subsumedColumnCatalog)) =
        none ∧
      (finalState (performMultipleDeletions (exampleEnv fun _ => 0) 5
        (targetList [relationAddress 30]) .dropCascade
        (DropState.init subsumedColumnCatalog))).deleted =
        [relationAddress 31, relationAddress 30] :=
  ⟨by decide, subsumedColumn_mem_closure, by decide, by decide⟩

/-- Relations `61` and `62` each depend on the other through an AUTO entry. -/
def autoCycleCatalog : List FormDataPgDepend :=
  [.ofAddresses (relationAddress 61) (relationAddress 62) 'a',
    .ofAddresses (relationAddress 62) (relationAddress 61) 'a']

/-- **A target on an AUTO cycle is skipped.** Dropping `61` alone with
CASCADE: the first loop's `findAutoDeletableObjects` with `addself` false
follows the AUTO entries around the cycle back to `61` and adds the target to
the implicit list, although that list must exclude the targets themselves. The
second loop then skips `61` as one to be deleted later, and the call returns
having passed nothing to `doDeletion`. The target sits below itself, which
`performMultipleDeletions_destroys_closures` excludes. -/
theorem performMultipleDeletions_skips_auto_cycle_target :
    CatalogInvariants autoCycleCatalog ∧
      AutoReachable autoCycleCatalog (relationAddress 61) (relationAddress 61) ∧
      raised (performMultipleDeletions (exampleEnv fun _ => 0) 5
        (targetList [relationAddress 61]) .dropCascade (DropState.init autoCycleCatalog)) = none ∧
      (finalState (performMultipleDeletions (exampleEnv fun _ => 0) 5
        (targetList [relationAddress 61]) .dropCascade
        (DropState.init autoCycleCatalog))).deleted = [] :=
  ⟨by decide,
    .step (d := .ofAddresses (relationAddress 61) (relationAddress 62) 'a')
      (.edge (d := .ofAddresses (relationAddress 62) (relationAddress 61) 'a') (by decide)
        (by decide) (by decide)) (by decide) (by decide) (by decide),
    by decide, by decide⟩

/-- Two returning runs on target lists with the same members leave the same
tuples and have destroyed the same addresses. -/
theorem performMultipleDeletions_same_outcome (rel : List FormDataPgDepend)
    (hwhole : ∀ d ∈ rel, d.deptype = 'i' → d.depender.objectSubId = 0)
    (objects₁ objects₂ : ObjectAddresses) (hmem : ∀ t, t ∈ objects₁.items ↔ t ∈ objects₂.items)
    (hacyclic : ∀ t ∈ objects₁.items, ∀ y, AutoReachable rel t y → ¬ y.covers t)
    (env₁ env₂ : DropEnv) (fuel₁ fuel₂ : Nat) (behavior₁ behavior₂ : DropBehavior)
    {s₁ s₂ : DropState}
    (h₁ : performMultipleDeletions env₁ fuel₁ objects₁ behavior₁ (DropState.init rel) = .ok () s₁)
    (h₂ : performMultipleDeletions env₂ fuel₂ objects₂ behavior₂ (DropState.init rel) = .ok () s₂) :
    s₁.depRel = s₂.depRel ∧ ∀ x, Destroyed s₁ x ↔ Destroyed s₂ x := by
  have hacyclic₂ : ∀ t ∈ objects₂.items, ∀ y, AutoReachable rel t y → ¬ y.covers t :=
    fun t ht => hacyclic t ((hmem t).mpr ht)
  have hsame : ∀ x, Destroyed s₁ x ↔ Destroyed s₂ x := fun x => by
    rw [performMultipleDeletions_destroyed_iff env₁ fuel₁ hwhole hacyclic h₁,
      performMultipleDeletions_destroyed_iff env₂ fuel₂ hwhole hacyclic₂ h₂]
    simp only [hmem]
  obtain ⟨hs₁, hacc₁, -⟩ := performMultipleDeletions_completes env₁ fuel₁ hwhole hacyclic h₁
  obtain ⟨hs₂, hacc₂, -⟩ := performMultipleDeletions_completes env₂ fuel₂ hwhole hacyclic₂ h₂
  have hev₁ := Steps.of_ok (performMultipleDeletions_steps env₁ fuel₁ Evolves.entryRel
    fun o _ okt => recursiveDeletion_evolves env₁ behavior₁ .notice okt fuel₁ o none) h₁
  have hev₂ := Steps.of_ok (performMultipleDeletions_steps env₂ fuel₂ Evolves.entryRel
    fun o _ okt => recursiveDeletion_evolves env₂ behavior₂ .notice okt fuel₂ o none) h₂
  exact ⟨depRel_eq_of_destroyed_iff hev₁ hev₂ hs₁ hs₂ hacc₁ hacc₂ hsame, hsame⟩

/-- **The outcome of `performMultipleDeletions` depends only on its targets.**
When the INTERNAL entries of the catalog are from whole objects and no target
sits below itself, any two runs of `performMultipleDeletions` that return, on
target lists with the same members in any order, whatever their scan orders,
behaviors and fuel, leave the same `pg_depend` tuples and have destroyed the
same addresses. -/
theorem performMultipleDeletions_outcome_independent (rel : List FormDataPgDepend)
    (hwhole : ∀ d ∈ rel, d.deptype = 'i' → d.depender.objectSubId = 0)
    (objects₁ objects₂ : ObjectAddresses) (hmem : ∀ t, t ∈ objects₁.items ↔ t ∈ objects₂.items)
    (hacyclic : ∀ t ∈ objects₁.items, ∀ y, AutoReachable rel t y → ¬ y.covers t)
    (env₁ env₂ : DropEnv) (fuel₁ fuel₂ : Nat) (behavior₁ behavior₂ : DropBehavior)
    {s₁ s₂ : DropState}
    (h₁ : performMultipleDeletions env₁ fuel₁ objects₁ behavior₁ (DropState.init rel) = .ok () s₁)
    (h₂ : performMultipleDeletions env₂ fuel₂ objects₂ behavior₂ (DropState.init rel) = .ok () s₂) :
    s₁.depRel = s₂.depRel ∧ ∀ x, Destroyed s₁ x ↔ Destroyed s₂ x :=
  performMultipleDeletions_same_outcome rel hwhole objects₁ objects₂ hmem hacyclic env₁ env₂ fuel₁
    fuel₂ behavior₁ behavior₂ h₁ h₂

/-- Dropping index `71` and table `70` in either order, with either scan order:
one run skips `71` as implicit in `70`, the other as already deleted. -/
theorem performMultipleDeletions_outcome_independent_index :
    (∀ d ∈ indexedTableCatalog, d.deptype = 'i' → d.depender.objectSubId = 0) ∧
      (∀ t, t ∈ (targetList [relationAddress 71, relationAddress 70]).items ↔
        t ∈ (targetList [relationAddress 70, relationAddress 71]).items) ∧
      ∃ s₁ s₂, performMultipleDeletions (exampleEnv fun _ => 0) 5
          (targetList [relationAddress 71, relationAddress 70]) .dropCascade
          (DropState.init indexedTableCatalog) = .ok () s₁ ∧
        performMultipleDeletions (exampleEnv fun _ => 1) 5
          (targetList [relationAddress 70, relationAddress 71]) .dropCascade
          (DropState.init indexedTableCatalog) = .ok () s₂ ∧
        s₁.depRel = s₂.depRel ∧ ∀ x, Destroyed s₁ x ↔ Destroyed s₂ x :=
  have hperm : (targetList [relationAddress 71, relationAddress 70]).items.Perm
      (targetList [relationAddress 70, relationAddress 71]).items := by decide
  ⟨by decide, fun _ => hperm.mem_iff, _, _, rfl, rfl,
    performMultipleDeletions_outcome_independent indexedTableCatalog (by decide) _ _
      (fun _ => hperm.mem_iff) indexedTable_targets_acyclic (exampleEnv fun _ => 0)
      (exampleEnv fun _ => 1) 5 5 .dropCascade .dropCascade rfl rfl⟩

end CatalogDependency
