import Mathlib.Data.List.Basic
import CatalogDependency.Closure

/-!
The corruption errors of `recursiveDeletion`: "incorrect use of PIN
dependency" and "multiple INTERNAL dependencies".

Only Step 1 raises them: on a PIN entry from the object, or on a second
INTERNAL entry from it to an owner other than the caller (`sweep_shown`). The
scan of a whole object returns the entries of its sub-objects too, so the two
INTERNAL entries may come from different parts of one object. Every
corruption error of a run therefore names an object of a known class that has
a PIN entry from it, or two INTERNAL entries from it or its parts, in the
catalog the run started from (`corruption_origin`).

PIN entries have the zero depender and class OIDs are not zero, so the first
error never arises. The second never arises when no object has two INTERNAL
entries from itself and its parts together (`corruption_unreachable`). One
INTERNAL entry per dependent address is not enough
(`subobject_owners_raise_multiple_internal`).
-/

namespace CatalogDependency

variable {α β : Type}

/-! ## What a corruption error shows about the catalog -/

/-- What the outcome of a run shows about the entries `rel` it started from: a
corruption error names an object of a known class with a PIN entry from it,
or with two INTERNAL entries from it or its parts. Other outcomes show
nothing. -/
def CorruptionShown (env : DropEnv) (rel : List FormDataPgDepend) : Option DropError → Prop
  | some (.incorrectPin o) => (∃ c, getObjectClass env.objectClasses o = some c) ∧
      ∃ d ∈ rel, d.deptype = 'p' ∧ o.covers d.depender
  | some (.multipleInternal o) => (∃ c, getObjectClass env.objectClasses o = some c) ∧
      2 ≤ (rel.filter fun d => d.deptype = 'i' ∧ o.covers d.depender).length
  | _ => True

/-- What the entries of a sublist show, the whole list shows. -/
theorem CorruptionShown.mono {env : DropEnv} {rel rel' : List FormDataPgDepend}
    (hsub : List.Sublist rel' rel) {r : Option DropError} (h : CorruptionShown env rel' r) :
    CorruptionShown env rel r := by
  rcases r with _ | e
  · trivial
  cases e
  case incorrectPin o =>
    obtain ⟨hc, d, hd, hp⟩ := h
    exact ⟨hc, d, hsub.subset hd, hp⟩
  case multipleInternal o => exact ⟨h.1, h.2.trans (hsub.filter _).length_le⟩
  all_goals trivial

theorem CorruptionShown.of_evolves {env : DropEnv} {s s₁ : DropState} (hev : Evolves s s₁)
    {r : Option DropError} (h : CorruptionShown env (s₁.depRel.map HeapTuple.form) r) :
    CorruptionShown env (s.depRel.map HeapTuple.form) r :=
  h.mono (hev.depRel_sublist.map _)

/-- Every error `x` raises is shown by the live entries of the state it
started in. -/
def Explained (env : DropEnv) (x : DropM α) : Prop :=
  ∀ s e s', x s = .error e s' → CorruptionShown env (s.depRel.map HeapTuple.form) (some e)

section Explained

variable {env : DropEnv}

theorem Explained.of_ok {x : DropM α} (h : ∀ s, ∃ a s', x s = .ok a s') : Explained env x := by
  intro s e s' he
  obtain ⟨a, s₁, h⟩ := h s
  rw [h] at he
  cases he

theorem Explained.pure (a : α) : Explained env (pure a : DropM α) :=
  .of_ok fun s => ⟨a, s, rfl⟩

/-- Raising an error that shows nothing. -/
theorem Explained.throw {e : DropError} (he : ∀ rel, CorruptionShown env rel (some e)) :
    Explained env (throw e : DropM α) := by
  intro s e' s' h
  cases h
  exact he _

theorem Explained.bind {x : DropM α} {f : α → DropM β} (hx : Explained env x)
    (hxe : Steps Evolves x) (hf : ∀ a, Explained env (f a)) : Explained env (x >>= f) := by
  intro s e s' h
  rcases bind_eq_error.mp h with h | ⟨a, s₁, hx', h⟩
  · exact hx s e s' h
  · exact (hf a s₁ e s' h).of_evolves (hxe.of_ok hx')

/-- A scan whose body explains its errors and deletes as runs do. -/
theorem Explained.caqlBeginscan {key : FormDataPgDepend → Bool} {body : HeapTuple → α → DropM α}
    (hbody : ∀ t acc, Explained env (body t acc)) (hbe : ∀ t acc, Steps Evolves (body t acc))
    (init : α) : Explained env (caqlBeginscan env key body init) := by
  intro s e s' h
  rcases caqlBeginscan_error env (fun _ _ s₁ => Evolves s s₁)
      (fun _ _ _ h => Evolves.runRel.trans h (Evolves.runRel.scan _))
      (fun _ acc _ t _ _ h _ _ _ hb => Evolves.runRel.trans h ((hbe t acc).of_ok hb))
      (Evolves.runRel.refl s) h with rfl | ⟨_, acc, s₁, t, hev, -, -, -, hb⟩
  · trivial
  · exact (hbody t acc s₁ e s' hb).of_evolves hev

/-- The outcome of a run from the state before a run on `rel`. -/
theorem Explained.raised {x : DropM α} (hx : Explained env x) (rel : List FormDataPgDepend) :
    CorruptionShown env rel (raised (x (DropState.init rel))) := by
  cases h : x (DropState.init rel) with
  | ok => trivial
  | error e s' => simpa using hx _ e s' h

end Explained

/-! ## Step 1 -/

/-- **Step 1, one tuple.** Every error `sweepOutgoing` can raise. -/
theorem sweepOutgoing_error {object : ObjectAddress} {callingObject : Option ObjectAddress}
    {t : HeapTuple} {owning : Option ObjectAddress} {s s' : DropState} {e : DropError}
    (h : sweepOutgoing object callingObject t owning s = .error e s') :
    (e = .incorrectPin object ∧ t.form.deptype = 'p') ∨
      (e = .multipleInternal object ∧ t.form.deptype = 'i' ∧ owning.isSome) ∨
      (∃ other, e = .requiresIt object other ∧ t.form.deptype = 'i' ∧ callingObject = none) ∨
      (e = .unrecognizedDeptype t.form.deptype object ∧
        DependencyType.ofChar t.form.deptype = none) := by
  unfold sweepOutgoing at h
  rcases hk : DependencyType.ofChar t.form.deptype with _ | k <;> rw [hk] at h
  · cases h; exact .inr (.inr (.inr ⟨rfl, rfl⟩))
  have hc := DependencyType.ofChar_eq_some.mp hk
  cases k
  case dependencyInternal =>
    rcases callingObject with _ | caller
    · cases h; exact .inr (.inr (.inl ⟨_, rfl, hc, rfl⟩))
    · dsimp only at h
      split at h
      · cases h
      · rcases owning with _ | _ <;> cases h
        exact .inr (.inl ⟨rfl, hc, rfl⟩)
  case dependencyPin => cases h; exact .inl ⟨rfl, hc⟩
  all_goals cases h

private theorem two_le_length_of_mem_ne {l : List α} {a b : α} (ha : a ∈ l) (hb : b ∈ l)
    (hab : a ≠ b) : 2 ≤ l.length := by
  rcases l with _ | ⟨x, _ | ⟨y, r⟩⟩
  · cases ha
  · simp only [List.mem_singleton] at ha hb
    exact absurd (ha.trans hb.symm) hab
  · simp

variable (env : DropEnv)

/-- **Step 1.** Every error of the scan of the entries from `object` other
than running out of fuel is met at an entry from `object` live at its start: a
PIN entry, an entry of unknown type, an INTERNAL entry at the outermost level,
or an INTERNAL entry besides the one kept for the owner. -/
theorem sweep_error {object : ObjectAddress} (callingObject : Option ObjectAddress)
    {s s' : DropState} {e : DropError}
    (h : caqlBeginscan env (dependerKey object) (sweepOutgoing object callingObject) none s =
      .error e s') :
    e = .outOfFuel ∨
      (e = .incorrectPin object ∧
        ∃ t ∈ s.depRel, t.form.deptype = 'p' ∧ object.covers t.form.depender) ∨
      (e = .multipleInternal object ∧ 2 ≤ (s.depRel.filter fun u =>
        u.form.deptype = 'i' ∧ object.covers u.form.depender).length) ∨
      (∃ other, e = .requiresIt object other ∧ callingObject = none ∧
        ∃ t ∈ s.depRel, t.form.deptype = 'i' ∧ object.covers t.form.depender) ∨
      ∃ t ∈ s.depRel, e = .unrecognizedDeptype t.form.deptype object ∧
        DependencyType.ofChar t.form.deptype = none ∧ object.covers t.form.depender := by
  have hI0 : SweepInv object callingObject s [] none s :=
    ⟨List.Subset.refl _, by simp, by simp, by simp, fun _ ht hn => absurd ht hn⟩
  rcases caqlBeginscan_error env (SweepInv object callingObject s)
      (fun _ _ _ h => ⟨h.subset, h.matched, h.kept, h.owner, h.removed⟩)
      (fun seen acc s t acc' s' hI ht hk hs hb =>
        sweepInv_step object callingObject _ seen acc acc' s s' t hI ht hk hs hb) hI0 h with
    rfl | ⟨seen, owning, s₁, t, hI, ht, hk, hs, hb⟩
  · exact .inl rfl
  have hkey : object.covers t.form.depender := (dependerKey_iff _ _).mp hk
  have hlive : t ∈ s.depRel := hI.subset ht
  rcases sweepOutgoing_error hb with ⟨rfl, hp⟩ | ⟨rfl, hi, hsome⟩ | ⟨o, rfl, hi, hnone⟩ |
    ⟨rfl, hnone⟩
  · exact .inr (.inl ⟨rfl, t, hlive, hp, hkey⟩)
  · -- the owner was found at an earlier INTERNAL entry, which is still live
    obtain ⟨w, rfl⟩ := Option.isSome_iff_exists.mp hsome
    obtain ⟨t₀, hseen, hl₀, -⟩ := hI.owner w rfl
    have hinternal : ∀ u ∈ [t, t₀], u ∈ s.depRel.filter fun u =>
        u.form.deptype = 'i' ∧ object.covers u.form.depender := by
      simp only [List.mem_cons, List.mem_singleton, List.not_mem_nil, or_false]
      rintro u (rfl | rfl)
      · exact List.mem_filter.mpr ⟨hlive, by simp [hi, hkey]⟩
      · exact List.mem_filter.mpr ⟨hI.subset hl₀,
          by simp [(hI.kept u hseen hl₀).1.1, hI.matched u hseen]⟩
    exact .inr (.inr (.inl ⟨rfl, two_le_length_of_mem_ne (hinternal t (by simp))
      (hinternal t₀ (by simp)) fun e => hs (e ▸ hseen)⟩))
  · exact .inr (.inr (.inr (.inl ⟨o, rfl, hnone, t, hlive, hi, hkey⟩)))
  · exact .inr (.inr (.inr (.inr ⟨t, hlive, rfl, hnone, hkey⟩)))

/-- **Step 1.** A corruption error of the scan of the entries from `object`,
an object of a known class, is shown by the live entries at its start: the
PIN entry it met, or the INTERNAL entry it met besides the one kept for the
owner. -/
theorem sweep_shown {object : ObjectAddress} (callingObject : Option ObjectAddress)
    (hclass : ∃ c, getObjectClass env.objectClasses object = some c) :
    Explained env
      (caqlBeginscan env (dependerKey object) (sweepOutgoing object callingObject) none) := by
  intro s e s' h
  rcases sweep_error env callingObject h with rfl | ⟨rfl, t, ht, hp, hkey⟩ | ⟨rfl, h2⟩ |
    ⟨_, rfl, -⟩ | ⟨_, -, rfl, -⟩
  · trivial
  · exact ⟨hclass, t.form, List.mem_map_of_mem _ ht, hp, hkey⟩
  · refine ⟨hclass, ?_⟩
    rw [List.filter_map, List.length_map]
    exact h2
  · trivial
  · trivial

/-! ## Every corruption error comes from Step 1 -/

section Runs

variable (behavior : DropBehavior) (msglevel : ElogLevel) (oktodelete : ObjectAddresses)

theorem getObjectDescription_bind_shown {object : ObjectAddress} {x : DropM β}
    (hx : (∃ c, getObjectClass env.objectClasses object = some c) → Explained env x) :
    Explained env (getObjectDescription env object >>= fun _ => x) := by
  intro s e s' h
  unfold getObjectDescription at h
  rcases hc : getObjectClass env.objectClasses object with _ | c <;> rw [hc] at h
  · cases h; trivial
  · exact hx ⟨c, hc⟩ s e s' h

theorem reportCascade_evolves (other object : ObjectAddress) :
    Steps Evolves (reportCascade env behavior msglevel oktodelete other object) := by
  intro s
  obtain ⟨_, _, _, h, -⟩ := reportCascade_cases env behavior msglevel oktodelete other object s
  rw [h]
  exact Evolves.report s _

theorem reportCascade_shown (other object : ObjectAddress) :
    Explained env (reportCascade env behavior msglevel oktodelete other object) :=
  .of_ok fun s =>
    have ⟨_, _, _, h, _⟩ := reportCascade_cases env behavior msglevel oktodelete other object s
    ⟨_, _, h⟩

theorem doDeletion_shown (object : ObjectAddress) : Explained env (doDeletion env object) := by
  intro s e s'
  unfold doDeletion
  rw [bind_of_ok (modify_apply _ _)]
  rcases getObjectClass env.objectClasses object with _ | c
  · intro h; cases h; trivial
  · cases c <;> intro h <;> cases h <;> trivial

theorem dropDependent_shown {recurse : ObjectAddress → Option ObjectAddress → DropM Bool}
    (hrec : ∀ o c, Explained env (recurse o c)) (hrece : ∀ o c, Steps Evolves (recurse o c))
    (object : ObjectAddress) (t : HeapTuple) (ok : Bool) :
    Explained env (dropDependent env behavior msglevel oktodelete recurse object t ok) := by
  have hauto : Explained env (do
      ereport .debug2 (.autoCascades t.form.depender)
      let r ← recurse t.form.depender (some object)
      pure (ok && r)) :=
    (Explained.of_ok fun s => ⟨_, _, ereport_apply _ _ s⟩).bind
      (fun s => by rw [ereport_apply]; exact Evolves.report s _) fun _ =>
        (hrec _ _).bind (hrece _ _) fun _ => .pure _
  unfold dropDependent
  cases DependencyType.ofChar t.form.deptype with
  | none => exact .throw fun _ => by trivial
  | some k =>
    cases k
    case dependencyNormal =>
      exact (reportCascade_shown env behavior msglevel oktodelete _ object).bind
        (reportCascade_evolves env behavior msglevel oktodelete _ object) fun _ =>
          (hrec _ _).bind (hrece _ _) fun _ => .pure _
    case dependencyPin => exact .throw fun _ => by trivial
    all_goals exact hauto

theorem recursiveDeletion_shown :
    ∀ fuel object callingObject,
      Explained env (recursiveDeletion env behavior msglevel oktodelete fuel object callingObject) := by
  intro fuel
  induction fuel with
  | zero => intro _ _; exact .throw fun _ => by trivial
  | succ fuel ih =>
    intro object callingObject
    rw [recursiveDeletion_succ]
    refine getObjectDescription_bind_shown env fun hclass =>
      (sweep_shown env callingObject hclass).bind (sweep_evolves env object callingObject)
        fun owning => ?_
    have hrece := recursiveDeletion_evolves env behavior msglevel oktodelete fuel
    rcases owning with _ | owningObject
    · exact (Explained.caqlBeginscan
        (dropDependent_shown env behavior msglevel oktodelete ih hrece object)
        (dropDependent_evolves env behavior msglevel oktodelete hrece object) true).bind
        (deleteDependentObjects_evolves env behavior msglevel oktodelete hrece object) fun _ =>
          (doDeletion_shown env object).bind (doDeletion_evolves env object) fun _ =>
            (Explained.of_ok fun s => ⟨_, _, noteDeleted_apply object s⟩).bind
              (noteDeleted_evolves object) fun _ => .pure _
    · exact (reportCascade_shown env behavior msglevel oktodelete owningObject object).bind
        (reportCascade_evolves env behavior msglevel oktodelete owningObject object) fun _ =>
          (ih _ _).bind (hrece _ _) fun _ => .pure _

end Runs

/-! ## Entry points -/

section EntryPoints

variable (fuel : Nat)

/-- One entry of the pre-scan deletes nothing. -/
theorem collectAuto_evolves (object : ObjectAddress) (t : HeapTuple) (okt : ObjectAddresses) :
    Steps Evolves
      (collectAuto (fun o okt => findAutoDeletableObjects env fuel o okt true) object t okt) := by
  intro s
  rcases collectAuto_cases (fun o okt => findAutoDeletableObjects env fuel o okt true)
    object t okt s with ⟨-, h⟩ | ⟨-, h⟩ | ⟨e, -, h⟩ <;> rw [h]
  · exact Evolves.runRel.refl s
  · exact (findAutoDeletableObjects_frame env fuel _ _ true s).evolves
  · exact Evolves.runRel.refl s

theorem findAutoDeletableObjects_shown :
    ∀ fuel object oktodelete addself,
      Explained env (findAutoDeletableObjects env fuel object oktodelete addself) := by
  intro fuel
  induction fuel with
  | zero => intro _ _ _; exact .throw fun _ => by trivial
  | succ fuel ih =>
    intro object oktodelete addself
    rw [findAutoDeletableObjects_succ]
    split
    · exact .pure _
    · refine Explained.caqlBeginscan (fun t okt => ?_) (fun t okt s => ?_) _
      · unfold collectAuto
        split
        · exact .pure _
        · exact ih _ _ _
        · exact ih _ _ _
        all_goals exact .throw fun _ => by trivial
      · exact collectAuto_evolves env fuel object t okt s

theorem modify_shown (f : DropState → DropState) : Explained env (modify f : DropM Unit) :=
  .of_ok fun s => ⟨_, _, modify_apply f s⟩

theorem performDeletion_shown (object : ObjectAddress) (behavior : DropBehavior) :
    Explained env (performDeletion env fuel object behavior) := by
  refine getObjectDescription_bind_shown env fun _ => ?_
  refine (findAutoDeletableObjects_shown env fuel object _ true).bind
    (Evolves.entryRel.findAuto env fuel object _ true) fun okt => ?_
  refine (modify_shown env _).bind (fun s => by rw [modify_apply]; exact Evolves.entryRel.already _ _)
    fun _ => ?_
  refine (recursiveDeletion_shown env behavior .notice okt fuel object none).bind
    (recursiveDeletion_evolves env behavior .notice okt fuel object none) fun _ => ?_
  split
  · exact .throw fun _ => by trivial
  · exact .pure _

theorem performDeletionWithList_shown (object : ObjectAddress) (implicit : ObjectAddresses)
    (behavior : DropBehavior) :
    Explained env (performDeletionWithList env fuel object implicit behavior) := by
  refine getObjectDescription_bind_shown env fun _ => ?_
  refine (findAutoDeletableObjects_shown env fuel object _ true).bind
    (Evolves.entryRel.findAuto env fuel object _ true) fun okt => ?_
  refine (recursiveDeletion_shown env behavior .notice okt fuel object none).bind
    (recursiveDeletion_evolves env behavior .notice okt fuel object none) fun _ => ?_
  split
  · exact .throw fun _ => by trivial
  · exact .pure _

theorem collectImplicit_shown :
    ∀ (objects : List ObjectAddress) implicit, Explained env (collectImplicit env fuel objects implicit)
  | [], _ => .pure _
  | obj :: rest, implicit => by
    unfold collectImplicit
    split
    · exact collectImplicit_shown rest implicit
    · exact (findAutoDeletableObjects_shown env fuel obj implicit false).bind
        (Evolves.entryRel.findAuto env fuel obj implicit false) fun okt =>
          collectImplicit_shown rest okt

theorem deleteTargets_shown (behavior : DropBehavior) :
    ∀ (objects : List ObjectAddress) implicit,
      Explained env (deleteTargets env fuel behavior objects implicit)
  | [], _ => .pure _
  | obj :: rest, implicit => by
    unfold deleteTargets
    refine (Explained.of_ok fun s => ⟨s, s, rfl⟩).bind (fun s => Evolves.runRel.refl s) fun s => ?_
    split
    · exact deleteTargets_shown behavior rest implicit
    · split
      · exact deleteTargets_shown behavior rest implicit
      · exact (performDeletionWithList_shown env fuel obj implicit behavior).bind
          (performDeletionWithList_steps env fuel Evolves.entryRel
            (recursiveDeletion_evolves env behavior .notice · fuel obj none) implicit)
          fun okt => deleteTargets_shown behavior rest okt

theorem performMultipleDeletions_shown (objects : ObjectAddresses) (behavior : DropBehavior) :
    Explained env (performMultipleDeletions env fuel objects behavior) :=
  (modify_shown env _).bind (fun s => by rw [modify_apply]; exact Evolves.entryRel.already _ _)
    fun _ => (collectImplicit_shown env fuel _ _).bind
      (collectImplicit_steps env fuel Evolves.entryRel _ _) fun implicit =>
        deleteTargets_shown env fuel behavior _ implicit

theorem deleteWhatDependsOn_shown (object : ObjectAddress) (showNotices : Bool) :
    Explained env (deleteWhatDependsOn env fuel object showNotices) := by
  refine getObjectDescription_bind_shown env fun _ => ?_
  refine (findAutoDeletableObjects_shown env fuel object _ true).bind
    (Evolves.entryRel.findAuto env fuel object _ true) fun okt => ?_
  refine (modify_shown env _).bind (fun s => by rw [modify_apply]; exact Evolves.entryRel.already _ _)
    fun _ => ?_
  have hrece := recursiveDeletion_evolves env .dropCascade
    (if showNotices then .notice else .debug2) okt fuel
  refine (Explained.caqlBeginscan
    (dropDependent_shown env _ _ okt (recursiveDeletion_shown env _ _ okt fuel) hrece object)
    (dropDependent_evolves env _ _ okt hrece object) true).bind
    (deleteDependentObjects_evolves env _ _ okt hrece object) fun _ => ?_
  split
  · exact .throw fun _ => by trivial
  · exact .pure _

end EntryPoints

/-- **Where corruption errors come from.** For every catalog, target or
targets, behavior, fuel and scan order, a corruption error raised by
`performDeletion`, `performMultipleDeletions` or `deleteWhatDependsOn` names
an object of a known class with a PIN entry from it, or with two INTERNAL
entries from it or its parts, in the catalog. -/
theorem corruption_origin (fuel : Nat) (rel : List FormDataPgDepend) (behavior : DropBehavior)
    (target : ObjectAddress) (targets : ObjectAddresses) (showNotices : Bool) :
    CorruptionShown env rel (raised (performDeletion env fuel target behavior (DropState.init rel))) ∧
      CorruptionShown env rel
        (raised (performMultipleDeletions env fuel targets behavior (DropState.init rel))) ∧
      CorruptionShown env rel
        (raised (deleteWhatDependsOn env fuel target showNotices (DropState.init rel))) :=
  ⟨(performDeletion_shown env fuel target behavior).raised rel,
    (performMultipleDeletions_shown env fuel targets behavior).raised rel,
    (deleteWhatDependsOn_shown env fuel target showNotices).raised rel⟩

/-! ## When corruption errors are unreachable -/

/-- No object has two INTERNAL entries from itself and its parts together. -/
def SingleOwner (rel : List FormDataPgDepend) : Prop :=
  ∀ a : ObjectAddress, (rel.filter fun d => d.deptype = 'i' ∧ a.covers d.depender).length ≤ 1

/-- It is enough to count, for each INTERNAL entry, the INTERNAL entries from
the whole object of its depender. -/
theorem singleOwner_iff (rel : List FormDataPgDepend) :
    SingleOwner rel ↔ ∀ d ∈ rel, d.deptype = 'i' →
      (rel.filter fun e => e.deptype = 'i' ∧
        (⟨d.classid, d.objid, 0⟩ : ObjectAddress).covers e.depender).length ≤ 1 := by
  refine ⟨fun h d _ _ => h _, fun h a => ?_⟩
  cases hl : rel.filter (fun d => d.deptype = 'i' ∧ a.covers d.depender) with
  | nil => simp
  | cons d ds =>
    obtain ⟨hmem, hda⟩ := List.mem_filter.mp (hl ▸ List.mem_cons_self d ds)
    simp only [decide_eq_true_eq] at hda
    obtain ⟨hcls, hobj, -⟩ := hda.2
    rw [← hl]
    refine le_trans (List.monotone_filter_right _ fun e he => ?_).length_le (h d hmem hda.1)
    simp only [decide_eq_true_eq] at he ⊢
    obtain ⟨ecls, eobj, -⟩ := he.2
    exact ⟨he.1, hcls.symm.trans ecls, hobj.symm.trans eobj, .inl rfl⟩

instance (rel : List FormDataPgDepend) : Decidable (SingleOwner rel) :=
  decidable_of_iff _ (singleOwner_iff rel).symm

/-- With nonzero class OIDs, a PIN entry, whose depender is zero, is from no
object of a known class. -/
theorem pin_not_shown (hclasses : ∀ c, env.objectClasses c ≠ 0) {rel : List FormDataPgDepend}
    (hpin : ∀ d ∈ rel, d.deptype = 'p' → d.depender = zeroAddress) (o : ObjectAddress) :
    ¬ CorruptionShown env rel (some (.incorrectPin o)) := by
  rintro ⟨⟨c, hc⟩, d, hd, hp, hcov⟩
  have hzero : o.classId = 0 := (hpin d hd hp ▸ hcov).1
  exact hclasses c ((getObjectClass_classId hc).trans hzero)

theorem internal_not_shown {rel : List FormDataPgDepend} (hso : SingleOwner rel)
    (o : ObjectAddress) : ¬ CorruptionShown env rel (some (.multipleInternal o)) :=
  fun ⟨_, h⟩ => absurd (hso o) (by omega)

/-- **No corruption error from a sound catalog.** With nonzero class OIDs and
PIN entries from the zero address, no run of `performDeletion`,
`performMultipleDeletions` or `deleteWhatDependsOn` raises "incorrect use of
PIN dependency"; when no object has two INTERNAL entries from itself and its
parts together, none raises "multiple INTERNAL dependencies" either. -/
theorem corruption_unreachable (hclasses : ∀ c, env.objectClasses c ≠ 0)
    (rel : List FormDataPgDepend) (hpin : ∀ d ∈ rel, d.deptype = 'p' → d.depender = zeroAddress)
    (fuel : Nat) (behavior : DropBehavior) (target : ObjectAddress) (targets : ObjectAddresses)
    (showNotices : Bool) :
    ∀ run ∈ [performDeletion env fuel target behavior,
        performMultipleDeletions env fuel targets behavior,
        deleteWhatDependsOn env fuel target showNotices],
      ∀ o, raised (run (DropState.init rel)) ≠ some (.incorrectPin o) ∧
        (SingleOwner rel → raised (run (DropState.init rel)) ≠ some (.multipleInternal o)) := by
  intro run hrun o
  have hx : Explained env run := by
    simp only [List.mem_cons, List.mem_singleton, List.not_mem_nil, or_false] at hrun
    rcases hrun with rfl | rfl | rfl
    · exact performDeletion_shown env fuel target behavior
    · exact performMultipleDeletions_shown env fuel targets behavior
    · exact deleteWhatDependsOn_shown env fuel target showNotices
  have hshown := hx.raised rel
  exact ⟨fun h => pin_not_shown env hclasses hpin o (h ▸ hshown),
    fun hso h => internal_not_shown env hso o (h ▸ hshown)⟩

/-- Relation `61` depends on `60` and is owned by `62` through an INTERNAL
entry. -/
def ownedRelationCatalog : List FormDataPgDepend :=
  [.ofAddresses (relationAddress 61) (relationAddress 60) 'n',
    .ofAddresses (relationAddress 61) (relationAddress 62) 'i']

theorem corruption_unreachable_owned :
    (∀ c, (exampleEnv fun _ => 0).objectClasses c ≠ 0) ∧
      (∀ d ∈ ownedRelationCatalog, d.deptype = 'p' → d.depender = zeroAddress) ∧
      SingleOwner ownedRelationCatalog ∧
      raised (performDeletion (exampleEnv fun _ => 0) 4 (relationAddress 60) .dropCascade
        (DropState.init ownedRelationCatalog)) ≠ some (.multipleInternal (relationAddress 61)) :=
  have hclasses : ∀ c, (exampleEnv fun _ => 0).objectClasses c ≠ 0 := fun _ => Nat.succ_ne_zero _
  have hpin : ∀ d ∈ ownedRelationCatalog, d.deptype = 'p' → d.depender = zeroAddress := by decide
  have hso : SingleOwner ownedRelationCatalog := by decide
  ⟨hclasses, hpin, hso, (corruption_unreachable _ hclasses _ hpin 4 .dropCascade
    (relationAddress 60) newObjectAddresses true _ (List.mem_cons_self _ _) _).2 hso⟩

/-- The same, with column `1` of relation `61` owned by `63`: each dependent
address has one INTERNAL entry, but relation `61` with its parts has two. -/
def subObjectOwnersCatalog : List FormDataPgDepend :=
  ownedRelationCatalog ++ [.ofAddresses (columnAddress 61 1) (relationAddress 63) 'i']

/-- The catalog meets the invariants of a well-formed `pg_depend` (PIN entries
from the zero address, no zero endpoint elsewhere, known dependency types, at
most one INTERNAL entry per dependent address), yet dropping relation `60`,
under either behavior, raises "multiple INTERNAL dependencies for relation
61": Step 1 of the whole relation `61`, reached from `60`, finds the INTERNAL
entry of the relation and that of its column, to owners other than `60`. -/
theorem subobject_owners_raise_multiple_internal :
    CatalogInvariants subObjectOwnersCatalog ∧
      (∀ d ∈ subObjectOwnersCatalog, d.deptype ≠ 'p' →
        d.depender ≠ zeroAddress ∧ d.referenced ≠ zeroAddress) ∧
      (∀ d ∈ subObjectOwnersCatalog, d.deptype ∈ ['n', 'a', 'i', 'p']) ∧
      ¬ SingleOwner subObjectOwnersCatalog ∧
      ∀ behavior, raised (performDeletion (exampleEnv fun _ => 0) 4 (relationAddress 60) behavior
        (DropState.init subObjectOwnersCatalog)) = some (.multipleInternal (relationAddress 61)) :=
  ⟨by decide, by decide, by decide, by decide, fun behavior => by cases behavior <;> decide⟩

end CatalogDependency
