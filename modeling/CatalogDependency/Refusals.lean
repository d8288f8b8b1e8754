import CatalogDependency.Corruption
import CatalogDependency.Completeness

/-!
The refusals of the entry points under CASCADE.

`performDeletion`, `performDeletionWithList` and `deleteWhatDependsOn` raise
"cannot drop %s because other objects depend on it" or "failed to drop all
objects depending on %s" when their deletion answers `false`, and no step of a
deletion raises either (`recursiveDeletion_noRefusal`). Under CASCADE,
`reportCascade` always answers `true`, so every deletion that returns answers
`true` (`recursiveDeletion_cascade_true`): a CASCADE run never refuses, and the
check after Step 2 in `deleteWhatDependsOn`, which is always CASCADE, never
fires (`cascade_never_refuses`).
-/

namespace CatalogDependency

variable {α β : Type}

/-- The errors the entry points raise on a `false` answer. -/
def DropError.isRefusal : DropError → Bool
  | .othersDependOnIt _ | .failedToDropAll _ => true
  | _ => false

/-- `x` never raises a refusal. -/
def NoRefusal (x : DropM α) : Prop :=
  ∀ s e s', x s = .error e s' → e.isRefusal = false

section NoRefusal

variable {env : DropEnv}

theorem NoRefusal.of_ok {x : DropM α} (h : ∀ s, ∃ a s', x s = .ok a s') : NoRefusal x := by
  intro s e s' he
  obtain ⟨a, s₁, h⟩ := h s
  rw [h] at he
  cases he

theorem NoRefusal.pure (a : α) : NoRefusal (pure a : DropM α) :=
  .of_ok fun s => ⟨a, s, rfl⟩

theorem NoRefusal.throw {e : DropError} (he : e.isRefusal = false) :
    NoRefusal (throw e : DropM α) := by
  intro s e' s' h
  cases h
  exact he

/-- A bind whose continuation raises no refusal after any value `x` returns. -/
theorem NoRefusal.bind_of_ok {x : DropM α} {f : α → DropM β} (hx : NoRefusal x)
    (hf : ∀ s a s₁, x s = .ok a s₁ → ∀ e s', f a s₁ = .error e s' → e.isRefusal = false) :
    NoRefusal (x >>= f) := by
  intro s e s' h
  rcases bind_eq_error.mp h with h | ⟨a, s₁, hx', h⟩
  · exact hx s e s' h
  · exact hf s a s₁ hx' e s' h

theorem NoRefusal.bind {x : DropM α} {f : α → DropM β} (hx : NoRefusal x)
    (hf : ∀ a, NoRefusal (f a)) : NoRefusal (x >>= f) :=
  hx.bind_of_ok fun _ a s₁ _ => hf a s₁

theorem NoRefusal.caqlBeginscan {key : FormDataPgDepend → Bool} {body : HeapTuple → α → DropM α}
    (hbody : ∀ t acc, NoRefusal (body t acc)) (init : α) :
    NoRefusal (caqlBeginscan env key body init) := by
  intro s e s' h
  rcases caqlBeginscan_error env (fun _ _ _ => True) (fun _ _ _ _ => trivial)
      (fun _ _ _ _ _ _ _ _ _ _ _ => trivial) trivial h with rfl | ⟨_, acc, s₁, t, -, -, -, -, hb⟩
  · rfl
  · exact hbody t acc s₁ e s' hb

end NoRefusal

/-! ## No step raises a refusal -/

section Steps

variable (env : DropEnv) (behavior : DropBehavior) (msglevel : ElogLevel)
  (oktodelete : ObjectAddresses)

theorem getObjectDescription_noRefusal (object : ObjectAddress) :
    NoRefusal (getObjectDescription env object) := by
  unfold getObjectDescription
  split
  · exact .throw rfl
  · exact .pure _

theorem sweepOutgoing_noRefusal (object : ObjectAddress) (callingObject : Option ObjectAddress)
    (t : HeapTuple) (owning : Option ObjectAddress) :
    NoRefusal (sweepOutgoing object callingObject t owning) := by
  intro s e s' h
  rcases sweepOutgoing_error h with ⟨rfl, -⟩ | ⟨rfl, -⟩ | ⟨_, rfl, -⟩ | ⟨rfl, -⟩ <;> rfl

theorem doDeletion_noRefusal (object : ObjectAddress) : NoRefusal (doDeletion env object) := by
  unfold doDeletion
  refine (NoRefusal.of_ok fun s => ⟨_, _, modify_apply _ s⟩).bind fun _ => ?_
  split <;> first
    | exact .throw rfl
    | exact .pure _
    | exact .of_ok fun s => ⟨_, _, ereport_apply _ _ s⟩

theorem dropDependent_noRefusal {recurse : ObjectAddress → Option ObjectAddress → DropM Bool}
    (hrec : ∀ o c, NoRefusal (recurse o c)) (object : ObjectAddress) (t : HeapTuple) (ok : Bool) :
    NoRefusal (dropDependent env behavior msglevel oktodelete recurse object t ok) := by
  unfold dropDependent
  split
  · exact (NoRefusal.of_ok fun s =>
      have ⟨_, _, _, h, _⟩ := reportCascade_cases env behavior msglevel oktodelete _ object s
      ⟨_, _, h⟩).bind fun _ => (hrec _ _).bind fun _ => .pure _
  all_goals first
    | exact .throw rfl
    | exact (NoRefusal.of_ok fun s => ⟨_, _, ereport_apply _ _ s⟩).bind fun _ =>
        (hrec _ _).bind fun _ => .pure _

/-- **No step of a deletion refuses**, under either behavior: only the entry
points raise the two refusals, on a `false` answer. -/
theorem recursiveDeletion_noRefusal :
    ∀ fuel object callingObject,
      NoRefusal (recursiveDeletion env behavior msglevel oktodelete fuel object callingObject) := by
  intro fuel
  induction fuel with
  | zero => intro _ _; exact .throw rfl
  | succ fuel ih =>
    intro object callingObject
    rw [recursiveDeletion_succ]
    refine (getObjectDescription_noRefusal env object).bind fun _ =>
      (NoRefusal.caqlBeginscan (sweepOutgoing_noRefusal object callingObject) none).bind
        fun owning => ?_
    rcases owning with _ | owningObject
    · exact (NoRefusal.caqlBeginscan
        (dropDependent_noRefusal env behavior msglevel oktodelete ih object) true).bind fun _ =>
          (doDeletion_noRefusal env object).bind fun _ =>
            (NoRefusal.of_ok fun s => ⟨_, _, noteDeleted_apply object s⟩).bind fun _ => .pure _
    · exact (NoRefusal.of_ok fun s =>
        have ⟨_, _, _, h, _⟩ := reportCascade_cases env behavior msglevel oktodelete owningObject
          object s
        ⟨_, _, h⟩).bind fun _ => (ih _ _).bind fun _ => .pure _

theorem findAutoDeletableObjects_noRefusal (fuel : Nat) :
    ∀ object okt addself, NoRefusal (findAutoDeletableObjects env fuel object okt addself) := by
  induction fuel with
  | zero => intro _ _ _; exact .throw rfl
  | succ fuel ih =>
    intro object okt addself
    rw [findAutoDeletableObjects_succ]
    split
    · exact .pure _
    · refine NoRefusal.caqlBeginscan (fun t okt => ?_) _
      unfold collectAuto
      split
      · exact .pure _
      all_goals first | exact ih _ _ _ | exact .throw rfl

end Steps

/-! ## The CASCADE verdict -/

section Cascade

variable (env : DropEnv) (msglevel : ElogLevel) (oktodelete : ObjectAddresses)

/-- Under CASCADE, `reportCascade` always lets the object through. -/
theorem Reported.fine_of_cascade {other object : ObjectAddress} {fine : Bool} {msg : DropMessage}
    (h : Reported .dropCascade oktodelete other object fine msg) : fine = true := by
  rcases h with ⟨-, h, -⟩ | ⟨-, h, -⟩ | ⟨-, -, h, -⟩
  · exact h
  · cases h
  · exact h

/-- **Step 2 under CASCADE** answers `true` when every recursion it makes does. -/
theorem deleteDependentObjects_cascade_true
    {recurse : ObjectAddress → Option ObjectAddress → DropM Bool}
    (hrec : ∀ o c {s s' : DropState} {b : Bool}, recurse o c s = .ok b s' → b = true)
    {object : ObjectAddress} {s s' : DropState} {b : Bool}
    (h : deleteDependentObjects env .dropCascade msglevel oktodelete recurse object s = .ok b s') :
    b = true := by
  obtain ⟨-, hok, -⟩ := caqlBeginscan_ok env (fun _ acc _ => acc = true) (fun _ _ _ h => h)
    (fun _ acc s₁ t _ _ hacc _ _ _ hb => by
      rcases dropDependent_cases env .dropCascade msglevel oktodelete recurse object t acc s₁ with
        ⟨-, e, -, h'⟩ | ⟨-, fine, level, msg, hn, ha, h'⟩ <;> rw [h'] at hb
      · cases hb
      obtain ⟨r, s₃, hr, hp⟩ := bind_eq_ok.mp hb
      cases hp
      have hfine : fine = true := by
        by_cases hnorm : t.form.deptype = 'n'
        · exact (hn hnorm).fine_of_cascade
        · exact (ha hnorm).1
      rw [hacc, hfine, hrec _ _ hr]
      rfl)
    rfl h
  exact hok

/-- **The CASCADE verdict.** Under CASCADE, every call of `recursiveDeletion`
that returns answers `true`. -/
theorem recursiveDeletion_cascade_true :
    ∀ fuel object callingObject {s s' : DropState} {b : Bool},
      recursiveDeletion env .dropCascade msglevel oktodelete fuel object callingObject s =
        .ok b s' → b = true := by
  intro fuel
  induction fuel with
  | zero => intro _ _ _ _ _ h; cases h
  | succ fuel ih =>
    intro object callingObject s s' b h
    obtain ⟨owning, s₁, -, hb⟩ := recursiveDeletion_ok_cases env .dropCascade msglevel oktodelete h
    rcases hb with ⟨-, hb⟩ | ⟨w, -, hb⟩
    · -- Step 3 passes the answer of Step 2 on
      obtain ⟨ok, s₂, hdd, hb⟩ := bind_eq_ok.mp hb
      obtain ⟨rfl, -⟩ := deleteObject_ok env hb
      exact deleteDependentObjects_cascade_true env msglevel oktodelete
        (fun o c _ _ _ h => ih o c h) hdd
    · obtain ⟨fine, level, msg, hrc, hrep⟩ :=
        reportCascade_cases env .dropCascade msglevel oktodelete w object s₁
      obtain ⟨r, s₂, hr, hp⟩ := bind_eq_ok.mp (bind_of_ok hrc ▸ hb)
      obtain ⟨rfl, -⟩ := EStateM.Result.ok.inj hp
      rw [hrep.fine_of_cascade, ih _ _ hr]
      rfl

end Cascade

/-! ## The entry points under CASCADE -/

section EntryPoints

variable (env : DropEnv) (fuel : Nat)

theorem NoRefusal.raised_ne {x : DropM α} (hx : NoRefusal x) (s : DropState) {e : DropError}
    (he : e.isRefusal = true) : raised (x s) ≠ some e := by
  cases h : x s with
  | ok => nofun
  | error e' s' =>
    intro h'
    cases h'
    rw [hx s e s' h] at he
    cases he

theorem performDeletion_cascade_noRefusal (object : ObjectAddress) :
    NoRefusal (performDeletion env fuel object .dropCascade) :=
  (getObjectDescription_noRefusal env object).bind fun _ =>
    (findAutoDeletableObjects_noRefusal env fuel object _ true).bind fun okt =>
      (NoRefusal.of_ok fun s => ⟨_, _, modify_apply _ s⟩).bind fun _ =>
        (recursiveDeletion_noRefusal env .dropCascade .notice okt fuel object none).bind_of_ok
          fun _ _ _ hr => by
            rw [recursiveDeletion_cascade_true env .notice okt fuel object none hr]
            intro _ _ h
            cases h

theorem performDeletionWithList_cascade_noRefusal (object : ObjectAddress)
    (implicit : ObjectAddresses) :
    NoRefusal (performDeletionWithList env fuel object implicit .dropCascade) :=
  (getObjectDescription_noRefusal env object).bind fun _ =>
    (findAutoDeletableObjects_noRefusal env fuel object _ true).bind fun okt =>
      (recursiveDeletion_noRefusal env .dropCascade .notice okt fuel object none).bind_of_ok
        fun _ _ _ hr => by
          rw [recursiveDeletion_cascade_true env .notice okt fuel object none hr]
          intro _ _ h
          cases h

theorem performMultipleDeletions_cascade_noRefusal (objects : ObjectAddresses) :
    NoRefusal (performMultipleDeletions env fuel objects .dropCascade) := by
  have hcollect : ∀ (objs : List ObjectAddress) implicit,
      NoRefusal (collectImplicit env fuel objs implicit) := by
    intro objs
    induction objs with
    | nil => exact fun _ => .pure _
    | cons obj rest ih =>
      intro implicit
      unfold collectImplicit
      split
      · exact ih implicit
      · exact (findAutoDeletableObjects_noRefusal env fuel obj implicit false).bind ih
  have hdelete : ∀ (objs : List ObjectAddress) implicit,
      NoRefusal (deleteTargets env fuel .dropCascade objs implicit) := by
    intro objs
    induction objs with
    | nil => exact fun _ => .pure _
    | cons obj rest ih =>
      intro implicit
      unfold deleteTargets
      refine (NoRefusal.of_ok fun s => ⟨s, s, rfl⟩).bind fun s => ?_
      split
      · exact ih implicit
      · split
        · exact ih implicit
        · exact (performDeletionWithList_cascade_noRefusal env fuel obj implicit).bind ih
  exact (NoRefusal.of_ok fun s => ⟨_, _, modify_apply _ s⟩).bind fun _ =>
    (hcollect _ _).bind (hdelete _)

theorem deleteWhatDependsOn_noRefusal (object : ObjectAddress) (showNotices : Bool) :
    NoRefusal (deleteWhatDependsOn env fuel object showNotices) :=
  (getObjectDescription_noRefusal env object).bind fun _ =>
    (findAutoDeletableObjects_noRefusal env fuel object _ true).bind fun okt =>
      (NoRefusal.of_ok fun s => ⟨_, _, modify_apply _ s⟩).bind fun _ =>
        (NoRefusal.caqlBeginscan (dropDependent_noRefusal env .dropCascade _ okt
          (recursiveDeletion_noRefusal env .dropCascade _ okt fuel) object) true).bind_of_ok
          fun _ _ _ hdd => by
            rw [deleteDependentObjects_cascade_true env _ okt
              (recursiveDeletion_cascade_true env _ okt fuel) hdd]
            intro _ _ h
            cases h

end EntryPoints

/-- **CASCADE never refuses.** From every state, for every target and list of
targets, scan order and fuel, `performDeletion` and `performMultipleDeletions`
under CASCADE never raise "cannot drop %s because other objects depend on it",
and `deleteWhatDependsOn`, always CASCADE, never raises "failed to drop all
objects depending on %s". -/
theorem cascade_never_refuses (env : DropEnv) (fuel : Nat) (s : DropState) :
    (∀ target o,
      raised (performDeletion env fuel target .dropCascade s) ≠ some (.othersDependOnIt o)) ∧
    (∀ objects o,
      raised (performMultipleDeletions env fuel objects .dropCascade s) ≠
        some (.othersDependOnIt o)) ∧
    ∀ target showNotices o,
      raised (deleteWhatDependsOn env fuel target showNotices s) ≠ some (.failedToDropAll o) :=
  ⟨fun target _ => (performDeletion_cascade_noRefusal env fuel target).raised_ne s rfl,
    fun objects _ => (performMultipleDeletions_cascade_noRefusal env fuel objects).raised_ne s rfl,
    fun target showNotices _ =>
      (deleteWhatDependsOn_noRefusal env fuel target showNotices).raised_ne s rfl⟩

end CatalogDependency
