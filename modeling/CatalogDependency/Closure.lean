import CatalogDependency.Sweep

/-!
The deletion closure of a target, and one induction principle for the
invariants of `recursiveDeletion`.

`DeletionClosure rel target` is the least set of addresses that contains the
target, the depender of every non-PIN entry whose referenced object a member
covers, and the referenced object of every INTERNAL entry whose depender a
member covers. A run started on a member of a set closed under these two rules
only ever visits members.

`DeletionInvariant P oktodelete J` lists what a state predicate `J` must
survive: removing a non-PIN entry from a member of `P`, a message about members, and
logging a member in `doDeletion` once no entry from or to it is left. Then
`recursiveDeletion_keeps` shows `J` holds at the end of every run that starts
on a member in a state satisfying `J`, whether the run returns or raises.
-/

namespace CatalogDependency

/-- Sets of addresses closed under the two ways a deletion run moves from an
object to another: to the depender of an entry to it, and to the owner named
by an INTERNAL entry from it. -/
structure ClosedUnder (rel : List FormDataPgDepend) (P : ObjectAddress → Prop) : Prop where
  dependent : ∀ d ∈ rel, d.deptype ≠ 'p' → ∀ m, P m → m.covers d.referenced → P d.depender
  owner : ∀ d ∈ rel, d.deptype = 'i' → ∀ m, P m → m.covers d.depender → P d.referenced

/-- The deletion closure of `target` over the entries `rel`. -/
inductive DeletionClosure (rel : List FormDataPgDepend) (target : ObjectAddress) :
    ObjectAddress → Prop
  | target : DeletionClosure rel target target
  | dependent {d : FormDataPgDepend} {m : ObjectAddress} : d ∈ rel → d.deptype ≠ 'p' →
      DeletionClosure rel target m → m.covers d.referenced → DeletionClosure rel target d.depender
  | owner {d : FormDataPgDepend} {m : ObjectAddress} : d ∈ rel → d.deptype = 'i' →
      DeletionClosure rel target m → m.covers d.depender → DeletionClosure rel target d.referenced

theorem DeletionClosure.closedUnder (rel : List FormDataPgDepend) (target : ObjectAddress) :
    ClosedUnder rel (DeletionClosure rel target) :=
  ⟨fun _ hd hp _ hm hc => .dependent hd hp hm hc, fun _ hd hi _ hm hc => .owner hd hi hm hc⟩

/-- The closure is the least closed set containing the target. -/
theorem DeletionClosure.minimal {rel : List FormDataPgDepend} {target : ObjectAddress}
    {Q : ObjectAddress → Prop} (hQ : ClosedUnder rel Q) (ht : Q target) {x : ObjectAddress}
    (h : DeletionClosure rel target x) : Q x := by
  induction h with
  | target => exact ht
  | dependent hd hp _ hc ih => exact hQ.dependent _ hd hp _ ih hc
  | owner hd hi _ hc ih => exact hQ.owner _ hd hi _ ih hc

theorem ClosedUnder.mono {rel rel' : List FormDataPgDepend} {P : ObjectAddress → Prop}
    (hP : ClosedUnder rel P) (hsub : rel' ⊆ rel) : ClosedUnder rel' P :=
  ⟨fun d hd => hP.dependent d (hsub hd), fun d hd => hP.owner d (hsub hd)⟩

/-- The union of the closures of several targets is closed too. -/
theorem ClosedUnder.union (rel : List FormDataPgDepend) (targets : List ObjectAddress) :
    ClosedUnder rel (fun x => ∃ t ∈ targets, DeletionClosure rel t x) :=
  ⟨fun _ hd hp _ ⟨t, ht, hm⟩ hc => ⟨t, ht, .dependent hd hp hm hc⟩,
    fun _ hd hi _ ⟨t, ht, hm⟩ hc => ⟨t, ht, .owner hd hi hm hc⟩⟩

@[simp] theorem DropState.init_depRel_form (rel : List FormDataPgDepend) :
    (DropState.init rel).depRel.map HeapTuple.form = rel := by
  simp [DropState.init, Function.comp_def, List.enum_map_snd]

/-! ## Invariants of a deletion run -/

/-- What a message of `recursiveDeletion` says about the members of `P`:
auto-cascade notes name members, and RESTRICT violations and cascade notices
name members missing from `oktodelete`. -/
def MessageSound (P : ObjectAddress → Prop) (oktodelete : ObjectAddresses) : DropMessage → Prop
  | .autoCascades other => P other
  | .dependsOn other _ => P other ∧ objectAddressPresent other oktodelete = false
  | .cascadesTo other => P other ∧ objectAddressPresent other oktodelete = false
  | .notYetImplemented => True

theorem Reported.messageSound {behavior : DropBehavior} {oktodelete : ObjectAddresses}
    {P : ObjectAddress → Prop} {other object : ObjectAddress} {fine : Bool} {msg : DropMessage}
    (h : Reported behavior oktodelete other object fine msg) (ho : P other) :
    MessageSound P oktodelete msg := by
  rcases h with ⟨-, -, rfl⟩ | ⟨hp, -, -, rfl⟩ | ⟨hp, -, -, rfl⟩
  exacts [ho, ⟨ho, hp⟩, ⟨ho, hp⟩]

/-- A state predicate kept by every change `recursiveDeletion` makes to the
state, when the objects involved are members of `P`. -/
structure DeletionInvariant (P : ObjectAddress → Prop) (oktodelete : ObjectAddresses)
    (J : DropState → Prop) : Prop where
  /-- The live entries keep `P` closed. -/
  closed : ∀ s, J s → ClosedUnder (s.depRel.map HeapTuple.form) P
  /-- Only the live entries, the log and the messages matter. -/
  congr : ∀ s s', s'.depRel = s.depRel → s'.deleted = s.deleted → s'.messages = s.messages →
    J s → J s'
  report : ∀ s level msg, MessageSound P oktodelete msg → J s →
    J { s with messages := s.messages ++ [(level, msg)] }
  sever : ∀ s object t, P object → object.covers t.form.depender → t.form.deptype ≠ 'p' → J s →
    J { s with depRel := s.depRel.filter fun u => decide (u ≠ t) }
  destroy : ∀ s object, P object →
    (∀ t ∈ s.depRel, ¬ object.covers t.form.depender ∧ ¬ object.covers t.form.referenced) →
    J s → J { s with deleted := s.deleted ++ [object] }

/-- In every state satisfying `J`, the dependers of the live entries to
`object` are members of `P`: what Step 2 on `object` needs. -/
def DependentsIn (P : ObjectAddress → Prop) (J : DropState → Prop) (object : ObjectAddress) :
    Prop :=
  ∀ s, J s → ∀ t ∈ s.depRel, t.form.deptype ≠ 'p' → object.covers t.form.referenced →
    P t.form.depender

namespace DeletionInvariant

variable {P : ObjectAddress → Prop} {oktodelete : ObjectAddresses} {J : DropState → Prop}

theorem runRel (hJ : DeletionInvariant P oktodelete J) : RunRel (Keeps J) :=
  Keeps.runRel fun s => hJ.congr s _ rfl rfl rfl

theorem entryRel (hJ : DeletionInvariant P oktodelete J) : EntryRel (Keeps J) :=
  { hJ.runRel with
    same := fun s s' hs => hJ.congr s s' hs.1 hs.2.1 hs.2.2.1
    already := fun s _ => hJ.congr s _ rfl rfl rfl }

theorem dependentsIn (hJ : DeletionInvariant P oktodelete J) {object : ObjectAddress}
    (hobj : P object) : DependentsIn P J object := fun s h _ ht hp hc =>
  (hJ.closed s h).dependent _ (List.mem_map_of_mem _ ht) hp object hobj hc

theorem doDeletion (hJ : DeletionInvariant P oktodelete J) (env : DropEnv)
    {object : ObjectAddress} (hobj : P object) {s : DropState}
    (hclean : ∀ t ∈ s.depRel, ¬ object.covers t.form.depender ∧ ¬ object.covers t.form.referenced)
    (h : J s) : J (finalState (CatalogDependency.doDeletion env object s)) := by
  have hd := hJ.destroy s object hobj hclean h
  rcases doDeletion_cases env object s with e | e <;> rw [e]
  · exact hd
  · exact hJ.report _ .notice .notYetImplemented trivial hd

end DeletionInvariant

section Keeps

variable (env : DropEnv) (behavior : DropBehavior) (msglevel : ElogLevel)
  (oktodelete : ObjectAddresses) {P : ObjectAddress → Prop} {J : DropState → Prop}
  (hJ : DeletionInvariant P oktodelete J)
include hJ

theorem sweepOutgoing_keeps {object : ObjectAddress} (hobj : P object)
    (callingObject : Option ObjectAddress) {s : DropState} {t : HeapTuple}
    (hk : dependerKey object t.form = true) (owning : Option ObjectAddress) :
    Keeps J s (finalState (sweepOutgoing object callingObject t owning s)) := by
  intro h
  rcases sweepOutgoing_cases object callingObject t owning s with
    ⟨hsev, e⟩ | ⟨-, -, -, e⟩ | ⟨_, -, e⟩ <;> rw [e]
  · exact hJ.sever s object t hobj ((dependerKey_iff _ _).mp hk) hsev.not_pin h
  all_goals exact h

theorem dropDependent_keeps {recurse : ObjectAddress → Option ObjectAddress → DropM Bool}
    (hrec : ∀ o, P o → ∀ c, Steps (Keeps J) (recurse o c)) {object : ObjectAddress}
    (hobj : DependentsIn P J object) {s : DropState} {t : HeapTuple} (ht : t ∈ s.depRel)
    (hk : referencedKey object t.form = true) (ok : Bool) :
    Keeps J s
      (finalState (dropDependent env behavior msglevel oktodelete recurse object t ok s)) := by
  intro h
  rcases dropDependent_cases env behavior msglevel oktodelete recurse object t ok s with
    ⟨-, _, -, e⟩ | ⟨hty, fine, level, msg, hn, ha, e⟩ <;> rw [e]
  · exact h
  have hdep : P t.form.depender := hobj s h t ht
    (by rcases hty with h | h | h <;> rw [h] <;> decide) ((referencedKey_iff _ _).mp hk)
  have hmsg : MessageSound P oktodelete msg := by
    by_cases hnorm : t.form.deptype = 'n'
    · exact (hn hnorm).messageSound hdep
    · rw [(ha hnorm).2]; exact hdep
  refine hJ.runRel.bind (hrec _ hdep _ _) ?_ (hJ.report s level msg hmsg h)
  exact fun _ _ _ h => h

theorem deleteDependentObjects_keeps {recurse : ObjectAddress → Option ObjectAddress → DropM Bool}
    (hrec : ∀ o, P o → ∀ c, Steps (Keeps J) (recurse o c)) {object : ObjectAddress}
    (hobj : DependentsIn P J object) :
    Steps (Keeps J) (deleteDependentObjects env behavior msglevel oktodelete recurse object) :=
  Steps.caqlBeginscan env hJ.runRel (fun _ acc _ _ ht hk _ =>
    dropDependent_keeps env behavior msglevel oktodelete hJ hrec hobj ht hk acc) _

section Branches

variable {fuel : Nat} (ih : ∀ o, P o → ∀ c,
  Steps (Keeps J) (recursiveDeletion env behavior msglevel oktodelete fuel o c))
include ih

/-- Steps 2 and 3 keep `J` once Step 1 has left no entry from `object`: by the
time it is logged, no entry from or to it is left. -/
theorem dropBranch_keeps {object : ObjectAddress} (hobj : P object) {s : DropState}
    (hfree : ∀ t ∈ s.depRel, ¬ object.covers t.form.depender) :
    Keeps J s (finalState ((deleteDependentObjects env behavior msglevel oktodelete
      (recursiveDeletion env behavior msglevel oktodelete fuel) object >>= fun ok =>
        doDeletion env object >>= fun _ => noteDeleted object >>= fun _ => pure ok) s)) := by
  refine hJ.runRel.bind (deleteDependentObjects_keeps env behavior msglevel oktodelete hJ ih
    (hJ.dependentsIn hobj) s) fun _ s₁ hdd h₁ => ?_
  have hev := Steps.of_ok (deleteDependentObjects_evolves env behavior msglevel oktodelete
    (recursiveDeletion_evolves env behavior msglevel oktodelete fuel) object) hdd
  have hclean : ∀ t ∈ s₁.depRel,
      ¬ object.covers t.form.depender ∧ ¬ object.covers t.form.referenced := fun t ht =>
    ⟨hfree t (hev.depRel_subset ht),
      deleteDependentObjects_clears env behavior msglevel oktodelete hdd t ht⟩
  refine hJ.runRel.bind (fun _ => hJ.doDeletion env hobj hclean h₁) (fun _ s₂ _ h₂ => ?_) h₁
  refine hJ.runRel.bind (by rw [noteDeleted_apply]; exact hJ.congr s₂ _ rfl rfl rfl) ?_ h₂
  exact fun _ _ _ h => h

/-- The owner branch keeps `J` when the owner is a member. -/
theorem ownerBranch_keeps {object owner : ObjectAddress} (hmem : P owner) (s : DropState) :
    Keeps J s (finalState ((reportCascade env behavior msglevel oktodelete owner object >>=
      fun fine => recursiveDeletion env behavior msglevel oktodelete fuel owner (some object) >>=
        fun r => pure (fine && r)) s)) := by
  obtain ⟨fine, level, msg, e, hr⟩ :=
    reportCascade_cases env behavior msglevel oktodelete owner object s
  refine hJ.runRel.bind (by rw [e]; exact hJ.report s level msg (hr.messageSound hmem))
    fun _ s₁ _ => ?_
  exact hJ.runRel.bind (ih _ hmem _ s₁) fun _ _ _ h => h

end Branches

/-- **Invariants of `recursiveDeletion`.** Started on a member of `P`, every run
keeps every `DeletionInvariant`, whether it returns or raises. -/
theorem recursiveDeletion_keeps :
    ∀ fuel object, P object → ∀ callingObject,
      Steps (Keeps J)
        (recursiveDeletion env behavior msglevel oktodelete fuel object callingObject) := by
  intro fuel
  induction fuel with
  | zero => intro _ _ _; exact Steps.throw hJ.runRel _
  | succ fuel ih =>
    intro object hobj callingObject s
    rw [recursiveDeletion_succ]
    refine hJ.runRel.bind (getObjectDescription_steps env hJ.runRel object s)
      fun _ s₁ _ => hJ.runRel.bind (Steps.caqlBeginscan env hJ.runRel
        (fun _ acc _ _ _ hk _ => sweepOutgoing_keeps oktodelete hJ hobj callingObject hk acc) _ s₁)
        fun owning s₂ hsweep h₂ => ?_
    obtain ⟨-, hkept, hown, -⟩ := sweep_ok env object callingObject hsweep
    rcases owning with _ | owningObject
    · exact dropBranch_keeps env behavior msglevel oktodelete hJ ih hobj
        (fun t ht hc => Option.noConfusion (hkept t ht hc).2) h₂
    · -- the owner named by the kept INTERNAL entry is a member too
      obtain ⟨t, ht, hc, ⟨hi, -⟩, rfl⟩ := hown _ rfl
      exact ownerBranch_keeps env behavior msglevel oktodelete hJ ih
        ((hJ.closed s₂ h₂).owner _ (List.mem_map_of_mem _ ht) hi object hobj hc) s₂ h₂

end Keeps

end CatalogDependency
