import CatalogDependency.Deletion

/-!
Frame lemmas for deletion runs: what each step of a run may change.

`Steps R x` says that `x`, started in any state, ends in a state related to
its start by `R`, whether it returns or raises. It composes through `>>=`
(`Steps.bind`) and through the scan loop (`Steps.caqlScan`). For the states a
scan returns normally, `caqlScan_ok` is the loop rule: an invariant of the
loop body holds at the end, when every live matching tuple has been returned.

The main instance is `Evolves`: a run deletes `pg_depend` tuples but never a
PIN tuple, and only appends to the deletion log and to the messages
(`recursiveDeletion_evolves` and the lemmas for the entry points).
`findAutoDeletableObjects` changes nothing but the scan counter
(`findAutoDeletableObjects_frame`).
-/

namespace CatalogDependency

variable {α β : Type}

/-! ## Results of `DropM` computations -/

theorem bind_of_ok {x : DropM α} {f : α → DropM β} {s s₁ : DropState} {a : α}
    (h : x s = .ok a s₁) : (x >>= f) s = f a s₁ := by
  show EStateM.bind x f s = _
  simp [EStateM.bind, h]

theorem bind_of_error {x : DropM α} {f : α → DropM β} {s s₁ : DropState} {e : DropError}
    (h : x s = .error e s₁) : (x >>= f) s = .error e s₁ := by
  show EStateM.bind x f s = _
  simp [EStateM.bind, h]

theorem bind_eq_ok {x : DropM α} {f : α → DropM β} {s s' : DropState} {b : β} :
    (x >>= f) s = .ok b s' ↔ ∃ a s₁, x s = .ok a s₁ ∧ f a s₁ = .ok b s' := by
  cases h : x s with
  | ok a s₁ =>
    rw [bind_of_ok h]
    exact ⟨fun hf => ⟨a, s₁, rfl, hf⟩, fun ⟨_, _, he, hf⟩ => by cases he; exact hf⟩
  | error e s₁ => rw [bind_of_error h]; simp

theorem bind_eq_error {x : DropM α} {f : α → DropM β} {s s' : DropState} {e : DropError} :
    (x >>= f) s = .error e s' ↔
      x s = .error e s' ∨ ∃ a s₁, x s = .ok a s₁ ∧ f a s₁ = .error e s' := by
  cases h : x s with
  | ok a s₁ =>
    rw [bind_of_ok h]
    exact ⟨fun hf => .inr ⟨a, s₁, rfl, hf⟩,
      fun | .inl he => nomatch he | .inr ⟨_, _, he, hf⟩ => by cases he; exact hf⟩
  | error e₁ s₁ => rw [bind_of_error h]; simp

@[simp] theorem finalState_ok (a : α) (s : DropState) :
    finalState (EStateM.Result.ok a s : EStateM.Result DropError DropState α) = s := rfl

@[simp] theorem finalState_error (e : DropError) (s : DropState) :
    finalState (EStateM.Result.error e s : EStateM.Result DropError DropState α) = s := rfl

/-! ## Relations between the start and the end of a computation -/

/-- A reflexive, transitive relation between states that a scan step (which
only counts the tuple it returns) respects. -/
structure RunRel (R : DropState → DropState → Prop) : Prop where
  refl : ∀ s, R s s
  trans : ∀ {s₁ s₂ s₃}, R s₁ s₂ → R s₂ s₃ → R s₁ s₃
  scan : ∀ s, R s { s with scans := s.scans + 1 }

/-- `x` ends, returning or raising, in a state related to its start by `R`. -/
def Steps (R : DropState → DropState → Prop) (x : DropM α) : Prop :=
  ∀ s, R s (finalState (x s))

section Steps

variable {R : DropState → DropState → Prop}

theorem Steps.pure (hR : RunRel R) (a : α) : Steps R (pure a : DropM α) := hR.refl

theorem Steps.throw (hR : RunRel R) (e : DropError) : Steps R (throw e : DropM α) := hR.refl

/-- `R` across `x >>= f` from one start state. -/
theorem RunRel.bind (hR : RunRel R) {x : DropM α} {f : α → DropM β} {s : DropState}
    (hx : R s (finalState (x s)))
    (hf : ∀ a s₁, x s = .ok a s₁ → R s₁ (finalState (f a s₁))) :
    R s (finalState ((x >>= f) s)) := by
  cases h : x s with
  | ok a s₁ => rw [bind_of_ok h]; rw [h] at hx; exact hR.trans hx (hf a s₁ h)
  | error e s₁ => rw [bind_of_error h]; rw [h] at hx; exact hx

theorem Steps.bind (hR : RunRel R) {x : DropM α} {f : α → DropM β} (hx : Steps R x)
    (hf : ∀ s a s₁, x s = .ok a s₁ → R s₁ (finalState (f a s₁))) : Steps R (x >>= f) :=
  fun s => hR.bind (hx s) (hf s)

/-- A predicate kept by every state change, as a relation. -/
def Keeps (J : DropState → Prop) (s s' : DropState) : Prop := J s → J s'

theorem Keeps.runRel {J : DropState → Prop} (hscan : ∀ s, J s → J { s with scans := s.scans + 1 }) :
    RunRel (Keeps J) :=
  ⟨fun _ h => h, fun h₁ h₂ h => h₂ (h₁ h), hscan⟩

end Steps

/-! ## Scans -/

section Scans

variable (env : DropEnv)

theorem caqlGetnext_cases (key : FormDataPgDepend → Bool) (seen : List HeapTuple)
    (s : DropState) :
    (caqlGetnext env key seen s = .ok none s ∧ ∀ t ∈ s.depRel, key t.form = true → t ∈ seen) ∨
      ∃ t, caqlGetnext env key seen s = .ok (some t) { s with scans := s.scans + 1 } ∧
        t ∈ s.depRel ∧ key t.form = true ∧ t ∉ seen := by
  unfold caqlGetnext
  split
  · next h =>
    refine .inl ⟨rfl, fun t ht hk => ?_⟩
    have := List.filter_eq_nil_iff.mp h t ht
    simp only [hk, Bool.true_and, decide_eq_true_eq, not_not] at this
    exact this
  · next t ts h =>
    refine .inr ⟨_, rfl, ?_⟩
    have hmem : (t :: ts).getD (env.scanOrder s.scans % (ts.length + 1)) t ∈
        s.depRel.filter (fun t => key t.form && decide (t ∉ seen)) := by
      rw [h, List.getD_eq_getElem _ _
        (by simp only [List.length_cons]; exact Nat.mod_lt _ (by omega))]
      exact List.getElem_mem _
    simp only [List.mem_filter, Bool.and_eq_true, decide_eq_true_eq] at hmem
    exact ⟨hmem.1, hmem.2⟩

theorem caqlScan_succ (key : FormDataPgDepend → Bool) (body : HeapTuple → α → DropM α)
    (n : Nat) (seen : List HeapTuple) (acc : α) :
    caqlScan env key body (n + 1) seen acc =
      (caqlGetnext env key seen >>= fun next => match next with
        | none => pure acc
        | some t => body t acc >>= fun acc' => caqlScan env key body n (t :: seen) acc') := rfl

variable {R : DropState → DropState → Prop}

theorem Steps.caqlGetnext (hR : RunRel R) (key : FormDataPgDepend → Bool) (seen : List HeapTuple) :
    Steps R (caqlGetnext env key seen) := by
  intro s
  rcases caqlGetnext_cases env key seen s with ⟨h, -⟩ | ⟨t, h, -⟩ <;> rw [h]
  · exact hR.refl s
  · exact hR.scan s

/-- The loop of a scan keeps `R` when every iteration of its body does. -/
theorem Steps.caqlScan (hR : RunRel R) {key : FormDataPgDepend → Bool}
    {body : HeapTuple → α → DropM α}
    (hbody : ∀ (seen : List HeapTuple) (acc : α) (s : DropState) (t : HeapTuple),
      t ∈ s.depRel → key t.form = true → t ∉ seen →
      R s (finalState (body t acc s))) :
    ∀ n seen acc, Steps R (caqlScan env key body n seen acc) := by
  intro n
  induction n with
  | zero => intro _ _; exact Steps.throw hR _
  | succ n ih =>
    intro seen acc s
    rw [caqlScan_succ]
    rcases caqlGetnext_cases env key seen s with ⟨h, -⟩ | ⟨t, h, ht, hk, hs⟩ <;>
      rw [bind_of_ok h]
    · exact hR.refl s
    · exact hR.trans (hR.scan s)
        (hR.bind (hbody seen acc _ t ht hk hs) (fun a _ _ => ih _ a _))

theorem Steps.caqlBeginscan (hR : RunRel R) {key : FormDataPgDepend → Bool}
    {body : HeapTuple → α → DropM α}
    (hbody : ∀ (seen : List HeapTuple) (acc : α) (s : DropState) (t : HeapTuple),
      t ∈ s.depRel → key t.form = true → t ∉ seen →
      R s (finalState (body t acc s))) (init : α) :
    Steps R (caqlBeginscan env key body init) := by
  intro s
  exact Steps.caqlScan env hR hbody _ _ _ s

/-- **Loop rule.** An invariant of the body over the tuples returned so far
holds when the scan returns, and by then every live tuple matching the key has
been returned. -/
theorem caqlScan_ok {key : FormDataPgDepend → Bool} {body : HeapTuple → α → DropM α}
    (I : List HeapTuple → α → DropState → Prop)
    (hscan : ∀ seen acc s, I seen acc s → I seen acc { s with scans := s.scans + 1 })
    (hbody : ∀ seen acc s t acc' s', I seen acc s → t ∈ s.depRel → key t.form = true →
      t ∉ seen → body t acc s = .ok acc' s' → I (t :: seen) acc' s') :
    ∀ n seen acc s acc' s', I seen acc s → caqlScan env key body n seen acc s = .ok acc' s' →
      ∃ seen', I seen' acc' s' ∧ ∀ t ∈ s'.depRel, key t.form = true → t ∈ seen' := by
  intro n
  induction n with
  | zero => intro _ _ _ _ _ _ h; cases h
  | succ n ih =>
    intro seen acc s acc' s' hI h
    rw [caqlScan_succ] at h
    rcases caqlGetnext_cases env key seen s with ⟨hn, hex⟩ | ⟨t, hn, ht, hk, hs⟩ <;>
      rw [bind_of_ok hn] at h
    · cases h; exact ⟨seen, hI, hex⟩
    · obtain ⟨acc₁, s₁, hb, hr⟩ := bind_eq_ok.mp h
      exact ih _ _ _ _ _ (hbody seen acc _ t acc₁ s₁ (hscan _ _ _ hI) ht hk hs hb) hr

theorem caqlBeginscan_ok {key : FormDataPgDepend → Bool} {body : HeapTuple → α → DropM α}
    (I : List HeapTuple → α → DropState → Prop)
    (hscan : ∀ seen acc s, I seen acc s → I seen acc { s with scans := s.scans + 1 })
    (hbody : ∀ seen acc s t acc' s', I seen acc s → t ∈ s.depRel → key t.form = true →
      t ∉ seen → body t acc s = .ok acc' s' → I (t :: seen) acc' s')
    {init acc' : α} {s s' : DropState} (hI : I [] init s)
    (h : caqlBeginscan env key body init s = .ok acc' s') :
    ∃ seen', I seen' acc' s' ∧ ∀ t ∈ s'.depRel, key t.form = true → t ∈ seen' :=
  caqlScan_ok env I hscan hbody _ _ _ _ _ _ hI h

/-- **Error rule.** A scan that raises ran out of fuel, or its body raised on a
live matching tuple not returned before, in a state where the invariant of the
body holds. -/
theorem caqlScan_error {key : FormDataPgDepend → Bool} {body : HeapTuple → α → DropM α}
    (I : List HeapTuple → α → DropState → Prop)
    (hscan : ∀ seen acc s, I seen acc s → I seen acc { s with scans := s.scans + 1 })
    (hbody : ∀ seen acc s t acc' s', I seen acc s → t ∈ s.depRel → key t.form = true →
      t ∉ seen → body t acc s = .ok acc' s' → I (t :: seen) acc' s') :
    ∀ n seen acc s e s', I seen acc s → caqlScan env key body n seen acc s = .error e s' →
      e = .outOfFuel ∨ ∃ seen₁ acc₁ s₁ t, I seen₁ acc₁ s₁ ∧ t ∈ s₁.depRel ∧
        key t.form = true ∧ t ∉ seen₁ ∧ body t acc₁ s₁ = .error e s' := by
  intro n
  induction n with
  | zero => intro _ _ _ _ _ _ h; cases h; exact .inl rfl
  | succ n ih =>
    intro seen acc s e s' hI h
    rw [caqlScan_succ] at h
    rcases caqlGetnext_cases env key seen s with ⟨hn, -⟩ | ⟨t, hn, ht, hk, hs⟩ <;>
      rw [bind_of_ok hn] at h
    · cases h
    · rcases bind_eq_error.mp h with hb | ⟨acc₁, s₁, hb, hr⟩
      · exact .inr ⟨seen, acc, _, t, hscan _ _ _ hI, ht, hk, hs, hb⟩
      · exact ih _ _ _ _ _ (hbody seen acc _ t acc₁ s₁ (hscan _ _ _ hI) ht hk hs hb) hr

theorem caqlBeginscan_error {key : FormDataPgDepend → Bool} {body : HeapTuple → α → DropM α}
    (I : List HeapTuple → α → DropState → Prop)
    (hscan : ∀ seen acc s, I seen acc s → I seen acc { s with scans := s.scans + 1 })
    (hbody : ∀ seen acc s t acc' s', I seen acc s → t ∈ s.depRel → key t.form = true →
      t ∉ seen → body t acc s = .ok acc' s' → I (t :: seen) acc' s')
    {init : α} {s s' : DropState} {e : DropError} (hI : I [] init s)
    (h : caqlBeginscan env key body init s = .error e s') :
    e = .outOfFuel ∨ ∃ seen₁ acc₁ s₁ t, I seen₁ acc₁ s₁ ∧ t ∈ s₁.depRel ∧
      key t.form = true ∧ t ∉ seen₁ ∧ body t acc₁ s₁ = .error e s' :=
  caqlScan_error env I hscan hbody _ _ _ _ _ _ hI h

end Scans

/-! ## What each step does -/

section StepSpecs

variable (env : DropEnv)

@[simp] theorem caqlDeleteCurrent_apply (t : HeapTuple) (s : DropState) :
    caqlDeleteCurrent t s = .ok () { s with depRel := s.depRel.filter fun u => decide (u ≠ t) } :=
  rfl

@[simp] theorem ereport_apply (level : ElogLevel) (msg : DropMessage) (s : DropState) :
    ereport level msg s = .ok () { s with messages := s.messages ++ [(level, msg)] } := rfl

@[simp] theorem noteDeleted_apply (object : ObjectAddress) (s : DropState) :
    noteDeleted object s = .ok () { s with
      alreadyDeleted := s.alreadyDeleted.map fun ad =>
        if objectAddressPresent object ad then ad else addExactObjectAddress object ad } := rfl

@[simp] theorem modify_apply (f : DropState → DropState) (s : DropState) :
    (modify f : DropM Unit) s = .ok () (f s) := rfl

theorem getObjectDescription_cases (object : ObjectAddress) (s : DropState) :
    getObjectDescription env object s = .ok () s ∨
      getObjectDescription env object s = .error (.unrecognizedObjectClass object.classId) s := by
  unfold getObjectDescription
  cases getObjectClass env.objectClasses object
  · exact .inr rfl
  · exact .inl rfl

/-- `doDeletion` logs the object; its class dispatch adds at most a notice. -/
theorem doDeletion_cases (object : ObjectAddress) (s : DropState) :
    finalState (doDeletion env object s) = { s with deleted := s.deleted ++ [object] } ∨
      finalState (doDeletion env object s) = { s with
        deleted := s.deleted ++ [object],
        messages := s.messages ++ [(.notice, .notYetImplemented)] } := by
  unfold doDeletion
  rw [bind_of_ok (modify_apply _ _)]
  rcases getObjectClass env.objectClasses object with _ | c
  · exact .inl rfl
  · cases c <;> first | exact .inl rfl | exact .inr rfl

/-- The INTERNAL "case 2" test of Step 1 is `callingObject` covering the other end. -/
theorem callingObject_test_iff (caller other : ObjectAddress) :
    (caller.classId = other.classId ∧ caller.objectId = other.objectId ∧
      (caller.objectSubId = other.objectSubId ∨ caller.objectSubId = 0)) ↔ caller.covers other := by
  unfold ObjectAddress.covers
  rw [or_comm]

/-- The entries Step 1 removes when called from `callingObject`: NORMAL and
AUTO ones, and INTERNAL ones whose other end the caller covers. -/
def Severable (callingObject : Option ObjectAddress) (d : FormDataPgDepend) : Prop :=
  d.deptype = 'n' ∨ d.deptype = 'a' ∨
    (d.deptype = 'i' ∧ ∃ c, callingObject = some c ∧ c.covers d.referenced)

theorem Severable.not_pin {callingObject : Option ObjectAddress} {d : FormDataPgDepend}
    (h : Severable callingObject d) : d.deptype ≠ 'p' := by
  rcases h with h | h | ⟨h, -⟩ <;> rw [h] <;> decide

/-- **Step 1, one tuple.** The tuple is removed, or it is the first INTERNAL
entry to an owner other than the caller, or the step raises. -/
theorem sweepOutgoing_cases (object : ObjectAddress) (callingObject : Option ObjectAddress)
    (t : HeapTuple) (owning : Option ObjectAddress) (s : DropState) :
    (Severable callingObject t.form ∧ sweepOutgoing object callingObject t owning s =
        .ok owning { s with depRel := s.depRel.filter fun u => decide (u ≠ t) }) ∨
      (owning = none ∧ t.form.deptype = 'i' ∧
        (∃ c, callingObject = some c ∧ ¬ c.covers t.form.referenced) ∧
        sweepOutgoing object callingObject t owning s = .ok (some t.form.referenced) s) ∨
      (∃ e, e ≠ .outOfFuel ∧ sweepOutgoing object callingObject t owning s = .error e s) := by
  unfold sweepOutgoing
  rcases hk : DependencyType.ofChar t.form.deptype with _ | k
  · exact .inr (.inr ⟨_, by exact nofun, rfl⟩)
  have hc := DependencyType.ofChar_eq_some.mp hk
  cases k
  · exact .inl ⟨.inl hc, rfl⟩
  · exact .inl ⟨.inr (.inl hc), rfl⟩
  · rcases callingObject with _ | caller
    · exact .inr (.inr ⟨_, by exact nofun, rfl⟩)
    · by_cases hm : caller.covers t.form.referenced
      · refine .inl ⟨.inr (.inr ⟨hc, caller, rfl, hm⟩), ?_⟩
        simp only [(callingObject_test_iff _ _).mpr hm, ↓reduceIte]; rfl
      · simp only [(callingObject_test_iff _ _).not.mpr hm, ↓reduceIte]
        rcases owning with _ | _
        · exact .inr (.inl ⟨rfl, hc, ⟨caller, rfl, hm⟩, rfl⟩)
        · exact .inr (.inr ⟨_, by exact nofun, rfl⟩)
  · exact .inr (.inr ⟨_, by exact nofun, rfl⟩)

section Report

variable (behavior : DropBehavior) (msglevel : ElogLevel) (oktodelete : ObjectAddresses)

/-- What `reportCascade` reports about `other`, and when it answers `false`. -/
def Reported (other object : ObjectAddress) (fine : Bool) (msg : DropMessage) : Prop :=
  (objectAddressPresent other oktodelete = true ∧ fine = true ∧ msg = .autoCascades other) ∨
    (objectAddressPresent other oktodelete = false ∧ behavior = .dropRestrict ∧ fine = false ∧
      msg = .dependsOn other object) ∨
    (objectAddressPresent other oktodelete = false ∧ behavior = .dropCascade ∧ fine = true ∧
      msg = .cascadesTo other)

theorem reportCascade_cases (other object : ObjectAddress) (s : DropState) :
    ∃ fine level msg, reportCascade env behavior msglevel oktodelete other object s =
        .ok fine { s with messages := s.messages ++ [(level, msg)] } ∧
      Reported behavior oktodelete other object fine msg := by
  unfold reportCascade Reported
  by_cases hp : objectAddressPresent other oktodelete = true
  · exact ⟨_, _, _, by simp only [hp, ↓reduceIte]; rfl, .inl ⟨hp, rfl, rfl⟩⟩
  · simp only [Bool.not_eq_true] at hp
    cases behavior
    · exact ⟨_, _, _, by simp only [hp]; rfl, .inr (.inl ⟨hp, rfl, rfl, rfl⟩)⟩
    · exact ⟨_, _, _, by simp only [hp]; rfl, .inr (.inr ⟨hp, rfl, rfl, rfl⟩)⟩

/-- **Step 2, one tuple.** A PIN or unknown entry raises; any other entry is
reported and its depender deleted with `object` as the calling object. -/
theorem dropDependent_cases (recurse : ObjectAddress → Option ObjectAddress → DropM Bool)
    (object : ObjectAddress) (t : HeapTuple) (ok : Bool) (s : DropState) :
    ((t.form.deptype ≠ 'n' ∧ t.form.deptype ≠ 'a' ∧ t.form.deptype ≠ 'i') ∧
        ∃ e, e ≠ .outOfFuel ∧
          dropDependent env behavior msglevel oktodelete recurse object t ok s = .error e s) ∨
      ((t.form.deptype = 'n' ∨ t.form.deptype = 'a' ∨ t.form.deptype = 'i') ∧ ∃ fine level msg,
        (t.form.deptype = 'n' → Reported behavior oktodelete t.form.depender object fine msg) ∧
        (t.form.deptype ≠ 'n' → fine = true ∧ msg = .autoCascades t.form.depender) ∧
        dropDependent env behavior msglevel oktodelete recurse object t ok s =
          (recurse t.form.depender (some object) >>= fun r => pure (ok && fine && r))
            { s with messages := s.messages ++ [(level, msg)] }) := by
  unfold dropDependent
  rcases hk : DependencyType.ofChar t.form.deptype with _ | k
  · refine .inl ⟨?_, _, by exact nofun, rfl⟩
    simp only [DependencyType.ofChar] at hk
    split_ifs at hk with h1 h2 h3
    exact ⟨h1, h2, h3⟩
  have hc := DependencyType.ofChar_eq_some.mp hk
  cases k
  case dependencyNormal =>
    obtain ⟨fine, level, msg, h, hr⟩ := reportCascade_cases env behavior msglevel oktodelete
      t.form.depender object s
    refine .inr ⟨.inl hc, fine, level, msg, fun _ => hr, fun hn => absurd hc hn, ?_⟩
    simp only
    rw [bind_of_ok h]
  case dependencyPin => exact .inl ⟨by rw [hc]; decide, _, by exact nofun, rfl⟩
  all_goals
    -- AUTO and INTERNAL: the depender auto-cascades, at DEBUG2
    refine .inr ⟨by rw [hc]; decide, true, .debug2, .autoCascades t.form.depender,
      fun hn => absurd hc (by rw [hn]; decide), fun _ => ⟨rfl, rfl⟩, ?_⟩
    simp only [Bool.and_true]
    exact bind_of_ok (ereport_apply _ _ _)

end Report

/-- **Pre-scan, one tuple.** -/
theorem collectAuto_cases (recurse : ObjectAddress → ObjectAddresses → DropM ObjectAddresses)
    (object : ObjectAddress) (t : HeapTuple) (okt : ObjectAddresses) (s : DropState) :
    (t.form.deptype = 'n' ∧ collectAuto recurse object t okt s = .ok okt s) ∨
      ((t.form.deptype = 'a' ∨ t.form.deptype = 'i') ∧
        collectAuto recurse object t okt s = recurse t.form.depender okt s) ∨
      (∃ e, e ≠ .outOfFuel ∧ collectAuto recurse object t okt s = .error e s) := by
  unfold collectAuto
  rcases hk : DependencyType.ofChar t.form.deptype with _ | k
  · exact .inr (.inr ⟨_, by exact nofun, rfl⟩)
  have hc := DependencyType.ofChar_eq_some.mp hk
  cases k
  · exact .inl ⟨hc, rfl⟩
  · exact .inr (.inl ⟨.inl hc, rfl⟩)
  · exact .inr (.inl ⟨.inr hc, rfl⟩)
  · exact .inr (.inr ⟨_, by exact nofun, rfl⟩)

end StepSpecs

/-! ## Runs delete tuples, never PIN ones, and append to their logs -/

/-- What any part of a deletion run does to the state: it deletes tuples of
`pg_depend`, never a PIN tuple, and appends to the deletion log and the
messages. -/
structure Evolves (s s' : DropState) : Prop where
  depRel_sublist : List.Sublist s'.depRel s.depRel
  pin_kept : ∀ t ∈ s.depRel, t.form.deptype = 'p' → t ∈ s'.depRel
  deleted_prefix : s.deleted <+: s'.deleted
  messages_prefix : s.messages <+: s'.messages

namespace Evolves

theorem depRel_subset {s s' : DropState} (h : Evolves s s') : s'.depRel ⊆ s.depRel :=
  h.depRel_sublist.subset

theorem runRel : RunRel Evolves where
  refl _ := ⟨List.Sublist.refl _, fun _ h _ => h, List.prefix_refl _, List.prefix_refl _⟩
  trans h₁ h₂ := ⟨h₂.1.trans h₁.1, fun t ht hp => h₂.2 t (h₁.2 t ht hp) hp,
    h₁.3.trans h₂.3, h₁.4.trans h₂.4⟩
  scan _ := ⟨List.Sublist.refl _, fun _ h _ => h, List.prefix_refl _, List.prefix_refl _⟩

theorem delete (s : DropState) {t : HeapTuple} (ht : t.form.deptype ≠ 'p') :
    Evolves s { s with depRel := s.depRel.filter fun u => decide (u ≠ t) } :=
  ⟨List.filter_sublist _,
    fun _ hu hp => List.mem_filter.mpr ⟨hu, decide_eq_true fun e => ht (e ▸ hp)⟩,
    List.prefix_refl _, List.prefix_refl _⟩

theorem report (s : DropState) (ms : List (ElogLevel × DropMessage)) :
    Evolves s { s with messages := s.messages ++ ms } :=
  ⟨List.Sublist.refl _, fun _ h _ => h, List.prefix_refl _, List.prefix_append _ _⟩

theorem log (s : DropState) (xs : List ObjectAddress) (ms : List (ElogLevel × DropMessage)) :
    Evolves s { s with deleted := s.deleted ++ xs, messages := s.messages ++ ms } :=
  ⟨List.Sublist.refl _, fun _ h _ => h, List.prefix_append _ _, List.prefix_append _ _⟩

end Evolves

section EvolvesSteps

variable (env : DropEnv) (behavior : DropBehavior) (msglevel : ElogLevel)
  (oktodelete : ObjectAddresses)

theorem recursiveDeletion_succ (fuel : Nat) (object : ObjectAddress)
    (callingObject : Option ObjectAddress) :
    recursiveDeletion env behavior msglevel oktodelete (fuel + 1) object callingObject =
      (getObjectDescription env object >>= fun _ =>
        caqlBeginscan env (dependerKey object) (sweepOutgoing object callingObject) none >>=
          fun owning => match owning with
          | some owningObject =>
            reportCascade env behavior msglevel oktodelete owningObject object >>= fun fine =>
              recursiveDeletion env behavior msglevel oktodelete fuel owningObject (some object) >>=
                fun r => pure (fine && r)
          | none =>
            deleteDependentObjects env behavior msglevel oktodelete
                (recursiveDeletion env behavior msglevel oktodelete fuel) object >>= fun ok =>
              doDeletion env object >>= fun _ => noteDeleted object >>= fun _ => pure ok) :=
  rfl

theorem getObjectDescription_steps {R : DropState → DropState → Prop} (hR : RunRel R)
    (object : ObjectAddress) : Steps R (getObjectDescription env object) := by
  intro s
  rcases getObjectDescription_cases env object s with h | h <;> rw [h] <;> exact hR.refl s

theorem doDeletion_evolves (object : ObjectAddress) : Steps Evolves (doDeletion env object) := by
  intro s
  rcases doDeletion_cases env object s with h | h <;> rw [h]
  · simpa using Evolves.log s [object] []
  · exact Evolves.log s [object] _

theorem noteDeleted_evolves (object : ObjectAddress) : Steps Evolves (noteDeleted object) :=
  fun _ => ⟨List.Sublist.refl _, fun _ h _ => h, List.prefix_refl _, List.prefix_refl _⟩

theorem sweepOutgoing_evolves (object : ObjectAddress) (callingObject : Option ObjectAddress)
    (t : HeapTuple) (owning : Option ObjectAddress) :
    Steps Evolves (sweepOutgoing object callingObject t owning) := by
  intro s
  rcases sweepOutgoing_cases object callingObject t owning s with
    ⟨hs, h⟩ | ⟨-, -, -, h⟩ | ⟨e, -, h⟩ <;> rw [h]
  · exact Evolves.delete s hs.not_pin
  all_goals exact Evolves.runRel.refl s

/-- Step 1 of `recursiveDeletion`. -/
theorem sweep_evolves (object : ObjectAddress) (callingObject : Option ObjectAddress) :
    Steps Evolves
      (caqlBeginscan env (dependerKey object) (sweepOutgoing object callingObject) none) :=
  Steps.caqlBeginscan env Evolves.runRel
    (fun _ acc s t _ _ _ => sweepOutgoing_evolves object callingObject t acc s) none

theorem dropDependent_evolves {recurse : ObjectAddress → Option ObjectAddress → DropM Bool}
    (hrec : ∀ o c, Steps Evolves (recurse o c)) (object : ObjectAddress) (t : HeapTuple)
    (ok : Bool) :
    Steps Evolves (dropDependent env behavior msglevel oktodelete recurse object t ok) := by
  intro s
  rcases dropDependent_cases env behavior msglevel oktodelete recurse object t ok s with
    ⟨-, e, -, h⟩ | ⟨-, fine, level, msg, -, -, h⟩ <;> rw [h]
  · exact Evolves.runRel.refl s
  · exact Evolves.runRel.trans (Evolves.report s _)
      (Evolves.runRel.bind (hrec _ _ _) fun _ _ _ => Evolves.runRel.refl _)

theorem deleteDependentObjects_evolves
    {recurse : ObjectAddress → Option ObjectAddress → DropM Bool}
    (hrec : ∀ o c, Steps Evolves (recurse o c)) (object : ObjectAddress) :
    Steps Evolves (deleteDependentObjects env behavior msglevel oktodelete recurse object) :=
  Steps.caqlBeginscan env Evolves.runRel
    (fun _ acc s t _ _ _ =>
      dropDependent_evolves env behavior msglevel oktodelete hrec object t acc s) _

theorem Steps.of_ok {R : DropState → DropState → Prop} {x : DropM α} (hx : Steps R x)
    {s s' : DropState} {a : α} (h : x s = .ok a s') : R s s' := by
  simpa [h] using hx s

/-- The branch of `recursiveDeletion` for an owned object. -/
theorem ownerBranch_evolves {fuel : Nat} {object owningObject : ObjectAddress}
    (hrec : Steps Evolves
      (recursiveDeletion env behavior msglevel oktodelete fuel owningObject (some object))) :
    Steps Evolves
      (reportCascade env behavior msglevel oktodelete owningObject object >>= fun fine =>
        recursiveDeletion env behavior msglevel oktodelete fuel owningObject (some object) >>=
          fun r => pure (fine && r)) := by
  intro s
  obtain ⟨fine, level, msg, h, -⟩ :=
    reportCascade_cases env behavior msglevel oktodelete owningObject object s
  exact Evolves.runRel.bind (by rw [h]; exact Evolves.report s _)
    fun _ _ _ => Evolves.runRel.bind (hrec _) fun _ _ _ => Evolves.runRel.refl _

/-- Steps 2 and 3 of `recursiveDeletion`. -/
theorem dropBranch_evolves {recurse : ObjectAddress → Option ObjectAddress → DropM Bool}
    (hrec : ∀ o c, Steps Evolves (recurse o c)) (object : ObjectAddress) :
    Steps Evolves (deleteDependentObjects env behavior msglevel oktodelete recurse object >>=
      fun ok => doDeletion env object >>= fun _ => noteDeleted object >>= fun _ => pure ok) :=
  Steps.bind Evolves.runRel (deleteDependentObjects_evolves env behavior msglevel oktodelete hrec
    object) fun _ _ s₃ _ => Evolves.runRel.bind (doDeletion_evolves env object s₃)
      fun _ s₄ _ => Evolves.runRel.bind (noteDeleted_evolves object s₄)
        fun _ _ _ => Evolves.runRel.refl _

theorem recursiveDeletion_evolves :
    ∀ fuel object callingObject,
      Steps Evolves
        (recursiveDeletion env behavior msglevel oktodelete fuel object callingObject) := by
  intro fuel
  induction fuel with
  | zero => intro _ _; exact Steps.throw Evolves.runRel _
  | succ fuel ih =>
    intro object callingObject s
    rw [recursiveDeletion_succ]
    refine Evolves.runRel.bind (getObjectDescription_steps env Evolves.runRel object s)
      fun _ s₁ _ => Evolves.runRel.bind (sweep_evolves env object callingObject s₁)
        fun owning s₂ _ => ?_
    rcases owning with _ | owningObject
    · exact dropBranch_evolves env behavior msglevel oktodelete ih object s₂
    · exact ownerBranch_evolves env behavior msglevel oktodelete (ih _ _) s₂

end EvolvesSteps

/-! ## The pre-scan changes nothing but the scan counter -/

/-- States equal but for the scan counter. -/
def SameExceptScans (s s' : DropState) : Prop :=
  s'.depRel = s.depRel ∧ s'.deleted = s.deleted ∧ s'.messages = s.messages ∧
    s'.alreadyDeleted = s.alreadyDeleted

theorem SameExceptScans.runRel : RunRel SameExceptScans where
  refl _ := ⟨rfl, rfl, rfl, rfl⟩
  trans h₁ h₂ := ⟨h₂.1.trans h₁.1, h₂.2.1.trans h₁.2.1, h₂.2.2.1.trans h₁.2.2.1,
    h₂.2.2.2.trans h₁.2.2.2⟩
  scan _ := ⟨rfl, rfl, rfl, rfl⟩

theorem SameExceptScans.evolves {s s' : DropState} (h : SameExceptScans s s') : Evolves s s' := by
  obtain ⟨h1, h2, h3, -⟩ := h
  exact ⟨h1 ▸ List.Sublist.refl _, fun _ ht _ => h1 ▸ ht, h2 ▸ List.prefix_refl _,
    h3 ▸ List.prefix_refl _⟩

section PreScanFrame

variable (env : DropEnv)

theorem findAutoDeletableObjects_succ (fuel : Nat) (object : ObjectAddress)
    (oktodelete : ObjectAddresses) (addself : Bool) :
    findAutoDeletableObjects env (fuel + 1) object oktodelete addself =
      if objectAddressPresent object oktodelete = true then pure oktodelete
      else caqlBeginscan env (referencedKey object)
        (collectAuto (fun o okt => findAutoDeletableObjects env fuel o okt true) object)
        (if addself then addExactObjectAddress object oktodelete else oktodelete) := rfl

theorem findAutoDeletableObjects_frame :
    ∀ fuel object oktodelete addself,
      Steps SameExceptScans (findAutoDeletableObjects env fuel object oktodelete addself) := by
  intro fuel
  induction fuel with
  | zero => intro _ _ _; exact Steps.throw SameExceptScans.runRel _
  | succ fuel ih =>
    intro object oktodelete addself
    rw [findAutoDeletableObjects_succ]
    split
    · exact Steps.pure SameExceptScans.runRel _
    · refine Steps.caqlBeginscan env SameExceptScans.runRel (fun _ okt s t _ _ _ => ?_) _
      rcases collectAuto_cases (fun o okt => findAutoDeletableObjects env fuel o okt true)
        object t okt s with ⟨-, h⟩ | ⟨-, h⟩ | ⟨e, -, h⟩ <;> rw [h]
      · exact SameExceptScans.runRel.refl s
      · exact ih _ _ _ s
      · exact SameExceptScans.runRel.refl s

end PreScanFrame

/-! ## Entry points -/

/-- A relation between states kept by everything an entry point does besides
deleting: class lookups, the pre-scan, and setting `alreadyDeleted`. -/
structure EntryRel (R : DropState → DropState → Prop) extends RunRel R : Prop where
  same : ∀ s s', SameExceptScans s s' → R s s'
  already : ∀ s a, R s { s with alreadyDeleted := a }

theorem Evolves.entryRel : EntryRel Evolves :=
  { Evolves.runRel with
    same := fun _ _ h => h.evolves
    already := fun _ _ => ⟨List.Sublist.refl _, fun _ h _ => h, List.prefix_refl _,
      List.prefix_refl _⟩ }

section EntrySteps

variable (env : DropEnv) (fuel : Nat) {R : DropState → DropState → Prop} (hR : EntryRel R)
include hR

theorem EntryRel.findAuto (object : ObjectAddress) (oktodelete : ObjectAddresses)
    (addself : Bool) : Steps R (findAutoDeletableObjects env fuel object oktodelete addself) :=
  fun s => hR.same _ _ (findAutoDeletableObjects_frame env fuel object oktodelete addself s)

/-- `performDeletion` keeps `R` when its `recursiveDeletion` does. -/
theorem performDeletion_steps {object : ObjectAddress} {behavior : DropBehavior}
    (hrd : ∀ oktodelete,
      Steps R (recursiveDeletion env behavior .notice oktodelete fuel object none)) :
    Steps R (performDeletion env fuel object behavior) := by
  intro s
  refine hR.bind (getObjectDescription_steps env hR.toRunRel object s) fun _ s₁ _ => ?_
  refine hR.bind (hR.findAuto env fuel object _ true s₁) fun okt s₂ _ => ?_
  refine hR.bind (by rw [modify_apply]; exact hR.already _ _) fun _ s₃ _ => ?_
  refine hR.bind (hrd okt s₃) fun ok s₄ _ => ?_
  split
  · exact hR.refl _
  · exact hR.refl _

theorem performDeletionWithList_steps {object : ObjectAddress} {behavior : DropBehavior}
    (hrd : ∀ oktodelete,
      Steps R (recursiveDeletion env behavior .notice oktodelete fuel object none))
    (implicit : ObjectAddresses) :
    Steps R (performDeletionWithList env fuel object implicit behavior) := by
  intro s
  refine hR.bind (getObjectDescription_steps env hR.toRunRel object s) fun _ s₁ _ => ?_
  refine hR.bind (hR.findAuto env fuel object _ true s₁) fun okt s₂ _ => ?_
  refine hR.bind (hrd okt s₂) fun ok s₃ _ => ?_
  split
  · exact hR.refl _
  · exact hR.refl _

theorem collectImplicit_steps :
    ∀ (objects : List ObjectAddress) implicit, Steps R (collectImplicit env fuel objects implicit)
  | [], _ => Steps.pure hR.toRunRel _
  | obj :: rest, implicit => by
    intro s
    unfold collectImplicit
    split
    · exact collectImplicit_steps rest implicit s
    · exact hR.bind (hR.findAuto env fuel obj implicit false s)
        fun okt s₁ _ => collectImplicit_steps rest okt s₁

theorem deleteTargets_steps {behavior : DropBehavior} :
    ∀ (objects : List ObjectAddress),
      (∀ o ∈ objects, ∀ oktodelete,
        Steps R (recursiveDeletion env behavior .notice oktodelete fuel o none)) →
      ∀ implicit, Steps R (deleteTargets env fuel behavior objects implicit)
  | [], _, _ => Steps.pure hR.toRunRel _
  | obj :: rest, hrd, implicit => by
    have hrest := deleteTargets_steps rest fun o ho => hrd o (List.mem_cons_of_mem _ ho)
    intro s
    refine hR.bind (hR.refl s) fun _ s₁ hs => ?_
    cases hs
    split
    · exact hrest implicit s
    · split
      · exact hrest implicit s
      · exact hR.bind (performDeletionWithList_steps env fuel hR
          (hrd obj (List.mem_cons_self _ _)) implicit s) fun okt s₂ _ => hrest okt s₂

/-- `performMultipleDeletions` keeps `R` when the `recursiveDeletion` of each
target does. -/
theorem performMultipleDeletions_steps {objects : ObjectAddresses} {behavior : DropBehavior}
    (hrd : ∀ o ∈ objects.items, ∀ oktodelete,
      Steps R (recursiveDeletion env behavior .notice oktodelete fuel o none)) :
    Steps R (performMultipleDeletions env fuel objects behavior) := by
  intro s
  refine hR.bind (by rw [modify_apply]; exact hR.already _ _) fun _ s₁ _ => ?_
  exact hR.bind (collectImplicit_steps env fuel hR _ _ s₁)
    fun implicit s₂ _ => deleteTargets_steps env fuel hR _ hrd implicit s₂

/-- `deleteWhatDependsOn` keeps `R` when its Step 2 does. -/
theorem deleteWhatDependsOn_steps {object : ObjectAddress} {showNotices : Bool}
    (hdd : ∀ msglevel oktodelete, Steps R (deleteDependentObjects env .dropCascade msglevel
      oktodelete (recursiveDeletion env .dropCascade msglevel oktodelete fuel) object)) :
    Steps R (deleteWhatDependsOn env fuel object showNotices) := by
  intro s
  refine hR.bind (getObjectDescription_steps env hR.toRunRel object s) fun _ s₁ _ => ?_
  refine hR.bind (hR.findAuto env fuel object _ true s₁) fun okt s₂ _ => ?_
  refine hR.bind (by rw [modify_apply]; exact hR.already _ _) fun _ s₃ _ => ?_
  refine hR.bind (hdd _ okt s₃) fun ok s₄ _ => ?_
  split
  · exact hR.refl _
  · exact hR.refl _

end EntrySteps

end CatalogDependency
