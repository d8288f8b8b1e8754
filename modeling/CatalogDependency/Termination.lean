import Mathlib.Data.List.Perm.Subperm
import CatalogDependency.Sweep

/-!
Runs of `recursiveDeletion` that never return.

Step 1 of `recursiveDeletion` deletes every entry of the object it scans except
an INTERNAL entry to an owner other than the calling object, and then hands the
deletion to that owner. When the calls that follow keep handing the deletion on
around a cycle, no entry is ever deleted and the recursion never ends
(`recursiveDeletion_owner_loop`). Three objects that own each other through
INTERNAL entries form such a cycle as soon as it is entered from a dependent, and
then `performDeletion` runs out of every amount of fuel
(`internal_cycle_runs_out_of_fuel`), although the source's comment after Step 1
says the deletions of that step prevent infinite recursion on dependency loops.

Only a cycle of INTERNAL entries goes round. Where ownership is ranked, each
owner below every object covering its dependents (`OwnerRanked`), every call
ends, around cycles of NORMAL or AUTO entries too, once given `N + 1` times one
more than the live entries of fuel for ranks up to `N`
(`recursiveDeletion_ends_under_owner_rank`); with no INTERNAL entry at all,
more fuel than there are live entries is enough
(`recursiveDeletion_ends_without_internal`). The measure is the live entries
Step 1 may leave (`entriesLeft`): the entries not from the object and the
INTERNAL ones it keeps. A call of Step 2 severs the entry it follows, so the
measure falls; an owner jump leaves no more entries than the measure counted,
and falls in rank.
-/

namespace CatalogDependency

variable {α β : Type}

/-! ## Raised errors through binds -/

theorem raised_bind_ok {x : DropM α} {f : α → DropM β} {s s₁ : DropState} {a : α}
    (h : x s = .ok a s₁) : raised ((x >>= f) s) = raised (f a s₁) := by
  rw [bind_of_ok h]

theorem raised_bind_of_raised {x : DropM α} {f : α → DropM β} {s : DropState} {e : DropError}
    (h : raised (x s) = some e) : raised ((x >>= f) s) = some e := by
  cases hx : x s with
  | ok a s₁ => rw [hx] at h; cases h
  | error e' s₁ =>
    rw [hx] at h
    cases h
    rw [bind_of_error hx]
    rfl

theorem raised_bind_ne {x : DropM α} {f : α → DropM β} {s : DropState} {e : DropError}
    (hx : raised (x s) ≠ some e) (hf : ∀ a s₁, x s = .ok a s₁ → raised (f a s₁) ≠ some e) :
    raised ((x >>= f) s) ≠ some e := by
  cases h : x s with
  | ok a s₁ => rw [raised_bind_ok h]; exact hf a s₁ h
  | error e' s₁ => rw [bind_of_error h]; rw [h] at hx; exact hx

/-! ## Propagation through one invocation -/

section Propagation

variable (env : DropEnv) (behavior : DropBehavior) (msglevel : ElogLevel)
  (oktodelete : ObjectAddresses)

/-- An invocation that hands the deletion to an owner raises what the owner's
invocation raises, from whatever messages the report before it adds. -/
theorem recursiveDeletion_owner_raises {fuel : Nat} {object owner : ObjectAddress}
    {callingObject : Option ObjectAddress} {s s₁ : DropState} {e : DropError}
    (hd : getObjectDescription env object s = .ok () s)
    (hsweep : caqlBeginscan env (dependerKey object) (sweepOutgoing object callingObject) none s =
      .ok (some owner) s₁)
    (hown : ∀ s₂ : DropState, s₂.depRel = s₁.depRel →
      raised (recursiveDeletion env behavior msglevel oktodelete fuel owner (some object) s₂) =
        some e) :
    raised (recursiveDeletion env behavior msglevel oktodelete (fuel + 1) object callingObject s) =
      some e := by
  rw [recursiveDeletion_succ, raised_bind_ok hd, raised_bind_ok hsweep]
  obtain ⟨fine, level, msg, hr, -⟩ :=
    reportCascade_cases env behavior msglevel oktodelete owner object s₁
  exact (raised_bind_ok hr).trans (raised_bind_of_raised (hown _ rfl))

/-- An invocation that owns no other object raises what its Step 2 raises. -/
theorem recursiveDeletion_dependents_raise {fuel : Nat} {object : ObjectAddress}
    {callingObject : Option ObjectAddress} {s s₁ : DropState} {e : DropError}
    (hd : getObjectDescription env object s = .ok () s)
    (hsweep : caqlBeginscan env (dependerKey object) (sweepOutgoing object callingObject) none s =
      .ok none s₁)
    (hdd : raised (deleteDependentObjects env behavior msglevel oktodelete
      (recursiveDeletion env behavior msglevel oktodelete fuel) object s₁) = some e) :
    raised (recursiveDeletion env behavior msglevel oktodelete (fuel + 1) object callingObject s) =
      some e := by
  rw [recursiveDeletion_succ, raised_bind_ok hd, raised_bind_ok hsweep]
  exact raised_bind_of_raised hdd

/-- Step 2 raises what the recursion into the first dependent it visits raises,
when that dependent's entry is NORMAL, AUTO or INTERNAL. -/
theorem deleteDependentObjects_first_raises
    {recurse : ObjectAddress → Option ObjectAddress → DropM Bool} {object : ObjectAddress}
    {s s₁ : DropState} {t : HeapTuple} {e : DropError}
    (hget : caqlGetnext env (referencedKey object) [] s = .ok (some t) s₁)
    (hty : t.form.deptype = 'n' ∨ t.form.deptype = 'a' ∨ t.form.deptype = 'i')
    (hrec : ∀ s₂ : DropState, s₂.depRel = s₁.depRel →
      raised (recurse t.form.depender (some object) s₂) = some e) :
    raised (deleteDependentObjects env behavior msglevel oktodelete recurse object s) = some e := by
  unfold deleteDependentObjects caqlBeginscan
  rw [raised_bind_ok (show (get : DropM DropState) s = .ok s s from rfl), caqlScan_succ,
    raised_bind_ok hget]
  refine raised_bind_of_raised ?_
  rcases dropDependent_cases env behavior msglevel oktodelete recurse object t true s₁ with
    ⟨⟨hn, ha, hi⟩, -⟩ | ⟨-, fine, level, msg, -, -, h⟩
  · rcases hty with h | h | h <;> contradiction
  · rw [h]
    exact raised_bind_of_raised (hrec _ rfl)

end Propagation

/-! ## Owner loops -/

section OwnerLoop

variable (env : DropEnv) (behavior : DropBehavior) (msglevel : ElogLevel)
  (oktodelete : ObjectAddresses)

/-- **Owner loops.** Let `Spin` be a set of invocations, each of whose Step 1
hands the deletion to an owner whose invocation, from any state with the same
live entries, is in `Spin` again. Then every invocation in `Spin` runs out of
fuel, however much it is given. -/
theorem recursiveDeletion_owner_loop
    (Spin : ObjectAddress → Option ObjectAddress → DropState → Prop)
    (hspin : ∀ object callingObject s, Spin object callingObject s →
      getObjectDescription env object s = .ok () s ∧
        ∃ owner s₁, caqlBeginscan env (dependerKey object) (sweepOutgoing object callingObject)
            none s = .ok (some owner) s₁ ∧
          ∀ s₂ : DropState, s₂.depRel = s₁.depRel → Spin owner (some object) s₂) :
    ∀ fuel object callingObject s, Spin object callingObject s →
      raised (recursiveDeletion env behavior msglevel oktodelete fuel object callingObject s) =
        some .outOfFuel := by
  intro fuel
  induction fuel with
  | zero => intro _ _ _ _; rfl
  | succ fuel ih =>
    intro object callingObject s h
    obtain ⟨hd, owner, s₁, hsweep, hnext⟩ := hspin object callingObject s h
    exact recursiveDeletion_owner_raises env behavior msglevel oktodelete hd hsweep
      fun s₂ h₂ => ih owner (some object) s₂ (hnext s₂ h₂)

end OwnerLoop

/-! ## A cycle of INTERNAL entries -/

/-- Relation `11` depends normally on the target `10`; relations `11`, `12` and
`13` own each other around a cycle of INTERNAL entries. Every object has at most
one INTERNAL entry, and there is no PIN entry. -/
def internalCycleCatalog : List FormDataPgDepend :=
  [.ofAddresses (relationAddress 11) (relationAddress 10) 'n',
    .ofAddresses (relationAddress 11) (relationAddress 12) 'i',
    .ofAddresses (relationAddress 12) (relationAddress 13) 'i',
    .ofAddresses (relationAddress 13) (relationAddress 11) 'i']

/-- The live entries once the normal entry of `11` is gone: the cycle. -/
def internalCycle : List HeapTuple := (DropState.init internalCycleCatalog).depRel.tail

/-- The invocations around the cycle, each called from the object before it. -/
def CycleSpin (object : ObjectAddress) (callingObject : Option ObjectAddress)
    (s : DropState) : Prop :=
  s.depRel = internalCycle ∧
    ((object, callingObject) = (relationAddress 12, some (relationAddress 11)) ∨
      (object, callingObject) = (relationAddress 13, some (relationAddress 12)) ∨
      (object, callingObject) = (relationAddress 11, some (relationAddress 13)))

theorem cycleSpin_step (object : ObjectAddress) (callingObject : Option ObjectAddress)
    (s : DropState) (h : CycleSpin object callingObject s) :
    getObjectDescription (exampleEnv fun _ => 0) object s = .ok () s ∧
      ∃ owner s₁, caqlBeginscan (exampleEnv fun _ => 0) (dependerKey object)
          (sweepOutgoing object callingObject) none s = .ok (some owner) s₁ ∧
        ∀ s₂ : DropState, s₂.depRel = s₁.depRel → CycleSpin owner (some object) s₂ := by
  obtain ⟨depRel, deleted, messages, alreadyDeleted, scans⟩ := s
  obtain ⟨hrel, hc⟩ := h
  simp only at hrel
  subst hrel
  rcases hc with hc | hc | hc <;> simp only [Prod.mk.injEq] at hc <;> obtain ⟨rfl, rfl⟩ := hc <;>
    exact ⟨rfl, _, _, rfl, fun s₂ h₂ => ⟨h₂, by decide⟩⟩

/-- **An INTERNAL cycle entered from a dependent.** Dropping relation `10` with
CASCADE reaches `11` through its normal entry; from there the deletion is handed
around the INTERNAL cycle forever, so `performDeletion` runs out of any amount of
fuel. -/
theorem internal_cycle_runs_out_of_fuel (fuel : Nat) :
    CatalogInvariants internalCycleCatalog ∧
      raised (performDeletion (exampleEnv fun _ => 0) fuel (relationAddress 10) .dropCascade
        (DropState.init internalCycleCatalog)) = some .outOfFuel := by
  refine ⟨by decide, ?_⟩
  have hloop := recursiveDeletion_owner_loop (exampleEnv fun _ => 0) .dropCascade .notice
    (addExactObjectAddress (relationAddress 10) newObjectAddresses) CycleSpin
    cycleSpin_step
  match fuel with
  | 0 => rfl
  | 1 => rfl
  | fuel + 2 =>
    -- the pre-scan returns, and Step 2 of `10` reaches `11` through its normal entry
    unfold performDeletion
    refine (raised_bind_ok (by rfl)).trans <| (raised_bind_ok (by rfl)).trans <|
      (raised_bind_ok (by rfl)).trans <| raised_bind_of_raised <|
      recursiveDeletion_dependents_raise _ _ _ _ (by rfl) (by rfl) <|
      deleteDependentObjects_first_raises _ _ _ _ (by rfl) (.inl (by rfl)) fun s₂ h₂ => ?_
    obtain ⟨depRel, deleted, messages, alreadyDeleted, scans⟩ := s₂
    simp only at h₂
    subst h₂
    -- Step 1 of `11` removes that entry and hands the deletion to `12`: the cycle
    exact recursiveDeletion_owner_raises _ _ _ _ (by rfl) (by rfl)
      fun s₃ h₃ => hloop fuel _ _ s₃ ⟨h₃, .inl rfl⟩

/-! ## Without INTERNAL entries, every run ends -/

section Bound

variable (env : DropEnv)

/-- **Scans end within their bound.** A scan whose body keeps an invariant,
only deletes tuples, and never runs out of fuel itself, never reaches the bound `caql_beginscan`
gives it: each iteration returns a different tuple of those live at the start,
so the live tuples plus one iterations are enough. -/
theorem caqlScan_within_bound {key : FormDataPgDepend → Bool} {body : HeapTuple → α → DropM α}
    (I : α → DropState → Prop) (hscan : ∀ acc s, I acc s → I acc { s with scans := s.scans + 1 })
    (hbody : ∀ acc s t, I acc s → t ∈ s.depRel → key t.form = true →
      raised (body t acc s) ≠ some .outOfFuel ∧
        ∀ acc' s', body t acc s = .ok acc' s' → I acc' s' ∧ List.Sublist s'.depRel s.depRel)
    (live : List HeapTuple) :
    ∀ n seen acc s, I acc s → seen.Nodup → seen ⊆ live → s.depRel ⊆ live →
      live.length < n + seen.length →
      raised (caqlScan env key body n seen acc s) ≠ some .outOfFuel := by
  intro n
  induction n with
  | zero =>
    intro seen _ _ _ hnd hsub _ hlen
    have := (hnd.subperm hsub).length_le
    omega
  | succ n ih =>
    intro seen acc s hI hnd hsub hlive hlen
    rw [caqlScan_succ]
    rcases caqlGetnext_cases env key seen s with ⟨hn, -⟩ | ⟨t, hn, ht, hk, hs⟩ <;>
      rw [raised_bind_ok hn]
    · nofun
    · obtain ⟨hb, hnext⟩ := hbody acc _ t (hscan acc s hI) ht hk
      refine raised_bind_ne hb fun acc' s' h => ?_
      obtain ⟨hI', hsl⟩ := hnext acc' s' h
      refine ih (t :: seen) acc' s' hI' (List.nodup_cons.mpr ⟨hs, hnd⟩)
        (List.cons_subset.mpr ⟨hlive ht, hsub⟩) (fun u hu => hlive (hsl.subset hu)) ?_
      simp only [List.length_cons]
      omega

theorem caqlBeginscan_within_bound {key : FormDataPgDepend → Bool}
    {body : HeapTuple → α → DropM α}
    (I : α → DropState → Prop) (hscan : ∀ acc s, I acc s → I acc { s with scans := s.scans + 1 })
    (hbody : ∀ acc s t, I acc s → t ∈ s.depRel → key t.form = true →
      raised (body t acc s) ≠ some .outOfFuel ∧
        ∀ acc' s', body t acc s = .ok acc' s' → I acc' s' ∧ List.Sublist s'.depRel s.depRel)
    (init : α) {s : DropState} (hI : I init s) :
    raised (caqlBeginscan env key body init s) ≠ some .outOfFuel :=
  caqlScan_within_bound env I hscan hbody s.depRel _ [] init s hI List.nodup_nil
    (List.nil_subset _) (List.Subset.refl _) (by simp)

end Bound

section Ends

variable (env : DropEnv) (behavior : DropBehavior) (msglevel : ElogLevel)
  (oktodelete : ObjectAddresses)

/-- Step 1 on one tuple raises only its own errors. -/
theorem sweepOutgoing_within_fuel (object : ObjectAddress) (callingObject : Option ObjectAddress)
    (t : HeapTuple) (owning : Option ObjectAddress) (s : DropState) :
    raised (sweepOutgoing object callingObject t owning s) ≠ some .outOfFuel := by
  rcases sweepOutgoing_cases object callingObject t owning s with
    ⟨-, h⟩ | ⟨-, -, -, h⟩ | ⟨e, he, h⟩ <;> rw [h]
  · nofun
  · nofun
  · exact fun h => he (Option.some.inj h)

/-- `doDeletion` raises only for the classes it cannot drop. -/
theorem doDeletion_within_fuel (object : ObjectAddress) (s : DropState) :
    raised (doDeletion env object s) ≠ some .outOfFuel := by
  unfold doDeletion
  rw [bind_of_ok (modify_apply _ _)]
  rcases getObjectClass env.objectClasses object with _ | c
  · nofun
  · cases c <;> nofun

/-- One entry of Step 2 raises only its own errors or those of the call on its
depender. -/
theorem dropDependent_within_fuel {recurse : ObjectAddress → Option ObjectAddress → DropM Bool}
    {object : ObjectAddress} {t : HeapTuple} {ok : Bool} {s : DropState}
    (hrec : ∀ s' : DropState, s'.depRel = s.depRel →
      raised (recurse t.form.depender (some object) s') ≠ some .outOfFuel) :
    raised (dropDependent env behavior msglevel oktodelete recurse object t ok s) ≠
      some .outOfFuel := by
  rcases dropDependent_cases env behavior msglevel oktodelete recurse object t ok s with
    ⟨-, e, he, h⟩ | ⟨-, fine, level, msg, -, -, h⟩ <;> rw [h]
  · exact fun h => he (Option.some.inj h)
  · exact raised_bind_ne (hrec _ rfl) fun _ _ _ => nofun

/-- Step 1 never runs out of fuel. -/
theorem sweep_within_fuel (object : ObjectAddress) (callingObject : Option ObjectAddress)
    (s : DropState) :
    raised (caqlBeginscan env (dependerKey object) (sweepOutgoing object callingObject) none s) ≠
      some .outOfFuel :=
  caqlBeginscan_within_bound env (fun _ _ => True) (fun _ _ _ => trivial)
    (fun acc s t _ _ _ => ⟨sweepOutgoing_within_fuel object callingObject t acc s,
      fun _ _ h => ⟨trivial,
        (Steps.of_ok (sweepOutgoing_evolves object callingObject t acc) h).depRel_sublist⟩⟩)
    none trivial

/-- Step 2 runs out of fuel only in a call on the depender of an entry to
`object` live when the call is made. -/
theorem deleteDependentObjects_within_fuel
    {recurse : ObjectAddress → Option ObjectAddress → DropM Bool}
    (hev : ∀ o c, Steps Evolves (recurse o c)) {object : ObjectAddress} {s : DropState}
    (hrec : ∀ s' : DropState, List.Sublist s'.depRel s.depRel → ∀ t ∈ s'.depRel,
      referencedKey object t.form = true →
      raised (recurse t.form.depender (some object) s') ≠ some .outOfFuel) :
    raised (deleteDependentObjects env behavior msglevel oktodelete recurse object s) ≠
      some .outOfFuel :=
  caqlBeginscan_within_bound env (fun _ s' => List.Sublist s'.depRel s.depRel) (fun _ _ h => h)
    (fun acc s' t (hs' : List.Sublist s'.depRel s.depRel) ht hk =>
      ⟨dropDependent_within_fuel env behavior msglevel oktodelete
        fun s'' h'' => hrec s'' (h''.symm ▸ hs') t (h''.symm ▸ ht) hk,
      fun _ _ h =>
        have hev' := Steps.of_ok (dropDependent_evolves env behavior msglevel oktodelete hev
          object t acc) h
        ⟨hev'.depRel_sublist.trans hs', hev'.depRel_sublist⟩⟩)
    true (List.Sublist.refl _)

/-- Steps 2 and 3 run out of fuel only in a call of Step 2. -/
theorem dropBranch_within_fuel {recurse : ObjectAddress → Option ObjectAddress → DropM Bool}
    (hev : ∀ o c, Steps Evolves (recurse o c)) {object : ObjectAddress} {s : DropState}
    (hrec : ∀ s' : DropState, List.Sublist s'.depRel s.depRel → ∀ t ∈ s'.depRel,
      referencedKey object t.form = true →
      raised (recurse t.form.depender (some object) s') ≠ some .outOfFuel) :
    raised ((deleteDependentObjects env behavior msglevel oktodelete recurse object >>=
      fun ok => doDeletion env object >>= fun _ => noteDeleted object >>= fun _ => pure ok) s) ≠
        some .outOfFuel :=
  raised_bind_ne (deleteDependentObjects_within_fuel env behavior msglevel oktodelete hev hrec)
    fun _ s₂ _ => raised_bind_ne (doDeletion_within_fuel env object s₂) fun _ _ _ => by
      rw [raised_bind_ok (noteDeleted_apply _ _)]; nofun

/-! ### The measure: what Step 1 leaves -/

/-- `KeptInternal` as a test: an INTERNAL entry to an owner the caller does not
cover. -/
def keepsInternal (callingObject : Option ObjectAddress) (d : FormDataPgDepend) : Bool :=
  match callingObject with
  | none => false
  | some c => d.deptype = 'i' && !decide (c.covers d.referenced)

theorem keepsInternal_iff {callingObject : Option ObjectAddress} {d : FormDataPgDepend} :
    keepsInternal callingObject d = true ↔ KeptInternal callingObject d := by
  cases callingObject <;> simp [keepsInternal, KeptInternal]

/-- The measure of a call of `recursiveDeletion` on `object` from
`callingObject`: the live entries its Step 1 may leave, those not from `object`
and the INTERNAL ones from it that it keeps. -/
def entriesLeft (object : ObjectAddress) (callingObject : Option ObjectAddress)
    (s : DropState) : List HeapTuple :=
  s.depRel.filter fun t =>
    !decide (object.covers t.form.depender) || keepsInternal callingObject t.form

theorem length_entriesLeft_le (object : ObjectAddress) (callingObject : Option ObjectAddress)
    (s : DropState) : (entriesLeft object callingObject s).length ≤ s.depRel.length :=
  List.length_filter_le _ _

/-- The live entries not from `object`: the measure where no entry is
INTERNAL. -/
def entriesNotFrom (object : ObjectAddress) (s : DropState) : List HeapTuple :=
  s.depRel.filter fun t => !decide (object.covers t.form.depender)

theorem entriesLeft_eq_entriesNotFrom {object : ObjectAddress}
    {callingObject : Option ObjectAddress} {s : DropState}
    (hni : ∀ t ∈ s.depRel, t.form.deptype ≠ 'i') :
    entriesLeft object callingObject s = entriesNotFrom object s :=
  List.filter_congr fun t ht => by cases callingObject <;> simp [keepsInternal, hni t ht]

/-- Once Step 1 has removed every entry from `object` but the INTERNAL ones it
keeps, the live entries are among those the measure counts. -/
theorem length_le_entriesLeft {object : ObjectAddress} {callingObject : Option ObjectAddress}
    {s s₁ : DropState} (hsub : List.Sublist s₁.depRel s.depRel)
    (hleft : ∀ t ∈ s₁.depRel, object.covers t.form.depender → KeptInternal callingObject t.form) :
    s₁.depRel.length ≤ (entriesLeft object callingObject s).length := by
  have hall : ∀ t ∈ s₁.depRel,
      (!decide (object.covers t.form.depender) || keepsInternal callingObject t.form) = true :=
    fun t ht => by
      by_cases hc : object.covers t.form.depender
      · simp [hc, keepsInternal_iff.mpr (hleft t ht hc)]
      · simp [hc]
  have h := (hsub.filter fun t =>
    !decide (object.covers t.form.depender) || keepsInternal callingObject t.form).length_le
  rwa [List.filter_eq_self.mpr hall] at h

/-- A call Step 2 makes on the depender of a live entry to `object` leaves
fewer entries than there are live ones: it severs that entry. -/
theorem entriesLeft_lt {object : ObjectAddress} {s : DropState} {t : HeapTuple}
    (ht : t ∈ s.depRel) (hk : object.covers t.form.referenced) :
    (entriesLeft t.form.depender (some object) s).length < s.depRel.length :=
  List.length_filter_lt_length_iff_exists.mpr ⟨t, ht, by simp [keepsInternal, hk]⟩

/-! ### Ranked ownership -/

/-- Ownership among the entries `rel` is ranked by `r`, at most `N`: the owner
of each INTERNAL entry ranks below every object covering its dependent, so the
INTERNAL entries form no cycle. -/
structure OwnerRanked (r : ObjectAddress → Nat) (N : Nat) (rel : List FormDataPgDepend) :
    Prop where
  bounded : ∀ x, r x ≤ N
  owner_lt : ∀ d ∈ rel, d.deptype = 'i' → ∀ x, x.covers d.depender → r d.referenced < r x

/-- A rank of whole objects, read off the class and object ids, ranks the
entries when the owner of each INTERNAL entry ranks below its dependent. -/
theorem OwnerRanked.of_objects {f : Oid → Oid → Nat} {N : Nat} {rel : List FormDataPgDepend}
    (hN : ∀ c o, f c o ≤ N)
    (hlt : ∀ d ∈ rel, d.deptype = 'i' → f d.refclassid d.refobjid < f d.classid d.objid) :
    OwnerRanked (fun x => f x.classId x.objectId) N rel :=
  ⟨fun _ => hN _ _, fun d hd hi x hx => by
    rw [hx.1, hx.2.1]
    exact hlt d hd hi⟩

/-- Where no entry is INTERNAL, the rank that is zero everywhere ranks them. -/
theorem OwnerRanked.of_no_internal {rel : List FormDataPgDepend}
    (hni : ∀ d ∈ rel, d.deptype ≠ 'i') : OwnerRanked (fun _ => 0) 0 rel :=
  ⟨fun _ => le_rfl, fun d hd hi => absurd hi (hni d hd)⟩

/-- A call Step 2 makes on the depender of a live entry to `object`, from at
most `L` live entries, has a measure below `N + 1` times `L`. -/
theorem OwnerRanked.dependent_lt {r : ObjectAddress → Nat} {N : Nat}
    {rel : List FormDataPgDepend} (hr : OwnerRanked r N rel) {object : ObjectAddress}
    {s : DropState} {t : HeapTuple} (ht : t ∈ s.depRel) (hk : referencedKey object t.form = true)
    {L : Nat} (hL : s.depRel.length ≤ L) :
    (N + 1) * (entriesLeft t.form.depender (some object) s).length + r t.form.depender <
      (N + 1) * L := by
  have hlt : (entriesLeft t.form.depender (some object) s).length + 1 ≤ L :=
    (entriesLeft_lt ht ((referencedKey_iff _ _).mp hk)).trans_le hL
  have hmul := Nat.mul_le_mul_left (N + 1) hlt
  have hbound := hr.bounded t.form.depender
  rw [Nat.mul_add_one] at hmul
  omega

/-- The fuel a call needs under ranked ownership: more than `N + 1` times the
entries its Step 1 may leave, plus the rank of its object. An owner jump leaves
no more entries and falls in rank; a call of Step 2 leaves fewer entries. -/
theorem recursiveDeletion_within_ranked_fuel {r : ObjectAddress → Nat} {N : Nat}
    {rel : List FormDataPgDepend} (hr : OwnerRanked r N rel) :
    ∀ fuel object callingObject (s : DropState), (∀ t ∈ s.depRel, t.form ∈ rel) →
      (N + 1) * (entriesLeft object callingObject s).length + r object < fuel →
      raised (recursiveDeletion env behavior msglevel oktodelete fuel object callingObject s) ≠
        some .outOfFuel := by
  intro fuel
  induction fuel with
  | zero => intro _ _ _ _ h; omega
  | succ fuel ih =>
    intro object callingObject s hrel hm
    rw [recursiveDeletion_succ]
    rcases getObjectDescription_cases env object s with hd | hd
    swap
    · rw [bind_of_error hd]; nofun
    rw [raised_bind_ok hd]
    refine raised_bind_ne (sweep_within_fuel env object callingObject s)
      fun owning s₁ hsweep => ?_
    have hev₁ : Evolves s s₁ := Steps.of_ok (sweep_evolves env object callingObject) hsweep
    obtain ⟨-, hkept, hown, -⟩ := sweep_ok env object callingObject hsweep
    have hrel₁ : ∀ t ∈ s₁.depRel, t.form ∈ rel := fun t ht => hrel t (hev₁.depRel_subset ht)
    have hlen := length_le_entriesLeft hev₁.depRel_sublist fun t ht hc => (hkept t ht hc).1
    rcases owning with _ | w
    · -- Steps 2 and 3: each call of Step 2 severs the entry it follows
      refine dropBranch_within_fuel env behavior msglevel oktodelete
        (recursiveDeletion_evolves env behavior msglevel oktodelete fuel)
        fun s' hs' t ht hk => ih _ _ s' (fun u hu => hrel₁ u (hs'.subset hu))
          ((hr.dependent_lt ht hk (hs'.length_le.trans hlen)).trans_le (by omega))
    · -- the owner: no more entries, and a lower rank
      obtain ⟨t, ht, hc, hki, rfl⟩ := hown _ rfl
      have hlt : r t.form.referenced < r object := hr.owner_lt t.form (hrel₁ t ht) hki.1 object hc
      obtain ⟨fine, level, msg, hrep, -⟩ :=
        reportCascade_cases env behavior msglevel oktodelete t.form.referenced object s₁
      dsimp only
      rw [raised_bind_ok hrep]
      refine raised_bind_ne (ih _ _ _ hrel₁ ?_) fun _ _ _ => nofun
      have hmul := Nat.mul_le_mul_left (N + 1)
        ((length_entriesLeft_le t.form.referenced (some object)
          { s₁ with messages := s₁.messages ++ [(level, msg)] }).trans hlen)
      omega

/-- `N + 1` times one more than the live entries is more than the measure of
any call. -/
theorem OwnerRanked.measure_lt {r : ObjectAddress → Nat} {N : Nat} {rel : List FormDataPgDepend}
    (hr : OwnerRanked r N rel) (object : ObjectAddress) (callingObject : Option ObjectAddress)
    {s : DropState} {fuel : Nat} (hfuel : (N + 1) * (s.depRel.length + 1) ≤ fuel) :
    (N + 1) * (entriesLeft object callingObject s).length + r object < fuel := by
  have hmul := Nat.mul_le_mul_left (N + 1) (length_entriesLeft_le object callingObject s)
  have hbound := hr.bounded object
  rw [Nat.mul_add_one] at hfuel
  omega

/-- The fuel a call needs without INTERNAL entries: more than the live entries
not from its object. -/
theorem recursiveDeletion_within_fuel (fuel : Nat) (object : ObjectAddress)
    (callingObject : Option ObjectAddress) (s : DropState)
    (hni : ∀ t ∈ s.depRel, t.form.deptype ≠ 'i') (hm : (entriesNotFrom object s).length < fuel) :
    raised (recursiveDeletion env behavior msglevel oktodelete fuel object callingObject s) ≠
      some .outOfFuel := by
  have hr : OwnerRanked (fun _ => 0) 0 (s.depRel.map HeapTuple.form) :=
    OwnerRanked.of_no_internal (by simpa using hni)
  refine recursiveDeletion_within_ranked_fuel env behavior msglevel oktodelete hr fuel object
    callingObject s (fun _ => List.mem_map_of_mem _) ?_
  rwa [entriesLeft_eq_entriesNotFrom hni, Nat.one_mul, Nat.add_zero]

/-- **Without INTERNAL entries, `recursiveDeletion` ends.** From any state with
no live INTERNAL entry, a call given more fuel than there are live entries never
runs out of it, whatever the object, behavior, scan order and cycles of the
catalog. -/
theorem recursiveDeletion_ends_without_internal (fuel : Nat) (object : ObjectAddress)
    (callingObject : Option ObjectAddress) (s : DropState)
    (hni : ∀ t ∈ s.depRel, t.form.deptype ≠ 'i') (hfuel : s.depRel.length < fuel) :
    raised (recursiveDeletion env behavior msglevel oktodelete fuel object callingObject s) ≠
      some .outOfFuel :=
  recursiveDeletion_within_fuel env behavior msglevel oktodelete fuel object callingObject s hni
    ((List.length_filter_le _ _).trans_lt hfuel)

/-- Relation `71` depends on relation `70`, and `70` on `71` through an AUTO
entry: a cycle without INTERNAL entries. -/
def autoBackCatalog : List FormDataPgDepend :=
  [.ofAddresses (relationAddress 71) (relationAddress 70) 'n',
    .ofAddresses (relationAddress 70) (relationAddress 71) 'a']

theorem recursiveDeletion_ends_on_auto_cycle :
    (∀ t ∈ (DropState.init autoBackCatalog).depRel, t.form.deptype ≠ 'i') ∧
      (DropState.init autoBackCatalog).depRel.length < 3 ∧
      raised (recursiveDeletion (exampleEnv fun _ => 0) .dropCascade .notice newObjectAddresses 3
        (relationAddress 70) none (DropState.init autoBackCatalog)) ≠ some .outOfFuel :=
  have hni : ∀ t ∈ (DropState.init autoBackCatalog).depRel, t.form.deptype ≠ 'i' := by decide
  have hlen : (DropState.init autoBackCatalog).depRel.length < 3 := by decide
  ⟨hni, hlen, recursiveDeletion_ends_without_internal _ _ _ _ 3 _ _ _ hni hlen⟩

/-- **Under ranked ownership, `recursiveDeletion` ends.** When the owner of
every live INTERNAL entry ranks below each object covering its dependent, with
ranks at most `N`, a call given `N + 1` times one more than the live entries of
fuel never runs out of it, whatever the object, calling object, behavior, scan
order and cycles of NORMAL and AUTO entries. -/
theorem recursiveDeletion_ends_under_owner_rank (fuel : Nat) (object : ObjectAddress)
    (callingObject : Option ObjectAddress) (s : DropState) (r : ObjectAddress → Nat) (N : Nat)
    (hr : OwnerRanked r N (s.depRel.map HeapTuple.form))
    (hfuel : (N + 1) * (s.depRel.length + 1) ≤ fuel) :
    raised (recursiveDeletion env behavior msglevel oktodelete fuel object callingObject s) ≠
      some .outOfFuel :=
  recursiveDeletion_within_ranked_fuel env behavior msglevel oktodelete hr fuel object
    callingObject s (fun _ => List.mem_map_of_mem _) (hr.measure_lt object callingObject hfuel)

/-- Relation `91` depends on relation `90` and is owned by `92`, itself owned
by `93`: a deletion of `90` reaches `91`, which hands it to `92`, which hands it
to `93`. -/
def ownerChainCatalog : List FormDataPgDepend :=
  [.ofAddresses (relationAddress 91) (relationAddress 90) 'n',
    .ofAddresses (relationAddress 91) (relationAddress 92) 'i',
    .ofAddresses (relationAddress 92) (relationAddress 93) 'i']

theorem recursiveDeletion_ends_under_owner_rank_chain :
    OwnerRanked (fun x => min (93 - x.objectId) 2) 2
        ((DropState.init ownerChainCatalog).depRel.map HeapTuple.form) ∧
      (2 + 1) * ((DropState.init ownerChainCatalog).depRel.length + 1) ≤ 12 ∧
      raised (recursiveDeletion (exampleEnv fun _ => 0) .dropCascade .notice newObjectAddresses 12
        (relationAddress 90) none (DropState.init ownerChainCatalog)) ≠ some .outOfFuel :=
  have hr : OwnerRanked (fun x => min (93 - x.objectId) 2) 2
      ((DropState.init ownerChainCatalog).depRel.map HeapTuple.form) :=
    OwnerRanked.of_objects (f := fun _ o => min (93 - o) 2) (fun _ _ => Nat.min_le_right _ _)
      (by decide)
  have hfuel : (2 + 1) * ((DropState.init ownerChainCatalog).depRel.length + 1) ≤ 12 := by decide
  ⟨hr, hfuel, recursiveDeletion_ends_under_owner_rank _ _ _ _ 12 _ _ _ _ 2 hr hfuel⟩

end Ends

end CatalogDependency
