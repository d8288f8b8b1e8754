import Mathlib.Data.List.Sigma
import CatalogDependency.Reentry
import CatalogDependency.Reports

/-!
What a deletion run that returns has destroyed: everything it had to.

An address is destroyed when an object passed to `doDeletion` covers it. A call
of `recursiveDeletion` that returns has destroyed its object and the depender
of every entry it removed (`recursiveDeletion_completes`), provided the
INTERNAL entries of the catalog are from whole objects: an owned object hands
its deletion to the owner, whose Step 2 then comes back to the object itself
through the kept INTERNAL entry. When that entry is from a part of the object,
only the part comes back, and the whole object is lost
(`performDeletion_loses_whole_owned_through_column`).

With `Sound`, a `performDeletion` that returns has destroyed exactly the
deletion closure of its target, up to coverage, and left exactly the entries
with neither end destroyed (`performDeletion_destroys_closure`), so the outcome
does not depend on the order of the scans (`performDeletion_outcome_independent`)
even where the messages do. `deleteWhatDependsOn` destroys exactly the closure
of the target's dependents when that closure keeps away from the target
(`deleteWhatDependsOn_destroys_dependents`).
-/

namespace CatalogDependency

/-! ## Destroyed addresses -/

/-- `x` is covered by a member of `P`. -/
def CoveredBy (P : ObjectAddress → Prop) (x : ObjectAddress) : Prop :=
  ∃ y, P y ∧ y.covers x

/-- `x` is destroyed in `s`: an object passed to `doDeletion` covers it. -/
def Destroyed (s : DropState) (x : ObjectAddress) : Prop :=
  ∃ y ∈ s.deleted, y.covers x

theorem Destroyed.of_covers {s : DropState} {x z : ObjectAddress} (h : Destroyed s x)
    (hc : x.covers z) : Destroyed s z :=
  let ⟨y, hy, hyx⟩ := h
  ⟨y, hy, ObjectAddress.covers_trans hyx hc⟩

theorem Destroyed.mono {s s' : DropState} {x : ObjectAddress} (h : Destroyed s x)
    (hpre : s.deleted <+: s'.deleted) : Destroyed s' x :=
  let ⟨y, hy, hyx⟩ := h
  ⟨y, hpre.subset hy, hyx⟩

/-- No live entry is from or to an object passed to `doDeletion`. -/
def Swept (s : DropState) : Prop :=
  ∀ x ∈ s.deleted, ∀ t ∈ s.depRel, ¬ x.covers t.form.depender ∧ ¬ x.covers t.form.referenced

/-- `Swept` holds along every run, whatever the objects involved. -/
theorem Swept.deletionInvariant (oktodelete : ObjectAddresses) :
    DeletionInvariant (fun _ => True) oktodelete Swept where
  closed _ _ := ⟨fun _ _ _ _ _ _ => trivial, fun _ _ _ _ _ _ => trivial⟩
  congr _ _ h1 h2 _ h := by unfold Swept; rw [h1, h2]; exact h
  report _ _ _ _ h := h
  sever _ _ _ _ _ _ h x hx u hu := h x hx u (List.mem_filter.mp hu).1
  destroy _ object _ hclean h x hx := by
    rcases List.mem_append.mp hx with hx | hx
    · exact h x hx
    · rw [List.mem_singleton.mp hx]; exact hclean

/-- An entry that a swept state still holds has neither end destroyed. -/
theorem Swept.not_destroyed {s : DropState} (hs : Swept s) {t : HeapTuple} (ht : t ∈ s.depRel) :
    ¬ Destroyed s t.form.depender ∧ ¬ Destroyed s t.form.referenced :=
  ⟨fun ⟨y, hy, hc⟩ => (hs y hy t ht).1 hc, fun ⟨y, hy, hc⟩ => (hs y hy t ht).2 hc⟩

/-- Every entry of `s` gone in `s'` is from an object destroyed in `s'`, and an
INTERNAL one is to an object destroyed in `s'` or covered by `owner`. -/
def Accounted (owner : Option ObjectAddress) (s s' : DropState) : Prop :=
  ∀ t ∈ s.depRel, t ∉ s'.depRel → Destroyed s' t.form.depender ∧
    (t.form.deptype = 'i' → Destroyed s' t.form.referenced ∨
      ∃ c, owner = some c ∧ c.covers t.form.referenced)

namespace Accounted

variable {o : Option ObjectAddress}

theorem of_subset {s s' : DropState} (h : s.depRel ⊆ s'.depRel) : Accounted o s s' :=
  fun _ ht hn => absurd (h ht) hn

theorem trans {s₁ s₂ s₃ : DropState} (h₁ : Accounted o s₁ s₂) (h₂ : Accounted o s₂ s₃)
    (hev : Evolves s₂ s₃) : Accounted o s₁ s₃ := by
  intro t ht hn
  by_cases h : t ∈ s₂.depRel
  · exact h₂ t h hn
  · obtain ⟨hd, hi⟩ := h₁ t ht h
    exact ⟨hd.mono hev.deleted_prefix, fun hti => (hi hti).imp_left (·.mono hev.deleted_prefix)⟩

/-- Step 1 of a call on `object` from `callingObject`, then the rest of the
call, which destroys `object` and accounts for its own removals with `object`
as the owner: the whole call accounts for its removals with the caller as the
owner. -/
theorem of_sweep {callingObject : Option ObjectAddress} {object : ObjectAddress}
    {s s₁ s' : DropState}
    (hrem : ∀ t ∈ s.depRel, t ∉ s₁.depRel →
      object.covers t.form.depender ∧ Severable callingObject t.form)
    (hobj : Destroyed s' object) (hrest : Accounted (some object) s₁ s') :
    Accounted callingObject s s' := by
  intro t ht hn
  by_cases h₁ : t ∈ s₁.depRel
  · obtain ⟨hd, hi⟩ := hrest t h₁ hn
    refine ⟨hd, fun hti => .inl ?_⟩
    rcases hi hti with h | ⟨c, hc, hcov⟩
    · exact h
    · cases hc; exact hobj.of_covers hcov
  · obtain ⟨hc, hsev⟩ := hrem t ht h₁
    refine ⟨hobj.of_covers hc, fun hti => .inr ?_⟩
    rcases hsev with h | h | ⟨-, hcall⟩
    · rw [hti] at h; exact absurd h (by decide)
    · rw [hti] at h; exact absurd h (by decide)
    · exact hcall

end Accounted

/-- A state with no entry removed and no object destroyed yet accounts for
whatever a run from it removes exactly when the run from its catalog does. -/
theorem Accounted.congr_left {o : Option ObjectAddress} {s₀ s s' : DropState}
    (hrel : s.depRel = s₀.depRel) (h : Accounted o s s') : Accounted o s₀ s' := by
  unfold Accounted at h ⊢
  rw [← hrel]
  exact h

/-! ## Calls of `recursiveDeletion` -/

/-- Step 3 that returns passes the answer of Step 2 on, appends `object` to
the log and leaves the entries as they were. -/
theorem deleteObject_ok (env : DropEnv) {object : ObjectAddress} {ok b : Bool} {s s' : DropState}
    (h : (doDeletion env object >>= fun _ => noteDeleted object >>= fun _ => pure ok) s =
      .ok b s') :
    b = ok ∧ Evolves s s' ∧ s'.depRel = s.depRel ∧ s'.deleted = s.deleted ++ [object] := by
  obtain ⟨_, s₁, hdo, h⟩ := bind_eq_ok.mp h
  obtain ⟨_, s₂, hn, h⟩ := bind_eq_ok.mp h
  obtain ⟨rfl, rfl⟩ := EStateM.Result.ok.inj h
  have hev : Evolves s s₂ := Evolves.runRel.trans
    (Steps.of_ok (doDeletion_evolves env object) hdo) (Steps.of_ok (noteDeleted_evolves object) hn)
  rw [noteDeleted_apply] at hn
  cases hn
  rcases doDeletion_cases env object s with e | e <;> rw [hdo, finalState_ok] at e <;> subst e <;>
    exact ⟨rfl, hev, rfl, rfl⟩

section Calls

variable (env : DropEnv) (behavior : DropBehavior) (msglevel : ElogLevel)
  (oktodelete : ObjectAddresses) (heap : List HeapTuple)

/-- Every call of `recursiveDeletion` at `fuel` that returns, started on live
entries from `heap` in a swept state, destroys its object and accounts for the
entries it removed, with its calling object as the owner. -/
def CompletesAt (fuel : Nat) : Prop :=
  ∀ object callingObject {s s' : DropState} {b : Bool},
    recursiveDeletion env behavior msglevel oktodelete fuel object callingObject s = .ok b s' →
      s.depRel ⊆ heap → Swept s → Destroyed s' object ∧ Accounted callingObject s s'

variable {env behavior msglevel oktodelete heap}

/-- **Step 2.** When the scan of the entries to `object` returns, every entry
removed meanwhile is accounted for, with `object` as the owner: each was
removed by a call on a depender, called from `object`. -/
theorem deleteDependentObjects_accounted {fuel : Nat}
    (hrec : CompletesAt env behavior msglevel oktodelete heap fuel) {object : ObjectAddress}
    {s s' : DropState} {b : Bool} (hheap : s.depRel ⊆ heap) (hs : Swept s)
    (h : deleteDependentObjects env behavior msglevel oktodelete
      (recursiveDeletion env behavior msglevel oktodelete fuel) object s = .ok b s') :
    Accounted (some object) s s' := by
  have hJ := Swept.deletionInvariant oktodelete
  have hkeeps : ∀ o c, Steps (Keeps Swept) (recursiveDeletion env behavior msglevel oktodelete
      fuel o c) := fun o c => recursiveDeletion_keeps env behavior msglevel oktodelete hJ fuel o
    trivial c
  obtain ⟨-, ⟨-, -, hacc⟩, -⟩ := caqlBeginscan_ok env
    (fun _ _ s₁ => Evolves s s₁ ∧ Swept s₁ ∧ Accounted (some object) s s₁)
    (fun _ _ _ h => ⟨Evolves.runRel.trans h.1 (Evolves.runRel.scan _), h.2.1, h.2.2⟩)
    (fun _ acc s₁ t _ s₂ ⟨hev, hs₁, hacc⟩ ht hk _ hb => by
      have hev₂ := Steps.of_ok (dropDependent_evolves env behavior msglevel oktodelete
        (recursiveDeletion_evolves env behavior msglevel oktodelete fuel) object t acc) hb
      have hs₂ : Swept s₂ := by
        have := dropDependent_keeps env behavior msglevel oktodelete hJ
          (fun o _ c => hkeeps o c) (fun _ _ _ _ _ _ => trivial) ht hk acc hs₁
        rwa [hb] at this
      rcases dropDependent_cases env behavior msglevel oktodelete _ object t acc s₁ with
        ⟨-, e, -, h'⟩ | ⟨-, fine, level, msg, -, -, h'⟩ <;> rw [h'] at hb
      · cases hb
      obtain ⟨r, s₃, hr, hp⟩ := bind_eq_ok.mp hb
      cases hp
      have hacc₂ := (hrec _ _ hr (fun _ hx => hheap (hev.depRel_subset hx)) hs₁).2
      exact ⟨Evolves.runRel.trans hev hev₂, hs₂, hacc.trans hacc₂ hev₂⟩)
    ⟨Evolves.runRel.refl s, hs, Accounted.of_subset (List.Subset.refl _)⟩ h
  exact hacc

variable (hwhole : ∀ t ∈ heap, t.form.deptype = 'i' → t.form.depender.objectSubId = 0)
include hwhole

/-- **Calls that return.** When the INTERNAL entries of `heap` are from whole
objects, every call of `recursiveDeletion` that returns has destroyed its
object and accounts for every entry it removed. An owned object comes back
from its owner: the owner is destroyed, so the kept INTERNAL entry to it is
gone, and the call that removed it destroyed its depender, the object itself. -/
theorem recursiveDeletion_completes :
    ∀ fuel, CompletesAt env behavior msglevel oktodelete heap fuel := by
  have hJ := Swept.deletionInvariant oktodelete
  intro fuel
  induction fuel with
  | zero => intro _ _ _ _ _ h; cases h
  | succ fuel ih =>
    intro object callingObject s s' b h hheap hs
    obtain ⟨owning, s₁, hsw, hb⟩ := recursiveDeletion_ok_cases env behavior msglevel oktodelete h
    obtain ⟨hsub, -, hown, hrem⟩ := sweep_ok env object callingObject hsw
    have hheap₁ : s₁.depRel ⊆ heap := fun _ hx => hheap (hsub hx)
    have hs₁ : Swept s₁ := Steps.of_ok (Steps.caqlBeginscan env hJ.runRel
      (fun _ acc _ _ _ hk _ => sweepOutgoing_keeps oktodelete hJ trivial callingObject hk acc)
      _) hsw hs
    rcases hb with ⟨-, hb⟩ | ⟨w, rfl, hb⟩
    · -- Steps 2 and 3: Step 3 destroys `object`
      obtain ⟨ok, s₂, hdd, hb⟩ := bind_eq_ok.mp hb
      obtain ⟨-, hev, hrel, hdel⟩ := deleteObject_ok env hb
      have hobj : Destroyed s' object :=
        ⟨object, hdel ▸ List.mem_append_right _ (List.mem_singleton_self _),
          ObjectAddress.covers_refl _⟩
      exact ⟨hobj, Accounted.of_sweep hrem hobj ((deleteDependentObjects_accounted ih hheap₁ hs₁
        hdd).trans (Accounted.of_subset (hrel ▸ List.Subset.refl _)) hev)⟩
    · -- the owner branch: the kept INTERNAL entry brings the owner back to `object`
      obtain ⟨fine, level, msg, hrc, -⟩ :=
        reportCascade_cases env behavior msglevel oktodelete w object s₁
      obtain ⟨r, s₂, hr, hp⟩ := bind_eq_ok.mp (bind_of_ok hrc ▸ hb)
      cases hp
      obtain ⟨hw, hacc⟩ := ih w (some object) hr hheap₁ hs₁
      have hs' : Swept s' := Steps.of_ok (recursiveDeletion_keeps env behavior msglevel
        oktodelete hJ fuel w trivial (some object)) hr hs₁
      obtain ⟨k, hk, hkc, ⟨hki, -⟩, rfl⟩ := hown _ rfl
      have hgone : k ∉ s'.depRel := fun hl => (hs'.not_destroyed hl).2 hw
      have hself : object = k.form.depender :=
        (ObjectAddress.covers_whole (hwhole k (hheap₁ hk) hki)).mp hkc
      have hobj : Destroyed s' object := hself ▸ (hacc k hk hgone).1
      exact ⟨hobj, Accounted.of_sweep hrem hobj hacc⟩

end Calls

/-! ## Runs from a catalog -/

/-- Every entry of the catalog is the form of a starting tuple. -/
theorem DropState.tuple_of_mem {rel : List FormDataPgDepend} {d : FormDataPgDepend}
    (hd : d ∈ rel) : ∃ t ∈ (DropState.init rel).depRel, t.form = d :=
  List.mem_map.mp ((DropState.init_depRel_form rel).symm ▸ hd)

/-- The starting tuples are numbered apart. -/
theorem DropState.init_depRel_nodup (rel : List FormDataPgDepend) :
    (DropState.init rel).depRel.Nodup := by
  apply List.Nodup.of_map HeapTuple.tid
  show ((rel.enum.map fun p => (⟨p.1, p.2⟩ : HeapTuple)).map HeapTuple.tid).Nodup
  rw [List.map_map]
  exact List.nodup_enum_map_fst rel

/-- A swept state whose removals are accounted for holds exactly the entries,
of those it started with, that have neither end destroyed. -/
theorem Swept.mem_depRel_iff {o : Option ObjectAddress} {s₀ s : DropState} (hs : Swept s)
    (hacc : Accounted o s₀ s) {t : HeapTuple} (ht : t ∈ s₀.depRel) :
    t ∈ s.depRel ↔ ¬ Destroyed s t.form.depender ∧ ¬ Destroyed s t.form.referenced :=
  ⟨hs.not_destroyed, fun ⟨hd, _⟩ => Decidable.byContradiction fun hn => hd (hacc t ht hn).1⟩

/-- At the end of a swept run from the catalog `rel` that accounts for every
entry it removed with no owner left over, the destroyed addresses are closed
under both rules of the deletion closure: an entry into a destroyed object was
removed, so its depender is destroyed, and so is the owner named by an
INTERNAL entry from a destroyed object. -/
theorem closedUnder_destroyed {rel : List FormDataPgDepend} {s : DropState} (hs : Swept s)
    (hacc : Accounted none (DropState.init rel) s) : ClosedUnder rel (Destroyed s) where
  dependent d hd _ _ hm hc := by
    obtain ⟨t, ht, rfl⟩ := DropState.tuple_of_mem hd
    exact (hacc t ht fun hl => (hs.not_destroyed hl).2 (hm.of_covers hc)).1
  owner d hd hi _ hm hc := by
    obtain ⟨t, ht, rfl⟩ := DropState.tuple_of_mem hd
    rcases (hacc t ht fun hl => (hs.not_destroyed hl).1 (hm.of_covers hc)).2 hi with h | ⟨_, h, -⟩
    · exact h
    · cases h

/-- Two swept runs from the catalog `rel` that account for every entry they
removed and destroyed the same addresses left the same tuples: both keep, in
the catalog's order, the starting tuples with neither end destroyed. -/
theorem depRel_eq_of_destroyed_iff {rel : List FormDataPgDepend} {s₁ s₂ : DropState}
    (hev₁ : Evolves (DropState.init rel) s₁) (hev₂ : Evolves (DropState.init rel) s₂)
    (hs₁ : Swept s₁) (hs₂ : Swept s₂) (hacc₁ : Accounted none (DropState.init rel) s₁)
    (hacc₂ : Accounted none (DropState.init rel) s₂)
    (hsame : ∀ x, Destroyed s₁ x ↔ Destroyed s₂ x) :
    s₁.depRel = s₂.depRel := by
  have hlive : ∀ t ∈ (DropState.init rel).depRel, t ∈ s₁.depRel ↔ t ∈ s₂.depRel := fun t ht => by
    rw [hs₁.mem_depRel_iff hacc₁ ht, hs₂.mem_depRel_iff hacc₂ ht, hsame, hsame]
  have hnodup := DropState.init_depRel_nodup rel
  have hsub₁ := hev₁.depRel_sublist
  have hsub₂ := hev₂.depRel_sublist
  refine (hnodup.perm_iff_eq_of_sublist hsub₁ hsub₂).mp
    ((List.perm_ext_iff_of_nodup (hnodup.sublist hsub₁) (hnodup.sublist hsub₂)).mpr fun t => ?_)
  exact ⟨fun h => (hlive t (hsub₁.subset h)).mp h, fun h => (hlive t (hsub₂.subset h)).mpr h⟩

section Entry

variable (env : DropEnv) (fuel : Nat)

theorem getObjectDescription_ok {object : ObjectAddress} {s s' : DropState}
    (h : getObjectDescription env object s = .ok () s') : s' = s := by
  rcases getObjectDescription_cases env object s with e | e <;> rw [e] at h
  · cases h; rfl
  · cases h

/-- What `performDeletion` and `deleteWhatDependsOn` do before deleting: the
class lookup, the pre-scan and the reset of `alreadyDeleted` leave the catalog
and the deletion log as they were. -/
theorem entryPrelude_ok {object : ObjectAddress} {k : ObjectAddresses → DropM Unit}
    {s s' : DropState}
    (h : (getObjectDescription env object >>= fun _ =>
      findAutoDeletableObjects env fuel object newObjectAddresses true >>= fun okt =>
        modify (DropState.updateAlreadyDeleted fun _ => none) >>= fun _ => k okt) s = .ok () s') :
    ∃ okt s₁, (∃ s₀, findAutoDeletableObjects env fuel object newObjectAddresses true s =
        .ok okt s₀) ∧ s₁.depRel = s.depRel ∧ s₁.deleted = s.deleted ∧ k okt s₁ = .ok () s' := by
  obtain ⟨_, s₁, hd, h⟩ := bind_eq_ok.mp h
  obtain ⟨okt, s₂, hf, h⟩ := bind_eq_ok.mp h
  obtain ⟨_, s₃, hm, h⟩ := bind_eq_ok.mp h
  cases getObjectDescription_ok env hd
  obtain ⟨hrel, hdel, -⟩ := Steps.of_ok (findAutoDeletableObjects_frame env fuel object _ true) hf
  rw [modify_apply] at hm
  cases hm
  exact ⟨okt, DropState.updateAlreadyDeleted (fun _ => none) s₂, ⟨s₂, hf⟩, hrel, hdel, h⟩

/-- A `performDeletion` that returns ran `recursiveDeletion` on its target, with
no calling object and the list of its pre-scan, from the catalog and the
deletion log it started with. -/
theorem performDeletion_ok_from {object : ObjectAddress} {behavior : DropBehavior}
    {s s' : DropState} (h : performDeletion env fuel object behavior s = .ok () s') :
    ∃ okt s₁, (∃ s₀, findAutoDeletableObjects env fuel object newObjectAddresses true s =
        .ok okt s₀) ∧ s₁.depRel = s.depRel ∧ s₁.deleted = s.deleted ∧
      recursiveDeletion env behavior .notice okt fuel object none s₁ = .ok true s' := by
  obtain ⟨okt, s₁, hf, hrel, hdel, h⟩ := entryPrelude_ok env fuel h
  obtain ⟨ok, s₂, hr, h⟩ := bind_eq_ok.mp h
  cases ok
  · cases h
  · cases h; exact ⟨okt, s₁, hf, hrel, hdel, hr⟩

/-- A `deleteWhatDependsOn` that returns ran Step 2 on its target, and it
returned `true`, from the catalog and the deletion log it started with. -/
theorem deleteWhatDependsOn_ok_from {object : ObjectAddress} {showNotices : Bool}
    {s s' : DropState} (h : deleteWhatDependsOn env fuel object showNotices s = .ok () s') :
    ∃ msglevel okt s₁, s₁.depRel = s.depRel ∧ s₁.deleted = s.deleted ∧
      deleteDependentObjects env .dropCascade msglevel okt
        (recursiveDeletion env .dropCascade msglevel okt fuel) object s₁ = .ok true s' := by
  obtain ⟨okt, s₁, -, hrel, hdel, h⟩ := entryPrelude_ok env fuel h
  obtain ⟨ok, s₂, hr, h⟩ := bind_eq_ok.mp h
  cases ok
  · cases h
  · cases h; exact ⟨_, okt, s₁, hrel, hdel, hr⟩

variable {rel : List FormDataPgDepend}
  (hwhole : ∀ d ∈ rel, d.deptype = 'i' → d.depender.objectSubId = 0)
include hwhole

theorem wholeOwners_init :
    ∀ t ∈ (DropState.init rel).depRel, t.form.deptype = 'i' → t.form.depender.objectSubId = 0 :=
  fun t ht => hwhole t.form (DropState.init_depRel_form rel ▸ List.mem_map_of_mem _ ht)

omit hwhole in
/-- A run from the catalog itself starts swept. -/
theorem Swept.of_deleted_nil {s : DropState} (h : s.deleted = []) : Swept s :=
  fun x hx => by rw [h] at hx; cases hx

/-- What a returning `performDeletion` leaves: it is swept, it destroyed its
target, and every entry it removed is from a destroyed object, an INTERNAL one
to a destroyed object. -/
theorem performDeletion_completes {target : ObjectAddress} {behavior : DropBehavior}
    {s : DropState} (h : performDeletion env fuel target behavior (DropState.init rel) = .ok () s) :
    Swept s ∧ Destroyed s target ∧ Accounted none (DropState.init rel) s := by
  obtain ⟨okt, s₁, -, hrel, hdel, hr⟩ := performDeletion_ok_from env fuel h
  obtain ⟨ht, hacc⟩ := recursiveDeletion_completes (wholeOwners_init hwhole) fuel target none hr
    (hrel ▸ List.Subset.refl _) (Swept.of_deleted_nil hdel)
  have hsound := performDeletion_sound env fuel rel target behavior
  rw [h, finalState_ok] at hsound
  exact ⟨hsound.swept, ht, hacc.congr_left hrel⟩

/-- The addresses a returning `performDeletion` destroyed are those covered by
the deletion closure of its target. -/
theorem performDeletion_destroyed_iff {target : ObjectAddress} {behavior : DropBehavior}
    {s : DropState} (h : performDeletion env fuel target behavior (DropState.init rel) = .ok () s)
    (x : ObjectAddress) : Destroyed s x ↔ CoveredBy (DeletionClosure rel target) x := by
  obtain ⟨hs, htarget, hacc⟩ := performDeletion_completes env fuel hwhole h
  have hsound := performDeletion_sound env fuel rel target behavior
  rw [h, finalState_ok] at hsound
  exact ⟨fun ⟨y, hy, hc⟩ => ⟨y, hsound.deleted y hy, hc⟩,
    fun ⟨y, hy, hc⟩ =>
      (DeletionClosure.minimal (closedUnder_destroyed hs hacc) htarget hy).of_covers hc⟩

end Entry

/-- **A returning `performDeletion` destroys the deletion closure.** When the
INTERNAL entries of the catalog are from whole objects, a `performDeletion`
that returns, under either behavior, any scan order and any fuel, has destroyed
exactly the addresses covered by the deletion closure of its target, and left
exactly the entries with neither end so covered. -/
theorem performDeletion_destroys_closure (env : DropEnv) (fuel : Nat) (rel : List FormDataPgDepend)
    (hwhole : ∀ d ∈ rel, d.deptype = 'i' → d.depender.objectSubId = 0)
    (target : ObjectAddress) (behavior : DropBehavior) {s : DropState}
    (h : performDeletion env fuel target behavior (DropState.init rel) = .ok () s) :
    (∀ x, Destroyed s x ↔ CoveredBy (DeletionClosure rel target) x) ∧
      ∀ t ∈ (DropState.init rel).depRel, t ∈ s.depRel ↔
        ¬ CoveredBy (DeletionClosure rel target) t.form.depender ∧
          ¬ CoveredBy (DeletionClosure rel target) t.form.referenced := by
  have hiff := performDeletion_destroyed_iff env fuel hwhole h
  obtain ⟨hs, -, hacc⟩ := performDeletion_completes env fuel hwhole h
  exact ⟨hiff, fun t ht => by rw [← hiff, ← hiff]; exact hs.mem_depRel_iff hacc ht⟩

/-- Relation `20` is INTERNAL to the target `10` (a TOAST table, say), relation
`21` depends on `20`, and `13` is AUTO on `10`. -/
def ownedTableCatalog : List FormDataPgDepend :=
  [.ofAddresses (relationAddress 20) (relationAddress 10) 'i',
    .ofAddresses (relationAddress 21) (relationAddress 20) 'n',
    .ofAddresses (relationAddress 13) (relationAddress 10) 'a']

theorem performDeletion_destroys_closure_owned :
    (∀ d ∈ ownedTableCatalog, d.deptype = 'i' → d.depender.objectSubId = 0) ∧
      ∃ s, performDeletion (exampleEnv fun _ => 0) 4 (relationAddress 10) .dropCascade
          (DropState.init ownedTableCatalog) = .ok () s ∧
        (∀ x, Destroyed s x ↔ CoveredBy (DeletionClosure ownedTableCatalog (relationAddress 10)) x) ∧
        ∀ t ∈ (DropState.init ownedTableCatalog).depRel, t ∈ s.depRel ↔
          ¬ CoveredBy (DeletionClosure ownedTableCatalog (relationAddress 10)) t.form.depender ∧
            ¬ CoveredBy (DeletionClosure ownedTableCatalog (relationAddress 10)) t.form.referenced :=
  ⟨by decide, _, rfl,
    performDeletion_destroys_closure (exampleEnv fun _ => 0) 4 _ (by decide) _ .dropCascade rfl⟩

/-- **The outcome of `performDeletion` does not depend on the scan order.** When
the INTERNAL entries of the catalog are from whole objects, any two runs of
`performDeletion` on one target that return, whatever their scan orders,
behaviors and fuel, leave the same `pg_depend` tuples and have destroyed the
same addresses, though they may report different messages and pass objects to
`doDeletion` in different orders. -/
theorem performDeletion_outcome_independent (rel : List FormDataPgDepend)
    (hwhole : ∀ d ∈ rel, d.deptype = 'i' → d.depender.objectSubId = 0) (target : ObjectAddress)
    (env₁ env₂ : DropEnv) (fuel₁ fuel₂ : Nat) (behavior₁ behavior₂ : DropBehavior)
    {s₁ s₂ : DropState}
    (h₁ : performDeletion env₁ fuel₁ target behavior₁ (DropState.init rel) = .ok () s₁)
    (h₂ : performDeletion env₂ fuel₂ target behavior₂ (DropState.init rel) = .ok () s₂) :
    s₁.depRel = s₂.depRel ∧ ∀ x, Destroyed s₁ x ↔ Destroyed s₂ x := by
  have hsame : ∀ x, Destroyed s₁ x ↔ Destroyed s₂ x := fun x =>
    (performDeletion_destroyed_iff env₁ fuel₁ hwhole h₁ x).trans
      (performDeletion_destroyed_iff env₂ fuel₂ hwhole h₂ x).symm
  obtain ⟨hs₁, -, hacc₁⟩ := performDeletion_completes env₁ fuel₁ hwhole h₁
  obtain ⟨hs₂, -, hacc₂⟩ := performDeletion_completes env₂ fuel₂ hwhole h₂
  have hev₁ := Steps.of_ok (performDeletion_steps env₁ fuel₁ Evolves.entryRel fun okt =>
    recursiveDeletion_evolves env₁ behavior₁ .notice okt fuel₁ target none) h₁
  have hev₂ := Steps.of_ok (performDeletion_steps env₂ fuel₂ Evolves.entryRel fun okt =>
    recursiveDeletion_evolves env₂ behavior₂ .notice okt fuel₂ target none) h₂
  exact ⟨depRel_eq_of_destroyed_iff hev₁ hev₂ hs₁ hs₂ hacc₁ hacc₂ hsame, hsame⟩

theorem performDeletion_outcome_independent_notices :
    (∀ d ∈ noticeCatalog, d.deptype = 'i' → d.depender.objectSubId = 0) ∧
      ∃ s₁ s₂, performDeletion (exampleEnv fun _ => 0) 4 (relationAddress 10) .dropCascade
          (DropState.init noticeCatalog) = .ok () s₁ ∧
        performDeletion (exampleEnv fun _ => 1) 4 (relationAddress 10) .dropCascade
          (DropState.init noticeCatalog) = .ok () s₂ ∧
        s₁.depRel = s₂.depRel ∧ ∀ x, Destroyed s₁ x ↔ Destroyed s₂ x :=
  ⟨by decide, _, _, rfl, rfl, performDeletion_outcome_independent noticeCatalog (by decide)
    (relationAddress 10) (exampleEnv fun _ => 0) (exampleEnv fun _ => 1) 4 4 .dropCascade
    .dropCascade
    rfl rfl⟩

/-- **`deleteWhatDependsOn` destroys the closure of the dependents.** When the
INTERNAL entries of the catalog are from whole objects and no member of the
closure of the target's dependents is the target's object or a part of it, a
`deleteWhatDependsOn` that returns has destroyed exactly the addresses covered
by that closure, and left exactly the entries with neither end so covered. -/
theorem deleteWhatDependsOn_destroys_dependents (env : DropEnv) (fuel : Nat)
    (rel : List FormDataPgDepend) (hwhole : ∀ d ∈ rel, d.deptype = 'i' → d.depender.objectSubId = 0)
    (target : ObjectAddress) (showNotices : Bool)
    (hsep : ∀ x, DependentsClosure rel target x →
      ¬ (x.classId = target.classId ∧ x.objectId = target.objectId))
    {s : DropState}
    (h : deleteWhatDependsOn env fuel target showNotices (DropState.init rel) = .ok () s) :
    (∀ x, Destroyed s x ↔ CoveredBy (DependentsClosure rel target) x) ∧
      ∀ t ∈ (DropState.init rel).depRel, t ∈ s.depRel ↔
        ¬ CoveredBy (DependentsClosure rel target) t.form.depender ∧
          ¬ CoveredBy (DependentsClosure rel target) t.form.referenced := by
  obtain ⟨msglevel, okt, s₁, hrel, hdel, hdd⟩ := deleteWhatDependsOn_ok_from env fuel h
  have hacc := (deleteDependentObjects_accounted
    (recursiveDeletion_completes (wholeOwners_init hwhole) fuel) (hrel ▸ List.Subset.refl _)
    (Swept.of_deleted_nil hdel) hdd).congr_left hrel
  have hclear := deleteDependentObjects_clears env .dropCascade msglevel okt hdd
  have hsound := deleteWhatDependsOn_sound_dependents env fuel rel target showNotices
  rw [h, finalState_ok] at hsound
  have hs : Swept s := hsound.swept
  -- every member of the closure of a dependent is destroyed
  have hcomplete : ∀ x, DependentsClosure rel target x → Destroyed s x := by
    rintro x ⟨d, hd, hp, hc, hx⟩
    obtain ⟨t₀, ht₀, rfl⟩ := DropState.tuple_of_mem hd
    induction hx with
    | target => exact (hacc t₀ ht₀ fun hl => hclear t₀ hl hc).1
    | dependent hd' _ _ hc' ih =>
      obtain ⟨t, ht, rfl⟩ := DropState.tuple_of_mem hd'
      exact (hacc t ht fun hl => (hs.not_destroyed hl).2 (ih.of_covers hc')).1
    | owner hd' hi hm hc' ih =>
      obtain ⟨t, ht, rfl⟩ := DropState.tuple_of_mem hd'
      rcases (hacc t ht fun hl => (hs.not_destroyed hl).1 (ih.of_covers hc')).2 hi with
        hr | ⟨c, hcs, hcov⟩
      · exact hr
      · -- an owner the target covers would be a member sharing the target's object
        cases hcs
        exact absurd ⟨hcov.1.symm, hcov.2.1.symm⟩
          (hsep _ ⟨t₀.form, hd, hp, hc, .owner hd' hi hm hc'⟩)
  have hiff : ∀ x, Destroyed s x ↔ CoveredBy (DependentsClosure rel target) x := fun x =>
    ⟨fun ⟨y, hy, hc⟩ => ⟨y, hsound.deleted y hy, hc⟩,
      fun ⟨y, hy, hc⟩ => (hcomplete y hy).of_covers hc⟩
  exact ⟨hiff, fun t ht => by rw [← hiff, ← hiff]; exact hs.mem_depRel_iff hacc ht⟩

theorem deleteWhatDependsOn_destroys_dependents_auto :
    (∀ d ∈ autoOwnerCatalog, d.deptype = 'i' → d.depender.objectSubId = 0) ∧
      (∀ x, DependentsClosure autoOwnerCatalog (relationAddress 40) x →
        ¬ (x.classId = (relationAddress 40).classId ∧ x.objectId = (relationAddress 40).objectId)) ∧
      ∃ s, deleteWhatDependsOn (exampleEnv fun _ => 0) 5 (relationAddress 40) true
          (DropState.init autoOwnerCatalog) = .ok () s ∧
        (∀ x, Destroyed s x ↔ CoveredBy (DependentsClosure autoOwnerCatalog (relationAddress 40)) x) ∧
        ∀ t ∈ (DropState.init autoOwnerCatalog).depRel, t ∈ s.depRel ↔
          ¬ CoveredBy (DependentsClosure autoOwnerCatalog (relationAddress 40)) t.form.depender ∧
            ¬ CoveredBy (DependentsClosure autoOwnerCatalog (relationAddress 40)) t.form.referenced :=
  ⟨by decide, autoOwner_dependents_apart, _, rfl,
    deleteWhatDependsOn_destroys_dependents (exampleEnv fun _ => 0) 5 _ (by decide)
      (relationAddress 40) true autoOwner_dependents_apart rfl⟩

end CatalogDependency
