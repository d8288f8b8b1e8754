import CatalogDependency.Frame

/-!
What the two scans of `recursiveDeletion` leave behind when they return.

Step 1 (`sweep_ok`): of the entries from `object` (or, for a whole object,
from any of its parts) only a kept INTERNAL entry to an owner may remain, and
an owner is reported exactly when one remains. A recursive call therefore
removes the entry through which Step 2 of its caller reached it
(`recursiveDeletion_severs`), and so Step 2 returns only once no entry to
`object` is left (`deleteDependentObjects_clears`).
-/

namespace CatalogDependency

section Sweep

variable (env : DropEnv) (object : ObjectAddress) (callingObject : Option ObjectAddress)

/-- An entry Step 1 keeps: INTERNAL, to an owner the caller does not cover. -/
def KeptInternal (d : FormDataPgDepend) : Prop :=
  d.deptype = 'i' ∧ ∃ c, callingObject = some c ∧ ¬ c.covers d.referenced

/-- The invariant of the Step 1 loop, after returning the tuples `seen`, from
the state `s₀` at its start. -/
structure SweepInv (s₀ : DropState) (seen : List HeapTuple) (owning : Option ObjectAddress)
    (s : DropState) : Prop where
  subset : s.depRel ⊆ s₀.depRel
  matched : ∀ t ∈ seen, object.covers t.form.depender
  kept : ∀ t ∈ seen, t ∈ s.depRel →
    KeptInternal callingObject t.form ∧ owning = some t.form.referenced
  owner : ∀ w, owning = some w → ∃ t ∈ seen, t ∈ s.depRel ∧ w = t.form.referenced
  removed : ∀ t ∈ s₀.depRel, t ∉ s.depRel → t ∈ seen ∧ Severable callingObject t.form

namespace SweepInv

variable {object callingObject} {s₀ s : DropState} {seen : List HeapTuple} {t : HeapTuple}

/-- Removing a severable entry from `object` keeps the invariant. -/
theorem sever {owning : Option ObjectAddress}
    (hI : SweepInv object callingObject s₀ seen owning s) (hkey : object.covers t.form.depender)
    (hs : t ∉ seen) (hsev : Severable callingObject t.form) :
    SweepInv object callingObject s₀ (t :: seen) owning
      { s with depRel := s.depRel.filter fun u => decide (u ≠ t) } := by
  have hlive : ∀ u, u ∈ s.depRel.filter (fun u => decide (u ≠ t)) ↔ u ∈ s.depRel ∧ u ≠ t := by
    simp
  refine ⟨fun u hu => hI.subset ((hlive u).mp hu).1, List.forall_mem_cons.mpr ⟨hkey, hI.matched⟩,
    List.forall_mem_cons.mpr ⟨fun hl => absurd rfl ((hlive _).mp hl).2,
      fun u hu hl => hI.kept u hu ((hlive u).mp hl).1⟩, fun w hw => ?_, fun u hu hl => ?_⟩
  · obtain ⟨u, hu, hl, rfl⟩ := hI.owner w hw
    exact ⟨u, List.mem_cons_of_mem _ hu, (hlive u).mpr ⟨hl, fun e => hs (e ▸ hu)⟩, rfl⟩
  · by_cases e : u = t
    · exact ⟨e ▸ List.mem_cons_self _ _, e ▸ hsev⟩
    · exact (hI.removed u hu fun h => hl ((hlive u).mpr ⟨h, e⟩)).imp (List.mem_cons_of_mem _) id

/-- Keeping the first INTERNAL entry to an owner keeps the invariant, with that
owner returned. -/
theorem keep (hI : SweepInv object callingObject s₀ seen none s)
    (hkey : object.covers t.form.depender) (ht : t ∈ s.depRel)
    (hk : KeptInternal callingObject t.form) :
    SweepInv object callingObject s₀ (t :: seen) (some t.form.referenced) s :=
  ⟨hI.subset, List.forall_mem_cons.mpr ⟨hkey, hI.matched⟩,
    List.forall_mem_cons.mpr ⟨fun _ => ⟨hk, rfl⟩,
      fun u hu hl => absurd (hI.kept u hu hl).2 (by simp)⟩,
    fun _ hw => by cases hw; exact ⟨t, List.mem_cons_self _ _, ht, rfl⟩,
    fun u hu hl => (hI.removed u hu hl).imp (List.mem_cons_of_mem _) id⟩

end SweepInv

theorem sweepInv_step (s₀ : DropState) (seen : List HeapTuple)
    (owning owning' : Option ObjectAddress) (s s' : DropState) (t : HeapTuple)
    (hI : SweepInv object callingObject s₀ seen owning s)
    (ht : t ∈ s.depRel) (hk : dependerKey object t.form = true) (hs : t ∉ seen)
    (h : sweepOutgoing object callingObject t owning s = .ok owning' s') :
    SweepInv object callingObject s₀ (t :: seen) owning' s' := by
  have hkey : object.covers t.form.depender := (dependerKey_iff _ _).mp hk
  rcases sweepOutgoing_cases object callingObject t owning s with
    ⟨hsev, h'⟩ | ⟨rfl, hi, hc, h'⟩ | ⟨e, -, h'⟩ <;> rw [h'] at h <;> cases h
  · exact hI.sever hkey hs hsev
  · exact hI.keep hkey ht ⟨hi, hc⟩

/-- **Step 1.** When the scan of the entries from `object` returns, the entries
from `object` still there are kept INTERNAL ones, each to the owner returned;
an owner is returned only with such an entry; and every entry removed was a
severable entry from `object`. -/
theorem sweep_ok {s s' : DropState} {owning : Option ObjectAddress}
    (h : caqlBeginscan env (dependerKey object) (sweepOutgoing object callingObject) none s =
      .ok owning s') :
    s'.depRel ⊆ s.depRel ∧
      (∀ t ∈ s'.depRel, object.covers t.form.depender →
        KeptInternal callingObject t.form ∧ owning = some t.form.referenced) ∧
      (∀ w, owning = some w → ∃ t ∈ s'.depRel, object.covers t.form.depender ∧
        KeptInternal callingObject t.form ∧ w = t.form.referenced) ∧
      (∀ t ∈ s.depRel, t ∉ s'.depRel →
        object.covers t.form.depender ∧ Severable callingObject t.form) := by
  have hI0 : SweepInv object callingObject s [] none s :=
    ⟨List.Subset.refl _, by simp, by simp, by simp, fun _ ht hn => absurd ht hn⟩
  obtain ⟨seen, hI, hex⟩ := caqlBeginscan_ok env (SweepInv object callingObject s)
    (fun _ _ _ h => ⟨h.subset, h.matched, h.kept, h.owner, h.removed⟩)
    (fun seen acc s t acc' s' hI ht hk hs hb =>
      sweepInv_step object callingObject _ seen acc acc' s s' t hI ht hk hs hb) hI0 h
  refine ⟨hI.subset, fun t ht hc => hI.kept t (hex t ht ((dependerKey_iff _ _).mpr hc)) ht,
    fun w hw => ?_, fun t ht hn => ?_⟩
  · obtain ⟨t, hseen, hl, rfl⟩ := hI.owner w hw
    exact ⟨t, hl, hI.matched t hseen, (hI.kept t hseen hl).1, rfl⟩
  · obtain ⟨hseen, hsev⟩ := hI.removed t ht hn
    exact ⟨hI.matched t hseen, hsev⟩

theorem KeptInternal.not_severable {d : FormDataPgDepend} (hk : KeptInternal callingObject d)
    (hs : Severable callingObject d) : False := by
  obtain ⟨hi, c, hc, hn⟩ := hk
  rcases hs with h | h | ⟨-, c', hc', hcov⟩
  · rw [hi] at h; exact absurd h (by decide)
  · rw [hi] at h; exact absurd h (by decide)
  · rw [hc] at hc'; cases hc'; exact hn hcov

end Sweep

section Severs

variable (env : DropEnv) (behavior : DropBehavior) (msglevel : ElogLevel)
  (oktodelete : ObjectAddresses)

/-- A call of `recursiveDeletion` that returns: Step 1 returned `owning` in
`s₁`, and from there the owner branch or Steps 2 and 3 returned. -/
theorem recursiveDeletion_ok_cases {fuel : Nat} {object : ObjectAddress}
    {callingObject : Option ObjectAddress} {s s' : DropState} {b : Bool}
    (h : recursiveDeletion env behavior msglevel oktodelete (fuel + 1) object callingObject s =
      .ok b s') :
    ∃ owning s₁,
      caqlBeginscan env (dependerKey object) (sweepOutgoing object callingObject) none s =
        .ok owning s₁ ∧
      ((owning = none ∧ (deleteDependentObjects env behavior msglevel oktodelete
          (recursiveDeletion env behavior msglevel oktodelete fuel) object >>= fun ok =>
            doDeletion env object >>= fun _ => noteDeleted object >>= fun _ => pure ok) s₁ =
          .ok b s') ∨
        ∃ owningObject, owning = some owningObject ∧
          (reportCascade env behavior msglevel oktodelete owningObject object >>= fun fine =>
            recursiveDeletion env behavior msglevel oktodelete fuel owningObject (some object) >>=
              fun r => pure (fine && r)) s₁ = .ok b s') := by
  rw [recursiveDeletion_succ] at h
  rcases getObjectDescription_cases env object s with hd | hd
  · rw [bind_of_ok hd] at h
    obtain ⟨owning, s₁, hs, h⟩ := bind_eq_ok.mp h
    refine ⟨owning, s₁, hs, ?_⟩
    rcases owning with _ | owningObject
    · exact .inl ⟨rfl, h⟩
    · exact .inr ⟨owningObject, rfl, h⟩
  · rw [bind_of_error hd] at h
    cases h

/-- A call of `recursiveDeletion` from `callingObject` that returns has removed
every entry from its object that Step 1 severs for that caller. -/
theorem recursiveDeletion_severs {fuel : Nat} {object : ObjectAddress}
    {callingObject : Option ObjectAddress} {s s' : DropState} {b : Bool}
    (h : recursiveDeletion env behavior msglevel oktodelete fuel object callingObject s = .ok b s')
    {t : HeapTuple} (hk : object.covers t.form.depender)
    (hsev : Severable callingObject t.form) : t ∉ s'.depRel := by
  cases fuel with
  | zero => cases h
  | succ fuel =>
    obtain ⟨owning, s₁, hs, hb⟩ :=
      recursiveDeletion_ok_cases env behavior msglevel oktodelete h
    obtain ⟨-, hkept, -, -⟩ := sweep_ok env object callingObject hs
    have h₁ : t ∉ s₁.depRel := fun hl =>
      KeptInternal.not_severable callingObject (hkept t hl hk).1 hsev
    have hev : Evolves s₁ s' := by
      rcases hb with ⟨-, hb⟩ | ⟨_, -, hb⟩
      · exact Steps.of_ok (dropBranch_evolves env behavior msglevel oktodelete
          (recursiveDeletion_evolves env behavior msglevel oktodelete fuel) object) hb
      · exact Steps.of_ok (ownerBranch_evolves env behavior msglevel oktodelete
          (recursiveDeletion_evolves env behavior msglevel oktodelete fuel _ _)) hb
    exact fun hl => h₁ (hev.depRel_subset hl)

/-- One entry of Step 2 that returns is gone: the call on its depender
severed it, being called from the object the entry references. -/
theorem dropDependent_severs {fuel : Nat} {object : ObjectAddress} {t : HeapTuple}
    {acc acc' : Bool} {s s' : DropState} (hk : referencedKey object t.form = true)
    (hb : dropDependent env behavior msglevel oktodelete
      (recursiveDeletion env behavior msglevel oktodelete fuel) object t acc s = .ok acc' s') :
    t ∉ s'.depRel := by
  rcases dropDependent_cases env behavior msglevel oktodelete _ object t acc s with
    ⟨-, e, -, h'⟩ | ⟨hty, fine, level, msg, -, -, h'⟩ <;> rw [h'] at hb
  · cases hb
  obtain ⟨r, s₂, hr, hp⟩ := bind_eq_ok.mp hb
  cases hp
  have hcov : object.covers t.form.referenced := (referencedKey_iff _ _).mp hk
  refine recursiveDeletion_severs env behavior msglevel oktodelete hr
    (ObjectAddress.covers_refl _) ?_
  rcases hty with h | h | h
  exacts [.inl h, .inr (.inl h), .inr (.inr ⟨h, object, rfl, hcov⟩)]

/-- **Step 2.** When the scan of the entries to `object` returns, every entry to
`object` (or to a part of it, for a whole object) is gone. -/
theorem deleteDependentObjects_clears {fuel : Nat} {object : ObjectAddress} {s s' : DropState}
    {b : Bool}
    (h : deleteDependentObjects env behavior msglevel oktodelete
      (recursiveDeletion env behavior msglevel oktodelete fuel) object s = .ok b s') :
    ∀ t ∈ s'.depRel, ¬ object.covers t.form.referenced := by
  have hrec := recursiveDeletion_evolves env behavior msglevel oktodelete fuel
  obtain ⟨seen, hI, hex⟩ := caqlBeginscan_ok env (fun seen _ s => ∀ t ∈ seen, t ∉ s.depRel)
    (fun _ _ _ h => h)
    (fun _ acc s t _ _ hI _ hk _ hb =>
      have hev := Steps.of_ok (dropDependent_evolves env behavior msglevel oktodelete hrec
        object t acc) hb
      List.forall_mem_cons.mpr ⟨dropDependent_severs env behavior msglevel oktodelete hk hb,
        fun u hu hl => hI u hu (hev.depRel_subset hl)⟩)
    (by simp) h
  exact fun t ht hc => hI t (hex t ht ((referencedKey_iff _ _).mpr hc)) ht

end Severs

end CatalogDependency
