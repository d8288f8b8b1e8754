import CatalogDependency.Termination

/-!
The pre-scan `findAutoDeletableObjects`.

The pre-scan walks the AUTO and INTERNAL entries into an object depth first,
with `oktodelete` as its visited list: a call returns at once on an object that
`object_address_present` finds there, a whole object counting as a visit of
its parts. A call that goes past that test makes the depender of a live entry
present, so the live entries plus two bound the fuel it needs. A call that
returns has only appended to the list, and only objects reachable from its
own; started from a closed list, it returns a closed list that holds
everything reachable (`findAutoDeletableObjects_closes`).
-/

namespace CatalogDependency

/-! ## Reachability and closed lists -/

/-- `x` is the depender of a non-empty path of AUTO or INTERNAL entries into
`object`: the first entry references something `object` covers, each later
one something the depender before it covers. -/
inductive AutoReachable (rel : List FormDataPgDepend) (object : ObjectAddress) :
    ObjectAddress → Prop
  | edge {d : FormDataPgDepend} : d ∈ rel → (d.deptype = 'a' ∨ d.deptype = 'i') →
      object.covers d.referenced → AutoReachable rel object d.depender
  | step {y : ObjectAddress} {d : FormDataPgDepend} : AutoReachable rel object y → d ∈ rel →
      (d.deptype = 'a' ∨ d.deptype = 'i') → y.covers d.referenced →
      AutoReachable rel object d.depender

theorem AutoReachable.trans {rel : List FormDataPgDepend} {a b c : ObjectAddress}
    (hab : AutoReachable rel a b) (hbc : AutoReachable rel b c) : AutoReachable rel a c := by
  induction hbc with
  | edge hd ht hc => exact .step hab hd ht hc
  | step _ hd ht hc ih => exact .step ih hd ht hc

/-- A closed list: the AUTO and INTERNAL dependents of everything present in
it are present in it. -/
def AutoClosed (rel : List FormDataPgDepend) (oktodelete : ObjectAddresses) : Prop :=
  ∀ x, objectAddressPresent x oktodelete = true → ∀ d ∈ rel,
    (d.deptype = 'a' ∨ d.deptype = 'i') → x.covers d.referenced →
      objectAddressPresent d.depender oktodelete = true

/-- Closedness at the entries other than `pending`, the objects whose calls are
still scanning. -/
def ClosedExcept (rel : List FormDataPgDepend) (pending : List ObjectAddress)
    (oktodelete : ObjectAddresses) : Prop :=
  ∀ y ∈ oktodelete.items, y ∉ pending → ∀ d ∈ rel,
    (d.deptype = 'a' ∨ d.deptype = 'i') → y.covers d.referenced →
      objectAddressPresent d.depender oktodelete = true

theorem autoClosed_iff (rel : List FormDataPgDepend) (oktodelete : ObjectAddresses) :
    AutoClosed rel oktodelete ↔ ClosedExcept rel [] oktodelete := by
  constructor
  · intro h y hy _ d hd ht hc
    exact h y ((objectAddressPresent_iff _ _).mpr ⟨y, hy, ObjectAddress.covers_refl y⟩) d hd ht hc
  · intro h x hx d hd ht hc
    obtain ⟨y, hy, hyx⟩ := (objectAddressPresent_iff _ _).mp hx
    exact h y hy (List.not_mem_nil y) d hd ht (ObjectAddress.covers_trans hyx hc)

/-- Nothing is present in a new list, so it is closed. -/
theorem autoClosed_newObjectAddresses (rel : List FormDataPgDepend) :
    AutoClosed rel newObjectAddresses :=
  fun _ h => absurd h (by simp [objectAddressPresent_iff])

theorem objectAddressPresent_mono {x : ObjectAddress} {a b : ObjectAddresses}
    (hab : a.items <+: b.items) (h : objectAddressPresent x a = true) :
    objectAddressPresent x b = true := by
  obtain ⟨y, hy, hc⟩ := (objectAddressPresent_iff x a).mp h
  exact (objectAddressPresent_iff x b).mpr ⟨y, hab.subset hy, hc⟩

/-! ## What a call appends -/

section Runs

variable (env : DropEnv)

/-- The list a call scans from: `oktodelete`, with `object` appended when
`addself`. -/
theorem items_scanStart (object : ObjectAddress) (oktodelete : ObjectAddresses)
    (addself : Bool) :
    (if addself then addExactObjectAddress object oktodelete else oktodelete).items =
      oktodelete.items ++ (if addself then [object] else []) := by
  cases addself <;> simp

/-- **Appends.** A call that returns has appended to `oktodelete` its object,
when `addself` and the object was not present, and then only objects reachable
from its object. -/
theorem findAutoDeletableObjects_appends :
    ∀ fuel object oktodelete addself {s : DropState} {okt' : ObjectAddresses} {s' : DropState},
      findAutoDeletableObjects env fuel object oktodelete addself s = .ok okt' s' →
      ∃ rest, okt'.items = oktodelete.items ++
          (if addself && !objectAddressPresent object oktodelete then [object] else []) ++ rest ∧
        ∀ x ∈ rest, AutoReachable (s.depRel.map HeapTuple.form) object x := by
  intro fuel
  induction fuel with
  | zero => intro _ _ _ _ _ _ h; cases h
  | succ fuel ih =>
    intro object oktodelete addself s okt' s' h
    rw [findAutoDeletableObjects_succ] at h
    split at h
    · next hp => cases h; exact ⟨[], by simp [hp]⟩
    · next hp =>
      obtain ⟨-, ⟨rest, hrest, hreach, -⟩, -⟩ := caqlBeginscan_ok env
        (fun _ (acc : ObjectAddresses) (s₁ : DropState) => ∃ rest, acc.items =
          (if addself then addExactObjectAddress object oktodelete else oktodelete).items ++
            rest ∧ (∀ x ∈ rest, AutoReachable (s.depRel.map HeapTuple.form) object x) ∧
          s₁.depRel = s.depRel)
        (fun _ _ _ h => h)
        (fun _ acc s₁ t acc' s₂ ⟨rest, hrest, hreach, hrel⟩ ht hk _ hb => by
          rcases collectAuto_cases (fun o okt => findAutoDeletableObjects env fuel o okt true)
            object t acc s₁ with ⟨-, h'⟩ | ⟨hty, h'⟩ | ⟨e, -, h'⟩ <;> rw [h'] at hb
          · cases hb; exact ⟨rest, hrest, hreach, hrel⟩
          · obtain ⟨more, hmore, hmreach⟩ := ih _ _ _ hb
            have hedge : AutoReachable (s.depRel.map HeapTuple.form) object t.form.depender :=
              .edge (hrel ▸ List.mem_map_of_mem _ ht) hty ((referencedKey_iff _ _).mp hk)
            have hs₂ := (Steps.of_ok (findAutoDeletableObjects_frame env fuel _ _ true) hb).1
            refine ⟨rest ++ ((if !objectAddressPresent t.form.depender acc then
              [t.form.depender] else []) ++ more), by simp [hmore, hrest], ?_, hs₂.trans hrel⟩
            simp only [List.mem_append]
            rintro x (hx | hx | hx)
            · exact hreach x hx
            · split at hx
              · exact List.mem_singleton.mp hx ▸ hedge
              · cases hx
            · exact hedge.trans (hrel ▸ hmreach x hx)
          · cases hb)
        ⟨[], by simp, by simp, rfl⟩ h
      refine ⟨rest, ?_, hreach⟩
      rw [hrest, items_scanStart]
      simp only [Bool.not_eq_true] at hp
      cases addself <;> simp [hp]

/-- A call with `addself` returns a list that extends its own and holds its
object. -/
theorem findAutoDeletableObjects_present {fuel : Nat} {object : ObjectAddress}
    {oktodelete okt' : ObjectAddresses} {s s' : DropState}
    (h : findAutoDeletableObjects env fuel object oktodelete true s = .ok okt' s') :
    oktodelete.items <+: okt'.items ∧ objectAddressPresent object okt' = true := by
  obtain ⟨rest, hrest, -⟩ := findAutoDeletableObjects_appends env fuel object oktodelete true h
  have hpre : oktodelete.items <+: okt'.items := ⟨_, by rw [hrest, List.append_assoc]⟩
  refine ⟨hpre, ?_⟩
  cases hp : objectAddressPresent object oktodelete
  · refine (objectAddressPresent_iff _ _).mpr ⟨object, ?_, ObjectAddress.covers_refl _⟩
    simp [hrest, hp]
  · exact objectAddressPresent_mono hpre hp

/-- What the scan of a call that went past its presence test keeps: the list
is closed outside the pending calls and this one, extends the starting list,
and holds the depender of every AUTO or INTERNAL entry returned so far. -/
def ScanClosure (rel : List FormDataPgDepend) (pending : List ObjectAddress)
    (object : ObjectAddress) (start : ObjectAddresses) (live : List HeapTuple)
    (seen : List HeapTuple) (acc : ObjectAddresses) (s : DropState) : Prop :=
  ClosedExcept rel (object :: pending) acc ∧ start.items <+: acc.items ∧
    (∀ t ∈ seen, (t.form.deptype = 'a' ∨ t.form.deptype = 'i') →
      objectAddressPresent t.form.depender acc = true) ∧ s.depRel = live

/-- **Closure.** A call from a list closed outside `pending` returns a list
closed outside `pending`; when its object was not present, every AUTO or
INTERNAL dependent of its object is present in it. -/
theorem findAutoDeletableObjects_closedExcept :
    ∀ fuel object oktodelete addself (pending : List ObjectAddress)
      {s : DropState} {okt' : ObjectAddresses} {s' : DropState},
      ClosedExcept (s.depRel.map HeapTuple.form) pending oktodelete →
      findAutoDeletableObjects env fuel object oktodelete addself s = .ok okt' s' →
      ClosedExcept (s.depRel.map HeapTuple.form) pending okt' ∧
        (objectAddressPresent object oktodelete = false →
          ∀ d ∈ s.depRel.map HeapTuple.form, (d.deptype = 'a' ∨ d.deptype = 'i') →
            object.covers d.referenced → objectAddressPresent d.depender okt' = true) := by
  intro fuel
  induction fuel with
  | zero => intro _ _ _ _ _ _ _ _ h; cases h
  | succ fuel ih =>
    intro object oktodelete addself pending s okt' s' hC h
    rw [findAutoDeletableObjects_succ] at h
    split at h
    · next hp => cases h; exact ⟨hC, fun hn => absurd hp (by simp [hn])⟩
    · next hp =>
      set rel := s.depRel.map HeapTuple.form
      set start := if addself then addExactObjectAddress object oktodelete else oktodelete
      have hstart : ScanClosure rel pending object start s.depRel [] start s := by
        refine ⟨fun y hy hyp d hd ht hc => ?_, List.prefix_refl _, nofun, rfl⟩
        rw [items_scanStart, List.mem_append] at hy
        rcases hy with hy | hy
        · exact objectAddressPresent_mono (items_scanStart object oktodelete addself ▸
            List.prefix_append _ _) (hC y hy (fun h => hyp (.tail _ h)) d hd ht hc)
        · cases addself
          · cases hy
          · exact absurd (List.mem_singleton.mp hy ▸ List.mem_cons_self _ _) hyp
      obtain ⟨seen, ⟨hC', -, hseen, hlive⟩, hall⟩ := caqlBeginscan_ok env
        (ScanClosure rel pending object start s.depRel)
        (fun _ _ _ h => h)
        (fun seen acc s₁ t acc' s₂ ⟨hC₁, hpre, hseen, hrel⟩ ht _ _ hb => by
          rcases collectAuto_cases (fun o okt => findAutoDeletableObjects env fuel o okt true)
            object t acc s₁ with ⟨hn, h'⟩ | ⟨-, h'⟩ | ⟨e, -, h'⟩ <;> rw [h'] at hb
          · cases hb
            refine ⟨hC₁, hpre, fun u hu hty => ?_, hrel⟩
            rcases List.mem_cons.mp hu with rfl | hu
            · rw [hn] at hty; rcases hty with h | h <;> cases h
            · exact hseen u hu hty
          · obtain ⟨hpre', hpres⟩ := findAutoDeletableObjects_present env hb
            have hs₂ := (Steps.of_ok (findAutoDeletableObjects_frame env fuel _ _ true) hb).1
            have hr : s₁.depRel.map HeapTuple.form = rel := by rw [hrel]
            have hC₂ := (ih _ _ _ _ (hr ▸ hC₁) hb).1
            rw [hr] at hC₂
            refine ⟨hC₂, hpre.trans hpre', fun u hu hty => ?_, hs₂.trans hrel⟩
            rcases List.mem_cons.mp hu with rfl | hu
            · exact hpres
            · exact objectAddressPresent_mono hpre' (hseen u hu hty)
          · cases hb)
        hstart h
      -- every AUTO or INTERNAL entry into `object` was returned by the scan
      have hdeps : ∀ d ∈ rel, (d.deptype = 'a' ∨ d.deptype = 'i') →
          object.covers d.referenced → objectAddressPresent d.depender okt' = true := by
        intro d hd ht hc
        obtain ⟨t, ht', rfl⟩ := List.mem_map.mp hd
        exact hseen t (hall t (hlive ▸ ht') ((referencedKey_iff _ _).mpr hc)) ht
      refine ⟨fun y hy hyp => ?_, fun _ => hdeps⟩
      by_cases hyo : y = object
      · exact hyo ▸ hdeps
      · exact hC' y hy (fun h => (List.mem_cons.mp h).elim hyo hyp)

/-! ## The fuel a call needs -/

/-- The live entries whose depender is not present in `oktodelete`: a call
that goes past its presence test makes one of them present. -/
def unexplored (oktodelete : ObjectAddresses) (s : DropState) : Nat :=
  (s.depRel.filter fun t => !objectAddressPresent t.form.depender oktodelete).length

/-- Extending the list leaves fewer entries unexplored. -/
theorem unexplored_sublist {a b : ObjectAddresses} (hab : a.items <+: b.items)
    (l : List HeapTuple) :
    List.Sublist (l.filter fun t => !objectAddressPresent t.form.depender b)
      (l.filter fun t => !objectAddressPresent t.form.depender a) :=
  List.monotone_filter_right _ fun t => by
    simp only [Bool.not_eq_true']
    intro h
    cases ha : objectAddressPresent t.form.depender a
    · rfl
    · rw [objectAddressPresent_mono hab ha] at h; cases h

theorem unexplored_mono {a b : ObjectAddresses} (hab : a.items <+: b.items) {s s' : DropState}
    (hs : s'.depRel = s.depRel) : unexplored b s' ≤ unexplored a s := by
  unfold unexplored
  rw [hs]
  exact (unexplored_sublist hab _).length_le

/-- Appending the depender of a live entry that was not present lowers the
measure. -/
theorem unexplored_addExact_lt {object : ObjectAddress} {oktodelete : ObjectAddresses}
    {s : DropState} (hdep : ∃ t ∈ s.depRel, t.form.depender = object)
    (hp : objectAddressPresent object oktodelete = false) :
    unexplored (addExactObjectAddress object oktodelete) s < unexplored oktodelete s := by
  obtain ⟨t, ht, rfl⟩ := hdep
  have hpre : oktodelete.items <+: (addExactObjectAddress t.form.depender oktodelete).items := by
    simp
  have hsub := unexplored_sublist hpre s.depRel
  refine lt_of_le_of_ne hsub.length_le fun heq => ?_
  have hin : t ∈ s.depRel.filter fun u => !objectAddressPresent u.form.depender oktodelete := by
    simp [ht, hp]
  rw [← hsub.eq_of_length heq] at hin
  have hnew : objectAddressPresent t.form.depender
      (addExactObjectAddress t.form.depender oktodelete) = true :=
    (objectAddressPresent_iff _ _).mpr ⟨t.form.depender, by simp, ObjectAddress.covers_refl _⟩
  simp [hnew] at hin

/-- The scan of a call runs out of fuel only in a call on a depender, and each
such call starts with no more unexplored entries than the scan did. -/
theorem collectAuto_scan_within_fuel {fuel : Nat}
    (hrec : ∀ object oktodelete (s : DropState), (∃ t ∈ s.depRel, t.form.depender = object) →
      unexplored oktodelete s < fuel →
      raised (findAutoDeletableObjects env fuel object oktodelete true s) ≠ some .outOfFuel)
    (object : ObjectAddress) {start : ObjectAddresses} {s : DropState}
    (hb : unexplored start s < fuel) :
    raised (caqlBeginscan env (referencedKey object)
      (collectAuto (fun o okt => findAutoDeletableObjects env fuel o okt true) object)
      start s) ≠ some .outOfFuel :=
  caqlBeginscan_within_bound env
    (fun (acc : ObjectAddresses) (s₁ : DropState) => start.items <+: acc.items ∧
      s₁.depRel = s.depRel)
    (fun _ _ h => h)
    (fun acc s₁ t ⟨hpre, hrel⟩ ht _ => by
      rcases collectAuto_cases (fun o okt => findAutoDeletableObjects env fuel o okt true)
        object t acc s₁ with ⟨-, h'⟩ | ⟨-, h'⟩ | ⟨e, he, h'⟩ <;> rw [h']
      · exact ⟨nofun, fun _ _ h => by cases h; exact ⟨⟨hpre, hrel⟩, List.Sublist.refl _⟩⟩
      · refine ⟨hrec _ _ _ ⟨t, ht, rfl⟩ ((unexplored_mono hpre hrel).trans_lt hb),
          fun acc' s₂ h => ?_⟩
        have hs₂ := (Steps.of_ok (findAutoDeletableObjects_frame env fuel _ _ true) h).1
        exact ⟨⟨hpre.trans (findAutoDeletableObjects_present env h).1, hs₂.trans hrel⟩,
          hs₂ ▸ List.Sublist.refl _⟩
      · exact ⟨fun h => he (Option.some.inj h), nofun⟩)
    start ⟨List.prefix_refl _, rfl⟩

/-- A call on the depender of a live entry, with more fuel than unexplored
entries, does not run out of fuel. -/
theorem findAutoDeletableObjects_depender_within_fuel :
    ∀ fuel object oktodelete (s : DropState), (∃ t ∈ s.depRel, t.form.depender = object) →
      unexplored oktodelete s < fuel →
      raised (findAutoDeletableObjects env fuel object oktodelete true s) ≠ some .outOfFuel := by
  intro fuel
  induction fuel with
  | zero => intro _ _ _ _ h; omega
  | succ fuel ih =>
    intro object oktodelete s hdep hm
    rw [findAutoDeletableObjects_succ]
    split
    · nofun
    · next hp =>
      simp only [Bool.not_eq_true] at hp
      exact collectAuto_scan_within_fuel env ih object
        (by have := unexplored_addExact_lt hdep hp; simp only [↓reduceIte]; omega)

/-- **The pre-scan ends.** A call given two more fuel than there are live
entries does not run out of fuel, whatever its object and list. -/
theorem findAutoDeletableObjects_within_fuel (fuel : Nat) (object : ObjectAddress)
    (oktodelete : ObjectAddresses) (addself : Bool) (s : DropState)
    (hfuel : s.depRel.length + 1 < fuel) :
    raised (findAutoDeletableObjects env fuel object oktodelete addself s) ≠
      some .outOfFuel := by
  obtain ⟨fuel, rfl⟩ : ∃ f, fuel = f + 1 := ⟨fuel - 1, by omega⟩
  rw [findAutoDeletableObjects_succ]
  split
  · nofun
  · have hle : unexplored oktodelete s ≤ s.depRel.length := List.length_filter_le _ _
    refine collectAuto_scan_within_fuel env
      (findAutoDeletableObjects_depender_within_fuel env fuel) object ?_
    have := unexplored_mono (items_scanStart object oktodelete addself ▸
      List.prefix_append _ _) (s := s) rfl
    omega

end Runs

/-! ## The pre-scan closes its list -/

/-- In a closed list that holds the AUTO and INTERNAL dependents of `object`,
everything reachable from `object` is present. -/
theorem AutoReachable.present {rel : List FormDataPgDepend} {object x : ObjectAddress}
    {okt : ObjectAddresses} (hclosed : AutoClosed rel okt)
    (hdeps : ∀ d ∈ rel, (d.deptype = 'a' ∨ d.deptype = 'i') → object.covers d.referenced →
      objectAddressPresent d.depender okt = true)
    (hx : AutoReachable rel object x) : objectAddressPresent x okt = true := by
  induction hx with
  | edge hd ht hc => exact hdeps _ hd ht hc
  | step _ hd ht hc ih => exact hclosed _ ih _ hd ht hc

/-- **The pre-scan closes its list.** For every live catalog, object, `addself`
and closed list, a call given two more fuel than there are live entries does
not run out of fuel. A call that returns has appended its object (when
`addself` and the object was not present) and then only objects reachable from
it through AUTO or INTERNAL entries; everything so reachable is present in the
list it returns, and that list is closed. -/
theorem findAutoDeletableObjects_closes (env : DropEnv) (s : DropState)
    (object : ObjectAddress) (oktodelete : ObjectAddresses) (addself : Bool)
    (hclosed : AutoClosed (s.depRel.map HeapTuple.form) oktodelete) :
    (∀ fuel, s.depRel.length + 1 < fuel →
      raised (findAutoDeletableObjects env fuel object oktodelete addself s) ≠
        some .outOfFuel) ∧
    ∀ fuel okt' s', findAutoDeletableObjects env fuel object oktodelete addself s = .ok okt' s' →
      (∃ rest, okt'.items = oktodelete.items ++
          (if addself && !objectAddressPresent object oktodelete then [object] else []) ++ rest ∧
        ∀ x ∈ rest, AutoReachable (s.depRel.map HeapTuple.form) object x) ∧
      (∀ x, AutoReachable (s.depRel.map HeapTuple.form) object x →
        objectAddressPresent x okt' = true) ∧
      AutoClosed (s.depRel.map HeapTuple.form) okt' := by
  refine ⟨fun fuel => findAutoDeletableObjects_within_fuel env fuel object oktodelete addself s,
    fun fuel okt' s' h => ?_⟩
  have happ := findAutoDeletableObjects_appends env fuel object oktodelete addself h
  obtain ⟨hC, hdeps⟩ := findAutoDeletableObjects_closedExcept env fuel object oktodelete addself
    [] ((autoClosed_iff _ _).mp hclosed) h
  have hclosed' := (autoClosed_iff _ _).mpr hC
  refine ⟨happ, fun x hx => AutoReachable.present hclosed' (fun d hd ht hc => ?_) hx, hclosed'⟩
  cases hp : objectAddressPresent object oktodelete
  · exact hdeps hp d hd ht hc
  · obtain ⟨rest, hrest, -⟩ := happ
    exact objectAddressPresent_mono ⟨_, by rw [hrest, List.append_assoc]⟩
      (hclosed object hp d hd ht hc)

/-- Relation `81` is owned through an AUTO entry by column `1` of relation `80`,
and `80` by `81`: a cycle through a part of a whole object. Relation `82`
depends normally on `80`. -/
def autoLoopCatalog : List FormDataPgDepend :=
  [.ofAddresses (relationAddress 81) (columnAddress 80 1) 'a',
    .ofAddresses (relationAddress 80) (relationAddress 81) 'a',
    .ofAddresses (relationAddress 82) (relationAddress 80) 'n']

theorem findAutoDeletableObjects_closes_loop :
    AutoClosed ((DropState.init autoLoopCatalog).depRel.map HeapTuple.form) newObjectAddresses ∧
    (∀ fuel, (DropState.init autoLoopCatalog).depRel.length + 1 < fuel →
      raised (findAutoDeletableObjects (exampleEnv fun _ => 0) fuel (relationAddress 80)
        newObjectAddresses true (DropState.init autoLoopCatalog)) ≠ some .outOfFuel) ∧
    ∀ fuel okt' s', findAutoDeletableObjects (exampleEnv fun _ => 0) fuel (relationAddress 80)
        newObjectAddresses true (DropState.init autoLoopCatalog) = .ok okt' s' →
      (∃ rest, okt'.items = newObjectAddresses.items ++
          (if true && !objectAddressPresent (relationAddress 80) newObjectAddresses then
            [relationAddress 80] else []) ++ rest ∧
        ∀ x ∈ rest, AutoReachable ((DropState.init autoLoopCatalog).depRel.map HeapTuple.form)
          (relationAddress 80) x) ∧
      (∀ x, AutoReachable ((DropState.init autoLoopCatalog).depRel.map HeapTuple.form)
        (relationAddress 80) x → objectAddressPresent x okt' = true) ∧
      AutoClosed ((DropState.init autoLoopCatalog).depRel.map HeapTuple.form) okt' :=
  have h := autoClosed_newObjectAddresses ((DropState.init autoLoopCatalog).depRel.map
    HeapTuple.form)
  ⟨h, findAutoDeletableObjects_closes (exampleEnv fun _ => 0) (DropState.init autoLoopCatalog)
    (relationAddress 80) newObjectAddresses true h⟩

end CatalogDependency
