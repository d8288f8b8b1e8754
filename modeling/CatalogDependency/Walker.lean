import CatalogDependency.ObjectAddress

/-!
`find_expr_references_walker`: the scan of an expression or query tree for the
catalog objects it refers to.

The walker keeps its scope in the mutable `context->rtables`: a `Query` pushes
its range table and pops it after its children, and a `Var` of a join
evaluates the join's alias expression with the stack cut to the join's level,
restoring it afterwards. `exprRefs` says what the walker computes without any
mutable state: the references of a node in a range-table stack, the stack
passed down as an argument. `findExprReferencesWalker_refines` shows, at every
fuel, that a run of the walker appends exactly the `exprRefs` list, returns
`false`, and leaves the stack as it found it, or raises the same error.

`query_tree_walker` and `expression_tree_walker` are not in this file. They
call the walker on a node's sub-expressions in order and stop at the first
`true`. A node here carries those sub-expressions as its children: a query's
parts and its range-table entries' expressions, without the join alias lists
(`QTW_IGNORE_JOINALIASES`). The alias expression that a join `Var` reaches
is not a subterm of the `Var`, so recursion is bounded by fuel.
-/

namespace CatalogDependency

/-! ## Expression trees -/

/-- The nodes, other than `Var`, `Const` and `Query`, whose fields the walker's
`IsA` chain reads, with those fields. -/
inductive ExprKind where
  | param (paramtype : Oid)
  | funcExpr (funcid : Oid)
  | opExpr (opno : Oid)
  | distinctExpr (opno : Oid)
  | scalarArrayOpExpr (opno : Oid)
  | nullIfExpr (opno : Oid)
  | aggref (aggfnoid : Oid)
  | windowRef (winfnoid : Oid)
  /-- An already-planned subquery (`is_subplan`). -/
  | subPlan
  | relabelType (resulttype : Oid)
  | convertRowtypeExpr (resulttype : Oid)
  | rowExpr (rowTypeid : Oid)
  | rowCompareExpr (opnos opclasses : List Oid)
  | coerceToDomain (resulttype : Oid)
  /-- Any node the chain does not name. -/
  | other
  deriving DecidableEq, Repr

mutual
/-- Expression and query trees. -/
inductive Node where
  /-- `Var`: range-table index, attribute number (`AttrNumber`, signed) and
  the number of query levels up. -/
  | var (varno : Nat) (varattno : Int) (varlevelsup : Nat)
  | const (consttype : Oid) (constisnull : Bool) (constvalue : Oid)
  /-- `Query`: its range table and its other parts. -/
  | query (rtable : List RangeTblEntry) (parts : List Node)
  /-- Any other node, with the sub-expressions `expression_tree_walker` visits. -/
  | expr (kind : ExprKind) (args : List Node)

/-- `RangeTblEntry`, by `rtekind`, with the fields the walkers read. -/
inductive RangeTblEntry where
  | relation (relid : Oid)
  | subquery (subquery : Node)
  /-- `RTE_JOIN`, whose alias list holds one expression per output column. -/
  | join (joinaliasvars : List Node)
  | function (funcexpr : Node) (funccoltypes : List Oid)
  | tableFunction (subquery funcexpr : Node) (funccoltypes : List Oid)
  /-- Any other kind, with the expressions `range_table_walker` visits. -/
  | other (exprs : List Node)
end

instance : Inhabited Node := ⟨Node.expr ExprKind.other []⟩

instance : Inhabited RangeTblEntry := ⟨RangeTblEntry.other []⟩

/-- What `range_table_walker` visits in an entry, join alias lists excluded. -/
def RangeTblEntry.walkedExprs : RangeTblEntry → List Node
  | .relation _ => []
  | .subquery sub => [sub]
  | .join _ => []
  | .function funcexpr _ => [funcexpr]
  | .tableFunction sub funcexpr _ => [sub, funcexpr]
  | .other exprs => exprs

/-- The children `query_tree_walker` visits: the query's parts, then the
expressions of its range table. -/
def queryChildren (rtable : List RangeTblEntry) (parts : List Node) : List Node :=
  parts ++ rtable.flatMap RangeTblEntry.walkedExprs

/-! ## The discovery table -/

/-- The catalog facts the walker reads that live outside this file: the
`object_classes` table, the OIDs of the OID-alias types (`pg_type.h`) and the
`caql_getcount` existence lookups in `pg_proc`, `pg_operator`, `pg_class` and
`pg_type`. -/
structure ExprEnv where
  objectClasses : ObjectClass → Oid
  regprocoid : Oid
  regprocedureoid : Oid
  regoperoid : Oid
  regoperatoroid : Oid
  regclassoid : Oid
  regtypeoid : Oid
  objectExists : ObjectClass → Oid → Bool

/-- The `add_object_address` calls for a node of the `IsA` chain, in order,
each with sub-object `0`; `none` where the walker raises "already-planned
subqueries not supported". -/
def ExprKind.references : ExprKind → Option (List (ObjectClass × Oid))
  | .param paramtype => some [(.oclassType, paramtype)]
  | .funcExpr funcid => some [(.oclassProc, funcid)]
  | .opExpr opno => some [(.oclassOperator, opno)]
  | .distinctExpr opno => some [(.oclassOperator, opno)]
  | .scalarArrayOpExpr opno => some [(.oclassOperator, opno)]
  | .nullIfExpr opno => some [(.oclassOperator, opno)]
  | .aggref aggfnoid => some [(.oclassProc, aggfnoid)]
  | .windowRef winfnoid => some [(.oclassProc, winfnoid)]
  | .subPlan => none
  | .relabelType resulttype => some [(.oclassType, resulttype)]
  | .convertRowtypeExpr resulttype => some [(.oclassType, resulttype)]
  | .rowExpr rowTypeid => some [(.oclassType, rowTypeid)]
  | .rowCompareExpr opnos opclasses =>
    some (opnos.map (fun opno => (.oclassOperator, opno)) ++
      opclasses.map (fun opclass => (.oclassOpclass, opclass)))
  | .coerceToDomain resulttype => some [(.oclassType, resulttype)]
  | .other => some []

/-- The `add_object_address` calls for a `Const`: its type, then, for a
non-null literal of an OID-alias type, the object it names if the catalog has
it. -/
def constReferences (env : ExprEnv) (consttype : Oid) (constisnull : Bool)
    (constvalue : Oid) : List (ObjectClass × Oid) :=
  let lookup (oclass : ObjectClass) : List (ObjectClass × Oid) :=
    if env.objectExists oclass constvalue then [(oclass, constvalue)] else []
  (.oclassType, consttype) ::
    if constisnull then []
    else if consttype = env.regprocoid ∨ consttype = env.regprocedureoid then lookup .oclassProc
    else if consttype = env.regoperoid ∨ consttype = env.regoperatoroid then
      lookup .oclassOperator
    else if consttype = env.regclassoid then lookup .oclassClass
    else if consttype = env.regtypeoid then lookup .oclassType
    else []

/-- The `add_object_address` calls of the `Query` case for one range-table
entry: the relation of a plain relation entry, the column types of a function
entry. -/
def RangeTblEntry.queryReferences : RangeTblEntry → List (ObjectClass × Oid)
  | .relation relid => [(.oclassClass, relid)]
  | .function _ funccoltypes => funccoltypes.map (fun t => (.oclassType, t))
  | .tableFunction _ _ funccoltypes => funccoltypes.map (fun t => (.oclassType, t))
  | _ => []

/-- An environment for concrete scans: class OIDs `1, 2, ...` in the order of
`ObjectClass`, OID-alias type OIDs of its own, and a catalog that has every
object. -/
def exampleExprEnv : ExprEnv where
  objectClasses c := c.toCtorIdx + 1
  regprocoid := 101
  regprocedureoid := 102
  regoperoid := 103
  regoperatoroid := 104
  regclassoid := 105
  regtypeoid := 106
  objectExists _ _ := true

/-- The address `add_object_address` records for a call with sub-object `0`. -/
def ExprEnv.toAddress (env : ExprEnv) (r : ObjectClass × Oid) : ObjectAddress :=
  ⟨env.objectClasses r.1, r.2, 0⟩

/-! ## The walker -/

/-- The errors the walker raises. -/
inductive WalkError where
  /-- "invalid varlevelsup %d" -/
  | invalidVarlevelsup (varlevelsup : Nat)
  /-- "invalid varno %d" -/
  | invalidVarno (varno : Nat)
  /-- "invalid varattno %d" -/
  | invalidVarattno (varattno : Int)
  /-- "already-planned subqueries not supported" -/
  | subplanNotSupported
  /-- The model's recursion bound is exhausted. -/
  | outOfFuel
  deriving DecidableEq, Repr

/-- `find_expr_references_context`. -/
structure FindExprReferencesContext where
  addrs : ObjectAddresses
  /-- The range tables of the enclosing queries, innermost first. -/
  rtables : List (List RangeTblEntry)

/-- Walker computations: they update the context, and `elog(ERROR)` raises. -/
abbrev WalkM := EStateM WalkError FindExprReferencesContext

section Walker

variable (env : ExprEnv)

/-- `add_object_address` on `context->addrs`. -/
def addObjectAddressM (oclass : ObjectClass) (objectId : Oid) (subId : BitVec 32) : WalkM Unit :=
  modify fun c => { c with addrs := addObjectAddress env.objectClasses oclass objectId subId c.addrs }

/-- A sequence of `add_object_address` calls with sub-object `0`. -/
def addReferences (refs : List (ObjectClass × Oid)) : WalkM Unit :=
  refs.forM fun r => addObjectAddressM env r.1 r.2 0

/-- `find_expr_references_walker`. -/
def findExprReferencesWalker : Nat → Node → WalkM Bool
  | 0, _ => throw .outOfFuel
  | fuel + 1, .var varno varattno varlevelsup => do
    let context ← get
    if varlevelsup ≥ context.rtables.length then
      throw (.invalidVarlevelsup varlevelsup)
    else
      let rtable := context.rtables.getD varlevelsup []
      if varno = 0 ∨ varno > rtable.length then
        throw (.invalidVarno varno)
      -- A whole-row Var references no specific columns.
      else if varattno = 0 then
        pure false
      else
        match rtable.getD (varno - 1) default with
        | .relation relid =>
          addObjectAddressM env .oclassClass relid (BitVec.ofInt 32 varattno)
          pure false
        | .join joinaliasvars =>
          -- Scan the join output column at the join's level, then restore the stack.
          let saveRtables := context.rtables
          modify fun c => { c with rtables := saveRtables.drop varlevelsup }
          if varattno ≤ 0 ∨ varattno > joinaliasvars.length then
            throw (.invalidVarattno varattno)
          else
            let _ ← findExprReferencesWalker fuel (joinaliasvars.getD (varattno - 1).toNat default)
            modify fun c => { c with rtables := saveRtables }
            pure false
        | _ => pure false
  | _ + 1, .const consttype constisnull constvalue => do
    addReferences env (constReferences env consttype constisnull constvalue)
    pure false
  | fuel + 1, .query rtable parts => do
    rtable.forM fun rte => addReferences env rte.queryReferences
    modify fun c => { c with rtables := rtable :: c.rtables }
    let result ← (queryChildren rtable parts).anyM (findExprReferencesWalker fuel)
    modify fun c => { c with rtables := c.rtables.tail }
    pure result
  | fuel + 1, .expr kind args =>
    match kind.references with
    | none => throw .subplanNotSupported
    | some refs => do
      addReferences env refs
      args.anyM (findExprReferencesWalker fuel)

end Walker

/-! ## References in a range-table stack -/

/-- The range-table entry that the `Var` of index `varno` and level
`varlevelsup` names in the stack `rtables`, or the error the walker raises. -/
def resolveVar (rtables : List (List RangeTblEntry)) (varno varlevelsup : Nat) :
    Except WalkError RangeTblEntry :=
  match rtables[varlevelsup]? with
  | none => .error (.invalidVarlevelsup varlevelsup)
  | some rtable =>
    match (if varno = 0 then none else rtable[varno - 1]?) with
    | none => .error (.invalidVarno varno)
    | some rte => .ok rte

/-- The references of a node evaluated in the range-table stack `rtables`, by
the spec's discovery table. A `Query` contributes its plain relations and the
column types of its function entries, then its children in the stack with its
range table pushed. A `Var` contributes its column when it resolves to a plain
relation, and the references of the join's alias expression, in the stack cut
to the join's level, when it resolves to a join. -/
def exprRefs (env : ExprEnv) : Nat → Node → List (List RangeTblEntry) →
    Except WalkError (List ObjectAddress)
  | 0, _, _ => .error .outOfFuel
  | fuel + 1, .var varno varattno varlevelsup, rtables =>
    match resolveVar rtables varno varlevelsup with
    | .error e => .error e
    | .ok rte =>
      if varattno = 0 then .ok []
      else match rte with
        | .relation relid => .ok [⟨env.objectClasses .oclassClass, relid, BitVec.ofInt 32 varattno⟩]
        | .join joinaliasvars =>
          match (if varattno ≤ 0 then none else joinaliasvars[(varattno - 1).toNat]?) with
          | none => .error (.invalidVarattno varattno)
          | some aliasExpr => exprRefs env fuel aliasExpr (rtables.drop varlevelsup)
        | _ => .ok []
  | _ + 1, .const consttype constisnull constvalue, _ =>
    .ok ((constReferences env consttype constisnull constvalue).map env.toAddress)
  | fuel + 1, .query rtable parts, rtables =>
    ((queryChildren rtable parts).mapM (exprRefs env fuel · (rtable :: rtables))).map
      fun inner => (rtable.flatMap RangeTblEntry.queryReferences).map env.toAddress ++ inner.flatten
  | fuel + 1, .expr kind args, rtables =>
    match kind.references with
    | none => .error .subplanNotSupported
    | some refs =>
      (args.mapM (exprRefs env fuel · rtables)).map fun inner => refs.map env.toAddress ++ inner.flatten

/-! ## The walker refines `exprRefs` -/

variable {α β : Type}

theorem walk_bind_ok {x : WalkM α} {f : α → WalkM β} {c c₁ : FindExprReferencesContext} {a : α}
    (h : x c = .ok a c₁) : (x >>= f) c = f a c₁ := by
  show EStateM.bind x f c = _
  simp [EStateM.bind, h]

theorem walk_bind_error {x : WalkM α} {f : α → WalkM β} {c c₁ : FindExprReferencesContext}
    {e : WalkError} (h : x c = .error e c₁) : (x >>= f) c = .error e c₁ := by
  show EStateM.bind x f c = _
  simp [EStateM.bind, h]

section Refinement

variable (env : ExprEnv)

theorem addObjectAddressM_run (oclass : ObjectClass) (objectId : Oid) (subId : BitVec 32)
    (c : FindExprReferencesContext) :
    addObjectAddressM env oclass objectId subId c =
      .ok () { c with addrs := c.addrs.push ⟨env.objectClasses oclass, objectId, subId⟩ } :=
  rfl

theorem addReferences_run (refs : List (ObjectClass × Oid)) (addrs : ObjectAddresses)
    (rtables : List (List RangeTblEntry)) :
    addReferences env refs ⟨addrs, rtables⟩ =
      .ok () ⟨addrs.pushAll (refs.map env.toAddress), rtables⟩ := by
  induction refs generalizing addrs with
  | nil => rfl
  | cons r refs ih =>
    simp only [addReferences, List.forM] at ih ⊢
    rw [walk_bind_ok (addObjectAddressM_run env _ _ _ _)]
    exact ih _

theorem forM_queryReferences_run (rtable : List RangeTblEntry) (addrs : ObjectAddresses)
    (rtables : List (List RangeTblEntry)) :
    (rtable.forM fun rte => addReferences env rte.queryReferences) ⟨addrs, rtables⟩ =
      .ok () ⟨addrs.pushAll ((rtable.flatMap RangeTblEntry.queryReferences).map env.toAddress),
        rtables⟩ := by
  induction rtable generalizing addrs with
  | nil => rfl
  | cons rte rtable ih =>
    rw [List.forM, walk_bind_ok (addReferences_run env _ _ _), ih, List.flatMap_cons,
      List.map_append, ObjectAddresses.pushAll_append]

/-- A walker run from a stack `rtables` matches the reference list `r`: when `r`
is a list, the run returns `false`, has appended exactly that list, and ends
with the stack it started from; when `r` is an error, the run raises it. -/
def WalkMatches (m : WalkM Bool) (rtables : List (List RangeTblEntry)) :
    Except WalkError (List ObjectAddress) → Prop
  | .ok refs => ∀ addrs, m ⟨addrs, rtables⟩ = .ok false ⟨addrs.pushAll refs, rtables⟩
  | .error e => ∀ addrs, ∃ c, m ⟨addrs, rtables⟩ = .error e c

/-- The children loop: `anyM` over the walker matches the concatenated lists. -/
theorem anyM_walkMatches (f : Node → WalkM Bool) (g : Node → Except WalkError (List ObjectAddress))
    (rtables : List (List RangeTblEntry)) :
    ∀ ns : List Node, (∀ n ∈ ns, WalkMatches (f n) rtables (g n)) →
      WalkMatches (ns.anyM f) rtables ((ns.mapM g).map List.flatten)
  | [], _ => fun addrs => rfl
  | n :: ns, h => by
    have hn := h n (List.mem_cons_self n ns)
    have hns := anyM_walkMatches f g rtables ns fun m hm => h m (List.mem_cons_of_mem n hm)
    rw [List.mapM_cons]
    cases hg : g n with
    | error e =>
      rw [hg] at hn
      intro addrs
      obtain ⟨c, hc⟩ := hn addrs
      exact ⟨c, by simp only [List.anyM]; rw [walk_bind_error hc]⟩
    | ok l =>
      rw [hg] at hn
      cases hgs : ns.mapM g with
      | error e =>
        rw [hgs] at hns
        intro addrs
        obtain ⟨c, hc⟩ := hns (addrs.pushAll l)
        exact ⟨c, by simp only [List.anyM]; rw [walk_bind_ok (hn addrs)]; exact hc⟩
      | ok inner =>
        rw [hgs] at hns
        intro addrs
        simp only [List.anyM]
        rw [walk_bind_ok (hn addrs)]
        simpa [ObjectAddresses.pushAll_append] using hns (addrs.pushAll l)

@[simp] theorem walk_get_bind {k : FindExprReferencesContext → WalkM β} (c : FindExprReferencesContext) :
    (get >>= k) c = k c c := rfl

@[simp] theorem walk_modify_bind {k : PUnit → WalkM β} (f : FindExprReferencesContext → FindExprReferencesContext)
    (c : FindExprReferencesContext) : (modify f >>= k) c = k ⟨⟩ (f c) := rfl

/-- `resolveVar` makes the walker's two checks, in its order, and finds the
entry the walker reads. -/
theorem resolveVar_cases (rtables : List (List RangeTblEntry)) (varno varlevelsup : Nat) :
    (varlevelsup ≥ rtables.length ∧
        resolveVar rtables varno varlevelsup = .error (.invalidVarlevelsup varlevelsup)) ∨
      (¬ varlevelsup ≥ rtables.length ∧ (varno = 0 ∨ varno > (rtables.getD varlevelsup []).length) ∧
        resolveVar rtables varno varlevelsup = .error (.invalidVarno varno)) ∨
      (¬ varlevelsup ≥ rtables.length ∧ ¬ (varno = 0 ∨ varno > (rtables.getD varlevelsup []).length) ∧
        resolveVar rtables varno varlevelsup =
          .ok ((rtables.getD varlevelsup []).getD (varno - 1) default)) := by
  unfold resolveVar
  by_cases hk : varlevelsup ≥ rtables.length
  · exact .inl ⟨hk, by rw [List.getElem?_eq_none hk]⟩
  rw [List.getElem?_eq_getElem (by omega), List.getD_eq_getElem _ _ (by omega)]
  dsimp only
  by_cases hv : varno = 0 ∨ varno > rtables[varlevelsup].length
  · refine .inr (.inl ⟨hk, hv, ?_⟩)
    by_cases h0 : varno = 0
    · simp only [h0, if_true]
    · rw [if_neg h0, List.getElem?_eq_none (show rtables[varlevelsup].length ≤ varno - 1 by omega)]
  · refine .inr (.inr ⟨hk, hv, ?_⟩)
    have hlt : varno - 1 < rtables[varlevelsup].length := by omega
    rw [if_neg (show varno ≠ 0 by omega), List.getElem?_eq_getElem hlt, List.getD_eq_getElem _ _ hlt]

theorem walker_matches : ∀ (fuel : Nat) (node : Node) (rtables : List (List RangeTblEntry)),
    WalkMatches (findExprReferencesWalker env fuel node) rtables (exprRefs env fuel node rtables)
  | 0, _, _ => fun _ => ⟨_, rfl⟩
  | fuel + 1, .var varno varattno varlevelsup, rtables => by
    simp only [findExprReferencesWalker, exprRefs]
    rcases resolveVar_cases rtables varno varlevelsup with ⟨hk, hr⟩ | ⟨hk, hv, hr⟩ | ⟨hk, hv, hr⟩ <;>
      rw [hr]
    · exact fun addrs => ⟨_, by rw [walk_get_bind, if_pos hk]; rfl⟩
    · exact fun addrs => ⟨_, by rw [walk_get_bind]; simp only [if_neg hk, if_pos hv]; rfl⟩
    -- the entry is found, and the walker reads it as `exprRefs` does
    simp only
    by_cases ha : varattno = 0
    · simp only [ha, if_true]
      intro addrs
      rw [walk_get_bind]
      simp only [if_neg hk, if_neg hv, ha, if_true]
      rfl
    simp only [if_neg ha]
    cases hrte : (rtables.getD varlevelsup []).getD (varno - 1) default with
    | join aliases =>
      by_cases hal : varattno ≤ 0 ∨ varattno > aliases.length
      · have hnone : (if varattno ≤ 0 then none else aliases[(varattno - 1).toNat]?) = none := by
          split_ifs with h0
          · rfl
          · exact List.getElem?_eq_none (by omega)
        simp only [hnone]
        intro addrs
        exact ⟨_, by
          rw [walk_get_bind]
          simp only [if_neg hk, if_neg hv, if_neg ha, hrte]
          rw [walk_modify_bind, if_pos hal]
          rfl⟩
      have hlt : (varattno - 1).toNat < aliases.length := by omega
      have hsome : (if varattno ≤ 0 then none else aliases[(varattno - 1).toNat]?) =
          some aliases[(varattno - 1).toNat] := by
        rw [if_neg (by omega), List.getElem?_eq_getElem hlt]
      have hget : aliases.getD (varattno - 1).toNat default = aliases[(varattno - 1).toNat] :=
        List.getD_eq_getElem _ _ hlt
      simp only [hsome]
      -- the alias expression, read in the stack cut to the join's level
      have ih := walker_matches fuel aliases[(varattno - 1).toNat] (rtables.drop varlevelsup)
      cases hrefs : exprRefs env fuel aliases[(varattno - 1).toNat] (rtables.drop varlevelsup) with
      | error e =>
        rw [hrefs] at ih
        intro addrs
        obtain ⟨c, hc⟩ := ih addrs
        exact ⟨c, by
          rw [walk_get_bind]
          simp only [if_neg hk, if_neg hv, if_neg ha, hrte]
          rw [walk_modify_bind, if_neg hal, hget, walk_bind_error hc]⟩
      | ok l =>
        rw [hrefs] at ih
        intro addrs
        rw [walk_get_bind]
        simp only [if_neg hk, if_neg hv, if_neg ha, hrte]
        rw [walk_modify_bind, if_neg hal, hget, walk_bind_ok (ih addrs), walk_modify_bind]
        rfl
    | _ =>
      intro addrs
      rw [walk_get_bind]
      simp only [if_neg hk, if_neg hv, if_neg ha, hrte]
      rfl
  | fuel + 1, .const consttype constisnull constvalue, rtables => fun addrs => by
    simp only [findExprReferencesWalker, exprRefs, WalkMatches]
    rw [walk_bind_ok (addReferences_run env _ _ _)]
    rfl
  | fuel + 1, .query rtable parts, rtables => by
    have hc := anyM_walkMatches (findExprReferencesWalker env fuel) (exprRefs env fuel · (rtable :: rtables))
      (rtable :: rtables) (queryChildren rtable parts) fun n _ => walker_matches fuel n _
    simp only [findExprReferencesWalker, exprRefs]
    cases hm : (queryChildren rtable parts).mapM (exprRefs env fuel · (rtable :: rtables)) with
    | error e =>
      rw [hm] at hc
      intro addrs
      obtain ⟨c, hcc⟩ := hc (addrs.pushAll _)
      exact ⟨c, by rw [walk_bind_ok (forM_queryReferences_run env _ _ _), walk_modify_bind,
        walk_bind_error hcc]⟩
    | ok inner =>
      rw [hm] at hc
      intro addrs
      rw [walk_bind_ok (forM_queryReferences_run env _ _ _), walk_modify_bind,
        walk_bind_ok (by simpa using hc (addrs.pushAll _)), walk_modify_bind]
      simp [ObjectAddresses.pushAll_append]
      rfl
  | fuel + 1, .expr kind args, rtables => by
    have hc := anyM_walkMatches (findExprReferencesWalker env fuel) (exprRefs env fuel · rtables)
      rtables args fun n _ => walker_matches fuel n _
    simp only [findExprReferencesWalker, exprRefs]
    cases hk : kind.references with
    | none => exact fun addrs => ⟨_, rfl⟩
    | some refs =>
      cases hm : args.mapM (exprRefs env fuel · rtables) with
      | error e =>
        rw [hm] at hc
        intro addrs
        obtain ⟨c, hcc⟩ := hc (addrs.pushAll _)
        exact ⟨c, by simp only; rw [walk_bind_ok (addReferences_run env _ _ _)]; exact hcc⟩
      | ok inner =>
        rw [hm] at hc
        intro addrs
        simp only
        rw [walk_bind_ok (addReferences_run env _ _ _)]
        simpa [ObjectAddresses.pushAll_append] using hc (addrs.pushAll _)

end Refinement

/-- **The walker computes `exprRefs`.** From any context, a run of
`find_expr_references_walker` on any node, at any fuel, raises exactly the
error `exprRefs` raises; otherwise it returns `false` after appending exactly
the addresses `exprRefs` lists, in order, and the range-table stack it ends
with is the one it started from. -/
theorem findExprReferencesWalker_refines (env : ExprEnv) (fuel : Nat) (node : Node)
    (rtables : List (List RangeTblEntry)) (addrs : ObjectAddresses) :
    match exprRefs env fuel node rtables with
    | .ok refs => findExprReferencesWalker env fuel node ⟨addrs, rtables⟩ =
        .ok false ⟨addrs.pushAll refs, rtables⟩
    | .error e => ∃ c, findExprReferencesWalker env fuel node ⟨addrs, rtables⟩ = .error e c := by
  have h := walker_matches env fuel node rtables
  cases hr : exprRefs env fuel node rtables with
  | ok refs => rw [hr] at h; exact h addrs
  | error e => rw [hr] at h; exact h addrs

end CatalogDependency
