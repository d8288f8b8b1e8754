import CatalogDependency.Walker

/-!
When `find_expr_references_walker` terminates.

A `Var` that names a join sends the walker into the join's alias expression,
which is not part of the tree below the `Var`, so structural recursion does
not bound the walk. The parser builds each alias expression from `Var`s of
entries before the join in the same range table. Under that condition the
pair (depth of the named range table, index of the entry) decreases at every
jump (`aliasJump_decreases`), and the walk ends, returning or raising
(`findExprReferencesWalker_terminates`).

The parser also puts no subquery in an alias expression, and the walk needs
that too (`AliasesFlat`). A `Var` under a subquery in an alias expression is
read in a deeper stack. Its
level `0` is then not the join's range table, and it can name the join again
(`walker_loops_through_sublink_alias`).
-/

namespace CatalogDependency

/-! ## Nodes of a tree -/

mutual
/-- Every node of the tree, the root first, those under range-table entries
included. -/
def Node.subnodes : Node → List Node
  | .var varno varattno varlevelsup => [.var varno varattno varlevelsup]
  | .const consttype constisnull constvalue => [.const consttype constisnull constvalue]
  | .query rtable parts =>
    .query rtable parts :: (RangeTblEntry.subnodesList rtable ++ Node.subnodesList parts)
  | .expr kind args => .expr kind args :: Node.subnodesList args

/-- The nodes of a list of trees. -/
def Node.subnodesList : List Node → List Node
  | [] => []
  | n :: ns => n.subnodes ++ Node.subnodesList ns

/-- The nodes under a range-table entry. -/
def RangeTblEntry.subnodes : RangeTblEntry → List Node
  | .relation _ => []
  | .subquery sub => sub.subnodes
  | .join joinaliasvars => Node.subnodesList joinaliasvars
  | .function funcexpr _ => funcexpr.subnodes
  | .tableFunction sub funcexpr _ => sub.subnodes ++ funcexpr.subnodes
  | .other exprs => Node.subnodesList exprs

/-- The nodes under the entries of a range table. -/
def RangeTblEntry.subnodesList : List RangeTblEntry → List Node
  | [] => []
  | rte :: rtable => rte.subnodes ++ RangeTblEntry.subnodesList rtable
end

theorem Node.subnodesList_eq (ns : List Node) : Node.subnodesList ns = ns.flatMap Node.subnodes := by
  induction ns with
  | nil => rfl
  | cons n ns ih => rw [Node.subnodesList, ih, List.flatMap_cons]

theorem RangeTblEntry.subnodesList_eq (rtable : List RangeTblEntry) :
    RangeTblEntry.subnodesList rtable = rtable.flatMap RangeTblEntry.subnodes := by
  induction rtable with
  | nil => rfl
  | cons rte rtable ih => rw [RangeTblEntry.subnodesList, ih, List.flatMap_cons]

theorem subnodes_subset_flatMap {α : Type} {f : α → List Node} {a : α} {l : List α}
    (h : a ∈ l) : f a ⊆ l.flatMap f :=
  fun _ hx => List.mem_flatMap.mpr ⟨a, h, hx⟩

theorem Node.mem_subnodes_self (n : Node) : n ∈ n.subnodes := by
  cases n <;> simp [Node.subnodes]

theorem Node.subnodes_expr (kind : ExprKind) (args : List Node) :
    (Node.expr kind args).subnodes = .expr kind args :: args.flatMap Node.subnodes := by
  rw [Node.subnodes, Node.subnodesList_eq]

theorem Node.subnodes_query (rtable : List RangeTblEntry) (parts : List Node) :
    (Node.query rtable parts).subnodes =
      .query rtable parts :: (rtable.flatMap RangeTblEntry.subnodes ++ parts.flatMap Node.subnodes) := by
  rw [Node.subnodes, Node.subnodesList_eq, RangeTblEntry.subnodesList_eq]

theorem RangeTblEntry.subnodes_of_mem_walkedExprs {rte : RangeTblEntry} {c : Node}
    (h : c ∈ rte.walkedExprs) : c.subnodes ⊆ rte.subnodes := by
  cases rte with
  | relation | join => cases h
  | subquery sub => rw [List.mem_singleton.mp h]; exact List.Subset.refl _
  | function funcexpr _ => rw [List.mem_singleton.mp h]; exact List.Subset.refl _
  | tableFunction sub funcexpr _ =>
    rcases List.mem_cons.mp h with rfl | h
    · exact List.subset_append_left _ _
    · rw [List.mem_singleton.mp h]; exact List.subset_append_right _ _
  | other exprs =>
    rw [RangeTblEntry.subnodes, Node.subnodesList_eq]
    exact subnodes_subset_flatMap h

theorem Node.subnodes_of_mem_args {kind : ExprKind} {args : List Node} {c : Node} (h : c ∈ args) :
    c.subnodes ⊆ (Node.expr kind args).subnodes := by
  rw [Node.subnodes_expr]
  exact List.Subset.trans (subnodes_subset_flatMap h) (List.subset_cons_self _ _)

theorem Node.subnodes_of_mem_queryChildren {rtable : List RangeTblEntry} {parts : List Node}
    {c : Node} (h : c ∈ queryChildren rtable parts) :
    c.subnodes ⊆ (Node.query rtable parts).subnodes := by
  rw [Node.subnodes_query]
  refine List.Subset.trans ?_ (List.subset_cons_self _ _)
  rcases List.mem_append.mp h with h | h
  · exact List.Subset.trans (subnodes_subset_flatMap h) (List.subset_append_right _ _)
  · obtain ⟨rte, hrte, hc⟩ := List.mem_flatMap.mp h
    exact List.Subset.trans (List.Subset.trans (RangeTblEntry.subnodes_of_mem_walkedExprs hc)
      (subnodes_subset_flatMap hrte)) (List.subset_append_left _ _)

theorem Node.sizeOf_lt_of_mem_args (kind : ExprKind) {args : List Node} {c : Node}
    (h : c ∈ args) : sizeOf c < sizeOf (Node.expr kind args) := by
  have := List.sizeOf_lt_of_mem h
  simp only [Node.expr.sizeOf_spec]
  omega

theorem RangeTblEntry.sizeOf_lt_of_mem_walkedExprs {rte : RangeTblEntry} {c : Node}
    (h : c ∈ rte.walkedExprs) : sizeOf c < sizeOf rte := by
  cases rte with
  | relation | join => cases h
  | subquery sub =>
    rw [List.mem_singleton.mp h, RangeTblEntry.subquery.sizeOf_spec]; omega
  | function funcexpr _ =>
    rw [List.mem_singleton.mp h, RangeTblEntry.function.sizeOf_spec]; omega
  | tableFunction sub funcexpr _ =>
    rw [RangeTblEntry.tableFunction.sizeOf_spec]
    rcases List.mem_cons.mp h with rfl | h
    · omega
    · rw [List.mem_singleton.mp h]; omega
  | other exprs =>
    have := List.sizeOf_lt_of_mem (show c ∈ exprs from h)
    rw [RangeTblEntry.other.sizeOf_spec]
    omega

theorem Node.sizeOf_lt_of_mem_queryChildren {rtable : List RangeTblEntry} {parts : List Node}
    {c : Node} (h : c ∈ queryChildren rtable parts) : sizeOf c < sizeOf (Node.query rtable parts) := by
  simp only [Node.query.sizeOf_spec]
  rcases List.mem_append.mp h with h | h
  · have := List.sizeOf_lt_of_mem h
    omega
  · obtain ⟨rte, hrte, hc⟩ := List.mem_flatMap.mp h
    have := List.sizeOf_lt_of_mem hrte
    have := RangeTblEntry.sizeOf_lt_of_mem_walkedExprs hc
    omega

/-! ## The parser's condition on join alias lists -/

/-- The alias list of a join entry; other entries have none. -/
def RangeTblEntry.joinAliases : RangeTblEntry → List Node
  | .join joinaliasvars => joinaliasvars
  | _ => []

/-- The index of a `Var` of level `0`. -/
def Node.levelZeroVarno : Node → Option Nat
  | .var varno _ 0 => some varno
  | _ => none

/-- The range table of a `Query`. -/
def Node.queryRtable : Node → Option (List RangeTblEntry)
  | .query rtable _ => some rtable
  | _ => none

/-- The node is a `Query`. -/
def Node.isQuery : Node → Bool
  | .query .. => true
  | _ => false

/-- The alias lists of a range table name only earlier entries, as the parser
builds them: a `Var` of level `0` in the alias list of the join at index
`i + 1` names an entry of smaller index. -/
def AliasesOrdered (rtable : List RangeTblEntry) : Prop :=
  ∀ i (h : i < rtable.length), ∀ a ∈ rtable[i].joinAliases, ∀ n ∈ a.subnodes,
    ∀ v ∈ n.levelZeroVarno, v ≤ i

instance (rtable : List RangeTblEntry) : Decidable (AliasesOrdered rtable) :=
  Nat.decidableBallLT _ _

/-- No alias expression of the range table holds a subquery. -/
def AliasesFlat (rtable : List RangeTblEntry) : Prop :=
  ∀ i (h : i < rtable.length), ∀ a ∈ rtable[i].joinAliases, ∀ n ∈ a.subnodes,
    n.isQuery = false

instance (rtable : List RangeTblEntry) : Decidable (AliasesFlat rtable) :=
  Nat.decidableBallLT _ _

/-- The position of the entry a `Var` names: the depth of its range table,
counted from the outermost query, and its index. -/
def varPosition (rtables : List (List RangeTblEntry)) (varno varlevelsup : Nat) : Nat × Nat :=
  (rtables.length - varlevelsup, varno)

theorem resolveVar_eq_ok {rtables : List (List RangeTblEntry)} {varno varlevelsup : Nat}
    {rte : RangeTblEntry} :
    resolveVar rtables varno varlevelsup = .ok rte ↔
      ∃ (hk : varlevelsup < rtables.length) (hv : varno - 1 < rtables[varlevelsup].length),
        0 < varno ∧ rtables[varlevelsup][varno - 1] = rte := by
  unfold resolveVar
  by_cases hk : varlevelsup < rtables.length
  · rw [List.getElem?_eq_getElem hk]
    by_cases hv : varno = 0
    · simp [hv]
    · by_cases hv' : varno - 1 < rtables[varlevelsup].length
      · simp only [hv, if_false, List.getElem?_eq_getElem hv']
        exact ⟨fun h => ⟨hk, hv', Nat.pos_of_ne_zero hv, by cases h; rfl⟩,
          fun ⟨_, _, _, h⟩ => by rw [h]⟩
      · simp [hv, hv', List.getElem?_eq_none (Nat.le_of_not_lt hv')]
  · simp [List.getElem?_eq_none (Nat.le_of_not_lt hk), hk]

theorem resolveVar_ne_outOfFuel (rtables : List (List RangeTblEntry)) (varno varlevelsup : Nat) :
    resolveVar rtables varno varlevelsup ≠ .error .outOfFuel := by
  unfold resolveVar
  split
  · simp
  · split <;> simp

/-- **Jumps decrease.** In a stack whose alias lists name only earlier
entries, a `Var` of a join's alias expression, read in the stack cut to the
join's level, names an entry of smaller position than the join's. -/
theorem aliasJump_decreases {rtables : List (List RangeTblEntry)}
    (hstack : ∀ t ∈ rtables, AliasesOrdered t) {varno varlevelsup : Nat}
    {aliases : List Node} (hr : resolveVar rtables varno varlevelsup = .ok (.join aliases))
    {a : Node} (ha : a ∈ aliases) {varno' : Nat} {varattno' : Int} {varlevelsup' : Nat}
    (hv : Node.var varno' varattno' varlevelsup' ∈ a.subnodes) {rte' : RangeTblEntry}
    (hr' : resolveVar (rtables.drop varlevelsup) varno' varlevelsup' = .ok rte') :
    Prod.Lex (· < ·) (· < ·) (varPosition (rtables.drop varlevelsup) varno' varlevelsup')
      (varPosition rtables varno varlevelsup) := by
  obtain ⟨hk, hi, hpos, hjoin⟩ := resolveVar_eq_ok.mp hr
  obtain ⟨hk', -, hpos', -⟩ := resolveVar_eq_ok.mp hr'
  simp only [varPosition, List.length_drop] at hk' ⊢
  rcases Nat.eq_zero_or_pos varlevelsup' with rfl | hlevel
  · -- level 0: the same range table, an earlier entry
    have hord := hstack _ (List.getElem_mem hk) (varno - 1) hi a (by rw [hjoin]; exact ha) _ hv
      varno' rfl
    exact Prod.Lex.right _ (by omega)
  · -- an outer level: a shallower range table
    exact Prod.Lex.left _ _ (by omega)

/-! ## Termination -/

section Termination

variable (env : ExprEnv)

/-- With some fuel, and with any more, the references of `node` in `rtables`
are computed without running out of fuel. -/
def Terminates (node : Node) (rtables : List (List RangeTblEntry)) : Prop :=
  ∃ fuel₀, ∀ fuel ≥ fuel₀, exprRefs env fuel node rtables ≠ .error .outOfFuel

theorem mapM_ne_error {α : Type} {g : Node → Except WalkError α} {e : WalkError} :
    ∀ ns : List Node, (∀ n ∈ ns, g n ≠ .error e) → ns.mapM g ≠ .error e
  | [], _ => by rw [List.mapM_nil]; exact fun h => by cases h
  | n :: ns, h => by
    have hns := mapM_ne_error ns fun m hm => h m (List.mem_cons_of_mem n hm)
    rw [List.mapM_cons]
    cases hg : g n with
    | error e' => exact fun hc => h n (List.mem_cons_self n ns) (by cases hc; exact hg)
    | ok b =>
      cases hm : ns.mapM g with
      | error e' => exact fun hc => hns (by cases hc; exact hm)
      | ok bs => exact fun hc => by cases hc

theorem terminates_list {ns : List Node} {rtables : List (List RangeTblEntry)}
    (h : ∀ n ∈ ns, Terminates env n rtables) :
    ∃ fuel₀, ∀ fuel ≥ fuel₀, ∀ n ∈ ns, exprRefs env fuel n rtables ≠ .error .outOfFuel := by
  induction ns with
  | nil => exact ⟨0, fun _ _ n hn => absurd hn (List.not_mem_nil n)⟩
  | cons n ns ih =>
    obtain ⟨f₁, h₁⟩ := h n (List.mem_cons_self n ns)
    obtain ⟨f₂, h₂⟩ := ih fun m hm => h m (List.mem_cons_of_mem n hm)
    refine ⟨max f₁ f₂, fun fuel hf m hm => ?_⟩
    rcases List.mem_cons.mp hm with rfl | hm
    · exact h₁ fuel (by omega)
    · exact h₂ fuel (by omega) m hm

theorem exists_succ_of_ge {fuel fuel₀ : Nat} (h : fuel ≥ fuel₀ + 1) : ∃ f, fuel = f + 1 ∧ f ≥ fuel₀ :=
  ⟨fuel - 1, by omega, by omega⟩

theorem terminates_const (consttype : Oid) (constisnull : Bool) (constvalue : Oid)
    (rtables : List (List RangeTblEntry)) :
    Terminates env (.const consttype constisnull constvalue) rtables :=
  ⟨1, fun fuel hf => by
    obtain ⟨f, rfl, -⟩ := @exists_succ_of_ge _ 0 hf
    simp [exprRefs]⟩

theorem terminates_expr {kind : ExprKind} {args : List Node} {rtables : List (List RangeTblEntry)}
    (h : ∀ c ∈ args, Terminates env c rtables) : Terminates env (.expr kind args) rtables := by
  obtain ⟨f₀, hf₀⟩ := terminates_list env h
  refine ⟨f₀ + 1, fun fuel hf => ?_⟩
  obtain ⟨f, rfl, hf'⟩ := exists_succ_of_ge hf
  have hm := mapM_ne_error args fun n hn => hf₀ f hf' n hn
  simp only [exprRefs]
  split
  · simp
  · cases hmm : args.mapM (exprRefs env f · rtables) with
    | error e => rw [hmm] at hm; simpa [Except.map] using hm
    | ok _ => simp [Except.map]

theorem terminates_query {rtable : List RangeTblEntry} {parts : List Node}
    {rtables : List (List RangeTblEntry)}
    (h : ∀ c ∈ queryChildren rtable parts, Terminates env c (rtable :: rtables)) :
    Terminates env (.query rtable parts) rtables := by
  obtain ⟨f₀, hf₀⟩ := terminates_list env h
  refine ⟨f₀ + 1, fun fuel hf => ?_⟩
  obtain ⟨f, rfl, hf'⟩ := exists_succ_of_ge hf
  have hm := mapM_ne_error _ fun n hn => hf₀ f hf' n hn
  simp only [exprRefs]
  cases hmm : (queryChildren rtable parts).mapM (exprRefs env f · (rtable :: rtables)) with
  | error e => rw [hmm] at hm; simpa [Except.map] using hm
  | ok _ => simp [Except.map]

/-- Every jump from the `Var` into an alias expression ends. -/
def JumpEnds (rtables : List (List RangeTblEntry)) (varno varlevelsup : Nat) : Prop :=
  ∀ aliases, resolveVar rtables varno varlevelsup = .ok (.join aliases) →
    ∀ a ∈ aliases, Terminates env a (rtables.drop varlevelsup)

theorem terminates_var {rtables : List (List RangeTblEntry)} {varno varlevelsup : Nat}
    (varattno : Int) (h : JumpEnds env rtables varno varlevelsup) :
    Terminates env (.var varno varattno varlevelsup) rtables := by
  -- the `Var`s that end at the next step
  have hnow : (∀ f, exprRefs env (f + 1) (.var varno varattno varlevelsup) rtables ≠
      .error .outOfFuel) → Terminates env (.var varno varattno varlevelsup) rtables :=
    fun hf => ⟨1, fun fuel h1 => by
      obtain ⟨f, rfl, -⟩ := @exists_succ_of_ge _ 0 h1
      exact hf f⟩
  cases hr : resolveVar rtables varno varlevelsup with
  | error e =>
    refine hnow fun f => ?_
    simp only [exprRefs, hr]
    exact fun he => resolveVar_ne_outOfFuel rtables varno varlevelsup (by cases he; exact hr)
  | ok rte =>
    by_cases h0 : varattno = 0
    · exact hnow fun f => by simp [exprRefs, hr, h0]
    cases rte with
    | join aliases =>
      cases hl : (if varattno ≤ 0 then none else aliases[(varattno - 1).toNat]?) with
      | none => exact hnow fun f => by simp only [exprRefs, hr, h0, hl, if_false]; simp
      | some a =>
        have ha : a ∈ aliases := by
          split_ifs at hl
          exact List.getElem?_mem hl
        obtain ⟨fa, hfa⟩ := h aliases hr a ha
        refine ⟨fa + 1, fun fuel hf => ?_⟩
        obtain ⟨f, rfl, hf'⟩ := exists_succ_of_ge hf
        simp only [exprRefs, hr, h0, hl, if_false]
        exact hfa f hf'
    | _ => exact hnow fun f => by simp [exprRefs, hr, h0]

/-- A node without subqueries ends when every jump of its `Var`s ends. -/
theorem terminates_flat {rtables : List (List RangeTblEntry)} :
    ∀ (bound : Nat) (node : Node), sizeOf node < bound →
      (∀ n ∈ node.subnodes, n.isQuery = false) →
      (∀ varno varattno varlevelsup, Node.var varno varattno varlevelsup ∈ node.subnodes →
        JumpEnds env rtables varno varlevelsup) →
      Terminates env node rtables
  | 0, _, hb, _, _ => absurd hb (Nat.not_lt_zero _)
  | bound + 1, node, hb, hflat, hjump =>
    match node with
    | .var _ varattno _ => terminates_var env varattno (hjump _ _ _ (Node.mem_subnodes_self _))
    | .const consttype constisnull constvalue =>
      terminates_const env consttype constisnull constvalue rtables
    | .query _ _ => absurd (hflat _ (Node.mem_subnodes_self _)) (by simp [Node.isQuery])
    | .expr kind _ => terminates_expr env fun c hc =>
      terminates_flat bound c (by have := Node.sizeOf_lt_of_mem_args kind hc; omega)
        (fun n hn => hflat n (Node.subnodes_of_mem_args hc hn))
        (fun v a l hv => hjump v a l (Node.subnodes_of_mem_args hc hv))

/-- In a stack that meets the amended condition, every jump ends: by induction
on the position of the join, which every later jump decreases. -/
theorem jumpEnds_of_ordered : ∀ (depth varno : Nat) (rtables : List (List RangeTblEntry))
    (varlevelsup : Nat), (∀ t ∈ rtables, AliasesOrdered t ∧ AliasesFlat t) →
    rtables.length - varlevelsup = depth → JumpEnds env rtables varno varlevelsup := by
  intro depth
  induction depth using Nat.strongRecOn with
  | ind depth ihd =>
  intro varno
  induction varno using Nat.strongRecOn with
  | ind varno ihv =>
  intro rtables varlevelsup hstack hdepth aliases hr a ha
  obtain ⟨hk, hi, -, hjoin⟩ := resolveVar_eq_ok.mp hr
  have ht := hstack _ (List.getElem_mem hk)
  have ha' : a ∈ rtables[varlevelsup][varno - 1].joinAliases := by rw [hjoin]; exact ha
  have hstack' : ∀ t ∈ rtables.drop varlevelsup, AliasesOrdered t ∧ AliasesFlat t :=
    fun t ht => hstack t (List.mem_of_mem_drop ht)
  refine terminates_flat env (sizeOf a + 1) a (Nat.lt_succ_self _)
    (fun n hn => ht.2 _ hi a ha' n hn) fun v' attno' k' hv aliases' hr' => ?_
  have hlt := Prod.lex_def.mp
    (aliasJump_decreases (fun t ht => (hstack t ht).1) hr ha hv hr')
  simp only [varPosition, List.length_drop] at hlt
  rcases hlt with hd | ⟨hd, hv'⟩
  · exact ihd _ (by simp only [List.length_drop]; omega) v' _ k' hstack' rfl aliases' hr'
  · exact ihv v' hv' _ k' hstack' (by simp only [List.length_drop]; omega) aliases' hr'

/-- A tree whose range tables, and those of its stack, meet the amended
condition, ends. -/
theorem terminates_tree : ∀ (bound : Nat) (node : Node) (rtables : List (List RangeTblEntry)),
    sizeOf node < bound →
    (∀ n ∈ node.subnodes, ∀ t ∈ n.queryRtable, AliasesOrdered t ∧ AliasesFlat t) →
    (∀ t ∈ rtables, AliasesOrdered t ∧ AliasesFlat t) → Terminates env node rtables
  | 0, _, _, hb, _, _ => absurd hb (Nat.not_lt_zero _)
  | bound + 1, node, rtables, hb, hnode, hstack =>
    match node with
    | .var _ varattno _ => terminates_var env varattno (jumpEnds_of_ordered env _ _ rtables _ hstack rfl)
    | .const consttype constisnull constvalue =>
      terminates_const env consttype constisnull constvalue rtables
    | .query rtable _ => terminates_query env fun c hc =>
      terminates_tree bound c (rtable :: rtables)
        (by have := Node.sizeOf_lt_of_mem_queryChildren hc; omega)
        (fun n hn => hnode n (Node.subnodes_of_mem_queryChildren hc hn))
        (fun t ht => (List.mem_cons.mp ht).elim
          (fun h => h ▸ hnode _ (Node.mem_subnodes_self _) rtable rfl) (hstack t))
    | .expr kind _ => terminates_expr env fun c hc =>
      terminates_tree bound c rtables (by have := Node.sizeOf_lt_of_mem_args kind hc; omega)
        (fun n hn => hnode n (Node.subnodes_of_mem_args hc hn)) hstack

end Termination


/-- **The walk ends.** When the alias lists of the tree's range tables, and of
those of the starting stack, name only earlier entries at level `0` and hold no
subquery, `find_expr_references_walker` returns or raises without running out
of fuel once it has enough, whatever the array. In every such stack, each jump
from a `Var` of a join's alias expression names an entry of smaller position
than the join. -/
theorem findExprReferencesWalker_terminates (env : ExprEnv) (node : Node)
    (rtables : List (List RangeTblEntry))
    (hnode : ∀ n ∈ node.subnodes, ∀ t ∈ n.queryRtable, AliasesOrdered t ∧ AliasesFlat t)
    (hstack : ∀ t ∈ rtables, AliasesOrdered t ∧ AliasesFlat t) :
    (∃ fuel₀, ∀ fuel ≥ fuel₀, ∀ addrs c,
      findExprReferencesWalker env fuel node ⟨addrs, rtables⟩ ≠ .error .outOfFuel c) ∧
    ∀ stack : List (List RangeTblEntry), (∀ t ∈ stack, AliasesOrdered t ∧ AliasesFlat t) →
      ∀ varno varlevelsup aliases, resolveVar stack varno varlevelsup = .ok (.join aliases) →
      ∀ a ∈ aliases, ∀ varno' varattno' varlevelsup',
        Node.var varno' varattno' varlevelsup' ∈ a.subnodes →
      ∀ rte', resolveVar (stack.drop varlevelsup) varno' varlevelsup' = .ok rte' →
      Prod.Lex (· < ·) (· < ·) (varPosition (stack.drop varlevelsup) varno' varlevelsup')
        (varPosition stack varno varlevelsup) := by
  refine ⟨?_, fun stack hs _ _ _ hr _ ha _ _ _ hv _ hr' =>
    aliasJump_decreases (fun t ht => (hs t ht).1) hr ha hv hr'⟩
  obtain ⟨fuel₀, hfuel⟩ :=
    terminates_tree env (sizeOf node + 1) node rtables (Nat.lt_succ_self _) hnode hstack
  refine ⟨fuel₀, fun fuel hf addrs c hc => ?_⟩
  -- the walker raises only what `exprRefs` raises
  have hm := walker_matches env fuel node rtables
  cases hr : exprRefs env fuel node rtables with
  | ok refs => rw [hr] at hm; rw [hm addrs] at hc; cases hc
  | error e =>
    rw [hr] at hm
    obtain ⟨c', hc'⟩ := hm addrs
    rw [hc'] at hc
    cases hc
    exact hfuel fuel hf hr

/-- A join query as the parser builds it: two relations and their join, whose
alias list names a column of each, with the join's second column as target. -/
def parserJoinQuery : Node :=
  .query [.relation 40, .relation 41, .join [.var 1 1 0, .var 2 1 0]] [.var 3 2 0]

theorem findExprReferencesWalker_terminates_join :
    (∀ n ∈ parserJoinQuery.subnodes, ∀ t ∈ n.queryRtable, AliasesOrdered t ∧ AliasesFlat t) ∧
      (∀ t ∈ ([] : List (List RangeTblEntry)), AliasesOrdered t ∧ AliasesFlat t) ∧
      ∃ fuel₀, ∀ fuel ≥ fuel₀, ∀ addrs c,
        findExprReferencesWalker exampleExprEnv fuel parserJoinQuery ⟨addrs, []⟩ ≠
          .error .outOfFuel c :=
  ⟨by decide, by decide,
    (findExprReferencesWalker_terminates exampleExprEnv parserJoinQuery [] (by decide)
      (by decide)).1⟩

/-! ## Subqueries in alias expressions -/

/-- A sublink: a subquery with an empty range table whose target is column 1
of entry 1 one level up. -/
def sublinkAlias : Node := .expr .other [.query [] [.var 1 1 1]]
/-- A join whose only alias expression is that sublink, so that the entry it
names, one level up from the subquery, is the join itself. -/
def loopJoin : RangeTblEntry := .join [sublinkAlias]
/-- A query over that join whose target is the join's column 1. -/
def loopQuery : Node := .query [loopJoin] [.var 1 1 0]

theorem exprRefs_sublinkAlias (env : ExprEnv) :
    ∀ fuel, exprRefs env fuel sublinkAlias [[loopJoin]] = .error .outOfFuel
  | 0 => rfl
  | 1 => rfl
  | 2 => rfl
  | fuel + 3 => by
    -- the `Var` under the sublink resolves, one level up, to the join itself
    have hvar : exprRefs env (fuel + 1) (.var 1 1 1) ([] :: [[loopJoin]]) = .error .outOfFuel :=
      exprRefs_sublinkAlias env fuel
    simp only [sublinkAlias, exprRefs.eq_5, exprRefs.eq_4, ExprKind.references, queryChildren,
      List.flatMap_nil, List.append_nil, List.mapM_cons, hvar]
    rfl


theorem exprRefs_loopQuery (env : ExprEnv) :
    ∀ fuel, exprRefs env fuel loopQuery [] = .error .outOfFuel
  | 0 => rfl
  | 1 => rfl
  | fuel + 2 => by
    have hvar : exprRefs env (fuel + 1) (.var 1 1 0) [[loopJoin]] = .error .outOfFuel :=
      exprRefs_sublinkAlias env fuel
    simp only [loopQuery, exprRefs.eq_4, queryChildren, List.cons_append, List.mapM_cons, hvar]
    rfl

/-- A join whose alias expression is a subquery over a join of its own. -/
def innerJoin : RangeTblEntry := .join [.const 16 true 0]

/-- That alias expression: a subquery over `innerJoin` whose target is its
column 1. -/
def nestedAlias : Node := .query [innerJoin] [.var 1 1 0]

/-- A range table with a relation and, at index 2, a join with that alias. -/
def nestedJoinRtable : List RangeTblEntry := [.relation 40, .join [nestedAlias]]

/-- Why `findExprReferencesWalker_terminates` also asks for `AliasesFlat`:
with a subquery in an alias expression, `AliasesOrdered` alone neither makes
the walk end nor every jump decrease. The parser never puts a subquery there.
The query over `loopJoin` has ordered alias lists, since its alias expression
has no `Var` of level `0`, yet the walker runs out of every fuel on it: a
`Var` of level `1` under the sublink names the join again. The query over
`nestedJoinRtable` has ordered alias lists too, but the walker jumps from its
target into the join at position `(1, 2)`. Inside that join's alias expression
it then jumps into `innerJoin` at position `(2, 1)`, which is not smaller. -/
theorem walker_loops_through_sublink_alias :
    (∀ n ∈ loopQuery.subnodes, ∀ t ∈ n.queryRtable, AliasesOrdered t) ∧
      (∀ (env : ExprEnv) (fuel : Nat) (addrs : ObjectAddresses), ∃ c,
        findExprReferencesWalker env fuel loopQuery ⟨addrs, []⟩ = .error .outOfFuel c) ∧
      (∀ n ∈ (Node.query nestedJoinRtable [.var 2 1 0]).subnodes, ∀ t ∈ n.queryRtable,
        AliasesOrdered t) ∧
      resolveVar [nestedJoinRtable] 2 0 = .ok (.join [nestedAlias]) ∧
      resolveVar [[innerJoin], nestedJoinRtable] 1 0 = .ok innerJoin ∧
      ¬ Prod.Lex (· < ·) (· < ·) (varPosition [[innerJoin], nestedJoinRtable] 1 0)
        (varPosition [nestedJoinRtable] 2 0) := by
  refine ⟨by decide, fun env fuel addrs => ?_, by decide, rfl, rfl, ?_⟩
  · have h := walker_matches env fuel loopQuery []
    rw [exprRefs_loopQuery] at h
    exact h addrs
  · simp [varPosition, Prod.lex_def]

end CatalogDependency
