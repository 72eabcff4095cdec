import CastLint.Proofs.ReadExpressions

/-! Reading statements that are expressions, and the items of a module. A statement ends with a
semicolon, or in front of a line that its expression does not go on with. -/

namespace CastLint
namespace Syntax
namespace Parser

/-- From a token on a parser gives up. -/
def Fails {α : Type} (d : Dialect) (p : Parser α) (u : Stand) : Prop :=
  ∀ issues arrow, ∃ issue s, p (u.state d {} issues arrow) = .error issue s

/-- One turn of the loop that collects what a parser returns. -/
def collectStep {α : Type} (step : Parser (Option α)) (acc : List α) :
    Parser (List α ⊕ List α) := do
  match ← step with
  | some a => return .inl (a :: acc)
  | none => return .inr acc

theorem collect_eq {α : Type} (step : Parser (Option α)) :
    collect step = (do
      let found ← loop (collectStep step) (← budget) []
      return found.reverse) := rfl

/-- The end of a statement: a semicolon, or the place in front of a new line or of nothing. -/
inductive StatementEnd : Stand → Stand → Prop
  | semi {u v : Stand} : u.token = .mark .semi → u.Step v → StatementEnd u v
  | line {u : Stand} : u.newline = true → opensOperand u.token = true → StatementEnd u u
  | eof {u : Stand} : u.token = .eof → StatementEnd u u

section

variable {α β : Type} {g : Grammar} {d : Dialect} {issues : List Issue} {arrow : Option Nat}
  {u v w : Stand} {node : Node} {new : List Issue}

theorem Fails.bind {p : Parser α} {f : α → Parser β} (h : Fails d p u) : Fails d (p >>= f) u := by
  intro issues arrow
  obtain ⟨issue, s, h'⟩ := h issues arrow
  exact ⟨issue, s, by simp [h']⟩

theorem Fails.withMode {p : Parser α} {change : Mode → Mode} (hmode : change {} = {})
    (h : Fails d p u) : Fails d (withMode change p) u := by
  intro issues arrow
  obtain ⟨issue, s, h'⟩ := h issues arrow
  refine ⟨issue, { s with mode := {} }, ?_⟩
  rw [withMode_run hmode, h']

/-! ### Expressions as statements -/

theorem StatementEnd.endsOperators (h : StatementEnd u v) : endsOperators u = true := by
  cases h with
  | semi hu => simp [Parser.endsOperators, hu]
  | line hline hu =>
    unfold opensOperand at hu
    split at hu <;> simp_all [Parser.endsOperators]
  | eof hu => simp [Parser.endsOperators, hu]

theorem StatementEnd.token_ne (h : StatementEnd u v) : u.token ≠ .mark .comma := by
  rintro ht
  cases h <;> simp_all [opensOperand]

theorem StatementEnd.assign_ne (h : StatementEnd u v) : u.token ≠ .mark (.assign none) := by
  rintro ht
  cases h <;> simp_all [opensOperand]

theorem StatementEnd.before_le {start : Nat} (h : StatementEnd u v) (hstart : start ≤ u.before.stop)
    (hspan : start ≤ u.span.start) : start ≤ v.before.stop := by
  cases h with
  | semi _ huv => exact hspan.trans huv.past.before_le
  | line => exact hstart
  | eof => exact hstart

theorem eatStatementEnd_run (h : StatementEnd u v) :
    eatStatementEnd (u.state d {} issues arrow) = .ok true (v.state d {} issues arrow) := by
  cases h with
  | semi hu huv => simp [eatStatementEnd, hu, advance_run huv]
  | line hline hu =>
    unfold opensOperand at hu
    split at hu <;> simp_all [eatStatementEnd]
  | eof hu => simp [eatStatementEnd, hu]

theorem expression_reads (h : Reads d {} g.assign u node v new) (hv : v.token ≠ .mark .comma) :
    Reads d {} (expression g) u node v new := by
  intro issues arrow
  obtain ⟨arrow', h'⟩ := h issues arrow
  exact ⟨arrow', by simp [expression, h', hv]⟩

def statementOf (node : Node) (start stop : Nat) : Node :=
  .mk .expressionStatement ⟨start, stop⟩ [node]

theorem expressionStatement_reads {decorators : List Node} (h : Reads d {} g.assign u node v new)
    (hname : node.name? = none) (hend : StatementEnd v w) (hstop : u.span.start ≤ w.before.stop) :
    Reads d {} (expressionStatement g decorators) u
      (statementOf node u.span.start w.before.stop) w new := by
  intro issues arrow
  have hexpr : Reads d {} (enclosed (expression g)) u node v new :=
    Reads.withMode rfl (expression_reads h hend.token_ne)
  obtain ⟨arrow', h'⟩ := hexpr issues arrow
  exact ⟨arrow', by
    simp [expressionStatement, h', hname, expressionEnd, eatStatementEnd_run hend, hstop,
      statementOf]⟩

theorem expressionStatement_fails {decorators : List Node} (h : Fails d g.assign u) :
    Fails d (expressionStatement g decorators) u := by
  intro issues arrow
  have hexpr : Fails d (enclosed (expression g)) u := Fails.withMode rfl h.bind
  obtain ⟨issue, s, h'⟩ := hexpr issues arrow
  exact ⟨issue, s, by simp [expressionStatement, h']⟩

theorem contextualStatement_run {decorators : List Node} {start : Nat} {name : String}
    (hname : isOrdinary name = true) :
    contextualStatement g true start decorators name (u.state d {} issues arrow) =
      expressionStatement g decorators (u.state d {} issues arrow) := by
  simp only [contextualStatement, bind_run, peek_run, isTypescript_run]
  split
  case h_8 => rfl
  all_goals exact absurd hname (by decide)

/-- A statement that starts with an operand is an expression. -/
theorem plainStatement_run {decorators : List Node} {start : Nat} (hu : opensOperand u.token = true) :
    plainStatement g true start decorators (u.state d {} issues arrow) =
      expressionStatement g decorators (u.state d {} issues arrow) := by
  have hconst := isThe_of_opensOperand hu "const" (by decide)
  have hbrace := ne_of_opensOperand hu (.mark .lbrace) rfl
  have hsemi := ne_of_opensOperand hu (.mark .semi) rfl
  simp only [plainStatement, bind_run, isTypescript_run, isThe_run, hconst, peekIsThe_run,
    Bool.and_false, Bool.false_and, Bool.false_eq_true, if_false, token_run]
  cases ht : u.token with
  | word name plain =>
    cases plain with
    | false => simp [ht, opensOperand] at hu
    | true =>
      have hname : isOrdinary name = true := by simpa [ht, opensOperand] using hu
      dsimp only
      split
      case h_19 => exact contextualStatement_run hname
      all_goals exact absurd hname (by decide)
  | mark k =>
    simp only [is_run, hbrace, decide_false, Bool.false_eq_true, if_false, bind_run,
      eat_run_of_ne hsemi]
  | _ => simp [ht, opensOperand] at hu

theorem decorators_run {exportAllowed : Bool} (hu : u.token ≠ .mark .atSign) :
    decorators g exportAllowed (u.state d {} issues arrow) =
      .ok [] (u.state d {} issues arrow) := by
  cases hdecorators : d.decorators with
  | false => simp [decorators, hdecorators]
  | true =>
    have hcollect : collect (do
        if ← is .atSign then some <$> decorator g else return none) (u.state d {} issues arrow) =
        .ok [] (u.state d {} issues arrow) := by
      simp only [collect_eq, bind_run, budget_run]
      rw [loop_inr (b := []) (t := u.state d {} issues arrow)]
      · rfl
      · simp [collectStep, hu]
    simp [decorators, hdecorators, hcollect]

theorem moduleItem_run (hu : opensOperand u.token = true) :
    moduleItem g (u.state d {} issues arrow) =
      expressionStatement g [] (u.state d {} issues arrow) := by
  have hsign := ne_of_opensOperand hu (.mark .atSign) rfl
  have himport := isThe_of_opensOperand hu "import" (by decide)
  have hexport := isThe_of_opensOperand hu "export" (by decide)
  simp [moduleItem, decorators_run hsign, himport, hexport, plainStatement_run hu]

theorem moduleItem_reads (hu : opensOperand u.token = true) (h : Reads d {} g.assign u node v new)
    (hname : node.name? = none) (hend : StatementEnd v w) (hstop : u.span.start ≤ w.before.stop) :
    Reads d {} (moduleItem g) u (statementOf node u.span.start w.before.stop) w new := by
  intro issues arrow
  rw [moduleItem_run hu]
  exact expressionStatement_reads h hname hend hstop issues arrow

theorem moduleItem_fails (hu : opensOperand u.token = true) (h : Fails d g.assign u) :
    Fails d (moduleItem g) u := by
  intro issues arrow
  rw [moduleItem_run hu]
  exact expressionStatement_fails h issues arrow

/-! ### Assignments to calls -/

/-- Nothing can be assigned to a call that stands there without parentheses. -/
theorem assignmentRest_call_fails (hd : d.typescript = true) (hnode : node.kind = .call)
    (hu : u.token = .mark (.assign none)) (start : Nat) :
    Fails d (assignmentRest g start node) u := by
  intro issues arrow
  have hbad : ∀ issue, u.token ≠ .bad issue := by simp [hu]
  have hname : node.name? = none := by simp [Node.name?, hnode]
  have hplace : node.isPlace = false := by
    obtain ⟨kind, span, parts⟩ := node
    obtain rfl : kind = .call := hnode
    rfl
  have hunparen : node.unparen.kind = .call := by
    obtain ⟨kind, span, parts⟩ := node
    obtain rfl : kind = .call := hnode
    rfl
  have hpattern : toPattern .assignment node (u.state d {} issues arrow) =
      .ok node (u.state d {}
        (⟨node.span, .assignmentTarget⟩ :: ⟨node.span, .assignmentTarget⟩ :: issues) arrow) := by
    simp [toPattern, asPattern, hnode, checkTarget, hplace, hd, emit_run hbad, hunparen, hname]
  refine ⟨⟨node.span, .invalidTarget⟩, u.state d {}
    (⟨node.span, .assignmentTarget⟩ :: ⟨node.span, .assignmentTarget⟩ :: issues) arrow, ?_⟩
  simp [assignmentRest, hu, hpattern, hnode, isAssignable, failAt]
  rfl

theorem assignNode_call_fails (hd : d.typescript = true) (h : Phrase d (binaryNode g) u node v)
    (hnode : node.kind = .call) (hv : v.token = .mark (.assign none)) :
    Fails d (assignNode g) u := by
  intro issues arrow
  have hkind : isOperandKind node.kind = true := by
    rw [hnode]
    rfl
  have hlt := ne_of_opensOperand h.opens (.mark (.binary .lt)) rfl
  obtain ⟨arrow', h'⟩ := assignBase_run h hkind (by simp [endsOperators, hv]) issues arrow
  obtain ⟨issue, s, hfails⟩ :=
    assignmentRest_call_fails (g := g) hd hnode hv u.span.start issues arrow'
  exact ⟨issue, s, by simp [assignNode, genericArrow?, hlt, h', hfails]⟩

end

/-! ### Modules -/

/-- Items of a module, one behind the other, with the mistakes in them, the latest first. -/
inductive Items (d : Dialect) (item : Parser Node) : Stand → List Node → Stand → List Issue → Prop
  | nil {u : Stand} : Items d item u [] u []
  | cons {u v w : Stand} {node : Node} {nodes : List Node} {new more : List Issue} :
      u.token ≠ .eof → v.room < u.room → Reads d {} item u node v new →
      Items d item v nodes w more → Items d item u (node :: nodes) w (more ++ new)

/-- The next item of a module, unless the text ends. -/
def nextItem (item : Parser Node) : Parser (Option Node) := do
  if ← isEnd then return none else some <$> item

section

variable {d : Dialect} {item : Parser Node} {u v : Stand} {nodes : List Node} {new : List Issue}

theorem Items.loop_run (h : Items d item u nodes v new) (acc : List Node) (issues : List Issue)
    (arrow : Option Nat) (fuel : Nat) (hfuel : u.room < fuel) :
    ∃ fuel' arrow', v.room < fuel' ∧
      loop (collectStep (nextItem item)) fuel acc (u.state d {} issues arrow) =
        loop (collectStep (nextItem item)) fuel' (nodes.reverse ++ acc)
          (v.state d {} (new ++ issues) arrow') := by
  induction h generalizing acc issues arrow fuel with
  | nil => exact ⟨fuel, arrow, hfuel, rfl⟩
  | @cons u v w node nodes new more hu hroom hreads _ ih =>
    obtain ⟨fuel, rfl⟩ : ∃ n, fuel = n + 1 := ⟨fuel - 1, by omega⟩
    obtain ⟨arrow₁, h₁⟩ := hreads issues arrow
    obtain ⟨fuel', arrow₂, hfuel', h₂⟩ := ih (node :: acc) (new ++ issues) arrow₁ fuel (by omega)
    refine ⟨fuel', arrow₂, hfuel', ?_⟩
    rw [loop_inl (b := node :: acc) (t := v.state d {} (new ++ issues) arrow₁), h₂]
    · simp
    · simp [collectStep, nextItem, hu, h₁]

theorem collect_nextItem_reads (h : Items d item u nodes v new) (hv : v.token = .eof) :
    Reads d {} (collect (nextItem item)) u nodes v new := by
  intro issues arrow
  obtain ⟨fuel, arrow', hfuel, h'⟩ := h.loop_run [] issues arrow (u.room + 2) (by omega)
  obtain ⟨fuel, rfl⟩ : ∃ n, fuel = n + 1 := ⟨fuel - 1, by omega⟩
  refine ⟨arrow', ?_⟩
  simp only [collect_eq, bind_run, budget_run, h']
  rw [loop_inr (b := nodes.reverse ++ []) (t := v.state d {} (new ++ issues) arrow')]
  · simp
  · simp [collectStep, nextItem, hv]

theorem collect_nextItem_fails (h : Items d item u nodes v new) (hv : v.token ≠ .eof)
    (hfails : Fails d item v) : Fails d (collect (nextItem item)) u := by
  intro issues arrow
  obtain ⟨fuel, arrow', hfuel, h'⟩ := h.loop_run [] issues arrow (u.room + 2) (by omega)
  obtain ⟨fuel, rfl⟩ : ∃ n, fuel = n + 1 := ⟨fuel - 1, by omega⟩
  obtain ⟨issue, s, herror⟩ := hfails (new ++ issues) arrow'
  refine ⟨issue, s, ?_⟩
  simp only [collect_eq, bind_run, budget_run, h']
  simp [loop, collectStep, nextItem, hv, herror]

end
end Parser
end Syntax
end CastLint
