import CastLint.Proofs.ReadOperands

/-! Reading casts, parentheses and assignments. -/

namespace CastLint
namespace Syntax
namespace Parser

/-- A token behind which a chain of operators does not go on: a mark that closes something, or the
first token of a line that could be a statement of its own. -/
def endsOperators (u : Stand) : Bool :=
  match u.token with
  | .mark .rparen | .mark .comma | .mark .semi | .mark (.assign none) | .eof => true
  | .mark .lparen => u.newline
  | .word name true => u.newline && isOrdinary name
  | _ => false

section

variable {g : Grammar} {d : Dialect} {issues : List Issue} {arrow : Option Nat}
  {u v w x : Stand} {name : String} {object node : Node} {nodes : List Node} {noCall : Bool}

theorem ne_of_endsOperators {t : Token} (h : endsOperators u = true)
    (ht : endsOperators ⟨{ u.lexeme with token := t }, u.before⟩ = false) : u.token ≠ t := by
  rintro rfl
  have : endsOperators u = false := ht
  simp [this] at h

theorem isThe_of_endsOperators (h : endsOperators u = true) (word : String)
    (hword : isOrdinary word = false) : u.token.isThe word = false := by
  cases ht : u.token with
  | word name plain =>
    cases plain with
    | false => rfl
    | true =>
      simp only [endsOperators, ht, Bool.and_eq_true] at h
      simpa [Token.isThe] using ne_of_isOrdinary h.2 word hword
  | _ => rfl

theorem isPrefixOperator_of_opensOperand {t : Token} (h : opensOperand t = true) :
    isPrefixOperator t = false := by
  cases t with
  | word name plain =>
    have hdelete := isThe_of_opensOperand h "delete" (by decide)
    have hvoid := isThe_of_opensOperand h "void" (by decide)
    have htypeof := isThe_of_opensOperand h "typeof" (by decide)
    simp only [Token.isThe] at hdelete hvoid htypeof
    simp [isPrefixOperator, Bool.and_or_distrib_left, hdelete, hvoid, htypeof]
  | mark k => cases k <;> first | rfl | simp [opensOperand] at h
  | _ => rfl

/-- A name with a dot in it, where a type is expected. -/
inductive TypeName : Stand → String → String → Node → Stand → Prop
  | mk {u v w x : Stand} {space member : String} : u.token = .word space true →
      isOrdinary space = true → u.Step v → v.token = .mark .dot → v.Step w →
      w.token = .word member true → w.Step x → endsOperators x = true →
      TypeName u space member (.mk .typeReference ⟨u.span.start, w.span.stop⟩
        [.mk .qualifiedName ⟨u.span.start, w.span.stop⟩
          [.mk (.name space) u.span [], .mk (.name member) w.span []]]) x

theorem TypeName.head {space member : String} (h : TypeName u space member node x) :
    u.token = .word space true ∧ isOrdinary space = true := by
  obtain ⟨hu, hspace, -⟩ := h
  exact ⟨hu, hspace⟩

theorem TypeName.ends {space member : String} (h : TypeName u space member node x) :
    endsOperators x = true := by
  obtain ⟨-, -, -, -, -, -, -, hx⟩ := h
  exact hx

theorem TypeName.stop {space member : String} (h : TypeName u space member node x) :
    node.stop = x.before.stop := by
  obtain ⟨-, -, -, -, -, -, hwx, -⟩ := h
  rw [hwx.before]
  rfl

theorem TypeName.past {space member : String} (h : TypeName u space member node x) : u.Past x := by
  obtain ⟨-, -, huv, -, hvw, -, hwx, -⟩ := h
  exact (huv.past.trans hvw.past).trans hwx.past

theorem entityName_run {m : Mode} {space name : String} (hu : u.token = .word space true)
    (hspace : isOrdinary space = true) (huv : u.Step v) (hv : v.token = .mark .dot)
    (hvw : v.Step w) (hw : w.token = .word name true) (hwx : w.Step x)
    (hx : x.token ≠ .mark .dot) :
    entityName anyName (u.state d m issues arrow) =
      .ok (.mk .qualifiedName ⟨u.span.start, w.span.stop⟩
        [.mk (.name space) u.span [], .mk (.name name) w.span []]) (x.state d m issues arrow) := by
  have hvoid := ne_of_isOrdinary hspace "void" (by decide)
  have hle : u.span.start ≤ w.span.stop :=
    (huv.past.trans hvw.past).start_le.trans hwx.forward.1
  simp [entityName, anyName_run hu huv, Node.name?, Node.kind, hvoid]
  rw [loop_inl (b := .mk .qualifiedName ⟨u.span.start, w.span.stop⟩
        [.mk (.name space) u.span [], .mk (.name name) w.span []]) (t := x.state d m issues arrow)]
  · apply loop_inr
    simp [eat_run_of_ne hx]
  · simp [eat_run hv hvw, hw, Token.isWord, anyName_run hw hwx, hwx.before, hle]

theorem wordText_run {m : Mode} (hu : u.token = .word name true) :
    wordText (u.state d m issues arrow) = .ok name (u.state d m issues arrow) := by
  simp [wordText, hu]

theorem parameterModifier_run {m : Mode} (hd : d.typescript = true)
    (hu : u.token = .word name true) (hname : isOrdinary name = true) :
    parameterModifier (u.state d m issues arrow) = .ok false (u.state d m issues arrow) := by
  have hpublic := ne_of_isOrdinary hname "public" (by decide)
  have hprotected := ne_of_isOrdinary hname "protected" (by decide)
  have hprivate := ne_of_isOrdinary hname "private" (by decide)
  have hreadonly := ne_of_isOrdinary hname "readonly" (by decide)
  simp [parameterModifier, hd, wordText_run hu, hpublic, hprotected, hprivate, hreadonly]

theorem typeReference_run {m : Mode} {space member : String} (hd : d.typescript = true)
    (h : TypeName u space member node x) :
    typeReference g (u.state d m issues arrow) = .ok node (x.state d m issues arrow) := by
  obtain ⟨hu, hspace, huv, hv, hvw, hw, hwx, hx⟩ := h
  rename_i v w
  have hdot : x.token ≠ .mark .dot := ne_of_endsOperators hx rfl
  have hlt : x.token ≠ .mark (.binary .lt) := ne_of_endsOperators hx rfl
  have hshl : x.token ≠ .mark (.binary .shl) := ne_of_endsOperators hx rfl
  have hle : u.span.start ≤ w.span.stop :=
    (huv.past.trans hvw.past).start_le.trans hwx.forward.1
  simp [typeReference, parameterModifier_run hd hu hspace,
    entityName_run hu hspace huv hv hvw hw hwx hdot, hlt, hshl, hwx.before, hle]

theorem primaryType_run {m : Mode} {space member : String} (hd : d.typescript = true)
    (h : TypeName u space member node x) :
    primaryType g (u.state d m issues arrow) = .ok node (x.state d m issues arrow) := by
  have href : typeReference g (u.state d m issues arrow) = .ok node (x.state d m issues arrow) :=
    typeReference_run hd h
  obtain ⟨hu, hspace, huv, hv, -, -, -, -⟩ := h
  have himport := ne_of_isOrdinary hspace "import" (by decide)
  have hthis := ne_of_isOrdinary hspace "this" (by decide)
  have htypeof := ne_of_isOrdinary hspace "typeof" (by decide)
  have htrue := ne_of_isOrdinary hspace "true" (by decide)
  have hfalse := ne_of_isOrdinary hspace "false" (by decide)
  have hlet := ne_of_isOrdinary hspace "let" (by decide)
  have hasserts := ne_of_isOrdinary hspace "asserts" (by decide)
  have hkeyword : isKeyword space = false := by
    have := isReserved_of_isOrdinary hspace
    simp only [isReserved, Bool.or_eq_false_iff] at this
    exact this.1.1
  have hahead : (u.ahead d m).token = .mark .dot := by
    rw [huv.ahead_eq]
    exact hv
  simp [primaryType, needToken, hu, himport, hthis, htypeof, htrue, hfalse, hlet, hasserts,
    hkeyword, hahead, href]

theorem arrayType_run {m : Mode} {space member : String} (hd : d.typescript = true)
    (h : TypeName u space member node x) :
    arrayType g (u.state d m issues arrow) = .ok node (x.state d m issues arrow) := by
  have hbracket : x.token ≠ .mark .lbracket := ne_of_endsOperators h.ends rfl
  simp only [arrayType, bind_run, primaryType_run hd h, budget_run]
  apply loop_inr
  simp [hbracket]

theorem typeOperator_run {m : Mode} {space member : String} (hd : d.typescript = true)
    (h : TypeName u space member node x) :
    typeOperator g (u.state d m issues arrow) = .ok node (x.state d m issues arrow) := by
  obtain ⟨hu, hspace⟩ := h.head
  have hkeyof := ne_of_isOrdinary hspace "keyof" (by decide)
  have hunique := ne_of_isOrdinary hspace "unique" (by decide)
  have hreadonly := ne_of_isOrdinary hspace "readonly" (by decide)
  have hinfer := ne_of_isOrdinary hspace "infer" (by decide)
  simp [typeOperator, hu, Token.isThe, hkeyof, hunique, hreadonly, hinfer, arrayType_run hd h]

theorem operands_run {m : Mode} (kind : Kind) (op : BinaryOp) {element : Parser Node}
    (helement : element (u.state d m issues arrow) = .ok node (x.state d m issues arrow))
    (hu : u.token ≠ .mark (.binary op)) (hx : x.token ≠ .mark (.binary op)) :
    operands op kind element (u.state d m issues arrow) = .ok node (x.state d m issues arrow) := by
  simp [operands, eatOp, eat_run_of_ne hu, helement, hx]

theorem plainType_run {m : Mode} {space member : String} (hd : d.typescript = true)
    (h : TypeName u space member node x) :
    plainType g.over (u.state d m issues arrow) = .ok node (x.state d m issues arrow) := by
  obtain ⟨hu, hspace⟩ := h.head
  have hnew := ne_of_isOrdinary hspace "new" (by decide)
  have habstract := ne_of_isOrdinary hspace "abstract" (by decide)
  have hoperator : g.over.typeOperator (u.state d m issues arrow) =
      .ok node (x.state d m issues arrow) := typeOperator_run hd h
  have hand := operands_run .intersectionType .bitAnd hoperator (by simp [hu])
    (ne_of_endsOperators h.ends rfl)
  have hor := operands_run .unionType .bitOr hand (by simp [hu])
    (ne_of_endsOperators h.ends rfl)
  obtain ⟨opens, hopens⟩ : ∃ b, opensParameters g.over (u.state d m issues arrow) =
      .ok b (u.state d m issues arrow) := exists_lookAhead_run _ _
  simp [plainType, hu, Token.isThe, hnew, habstract, hopens, hor]

theorem typeNode_reads {space member : String} (hd : d.typescript = true)
    (h : TypeName u space member node x) :
    Reads d { inType := true } (typeNode g.over) u node x [] := by
  apply Reads.withMode rfl
  intro issues arrow
  refine ⟨arrow, ?_⟩
  have hextends := isThe_of_endsOperators h.ends "extends" (by decide)
  simp [plainType_run hd h, eatWord, hextends]

/-! ### Casts -/

def castNode (operand type : Node) : Node :=
  .mk .asCast ⟨operand.start, type.stop⟩ [operand, type]

/-- One turn of the loop over the casts behind an operand. -/
def castStep (g : Grammar) (strength : Nat) (node : Node) : Parser (Node ⊕ Node) := do
  if ← onNewLine then return .inr node
  if strength < BinaryOp.isIn.precedence && (← isThe "as") then
    if ← peekIsThe "const" then
      advance
      advance
      return .inl (.mk .constCast (← spanFrom node.start) [node])
    let type ← inType do
      advance
      g.type
    let cast := Node.mk .asCast (← spanFrom node.start) [node, type]
    joinAngles
    return .inl cast
  if ← isThe "satisfies" then
    let type ← inType do
      advance
      g.type
    let checked := Node.mk .satisfies (← spanFrom node.start) [node, type]
    joinAngles
    return .inl checked
  return .inr node

theorem castSuffixes_eq (g : Grammar) (strength : Nat) (operand : Node) :
    castSuffixes g strength operand = (do
      unless ← isTypescript do return operand
      loop (castStep g strength) (← budget) operand) := rfl

theorem joinAngles_run (h : endsOperators u = true) :
    joinAngles (u.state d {} issues arrow) = .ok () (u.state d {} issues arrow) := by
  have hlt : u.token ≠ .mark (.binary .lt) := ne_of_endsOperators h rfl
  have hgt : u.token ≠ .mark (.binary .gt) := ne_of_endsOperators h rfl
  simp [joinAngles, hlt, hgt]

theorem castStep_end_run {strength : Nat} (h : endsOperators u = true) :
    castStep g strength node (u.state d {} issues arrow) =
      .ok (.inr node) (u.state d {} issues arrow) := by
  have has := isThe_of_endsOperators h "as" (by decide)
  have hsatisfies := isThe_of_endsOperators h "satisfies" (by decide)
  cases hline : u.newline <;> simp [castStep, has, hsatisfies, hline]

theorem castSuffixes_end_run {strength : Nat} (hd : d.typescript = true)
    (h : endsOperators u = true) :
    castSuffixes g strength node (u.state d {} issues arrow) =
      .ok node (u.state d {} issues arrow) := by
  simp [castSuffixes_eq, hd, loop_inr (castStep_end_run h)]

/-- What makes a cast of the operand in front of it: the word `as` and a type. -/
structure CastTail (d : Dialect) (g : Grammar) (u : Stand) (type : Node) (w : Stand) : Prop where
  word : u.token = .word "as" true
  line : u.newline = false
  exists_type : ∃ v space member, u.Step v ∧ TypeName v space member type w ∧
    Reads d { inType := true } g.type v type w []

theorem castSuffixes_cast_reads {type : Node} (hd : d.typescript = true)
    (hle : node.start ≤ u.span.start) (h : CastTail d g u type w) :
    Reads d {} (castSuffixes g 0 node) u (castNode node type) w [] := by
  obtain ⟨hu, hline, v, space, member, huv, htype, hreads⟩ := h
  intro issues arrow
  obtain ⟨hv, hspace⟩ := htype.head
  have hconst : (u.ahead d {}).token.isThe "const" = false := by
    rw [huv.ahead_eq]
    show v.token.isThe "const" = false
    simpa [hv, Token.isThe] using ne_of_isOrdinary hspace "const" (by decide)
  have hadvance : Reads d { inType := true } advance u () v [] :=
    fun issues arrow => ⟨arrow, advance_run huv⟩
  obtain ⟨arrow', h'⟩ := (hadvance.bind (f := fun _ => g.type) hreads).inType (m := {}) issues arrow
  have has : u.token.isThe "as" = true := by simp [hu, Token.isThe]
  have hstop : node.start ≤ w.before.stop :=
    hle.trans (huv.past.trans htype.past).before_le
  refine ⟨arrow', ?_⟩
  simp only [castSuffixes_eq, isTypescript_run, hd, bind_run, budget_run, if_true]
  rw [loop_inl (b := castNode node type) (t := w.state d {} issues arrow')]
  · exact loop_inr (castStep_end_run htype.ends)
  · simp [castStep, hline, has, hconst, BinaryOp.precedence, h', joinAngles_run htype.ends, hstop,
      castNode, htype.stop]

theorem CastTail.past {type : Node} (h : CastTail d g u type w) : u.Past w := by
  obtain ⟨-, -, v, space, member, huv, htype, -⟩ := h
  exact huv.past.trans htype.past

theorem CastTail.stop {type : Node} (h : CastTail d g u type w) : type.stop = w.before.stop := by
  obtain ⟨-, -, v, space, member, -, htype, -⟩ := h
  exact htype.stop

theorem CastTail.ends {type : Node} (h : CastTail d g u type w) : endsOperators w = true := by
  obtain ⟨-, -, v, space, member, -, htype, -⟩ := h
  exact htype.ends

/-! ### Operators -/

/-- A phrase that a second parser reads in the same way. -/
theorem Phrase.of_reads {p q : Parser Node} (h : Phrase d p u node v)
    (hq : Reads d {} q u node v []) : Phrase d q u node v :=
  { h with reads := hq }

theorem unaryNode_phrase (h : Phrase d g.callOrMember u node v) (hnode : node.kind ≠ .arrow)
    (hv : endsChain false v.token = true) : Phrase d (unaryNode g) u node v := by
  apply h.of_reads
  intro issues arrow
  obtain ⟨arrow', h'⟩ := h.reads issues arrow
  have hlt := ne_of_opensOperand h.opens (.mark (.binary .lt)) rfl
  have hincr := ne_of_opensOperand h.opens (.mark .incr) rfl
  have hdecr := ne_of_opensOperand h.opens (.mark .decr) rfl
  have hprefix := isPrefixOperator_of_opensOperand h.opens
  have hawait := isThe_of_opensOperand h.opens "await" (by decide)
  have hincr' := ne_of_endsChain hv (.mark .incr) rfl
  have hdecr' := ne_of_endsChain hv (.mark .decr) rfl
  refine ⟨arrow', ?_⟩
  cases hline : v.newline <;>
    simp [unaryNode, hlt, hincr, hdecr, hprefix, hawait, h', hnode, hline, hincr', hdecr']

theorem operator?_run (h : endsOperators u = true) :
    operator? (u.state d {} issues arrow) = .ok none (u.state d {} issues arrow) := by
  cases ht : u.token with
  | word name plain =>
    cases plain with
    | false => simp [operator?, ht]
    | true =>
      have hin := isThe_of_endsOperators h "in" (by decide)
      have hinstanceof := isThe_of_endsOperators h "instanceof" (by decide)
      simp only [ht, Token.isThe, Bool.true_and, beq_eq_false_iff_ne] at hin hinstanceof
      simp [operator?, ht, hin, hinstanceof]
  | mark k =>
    cases k with
    | binary op => simp [endsOperators, ht] at h
    | _ => simp [operator?, ht]
  | _ => simp [operator?, ht]

def isOperandKind : Kind → Bool
  | .name _ | .member | .call | .paren | .asCast => true
  | _ => false

theorem ne_of_isOperandKind {kind : Kind} (h : isOperandKind kind = true) (other : Kind)
    (hother : isOperandKind other = false) : kind ≠ other := by
  rintro rfl
  simp [hother] at h

theorem isOperandKind_of_isChainKind {kind : Kind} (h : isChainKind kind = true) :
    isOperandKind kind = true := by
  cases kind <;> simp_all [isChainKind, isOperandKind]

/-- The operand of a chain of operators that has no operators. -/
theorem binaryRest_reads {left : Node} (hcast : Reads d {} (castSuffixes g 0 left) u node v [])
    (hnode : isOperandKind node.kind = true) (hv : endsOperators v = true) :
    Reads d {} (binaryRest g left 0) u node v [] := by
  intro issues arrow
  obtain ⟨arrow', h'⟩ := hcast issues arrow
  have hor := ne_of_isOperandKind hnode (.binary .or) rfl
  have hand := ne_of_isOperandKind hnode (.binary .and) rfl
  refine ⟨arrow', ?_⟩
  simp only [binaryRest, bind_run, budget_run]
  apply loop_inr
  simp [binaryStep, h', operator?_run hv, checkMixed, isLogical, hor, hand]

theorem binaryNode_reads {left : Node} (hleft : Phrase d (unaryNode g) u left v)
    (hkind : left.kind ≠ .arrow) (hrest : Reads d {} (binaryRest g left 0) v node w []) :
    Reads d {} (binaryNode g) u node w [] := by
  intro issues arrow
  obtain ⟨arrow₁, h₁⟩ := hleft.reads issues arrow
  obtain ⟨arrow₂, h₂⟩ := hrest issues arrow₁
  refine ⟨arrow₂, ?_⟩
  simp [binaryNode, recover, h₁, hkind]
  exact h₂

theorem binaryNode_phrase (hd : d.typescript = true) (h : Phrase d (unaryNode g) u node v)
    (hnode : isOperandKind node.kind = true) (hv : endsOperators v = true) :
    Phrase d (binaryNode g) u node v := by
  apply h.of_reads
  apply binaryNode_reads h (ne_of_isOperandKind hnode .arrow rfl)
  apply binaryRest_reads _ hnode hv
  intro issues arrow
  exact ⟨arrow, castSuffixes_end_run hd hv⟩

theorem binaryNode_cast_phrase {type : Node} (hd : d.typescript = true)
    (h : Phrase d (unaryNode g) u node v) (hnode : node.kind ≠ .arrow)
    (htype : CastTail d g v type w) :
    Phrase d (binaryNode g) u (castNode node type) w where
  reads := by
    apply binaryNode_reads h hnode
    apply binaryRest_reads _ rfl htype.ends
    apply castSuffixes_cast_reads hd _ htype
    rw [h.start]
    exact h.past.start_le
  opens := h.opens
  start := h.start
  stop := htype.stop
  past := h.past.trans htype.past

theorem conditionalNode_reads (h : Phrase d (binaryNode g) u node v)
    (hv : endsOperators v = true) : Reads d {} (conditionalNode g) u node v [] := by
  intro issues arrow
  obtain ⟨arrow', h'⟩ := h.reads issues arrow
  have hquestion : v.token ≠ .mark .question := ne_of_endsOperators hv rfl
  exact ⟨arrow', by simp [conditionalNode, h', hquestion]⟩

/-- An expression is read up to the place where something may be assigned to it. -/
theorem assignBase_run {left : Node} (h : Phrase d (binaryNode g) u left v)
    (hleft : isOperandKind left.kind = true) (hv : endsOperators v = true) :
    ∀ issues arrow, ∃ arrow', assignBase g (u.state d {} issues arrow) =
      assignmentRest g u.span.start left (v.state d {} issues arrow') := by
  intro issues arrow
  have hyield := isThe_of_opensOperand h.opens "yield" (by decide)
  obtain ⟨arrow', h'⟩ := conditionalNode_reads h hv issues
    (if startsArrow u.token then some u.span.start else none)
  have hstate : { u.state d {} issues arrow with
      arrowStart := if startsArrow u.token then some u.span.start else none } =
      u.state d {} issues (if startsArrow u.token then some u.span.start else none) := rfl
  refine ⟨arrow', ?_⟩
  simp only [assignBase, bind_run, needToken_run h.opens, mode_run, isThe_run, hyield, Bool.and_false,
    Bool.false_eq_true, if_false, position_run, token_run, modify_run, hstate, h', List.nil_append]
  cases hkind : left.kind with
  | name | member | call | paren | asCast => rfl
  | _ => simp [hkind, isOperandKind] at hleft

theorem assignBase_reads {left : Node} {new : List Issue} (h : Phrase d (binaryNode g) u left v)
    (hleft : isOperandKind left.kind = true) (hv : endsOperators v = true)
    (hrest : Reads d {} (assignmentRest g u.span.start left) v node w new) :
    Reads d {} (assignBase g) u node w new := by
  intro issues arrow
  obtain ⟨arrow₁, h₁⟩ := assignBase_run h hleft hv issues arrow
  rw [h₁]
  exact hrest issues arrow₁

theorem assignmentRest_end_run {start : Nat} (hv : v.token ≠ .mark (.assign none))
    (hend : endsOperators v = true) :
    assignmentRest g start node (v.state d {} issues arrow) =
      .ok node (v.state d {} issues arrow) := by
  cases ht : v.token with
  | mark k =>
    cases k with
    | assign op => cases op <;> simp_all [endsOperators]
    | _ => simp [assignmentRest, ht]
  | _ => simp [assignmentRest, ht]

theorem assignNode_reads {new : List Issue} (hu : opensOperand u.token = true)
    (h : Reads d {} (assignBase g) u node v new) : Reads d {} (assignNode g) u node v new := by
  intro issues arrow
  obtain ⟨arrow', h'⟩ := h issues arrow
  have hlt := ne_of_opensOperand hu (.mark (.binary .lt)) rfl
  exact ⟨arrow', by simp [assignNode, genericArrow?, hlt, h']⟩

theorem assignNode_phrase (h : Phrase d (binaryNode g) u node v)
    (hnode : isOperandKind node.kind = true) (hv : endsOperators v = true)
    (hassign : v.token ≠ .mark (.assign none)) : Phrase d (assignNode g) u node v := by
  apply h.of_reads
  apply assignNode_reads h.opens
  apply assignBase_reads h hnode hv
  intro issues arrow
  exact ⟨arrow, assignmentRest_end_run hassign hv⟩

/-! ### Parentheses -/

theorem parenItem_reads (hd : d.typescript = true) (h : Phrase d (binaryNode g) u node v)
    (hu : u.token = .word name true) (hname : isOrdinary name = true)
    (hv : v.token = .mark .comma ∨ v.token = .mark .rparen) :
    Reads d {} (parenItem g) u (.expression node) v [] := by
  intro issues arrow
  obtain ⟨arrow', h'⟩ := h.reads issues (some u.span.start)
  have hstate : { u.state d {} issues arrow with arrowStart := some u.span.start } =
      u.state d {} issues (some u.span.start) := rfl
  have href : u.token.isReference = true := by
    simp [hu, Token.isReference, isReserved_of_isOrdinary hname]
  have hellipsis : u.token ≠ .mark .ellipsis := by simp [hu]
  have hends : endsOperators v = true := by
    obtain hv | hv := hv <;> simp [endsOperators, hv]
  have hassign : v.token ≠ .mark (.assign none) := by
    obtain hv | hv := hv <;> simp [hv]
  have hquestion : v.token ≠ .mark .question := ne_of_endsOperators hends rfl
  have hcolon : v.token ≠ .mark .colon := ne_of_endsOperators hends rfl
  refine ⟨arrow', ?_⟩
  simp [parenItem, hstate, parameterModifier_run hd hu hname, hd, hellipsis, href,
    eat_run_of_ne hellipsis, h', assignmentRest_end_run hassign hends, parenQuestion, hquestion,
    hcolon]

/-- An expression in parentheses or between commas there. -/
structure Element (d : Dialect) (g : Grammar) (u : Stand) (node : Node) (v : Stand) : Prop where
  phrase : Phrase d (binaryNode g) u node v
  kind : isOperandKind node.kind = true
  word : ∃ name, u.token = .word name true ∧ isOrdinary name = true
  ends : v.token = .mark .comma ∨ v.token = .mark .rparen

/-- One turn of the loop over what stands between parentheses. -/
def parenStep (g : Grammar) (found : List ParenItem × Option Span) :
    Parser ((List ParenItem × Option Span) ⊕ (List ParenItem × Option Span)) := do
  let (acc, trailing) := found
  if (← is .rparen) || (← isEnd) then return .inr (acc, trailing)
  let start ← position
  let acc := (← parenItem g) :: acc
  let isArrow ← eat .arrow
  let acc ← if isArrow && acc.getLast?.any ParenItem.isName then do
      let params ← asParameters acc.reverse none
      let body ← arrowBody g false (arePlain params)
      let arrow := Node.mk .arrow (← spanFrom start) (params ++ [body])
      pure (.expression arrow :: acc)
    else pure acc
  if ← is .rparen then return .inl (acc, trailing)
  expect .comma
  let trailing ← if ← is .rparen then some <$> before else pure trailing
  return .inl (acc, trailing)

theorem parenItems_eq (g : Grammar) :
    parenItems g = (do
      expect .lparen
      let (items, trailing) ← loop (parenStep g) (← budget) ([], none)
      expect .rparen
      return (items.reverse, trailing)) := rfl

theorem parenStep_last_reads (acc : List ParenItem) (hd : d.typescript = true)
    (h : Element d g u node v) (hv : v.token = .mark .rparen) :
    Reads d {} (parenStep g (acc, none)) u (.inl (.expression node :: acc, none)) v [] := by
  intro issues arrow
  obtain ⟨name, hu, hname⟩ := h.word
  obtain ⟨arrow', h'⟩ := parenItem_reads hd h.phrase hu hname h.ends issues arrow
  have harrow : eat .arrow (v.state d {} issues arrow') = .ok false (v.state d {} issues arrow') :=
    eat_run_of_ne (by simp [hv])
  exact ⟨arrow', by simp [parenStep, hu, h', harrow, hv]⟩

theorem parenStep_comma_reads (acc : List ParenItem) (hd : d.typescript = true)
    (h : Element d g u node v) (hv : v.token = .mark .comma) (hvw : v.Step w)
    (hw : w.token ≠ .mark .rparen) :
    Reads d {} (parenStep g (acc, none)) u (.inl (.expression node :: acc, none)) w [] := by
  intro issues arrow
  obtain ⟨name, hu, hname⟩ := h.word
  obtain ⟨arrow', h'⟩ := parenItem_reads hd h.phrase hu hname h.ends issues arrow
  have harrow : eat .arrow (v.state d {} issues arrow') = .ok false (v.state d {} issues arrow') :=
    eat_run_of_ne (by simp [hv])
  exact ⟨arrow', by simp [parenStep, hu, h', harrow, hv, expect_run hv hvw, hw]⟩

theorem parenItems_loop_reads (acc : List ParenItem) (fuel : Nat) (hd : d.typescript = true)
    (hnode : Element d g u node v) (h : Listed (Element d g) v nodes x)
    (hx : x.token = .mark .rparen) (hfuel : u.room + 1 < fuel) :
    Reads d {} (loop (parenStep g) fuel (acc, none)) u
      ((node :: nodes).reverse.map .expression ++ acc, none) x [] := by
  obtain ⟨fuel, rfl⟩ : ∃ n, fuel = n + 2 := ⟨fuel - 2, by omega⟩
  induction h generalizing u node acc fuel with
  | nil =>
    intro issues arrow
    obtain ⟨arrow', h'⟩ := parenStep_last_reads acc hd hnode hx issues arrow
    refine ⟨arrow', ?_⟩
    rw [loop_inl h']
    apply loop_inr
    simp [parenStep, hx]
  | @cons v w x y next nodes hv hvw hnext h ih =>
    intro issues arrow
    obtain ⟨name, hw, -⟩ := hnext.word
    have hroom := hnode.phrase.past.room_le
    have hroom' := hvw.shorter.2 (by simp [hw])
    obtain ⟨fuel, rfl⟩ : ∃ n, fuel = n + 1 := ⟨fuel - 1, by omega⟩
    obtain ⟨arrow₁, h₁⟩ := parenStep_comma_reads acc hd hnode hv hvw (by simp [hw])
      issues arrow
    obtain ⟨arrow₂, h₂⟩ := ih (.expression node :: acc) hnext hx fuel (by omega)
      issues arrow₁
    refine ⟨arrow₂, ?_⟩
    rw [loop_inl h₁]
    simpa using h₂

/-- Expressions with commas between them, in parentheses. -/
inductive Group (d : Dialect) (g : Grammar) : Stand → List Node → Stand → Prop
  | mk {u v w x y : Stand} {node : Node} {nodes : List Node} : u.token = .mark .lparen → u.Step v →
      Element d g v node w → Listed (Element d g) w nodes x → x.token = .mark .rparen → x.Step y →
      Group d g u (node :: nodes) y

theorem Group.past (h : Group d g u nodes v) : u.Past v := by
  obtain ⟨-, huv, hnode, hnodes, -, hxy⟩ := h
  exact (hnodes.past (fun h => h.phrase.past) (huv.past.trans hnode.phrase.past)).trans hxy.past

theorem Group.opens (h : Group d g u nodes v) : u.token = .mark .lparen := by
  obtain ⟨hu⟩ := h
  exact hu

theorem Group.kinds (h : Group d g u nodes v) : ∀ node ∈ nodes, isOperandKind node.kind = true := by
  obtain ⟨-, -, hnode, hnodes, -, -⟩ := h
  refine List.forall_mem_cons.mpr ⟨hnode.kind, ?_⟩
  clear hnode
  induction hnodes with
  | nil => simp
  | cons _ _ hnext _ ih => exact List.forall_mem_cons.mpr ⟨hnext.kind, ih⟩

theorem parenItems_reads (hd : d.typescript = true) (h : Group d g u nodes v) :
    Reads d {} (parenItems g) u (nodes.map .expression, none) v [] := by
  obtain ⟨hu, huv, hnode, hnodes, hx, hxy⟩ := h
  rename_i v w x node nodes
  intro issues arrow
  obtain ⟨arrow', h'⟩ := parenItems_loop_reads [] (v.room + 2) hd hnode hnodes hx
    (by omega) issues arrow
  refine ⟨arrow', ?_⟩
  simp [parenItems_eq, expect_run hu huv, h', expect_run hx hxy]

def groupNode (span : Span) : List Node → Node
  | first :: second :: more => .mk .paren span
    [.mk .sequence ⟨first.start, ((second :: more).getLast?.map Node.stop).getD first.stop⟩
      (first :: second :: more)]
  | nodes => .mk .paren span nodes

theorem parenNode_run {start : Nat} (hnodes : nodes ≠ [])
    (hkinds : ∀ node ∈ nodes, isOperandKind node.kind = true) (hstart : start ≤ u.before.stop) :
    parenNode start none (nodes.map .expression) (u.state d {} issues arrow) =
      .ok (groupNode ⟨start, u.before.stop⟩ nodes) (u.state d {} issues arrow) := by
  have hmap : (nodes.map ParenItem.expression).map ParenItem.node = nodes := by
    rw [List.map_map]
    exact List.map_id nodes
  simp only [parenNode, bind_run, hmap]
  rw [forIn_run]
  dsimp only
  rw [forIn_run]
  · simp only [spanFrom_run, Nat.min_eq_left hstart, Nat.max_eq_right hstart]
    match nodes, hnodes with
    | [node], _ => rfl
    | first :: second :: more, _ => rfl
  · intro node hnode
    have hkind := hkinds node hnode
    obtain ⟨kind, span, parts⟩ := node
    cases kind <;> first | rfl | simp [isOperandKind, Node.kind] at hkind
  · intro item hitem
    obtain ⟨node, hnode, rfl⟩ := List.mem_map.mp hitem
    have hkind := hkinds node hnode
    obtain ⟨kind, span, parts⟩ := node
    cases kind <;> first | rfl | simp [isOperandKind, Node.kind] at hkind

theorem parenOrArrow_reads {mayBeArrow : Bool} (hd : d.typescript = true) (h : Group d g u nodes v)
    (harrow : v.token ≠ .mark .arrow) (hcolon : v.token ≠ .mark .colon) :
    Reads d {} (parenOrArrow g mayBeArrow none) u
      (groupNode ⟨u.span.start, v.before.stop⟩ nodes) v [] := by
  intro issues arrow
  have hitems : Reads d {} (withMode ({ · with colonAhead := false, operatorIn := true })
      (parenItems g)) u (nodes.map .expression, none) v [] :=
    Reads.withMode rfl (parenItems_reads hd h)
  obtain ⟨arrow', h'⟩ := hitems issues arrow
  have hnodes : nodes ≠ [] := by
    obtain ⟨-⟩ := h
    simp
  refine ⟨arrow', ?_⟩
  simp [parenOrArrow, h', harrow, hcolon, ParenItem.isParameter,
    parenNode_run hnodes h.kinds h.past.before_le]

theorem groupNode_kind (span : Span) (nodes : List Node) : (groupNode span nodes).kind = .paren := by
  unfold groupNode
  split <;> rfl

theorem groupNode_span (span : Span) (nodes : List Node) : (groupNode span nodes).span = span := by
  unfold groupNode
  split <;> rfl

theorem operandNode_group_phrase (hd : d.typescript = true) (h : Group d g u nodes v)
    (harrow : v.token ≠ .mark .arrow) (hcolon : v.token ≠ .mark .colon) :
    Phrase d (operandNode g) u (groupNode ⟨u.span.start, v.before.stop⟩ nodes) v where
  reads issues arrow := by
    simp only [operandNode, bind_run, here_run, get_run, token_run, h.opens]
    exact parenOrArrow_reads hd h harrow hcolon issues arrow
  opens := by
    rw [h.opens]
    rfl
  start := by rw [Node.start, groupNode_span]
  stop := by rw [Node.stop, groupNode_span]
  past := h.past

/-! ### Assignments -/

theorem emit_run {span : Span} {fault : Fault} (hu : ∀ issue, u.token ≠ .bad issue) :
    emit span fault (u.state d {} issues arrow) =
      .ok () (u.state d {} (⟨span, fault⟩ :: issues) arrow) := by
  have hrecord : record ⟨span, fault⟩ (u.state d {} issues arrow) =
      .ok () (u.state d {} (⟨span, fault⟩ :: issues) arrow) := rfl
  cases ht : u.token with
  | bad issue => exact absurd ht (hu issue)
  | _ => simp [emit, emitIssue, ht, hrecord]

/-- What is wrong with something in parentheses that is assigned to. -/
def targetIssues (target : Node) : List Issue :=
  if target.isPlace then []
  else [⟨target.span, .assignmentTarget⟩, ⟨target.span, .assignmentTarget⟩]

/-- Parentheses around something that stands for a place, or around a call. -/
def isParenTarget (target : Node) : Bool :=
  target.kind = .paren && (target.isPlace || target.unparen.kind = .call)

theorem toPattern_reads {target : Node} (hd : d.typescript = true)
    (h : isParenTarget target = true) (hu : ∀ issue, u.token ≠ .bad issue) :
    Reads d {} (toPattern .assignment target) u target u (targetIssues target) := by
  intro issues arrow
  refine ⟨arrow, ?_⟩
  simp only [isParenTarget, Bool.and_eq_true, decide_eq_true_eq, Bool.or_eq_true] at h
  obtain ⟨hkind, htarget⟩ := h
  have hname : target.name? = none := by simp [Node.name?, hkind]
  by_cases hplace : target.isPlace = true
  · simp [toPattern, asPattern, hkind, checkTarget, hplace, targetIssues]
  · have hcall : target.unparen.kind = .call := by simpa [hplace] using htarget
    simp [toPattern, asPattern, hkind, checkTarget, hplace, targetIssues, hd, emit_run hu, hcall, hname]

def assignmentNode (target value : Node) : Node :=
  .mk (.assign none) ⟨target.start, value.stop⟩ [target, value]

theorem assignmentRest_reads {target value : Node} (hd : d.typescript = true)
    (h : isParenTarget target = true) (hu : u.token = .mark (.assign none)) (huv : u.Step v)
    (hvalue : Phrase d g.assign v value w) (hle : target.start ≤ u.span.start) :
    Reads d {} (assignmentRest g target.start target) u (assignmentNode target value) w
      (targetIssues target) := by
  intro issues arrow
  obtain ⟨arrow₁, h₁⟩ := toPattern_reads (u := u) hd h (by simp [hu]) issues arrow
  obtain ⟨arrow₂, h₂⟩ := hvalue.reads (targetIssues target ++ issues) arrow₁
  have hkind : target.kind = .paren := by
    simp only [isParenTarget, Bool.and_eq_true, decide_eq_true_eq] at h
    exact h.1
  have hstop : target.start ≤ w.before.stop := hle.trans (huv.past.trans hvalue.past).before_le
  refine ⟨arrow₂, ?_⟩
  simp [assignmentRest, hu, h₁, hkind, isAssignable, advance_run huv, h₂, hstop, assignmentNode,
    hvalue.stop]

end
end Parser
end Syntax
end CastLint
