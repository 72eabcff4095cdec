import CastLint.Proofs.ParserSteps

/-! Reading names with their members and calls. -/

namespace CastLint
namespace Syntax

/-- A word without a meaning of its own anywhere in the grammar. -/
def isOrdinary (name : String) : Bool :=
  !((keywords ++ grammarWords ++ strictWords).contains name || isReservedBinding name)

theorem ne_of_isOrdinary {name : String} (h : isOrdinary name = true) (word : String)
    (hword : isOrdinary word = false) : name ≠ word := by
  rintro rfl
  simp [hword] at h

theorem isReserved_of_isOrdinary {name : String} (h : isOrdinary name = true) :
    isReserved name = false := by
  have hawait := ne_of_isOrdinary h "await" (by decide)
  simp only [isOrdinary, List.contains_append, Bool.not_eq_true', Bool.or_eq_false_iff] at h
  simp [isReserved, isKeyword, h, hawait, -List.contains_eq_mem]

namespace Parser

/-- A kind of operand that members and calls can follow. -/
def isChainKind : Kind → Bool
  | .name _ | .member | .call | .paren => true
  | _ => false

theorem ne_of_isChainKind {kind : Kind} (h : isChainKind kind = true) (other : Kind)
    (hother : isChainKind other = false) : kind ≠ other := by
  rintro rfl
  simp [hother] at h

theorem isChain_of_isChainKind {node : Node} (h : isChainKind node.kind = true) :
    isChain node = false := by
  obtain ⟨kind, span, parts⟩ := node
  cases kind <;> first | rfl | simp [isChainKind, Node.kind] at h

/-- A token that ends the members of an operand, and its calls too unless they are refused. -/
def endsChain (noCall : Bool) : Token → Bool
  | .mark .rparen | .mark .comma | .mark .semi | .mark (.assign none) | .eof | .word _ _ => true
  | .mark .lparen => noCall
  | _ => false

theorem ne_of_endsChain {noCall : Bool} {t : Token} (h : endsChain noCall t = true)
    (other : Token) (hother : endsChain noCall other = false) : t ≠ other := by
  rintro rfl
  simp [hother] at h

theorem endsChain_true {noCall : Bool} {t : Token} (h : endsChain noCall t = true) :
    endsChain true t = true := by
  cases noCall with
  | true => exact h
  | false =>
    unfold endsChain at h ⊢
    split at h <;> simp_all

/-- A token with which an operand starts that is a name or stands in parentheses. -/
def opensOperand : Token → Bool
  | .word name true => isOrdinary name
  | .mark .lparen => true
  | _ => false

theorem ne_of_opensOperand {t : Token} (h : opensOperand t = true) (other : Token)
    (hother : opensOperand other = false) : t ≠ other := by
  rintro rfl
  simp [hother] at h

theorem isThe_of_opensOperand {t : Token} (h : opensOperand t = true) (word : String)
    (hword : isOrdinary word = false) : t.isThe word = false := by
  cases t with
  | word name plain =>
    cases plain with
    | false => rfl
    | true => simpa [Token.isThe] using ne_of_isOrdinary h word hword
  | _ => rfl

/-- What a parser reads from one token to another without a mistake, the first and the last of
these tokens being the ends of the node. -/
structure Phrase (d : Dialect) (p : Parser Node) (u : Stand) (node : Node) (v : Stand) : Prop where
  reads : Reads d {} p u node v []
  opens : opensOperand u.token = true
  start : node.start = u.span.start
  stop : node.stop = v.before.stop
  past : u.Past v

section

variable {g : Grammar} {d : Dialect} {issues : List Issue} {arrow : Option Nat}
  {u v w x : Stand} {name : String} {object node : Node} {nodes : List Node} {noCall : Bool}

theorem needToken_run (h : opensOperand u.token = true) :
    needToken (u.state d {} issues arrow) = .ok () (u.state d {} issues arrow) := by
  cases ht : u.token with
  | bad => simp [ht, opensOperand] at h
  | eof => simp [ht, opensOperand] at h
  | _ => simp [needToken, ht]

/-! ### Names -/

theorem identifier_run (hu : u.token = .word name true) (hname : isOrdinary name = true)
    (huv : u.Step v) (yieldAllowed : Bool) :
    identifier yieldAllowed (u.state d {} issues arrow) =
      .ok (.mk (.name name) u.span []) (v.state d {} issues arrow) := by
  simp [identifier, hu, advance_run huv, isReserved_of_isOrdinary hname]

theorem nameOrArrow_run (hu : u.token = .word name true) (hname : isOrdinary name = true)
    (huv : u.Step v) (hv : v.token ≠ .mark .arrow) (mayBeArrow : Bool) :
    nameOrArrow g mayBeArrow (u.state d {} issues arrow) =
      .ok (.mk (.name name) u.span []) (v.state d {} issues arrow) := by
  have hasync := ne_of_isOrdinary hname "async" (by decide)
  simp only [nameOrArrow, isThe_run, hu, Token.isThe, bind_run, mode_run,
    identifier_run hu hname huv, onNewLine_run]
  cases mayBeArrow <;> cases v.newline <;> simp [hasync, eat_run_of_ne hv]

theorem wordOperand_run (hu : u.token = .word name true) (hname : isOrdinary name = true)
    (huv : u.Step v) (hv : v.token ≠ .mark .arrow) (mayBeArrow : Bool) :
    wordOperand g mayBeArrow (u.state d {} issues arrow) =
      .ok (.mk (.name name) u.span []) (v.state d {} issues arrow) := by
  have htext : wordText (u.state d {} issues arrow) = .ok name (u.state d {} issues arrow) := by
    simp [wordText, hu]
  have hasync := ne_of_isOrdinary hname "async" (by decide)
  have hawait := ne_of_isOrdinary hname "await" (by decide)
  have hlet := ne_of_isOrdinary hname "let" (by decide)
  have href : u.token.isReference = true := by
    simp [hu, Token.isReference, isReserved_of_isOrdinary hname]
  simp only [wordOperand, bind_run, here_run, htext]
  split
  case h_7 => simp [hasync, hawait, hlet, href, nameOrArrow_run hu hname huv hv]
  all_goals exact absurd hname (by decide)

theorem operandNode_name_phrase (hu : u.token = .word name true) (hname : isOrdinary name = true)
    (huv : u.Step v) (hv : v.token ≠ .mark .arrow) :
    Phrase d (operandNode g) u (.mk (.name name) u.span []) v where
  reads issues arrow := ⟨arrow, by simp [operandNode, hu, wordOperand_run hu hname huv hv]⟩
  opens := by
    rw [hu]
    exact hname
  start := rfl
  stop := by
    rw [huv.before]
    rfl
  past := huv.past

theorem anyName_run {m : Mode} (hu : u.token = .word name true) (huv : u.Step v) :
    anyName (u.state d m issues arrow) =
      .ok (.mk (.name name) u.span []) (v.state d m issues arrow) := by
  simp [anyName, hu, advance_run huv]

/-! ### Arguments -/

/-- Phrases of one kind, each of them behind a comma. -/
inductive Listed (item : Stand → Node → Stand → Prop) : Stand → List Node → Stand → Prop
  | nil {u : Stand} : Listed item u [] u
  | cons {u v w x : Stand} {node : Node} {nodes : List Node} : u.token = .mark .comma → u.Step v →
      item v node w → Listed item w nodes x → Listed item u (node :: nodes) x

theorem Listed.past {item : Stand → Node → Stand → Prop} (h : Listed item u nodes x)
    (hitem : ∀ {u node v}, item u node v → u.Past v) (hu : w.Past u) : w.Past x := by
  induction h with
  | nil => exact hu
  | cons _ huv hnode _ ih => exact ih ((hu.trans huv.past).trans (hitem hnode))

inductive Arguments (d : Dialect) (g : Grammar) : Stand → List Node → Stand → Prop
  | mk {u v w x y : Stand} {node : Node} {nodes : List Node} : u.token = .mark .lparen → u.Step v →
      Phrase d g.assign v node w → Listed (Phrase d g.assign) w nodes x → x.token = .mark .rparen →
      x.Step y → Arguments d g u (node :: nodes) y

theorem Arguments.opens (h : Arguments d g u nodes v) : u.token = .mark .lparen := by
  obtain ⟨hu⟩ := h
  exact hu

theorem Arguments.past (h : Arguments d g u nodes v) : u.Past v := by
  obtain ⟨-, huv, hnode, hnodes, -, hxy⟩ := h
  exact (hnodes.past Phrase.past (huv.past.trans hnode.past)).trans hxy.past

theorem Arguments.room_lt (h : Arguments d g u nodes v) : v.room < u.room := by
  obtain ⟨-, huv, hnode, hnodes, -, hxy⟩ := h
  have h₁ := huv.shorter.2 (ne_of_opensOperand hnode.opens .eof rfl)
  have h₂ := (hnodes.past Phrase.past hnode.past).room_le
  have h₃ := hxy.past.room_le
  omega

/-- One turn of the loop over the arguments of a call. -/
def argumentStep (g : Grammar) (commaRefused : Bool) (start : Nat) (acc : List Node) :
    Parser (List Node ⊕ List Node) := do
  if (← is .rparen) || (← isEnd) then return .inr acc
  unless acc.isEmpty do
    expect .comma
    if (← is .rparen) && commaRefused then failAt (← spanFrom start) .importComma
  if !acc.isEmpty && (← is .rparen) then return .inr acc
  return .inl ((← spreadable g) :: acc)

theorem argumentsOf_eq (g : Grammar) (commaRefused : Bool) :
    argumentsOf g commaRefused = withMode ({ · with operatorIn := true, colonAhead := false }) do
      let start ← position
      expect .lparen
      let found ← loop (argumentStep g commaRefused start) (← budget) []
      expect .rparen
      return found.reverse := rfl

theorem spreadable_reads (h : Phrase d g.assign u node v) :
    Reads d {} (spreadable g) u node v [] := by
  intro issues arrow
  obtain ⟨arrow', h'⟩ := h.reads issues arrow
  have hellipsis := ne_of_opensOperand h.opens (.mark .ellipsis) rfl
  exact ⟨arrow', by simp [spreadable, eat_run_of_ne hellipsis, h']⟩

theorem arguments_loop_reads (start : Nat) {fuel : Nat} {acc : List Node}
    (h : Listed (Phrase d g.assign) u nodes v) (hacc : acc ≠ []) (hv : v.token = .mark .rparen)
    (hfuel : u.room < fuel) :
    Reads d {} (loop (argumentStep g false start) fuel acc) u (nodes.reverse ++ acc) v [] := by
  obtain ⟨fuel, rfl⟩ : ∃ n, fuel = n + 1 := ⟨fuel - 1, by omega⟩
  induction h generalizing acc fuel with
  | nil =>
    intro issues arrow
    exact ⟨arrow, loop_inr (by simp [argumentStep, hv])⟩
  | @cons u v w x node nodes hu huv hnode h ih =>
    intro issues arrow
    have hparen := ne_of_opensOperand hnode.opens (.mark .rparen) rfl
    have heof := ne_of_opensOperand hnode.opens .eof rfl
    have hroom := huv.shorter.2 heof
    have hroom' := hnode.past.room_le
    obtain ⟨fuel, rfl⟩ : ∃ n, fuel = n + 1 := ⟨fuel - 1, by omega⟩
    obtain ⟨arrow₁, h₁⟩ := spreadable_reads hnode issues arrow
    obtain ⟨arrow₂, h₂⟩ := ih (List.cons_ne_nil node acc) hv fuel (by omega) issues arrow₁
    refine ⟨arrow₂, ?_⟩
    rw [loop_inl (b := node :: acc) (t := w.state d {} issues arrow₁)]
    · simpa using h₂
    · simp [argumentStep, hu, hacc, expect_run hu huv, hparen, h₁]

theorem Arguments.reads (h : Arguments d g u nodes v) :
    Reads d {} (argumentsOf g false) u nodes v [] := by
  obtain ⟨hu, huv, hnode, hnodes, hx, hxy⟩ := h
  rename_i v w x node nodes
  rw [argumentsOf_eq]
  apply Reads.withMode rfl
  intro issues arrow
  have hparen := ne_of_opensOperand hnode.opens (.mark .rparen) rfl
  have heof := ne_of_opensOperand hnode.opens .eof rfl
  have hroom := hnode.past.room_le
  obtain ⟨arrow₁, h₁⟩ := spreadable_reads hnode issues arrow
  obtain ⟨arrow₂, h₂⟩ := arguments_loop_reads u.span.start hnodes
    (List.cons_ne_nil node []) hx (Nat.lt_succ_of_le hroom) issues arrow₁
  have hloop : loop (argumentStep g false u.span.start) (v.room + 2) []
      (v.state d {} issues arrow) = .ok (nodes.reverse ++ [node]) (x.state d {} issues arrow₂) := by
    rw [loop_inl (b := [node]) (t := w.state d {} issues arrow₁)]
    · exact h₂
    · simp [argumentStep, hparen, heof, h₁]
  exact ⟨arrow₂, by simp [expect_run hu huv, hloop, expect_run hx hxy]⟩

/-! ### Members and calls -/

def member (object : Node) (name : String) (key : Span) : Node :=
  .mk .member ⟨object.start, key.stop⟩ [object, .mk (.plainKey name) key []]

def call (callee : Node) (args : List Node) (stop : Nat) : Node :=
  .mk .call ⟨callee.start, stop⟩ (callee :: args)

/-- The members and calls behind an operand, one behind the other; calls may be refused. -/
inductive Chain (d : Dialect) (g : Grammar) (noCall : Bool) : Node → Stand → Node → Stand → Prop
  | refl {object : Node} {u : Stand} : Chain d g noCall object u object u
  | member {object node : Node} {u v w x : Stand} {name : String} : u.token = .mark .dot →
      u.Step v → v.token = .word name true → v.Step w →
      Chain d g noCall (member object name v.span) w node x → Chain d g noCall object u node x
  | call {object node : Node} {args : List Node} {u v w : Stand} : noCall = false →
      Arguments d g u args v → Chain d g noCall (call object args v.before.stop) v node w →
      Chain d g noCall object u node w

theorem Chain.kind (h : Chain d g noCall object u node x)
    (hobject : isChainKind object.kind = true) : isChainKind node.kind = true := by
  induction h with
  | refl => exact hobject
  | member _ _ _ _ _ ih => exact ih rfl
  | call _ _ _ ih => exact ih rfl

theorem Chain.start (h : Chain d g noCall object u node x) : node.start = object.start := by
  induction h with
  | refl => rfl
  | member _ _ _ _ _ ih => exact ih
  | call _ _ _ ih => exact ih

theorem Chain.stop (h : Chain d g noCall object u node x) (hobject : object.stop = u.before.stop) :
    node.stop = x.before.stop := by
  induction h with
  | refl => exact hobject
  | member _ _ _ hvw _ ih =>
    apply ih
    rw [hvw.before]
    rfl
  | call _ _ _ ih => exact ih rfl

theorem Chain.past (h : Chain d g noCall object u node x) (hu : w.Past u) : w.Past x := by
  induction h with
  | refl => exact hu
  | member _ huv _ hvw _ ih => exact ih ((hu.trans huv.past).trans hvw.past)
  | call _ hargs _ ih => exact ih (hu.trans hargs.past)

/-- Behind an operand stands a dot, an opening parenthesis or what ends the chain. -/
theorem Chain.token_ne {t : Token} (h : Chain d g noCall object u node x)
    (hx : endsChain noCall x.token = true) (ht : endsChain true t = false)
    (hdot : .mark .dot ≠ t) : u.token ≠ t := by
  cases h with
  | refl => exact ne_of_endsChain (endsChain_true hx) t ht
  | member hu =>
    rw [hu]
    exact hdot
  | call _ hargs =>
    rw [hargs.opens]
    rintro rfl
    cases ht

/-- A chain starts with members, and goes on with a call if it goes on at all. -/
theorem Chain.exists_members (h : Chain d g noCall object u node x) :
    ∃ callee v, Chain d g true object u callee v ∧
      (callee = node ∧ v = x ∨ ∃ args w, Arguments d g v args w ∧
        Chain d g noCall (Parser.call callee args w.before.stop) w node x) := by
  induction h with
  | refl => exact ⟨_, _, .refl, Or.inl ⟨rfl, rfl⟩⟩
  | member hu huv hv hvw _ ih =>
    obtain ⟨callee, w, hmembers, hrest⟩ := ih
    exact ⟨callee, w, .member hu huv hv hvw hmembers, hrest⟩
  | call _ hargs h _ => exact ⟨_, _, .refl, Or.inr ⟨_, _, hargs, h⟩⟩

theorem memberProperty_run (hu : u.token = .word name true) (huv : u.Step v) :
    memberProperty (u.state d {} issues arrow) =
      .ok (.mk (.plainKey name) u.span []) (v.state d {} issues arrow) := by
  simp [memberProperty, hu, anyName_run hu huv, Node.name?, Node.kind, Node.span]

theorem instantiated_run {start : Nat} (hu : u.token ≠ .mark (.binary .lt)) :
    instantiated g start node (u.state d {} issues arrow) =
      .ok node (u.state d {} issues arrow) := by
  simp [instantiated, hu]

theorem suffix_end_run {start : Nat} {noComputed : Bool} (hnode : isChainKind node.kind = true)
    (hu : endsChain noCall u.token = true) :
    suffix g start noCall noComputed node (u.state d {} issues arrow) =
      .ok (node, false) (u.state d {} issues arrow) := by
  have hsuper := ne_of_isChainKind hnode .superExpr rfl
  have himport := ne_of_isChainKind hnode .importCall rfl
  have hbang := ne_of_endsChain hu (.mark .bang) rfl
  have hlt := ne_of_endsChain hu (.mark (.binary .lt)) rfl
  have hshl := ne_of_endsChain hu (.mark (.binary .shl)) rfl
  have hquestion := ne_of_endsChain hu (.mark .question) rfl
  have hbracket := ne_of_endsChain hu (.mark .lbracket) rfl
  have hdot := ne_of_endsChain hu (.mark .dot) rfl
  have hcall : ¬(u.token = .mark .lparen ∧ noCall = false) := by
    rintro ⟨h, rfl⟩
    simp [h, endsChain] at hu
  simp [suffix, eatLink, hsuper, himport, hbang, hlt, hshl, hquestion, hbracket, hdot, hcall,
    eat_run_of_ne]
  cases ht : u.token with
  | template => simp [ht, endsChain] at hu
  | _ => rfl

theorem suffix_member_run {start : Nat} {noComputed : Bool}
    (hobject : isChainKind object.kind = true) (hstart : object.start ≤ u.span.start)
    (hu : u.token = .mark .dot) (huv : u.Step v) (hv : v.token = .word name true)
    (hvw : v.Step w) (hw : w.token ≠ .mark (.binary .lt)) :
    suffix g start noCall noComputed object (u.state d {} issues arrow) =
      .ok (member object name v.span, true) (w.state d {} issues arrow) := by
  have hsuper := ne_of_isChainKind hobject .superExpr rfl
  have himport := ne_of_isChainKind hobject .importCall rfl
  have hbracket : eat .lbracket (u.state d {} issues arrow) =
      .ok false (u.state d {} issues arrow) := eat_run_of_ne (by simp [hu])
  have hle : object.start ≤ v.span.stop :=
    (hstart.trans huv.past.start_le).trans hvw.forward.1
  simp [suffix, hu, hsuper, himport, eatLink, hbracket, eat_run hu huv, namedMember,
    memberProperty_run hv hvw, instantiated_run hw, memberNode, isChain_of_isChainKind hobject,
    member, hvw.before, hle]

theorem suffix_call_reads {args : List Node} {start : Nat} (hobject : isChainKind object.kind = true)
    (hstart : object.start = start) (hle : start ≤ u.span.start) (h : Arguments d g u args v) :
    Reads d {} (suffix g start false false object) u
      (call object args v.before.stop, true) v [] := by
  intro issues arrow
  subst hstart
  obtain ⟨arrow', h'⟩ := h.reads issues arrow
  have hu := h.opens
  have hstop := hle.trans h.past.before_le
  have hsuper := ne_of_isChainKind hobject .superExpr rfl
  have himport := ne_of_isChainKind hobject .importCall rfl
  have hbracket : eat .lbracket (u.state d {} issues arrow) =
      .ok false (u.state d {} issues arrow) := eat_run_of_ne (by simp [hu])
  refine ⟨arrow', ?_⟩
  simp [suffix, hu, hsuper, himport, eatLink, hbracket, callSuffix, h', hstop, callNode,
    isChain_of_isChainKind hobject, call]

/-- The loop over members and calls, which makes fewer turns than there are characters. -/
theorem suffixes_loop_reads {start : Nat} (fuel : Nat) (h : Chain d g noCall object u node x)
    (hobject : isChainKind object.kind = true) (hstart : object.start = start)
    (hle : start ≤ u.span.start) (hx : endsChain noCall x.token = true) (hfuel : u.room < fuel) :
    Reads d {} (loop (fun node => do
        let (node, more) ← suffix g start noCall false node
        if more then return .inl node else return .inr node) fuel object) u node x [] := by
  obtain ⟨fuel, rfl⟩ : ∃ n, fuel = n + 1 := ⟨fuel - 1, by omega⟩
  induction h generalizing fuel with
  | refl =>
    intro issues arrow
    exact ⟨arrow, loop_inr (by simp [suffix_end_run hobject hx])⟩
  | @member object node u v w x name hu huv hv hvw h ih =>
    intro issues arrow
    have hlt := h.token_ne hx (t := .mark (.binary .lt)) rfl (by simp)
    have hroom := huv.shorter.2 (by simp [hv])
    have hroom' := hvw.past.room_le
    have hle' := hle.trans (huv.past.trans hvw.past).start_le
    obtain ⟨fuel, rfl⟩ : ∃ n, fuel = n + 1 := ⟨fuel - 1, by omega⟩
    obtain ⟨arrow', h'⟩ := ih rfl hstart hle' hx fuel (by omega) issues arrow
    refine ⟨arrow', ?_⟩
    rw [loop_inl (b := member object name v.span) (t := w.state d {} issues arrow)]
    · exact h'
    · simp [suffix_member_run hobject (hstart.trans_le hle) hu huv hv hvw hlt]
  | @call object node args u v w hcall hargs h ih =>
    intro issues arrow
    subst hcall
    have hroom := hargs.room_lt
    obtain ⟨fuel, rfl⟩ : ∃ n, fuel = n + 1 := ⟨fuel - 1, by omega⟩
    obtain ⟨arrow₁, h₁⟩ := suffix_call_reads hobject hstart hle hargs issues arrow
    obtain ⟨arrow₂, h₂⟩ := ih rfl hstart (hle.trans hargs.past.start_le) hx fuel (by omega)
      issues arrow₁
    refine ⟨arrow₂, ?_⟩
    rw [loop_inl (b := Parser.call object args v.before.stop) (t := v.state d {} issues arrow₁)]
    · exact h₂
    · simp [h₁]

theorem suffixes_reads (h : Chain d g noCall object u node x)
    (hobject : isChainKind object.kind = true) (hle : object.start ≤ u.span.start)
    (hx : endsChain noCall x.token = true) :
    Reads d {} (suffixes g noCall false object) u node x [] := by
  intro issues arrow
  obtain ⟨arrow', h'⟩ := suffixes_loop_reads (u.room + 2) h hobject rfl hle hx
    (by omega) issues arrow
  refine ⟨arrow', ?_⟩
  simp only [suffixes, bind_run, budget_run]
  exact h'

theorem memberOrNew_reads (hobject : Phrase d (operandNode g) u object v)
    (hkind : isChainKind object.kind = true) (h : Chain d g true object v node w)
    (hw : endsChain true w.token = true) : Reads d {} (memberOrNew g) u node w [] := by
  intro issues arrow
  have hnew := isThe_of_opensOperand hobject.opens "new" (by decide)
  have hsuper := isThe_of_opensOperand hobject.opens "super" (by decide)
  have himport := isThe_of_opensOperand hobject.opens "import" (by decide)
  have harrow := ne_of_isChainKind hkind .arrow rfl
  have hlt := h.token_ne hw (t := .mark (.binary .lt)) rfl (by simp)
  have hle : object.start ≤ v.span.start := by
    rw [hobject.start]
    exact hobject.past.start_le
  obtain ⟨arrow₁, h₁⟩ := hobject.reads issues arrow
  obtain ⟨arrow₂, h₂⟩ := suffixes_reads h hkind hle hw issues arrow₁
  exact ⟨arrow₂, by
    simp [memberOrNew, hnew, hsuper, himport, h₁, harrow, instantiated_run hlt, h₂]⟩

/-- The parts of a call or member that come before the first call. -/
theorem callOrMember_end_reads (hu : opensOperand u.token = true)
    (hreads : Reads d {} (memberOrNew g) u node v []) (hkind : isChainKind node.kind = true)
    (hv : endsChain false v.token = true) : Reads d {} (callOrMember g) u node v [] := by
  intro issues arrow
  obtain ⟨arrow', h'⟩ := hreads issues arrow
  have hlt := ne_of_opensOperand hu (.mark (.binary .lt)) rfl
  have hsuper := isThe_of_opensOperand hu "super" (by decide)
  have himport := isThe_of_opensOperand hu "import" (by decide)
  have harrow := ne_of_isChainKind hkind .arrow rfl
  have hnew := ne_of_isChainKind hkind (.new false) rfl
  have hlt' := ne_of_endsChain hv (.mark (.binary .lt)) rfl
  have hshl := ne_of_endsChain hv (.mark (.binary .shl)) rfl
  have hparen := ne_of_endsChain hv (.mark .lparen) rfl
  refine ⟨arrow', ?_⟩
  cases hmarkup : d.markup <;>
    simp [callOrMember, hmarkup, needToken_run hu, hlt, hsuper, himport, h', harrow, hlt', hshl,
      hnew, hparen]

theorem callOrMember_call_reads {callee : Node} {args : List Node}
    (hu : opensOperand u.token = true) (hreads : Reads d {} (memberOrNew g) u callee v [])
    (hkind : isChainKind callee.kind = true) (hstart : callee.start = u.span.start)
    (huv : u.Past v) (hargs : Arguments d g v args w)
    (h : Chain d g false (call callee args w.before.stop) w node x)
    (hx : endsChain false x.token = true) : Reads d {} (callOrMember g) u node x [] := by
  intro issues arrow
  have hv := hargs.opens
  have hpast := huv.trans hargs.past
  have hlt := ne_of_opensOperand hu (.mark (.binary .lt)) rfl
  have hsuper := isThe_of_opensOperand hu "super" (by decide)
  have himport := isThe_of_opensOperand hu "import" (by decide)
  have harrow := ne_of_isChainKind hkind .arrow rfl
  have hnew := ne_of_isChainKind hkind (.new false) rfl
  have hstop := hpast.before_le
  obtain ⟨arrow₁, h₁⟩ := hreads issues arrow
  obtain ⟨arrow₂, h₂⟩ := hargs.reads issues arrow₁
  obtain ⟨arrow₃, h₃⟩ := suffixes_reads h rfl (hstart.trans_le hpast.start_le) hx issues arrow₂
  rw [call, hstart] at h₃
  refine ⟨arrow₃, ?_⟩
  cases hmarkup : d.markup <;>
    simp [callOrMember, hmarkup, needToken_run hu, hlt, hsuper, himport, h₁, harrow, hv, hnew,
      arguments, h₂, callNode, isChain_of_isChainKind hkind, hstop, h₃]

theorem callOrMember_phrase (hobject : Phrase d (operandNode g) u object v)
    (hkind : isChainKind object.kind = true) (h : Chain d g false object v node w)
    (hw : endsChain false w.token = true) : Phrase d (callOrMember g) u node w where
  reads := by
    obtain ⟨callee, x, hmembers, ⟨rfl, rfl⟩ | ⟨args, y, hargs, hrest⟩⟩ := h.exists_members
    · have hreads := memberOrNew_reads hobject hkind hmembers (endsChain_true hw)
      exact callOrMember_end_reads hobject.opens hreads (hmembers.kind hkind) hw
    · have hx : endsChain true x.token = true := by
        rw [hargs.opens]
        rfl
      have hreads := memberOrNew_reads hobject hkind hmembers hx
      exact callOrMember_call_reads hobject.opens hreads (hmembers.kind hkind)
        (hmembers.start.trans hobject.start) (hmembers.past hobject.past) hargs hrest hw
  opens := hobject.opens
  start := h.start.trans hobject.start
  stop := h.stop hobject.stop
  past := h.past hobject.past

end
end Parser
end Syntax
end CastLint
