import CastLint.Proofs.Scripts
import Mathlib.Data.List.Chain

/-! How scripts are read. Every construct of a script is read as the tree that it stands for, from
its first token up to the token behind it, and a script whose lines do not run into one another is
read line by line. -/

namespace CastLint
namespace Script

open Syntax Syntax.Parser

/-- A mark that ends an item of a list or a statement. -/
def closesItem : Token → Bool
  | .mark .comma | .mark .rparen | .mark .semi => true
  | _ => false

section

variable {d : Dialect} {g : Grammar} {noCall : Bool} {p : Place} {rest : List Glyph} {u : Stand}

theorem endsChain_of_closesItem {t : Token} (h : closesItem t = true) : endsChain noCall t = true := by
  unfold closesItem at h
  split at h <;> first | rfl | simp at h

theorem endsOperators_of_closesItem (h : closesItem u.token = true) : endsOperators u = true := by
  unfold closesItem at h
  split at h <;> simp_all [endsOperators]

theorem ne_assign_of_closesItem {t : Token} (h : closesItem t = true) : t ≠ .mark (.assign none) := by
  rintro rfl
  simp [closesItem] at h

/-! ### Paths -/

theorem keyNodes_chain (object : Node) (keys : List Word) (h : Apart (keyGlyphs keys ++ rest)) :
    Chain d g noCall object (p.stand (keyGlyphs keys ++ rest)) (keyNodes object p keys)
      ((p.after (keyGlyphs keys)).stand rest) := by
  induction keys generalizing object p with
  | nil => exact .refl
  | cons k keys ih =>
    obtain ⟨hdot, hword, hkeys⟩ := h
    exact .member rfl (sign_step ⟨hdot, hword, hkeys⟩) rfl (word_step ⟨hword, hkeys⟩) (ih _ hkeys)

theorem Path.callOrMember_phrase (path : Path) (h : Apart (path.glyphs ++ rest))
    (hrest : endsChain false ((p.after path.glyphs).stand rest).token = true) :
    Phrase d (callOrMember g) (p.stand (path.glyphs ++ rest)) (path.node p)
      ((p.after path.glyphs).stand rest) := by
  have hchain : Chain d g false (nameNode p path.head)
      ((p.past (.word path.head.toWord)).stand (keyGlyphs path.keys ++ rest)) (path.node p)
      ((p.after path.glyphs).stand rest) := keyNodes_chain _ path.keys h.2
  have harrow := hchain.token_ne hrest (t := .mark .arrow) rfl (by simp)
  have hname : Phrase d (operandNode g) (p.stand (path.glyphs ++ rest)) (nameNode p path.head) _ :=
    operandNode_name_phrase rfl path.head.ordinary (word_step h) harrow
  exact Parser.callOrMember_phrase hname rfl hchain hrest

theorem keyNodes_kind (object : Node) (keys : List Word) (h : isChainKind object.kind = true) :
    isChainKind (keyNodes object p keys).kind = true := by
  induction keys generalizing object p with
  | nil => exact h
  | cons k keys ih => exact ih _ rfl

theorem Path.node_kind (path : Path) : isChainKind (path.node p).kind = true :=
  keyNodes_kind _ _ rfl

theorem Path.unaryNode_phrase (path : Path) (h : Apart (path.glyphs ++ rest))
    (hrest : endsChain false ((p.after path.glyphs).stand rest).token = true) :
    Phrase d (unaryNode g.over) (p.stand (path.glyphs ++ rest)) (path.node p)
      ((p.after path.glyphs).stand rest) :=
  Parser.unaryNode_phrase (path.callOrMember_phrase h hrest)
    (ne_of_isChainKind path.node_kind .arrow rfl) hrest

theorem Path.binaryNode_phrase (path : Path) (hd : d.typescript = true)
    (h : Apart (path.glyphs ++ rest))
    (hrest : closesItem ((p.after path.glyphs).stand rest).token = true) :
    Phrase d (binaryNode g.over) (p.stand (path.glyphs ++ rest)) (path.node p)
      ((p.after path.glyphs).stand rest) :=
  Parser.binaryNode_phrase hd (path.unaryNode_phrase h (endsChain_of_closesItem hrest))
    (isOperandKind_of_isChainKind path.node_kind) (endsOperators_of_closesItem hrest)

theorem Path.assign_phrase (path : Path) (hd : d.typescript = true)
    (h : Apart (path.glyphs ++ rest))
    (hrest : closesItem ((p.after path.glyphs).stand rest).token = true) :
    Phrase d g.over.over.assign (p.stand (path.glyphs ++ rest)) (path.node p)
      ((p.after path.glyphs).stand rest) :=
  assignNode_phrase (path.binaryNode_phrase hd h hrest)
    (isOperandKind_of_isChainKind path.node_kind) (endsOperators_of_closesItem hrest)
    (ne_assign_of_closesItem hrest)

/-! ### Terms -/

theorem MockType.typeName (type : MockType)
    (h : Apart (.word jest.toWord :: .sign .dot :: .word type.word :: rest))
    (hrest : endsOperators ((p.after [.word jest.toWord, .sign .dot, .word type.word]).stand rest) =
      true) :
    TypeName (p.stand (.word jest.toWord :: .sign .dot :: .word type.word :: rest)) jest.text
      type.word.text (type.node p)
      ((p.after [.word jest.toWord, .sign .dot, .word type.word]).stand rest) := by
  obtain ⟨hjest, hdot, htype, hrest'⟩ := h
  exact .mk rfl jest.ordinary (word_step ⟨hjest, hdot, htype, hrest'⟩) rfl
    (sign_step ⟨hdot, htype, hrest'⟩) rfl (word_step ⟨htype, hrest'⟩) hrest

theorem MockType.castTail (type : MockType) (hd : d.typescript = true)
    (h : Apart (type.glyphs ++ rest))
    (hrest : endsOperators ((p.after type.glyphs).stand rest) = true)
    (hline : p.line = false) :
    CastTail d g.over.over (p.stand (type.glyphs ++ rest)) (type.node (typePlace p))
      ((p.after type.glyphs).stand rest) := by
  have hname := type.typeName (p := typePlace p) h.2.2.2 hrest
  exact ⟨rfl, hline, _, _, _, word_step h.2, hname, typeNode_reads hd hname⟩

theorem keyGlyphs_line (keys : List Word) (h : p.line = false) :
    (p.after (keyGlyphs keys)).line = false := by
  induction keys generalizing p with
  | nil => exact h
  | cons k keys ih => exact ih rfl

theorem Path.after_line (path : Path) : (p.after path.glyphs).line = false :=
  keyGlyphs_line path.keys rfl

theorem helper_chain {node : Node} {x : Stand} (h : Apart (helperGlyphs ++ rest))
    (hchain : Chain d g noCall (helperNode p) ((p.after helperGlyphs).stand rest) node x) :
    Chain d g noCall (nameNode p jest) ((p.past (.word jest.toWord)).stand
      (.sign .dot :: .word mocked :: rest)) node x := by
  obtain ⟨-, hdot, hword, hrest⟩ := h
  exact .member rfl (sign_step ⟨hdot, hword, hrest⟩) rfl (word_step ⟨hword, hrest⟩) hchain

theorem helper_phrase {node : Node} {x : Stand} (h : Apart (helperGlyphs ++ rest))
    (hchain : Chain d g false (helperNode p) ((p.after helperGlyphs).stand rest) node x)
    (hx : endsChain false x.token = true) :
    Phrase d (callOrMember g) (p.stand (helperGlyphs ++ rest)) node x := by
  have hname : Phrase d (operandNode g) (p.stand (helperGlyphs ++ rest)) (nameNode p jest) _ :=
    operandNode_name_phrase rfl jest.ordinary (word_step h) (by simp [Sign.mark])
  exact Parser.callOrMember_phrase hname rfl (helper_chain h hchain) hx

theorem Path.arguments (path : Path) (hd : d.typescript = true)
    (h : Apart (.sign .lparen :: (path.glyphs ++ .sign .rparen :: rest))) :
    Arguments d g.over.over (p.stand (.sign .lparen :: (path.glyphs ++ .sign .rparen :: rest)))
      [path.node (p.past (.sign .lparen))]
      ((p.after (.sign .lparen :: (path.glyphs ++ [.sign .rparen]))).stand rest) := by
  have hpath := path.assign_phrase (g := g) (p := p.past (.sign .lparen)) hd h.2 rfl
  have hclose := sign_step (p := (p.past (.sign .lparen)).after path.glyphs) h.2.of_append
  rw [Place.after_cons, Place.after_append]
  exact .mk rfl (sign_step h) hpath .nil rfl hclose

theorem Term.binaryNode_phrase (t : Term) (hd : d.typescript = true) (h : Apart (t.glyphs ++ rest))
    (hrest : closesItem ((p.after t.glyphs).stand rest).token = true) :
    Phrase d (binaryNode g.over.over.over) (p.stand (t.glyphs ++ rest)) (t.node p)
      ((p.after t.glyphs).stand rest) := by
  cases t with
  | path q => exact q.binaryNode_phrase hd h hrest
  | cast q type =>
    rw [Term.glyphs, List.append_assoc] at h ⊢
    rw [Term.glyphs, Place.after_append] at hrest
    rw [Place.after_append]
    have hends := endsOperators_of_closesItem hrest
    exact binaryNode_cast_phrase hd (q.unaryNode_phrase h rfl)
      (ne_of_isChainKind q.node_kind .arrow rfl)
      (type.castTail hd h.of_append hends q.after_line)
  | mocked q =>
    have hends : endsChain false ((p.after (Term.mocked q).glyphs).stand rest).token = true :=
      endsChain_of_closesItem hrest
    have hchain : Chain d g.over.over false (helperNode p)
        ((p.after helperGlyphs).stand (.sign .lparen :: (q.glyphs ++ .sign .rparen :: rest)))
        ((Term.mocked q).node p) ((p.after (Term.mocked q).glyphs).stand rest) := by
      simp only [Term.glyphs, List.append_assoc, List.cons_append, List.nil_append] at h
      have hcall : Chain d g.over.over false (helperNode p) _ _ _ :=
        .call rfl (q.arguments (p := p.after helperGlyphs) hd h.of_append) .refl
      rw [Place.stand_before] at hcall
      exact hcall
    simp only [Term.glyphs, List.append_assoc, List.cons_append, List.nil_append] at h
    have hphrase := helper_phrase h hchain hends
    simp only [Term.glyphs, List.append_assoc, List.cons_append, List.nil_append]
    exact Parser.binaryNode_phrase hd (Parser.unaryNode_phrase hphrase (by simp [Term.node, call,
      Node.kind]) hends) rfl (endsOperators_of_closesItem hrest)

theorem Term.node_kind (t : Term) : isOperandKind (t.node p).kind = true := by
  cases t with
  | path q => exact isOperandKind_of_isChainKind q.node_kind
  | cast => rfl
  | mocked => rfl

theorem Term.assign_phrase (t : Term) (hd : d.typescript = true) (h : Apart (t.glyphs ++ rest))
    (hrest : closesItem ((p.after t.glyphs).stand rest).token = true) :
    Phrase d g.over.over.over.over.assign (p.stand (t.glyphs ++ rest)) (t.node p)
      ((p.after t.glyphs).stand rest) :=
  assignNode_phrase (t.binaryNode_phrase hd h hrest) t.node_kind
    (endsOperators_of_closesItem hrest) (ne_assign_of_closesItem hrest)

theorem Path.stand_token (path : Path) :
    (p.stand (path.glyphs ++ rest)).token = .word path.head.text true := rfl

theorem Term.exists_token (t : Term) :
    ∃ name, (p.stand (t.glyphs ++ rest)).token = .word name true ∧ isOrdinary name = true := by
  cases t with
  | path q => exact ⟨_, q.stand_token, q.head.ordinary⟩
  | cast q type =>
    rw [Term.glyphs, List.append_assoc]
    exact ⟨_, q.stand_token, q.head.ordinary⟩
  | mocked q => exact ⟨_, rfl, jest.ordinary⟩

theorem Term.element (t : Term) (hd : d.typescript = true) (h : Apart (t.glyphs ++ rest))
    (hrest : ((p.after t.glyphs).stand rest).token = .mark .comma ∨
      ((p.after t.glyphs).stand rest).token = .mark .rparen) :
    Element d g.over.over.over (p.stand (t.glyphs ++ rest)) (t.node p)
      ((p.after t.glyphs).stand rest) where
  phrase := t.binaryNode_phrase hd h (by obtain hrest | hrest := hrest <;> rw [hrest] <;> rfl)
  kind := t.node_kind
  word := t.exists_token
  ends := hrest

/-! ### Terms in parentheses -/

/-- Behind a term in parentheses stands a comma or the closing parenthesis. -/
theorem moreGlyphs_token (more : List Term) :
    (p.stand (moreGlyphs more ++ .sign .rparen :: rest)).token = .mark .comma ∨
      (p.stand (moreGlyphs more ++ .sign .rparen :: rest)).token = .mark .rparen := by
  cases more with
  | nil => exact Or.inr rfl
  | cons t more => exact Or.inl rfl

/-- Terms behind commas, read one by one in any way in which a single term is read. -/
theorem moreNodes_listed {item : Stand → Node → Stand → Prop}
    (hitem : ∀ (t : Term) (p : Place) (rest : List Glyph), Apart (t.glyphs ++ rest) →
      (((p.after t.glyphs).stand rest).token = .mark .comma ∨
        ((p.after t.glyphs).stand rest).token = .mark .rparen) →
      item (p.stand (t.glyphs ++ rest)) (t.node p) ((p.after t.glyphs).stand rest))
    (more : List Term) (h : Apart (moreGlyphs more ++ .sign .rparen :: rest)) :
    Listed item (p.stand (moreGlyphs more ++ .sign .rparen :: rest)) (moreNodes p more)
      ((p.after (moreGlyphs more)).stand (.sign .rparen :: rest)) := by
  induction more generalizing p with
  | nil => exact .nil
  | cons t more ih =>
    have hglyphs : moreGlyphs (t :: more) = .sign .comma :: .space :: (t.glyphs ++ moreGlyphs more) :=
      rfl
    simp only [hglyphs, List.cons_append, List.append_assoc, Place.after_cons,
      Place.after_append] at h ⊢
    have hterm := hitem t (p.after [.sign .comma, .space]) _ h.2.2 (moreGlyphs_token more)
    exact .cons rfl (sign_step h) hterm (ih h.2.2.of_append)

theorem groupNodes_arguments (first : Term) (more : List Term) (hd : d.typescript = true)
    (h : Apart (groupGlyphs first more ++ rest)) :
    Arguments d g.over.over.over.over (p.stand (groupGlyphs first more ++ rest))
      (groupNodes p first more) ((p.after (groupGlyphs first more)).stand rest) := by
  simp only [groupGlyphs, List.cons_append, List.append_assoc, List.nil_append, Place.after_cons,
    Place.after_append] at h ⊢
  have hcloses : ∀ u : Stand, (u.token = .mark .comma ∨ u.token = .mark .rparen) →
      closesItem u.token = true := by
    rintro u (hu | hu) <;> rw [hu] <;> rfl
  have hfirst := first.assign_phrase (d := d) (g := g) (p := p.past (.sign .lparen)) hd h.2
    (hcloses _ (moreGlyphs_token more))
  have hmore := moreNodes_listed (p := (p.past (.sign .lparen)).after first.glyphs)
    (fun t q rest ht hrest => t.assign_phrase (d := d) (g := g) (p := q) hd ht (hcloses _ hrest))
    more h.2.of_append
  exact .mk rfl (sign_step h) hfirst hmore rfl (sign_step h.2.of_append.of_append)

theorem groupNodes_group (first : Term) (more : List Term) (hd : d.typescript = true)
    (h : Apart (groupGlyphs first more ++ rest)) :
    Group d g.over.over.over (p.stand (groupGlyphs first more ++ rest))
      (groupNodes p first more) ((p.after (groupGlyphs first more)).stand rest) := by
  simp only [groupGlyphs, List.cons_append, List.append_assoc, List.nil_append, Place.after_cons,
    Place.after_append] at h ⊢
  have hfirst := first.element (d := d) (g := g) (p := p.past (.sign .lparen)) hd h.2
    (moreGlyphs_token more)
  have hmore := moreNodes_listed (p := (p.past (.sign .lparen)).after first.glyphs)
    (fun t q rest ht hrest => t.element (d := d) (g := g) (p := q) hd ht hrest)
    more h.2.of_append
  exact .mk rfl (sign_step h) hfirst hmore rfl (sign_step h.2.of_append.of_append)

theorem groupNodes_phrase (first : Term) (more : List Term) (hd : d.typescript = true)
    (h : Apart (groupGlyphs first more ++ rest))
    (harrow : ((p.after (groupGlyphs first more)).stand rest).token ≠ .mark .arrow)
    (hcolon : ((p.after (groupGlyphs first more)).stand rest).token ≠ .mark .colon) :
    Phrase d (operandNode g.over.over.over) (p.stand (groupGlyphs first more ++ rest))
      ((Head.group first more).node p) ((p.after (groupGlyphs first more)).stand rest) := by
  have hphrase := operandNode_group_phrase hd (groupNodes_group (g := g) first more hd h) harrow hcolon
  rw [Place.stand_before] at hphrase
  exact hphrase

/-! ### Members and calls -/

theorem suffixNodes_chain (object : Node) (suffixes : List Suffix) (hd : d.typescript = true)
    (h : Apart (suffixGlyphs suffixes ++ rest)) :
    Chain d g.over.over.over.over false object (p.stand (suffixGlyphs suffixes ++ rest))
      (suffixNodes object p suffixes) ((p.after (suffixGlyphs suffixes)).stand rest) := by
  induction suffixes generalizing object p with
  | nil => exact .refl
  | cons x suffixes ih =>
    have hglyphs : suffixGlyphs (x :: suffixes) = x.glyphs ++ suffixGlyphs suffixes := rfl
    rw [hglyphs, List.append_assoc] at h ⊢
    rw [Place.after_append]
    have hrest := ih (x.node p object) (p := p.after x.glyphs) h.of_append
    cases x with
    | member key =>
      obtain ⟨hdot, hword, hkeys⟩ := h
      exact .member rfl (sign_step ⟨hdot, hword, hkeys⟩) rfl (word_step ⟨hword, hkeys⟩) hrest
    | call broken first more =>
      rw [Suffix.glyphs, List.append_assoc] at h
      simp only [suffixNodes, Suffix.node, Suffix.glyphs, List.append_assoc,
        Place.after_append] at hrest ⊢
      have hargs := groupNodes_arguments (g := g) (p := p.after (breakGlyphs broken)) first more hd
        h.of_append
      have hstand : p.stand (breakGlyphs broken ++ (groupGlyphs first more ++
          (suffixGlyphs suffixes ++ rest))) = (p.after (breakGlyphs broken)).stand
          (groupGlyphs first more ++ (suffixGlyphs suffixes ++ rest)) := by
        cases broken <;> rfl
      rw [hstand]
      refine .call rfl hargs ?_
      rw [Place.stand_before]
      exact hrest

theorem Head.callOrMember_phrase (head : Head) (suffixes : List Suffix) (hd : d.typescript = true)
    (h : Apart (head.glyphs ++ (suffixGlyphs suffixes ++ rest)))
    (hrest : endsChain false
      (((p.after head.glyphs).after (suffixGlyphs suffixes)).stand rest).token = true) :
    Phrase d (callOrMember g.over.over.over.over)
      (p.stand (head.glyphs ++ (suffixGlyphs suffixes ++ rest)))
      (suffixNodes (head.node p) (p.after head.glyphs) suffixes)
      (((p.after head.glyphs).after (suffixGlyphs suffixes)).stand rest) := by
  have hchain := suffixNodes_chain (g := g) (p := p.after head.glyphs) (head.node p) suffixes hd
    h.of_append
  cases head with
  | group first more =>
    have harrow := hchain.token_ne hrest (t := .mark .arrow) rfl (by simp)
    have hcolon := hchain.token_ne hrest (t := .mark .colon) rfl (by simp)
    have hphrase := groupNodes_phrase (g := g.over) first more hd h harrow hcolon
    exact Parser.callOrMember_phrase hphrase (by simp [Head.node, groupNode_kind, isChainKind])
      hchain hrest
  | mocked first more =>
    rw [Head.glyphs, List.append_assoc] at h ⊢
    have hargs := groupNodes_arguments (g := g) (p := p.after helperGlyphs) first more hd h.of_append
    refine helper_phrase h (.call rfl hargs ?_) hrest
    rw [Place.stand_before]
    rw [Head.node, Head.glyphs, Place.after_append] at hchain
    exact hchain

theorem Head.node_kind (head : Head) : isChainKind (head.node p).kind = true := by
  cases head with
  | group => simp [Head.node, groupNode_kind, isChainKind]
  | mocked => rfl

theorem suffixNodes_kind (object : Node) (suffixes : List Suffix)
    (h : isChainKind object.kind = true) : isChainKind (suffixNodes object p suffixes).kind = true := by
  induction suffixes generalizing object p with
  | nil => exact h
  | cons x suffixes ih =>
    cases x with
    | member => exact ih _ rfl
    | call => exact ih _ rfl

theorem suffixNodes_name? (object : Node) (suffixes : List Suffix) (h : object.name? = none) :
    (suffixNodes object p suffixes).name? = none := by
  induction suffixes generalizing object p with
  | nil => exact h
  | cons x suffixes ih =>
    cases x with
    | member => exact ih _ rfl
    | call => exact ih _ rfl

theorem Head.node_name? (head : Head) : (head.node p).name? = none := by
  cases head with
  | group => simp [Head.node, Node.name?, groupNode_kind]
  | mocked => rfl

/-! ### Assignments -/

def Term.isPlace : Term → Bool
  | mocked _ => false
  | _ => true

theorem keyNodes_isPlace (object : Node) (keys : List Word) (h : object.isPlace = true) :
    (keyNodes object p keys).isPlace = true := by
  induction keys generalizing object p with
  | nil => exact h
  | cons k keys ih => exact ih _ rfl

theorem Path.node_isPlace (path : Path) : (path.node p).isPlace = true := by
  apply keyNodes_isPlace
  have hordinary := path.head.ordinary
  simp only [isOrdinary, Bool.not_eq_true', Bool.or_eq_false_iff] at hordinary
  simp [nameNode, Node.isPlace, hordinary.2]

theorem Term.node_isPlace (t : Term) : (t.node p).isPlace = t.isPlace := by
  cases t with
  | path q => exact q.node_isPlace
  | cast q type => exact q.node_isPlace
  | mocked q => rfl

theorem Head.node_isParenTarget (target : Term) :
    isParenTarget ((Head.group target []).node p) = true := by
  cases target with
  | path q =>
    have hplace := (Term.path q).node_isPlace (p := p.past (.sign .lparen))
    simp [isParenTarget, Head.node, groupNodes, moreNodes, groupNode, Node.kind, Node.isPlace, hplace,
      Term.isPlace]
  | cast q type =>
    have hplace := (Term.cast q type).node_isPlace (p := p.past (.sign .lparen))
    simp [isParenTarget, Head.node, groupNodes, moreNodes, groupNode, Node.kind, Node.isPlace, hplace,
      Term.isPlace]
  | mocked q => rfl

end

/-! ### Lines -/

def Line.startsParen : Line → Bool
  | cast (.group _ _) _ _ | value (.group _ _) _ _ | assign _ _ => true
  | _ => false

/-- A line that a parenthesis on the next line would go on. -/
def Line.goesOn : Line → Bool
  | value _ _ closed => !closed
  | _ => false

section

variable {d : Dialect} {g : Grammar} {p : Place} {rest : List Glyph} {lines : List Line}

theorem Line.stand_token (line : Line) (p : Place) (rest : List Glyph) :
    (p.stand (line.glyphs ++ rest)).newline = p.line ∧
      if line.startsParen then (p.stand (line.glyphs ++ rest)).token = .mark .lparen
      else ∃ name, (p.stand (line.glyphs ++ rest)).token = .word name true ∧
        isOrdinary name = true := by
  cases line with
  | cast operand type closed =>
    cases operand with
    | path q => exact ⟨rfl, _, rfl, q.head.ordinary⟩
    | group => exact ⟨rfl, rfl⟩
  | value head suffixes closed =>
    cases head with
    | group => exact ⟨rfl, rfl⟩
    | mocked => exact ⟨rfl, _, rfl, jest.ordinary⟩
  | assign => exact ⟨rfl, rfl⟩

theorem Line.stand_opens (line : Line) (p : Place) (rest : List Glyph) :
    opensOperand (p.stand (line.glyphs ++ rest)).token = true := by
  have htoken := (line.stand_token p rest).2
  split at htoken
  · rw [htoken]
    rfl
  · obtain ⟨name, hname, hordinary⟩ := htoken
    rw [hname]
    exact hordinary

theorem endGlyphs_statementEnd (closed : Bool) (h : Apart (endGlyphs closed ++ lineGlyphs lines)) :
    StatementEnd (p.stand (endGlyphs closed ++ lineGlyphs lines))
      ((p.after (endGlyphs closed)).stand (lineGlyphs lines)) := by
  cases closed with
  | true => exact .semi rfl (sign_step h)
  | false =>
    cases lines with
    | nil => exact .eof rfl
    | cons line lines => exact .line (line.stand_token _ _).1 (line.stand_opens _ _)

/-- An operand that a line does not go on with ends with the line. -/
theorem endsChain_endGlyphs (closed : Bool)
    (h : closed = false → ∀ l ∈ lines.head?, l.startsParen = false) :
    endsChain false (p.stand (endGlyphs closed ++ lineGlyphs lines)).token = true := by
  cases closed with
  | true => rfl
  | false =>
    cases lines with
    | nil => rfl
    | cons line lines =>
      have htoken := (line.stand_token (p.past .line) (lineGlyphs lines)).2
      rw [if_neg (by simpa using h rfl line rfl)] at htoken
      obtain ⟨name, hname, -⟩ := htoken
      have hstand : p.stand (endGlyphs false ++ lineGlyphs (line :: lines)) =
          (p.past .line).stand (line.glyphs ++ lineGlyphs lines) := rfl
      rw [hstand, hname]
      rfl

/-- The expression of a line without operators outside parentheses. -/
theorem callOrMember_assign_phrase {node : Node} {u v : Stand} (hd : d.typescript = true)
    (h : Phrase d (callOrMember g) u node v) (hkind : isChainKind node.kind = true)
    (hchain : endsChain false v.token = true) (hops : endsOperators v = true)
    (hassign : v.token ≠ .mark (.assign none)) : Phrase d g.over.over.assign u node v := by
  have hunary : Phrase d (unaryNode g.over) u node v :=
    Parser.unaryNode_phrase h (ne_of_isChainKind hkind .arrow rfl) hchain
  have hoperand := isOperandKind_of_isChainKind hkind
  exact assignNode_phrase (Parser.binaryNode_phrase hd hunary hoperand hops) hoperand hops hassign

theorem Operand.node_kind (operand : Operand) : isChainKind (operand.node p).kind = true := by
  cases operand with
  | path q => exact q.node_kind
  | group first more => exact (Head.group (.path first) (more.map .path)).node_kind

theorem Operand.unaryNode_phrase (operand : Operand) (hd : d.typescript = true)
    (h : Apart (operand.glyphs ++ rest))
    (hrest : endsChain false ((p.after operand.glyphs).stand rest).token = true) :
    Phrase d (unaryNode g.over.over.over.over.over) (p.stand (operand.glyphs ++ rest))
      (operand.node p) ((p.after operand.glyphs).stand rest) := by
  cases operand with
  | path q => exact q.unaryNode_phrase h hrest
  | group first more =>
    have hphrase := (Head.group (.path first) (more.map .path)).callOrMember_phrase (g := g)
      [] hd h hrest
    exact Parser.unaryNode_phrase hphrase (ne_of_isChainKind (Operand.node_kind _) .arrow rfl) hrest

theorem groupGlyphs_line (first : Term) (more : List Term) :
    (p.after (groupGlyphs first more)).line = false := by
  simp only [groupGlyphs, Place.after_cons, Place.after_append]
  rfl

theorem Operand.after_line (operand : Operand) : (p.after operand.glyphs).line = false := by
  cases operand with
  | path q => exact q.after_line
  | group => exact groupGlyphs_line _ _

theorem Line.offset_le (line : Line) : p.offset ≤ (p.after line.glyphs).before.stop := by
  cases line with
  | cast operand type closed =>
    cases operand with
    | path => exact p.offset_le_pastToken _ _
    | group => exact p.offset_le_pastToken _ _
  | value head suffixes closed =>
    cases head with
    | group => exact p.offset_le_pastToken _ _
    | mocked => exact p.offset_le_pastToken _ _
  | assign => exact p.offset_le_pastToken _ _

theorem Line.stand_start (line : Line) : (p.stand (line.glyphs ++ rest)).span.start = p.offset := by
  cases line with
  | cast operand type closed => cases operand <;> rfl
  | value head suffixes closed => cases head <;> rfl
  | assign => rfl

theorem Line.reads_of_assign (line : Line) (gs : List Glyph) (closed : Bool)
    (hglyphs : line.glyphs = gs ++ endGlyphs closed)
    (h : Apart (line.glyphs ++ lineGlyphs lines)) (hname : (line.expression p).name? = none)
    (hassign : Reads d {} g.assign (p.stand (line.glyphs ++ lineGlyphs lines))
      (line.expression p) ((p.after gs).stand (endGlyphs closed ++ lineGlyphs lines))
      (line.issues p)) :
    Reads d {} g.over.moduleItem (p.stand (line.glyphs ++ lineGlyphs lines)) (line.node p)
      ((p.after line.glyphs).stand (lineGlyphs lines)) (line.issues p) := by
  have hend : StatementEnd ((p.after gs).stand (endGlyphs closed ++ lineGlyphs lines))
      ((p.after line.glyphs).stand (lineGlyphs lines)) := by
    rw [hglyphs, List.append_assoc] at h
    rw [hglyphs, Place.after_append]
    exact endGlyphs_statementEnd closed h.of_append
  have hitem := moduleItem_reads (line.stand_opens _ _) hassign hname hend (by
    rw [line.stand_start, Place.stand_before]
    exact line.offset_le)
  rw [line.stand_start, Place.stand_before] at hitem
  exact hitem

theorem assign_reads (target : Term) (right : Path) (hd : d.typescript = true)
    (h : Apart (groupGlyphs target [] ++ .space :: .sign .equals :: .space ::
      (right.glyphs ++ (endGlyphs true ++ rest)))) :
    Reads d {} g.over.over.over.over.over.over.assign
      (p.stand (groupGlyphs target [] ++ .space :: .sign .equals :: .space ::
        (right.glyphs ++ (endGlyphs true ++ rest))))
      ((Line.assign target right).expression p)
      (((((p.after (groupGlyphs target [])).past .space).past (.sign .equals)).past .space).after
        right.glyphs |>.stand (endGlyphs true ++ rest))
      ((Line.assign target right).issues p) := by
  have hequals := sign_step (p := (p.after (groupGlyphs target [])).past .space) h.of_append.2
  have hright := right.assign_phrase (g := g.over.over.over)
    (p := (((p.after (groupGlyphs target [])).past .space).past (.sign .equals)).past .space) hd
    h.of_append.2.2.2 rfl
  have hleft := (Head.group target []).callOrMember_phrase (g := g) (p := p) [] hd h rfl
  have hkind : isChainKind ((Head.group target []).node p).kind = true := Head.node_kind _
  have hoperand := isOperandKind_of_isChainKind hkind
  have hunary : Phrase d (unaryNode g.over.over.over.over.over) _ ((Head.group target []).node p) _ :=
    Parser.unaryNode_phrase hleft (ne_of_isChainKind hkind .arrow rfl) rfl
  have hbinary := Parser.binaryNode_phrase hd hunary hoperand rfl
  have hstart : ((Head.group target []).node p).start = p.offset := by
    rw [Node.start, Head.node, groupNode_span]
  have hrest := assignmentRest_reads (g := g.over.over.over.over.over) hd
    (Head.node_isParenTarget (p := p) target) rfl hequals hright (by
      rw [hstart]
      exact hleft.past.start_le)
  rw [hstart] at hrest
  rw [Line.expression, Place.after_append]
  exact assignNode_reads rfl (assignBase_reads hbinary hoperand rfl hrest)

theorem Line.reads (line : Line) (hd : d.typescript = true)
    (h : Apart (line.glyphs ++ lineGlyphs lines))
    (hsep : line.goesOn = true → ∀ l ∈ lines.head?, l.startsParen = false) :
    Reads d {} g.over.over.over.over.over.over.over.moduleItem
      (p.stand (line.glyphs ++ lineGlyphs lines)) (line.node p)
      ((p.after line.glyphs).stand (lineGlyphs lines)) (line.issues p) := by
  cases line with
  | cast operand type closed =>
    apply Line.reads_of_assign _ (operand.glyphs ++ type.glyphs) closed (by simp [Line.glyphs]) h rfl
    simp only [Line.glyphs, List.append_assoc, Place.after_append] at h ⊢
    have hend := endGlyphs_statementEnd (p := (p.after operand.glyphs).after type.glyphs) closed
      h.of_append.of_append
    have htype := type.castTail (g := g.over.over.over) hd h.of_append hend.endsOperators
      operand.after_line
    have hcast := binaryNode_cast_phrase hd (operand.unaryNode_phrase (g := g) hd h rfl)
      (ne_of_isChainKind operand.node_kind .arrow rfl) htype
    exact (assignNode_phrase hcast rfl hend.endsOperators hend.assign_ne).reads
  | value head suffixes closed =>
    have hkind := suffixNodes_kind (p := p.after head.glyphs) (head.node p) suffixes head.node_kind
    apply Line.reads_of_assign _ (head.glyphs ++ suffixGlyphs suffixes) closed
      (by simp [Line.glyphs]) h (suffixNodes_name? _ suffixes head.node_name?)
    simp only [Line.glyphs, List.append_assoc, Place.after_append] at h ⊢
    have hend := endGlyphs_statementEnd
      (p := (p.after head.glyphs).after (suffixGlyphs suffixes)) closed h.of_append.of_append
    have hchain := endsChain_endGlyphs (p := (p.after head.glyphs).after (suffixGlyphs suffixes))
      closed (fun hclosed => hsep (by simp [Line.goesOn, hclosed]))
    have hphrase := head.callOrMember_phrase (g := g) suffixes hd h hchain
    exact (callOrMember_assign_phrase hd hphrase hkind hchain hend.endsOperators
      hend.assign_ne).reads
  | assign target right =>
    apply Line.reads_of_assign _ (groupGlyphs target [] ++ (.space :: .sign .equals :: .space ::
      right.glyphs)) true (by simp [Line.glyphs]) h rfl
    simp only [Line.glyphs, List.append_assoc, List.cons_append, Place.after_append,
      Place.after_cons] at h ⊢
    exact assign_reads target right hd h

/-! ### Scripts -/

theorem endGlyphs_length_pos (closed : Bool) : 0 < (render (endGlyphs closed)).length := by
  cases closed <;> simp [endGlyphs, Glyph.chars]

theorem Line.length_lt_room (line : Line) :
    (render rest).length < (p.stand (line.glyphs ++ rest)).room := by
  cases line with
  | cast operand type closed =>
    have hend := endGlyphs_length_pos closed
    cases operand <;>
    · change _ < (render _).length
      simp only [List.append_eq, render_append, List.length_append]
      omega
  | value head suffixes closed =>
    have hend := endGlyphs_length_pos closed
    cases head <;>
    · change _ < (render _).length
      simp only [List.append_eq, render_append, List.length_append]
      omega
  | assign target right =>
    have hend := endGlyphs_length_pos true
    change _ < (render _).length
    simp only [List.append_eq, render_append, render_cons, List.length_append]
    omega

/-- Two lines of which the first goes on with the second. -/
def Line.joins (line next : Line) : Bool := line.goesOn && next.startsParen

/-- Lines of which none goes on with the next. -/
def Separated (lines : List Line) : Prop := lines.IsChain fun l m => l.joins m = false

instance (lines : List Line) : Decidable (Separated lines) :=
  inferInstanceAs (Decidable (lines.IsChain _))

/-- Lines are read one by one, up to a line that the last of them does not go on with. -/
theorem lineNodes_items (lines more : List Line) (hd : d.typescript = true)
    (hsep : Separated (lines ++ more.take 1)) :
    Items d g.over.over.over.over.over.over.over.moduleItem
      (p.stand (lineGlyphs (lines ++ more))) (lineNodes p lines)
      ((p.after (lineGlyphs lines)).stand (lineGlyphs more)) (lineIssues p lines) := by
  induction lines generalizing p with
  | nil => exact .nil
  | cons line lines ih =>
    rw [List.cons_append] at hsep
    obtain ⟨hnext, hrest⟩ := List.isChain_cons.mp hsep
    have hopens := ne_of_opensOperand (line.stand_opens p (lineGlyphs (lines ++ more))) .eof rfl
    have hroom := ((p.after line.glyphs).stand_room_le (lineGlyphs (lines ++ more))).1
    have hhead : (lines ++ more.take 1).head? = (lines ++ more).head? := by
      cases lines <;> cases more <;> rfl
    rw [hhead] at hnext
    have hreads := line.reads (g := g) (p := p) hd (lineGlyphs_apart (line :: (lines ++ more)))
      (fun hgoes next hmem => by simpa [Line.joins, hgoes] using hnext next hmem)
    rw [lineGlyphs_cons line lines, Place.after_append]
    exact .cons hopens (hroom.trans_lt line.length_lt_room) hreads (ih hrest)

theorem firstLexeme_render (typescript : Bool) {gs : List Glyph} (h : Apart gs)
    (hhead : (render gs).head? ≠ some '#') :
    firstLexeme typescript (render gs) = (Place.origin.stand gs).lexeme := by
  have hlex : (Cursor.mk (render gs) 0).lex { strict := false, typescript := typescript } true =
      (Place.origin.stand gs).lexeme := lex_render (p := Place.origin) h
  have hissues := Place.origin.stand_issues gs
  unfold firstLexeme
  split
  · rename_i hsplit
    rw [hsplit] at hhead
    simp at hhead
  · simp only [hlex, hissues, List.partition_eq_filter_filter, List.filter_nil, List.append_nil]
    rw [← hissues]

/-- A text is read with more levels of the grammar than a line needs. -/
theorem grammar_eq (n : Nat) : ∃ g : Grammar, grammar (8 * n + 8) =
    g.over.over.over.over.over.over.over.over := ⟨grammar (8 * n), rfl⟩

theorem read_eq (d : Dialect) {gs : List Glyph} (h : Apart gs)
    (hhead : (render gs).head? ≠ some '#') :
    read d (render gs) =
      match collect (nextItem (grammar (8 * (render gs).length + 8)).moduleItem)
        ((Place.origin.stand gs).state d {} [] none) with
      | .ok nodes s => ⟨some nodes, s.issues.reverse⟩
      | .error issue s => ⟨none, s.issues.reverse ++ [issue]⟩ := by
  have hbefore := Place.origin.stand_before gs
  have hissues := Place.origin.stand_issues gs
  simp only [Syntax.read, firstLexeme_render _ h hhead, hissues, List.reverse_nil]
  rw [Stand.state, hbefore]
  rfl

theorem read_items {d : Dialect} {gs : List Glyph} {nodes : List Node} {new : List Issue} {u : Stand}
    (h : Apart gs) (hhead : (render gs).head? ≠ some '#')
    (hitems : ∀ g : Grammar, Items d g.over.over.over.over.over.over.over.over.moduleItem
      (Place.origin.stand gs) nodes u new) (hu : u.token = .eof) :
    read d (render gs) = ⟨some nodes, new.reverse⟩ := by
  obtain ⟨g, hg⟩ := grammar_eq (render gs).length
  obtain ⟨arrow, hcollect⟩ := collect_nextItem_reads (hitems g) hu [] none
  rw [List.append_nil] at hcollect
  rw [read_eq d h hhead, hg, hcollect]
  simp [Stand.state]

/-- A script whose lines do not run into one another is read line by line. -/
theorem read_script {d : Dialect} {lines : List Line} (hd : d.typescript = true)
    (hsep : Separated lines) :
    read d (render (lineGlyphs lines)) =
      ⟨some (lineNodes Place.origin lines), (lineIssues Place.origin lines).reverse⟩ := by
  have hhead := head?_render_ne (lineGlyphs lines) (c := '#') (by decide) (by decide)
  have hend : ((Place.origin.after (lineGlyphs lines)).stand []).token = .eof := rfl
  refine read_items (lineGlyphs_apart lines) hhead (fun g => ?_) hend
  have hitems := lineNodes_items (g := g.over) (p := Place.origin) lines [] hd (by simpa using hsep)
  rwa [List.append_nil] at hitems

/-! ### Calls of the helper -/

/-- The call that replaces a cast is a text of its own. -/
theorem read_mocked {d : Dialect} (first : Term) (more : List Term) (hd : d.typescript = true) :
    read d (render (Head.mocked first more).glyphs) =
      ⟨some [statementOf ((Head.mocked first more).node Place.origin) 0
        (Place.origin.after (Head.mocked first more).glyphs).before.stop], []⟩ := by
  have happart : Apart ((Head.mocked first more).glyphs ++ (suffixGlyphs [] ++ [])) :=
    (Head.mocked first more).apart trivial
  have hglyphs : (Head.mocked first more).glyphs ++ (suffixGlyphs [] ++ []) =
      (Head.mocked first more).glyphs := List.append_nil _
  have hhead : (render (Head.mocked first more).glyphs).head? = some 'j' := rfl
  have hopens : opensOperand (Place.origin.stand (Head.mocked first more).glyphs).token = true := by
    change opensOperand (.word jest.text true) = true
    decide
  have heof : ((Place.origin.after (Head.mocked first more).glyphs).stand []).token = .eof := rfl
  have hroom : ((Place.origin.after (Head.mocked first more).glyphs).stand []).room <
      (Place.origin.stand (Head.mocked first more).glyphs).room := by
    change 0 < (render (.sign .dot :: _)).length
    simp [Glyph.chars]
  have hphrase := fun g : Grammar =>
    (Head.mocked first more).callOrMember_phrase (g := g) (p := Place.origin) [] hd happart rfl
  rw [hglyphs] at happart hphrase
  have hitems : ∀ g : Grammar, Items d g.over.over.over.over.over.over.over.over.moduleItem
      (Place.origin.stand (Head.mocked first more).glyphs)
      [statementOf ((Head.mocked first more).node Place.origin) 0
        (Place.origin.after (Head.mocked first more).glyphs).before.stop]
      ((Place.origin.after (Head.mocked first more).glyphs).stand []) [] := by
    intro g
    have hassign := callOrMember_assign_phrase hd (hphrase g.over) rfl rfl rfl (by simp)
    have hitem := moduleItem_reads hopens hassign.reads rfl (.eof heof) (Nat.zero_le _)
    rw [Place.stand_before] at hitem
    exact .cons (ne_of_opensOperand hopens .eof rfl) hroom hitem .nil
  exact read_items happart (by simp [hhead]) hitems heof

/-! ### Lines that go on -/

theorem suffixNodes_append (object : Node) (suffixes others : List Suffix) :
    suffixNodes object p (suffixes ++ others) =
      suffixNodes (suffixNodes object p suffixes) (p.after (suffixGlyphs suffixes)) others := by
  induction suffixes generalizing object p with
  | nil => rfl
  | cons x suffixes ih =>
    have hafter : p.after (suffixGlyphs (x :: suffixes)) =
        (p.after x.glyphs).after (suffixGlyphs suffixes) := Place.after_append _ _ _
    rw [hafter]
    exact ih _

/-- A line that goes on with an assignment is none: its own value would be assigned to. -/
theorem Line.fails (head : Head) (suffixes : List Suffix) (target : Term) (right : Path)
    (lines : List Line) (hd : d.typescript = true) :
    Fails d g.over.over.over.over.over.over.over.moduleItem
      (p.stand ((Line.value head suffixes false).glyphs ++
        lineGlyphs (.assign target right :: lines))) := by
  have happart := lineGlyphs_apart (.value head suffixes false :: .assign target right :: lines)
  have hopens := (Line.value head suffixes false).stand_opens p
    (lineGlyphs (.assign target right :: lines))
  have hglyphs : (Line.value head suffixes false).glyphs ++
      lineGlyphs (.assign target right :: lines) =
      head.glyphs ++ (suffixGlyphs (suffixes ++ [.call true target []]) ++
        .space :: .sign .equals :: .space ::
          (right.glyphs ++ (endGlyphs true ++ lineGlyphs lines))) := by
    simp [lineGlyphs, Line.glyphs, suffixGlyphs, Suffix.glyphs, breakGlyphs, endGlyphs]
  rw [lineGlyphs_cons, hglyphs] at happart
  rw [hglyphs] at hopens ⊢
  have hphrase := head.callOrMember_phrase (g := g) (p := p) (suffixes ++ [.call true target []]) hd
    happart rfl
  have hkind : (suffixNodes (head.node p) (p.after head.glyphs)
      (suffixes ++ [.call true target []])).kind = .call := by
    rw [suffixNodes_append]
    rfl
  have hunary : Phrase d (unaryNode g.over.over.over.over.over) _ (suffixNodes (head.node p)
      (p.after head.glyphs) (suffixes ++ [.call true target []])) _ :=
    Parser.unaryNode_phrase hphrase (by simp [hkind]) rfl
  have hbinary := Parser.binaryNode_phrase hd hunary (by simp [hkind, isOperandKind]) rfl
  exact moduleItem_fails hopens (assignNode_call_fails hd hbinary hkind rfl)

/-- A script in which a line goes on with an assignment is not read. -/
theorem read_refused {d : Dialect} {front : List Line} {head : Head} {suffixes : List Suffix}
    {target : Term} {right : Path} (hd : d.typescript = true)
    (hsep : Separated (front ++ [.value head suffixes false])) (lines : List Line) :
    (read d (render (lineGlyphs (front ++ .value head suffixes false :: .assign target right ::
        lines)))).items = none ∧
      (read d (render (lineGlyphs (front ++ .value head suffixes false :: .assign target right ::
        lines)))).issues ≠ [] := by
  obtain ⟨g, hg⟩ := grammar_eq (render (lineGlyphs (front ++ .value head suffixes false ::
    .assign target right :: lines))).length
  have hitems := lineNodes_items (g := g.over) (p := Place.origin) front
    (.value head suffixes false :: .assign target right :: lines) hd hsep
  have hfails := Line.fails (g := g.over) (p := Place.origin.after (lineGlyphs front)) head suffixes
    target right lines hd
  have heof := ne_of_opensOperand (Line.stand_opens (.value head suffixes false)
    (Place.origin.after (lineGlyphs front)) (lineGlyphs (.assign target right :: lines))) .eof rfl
  obtain ⟨issue, s, h⟩ := collect_nextItem_fails hitems heof hfails [] none
  have hhead := head?_render_ne (lineGlyphs (front ++ .value head suffixes false ::
    .assign target right :: lines)) (c := '#') (by decide) (by decide)
  rw [read_eq d (lineGlyphs_apart _) hhead, hg, h]
  simp

end

end Script
end CastLint
