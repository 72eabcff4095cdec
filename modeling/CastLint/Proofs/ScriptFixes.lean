import CastLint.Proofs.PassChunks
import CastLint.Proofs.ReadScripts
import CastLint.Proofs.Walks

/-! What a pass of fixes makes of a script: each cast becomes a call around the text of its bare
operand, and everything else stays. -/

namespace CastLint

namespace Script

open Syntax Syntax.Parser Lint

/-! ### Fixed scripts -/

/-- What a pass makes of a term. -/
def Term.fixed : Term → Term
  | cast p _ => mocked p
  | t => t

def Suffix.fixed : Suffix → Suffix
  | call broken first more => call broken first.fixed (more.map Term.fixed)
  | x => x

def Head.fixed : Head → Head
  | group first more => group first.fixed (more.map Term.fixed)
  | mocked first more => mocked first.fixed (more.map Term.fixed)

/-- The call that replaces the cast of an operand. -/
def Operand.mocked : Operand → Head
  | path p => .mocked (.path p) []
  | group first more => .mocked (.path first) (more.map .path)

/-- What a pass makes of a line. -/
def Line.fixed : Line → Line
  | cast operand _ closed => value operand.mocked [] closed
  | value head suffixes closed => value head.fixed (suffixes.map Suffix.fixed) closed
  | assign target right => assign target.fixed right

/-! ### Chunks -/

def Term.chunk : Term → Chunk
  | cast p type => .change (render (cast p type).glyphs) (render (mocked p).glyphs)
  | t => .keep (render t.glyphs)

def moreChunks (terms : List Term) : List Chunk :=
  terms.flatMap fun t => [.keep [',', ' '], t.chunk]

theorem moreChunks_cons (t : Term) (terms : List Term) :
    moreChunks (t :: terms) = .keep [',', ' '] :: t.chunk :: moreChunks terms := rfl

def groupChunks (first : Term) (more : List Term) : List Chunk :=
  .keep ['('] :: first.chunk :: (moreChunks more ++ [.keep [')']])

def Suffix.chunks : Suffix → List Chunk
  | member key => [.keep ('.' :: key.chars)]
  | call broken first more => .keep (render (breakGlyphs broken)) :: groupChunks first more

def suffixChunks (suffixes : List Suffix) : List Chunk := suffixes.flatMap Suffix.chunks

theorem suffixChunks_cons (x : Suffix) (suffixes : List Suffix) :
    suffixChunks (x :: suffixes) = x.chunks ++ suffixChunks suffixes := rfl

def Head.chunks : Head → List Chunk
  | group first more => groupChunks first more
  | mocked first more => .keep (render helperGlyphs) :: groupChunks first more

def Line.chunks : Line → List Chunk
  | cast operand type closed =>
    [.change (render (operand.glyphs ++ type.glyphs)) (render operand.mocked.glyphs),
      .keep (render (endGlyphs closed))]
  | value head suffixes closed =>
    head.chunks ++ (suffixChunks suffixes ++ [.keep (render (endGlyphs closed))])
  | assign target right =>
    groupChunks target [] ++
      [.keep (render (.space :: .sign .equals :: .space :: (right.glyphs ++ endGlyphs true)))]

def lineChunks (lines : List Line) : List Chunk := lines.flatMap Line.chunks

theorem lineChunks_cons (line : Line) (lines : List Line) :
    lineChunks (line :: lines) = line.chunks ++ lineChunks lines := rfl

section

open Chunk

@[simp] theorem Term.chunk_old (t : Term) : t.chunk.old = render t.glyphs := by cases t <;> rfl

@[simp] theorem Term.chunk_new (t : Term) : t.chunk.new = render t.fixed.glyphs := by cases t <;> rfl

theorem moreChunks_old (terms : List Term) :
    (moreChunks terms).flatMap old = render (moreGlyphs terms) := by
  induction terms with
  | nil => rfl
  | cons t terms ih =>
    simp [moreChunks_cons, moreGlyphs_cons, ih, Glyph.chars, Sign.char]

theorem moreChunks_new (terms : List Term) :
    (moreChunks terms).flatMap new = render (moreGlyphs (terms.map Term.fixed)) := by
  induction terms with
  | nil => rfl
  | cons t terms ih =>
    simp [moreChunks_cons, moreGlyphs_cons, ih, Glyph.chars, Sign.char]

theorem groupChunks_old (first : Term) (more : List Term) :
    (groupChunks first more).flatMap old = render (groupGlyphs first more) := by
  simp [groupChunks, groupGlyphs, moreChunks_old, Glyph.chars, Sign.char]

theorem groupChunks_new (first : Term) (more : List Term) :
    (groupChunks first more).flatMap new =
      render (groupGlyphs first.fixed (more.map Term.fixed)) := by
  simp [groupChunks, groupGlyphs, moreChunks_new, Glyph.chars, Sign.char]

theorem Suffix.chunks_old (x : Suffix) : x.chunks.flatMap old = render x.glyphs := by
  cases x with
  | member key => simp [Suffix.chunks, Suffix.glyphs, Glyph.chars, Sign.char]
  | call broken first more =>
    simp [Suffix.chunks, Suffix.glyphs, groupChunks_old]

theorem Suffix.chunks_new (x : Suffix) : x.chunks.flatMap new = render x.fixed.glyphs := by
  cases x with
  | member key => simp [Suffix.chunks, Suffix.fixed, Suffix.glyphs, Glyph.chars, Sign.char]
  | call broken first more =>
    simp [Suffix.chunks, Suffix.fixed, Suffix.glyphs, groupChunks_new]

theorem suffixChunks_old (suffixes : List Suffix) :
    (suffixChunks suffixes).flatMap old = render (suffixGlyphs suffixes) := by
  induction suffixes with
  | nil => rfl
  | cons x suffixes ih =>
    rw [suffixChunks_cons, List.flatMap_append, ih, x.chunks_old, suffixGlyphs_cons, render_append]

theorem suffixChunks_new (suffixes : List Suffix) :
    (suffixChunks suffixes).flatMap new = render (suffixGlyphs (suffixes.map Suffix.fixed)) := by
  induction suffixes with
  | nil => rfl
  | cons x suffixes ih =>
    rw [suffixChunks_cons, List.flatMap_append, ih, x.chunks_new, List.map_cons, suffixGlyphs_cons,
      render_append]

theorem Head.chunks_old (head : Head) : head.chunks.flatMap old = render head.glyphs := by
  cases head <;> simp [Head.chunks, Head.glyphs, groupChunks_old]

theorem Head.chunks_new (head : Head) : head.chunks.flatMap new = render head.fixed.glyphs := by
  cases head <;> simp [Head.chunks, Head.fixed, Head.glyphs, groupChunks_new]

theorem Line.chunks_old (line : Line) : line.chunks.flatMap old = render line.glyphs := by
  cases line <;>
    simp [Line.chunks, Line.glyphs, groupChunks_old, suffixChunks_old, Head.chunks_old]

theorem Line.chunks_new (line : Line) : line.chunks.flatMap new = render line.fixed.glyphs := by
  cases line <;>
    simp [Line.chunks, Line.fixed, Line.glyphs, groupChunks_new, suffixChunks_new,
      Head.chunks_new, suffixGlyphs]

theorem lineChunks_old (lines : List Line) :
    (lineChunks lines).flatMap old = render (lineGlyphs lines) := by
  induction lines with
  | nil => rfl
  | cons line lines ih =>
    rw [lineChunks_cons, List.flatMap_append, ih, line.chunks_old, lineGlyphs_cons, render_append]

theorem lineChunks_new (lines : List Line) :
    (lineChunks lines).flatMap new = render (lineGlyphs (lines.map Line.fixed)) := by
  induction lines with
  | nil => rfl
  | cons line lines ih =>
    rw [lineChunks_cons, List.flatMap_append, ih, line.chunks_new, List.map_cons, lineGlyphs_cons,
      render_append]

end

/-! ### Texts that hold glyphs -/

/-- The text holds glyphs at a place. -/
def Holds (cs : List Char) (p : Place) (gs : List Glyph) : Prop :=
  ∃ front back, cs = front ++ render gs ++ back ∧ Text.byteLength front = p.offset

section

variable {cs : List Char} {p : Place} {gs hs : List Glyph}

theorem Holds.left (h : Holds cs p (gs ++ hs)) : Holds cs p gs := by
  obtain ⟨front, back, rfl, hfront⟩ := h
  exact ⟨front, render hs ++ back, by simp, hfront⟩

theorem Holds.right (h : Holds cs p (gs ++ hs)) : Holds cs (p.after gs) hs := by
  obtain ⟨front, back, rfl, hfront⟩ := h
  refine ⟨front ++ render gs, back, by simp, ?_⟩
  rw [Text.byteLength_append, hfront, Place.after_offset]

theorem Holds.tail {x : Glyph} (h : Holds cs p (x :: gs)) : Holds cs (p.past x) gs := by
  have hx : Holds cs p ([x] ++ gs) := h
  exact hx.right

theorem Holds.slice (h : Holds cs p gs) :
    Text.sliceBytes cs p.offset (p.after gs).offset = some (render gs) := by
  obtain ⟨front, back, hcs, hfront⟩ := h
  refine Text.sliceBytes_eq_some_iff.mpr ⟨front, back, hcs, hfront, ?_⟩
  rw [Text.byteLength_append, hfront, Place.after_offset]

theorem Holds.fits (h : Holds cs p gs) (text : List Char) :
    Edit.Fits cs ⟨p.offset, p.offset + Text.byteLength (render gs), text⟩ := by
  obtain ⟨front, back, hcs, hfront⟩ := h
  refine ⟨⟨front, render gs ++ back, by simp [hcs], hfront⟩, ⟨front ++ render gs, back, hcs, ?_⟩,
    Nat.le_add_right _ _⟩
  simp [hfront]

end

/-! ### Spans -/

section

variable {p : Place}

theorem keyNodes_span {object : Node} {start : ℕ} (keys : List Word)
    (h : object.span = ⟨start, p.offset⟩) :
    (keyNodes object p keys).span = ⟨start, (p.after (keyGlyphs keys)).offset⟩ := by
  induction keys generalizing object p with
  | nil => exact h
  | cons k keys ih =>
    have hstart : object.start = start := congrArg Span.start h
    apply ih
    rw [member, hstart]
    rfl

theorem Path.node_span (path : Path) :
    (path.node p).span = ⟨p.offset, (p.after path.glyphs).offset⟩ :=
  keyNodes_span path.keys rfl

theorem keyNodes_bare {object : Node} (keys : List Word) (h : object.bare = object) :
    (keyNodes object p keys).bare = keyNodes object p keys := by
  induction keys generalizing object p with
  | nil => exact h
  | cons k keys ih => exact ih rfl

theorem Path.node_bare (path : Path) : (path.node p).bare = path.node p :=
  keyNodes_bare path.keys rfl

theorem MockType.node_stop (type : MockType) :
    (type.node (typePlace p)).stop = (p.after type.glyphs).offset := rfl

theorem moreNodes_stop (first : Path) (more : List Path) :
    (moreNodes p ((first :: more).map .path)).getLast?.map Node.stop =
      some (p.after (moreGlyphs ((first :: more).map .path))).offset := by
  induction more generalizing first p with
  | nil =>
    have hspan := first.node_span (p := (p.past (.sign .comma)).past .space)
    simp [moreNodes, moreGlyphs, Term.node, Node.stop, hspan, Term.glyphs]
  | cons next more ih =>
    have hrest := ih (p := p.after (.sign .comma :: .space :: first.glyphs)) next
    have hglyphs : moreGlyphs ((first :: next :: more).map .path) =
        (.sign .comma :: .space :: first.glyphs) ++ moreGlyphs ((next :: more).map .path) := rfl
    rw [hglyphs, Place.after_append, ← hrest]
    simp [moreNodes, Term.glyphs]

/-- What stands between the parentheses of an operand. -/
def Operand.bareGlyphs : Operand → List Glyph
  | path q => q.glyphs
  | group first more => first.glyphs ++ moreGlyphs (more.map .path)

def Operand.barePlace (p : Place) : Operand → Place
  | path _ => p
  | group _ _ => p.past (.sign .lparen)

theorem Operand.mocked_glyphs (operand : Operand) : operand.mocked.glyphs =
    helperGlyphs ++ .sign .lparen :: (operand.bareGlyphs ++ [.sign .rparen]) := by
  cases operand with
  | path q => rfl
  | group first more =>
    simp [Operand.mocked, Head.glyphs, groupGlyphs, Operand.bareGlyphs, Term.glyphs]

theorem Operand.bare_span (operand : Operand) : (operand.node p).bare.span =
    ⟨(operand.barePlace p).offset, ((operand.barePlace p).after operand.bareGlyphs).offset⟩ := by
  cases operand with
  | path q =>
    rw [Operand.node, q.node_bare]
    exact q.node_span
  | group first more =>
    cases more with
    | nil =>
      have hbare : ((Operand.group first []).node p).bare =
          (first.node (p.past (.sign .lparen))).bare := rfl
      rw [hbare, first.node_bare, first.node_span]
      simp [barePlace, bareGlyphs, moreGlyphs]
    | cons second more =>
      have hstart := congrArg Span.start (first.node_span (p := p.past (.sign .lparen)))
      have hstop := moreNodes_stop (p := (p.past (.sign .lparen)).after first.glyphs) second more
      simp only [barePlace, bareGlyphs, Place.after_append]
      have hspan : ((Operand.group first (second :: more)).node p).bare.span =
          ⟨(first.node (p.past (.sign .lparen))).start,
            ((moreNodes ((p.past (.sign .lparen)).after first.glyphs)
              ((second :: more).map .path)).getLast?.map Node.stop).getD
                (first.node (p.past (.sign .lparen))).stop⟩ := rfl
      rw [hspan, hstop]
      simp [Node.start, hstart]

theorem Operand.node_start (operand : Operand) : (operand.node p).start = p.offset := by
  cases operand with
  | path q => exact congrArg Span.start q.node_span
  | group first more =>
    rw [Operand.node, Node.start, Head.node, groupNode_span]

theorem Operand.holds_bare {cs : List Char} {operand : Operand} (h : Holds cs p operand.glyphs) :
    Holds cs (operand.barePlace p) operand.bareGlyphs := by
  cases operand with
  | path q => exact h
  | group first more =>
    have hshape : (Operand.group first more).glyphs = .sign .lparen ::
        ((Operand.group first more).bareGlyphs ++ [.sign .rparen]) := by
      simp [Operand.glyphs, Operand.bareGlyphs, groupGlyphs, Term.glyphs]
    rw [hshape] at h
    exact h.tail.left

theorem Operand.render_bare_ne (operand : Operand) : render operand.bareGlyphs ≠ [] := by
  cases operand <;> simp [Operand.bareGlyphs, Path.glyphs, Glyph.chars, Word.chars]

end

/-! ### Casts of scripts -/

theorem keyNodes_casts {object : Node} {p : Place} (keys : List Word) (h : casts [object] = []) :
    casts [keyNodes object p keys] = [] := by
  induction keys generalizing object p with
  | nil => exact h
  | cons k keys ih =>
    apply ih
    rw [member, casts_node rfl, casts_cons, h]
    rfl

@[simp] theorem Path.casts_node (path : Path) (p : Place) : casts [path.node p] = [] :=
  keyNodes_casts path.keys rfl

theorem groupNode_casts (span : Span) (nodes : List Node) :
    casts [groupNode span nodes] = casts nodes := by
  unfold groupNode
  split
  · rw [casts_node rfl, casts_node rfl]
  · rw [casts_node rfl]

theorem call_casts (callee : Node) (args : List Node) (stop : ℕ) :
    casts [call callee args stop] = casts [callee] ++ casts args := by
  rw [call, casts_node rfl, casts_cons]

theorem moreNodes_casts (p : Place) (paths : List Path) :
    casts (moreNodes p (paths.map .path)) = [] := by
  induction paths generalizing p with
  | nil => rfl
  | cons q paths ih =>
    rw [List.map_cons, moreNodes, casts_cons, ih, Term.node, q.casts_node]
    rfl

@[simp] theorem Operand.casts_node (operand : Operand) (p : Place) : casts [operand.node p] = [] := by
  cases operand with
  | path q => exact q.casts_node p
  | group first more =>
    rw [Operand.node, Head.node, groupNode_casts, groupNodes, casts_cons, moreNodes_casts, Term.node,
      first.casts_node]
    rfl

/-- A cast of an operand. -/
def Operand.cast (operand : Operand) (type : MockType) (p : Place) : Cast :=
  ⟨operand.node p, type.node (typePlace (p.after operand.glyphs)),
    ⟨(operand.node p).start, (type.node (typePlace (p.after operand.glyphs))).stop⟩⟩

/-- The edit that puts the call of the helper in the place of a cast. -/
def Operand.edit (operand : Operand) (type : MockType) (p : Place) : Edit :=
  ⟨p.offset, p.offset + Text.byteLength (render (operand.glyphs ++ type.glyphs)),
    render operand.mocked.glyphs⟩

/-- A cast of an operand somewhere in a text, and the edit of it. -/
inductive CastEdit (cs : List Char) : Cast → Edit → Prop
  | of {operand : Operand} {type : MockType} {p : Place} :
      Holds cs p (operand.glyphs ++ type.glyphs) →
      CastEdit cs (operand.cast type p) (operand.edit type p)

/-- A call around what the operand holds replaces a cast of it. -/
theorem Operand.replaces {cs : List Char} {cast : Cast} {p : Place} {tail : List Glyph}
    (operand : Operand) (hmock : PreferMocked.isMockCast cast = true)
    (hoperand : cast.operand = operand.node p)
    (hspan : cast.span =
      ⟨p.offset, p.offset + Text.byteLength (render (operand.glyphs ++ tail))⟩)
    (h : Holds cs p (operand.glyphs ++ tail)) (htail : 0 < Text.byteLength (render tail)) :
    PreferMocked.Replaces cs cast
      ⟨p.offset, p.offset + Text.byteLength (render (operand.glyphs ++ tail)),
        render operand.mocked.glyphs⟩ := by
  have hslice := (Operand.holds_bare h.left).slice
  refine ⟨hmock, hspan, h.fits _, ?_, render operand.bareGlyphs, operand.render_bare_ne, ?_, ?_⟩
  · simp only [render_append, Text.byteLength_append]
    omega
  · rwa [hoperand, operand.bare_span]
  · rw [operand.mocked_glyphs]
    simp [helperGlyphs, Glyph.chars, Sign.char, Word.chars, jest, Script.mocked]

theorem CastEdit.replaces {cs : List Char} {cast : Cast} {e : Edit} (h : CastEdit cs cast e) :
    PreferMocked.Replaces cs cast e := by
  obtain @⟨operand, type, p, h⟩ := h
  have hspan : (operand.cast type p).span =
      ⟨p.offset, p.offset + Text.byteLength (render (operand.glyphs ++ type.glyphs))⟩ := by
    rw [Operand.cast, operand.node_start, type.node_stop, ← Place.after_append, Place.after_offset]
  exact operand.replaces (by cases type <;> rfl) rfl hspan h (by cases type <;> decide)

/-- The edits of chunks at an offset are those of the casts of trees. -/
def Replaced (cs : List Char) (offset : ℕ) (nodes : List Node) (chunks : List Chunk) : Prop :=
  List.Forall₂ (CastEdit cs) (casts nodes) (chunkEdits offset chunks)

section

variable {cs : List Char} {p : Place} {offset : ℕ} {nodes : List Node} {chunks : List Chunk}

theorem Replaced.keep {text : List Char}
    (h : Replaced cs (offset + Text.byteLength text) nodes chunks) :
    Replaced cs offset nodes (.keep text :: chunks) := h

theorem Replaced.append {others : List Node} {rest : List Chunk} {stop : ℕ}
    (h : Replaced cs offset nodes chunks) (hothers : Replaced cs stop others rest)
    (hstop : stop = offset + Text.byteLength (chunks.flatMap Chunk.old)) :
    Replaced cs offset (nodes ++ others) (chunks ++ rest) := by
  rw [Replaced, casts_append, chunkEdits_append, ← hstop]
  exact List.rel_append h hothers

/-- Nothing is replaced in a stretch without casts. -/
theorem Replaced.quiet {others : List Node} (text : List Char) (h : Replaced cs offset nodes chunks)
    (hothers : casts others = []) : Replaced cs offset (nodes ++ others) (chunks ++ [.keep text]) := by
  have hquiet : Replaced cs (offset + Text.byteLength (chunks.flatMap Chunk.old)) others
      [.keep text] := by
    rw [Replaced, hothers]
    exact .nil
  exact h.append hquiet rfl

theorem Term.replaced (t : Term) (h : Holds cs p t.glyphs) :
    Replaced cs p.offset [t.node p] [t.chunk] := by
  cases t with
  | path q =>
    rw [Replaced, Term.node, q.casts_node]
    exact .nil
  | cast q type =>
    have htype : casts [type.node (typePlace (p.after q.glyphs))] = [] := rfl
    have hcast : Holds cs p ((Operand.path q).glyphs ++ type.glyphs) := h
    rw [Replaced, Term.node, castNode, casts_cast, q.casts_node, htype]
    exact .cons (.of hcast) .nil
  | mocked q =>
    have hhelper : casts [helperNode p] = [] := rfl
    rw [Replaced, Term.node, call_casts, hhelper, q.casts_node]
    exact .nil

theorem moreNodes_replaced (terms : List Term) (h : Holds cs p (moreGlyphs terms)) :
    Replaced cs p.offset (moreNodes p terms) (moreChunks terms) := by
  induction terms generalizing p with
  | nil => exact .nil
  | cons t terms ih =>
    rw [moreGlyphs_cons] at h
    have hterm := t.replaced h.right.left
    have hstop := (p.after [.sign .comma, .space]).after_offset t.glyphs
    exact (hterm.append (ih h.right.right) (by simpa using hstop)).keep

theorem groupNodes_replaced (first : Term) (more : List Term)
    (h : Holds cs p (groupGlyphs first more)) :
    Replaced cs p.offset (groupNodes p first more) (groupChunks first more) := by
  have hfirst := first.replaced h.tail.left
  have hmore := moreNodes_replaced more h.tail.right.left
  have hstop := (p.past (.sign .lparen)).after_offset first.glyphs
  have hnodes := hfirst.append hmore (by simpa using hstop)
  have hgroup := hnodes.quiet [')'] casts_nil
  rw [List.append_nil] at hgroup
  exact hgroup.keep

/-- A suffix adds its casts to those of the operand in front. -/
theorem Suffix.replaced {object : Node} (x : Suffix) (h : Holds cs p x.glyphs)
    (hobject : Replaced cs offset [object] chunks)
    (hp : p.offset = offset + Text.byteLength (chunks.flatMap Chunk.old)) :
    Replaced cs offset [x.node p object] (chunks ++ x.chunks) := by
  cases x with
  | member key =>
    have hkey : casts [.mk (.plainKey key.text) (wordSpan (p.past (.sign .dot)) key) []] = [] := rfl
    have hboth := hobject.quiet ('.' :: key.chars) hkey
    rw [Replaced] at hboth ⊢
    rwa [Suffix.node, Parser.member, casts_node rfl]
  | call broken first more =>
    have hargs := groupNodes_replaced first more h.right
    rw [Place.after_offset] at hargs
    have hboth := hobject.append hargs.keep hp
    rw [Replaced] at hboth ⊢
    rwa [Suffix.node, Parser.call, casts_node rfl]

theorem suffixNodes_replaced {object : Node} (suffixes : List Suffix)
    (h : Holds cs p (suffixGlyphs suffixes)) (hobject : Replaced cs offset [object] chunks)
    (hp : p.offset = offset + Text.byteLength (chunks.flatMap Chunk.old)) :
    Replaced cs offset [suffixNodes object p suffixes] (chunks ++ suffixChunks suffixes) := by
  induction suffixes generalizing object p chunks with
  | nil =>
    rw [suffixChunks, List.flatMap_nil, List.append_nil]
    exact hobject
  | cons x suffixes ih =>
    rw [suffixGlyphs_cons] at h
    have hrest := ih h.right (x.replaced h.left hobject hp)
      (by simp [Place.after_offset, hp, Suffix.chunks_old, Nat.add_assoc])
    rwa [List.append_assoc] at hrest

theorem Head.replaced (head : Head) (h : Holds cs p head.glyphs) :
    Replaced cs p.offset [head.node p] head.chunks := by
  cases head with
  | group first more =>
    rw [Replaced, Head.node, groupNode_casts]
    exact groupNodes_replaced first more h
  | mocked first more =>
    have hargs := groupNodes_replaced first more h.right
    have hhelper : casts [helperNode p] = [] := rfl
    rw [Place.after_offset] at hargs
    rw [Replaced, Head.node, call_casts, hhelper]
    exact hargs.keep

theorem Replaced.line_end {node : Node} (start stop : ℕ) (text : List Char)
    (h : Replaced cs offset [node] chunks) :
    Replaced cs offset [statementOf node start stop] (chunks ++ [.keep text]) := by
  have hboth := h.quiet text casts_nil
  rw [Replaced] at hboth ⊢
  rwa [statementOf, casts_node rfl]

/-- The casts of a line are those that its chunks change. -/
theorem Line.replaced (line : Line) (h : Holds cs p line.glyphs) :
    Replaced cs p.offset [line.node p] line.chunks := by
  cases line with
  | cast operand type closed =>
    have hcast : Replaced cs p.offset [(Line.cast operand type closed).expression p]
        [.change (render (operand.glyphs ++ type.glyphs)) (render operand.mocked.glyphs)] := by
      have htype : casts [type.node (typePlace (p.after operand.glyphs))] = [] := rfl
      rw [Line.glyphs, ← List.append_assoc] at h
      rw [Replaced, Line.expression, castNode, casts_cast, operand.casts_node, htype]
      exact .cons (.of h.left) .nil
    exact hcast.line_end _ _ _
  | value head suffixes closed =>
    have hhead := head.replaced h.left
    have hvalue := suffixNodes_replaced suffixes h.right.left hhead
      (by rw [Place.after_offset, Head.chunks_old])
    have hline := hvalue.line_end p.offset
      (p.after (Line.value head suffixes closed).glyphs).before.stop (render (endGlyphs closed))
    rw [List.append_assoc] at hline
    exact hline
  | assign target right =>
    have htarget := (Head.group target []).replaced h.left
    have hboth := htarget.quiet
      (render (.space :: .sign .equals :: .space :: (right.glyphs ++ endGlyphs true)))
      (right.casts_node (p.after (groupGlyphs target [] ++ [.space, .sign .equals, .space])))
    rw [Replaced] at hboth ⊢
    rwa [Line.node, statementOf, casts_node rfl, Line.expression, assignmentNode, casts_node rfl]

theorem lineNodes_replaced (lines : List Line) (h : Holds cs p (lineGlyphs lines)) :
    Replaced cs p.offset (lineNodes p lines) (lineChunks lines) := by
  induction lines generalizing p with
  | nil => exact .nil
  | cons line lines ih =>
    rw [lineGlyphs_cons] at h
    refine (line.replaced h.left).append (ih h.right) ?_
    rw [Place.after_offset, Line.chunks_old]

end

end Script
end CastLint
