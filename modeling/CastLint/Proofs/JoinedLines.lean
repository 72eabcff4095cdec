import CastLint.Proofs.ScriptFixes

/-! Lines that run into one another. A line without a semicolon goes on with a parenthesis at the
start of the next line: the two are one line with a call in it, or nothing at all if the next line
is an assignment. -/

namespace CastLint

namespace Lint

/-- A chunk that no pass changes. -/
def Chunk.isKeep : Chunk → Bool
  | keep _ => true
  | change _ _ => false

theorem chunkEdits_eq_nil {chunks : List Chunk} (h : chunks.all Chunk.isKeep = true) (offset : ℕ) :
    chunkEdits offset chunks = [] := by
  induction chunks generalizing offset with
  | nil => rfl
  | cons chunk chunks ih =>
    cases chunk with
    | keep cs => exact ih (by simpa [Chunk.isKeep] using h) _
    | change old new => simp [Chunk.isKeep] at h

end Lint

namespace Script

open Syntax Lint

/-! ### Lines without casts -/

def Line.isSettled (line : Line) : Bool := line.chunks.all Chunk.isKeep

theorem Term.fixed_isKeep (t : Term) : t.fixed.chunk.isKeep = true := by
  cases t <;> rfl

theorem moreChunks_fixed (terms : List Term) :
    (moreChunks (terms.map Term.fixed)).all Chunk.isKeep = true := by
  induction terms with
  | nil => rfl
  | cons t terms ih =>
    rw [List.map_cons, moreChunks_cons, List.all_cons, List.all_cons, t.fixed_isKeep, ih]
    rfl

theorem groupChunks_fixed (first : Term) (more : List Term) :
    (groupChunks first.fixed (more.map Term.fixed)).all Chunk.isKeep = true := by
  simp only [groupChunks, List.all_cons, List.all_append, first.fixed_isKeep, moreChunks_fixed]
  rfl

theorem suffixChunks_fixed (suffixes : List Suffix) :
    (suffixChunks (suffixes.map Suffix.fixed)).all Chunk.isKeep = true := by
  induction suffixes with
  | nil => rfl
  | cons x suffixes ih =>
    rw [List.map_cons, suffixChunks_cons, List.all_append, ih]
    cases x with
    | member key => rfl
    | call broken first more =>
      simp only [Suffix.fixed, Suffix.chunks, List.all_cons, groupChunks_fixed]
      rfl

theorem Operand.mocked_fixed (operand : Operand) : operand.mocked.fixed = operand.mocked := by
  cases operand with
  | path p => rfl
  | group first more => simp [Operand.mocked, Head.fixed, Term.fixed]

theorem Head.fixed_chunks (head : Head) : head.fixed.chunks.all Chunk.isKeep = true := by
  cases head with
  | group first more => exact groupChunks_fixed first more
  | mocked first more =>
    simp only [Head.fixed, Head.chunks, List.all_cons, groupChunks_fixed]
    rfl

theorem Line.fixed_isSettled (line : Line) : line.fixed.isSettled = true := by
  cases line with
  | cast operand type closed =>
    have hhead := operand.mocked.fixed_chunks
    rw [operand.mocked_fixed] at hhead
    simp [Line.isSettled, Line.fixed, Line.chunks, hhead, suffixChunks, Chunk.isKeep]
  | value head suffixes closed =>
    simp only [Line.isSettled, Line.fixed, Line.chunks, List.all_append, head.fixed_chunks,
      suffixChunks_fixed]
    rfl
  | assign target right =>
    have htarget := groupChunks_fixed target []
    simp only [Line.isSettled, Line.fixed, Line.chunks, List.all_append]
    simp only [List.map_nil] at htarget
    rw [htarget]
    rfl

theorem lineChunks_isKeep {lines : List Line} (h : ∀ line ∈ lines, line.isSettled = true) :
    (lineChunks lines).all Chunk.isKeep = true := by
  rw [lineChunks, List.all_flatMap, List.all_eq_true]
  exact h

/-! ### Joining two lines -/

/-- The line that two lines make of which the first goes on with the second. -/
def Line.join? : Line → Line → Option Line
  | value head suffixes _, value (.group first more) others closed =>
    some (value head (suffixes ++ .call true first more :: others) closed)
  | _, _ => none

section

variable {line next both : Line}

theorem Line.join?_eq_some (hjoins : line.joins next = true) (h : line.join? next = some both) :
    ∃ head suffixes first more others closed, line = value head suffixes false ∧
      next = value (.group first more) others closed ∧
      both = value head (suffixes ++ .call true first more :: others) closed := by
  unfold Line.join? at h
  split at h
  · rename_i head suffixes open? first more others closed
    obtain rfl : open? = false := by simpa [Line.joins, Line.goesOn, Line.startsParen] using hjoins
    exact ⟨head, suffixes, first, more, others, closed, rfl, rfl, (Option.some.inj h).symm⟩
  · simp at h

/-- Only an assignment cannot be joined with the line that goes on with it. -/
theorem Line.join?_eq_none (hjoins : line.joins next = true) (hnext : next.isSettled = true)
    (h : line.join? next = none) : ∃ head suffixes target right,
      line = value head suffixes false ∧ next = assign target right := by
  cases line with
  | cast | assign => simp [Line.joins, Line.goesOn] at hjoins
  | value head suffixes closed =>
    simp only [Line.joins, Line.goesOn, Bool.and_eq_true, Bool.not_eq_true'] at hjoins
    obtain ⟨rfl, hparen⟩ := hjoins
    cases next with
    | cast => simp [Line.isSettled, Line.chunks, Chunk.isKeep] at hnext
    | value head' => cases head' <;> simp [Line.join?, Line.startsParen] at h hparen
    | assign target right => exact ⟨head, suffixes, target, right, rfl, rfl⟩

theorem lineGlyphs_join? {lines : List Line} (hjoins : line.joins next = true)
    (h : line.join? next = some both) :
    lineGlyphs (both :: lines) = lineGlyphs (line :: next :: lines) := by
  obtain ⟨head, suffixes, first, more, others, closed, rfl, rfl, rfl⟩ := Line.join?_eq_some hjoins h
  simp [lineGlyphs, Line.glyphs, Head.glyphs, suffixGlyphs, Suffix.glyphs, breakGlyphs, endGlyphs]

theorem Line.join?_isSettled (hjoins : line.joins next = true) (h : line.join? next = some both)
    (hline : line.isSettled = true) (hnext : next.isSettled = true) : both.isSettled = true := by
  obtain ⟨head, suffixes, first, more, others, closed, rfl, rfl, rfl⟩ := join?_eq_some hjoins h
  simp only [Line.isSettled, Line.chunks, Head.chunks, suffixChunks, List.flatMap_append,
    List.flatMap_cons, Suffix.chunks, List.all_append, List.all_cons, Bool.and_eq_true]
    at hline hnext ⊢
  exact ⟨hline.1, ⟨hline.2.1, ⟨rfl, hnext.1⟩, hnext.2.1⟩, hnext.2.2⟩

theorem Line.join?_goesOn (hjoins : line.joins next = true) (h : line.join? next = some both) :
    both.goesOn = next.goesOn ∧ both.startsParen = line.startsParen := by
  obtain ⟨head, suffixes, first, more, others, closed, rfl, rfl, rfl⟩ := join?_eq_some hjoins h
  cases head <;> exact ⟨rfl, rfl⟩

end

/-! ### Joining lines -/

/-- The lines that a line and those behind it are read as. -/
inductive Joined : Line → List Line → List Line → Prop
  | last {line} : Joined line [] [line]
  | join {line next both lines read} : line.joins next = true → line.join? next = some both →
      Joined both lines read → Joined line (next :: lines) read
  | apart {line next lines read} : line.joins next = false → Joined next lines read →
      Joined line (next :: lines) (line :: read)

section

variable {line : Line} {lines read : List Line}

theorem Joined.glyphs (h : Joined line lines read) : lineGlyphs read = lineGlyphs (line :: lines) := by
  induction h with
  | last => rfl
  | join hjoins hboth _ ih => rw [ih, lineGlyphs_join? hjoins hboth]
  | apart _ _ ih => rw [lineGlyphs_cons, ih, lineGlyphs_cons _ (_ :: _)]

theorem Joined.isSettled (h : Joined line lines read)
    (hsettled : ∀ l ∈ line :: lines, l.isSettled = true) : ∀ l ∈ read, l.isSettled = true := by
  induction h with
  | last => exact hsettled
  | join hjoins hboth _ ih =>
    obtain ⟨hline, hnext, hlines⟩ : _ ∧ _ ∧ _ := by simpa using hsettled
    have hsettled' := Line.join?_isSettled hjoins hboth hline hnext
    exact ih (List.forall_mem_cons.mpr ⟨hsettled', hlines⟩)
  | apart _ _ ih =>
    obtain ⟨hline, hlines⟩ := List.forall_mem_cons.mp hsettled
    exact List.forall_mem_cons.mpr ⟨hline, ih hlines⟩

theorem Joined.startsParen (h : Joined line lines read) :
    ∃ first ∈ read.head?, first.startsParen = line.startsParen := by
  induction h with
  | last => exact ⟨_, rfl, rfl⟩
  | join hjoins hboth _ ih =>
    obtain ⟨first, hfirst, hparen⟩ := ih
    exact ⟨first, hfirst, hparen.trans (Line.join?_goesOn hjoins hboth).2⟩
  | apart => exact ⟨_, rfl, rfl⟩

theorem Line.joins_congr {line next other : Line} (h : next.startsParen = other.startsParen) :
    line.joins next = line.joins other := by
  rw [Line.joins, Line.joins, h]

theorem Joined.separated (h : Joined line lines read) : Separated read := by
  induction h with
  | last => exact List.isChain_singleton _
  | join _ _ _ ih => exact ih
  | @apart line next lines read hapart hrest ih =>
    obtain ⟨first, hfirst, hparen⟩ := hrest.startsParen
    refine List.isChain_cons.mpr ⟨?_, ih⟩
    intro y hy
    obtain rfl : first = y := Option.some.inj (hfirst.symm.trans hy)
    rwa [Line.joins_congr hparen]

theorem Joined.length_le (h : Joined line lines read) : read.length ≤ lines.length + 1 := by
  induction h with
  | last => exact Nat.le_refl _
  | join _ _ _ ih => exact ih.trans (Nat.le_succ _)
  | apart _ _ ih => exact Nat.succ_le_succ ih

/-- As many lines are read as are written exactly if none of them goes on. -/
theorem Joined.length_eq_iff (h : Joined line lines read) :
    read.length = lines.length + 1 ↔ Separated (line :: lines) := by
  induction h with
  | last => exact ⟨fun _ => List.isChain_singleton _, fun _ => rfl⟩
  | join hjoins _ hrest _ =>
    have hlength := hrest.length_le
    constructor
    · intro heq
      rw [List.length_cons] at heq
      omega
    · intro hsep
      have happart := (List.isChain_cons_cons.mp hsep).1
      rw [hjoins] at happart
      simp at happart
  | apart hapart _ ih =>
    rw [List.length_cons, List.length_cons, Nat.add_right_cancel_iff, ih]
    exact ⟨fun hsep => List.isChain_cons_cons.mpr ⟨hapart, hsep⟩,
      fun hsep => (List.isChain_cons_cons.mp hsep).2⟩

end

/-! ### Lines that go on with an assignment -/

def Line.isAssign : Line → Bool
  | assign _ _ => true
  | _ => false

/-- None of the lines goes on with an assignment. -/
def Joinable (lines : List Line) : Prop := lines.IsChain fun l m => (l.goesOn && m.isAssign) = false

instance (lines : List Line) : Decidable (Joinable lines) :=
  inferInstanceAs (Decidable (lines.IsChain _))

section

variable {line : Line} {lines : List Line}

theorem Joinable.cons_congr {other : Line} (h : line.goesOn = other.goesOn) :
    Joinable (line :: lines) ↔ Joinable (other :: lines) := by
  simp only [Joinable, List.isChain_cons, h]

theorem Line.isAssign_of_join? {next both : Line} (hjoins : line.joins next = true)
    (hboth : line.join? next = some both) : next.isAssign = false := by
  obtain ⟨_, _, _, _, _, _, -, rfl, -⟩ := join?_eq_some hjoins hboth
  rfl

theorem Line.isAssign_of_not_joins {next : Line} (h : line.joins next = false) :
    (line.goesOn && next.isAssign) = false := by
  cases next with
  | assign => simpa [Line.joins, Line.startsParen, Line.isAssign] using h
  | _ => exact Bool.and_false _

theorem Separated.joinable (h : Separated lines) : Joinable lines :=
  List.IsChain.imp (fun _ _ => Line.isAssign_of_not_joins) h

theorem exists_joined (hsettled : ∀ l ∈ lines, l.isSettled = true) (h : Joinable (line :: lines)) :
    ∃ read, Joined line lines read := by
  induction lines generalizing line with
  | nil => exact ⟨_, .last⟩
  | cons next lines ih =>
    obtain ⟨hnext, hlines⟩ := List.forall_mem_cons.mp hsettled
    obtain ⟨hassign, hrest⟩ := List.isChain_cons_cons.mp h
    cases hjoins : line.joins next with
    | false =>
      obtain ⟨read, hread⟩ := ih hlines hrest
      exact ⟨_, .apart hjoins hread⟩
    | true =>
      cases hboth : line.join? next with
      | none =>
        obtain ⟨_, _, _, _, rfl, rfl⟩ := Line.join?_eq_none hjoins hnext hboth
        simp [Line.goesOn, Line.isAssign] at hassign
      | some both =>
        have hgoes := (Line.join?_goesOn hjoins hboth).1
        obtain ⟨read, hread⟩ := ih hlines ((Joinable.cons_congr hgoes).mpr hrest)
        exact ⟨read, .join hjoins hboth hread⟩

/-- Lines that are read up to a line that goes on with an assignment. -/
def Refused (line : Line) (lines : List Line) : Prop :=
  ∃ front head suffixes target right rest,
    lineGlyphs (line :: lines) = lineGlyphs (front ++ .value head suffixes false ::
      .assign target right :: rest) ∧
    Separated (front ++ [.value head suffixes false]) ∧
    ∃ first ∈ (front ++ [.value head suffixes false]).head?, first.startsParen = line.startsParen

theorem refused_of_not_joinable (hsettled : ∀ l ∈ lines, l.isSettled = true)
    (h : ¬Joinable (line :: lines)) : Refused line lines := by
  induction lines generalizing line with
  | nil => exact absurd (List.isChain_singleton _) h
  | cons next lines ih =>
    obtain ⟨hnext, hlines⟩ := List.forall_mem_cons.mp hsettled
    cases hjoins : line.joins next with
    | false =>
      have happart := Line.isAssign_of_not_joins hjoins
      have hrest : ¬Joinable (next :: lines) := fun hrest =>
        h (List.isChain_cons_cons.mpr ⟨happart, hrest⟩)
      obtain ⟨front, head, suffixes, target, right, rest, hglyphs, hsep, first, hfirst, hparen⟩ :=
        ih hlines hrest
      refine ⟨line :: front, head, suffixes, target, right, rest, ?_, ?_, line, rfl, rfl⟩
      · rw [lineGlyphs_cons, hglyphs, List.cons_append, lineGlyphs_cons]
      · refine List.isChain_cons.mpr ⟨?_, hsep⟩
        intro y hy
        obtain rfl : first = y := Option.some.inj (hfirst.symm.trans hy)
        rwa [Line.joins_congr hparen]
    | true =>
      cases hboth : line.join? next with
      | none =>
        obtain ⟨head, suffixes, target, right, rfl, rfl⟩ := Line.join?_eq_none hjoins hnext hboth
        exact ⟨[], head, suffixes, target, right, lines, rfl, List.isChain_singleton _, _, rfl, rfl⟩
      | some both =>
        obtain ⟨hgoes, hstarts⟩ := Line.join?_goesOn hjoins hboth
        have hrest : ¬Joinable (both :: lines) := by
          intro hrest
          have hassign : (line.goesOn && next.isAssign) = false := by
            rw [Line.isAssign_of_join? hjoins hboth, Bool.and_false]
          exact h (List.isChain_cons_cons.mpr ⟨hassign, (Joinable.cons_congr hgoes).mp hrest⟩)
        obtain ⟨front, head, suffixes, target, right, rest, hglyphs, hsep, first, hfirst, hparen⟩ :=
          ih hlines hrest
        refine ⟨front, head, suffixes, target, right, rest, ?_, hsep, first, hfirst,
          hparen.trans hstarts⟩
        rw [← hglyphs, lineGlyphs_join? hjoins hboth]

end

/-! ### Lines that assign to a call -/

/-- A line that assigns to what is no place. -/
def Line.misassigns : Line → Bool
  | assign target _ => !target.isPlace
  | _ => false

theorem Joined.misassigns {line : Line} {lines read : List Line} (h : Joined line lines read) :
    read.any Line.misassigns = (line :: lines).any Line.misassigns := by
  induction h with
  | last => rfl
  | join hjoins hboth _ ih =>
    obtain ⟨_, _, _, _, _, _, rfl, rfl, rfl⟩ := Line.join?_eq_some hjoins hboth
    exact ih
  | apart _ _ ih =>
    rw [List.any_cons, ih]
    rfl

theorem Line.issues_eq_nil_iff (line : Line) (p : Place) :
    line.issues p = [] ↔ line.misassigns = false := by
  cases line with
  | assign target right =>
    have hplace : ((Head.group target []).node p).isPlace = target.isPlace := target.node_isPlace
    rw [Line.issues, Parser.targetIssues, hplace, Line.misassigns]
    cases target.isPlace <;> simp
  | _ => simp [Line.issues, Line.misassigns]

theorem lineIssues_eq_nil_iff (p : Place) (lines : List Line) :
    lineIssues p lines = [] ↔ lines.any Line.misassigns = false := by
  induction lines generalizing p with
  | nil => simp [lineIssues]
  | cons line lines ih =>
    rw [lineIssues, List.append_eq_nil_iff, ih, line.issues_eq_nil_iff, List.any_cons,
      Bool.or_eq_false_iff, and_comm]

end Script
end CastLint
