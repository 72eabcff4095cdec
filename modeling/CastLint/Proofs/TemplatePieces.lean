import CastLint.Lint.Template
import Mathlib.Data.List.Infix

/-! How a template splits. A placeholder reaches from the first two opening braces of what is left to
the first two closing braces behind them, and what no placeholder takes is literal. Every template
splits in one way, its pieces put it together again, and they are the ones that are filled. -/

namespace CastLint
namespace Lint
namespace Template

/-! ### The first place of a mark -/

/-- A mark stands between `before` and `after`, and nowhere further to the left. -/
structure IsFirst (mark cs before after : List Char) : Prop where
  eq : cs = before ++ (mark ++ after)
  le : ∀ before' after', cs = before' ++ (mark ++ after') → before.length ≤ before'.length

section

variable {mark cs before before' after after' : List Char} {brace c : Char}

theorem isFirst_append (mark rest : List Char) : IsFirst mark (mark ++ rest) [] rest :=
  ⟨rfl, fun _ _ _ => Nat.zero_le _⟩

theorem IsFirst.unique (h : IsFirst mark cs before after) (h' : IsFirst mark cs before' after') :
    before = before' ∧ after = after' := by
  have hlength : before.length = before'.length := le_antisymm (h.le _ _ h'.eq) (h'.le _ _ h.eq)
  have hsame : before ++ (mark ++ after) = before' ++ (mark ++ after') := h.eq.symm.trans h'.eq
  obtain ⟨hbefore, hrest⟩ := List.append_inj hsame hlength
  exact ⟨hbefore, List.append_cancel_left hrest⟩

theorem isFirst_cons_iff (hno : ¬mark <+: c :: cs) :
    IsFirst mark (c :: cs) before after ↔
      ∃ front, before = c :: front ∧ IsFirst mark cs front after := by
  constructor
  · intro h
    cases before with
    | nil => exact absurd ⟨after, h.eq.symm⟩ hno
    | cons d front =>
      obtain ⟨rfl, hcs⟩ := List.cons.inj h.eq
      refine ⟨front, rfl, hcs, fun front' after' hrest => ?_⟩
      apply Nat.le_of_succ_le_succ
      exact h.le (c :: front') after' (by rw [hrest]; rfl)
  · rintro ⟨front, rfl, h⟩
    refine ⟨by rw [h.eq]; rfl, fun before' after' hcs => ?_⟩
    cases before' with
    | nil => exact absurd ⟨after', hcs.symm⟩ hno
    | cons d front' => exact Nat.succ_le_succ (h.le front' after' (List.cons.inj hcs).2)

theorem exists_isFirst_iff : (∃ before after, IsFirst mark cs before after) ↔ mark <:+: cs := by
  constructor
  · rintro ⟨before, after, h⟩
    exact ⟨before, after, by rw [h.eq, List.append_assoc]⟩
  · intro h
    induction cs with
    | nil =>
      obtain rfl := List.infix_nil.mp h
      exact ⟨[], [], isFirst_append [] []⟩
    | cons c cs ih =>
      by_cases hfirst : mark <+: c :: cs
      · obtain ⟨rest, hrest⟩ := hfirst
        exact ⟨[], rest, hrest ▸ isFirst_append mark rest⟩
      · obtain ⟨before, after, hmore⟩ := ih ((List.infix_cons_iff.mp h).resolve_left hfirst)
        exact ⟨c :: before, after, (isFirst_cons_iff hfirst).mpr ⟨before, rfl, hmore⟩⟩

theorem splitAtPair?_pair (brace : Char) (cs : List Char) :
    splitAtPair? brace (brace :: brace :: cs) = some ([], cs) := by
  simp [splitAtPair?]

theorem splitAtPair?_cons (hno : ¬[brace, brace] <+: c :: cs) :
    splitAtPair? brace (c :: cs) =
      (splitAtPair? brace cs).map fun (before, after) => (c :: before, after) := by
  cases cs with
  | nil => rfl
  | cons d cs =>
    have hpair : ¬(c = brace && d = brace) = true := by
      intro hboth
      simp only [Bool.and_eq_true, decide_eq_true_eq] at hboth
      exact hno (by simp [hboth.1, hboth.2])
    rw [splitAtPair?, if_neg hpair]

theorem splitAtPair?_of_isFirst (h : IsFirst [brace, brace] cs before after) :
    splitAtPair? brace cs = some (before, after) := by
  induction cs generalizing before with
  | nil => simpa using h.eq
  | cons c cs ih =>
    by_cases hfirst : [brace, brace] <+: c :: cs
    · obtain ⟨rest, hrest⟩ := hfirst
      rw [← hrest] at h ⊢
      obtain ⟨rfl, rfl⟩ := h.unique (isFirst_append _ _)
      exact splitAtPair?_pair brace after
    · obtain ⟨front, rfl, hmore⟩ := (isFirst_cons_iff hfirst).mp h
      rw [splitAtPair?_cons hfirst, ih hmore]
      rfl

theorem splitAtPair?_of_not_infix (h : ¬[brace, brace] <:+: cs) : splitAtPair? brace cs = none := by
  induction cs with
  | nil => rfl
  | cons c cs ih =>
    rw [List.infix_cons_iff, not_or] at h
    rw [splitAtPair?_cons h.1, ih h.2]
    rfl

end

/-! ### Splittings -/

def opening : List Char := ['\x7b', '\x7b']

def closing : List Char := ['\x7d', '\x7d']

/-- Somewhere a placeholder is opened that is closed behind. -/
def HasPlaceholder (cs : List Char) : Prop :=
  ∃ text content after, cs = text ++ (opening ++ (content ++ (closing ++ after)))

/-- The pieces of a template. While a placeholder is left, the next one starts at the first opening
and ends at the first closing behind it. All the rest is literal, even if a placeholder is opened in
it. -/
inductive Splits : List Char → List Piece → Prop
  | literal {cs : List Char} (hnone : ¬HasPlaceholder cs) : Splits cs [.literal cs]
  | placeholder {cs text rest content after : List Char} {ps : List Piece}
      (hopen : IsFirst opening cs text rest) (hclose : IsFirst closing rest content after)
      (hafter : Splits after ps) : Splits cs (.literal text :: .placeholder content :: ps)

section

variable {cs text rest content after : List Char} {ps qs : List Piece}

theorem hasPlaceholder_iff : HasPlaceholder cs ↔
    ∃ text rest content after, IsFirst opening cs text rest ∧ IsFirst closing rest content after := by
  constructor
  · rintro ⟨text, content, after, hcs⟩
    have hopened : opening <:+: cs :=
      ⟨text, content ++ (closing ++ after), by rw [hcs, List.append_assoc]⟩
    obtain ⟨first, rest, hopen⟩ := exists_isFirst_iff.mpr hopened
    have hfirst : first ++ opening <+: cs := ⟨rest, by rw [hopen.eq, List.append_assoc]⟩
    have hthis : text ++ opening <+: cs :=
      ⟨content ++ (closing ++ after), by rw [hcs, List.append_assoc]⟩
    -- the first opening is no further to the right than this one, so the closing is behind it too
    have hprefix : first ++ opening <+: text ++ opening := by
      apply List.prefix_of_prefix_length_le hfirst hthis
      simpa using hopen.le _ _ hcs
    obtain ⟨more, hmore⟩ := hprefix
    have hsame : first ++ opening ++ rest =
        first ++ opening ++ (more ++ content ++ closing ++ after) := by
      rw [List.append_assoc, ← hopen.eq, hcs, ← List.append_assoc, ← hmore]
      simp only [List.append_assoc]
    have hrest : rest = more ++ content ++ closing ++ after := List.append_cancel_left hsame
    have hclosed : closing <:+: rest := ⟨more ++ content, after, hrest.symm⟩
    obtain ⟨content', after', hclose⟩ := exists_isFirst_iff.mpr hclosed
    exact ⟨first, rest, content', after', hopen, hclose⟩
  · rintro ⟨text, rest, content, after, hopen, hclose⟩
    exact ⟨text, content, after, by rw [hopen.eq, hclose.eq]⟩

/-- A text without a placeholder has no opening, or nothing closes behind the first one. -/
theorem unclosed_of_not_hasPlaceholder (h : ¬HasPlaceholder cs) :
    ¬opening <:+: cs ∨ ∃ text rest, IsFirst opening cs text rest ∧ ¬closing <:+: rest := by
  by_cases hopened : opening <:+: cs
  · obtain ⟨text, rest, hopen⟩ := exists_isFirst_iff.mpr hopened
    refine Or.inr ⟨text, rest, hopen, fun hclosed => h ?_⟩
    obtain ⟨content, after, hclose⟩ := exists_isFirst_iff.mpr hclosed
    exact hasPlaceholder_iff.mpr ⟨text, rest, content, after, hopen, hclose⟩
  · exact Or.inl hopened

theorem length_after_lt (hopen : IsFirst opening cs text rest)
    (hclose : IsFirst closing rest content after) : after.length < cs.length := by
  rw [hopen.eq, hclose.eq]
  simp only [opening, closing, List.length_append, List.length_cons]
  omega

theorem Splits.source_eq (h : Splits cs ps) : ps.flatMap Piece.source = cs := by
  induction h with
  | literal hnone => simp [Piece.source]
  | placeholder hopen hclose hafter ih =>
    rw [hopen.eq, hclose.eq, List.flatMap_cons, List.flatMap_cons, ih]
    simp [Piece.source, opening, closing]

theorem Splits.unique (h : Splits cs ps) (h' : Splits cs qs) : ps = qs := by
  induction h generalizing qs with
  | literal hnone =>
    cases h' with
    | literal => rfl
    | placeholder hopen hclose =>
      exact absurd (hasPlaceholder_iff.mpr ⟨_, _, _, _, hopen, hclose⟩) hnone
  | placeholder hopen hclose hafter ih =>
    cases h' with
    | literal hnone =>
      exact absurd (hasPlaceholder_iff.mpr ⟨_, _, _, _, hopen, hclose⟩) hnone
    | placeholder hopen' hclose' hafter' =>
      obtain ⟨rfl, rfl⟩ := hopen.unique hopen'
      obtain ⟨rfl, rfl⟩ := hclose.unique hclose'
      rw [ih hafter']

/-- As many rounds as there are characters are enough for all placeholders. -/
theorem splits_piecesUpTo {count : ℕ} (h : cs.length ≤ count) : Splits cs (piecesUpTo count cs) := by
  induction count generalizing cs with
  | zero =>
    obtain rfl : cs = [] := List.length_eq_zero_iff.mp (Nat.le_zero.mp h)
    refine .literal ?_
    rintro ⟨text, content, after, hnil⟩
    simp [opening] at hnil
  | succ count ih =>
    by_cases hmore : HasPlaceholder cs
    · obtain ⟨text, rest, content, after, hopen, hclose⟩ := hasPlaceholder_iff.mp hmore
      have hshort : after.length ≤ count := by
        have hlt := length_after_lt hopen hclose
        omega
      simp only [piecesUpTo, splitAtPair?_of_isFirst hopen, splitAtPair?_of_isFirst hclose]
      exact .placeholder hopen hclose (ih hshort)
    · have hread : piecesUpTo (count + 1) cs = [.literal cs] := by
        rcases unclosed_of_not_hasPlaceholder hmore with hno | ⟨text, rest, hopen, hno⟩
        · simp only [piecesUpTo, splitAtPair?_of_not_infix hno]
        · simp only [piecesUpTo, splitAtPair?_of_isFirst hopen, splitAtPair?_of_not_infix hno]
      rw [hread]
      exact .literal hmore

theorem splits_pieces (cs : List Char) : Splits cs (pieces cs) := splits_piecesUpTo le_rfl

theorem splits_iff : Splits cs ps ↔ ps = pieces cs := by
  constructor
  · exact fun h => h.unique (splits_pieces cs)
  · rintro rfl
    exact splits_pieces cs

end

end Template
end Lint
end CastLint
