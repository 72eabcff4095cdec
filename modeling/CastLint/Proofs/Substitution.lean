import CastLint.Proofs.DirectiveLines
import CastLint.Proofs.MachineSteps
import CastLint.Proofs.TemplatePieces
import Mathlib.Data.List.FinRange
import Mathlib.Data.List.Nodup

/-! Templates that are filled. The literal pieces of a template stay, and a placeholder becomes the
value of the first entry with its key, or stays too. Which entry a placeholder takes depends on the
keys alone, so values are copied and never read. The loop that cuts a template at byte offsets writes
the same. -/

namespace CastLint
namespace Lint
namespace Template

open Text (IsTrimmed byteLength isTrimmed_iff)

/-! ### Values of pieces -/

/-- What is written for a piece of a template: a literal as it is, and for a placeholder the value of
the first entry with its key or, without one, the placeholder itself. -/
inductive Writes (data : List (String × String)) : Piece → List Char → Prop
  | literal (text : List Char) : Writes data (.literal text) text
  | entry {content : List Char} {key value : String} {front back : List (String × String)}
      (hkey : IsTrimmed content key.toList) (hdata : data = front ++ (key, value) :: back)
      (hfirst : ∀ e ∈ front, e.1 ≠ key) : Writes data (.placeholder content) value.toList
  | kept {content : List Char} (hnone : ∀ e ∈ data, ¬IsTrimmed content e.1.toList) :
      Writes data (.placeholder content) (opening ++ content ++ closing)

def keyOf (content : List Char) : String := String.ofList (Text.trim content)

section

variable {data others : List (String × String)} {p : Piece} {ps : List Piece}
  {text content : List Char} {key : String} {e : String × String}

theorem keyOf_eq_iff : keyOf content = key ↔ IsTrimmed content key.toList := by
  rw [keyOf, isTrimmed_iff]
  constructor
  · rintro rfl
    rw [String.toList_ofList]
  · intro h
    rw [h, String.ofList_toList]

theorem value_placeholder (data : List (String × String)) (content : List Char) :
    (Piece.placeholder content).value data =
      match data.find? (·.1 = keyOf content) with
      | some (_, value) => value.toList
      | none => (Piece.placeholder content).source := rfl

theorem find?_key_eq_none_iff :
    data.find? (·.1 = keyOf content) = none ↔ ∀ e ∈ data, ¬IsTrimmed content e.1.toList := by
  simp only [List.find?_eq_none, decide_eq_true_eq, ← keyOf_eq_iff, eq_comm (a := keyOf content)]

theorem writes_value (data : List (String × String)) (p : Piece) : Writes data p (p.value data) := by
  cases p with
  | literal text => exact .literal text
  | placeholder content =>
    cases hfind : data.find? (·.1 = keyOf content) with
    | none =>
      rw [value_placeholder, hfind]
      exact .kept (find?_key_eq_none_iff.mp hfind)
    | some e =>
      rcases List.find?_eq_some_iff_append.mp hfind with ⟨hkey, front, back, hdata, hfirst⟩
      simp only [decide_eq_true_eq, Bool.not_eq_true', decide_eq_false_iff_not] at hkey hfirst
      rw [value_placeholder, hfind]
      apply Writes.entry (keyOf_eq_iff.mp hkey.symm) hdata
      rw [hkey]
      exact hfirst

theorem Writes.eq_value (h : Writes data p text) : text = p.value data := by
  cases h with
  | literal => rfl
  | @entry content key value front back hkey hdata hfirst =>
    have hfind : data.find? (·.1 = keyOf content) = some (key, value) := by
      rw [keyOf_eq_iff.mpr hkey, List.find?_eq_some_iff_append]
      refine ⟨by simp, front, back, hdata, fun e he => ?_⟩
      simpa using hfirst e he
    rw [value_placeholder, hfind]
  | kept hnone =>
    rw [value_placeholder, find?_key_eq_none_iff.mpr hnone]
    rfl

theorem writes_iff : Writes data p text ↔ text = p.value data := by
  constructor
  · exact Writes.eq_value
  · rintro rfl
    exact writes_value data p

theorem forall₂_writes_iff {texts : List (List Char)} :
    List.Forall₂ (Writes data) ps texts ↔ texts = ps.map (Piece.value data) := by
  induction ps generalizing texts with
  | nil => simp
  | cons p ps ih => simp [List.forall₂_cons_left_iff, writes_iff, ih]

theorem flatMap_value_of_no_key
    (h : ∀ content, .placeholder content ∈ ps → ∀ e ∈ data, ¬IsTrimmed content e.1.toList) :
    ps.flatMap (Piece.value data) = ps.flatMap Piece.source := by
  apply List.flatMap_congr
  intro p hp
  cases p with
  | literal text => rfl
  | placeholder content =>
    rw [value_placeholder, find?_key_eq_none_iff.mpr (h content hp)]

/-! ### Entries -/

theorem find?_eq_some_iff_mem (hnodup : (data.map Prod.fst).Nodup) :
    data.find? (·.1 = key) = some e ↔ e ∈ data ∧ e.1 = key := by
  constructor
  · intro h
    exact ⟨List.mem_of_find?_eq_some h, by simpa using List.find?_some h⟩
  · rintro ⟨hmem, rfl⟩
    cases hfind : data.find? (·.1 = e.1) with
    | none => simpa using List.find?_eq_none.mp hfind e hmem
    | some e' =>
      have hkey : e'.1 = e.1 := by simpa using List.find?_some hfind
      rw [List.inj_on_of_nodup_map hnodup (List.mem_of_find?_eq_some hfind) hmem hkey]

theorem value_perm (hperm : others.Perm data) (hnodup : (data.map Prod.fst).Nodup) (p : Piece) :
    p.value others = p.value data := by
  have hnodup' : (others.map Prod.fst).Nodup := (hperm.map Prod.fst).nodup_iff.mpr hnodup
  have hfind : ∀ key : String, others.find? (·.1 = key) = data.find? (·.1 = key) := by
    intro key
    apply Option.ext
    intro e
    rw [find?_eq_some_iff_mem hnodup', find?_eq_some_iff_mem hnodup, hperm.mem_iff]
  cases p with
  | literal text => rfl
  | placeholder content => simp only [Piece.value, hfind]

end

/-! ### Slots -/

section

variable {n : ℕ} (keys values : Fin n → String)

/-- What a piece writes if the keys are known and the values are not: a text, or the value of one of
the entries. -/
def Piece.slot : Piece → List Char ⊕ Fin n
  | literal text => .inl text
  | placeholder content =>
    match (List.finRange n).find? (keys · = keyOf content) with
    | some i => .inr i
    | none => .inl (placeholder content).source

theorem Piece.value_slot (p : Piece) :
    p.value (List.ofFn fun i => (keys i, values i)) =
      (p.slot keys).elim id fun i => (values i).toList := by
  cases p with
  | literal text => rfl
  | placeholder content =>
    have hfind : (List.ofFn fun i => (keys i, values i)).find? (·.1 = keyOf content) =
        ((List.finRange n).find? (keys · = keyOf content)).map fun i => (keys i, values i) := by
      rw [List.ofFn_eq_map, List.find?_map]
      rfl
    rw [slot]
    cases hslot : (List.finRange n).find? (keys · = keyOf content) with
    | none =>
      rw [value_placeholder, hfind, hslot]
      rfl
    | some i =>
      rw [value_placeholder, hfind, hslot]
      rfl

end

/-! ### The loop -/

def place? (mark : List Char) : List Char → Option ℕ
  | [] => if mark = [] then some 0 else none
  | c :: cs => if mark <+: c :: cs then some 0 else (place? mark cs).map (c.utf8Size + ·)

theorem place?_append (mark rest : List Char) : place? mark (mark ++ rest) = some 0 := by
  cases hcs : mark ++ rest with
  | nil => rw [place?, if_pos (List.append_eq_nil_iff.mp hcs).1]
  | cons c cs => rw [place?, if_pos ⟨rest, hcs⟩]

theorem place?_of_isFirst {mark cs before after : List Char} (h : IsFirst mark cs before after) :
    place? mark cs = some (byteLength before) := by
  induction cs generalizing before with
  | nil =>
    obtain ⟨rfl, hrest⟩ := List.append_eq_nil_iff.mp h.eq.symm
    rw [place?, if_pos (List.append_eq_nil_iff.mp hrest).1]
    rfl
  | cons c cs ih =>
    by_cases hfirst : mark <+: c :: cs
    · obtain ⟨rest, hrest⟩ := hfirst
      rw [← hrest] at h ⊢
      obtain ⟨rfl, rfl⟩ := h.unique (isFirst_append mark rest)
      exact place?_append mark after
    · obtain ⟨front, rfl, hmore⟩ := (isFirst_cons_iff hfirst).mp h
      rw [place?, if_neg hfirst, ih hmore]
      rfl

theorem place?_of_not_infix {mark cs : List Char} (h : ¬mark <:+: cs) : place? mark cs = none := by
  induction cs with
  | nil => rw [place?, if_neg (fun hnil => h (by rw [hnil]))]
  | cons c cs ih =>
    rw [List.infix_cons_iff, not_or] at h
    rw [place?, if_neg h.1, ih h.2]
    rfl

@[simp] theorem byteLength_opening : byteLength opening = 2 := by decide

@[simp] theorem byteLength_closing : byteLength closing = 2 := by decide

/-- What the loop over a template has written, and what is still to be read. -/
structure Filling where
  output : List Char := []
  rest : List Char

namespace Filling

open Machine (Run cut cut_run ok_bind)

/-- One round: writes what stands in front of the next placeholder and what that stands for, and goes
on behind it. Offsets count the bytes of the rest, which is a new one in each round. -/
def round (data : List (String × String)) (s : Filling) : Run (Option Filling) :=
  match place? opening s.rest with
  | none => .ok none
  | some start => do
    let behind ← cut s.rest (start + 2) (byteLength s.rest)
    match place? closing behind with
    | none => .ok none
    | some size => do
      let stop := start + 2 + size
      let content ← cut s.rest (start + 2) stop
      let front ← cut s.rest 0 start
      let written ← match data.find? (·.1 = keyOf content) with
        | some (_, value) => .ok value.toList
        | none => cut s.rest start (stop + 2)
      let rest ← cut s.rest (stop + 2) (byteLength s.rest)
      .ok (some ⟨s.output ++ front ++ written, rest⟩)

theorem cut_of_eq {cs : List Char} {start stop : ℕ} (front mid back : List Char)
    (h : cs = front ++ mid ++ back) (hstart : byteLength front = start)
    (hstop : byteLength (front ++ mid) = stop) : cut cs start stop = .ok mid := by
  subst h hstart hstop
  exact cut_run front mid back

section

variable {data : List (String × String)} {output cs text rest content after : List Char}
  {s s' : Filling}

theorem cut_behind (hopen : IsFirst opening cs text rest) :
    cut cs (byteLength text + 2) (byteLength cs) = .ok rest :=
  cut_of_eq (text ++ opening) rest [] (by simp [hopen.eq]) (by simp) (by simp [hopen.eq])

/-- No offset of a round falls inside a character or outside the rest. -/
theorem round_of_isFirst (hopen : IsFirst opening cs text rest)
    (hclose : IsFirst closing rest content after) :
    round data ⟨output, cs⟩ =
      .ok (some ⟨output ++ text ++ (Piece.placeholder content).value data, after⟩) := by
  have hcs : cs = text ++ opening ++ content ++ closing ++ after := by
    rw [hopen.eq, hclose.eq]
    simp only [List.append_assoc]
  have hcontent : cut cs (byteLength text + 2) (byteLength text + 2 + byteLength content) =
      .ok content := by
    apply cut_of_eq (text ++ opening) content (closing ++ after)
    · simp [hcs]
    · simp
    · simp [Nat.add_assoc]
  have hfront : cut cs 0 (byteLength text) = .ok text :=
    cut_of_eq [] text (opening ++ content ++ closing ++ after) (by simp [hcs]) rfl rfl
  have hsource : cut cs (byteLength text) (byteLength text + 2 + byteLength content + 2) =
      .ok (Piece.placeholder content).source := by
    apply cut_of_eq text (opening ++ content ++ closing) after
    · simp [hcs]
    · rfl
    · simp [Nat.add_assoc]
  have hafter : cut cs (byteLength text + 2 + byteLength content + 2) (byteLength cs) =
      .ok after := by
    apply cut_of_eq (text ++ opening ++ content ++ closing) after []
    · simp [hcs]
    · simp [Nat.add_assoc]
    · simp [hcs]
  simp only [round, place?_of_isFirst hopen, cut_behind hopen, ok_bind, place?_of_isFirst hclose,
    hcontent, hfront, hafter, value_placeholder]
  cases data.find? (·.1 = keyOf content) with
  | none => rw [hsource]; rfl
  | some e => rfl

theorem round_of_not_hasPlaceholder (h : ¬HasPlaceholder cs) :
    round data ⟨output, cs⟩ = .ok none := by
  rcases unclosed_of_not_hasPlaceholder h with hno | ⟨text, rest, hopen, hno⟩
  · simp only [round, place?_of_not_infix hno]
  · simp only [round, place?_of_isFirst hopen, cut_behind hopen, ok_bind, place?_of_not_infix hno]

theorem length_lt_of_round (h : s.round data = .ok (some s')) : s'.rest.length < s.rest.length := by
  by_cases hmore : HasPlaceholder s.rest
  · obtain ⟨text, rest, content, after, hopen, hclose⟩ := hasPlaceholder_iff.mp hmore
    have hround : s.round data = _ := round_of_isFirst hopen hclose
    obtain rfl := Option.some.inj (Except.ok.inj (h.symm.trans hround))
    exact length_after_lt hopen hclose
  · have hround : s.round data = _ := round_of_not_hasPlaceholder hmore
    exact absurd (h.symm.trans hround) (by simp)

end

def run (data : List (String × String)) (s : Filling) : Run (List Char) :=
  match h : s.round data with
  | .error fault => .error fault
  | .ok none => .ok (s.output ++ s.rest)
  | .ok (some s') =>
    have := length_lt_of_round h
    s'.run data
termination_by s.rest.length

section

variable {data : List (String × String)} {cs : List Char} {ps : List Piece} {s s' : Filling}

theorem run_of_round_eq_none (h : s.round data = .ok none) :
    s.run data = .ok (s.output ++ s.rest) := by
  rw [run]
  split <;> simp_all

theorem run_of_round_eq_some (h : s.round data = .ok (some s')) : s.run data = s'.run data := by
  rw [run]
  split <;> simp_all

theorem run_of_splits (h : Splits cs ps) (output : List Char) :
    run data ⟨output, cs⟩ = .ok (output ++ ps.flatMap (Piece.value data)) := by
  -- each placeholder of the splitting is one round, and what is written only grows at its end
  induction h generalizing output with
  | literal hnone =>
    rw [run_of_round_eq_none (round_of_not_hasPlaceholder hnone)]
    simp [Piece.value]
  | placeholder hopen hclose hafter ih =>
    rw [run_of_round_eq_some (round_of_isFirst hopen hclose), ih]
    simp [Piece.value]

end

end Filling

/-! ### Whole templates -/

/-- A template is filled in one go from the left. Whatever the data, it splits into the same literal
pieces and placeholders, and what is written is what they stand for, one behind the other; the loop
over byte offsets writes it without a cut that fails. So a template in which no placeholder holds a
key of the data stays as it is; with the keys alone it is settled which texts and which values are
written where, whatever braces stand in the values; and if all keys are different, their order does
not matter. -/
theorem render_substitutes (template : String) :
    ∃ ps : List Piece, (∀ qs, Splits template.toList qs ↔ qs = ps) ∧
      ps.flatMap Piece.source = template.toList ∧
      (∀ data, ∃ texts, (∀ us, List.Forall₂ (Writes data) ps us ↔ us = texts) ∧
        render template data = String.ofList texts.flatten ∧
        Filling.run data { rest := template.toList } = .ok texts.flatten) ∧
      (∀ data : List (String × String),
        (∀ content, .placeholder content ∈ ps → ∀ e ∈ data, ¬IsTrimmed content e.1.toList) →
        render template data = template) ∧
      (∀ (n : ℕ) (keys : Fin n → String), ∃ plan : List (List Char ⊕ Fin n),
        ∀ values : Fin n → String, render template (List.ofFn fun i => (keys i, values i)) =
          String.ofList (plan.flatMap (Sum.elim id fun i => (values i).toList))) ∧
      ∀ data others : List (String × String), others.Perm data → (data.map Prod.fst).Nodup →
        render template others = render template data := by
  have hsource := (splits_pieces template.toList).source_eq
  refine ⟨pieces template.toList, fun qs => splits_iff, hsource, ?_, ?_, ?_, ?_⟩
  · intro data
    refine ⟨(pieces template.toList).map (Piece.value data), fun us => forall₂_writes_iff, ?_, ?_⟩
    · rw [render, List.flatMap_def]
    · rw [Filling.run_of_splits (splits_pieces template.toList), List.nil_append, List.flatMap_def]
  · intro data hnone
    rw [render, flatMap_value_of_no_key hnone, hsource, String.ofList_toList]
  · intro n keys
    refine ⟨(pieces template.toList).map (Piece.slot keys), fun values => ?_⟩
    have hslots : Piece.value (List.ofFn fun i => (keys i, values i)) = fun p =>
        (p.slot keys).elim id fun i => (values i).toList := funext (Piece.value_slot keys values)
    rw [render, hslots, List.flatMap_map]
  · intro data others hperm hnodup
    have hvalues : Piece.value others = Piece.value data := funext (value_perm hperm hnodup)
    rw [render, hvalues, render]

/-- A closing in front of the first opening, three braces on each side, nothing between braces, an
opening inside a placeholder, a blank of two bytes, and an opening that is not closed. -/
def bracesTemplate : String :=
  "é\x7d\x7d \x7b\x7b\x7ba\x7d\x7d\x7d-\x7b\x7b\x7d\x7d" ++
    "\x7b\x7b b \x7b\x7b a \x7d\x7d|\x7b\x7b\u00a0b \x7d\x7d|\x7b\x7ba"

def bracesPieces : List Piece :=
  [.literal "é\x7d\x7d ".toList, .placeholder "\x7ba".toList, .literal "\x7d-".toList,
    .placeholder [], .literal [], .placeholder " b \x7b\x7b a ".toList, .literal "|".toList,
    .placeholder "\u00a0b ".toList, .literal "|\x7b\x7ba".toList]

/-- Values with braces, one of them a placeholder with the key of another. -/
def bracesData : List (String × String) :=
  [("a", "1"), ("b", "\x7b\x7b a \x7d\x7d"), ("b \x7b\x7b a", "\x7d\x7d€")]

def filledBraces : String :=
  "é\x7d\x7d \x7b\x7b\x7ba\x7d\x7d\x7d-\x7b\x7b\x7d\x7d" ++
    "\x7d\x7d€|\x7b\x7b a \x7d\x7d|\x7b\x7ba"

theorem bracesTemplate_substitutes :
    Splits bracesTemplate.toList bracesPieces ∧
    render bracesTemplate bracesData = filledBraces ∧
    Filling.run bracesData { rest := bracesTemplate.toList } = .ok filledBraces.toList ∧
    (∀ content, .placeholder content ∈ bracesPieces →
      ∀ e ∈ [("a", "1")], ¬IsTrimmed content e.1.toList) ∧
    render bracesTemplate [("a", "1")] = bracesTemplate ∧
    bracesData.reverse.Perm bracesData ∧ (bracesData.map Prod.fst).Nodup ∧
    render bracesTemplate bracesData.reverse = filledBraces := by
  obtain ⟨ps, hsplits, -, hwritten, hkept, -, horder⟩ := render_substitutes bracesTemplate
  have hread : pieces bracesTemplate.toList = bracesPieces := by decide +kernel
  have hpieces : Splits bracesTemplate.toList bracesPieces := splits_iff.mpr hread.symm
  obtain rfl : bracesPieces = ps := (hsplits bracesPieces).mp hpieces
  have hfilled : render bracesTemplate bracesData = filledBraces := by decide +kernel
  have hnone : ∀ content, .placeholder content ∈ bracesPieces →
      ∀ e ∈ [("a", "1")], ¬IsTrimmed content e.1.toList := by
    simp only [isTrimmed_iff, bracesPieces, List.mem_cons, reduceCtorEq, Piece.placeholder.injEq,
      List.not_mem_nil, or_false, false_or]
    rintro content (rfl | rfl | rfl | rfl) e rfl
    · decide
    · decide
    · decide
    · decide
  have hperm : bracesData.reverse.Perm bracesData := List.reverse_perm _
  have hnodup : (bracesData.map Prod.fst).Nodup := by decide
  obtain ⟨texts, -, htexts, hrun⟩ := hwritten bracesData
  refine ⟨hpieces, hfilled, ?_, hnone, hkept _ hnone, hperm, hnodup, ?_⟩
  · rw [hrun, ← hfilled, htexts, String.toList_ofList]
  · rw [horder _ _ hperm hnodup, hfilled]

end Template
end Lint
end CastLint
