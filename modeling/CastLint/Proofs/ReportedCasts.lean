import CastLint.Proofs.CastAddresses
import CastLint.Proofs.MockedCalls
import Mathlib.Logic.Relation

/-! Which casts the rule against casts to mock types reports, and what it says about them. Every
cast of the tree is looked at once, in the order of a walk, and what is proposed depends on the
expression under all casts and parentheses alone. -/

namespace CastLint

namespace Syntax

def Node.unwrap? : Node → Option Node
  | .mk .asCast _ (operand :: _) => some operand
  | .mk .paren _ (inner :: _) => some inner
  | _ => none

/-- A node is another one in any number of casts and parentheses. -/
def Node.Wraps (n m : Node) : Prop := Relation.ReflTransGen (fun a b => a.unwrap? = some b) n m

theorem Node.bare_of_unwrap? {n m : Node} (h : n.unwrap? = some m) : n.bare = m.bare := by
  fun_cases Node.unwrap? n with
  | case1 span operand rest =>
    obtain rfl : operand = m := by simpa [Node.unwrap?] using h
    rw [Node.bare]
  | case2 span inner rest =>
    obtain rfl : inner = m := by simpa [Node.unwrap?] using h
    rw [Node.bare]
  | case3 => simp_all [Node.unwrap?]

theorem Node.bare_of_cast? {n : Node} {cast : Cast} (h : n.cast? = some cast) :
    n.bare = cast.operand.bare := by
  refine Node.bare_of_unwrap? ?_
  fun_cases Node.cast? n with
  | case1 span operand type rest =>
    obtain rfl : ⟨operand, type, span⟩ = cast := by simpa [Node.cast?] using h
    rfl
  | case2 => simp_all [Node.cast?]

theorem Node.bare_of_unwrap?_eq_none {n : Node} (h : n.unwrap? = none) : n.bare = n := by
  fun_cases Node.bare n <;> simp_all [Node.unwrap?]

theorem Node.Wraps.bare_eq {n m : Node} (h : n.Wraps m) : n.bare = m.bare := by
  induction h with
  | refl => rfl
  | tail _ hstep ih => exact ih.trans (bare_of_unwrap? hstep)

theorem Node.wraps_bare (n : Node) : n.Wraps n.bare ∧ n.bare.unwrap? = none := by
  fun_induction Node.bare n with
  | case1 span operand rest ih => exact ⟨.head rfl ih.1, ih.2⟩
  | case2 span inner rest ih => exact ⟨.head rfl ih.1, ih.2⟩
  | case3 n hcast hparen =>
    refine ⟨.refl, ?_⟩
    fun_cases Node.unwrap? n <;> simp_all

theorem Node.bare_eq_iff {n m : Node} : n.bare = m ↔ n.Wraps m ∧ m.unwrap? = none := by
  constructor
  · rintro rfl
    exact n.wraps_bare
  · rintro ⟨hwraps, hnone⟩
    rw [hwraps.bare_eq, bare_of_unwrap?_eq_none hnone]

end Syntax

namespace Lint
namespace PreferMocked

open Syntax

/-- A reference to one of the mock types, with or without type arguments. -/
def IsMockType (type : Node) : Prop :=
  ∃ whole dotted space member arguments,
    type = .mk .typeReference whole (.mk .qualifiedName dotted [space, member] :: arguments) ∧
      space.kind = .name "jest" ∧
        (member.kind = .name "Mock" ∨ member.kind = .name "MockedFunction")

theorem name?_eq_some_iff {n : Node} {text : String} :
    n.name? = some text ↔ n.kind = .name text := by
  rw [Node.name?]
  cases n.kind <;> simp

theorem isMockType_mk {whole dotted : Span} {space member : Node} {arguments : List Node} :
    IsMockType (.mk .typeReference whole (.mk .qualifiedName dotted [space, member] :: arguments)) ↔
      space.name? = some "jest" ∧ (member.name? = some "Mock" ∨
        member.name? = some "MockedFunction") := by
  simp only [name?_eq_some_iff]
  constructor
  · rintro ⟨_, _, _, _, _, htype, hnames⟩
    simp only [Node.mk.injEq, List.cons.injEq] at htype
    obtain ⟨-, -, ⟨-, -, rfl, rfl, -⟩, -⟩ := htype
    exact hnames
  · intro hnames
    exact ⟨whole, dotted, space, member, arguments, rfl, hnames⟩

theorem isMockCast_iff {cast : Cast} : isMockCast cast = true ↔ IsMockType cast.type := by
  obtain ⟨operand, type, span⟩ := cast
  simp only [isMockCast]
  fun_cases Node.qualifiedName? type with
  | case1 whole dotted space member arguments =>
    rw [isMockType_mk]
    cases space.name? <;> cases member.name? <;> simp [mockSpace, mockTypes]
  | case2 type hother =>
    simp only [Bool.false_eq_true, false_iff]
    rintro ⟨whole, dotted, space, member, arguments, htype, -⟩
    exact hother whole dotted space member arguments htype

def reportOf (file : Source.File) (cast : Cast) (inner : String) : Diagnostic :=
  let range : Text.Range := ⟨file.locationOf cast.span.start, file.locationOf cast.span.stop⟩
  { ruleId := "J001"
    messageId := some "useJestMocked"
    severity := .warning
    message := "Prefer jest.mocked()"
    file := file.name
    range := range
    suggestion := some ("Replace with jest.mocked(" ++ inner ++ ")")
    fixes := [⟨"Replace with jest.mocked()", "jest.mocked(" ++ inner ++ ")", range⟩] }

/-- The rule has to say `d` about a cast: it is one to a mock type, its span lies in the file, and
the expression under all casts and parentheses has a text. -/
def Reports (file : Source.File) (cast : Cast) (d : Diagnostic) : Prop :=
  IsMockType cast.type ∧ file.contains cast.span = true ∧
    ∃ bare inner, cast.operand.Wraps bare ∧ bare.unwrap? = none ∧
      file.textOf? bare.span = some inner ∧ inner ≠ "" ∧ d = reportOf file cast inner

theorem finding?_eq_some_iff {file : Source.File} {cast : Cast} {d : Diagnostic} :
    finding? file cast = some d ↔ Reports file cast d := by
  have hbare : ∀ inner, bareText? file cast.operand = some inner ↔
      file.textOf? cast.operand.bare.span = some inner ∧ inner ≠ "" := by
    intro inner
    simp [bareText?, Option.filter_eq_some_iff]
  rw [Reports, ← isMockCast_iff]
  constructor
  · intro h
    obtain ⟨hmock, -, -, inner, hinner, hrange, -⟩ := finding?_inv h
    have hinside : file.contains cast.span = true := by
      unfold Source.File.rangeOf? at hrange
      split at hrange
      · assumption
      · simp at hrange
    refine ⟨hmock, hinside, cast.operand.bare, inner, cast.operand.wraps_bare.1,
      cast.operand.wraps_bare.2, ((hbare inner).mp hinner).1, ((hbare inner).mp hinner).2, ?_⟩
    simp only [finding?, hmock, hinner, Source.File.rangeOf?, hinside] at h
    exact (Option.some.inj h).symm
  · rintro ⟨hmock, hinside, bare, inner, hwraps, hnone, htext, hne, rfl⟩
    obtain rfl := Node.bare_eq_iff.mpr ⟨hwraps, hnone⟩
    have hinner := (hbare inner).mpr ⟨htext, hne⟩
    simp only [finding?, hmock, hinner, Source.File.rangeOf?, hinside]
    rfl

/-- The findings in trees with the addresses of the casts that they are about. -/
def findingsAt (file : Source.File) (items : List Node) : List (List ℕ × Diagnostic) :=
  (addressed items).filterMap fun x => (finding? file x.2).map (x.1, ·)

theorem map_snd_findingsAt (file : Source.File) (items : List Node) :
    (findingsAt file items).map Prod.snd = (casts items).filterMap (finding? file) := by
  rw [findingsAt, List.map_filterMap, ← map_snd_addressed, List.filterMap_map]
  refine List.filterMap_congr fun x _ => ?_
  simp [Option.map_map, Function.comp_def]

theorem findingsAt_sorted (file : Source.File) (items : List Node) :
    (findingsAt file items).Pairwise fun x y => x.1 < y.1 := by
  rw [findingsAt, List.pairwise_filterMap]
  refine (addressed_sorted items).imp fun {x y} hlt b hb c hc => ?_
  obtain ⟨-, -, rfl⟩ := Option.map_eq_some_iff.mp hb
  obtain ⟨-, -, rfl⟩ := Option.map_eq_some_iff.mp hc
  exact hlt

theorem mem_findingsAt_iff {file : Source.File} {items : List Node} {address : List ℕ}
    {d : Diagnostic} :
    (address, d) ∈ findingsAt file items ↔
      ∃ cast, castAt? items address = some cast ∧ Reports file cast d := by
  simp only [findingsAt, List.mem_filterMap, Option.map_eq_some_iff, Prod.mk.injEq, Prod.exists,
    mem_addressed_iff, finding?_eq_some_iff]
  constructor
  · rintro ⟨_, cast, hcast, _, hreports, rfl, rfl⟩
    exact ⟨cast, hcast, hreports⟩
  · rintro ⟨cast, hcast, hreports⟩
    exact ⟨address, cast, hcast, d, hreports, rfl, rfl⟩

theorem Reports.proposal_eq {file : Source.File} {cast other : Cast} {d e : Diagnostic}
    (hd : Reports file cast d) (he : Reports file other e)
    (h : cast.operand.bare = other.operand.bare) :
    d.fixes.map Fix.newText = e.fixes.map Fix.newText ∧ d.suggestion = e.suggestion := by
  obtain ⟨-, -, bare, inner, hwraps, hnone, htext, -, rfl⟩ := hd
  obtain ⟨-, -, bare', inner', hwraps', hnone', htext', -, rfl⟩ := he
  have hbare : bare = bare' := by
    rw [← Node.bare_eq_iff.mpr ⟨hwraps, hnone⟩, h, Node.bare_eq_iff.mpr ⟨hwraps', hnone'⟩]
  rw [hbare, htext'] at htext
  obtain rfl := Option.some.inj htext
  exact ⟨rfl, rfl⟩

/-- The rule reports each cast of a tree that it has to say something about, once and in the order of
the addresses, and nothing else; a walk that gathers the findings about casts finds the same. For
casts of one bare expression, such as those on one chain of casts and parentheses, it proposes the
same. In a file without types or without a tree it finds nothing. -/
theorem check_reports (file : Source.File) :
    (∀ items, file.language.isTypescript = true → file.module.items = some items →
      (∃ found : List (List ℕ × Diagnostic), check file = found.map Prod.snd ∧
        found.Pairwise (fun x y => x.1 < y.1) ∧
        ∀ address d, (address, d) ∈ found ↔
          ∃ cast, castAt? items address = some cast ∧ Reports file cast d) ∧
      check file =
        walk (fun found cast => (found ++ (finding? file cast).toList, .goOn)) items []) ∧
    (∀ cast other d e, Reports file cast d → Reports file other e →
      (cast.operand.bare = other.operand.bare ∨
        ∃ n, cast.operand.Wraps n ∧ n.cast? = some other) →
      d.fixes.map Fix.newText = e.fixes.map Fix.newText ∧ d.suggestion = e.suggestion) ∧
    (file.language.isTypescript = false ∨ file.module.items = none → check file = []) := by
  refine ⟨?_, ?_, ?_⟩
  · intro items hts hitems
    refine ⟨⟨findingsAt file items, ?_, findingsAt_sorted file items,
      fun address d => mem_findingsAt_iff⟩, ?_⟩
    · rw [map_snd_findingsAt, check_eq_filterMap hts hitems]
    · rw [walk_gathers, check_eq_filterMap hts hitems]
  · rintro cast other d e hd he (hbare | ⟨n, hwraps, hn⟩)
    · exact hd.proposal_eq he hbare
    · exact hd.proposal_eq he (hwraps.bare_eq.trans (Node.bare_of_cast? hn))
  · rintro (hlanguage | hitems)
    · simp [check, hlanguage]
    · simp [check, hitems]

/-- A file with casts on one chain and a cast beside it, one of them not to a mock type. -/
def chainFile : Source.File :=
  Source.File.ofText "a.ts"
    "f((x as jest.Mock) as unknown as jest.MockedFunction<T>, y as jest.Mock.Other);"

theorem chainFile_reports :
    ∃ items, chainFile.language.isTypescript = true ∧ chainFile.module.items = some items ∧
      (check chainFile).map (fun d => (d.range, d.fixes.map Fix.newText)) =
        [(⟨⟨1, 3⟩, ⟨1, 56⟩⟩, ["jest.mocked(x)"]), (⟨⟨1, 4⟩, ⟨1, 18⟩⟩, ["jest.mocked(x)"])] ∧
      ∃ found : List (List ℕ × Diagnostic), check chainFile = found.map Prod.snd ∧
        found.Pairwise (fun x y => x.1 < y.1) ∧
        ∀ address d, (address, d) ∈ found ↔
          ∃ cast, castAt? items address = some cast ∧ Reports chainFile cast d := by
  have hts : chainFile.language.isTypescript = true := by decide +kernel
  have hsome : chainFile.module.items.isSome = true := by decide +kernel
  obtain ⟨items, hitems⟩ := Option.isSome_iff_exists.mp hsome
  exact ⟨items, hts, hitems, by decide +kernel, ((check_reports chainFile).1 items hts hitems).1⟩

end PreferMocked
end Lint
end CastLint
