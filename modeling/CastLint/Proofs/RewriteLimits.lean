import CastLint.Proofs.ScriptPasses

/-! Where rewriting a cast changes more than the cast. A call is no place, it goes on with a
parenthesis on the next line, and it takes a sequence apart into arguments. Among scripts these are
the only limits. -/

namespace CastLint

namespace Syntax

mutual

def Node.erased : Node → Node
  | .mk kind _ parts => .mk kind ⟨0, 0⟩ (Node.erasedAll parts)

def Node.erasedAll : List Node → List Node
  | [] => []
  | n :: ns => n.erased :: Node.erasedAll ns

end

end Syntax

namespace Script

open Syntax

section

variable {p q : Place}

theorem keyNodes_erased {object other : Node} (keys : List Word) (h : object.erased = other.erased) :
    (keyNodes object p keys).erased = (keyNodes other q keys).erased := by
  induction keys generalizing object other p q with
  | nil => exact h
  | cons k keys ih =>
    apply ih
    simp [Parser.member, Node.erased, Node.erasedAll, h]

theorem Path.node_erased (path : Path) : (path.node p).erased = (path.node q).erased :=
  keyNodes_erased path.keys rfl

def Operand.arguments (p : Place) : Operand → List Node
  | path first => groupNodes p (.path first) []
  | group first more => groupNodes p (.path first) (more.map .path)

theorem Operand.arguments_eq_iff {operand : Operand} :
    Node.erasedAll (operand.arguments p) = [(operand.node q).bare.erased] ↔
      (operand.node q).bare.kind ≠ .sequence := by
  have hpath : ∀ path : Path,
      Node.erasedAll (groupNodes p (.path path) []) = [(path.node q).erased] := by
    intro path
    simp only [groupNodes, moreNodes, Node.erasedAll, Term.node]
    rw [path.node_erased]
  have hkind : ∀ (path : Path) (r : Place), (path.node r).kind ≠ .sequence := fun path r =>
    Parser.ne_of_isChainKind path.node_kind .sequence rfl
  cases operand with
  | path first =>
    rw [Operand.node, first.node_bare]
    exact iff_of_true (hpath first) (hkind first q)
  | group first more =>
    cases more with
    | nil =>
      have hbare : ((Operand.group first []).node q).bare =
          (first.node (q.past (.sign .lparen))).bare := rfl
      rw [hbare, first.node_bare, first.node_erased (q := q)]
      exact iff_of_true (hpath first) (hkind first _)
    | cons second more =>
      have hbare : ((Operand.group first (second :: more)).node q).bare.kind = .sequence := rfl
      simp [Operand.arguments, groupNodes, moreNodes, Node.erasedAll, hbare]

end

def limitScript : Script where
  name := "a.ts"
  typescript := Source.Language.isTypescript_ts
  lines := [.assign (.cast .a .mock) .b, .cast (.group .a [.b]) .mock false,
    .value (.group (.path .b) []) [] true]
  separated := by decide
  places := by decide

example : limitScript.text = "(a as jest.Mock) = b;\n(a, b) as jest.Mock\n(b);\n" := by decide

end Script

namespace Lint

open Syntax Script

/-- A text that is read without a mistake has none after it has been fixed. -/
def FixKeepsClean (name text : String) : Prop :=
  (Source.File.ofText name text).hasProblems = false →
    ∀ r, fixText {} name text = .ok r → ∀ d ∈ r.diagnostics, d.ruleId ≠ parseRuleId

def itemCount? (name text : String) : Option ℕ :=
  (Source.File.ofText name text).module.items.map List.length

/-- A text that is read without a mistake is a module of as many items after one pass. -/
def PassKeepsItems (name text : String) : Prop :=
  (Source.File.ofText name text).hasProblems = false →
    ∀ pass, fixOnce (Source.File.ofText name) ({} : Engine).analyze text = .ok pass →
      itemCount? name pass.output = itemCount? name text

def helperArguments? (dialect : Dialect) (text : String) : Option (List Node) :=
  match (read dialect text.toList).items with
  | some [.mk .expressionStatement _ [.mk .call _ (callee :: args)]] =>
    match callee.erased with
    | .mk .member _ [.mk (.name "jest") _ [], .mk (.plainKey "mocked") _ []] => some args
    | _ => none
  | _ => none

/-- The fix of a cast is a call of the helper whose only argument is what the cast is of, the casts
and parentheses around it left out. -/
def FixPassesOperand (name text : String) : Prop :=
  (Source.File.ofText name text).hasProblems = false →
    ∀ cast ∈ (Source.File.ofText name text).casts,
      ∀ d, PreferMocked.finding? (Source.File.ofText name text) cast = some d →
        ∀ fix ∈ d.fixes,
          (helperArguments? (Source.File.ofText name text).language.dialect fix.newText).map
            Node.erasedAll = some [cast.operand.bare.erased]

theorem forall_ruleId_ne_iff (file : Source.File) :
    (∀ d ∈ Engine.parseFindings file, d.ruleId ≠ parseRuleId) ↔ file.hasProblems = false := by
  rw [Engine.parseFindings, List.forall_mem_map, Source.File.hasProblems, Bool.not_eq_false',
    List.isEmpty_iff, List.eq_nil_iff_forall_not_mem]
  constructor
  · intro h p hp
    exact h p hp rfl
  · intro h p hp
    exact absurd hp (h p)

/-- Fixing keeps a script free of mistakes exactly if nothing in it is assigned to a cast and no cast
without a semicolon stands in front of an assignment. -/
theorem fixKeepsClean_iff (script : Script) :
    (Source.File.ofText script.name script.text).hasProblems = false ∧
    (∃ r, fixText {} script.name script.text = .ok r) ∧
    (FixKeepsClean script.name script.text ↔
      (∀ line ∈ script.lines, line.assignsToCast = false) ∧
        script.lines.IsChain fun l m => (l.isOpenCast && m.isAssign) = false) := by
  obtain ⟨r, hr, -, hdiagnostics⟩ := Script.fixText_script script.typescript script.separated
  have hsettled := Script.fixed_isSettled script.lines
  have hclean : (∀ d ∈ r.diagnostics, d.ruleId ≠ parseRuleId) ↔
      (∀ line ∈ script.lines, line.assignsToCast = false) ∧
        script.lines.IsChain fun l m => (l.isOpenCast && m.isAssign) = false := by
    rw [hdiagnostics, Script.analyze_settled script.typescript hsettled, forall_ruleId_ne_iff,
      Script.hasProblems_settled script.typescript hsettled, script.separated.joinable_fixed_iff,
      Script.misassigns_fixed_iff script.places, and_comm]
  refine ⟨script.hasProblems_eq_false, ⟨r, hr⟩, ?_⟩
  rw [← hclean]
  constructor
  · intro h
    exact h script.hasProblems_eq_false r hr
  · intro h _ s hs
    obtain rfl : r = s := Except.ok.inj (hr.symm.trans hs)
    exact h

theorem limitScript_not_clean : ¬FixKeepsClean limitScript.name limitScript.text := by
  rw [(fixKeepsClean_iff limitScript).2.2]
  decide

/-- A cast that is assigned to becomes a call, which is no place. -/
theorem assigned_cast_not_clean : ¬FixKeepsClean "a.ts" "(a as jest.Mock) = b;" := by
  have hclean : (Source.File.ofText "a.ts" "(a as jest.Mock) = b;").hasProblems = false := by
    decide +kernel
  have hfixed : (fixText {} "a.ts" "(a as jest.Mock) = b;").toOption.map
      (fun r => (r.output, r.diagnostics.map (·.ruleId))) =
        some ("(jest.mocked(a)) = b;", ["PARSE", "PARSE"]) := by
    decide +kernel
  intro h
  cases hr : fixText {} "a.ts" "(a as jest.Mock) = b;" with
  | error err => simp [hr, Except.toOption] at hfixed
  | ok r =>
    have hrules : r.diagnostics.map (·.ruleId) = ["PARSE", "PARSE"] := by
      simp [hr, Except.toOption] at hfixed
      exact hfixed.2
    have hmem : "PARSE" ∈ r.diagnostics.map (·.ruleId) := by simp [hrules]
    obtain ⟨d, hd, hrule⟩ := List.mem_map.mp hmem
    exact h hclean r hr d hd hrule

/-- One pass keeps the number of items of a script exactly if no cast without a semicolon stands in
front of a line that starts with a parenthesis behind the pass. -/
theorem passKeepsItems_iff (script : Script) :
    (Source.File.ofText script.name script.text).hasProblems = false ∧
    (∃ pass, fixOnce (Source.File.ofText script.name) ({} : Engine).analyze script.text = .ok pass) ∧
    (PassKeepsItems script.name script.text ↔
      script.lines.IsChain fun l m => (l.isOpenCast && m.fixed.startsParen) = false) := by
  have hpass := Script.fixOnce_script script.typescript script.separated
  have hbefore : itemCount? script.name script.text = some script.lines.length := by
    rw [itemCount?, Script.text, Script.items_script script.typescript script.separated,
      Option.map_some, Script.lineNodes_length]
  have hafter := Script.items_settled script.typescript (Script.fixed_isSettled script.lines)
  rw [List.length_map] at hafter
  refine ⟨script.hasProblems_eq_false, ⟨_, hpass⟩, ?_⟩
  rw [← script.separated.fixed_iff, ← hafter]
  constructor
  · intro h
    exact (h script.hasProblems_eq_false _ hpass).trans hbefore
  · intro h _ pass hpass'
    obtain rfl := Except.ok.inj (hpass.symm.trans hpass')
    rw [hbefore]
    exact h

theorem limitScript_items_not_kept : ¬PassKeepsItems limitScript.name limitScript.text := by
  rw [(passKeepsItems_iff limitScript).2.2]
  decide

/-- A call goes on over the end of a line where a cast does not. -/
theorem open_cast_not_kept : ¬PassKeepsItems "a.ts" "a as jest.Mock\n(b)" := by
  have hclean : (Source.File.ofText "a.ts" "a as jest.Mock\n(b)").hasProblems = false ∧
      itemCount? "a.ts" "a as jest.Mock\n(b)" = some 2 := by
    decide +kernel
  have hpass : (fixOnce (Source.File.ofText "a.ts") ({} : Engine).analyze
      "a as jest.Mock\n(b)").toOption.map (fun pass => itemCount? "a.ts" pass.output) =
        some (some 1) := by
    decide +kernel
  intro h
  cases hp : fixOnce (Source.File.ofText "a.ts") ({} : Engine).analyze "a as jest.Mock\n(b)" with
  | error err => simp [hp, Except.toOption] at hpass
  | ok pass =>
    have hcount := h hclean.1 pass hp
    simp [hp, Except.toOption] at hpass
    simp [hpass, hclean.2] at hcount

theorem helperArguments?_mocked {d : Dialect} {text : String} (operand : Operand)
    (hd : d.typescript = true) (htext : text.toList = render operand.mocked.glyphs) :
    helperArguments? d text = some (operand.arguments (Place.origin.after helperGlyphs)) := by
  have hhelper : (helperNode Place.origin).erased = .mk .member ⟨0, 0⟩
      [.mk (.name "jest") ⟨0, 0⟩ [], .mk (.plainKey "mocked") ⟨0, 0⟩ []] := rfl
  unfold helperArguments?
  rw [htext]
  cases operand <;>
  · rw [Operand.mocked, read_mocked _ _ hd]
    simp only [Parser.statementOf, Head.node, Parser.call, hhelper]
    rfl

/-- A pass over a script finds each cast of it, and the fix of a cast passes its operand exactly if
the operand is not a sequence. -/
theorem fixPassesOperand_iff (script : Script) :
    (Source.File.ofText script.name script.text).hasProblems = false ∧
    (∀ cast ∈ (Source.File.ofText script.name script.text).casts, ∃ d fix,
      PreferMocked.finding? (Source.File.ofText script.name script.text) cast = some d ∧
        d.fixes = [fix]) ∧
    (FixPassesOperand script.name script.text ↔
      ∀ cast ∈ (Source.File.ofText script.name script.text).casts,
        cast.operand.bare.kind ≠ .sequence) := by
  have hfix : ∀ cast ∈ (Source.File.ofText script.name script.text).casts, ∃ d fix,
      PreferMocked.finding? (Source.File.ofText script.name script.text) cast = some d ∧
        d.fixes = [fix] ∧
        ((helperArguments? (Source.File.ofText script.name script.text).language.dialect
          fix.newText).map Node.erasedAll = some [cast.operand.bare.erased] ↔
            cast.operand.bare.kind ≠ .sequence) := by
    intro cast hcast
    obtain ⟨e, hedit⟩ := script.exists_edit hcast
    obtain ⟨d, fix, hd, hfixes, -, htext⟩ := hedit.replaces.exists_finding
    refine ⟨d, fix, hd, hfixes, ?_⟩
    obtain @⟨operand, type, p, -⟩ := hedit
    have hdialect : (Source.File.ofText script.name script.text).language.dialect.typescript = true :=
      Source.Language.dialect_typescript script.typescript
    rw [helperArguments?_mocked operand hdialect htext, Option.map_some, Option.some.injEq]
    exact operand.arguments_eq_iff
  refine ⟨script.hasProblems_eq_false, ?_, ?_⟩
  · intro cast hcast
    obtain ⟨d, fix, hd, hfixes, -⟩ := hfix cast hcast
    exact ⟨d, fix, hd, hfixes⟩
  · constructor
    · intro h cast hcast
      obtain ⟨d, fix, hd, hfixes, hiff⟩ := hfix cast hcast
      exact hiff.mp (h script.hasProblems_eq_false cast hcast d hd fix (by simp [hfixes]))
    · intro h _ cast hcast d' hd' fix' hfix'
      obtain ⟨d, fix, hd, hfixes, hiff⟩ := hfix cast hcast
      obtain rfl : d = d' := Option.some.inj (hd.symm.trans hd')
      obtain rfl : fix' = fix := by simpa [hfixes] using hfix'
      exact hiff.mpr (h cast hcast)

theorem limitScript_not_passed : ¬FixPassesOperand limitScript.name limitScript.text := by
  rw [(fixPassesOperand_iff limitScript).2.2]
  decide +kernel

/-- Several expressions in the parentheses of a cast become several arguments. -/
theorem sequence_not_passed : ¬FixPassesOperand "a.ts" "(a, b) as jest.Mock;" := by
  have hclean : (Source.File.ofText "a.ts" "(a, b) as jest.Mock;").hasProblems = false := by
    decide +kernel
  have hcounts : ∃ cast ∈ (Source.File.ofText "a.ts" "(a, b) as jest.Mock;").casts,
      ∃ d ∈ PreferMocked.finding? (Source.File.ofText "a.ts" "(a, b) as jest.Mock;") cast,
      ∃ fix ∈ d.fixes,
        (helperArguments? (Source.File.ofText "a.ts" "(a, b) as jest.Mock;").language.dialect
          fix.newText).map List.length = some 2 := by
    decide +kernel
  intro h
  obtain ⟨cast, hcast, d, hd, fix, hfix, hcount⟩ := hcounts
  have hargs := h hclean cast hcast d hd fix hfix
  cases ha : helperArguments?
      (Source.File.ofText "a.ts" "(a, b) as jest.Mock;").language.dialect fix.newText with
  | none => simp [ha] at hcount
  | some args =>
    match args with
    | [] => simp [ha] at hcount
    | [_] => simp [ha] at hcount
    | _ :: _ :: _ => simp [ha, Node.erasedAll] at hargs

end Lint
end CastLint
