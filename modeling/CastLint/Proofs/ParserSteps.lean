import CastLint.Syntax.Grammar
import Mathlib.Order.Nat

/-! Running a parser step by step. A parser stands at a token, and what it has read is told by the
token at which it stands next. The steps are stated for states that differ in nothing else that
matters: the mistakes so far and the place of a possible arrow function are left open. -/

namespace CastLint
namespace Syntax

/-- A token together with the span of the one in front of it. -/
structure Stand where
  lexeme : Lexeme
  before : Span

namespace Stand

def token (u : Stand) : Token := u.lexeme.token

def span (u : Stand) : Span := u.lexeme.span

def newline (u : Stand) : Bool := u.lexeme.newline

/-- The number of characters behind the token. -/
def room (u : Stand) : Nat := u.lexeme.next.rest.length

/-- The state of a parser at a token, outside all statements. -/
def state (u : Stand) (d : Dialect) (m : Mode) (issues : List Issue) (arrow : Option Nat) : State :=
  { dialect := d, mode := m, lexeme := u.lexeme, before := u.before, issues := issues, labels := [],
    arrowStart := arrow, trailing := [] }

@[simp] theorem state_arrowStart (u : Stand) (d : Dialect) (m : Mode) (issues : List Issue)
    (arrow : Option Nat) : (u.state d m issues arrow).arrowStart = arrow := rfl

/-- The token behind the current one. -/
def ahead (u : Stand) (d : Dialect) (m : Mode) : Lexeme :=
  u.lexeme.next.lex { inType := m.inType, typescript := d.typescript } false

/-- The token of `v` is the next one behind that of `u`, whatever is expected there. -/
structure Step (u v : Stand) : Prop where
  lex : ∀ mode, u.lexeme.next.lex mode false = v.lexeme
  clean : v.lexeme.issues = []
  before : v.before = u.span
  forward : u.span.start ≤ u.span.stop ∧ u.span.stop ≤ v.span.start
  shorter : v.room ≤ u.room ∧ (v.token ≠ .eof → v.room < u.room)

/-- The token of `v` comes behind that of `u`. -/
structure Past (u v : Stand) : Prop where
  start_le : u.span.start ≤ v.span.start
  before_le : u.span.start ≤ v.before.stop
  room_le : v.room ≤ u.room

theorem Step.past {u v : Stand} (h : u.Step v) : u.Past v where
  start_le := h.forward.1.trans h.forward.2
  before_le := by
    rw [h.before]
    exact h.forward.1
  room_le := h.shorter.1

theorem Past.trans {u v w : Stand} (huv : u.Past v) (hvw : v.Past w) : u.Past w where
  start_le := huv.start_le.trans hvw.start_le
  before_le := huv.start_le.trans hvw.before_le
  room_le := hvw.room_le.trans huv.room_le

theorem Step.ahead_eq {u v : Stand} (h : u.Step v) (d : Dialect) (m : Mode) :
    u.ahead d m = v.lexeme :=
  h.lex _

end Stand

namespace Parser

section

variable {α β : Type} {d : Dialect} {m : Mode} {issues : List Issue} {arrow : Option Nat}
  {u v w : Stand} {s : State}

@[simp] theorem bind_run (p : Parser α) (f : α → Parser β) (s : State) :
    (p >>= f) s = match p s with
      | .ok a t => f a t
      | .error e t => .error e t := by
  simp only [bind, EStateM.bind]
  cases p s <;> rfl

@[simp] theorem map_run (f : α → β) (p : Parser α) (s : State) :
    (f <$> p) s = match p s with
      | .ok a t => .ok (f a) t
      | .error e t => .error e t := by
  simp only [Functor.map, EStateM.map]
  cases p s <;> rfl

@[simp] theorem pure_run (a : α) : (pure a : Parser α) s = .ok a s := rfl

@[simp] theorem ite_run (c : Prop) [Decidable c] (p q : Parser α) :
    (if c then p else q) s = if c then p s else q s := by
  split <;> rfl

@[simp] theorem get_run : (get : Parser State) s = .ok s s := rfl

@[simp] theorem set_run (t : State) : (set t : Parser PUnit) s = .ok () t := rfl

@[simp] theorem modify_run (f : State → State) : (modify f : Parser Unit) s = .ok () (f s) := rfl

@[simp] theorem token_run :
    token (u.state d m issues arrow) = .ok u.token (u.state d m issues arrow) := rfl

@[simp] theorem dialect_run :
    dialect (u.state d m issues arrow) = .ok d (u.state d m issues arrow) := rfl

@[simp] theorem isTypescript_run :
    isTypescript (u.state d m issues arrow) = .ok d.typescript (u.state d m issues arrow) := rfl

@[simp] theorem mode_run :
    mode (u.state d m issues arrow) = .ok m (u.state d m issues arrow) := rfl

@[simp] theorem here_run :
    here (u.state d m issues arrow) = .ok u.span (u.state d m issues arrow) := rfl

@[simp] theorem position_run :
    position (u.state d m issues arrow) = .ok u.span.start (u.state d m issues arrow) := rfl

@[simp] theorem before_run :
    before (u.state d m issues arrow) = .ok u.before (u.state d m issues arrow) := rfl

@[simp] theorem onNewLine_run :
    onNewLine (u.state d m issues arrow) = .ok u.newline (u.state d m issues arrow) := rfl

@[simp] theorem budget_run :
    budget (u.state d m issues arrow) = .ok (u.room + 2) (u.state d m issues arrow) := rfl

@[simp] theorem spanFrom_run (start : Nat) :
    spanFrom start (u.state d m issues arrow) =
      .ok ⟨min start u.before.stop, max start u.before.stop⟩ (u.state d m issues arrow) := rfl

@[simp] theorem is_run (k : Mark) :
    is k (u.state d m issues arrow) =
      .ok (decide (u.token = .mark k)) (u.state d m issues arrow) := rfl

@[simp] theorem isOp_run (op : BinaryOp) :
    isOp op (u.state d m issues arrow) =
      .ok (decide (u.token = .mark (.binary op))) (u.state d m issues arrow) := rfl

@[simp] theorem isEnd_run :
    isEnd (u.state d m issues arrow) =
      .ok (decide (u.token = .eof)) (u.state d m issues arrow) := rfl

@[simp] theorem isThe_run (word : String) :
    isThe word (u.state d m issues arrow) =
      .ok (u.token.isThe word) (u.state d m issues arrow) := rfl

@[simp] theorem isAnyWord_run :
    isAnyWord (u.state d m issues arrow) = .ok u.token.isWord (u.state d m issues arrow) := rfl

@[simp] theorem isReference_run :
    isReference (u.state d m issues arrow) =
      .ok u.token.isReference (u.state d m issues arrow) := rfl

theorem advance_run (h : u.Step v) :
    advance (u.state d m issues arrow) = .ok () (v.state d m issues arrow) := by
  obtain ⟨lexeme, before⟩ := v
  obtain rfl : before = u.span := h.before
  have hclean : lexeme.issues = [] := h.clean
  simp [advance, load, Stand.state, Stand.span, h.lex, hclean]

@[simp] theorem peek_run :
    peek (u.state d m issues arrow) = .ok (u.ahead d m) (u.state d m issues arrow) := rfl

@[simp] theorem peekIs_run (k : Mark) :
    peekIs k (u.state d m issues arrow) =
      .ok (decide ((u.ahead d m).token = .mark k)) (u.state d m issues arrow) := rfl

@[simp] theorem peekIsThe_run (word : String) :
    peekIsThe word (u.state d m issues arrow) =
      .ok ((u.ahead d m).token.isThe word) (u.state d m issues arrow) := rfl

theorem eat_run_of_ne {k : Mark} (h : u.token ≠ .mark k) :
    eat k (u.state d m issues arrow) = .ok false (u.state d m issues arrow) := by
  simp [eat, h]

theorem eat_run {k : Mark} (h : u.token = .mark k) (hstep : u.Step v) :
    eat k (u.state d m issues arrow) = .ok true (v.state d m issues arrow) := by
  simp [eat, h, advance_run hstep]

theorem expect_run {k : Mark} (h : u.token = .mark k) (hstep : u.Step v) :
    expect k (u.state d m issues arrow) = .ok () (v.state d m issues arrow) := by
  simp [expect, eat_run h hstep]

theorem loop_inl {step : α → Parser (α ⊕ β)} {fuel : Nat} {a b : α} {s t : State}
    (h : step a s = .ok (.inl b) t) : loop step (fuel + 1) a s = loop step fuel b t := by
  simp [loop, h]

theorem loop_inr {step : α → Parser (α ⊕ β)} {fuel : Nat} {a : α} {b : β} {s t : State}
    (h : step a s = .ok (.inr b) t) : loop step (fuel + 1) a s = .ok b t := by
  simp [loop, h]

/-- A loop over a list whose body does nothing. -/
theorem forIn_run {xs : List α} {f : α → PUnit → Parser (ForInStep PUnit)}
    (h : ∀ a ∈ xs, f a PUnit.unit s = .ok (.yield PUnit.unit) s) :
    (forIn xs PUnit.unit f : Parser PUnit) s = .ok PUnit.unit s := by
  induction xs with
  | nil => rfl
  | cons a xs ih =>
    obtain ⟨ha, hxs⟩ := List.forall_mem_cons.mp h
    simp [List.forIn_cons, ha, ih hxs]

theorem exists_lookAhead_run (p : Parser Bool) (s : State) : ∃ b, lookAhead p s = .ok b s := by
  unfold lookAhead
  split
  · exact ⟨_, rfl⟩
  · exact ⟨_, rfl⟩

theorem withMode_run {change : Mode → Mode} (h : change m = m) (p : Parser α) :
    withMode change p (u.state d m issues arrow) =
      match p (u.state d m issues arrow) with
      | .ok a t => .ok a { t with mode := m }
      | .error e t => .error e { t with mode := m } := by
  have hstate : { u.state d m issues arrow with mode := change (u.state d m issues arrow).mode } =
      u.state d m issues arrow := by
    simp [Stand.state, h]
  rw [withMode, hstate]
  rfl

end

/-- From one token to another a parser reads `a`, with no mistakes but `new`. -/
def Reads {α : Type} (d : Dialect) (m : Mode) (p : Parser α) (u : Stand) (a : α) (v : Stand)
    (new : List Issue) : Prop :=
  ∀ issues arrow, ∃ arrow',
    p (u.state d m issues arrow) = .ok a (v.state d m (new ++ issues) arrow')

section

variable {α β : Type} {d : Dialect} {m : Mode} {issues : List Issue} {arrow : Option Nat}
  {u v w : Stand} {new new' : List Issue}

theorem Reads.bind {p : Parser α} {f : α → Parser β} {a : α} {b : β}
    (hp : Reads d m p u a v new) (hf : Reads d m (f a) v b w new') :
    Reads d m (p >>= f) u b w (new' ++ new) := by
  intro issues arrow
  obtain ⟨arrow₁, h₁⟩ := hp issues arrow
  obtain ⟨arrow₂, h₂⟩ := hf (new ++ issues) arrow₁
  exact ⟨arrow₂, by simp [h₁, h₂]⟩

theorem Reads.withMode {p : Parser α} {change : Mode → Mode} {a : α} (h : change m = m)
    (hp : Reads d m p u a v new) : Reads d m (withMode change p) u a v new := by
  intro issues arrow
  obtain ⟨arrow', h'⟩ := hp issues arrow
  refine ⟨arrow', ?_⟩
  rw [withMode_run h, h']
  rfl

theorem Reads.inType {p : Parser α} {a : α}
    (hp : Reads d { m with inType := true } p u a v new) : Reads d m (inType p) u a v new := by
  intro issues arrow
  obtain ⟨arrow', h'⟩ := hp issues arrow
  refine ⟨arrow', ?_⟩
  have hstate : { u.state d m issues arrow with mode := { m with inType := true } } =
      u.state d { m with inType := true } issues arrow := rfl
  simp only [Parser.inType, Parser.withMode]
  rw [show (u.state d m issues arrow).mode = m from rfl, hstate, h']
  rfl

end
end Parser
end Syntax
end CastLint
