import CastLint.Toml.Failure

/-! Reading from the front of a text. A failure that is not final lets another way of reading have
its turn. -/

namespace CastLint
namespace Toml

def Reader (α : Type) := List Char → Except Failure (α × List Char)

namespace Reader

variable {α β : Type}

instance : Monad Reader where
  pure a := fun cs => .ok (a, cs)
  bind p f := fun cs =>
    match p cs with
    | .ok (a, rest) => f a rest
    | .error e => .error e

def fail : Reader α := fun _ => .error {}

def refuse (cause : Cause) : Reader α := fun _ => .error { final := true, cause := some cause }

/-- Fails for a reason that lets other ways of reading have their turn. -/
def decline (cause : Cause) : Reader α := fun _ => .error { cause := some cause }

def mapFailure (f : Failure → Failure) (p : Reader α) : Reader α := fun cs =>
  match p cs with
  | .ok r => .ok r
  | .error e => .error (f e)

def commit (p : Reader α) : Reader α := p.mapFailure ({ · with final := true })

/-- Names the part of the grammar, unless a part inside it has failed. -/
def named (part : String) (p : Reader α) : Reader α :=
  p.mapFailure fun e => { e with part := e.part <|> some part }

def expecting (what : List String) (p : Reader α) : Reader α :=
  p.mapFailure fun e => { e with expected := e.expected ++ what }

/-- The second way of reading, if the first fails and the failure is not final. -/
def orElse (p q : Reader α) : Reader α := fun cs =>
  match p cs with
  | .ok r => .ok r
  | .error e => if e.final then .error e else q cs

def optional (p : Reader α) : Reader (Option α) := orElse (some <$> p) (pure none)

def peek? : Reader (Option Char) := fun cs => .ok (cs.head?, cs)

def rest : Reader (List Char) := fun cs => .ok (cs, cs)

def satisfy (p : Char → Bool) : Reader Char
  | c :: cs => if p c then .ok (c, cs) else .error {}
  | [] => .error {}

def char (c : Char) : Reader Unit := do
  let _ ← satisfy (· == c)

def word : List Char → Reader Unit
  | [] => pure ()
  | c :: cs => do
    char c
    word cs

def takeWhile (p : Char → Bool) : Reader (List Char) := fun cs =>
  .ok (cs.takeWhile p, cs.dropWhile p)

def takeWhile1 (p : Char → Bool) : Reader (List Char) := do
  let c ← satisfy p
  return c :: (← takeWhile p)

def exactly (p : Char → Bool) : Nat → Reader (List Char)
  | 0 => pure []
  | n + 1 => do
    let c ← satisfy p
    return c :: (← exactly p n)

def atEnd : Reader Unit
  | [] => .ok ((), [])
  | _ :: _ => .error {}

/-- Reads again and again up to `count` times, until a failure that is not final. -/
def repeated (p : Reader α) : (count : Nat) → Reader (List α)
  | 0 => pure []
  | count + 1 => do
    match ← optional p with
    | some a => return a :: (← repeated p count)
    | none => return []

def many (p : Reader α) : Reader (List α) := do
  repeated p ((← rest).length + 1)

/-- One or more of something, with a separator between any two. A separator with nothing behind it
is left. -/
def separated (p : Reader α) (separator : Reader Unit) : Reader (List α) := do
  let first ← p
  return first :: (← many (do separator; p))

end Reader

end Toml
end CastLint
