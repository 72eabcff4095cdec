/-! Patterns of paths. A star stands for any characters, a question mark for one byte, brackets
for a byte of a class, braces for one of several patterns, and two stars for whole directories. -/

namespace CastLint
namespace Glob

inductive Token where
  | literal (c : Char)
  | any
  | zeroOrMore
  /-- Two stars in front: any directories, or none. -/
  | leading
  /-- Two stars at the end: everything in a directory. -/
  | trailing
  /-- Two stars between slashes: any directories, or none. -/
  | between
  | oneOf (negated : Bool) (ranges : List (Char × Char))
  | alternates (branches : List (List Token))
deriving Inhabited

inductive PatternError where
  | unclosedClass
  | invalidRange (first last : Char)
  | unopenedAlternates
  | unclosedAlternates
  | danglingEscape
deriving DecidableEq, Repr

def PatternError.message : PatternError → String
  | unclosedClass => "unclosed character class; missing ']'"
  | invalidRange first last =>
    "invalid range; '" ++ first.toString ++ "' > '" ++ last.toString ++ "'"
  | unopenedAlternates =>
    "unopened alternate group; missing '\x7b' (maybe escape '\x7d' with '[\x7d]'?)"
  | unclosedAlternates =>
    "unclosed alternate group; missing '\x7d' (maybe escape '\x7b' with '[\x7b]'?)"
  | danglingEscape => "dangling '\\'"

structure Group where
  /-- What stands in front of the braces, in reverse. -/
  outer : List Token
  /-- The alternatives that have ended, in reverse. -/
  done : List (List Token)
deriving Inhabited

structure State where
  /-- The tokens of the innermost alternative, in reverse. -/
  tokens : List Token := []
  groups : List Group := []
  /-- The character in front. -/
  previous : Option Char := none
deriving Inhabited

namespace State

def push (s : State) (t : Token) : State := { s with tokens := t :: s.tokens }

def inBraces (s : State) : Bool := !s.groups.isEmpty

def after (s : State) (c : Char) : State := { s with previous := some c }

def openGroup (s : State) : State :=
  { s with tokens := [], groups := ⟨s.tokens, []⟩ :: s.groups }

/-- A comma parts alternatives, but only between braces. -/
def comma (s : State) : State :=
  match s.groups with
  | [] => s.push (.literal ',')
  | g :: gs => { s with tokens := [], groups := { g with done := s.tokens.reverse :: g.done } :: gs }

def closeGroup (s : State) : Except PatternError State :=
  match s.groups with
  | [] => .error .unopenedAlternates
  | g :: gs =>
    let branches := (s.tokens.reverse :: g.done).reverse
    .ok { s with tokens := .alternates branches :: g.outer, groups := gs }

def twoStars (s : State) : State := (s.push .zeroOrMore).push .zeroOrMore

/-- Puts two stars for directories in the place of the slash in front of them, unless others stand
there already. -/
def directories (s : State) (t : Token) : State :=
  match s.tokens with
  | .leading :: _ => s
  | .trailing :: _ => s
  | _ :: ts => { s with tokens := t :: ts }
  | [] => s.push t

end State

/-- Reads two stars, of which `rest` is what follows. The result is the state and what is left. -/
def readTwoStars (s : State) (rest : List Char) : State × List Char :=
  if s.tokens.isEmpty then
    match rest with
    | [] => (s.push .leading, [])
    | '/' :: cs => ((s.push .leading).after '/', cs)
    | _ => (s.twoStars.after '*', rest)
  else if s.previous = some '/' ||
      (s.inBraces && (s.previous = some ',' || s.previous = some '\x7b')) then
    match rest with
    | [] => (s.directories .trailing, [])
    | '/' :: cs => ((s.directories .between).after '/', cs)
    | c :: _ =>
      if s.inBraces && (c = ',' || c = '\x7d') then ((s.directories .trailing).after '*', rest)
      else (s.twoStars.after '*', rest)
  else (s.twoStars.after '*', rest)

/-- The ranges of a class so far, in reverse. -/
abbrev Ranges := List (Char × Char)

def extendRange (c : Char) : Ranges → Except PatternError Ranges
  | (first, _) :: rs => if c < first then .error (.invalidRange first c) else .ok ((first, c) :: rs)
  | [] => .ok [(c, c)]

/-- The ranges of a class up to its bracket, and what follows. A bracket or a hyphen in front
stands for itself, and so does a hyphen at the end. -/
def readRanges (isFirst inRange : Bool) (ranges : Ranges) :
    List Char → Except PatternError (Ranges × List Char)
  | [] => .error .unclosedClass
  | c :: cs =>
    if c = ']' && !isFirst then
      .ok ((if inRange then ('-', '-') :: ranges else ranges).reverse, cs)
    else if c = '-' && !isFirst && !inRange then readRanges false true ranges cs
    else if inRange then
      match extendRange c ranges with
      | .ok ranges => readRanges false false ranges cs
      | .error e => .error e
    else readRanges false false ((c, c) :: ranges) cs

def readClass (cs : List Char) : Except PatternError (Token × List Char) :=
  let (negated, cs) := match cs with
    | '!' :: cs => (true, cs)
    | '^' :: cs => (true, cs)
    | cs => (false, cs)
  match readRanges true false [] cs with
  | .ok (ranges, rest) => .ok (.oneOf negated ranges, rest)
  | .error e => .error e

def readTokens : (count : Nat) → State → List Char → Except PatternError State
  | 0, s, _ => .ok s
  | _, s, [] => .ok s
  | count + 1, s, c :: cs =>
    match c with
    | '?' => readTokens count ((s.push .any).after c) cs
    | '*' =>
      match cs with
      | '*' :: rest =>
        let (s, rest) := readTwoStars s rest
        readTokens count s rest
      | _ => readTokens count ((s.push .zeroOrMore).after c) cs
    | '[' =>
      match readClass cs with
      | .ok (t, rest) => readTokens count ((s.push t).after ']') rest
      | .error e => .error e
    | '\x7b' => readTokens count (s.openGroup.after c) cs
    | '\x7d' =>
      match s.closeGroup with
      | .ok s => readTokens count (s.after c) cs
      | .error e => .error e
    | ',' => readTokens count (s.comma.after c) cs
    | '\\' =>
      match cs with
      | [] => .error .danglingEscape
      | d :: rest => readTokens count ((s.push (.literal d)).after d) rest
    | c => readTokens count ((s.push (.literal c)).after c) cs

structure Pattern where
  tokens : List Token
deriving Inhabited

def Pattern.parse (text : String) : Except PatternError Pattern :=
  let cs := text.toList
  match readTokens cs.length {} cs with
  | .error e => .error e
  | .ok s => if s.inBraces then .error .unclosedAlternates else .ok ⟨s.tokens.reverse⟩

end Glob
end CastLint
