/-! How much two words are alike, for hints at what someone may have meant. -/

namespace CastLint
namespace Command

structure Score where
  numerator : Nat
  denominator : Nat
deriving DecidableEq, Repr

def Score.lt (a b : Score) : Bool :=
  a.numerator * b.denominator < b.numerator * a.denominator

/-- The distance at which equal characters of words of such lengths still count as common. -/
def reach (a b : Nat) : Nat := max a b / 2 - 1

/-- The first position in a word, from `j` on, that has the character `c`, lies at most `reach`
from position `i` and is not taken. -/
def partner? (c : Char) (i reach : Nat) (taken : List Nat) : (j : Nat) → List Char → Option Nat
  | _, [] => none
  | j, d :: ds =>
    if c = d && i ≤ j + reach && j ≤ i + reach && !taken.contains j then some j
    else partner? c i reach taken (j + 1) ds

/-- The common characters of two words: those of the first word, which starts at `i`, and the
positions of their partners in the second. -/
def common (reach : Nat) (word : List Char) (taken : List Nat) : (i : Nat) → List Char →
    List Char × List Nat
  | _, [] => ([], taken)
  | i, c :: cs =>
    match partner? c i reach taken 0 word with
    | some j =>
      let (chars, taken) := common reach word (j :: taken) (i + 1) cs
      (c :: chars, taken)
    | none => common reach word taken (i + 1) cs

def atPositions (positions : List Nat) : (j : Nat) → List Char → List Char
  | _, [] => []
  | j, d :: ds =>
    if positions.contains j then d :: atPositions positions (j + 1) ds
    else atPositions positions (j + 1) ds

/-- Three times the likeness of two words: the common part of each of them, and the part of it
that has the same order in both. -/
def likeness (a b : List Char) : Score :=
  let (chars, positions) := common (reach a.length b.length) b [] 0 a
  let m := chars.length
  if m = 0 then ⟨0, 1⟩
  else
    let others := atPositions positions 0 b
    let swaps := ((chars.zip others).countP fun (c, d) => c ≠ d) / 2
    ⟨m * m * (a.length + b.length) + (m - swaps) * a.length * b.length, m * a.length * b.length⟩

/-- A likeness of seven tenths is enough for a hint. -/
def Score.isClose (s : Score) : Bool := 21 * s.denominator ≤ 10 * s.numerator

def insertScored (s : Score) (word : String) : List (Score × String) → List (Score × String)
  | [] => [(s, word)]
  | (t, w) :: rest =>
    if s.lt t then (s, word) :: (t, w) :: rest else (t, w) :: insertScored s word rest

/-- The words that are much like a word, the most similar one last. -/
def similar (word : String) (known : List String) : List String :=
  let scored := known.map fun k => (likeness word.toList k.toList, k)
  ((scored.filter (·.1.isClose)).foldl (fun sorted (s, k) => insertScored s k sorted) []).map (·.2)

def mostSimilar? (word : String) (known : List String) : Option String :=
  (similar word known).getLast?

end Command
end CastLint
