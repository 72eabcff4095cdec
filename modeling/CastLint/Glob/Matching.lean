import CastLint.Glob.Pattern
import CastLint.Text.ByteString

/-! Which paths a pattern matches. Paths and patterns are compared byte by byte. -/

namespace CastLint
namespace Glob

open ByteString (slash dot)

def charBytes (c : Char) : ByteString := String.utf8EncodeChar c

def ends : List UInt8 → List (List UInt8)
  | [] => [[]]
  | b :: bs => (b :: bs) :: ends bs

def endsBehindSlash : List UInt8 → List (List UInt8)
  | [] => []
  | b :: bs => if b = slash then bs :: endsBehindSlash bs else endsBehindSlash bs

def behind? : (bytes text : List UInt8) → Option (List UInt8)
  | [], text => some text
  | _ :: _, [] => none
  | b :: bs, c :: cs => if b = c then behind? bs cs else none

/-- Both ends of a range with more than one byte count byte by byte, and the range lies between
the bytes that adjoin. -/
def inRange (b : UInt8) (range : Char × Char) : Bool :=
  let first := charBytes range.1
  let last := charBytes range.2
  if range.1 = range.2 then first.contains b
  else
    first.contains b || last.contains b ||
      (first.getLast?.any (· ≤ b) && last.head?.any (b ≤ ·))

def distinct : List (List UInt8) → List (List UInt8)
  | [] => []
  | e :: es =>
    let es := distinct es
    if es.any (·.length = e.length) then es else e :: es

mutual

def Token.isVoid : Token → Bool
  | .alternates branches => areVoid branches
  | _ => false

def isVoid : List Token → Bool
  | [] => true
  | t :: ts => t.isVoid && isVoid ts

def areVoid : List (List Token) → Bool
  | [] => true
  | b :: bs => isVoid b && areVoid bs

end

mutual

def Token.rests (text : List UInt8) : Token → List (List UInt8)
  | .literal c => (behind? (charBytes c) text).toList
  | .any => text.tail?.toList
  | .zeroOrMore => ends text
  | .leading => text :: endsBehindSlash text
  | .trailing =>
    match text with
    | b :: bs => if b = slash then ends bs else []
    | [] => []
  | .between =>
    match text with
    | b :: bs => if b = slash then bs :: endsBehindSlash bs else []
    | [] => []
  | .oneOf negated ranges =>
    match text with
    | b :: bs => if ranges.any (inRange b) != negated then [bs] else []
    | [] => []
  | .alternates branches => if areVoid branches then [text] else branchRests [text] branches

def rests (texts : List (List UInt8)) : List Token → List (List UInt8)
  | [] => texts
  | t :: ts => rests (distinct (texts.flatMap fun text => t.rests text)) ts

/-- What can be left of texts behind one of several sequences. A sequence that stands for nothing
does not count. -/
def branchRests (texts : List (List UInt8)) : List (List Token) → List (List UInt8)
  | [] => []
  | b :: bs => (if isVoid b then [] else rests texts b) ++ branchRests texts bs

end

def Pattern.isEverything (p : Pattern) : Bool :=
  match p.tokens with
  | [.leading] => true
  | _ => false

/-- Tokens that stand for themselves, all of them other than the given ones. -/
def isPlain (others : List Char) (tokens : List Token) : Bool :=
  tokens.all fun
    | .literal c => !others.contains c
    | _ => false

/-- The characters that a pattern ends in, from the last one back to one that is no literal. -/
def lastLiterals (tokens : List Token) : List Char :=
  tokens.reverse.map (fun | .literal c => some c | _ => none) |>.takeWhile Option.isSome
    |>.filterMap id

def behindLeading : List Token → List Token
  | .leading :: ts => ts
  | ts => ts

/-- The pattern decides by the name of a file: it is a name in any directory, an ending behind any
name, or a longer pattern that closes with such an ending. -/
def Pattern.needsName (p : Pattern) : Bool :=
  let isEnding : Bool := match behindLeading p.tokens with
    | .zeroOrMore :: .literal '.' :: ts => isPlain ['.', '/'] ts
    | _ => false
  let isTail : Bool := match behindLeading p.tokens with
    | .zeroOrMore :: ts => isPlain [] ts
    | ts => isPlain [] ts
  let isName : Bool := match p.tokens with
    | .leading :: ts => isPlain ['/'] ts
    | _ => false
  let closes : Bool :=
    ((lastLiterals p.tokens).find? fun c => c = '.' || c = '/') = some '.'
  isName || isEnding || (!isTail && closes)

/-- The last part of a path names something, which it does not if it leads up. -/
def hasName (path : ByteString) : Bool := path.reverse.takeWhile (· ≠ slash) ≠ [dot, dot]

def Pattern.isMatch (p : Pattern) (path : ByteString) : Bool :=
  p.isEverything || ((hasName path || !p.needsName) && (rests [path] p.tokens).any List.isEmpty)

end Glob
end CastLint
