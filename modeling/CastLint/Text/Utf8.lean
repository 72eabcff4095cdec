/-! Decoding UTF-8, where bytes that are no part of a character are replaced. -/

namespace CastLint
namespace Text

def tailBits? (b : UInt8) : Option Nat :=
  let n := b.toNat
  if 0x80 ≤ n && n ≤ 0xbf then some (n - 0x80) else none

/-- How many bytes follow the first one of a character, the bits of the first one, and the least
and the greatest byte that may come second. -/
def leadBits? (b : UInt8) : Option (Nat × Nat × Nat × Nat) :=
  let n := b.toNat
  if n < 0x80 then some (0, n, 0, 0)
  else if 0xc2 ≤ n && n ≤ 0xdf then some (1, n - 0xc0, 0x80, 0xbf)
  else if 0xe0 ≤ n && n ≤ 0xef then
    some (2, n - 0xe0, if n = 0xe0 then 0xa0 else 0x80, if n = 0xed then 0x9f else 0xbf)
  else if 0xf0 ≤ n && n ≤ 0xf4 then
    some (3, n - 0xf0, if n = 0xf0 then 0x90 else 0x80, if n = 0xf4 then 0x8f else 0xbf)
  else none

/-- A character that has begun: the bytes that are missing, its bits, and the bounds of the next
byte. -/
structure Pending where
  missing : Nat
  bits : Nat
  least : Nat := 0x80
  greatest : Nat := 0xbf
deriving DecidableEq, Repr

/-- What a byte begins that goes on with no character: the characters that it ends, with nothing for
a stretch that could not become one, and the character that it leaves to be ended. -/
def decodeFirst (b : UInt8) : List (Option Char) × Option Pending :=
  match leadBits? b with
  | none => ([none], none)
  | some (0, bits, _, _) => ([some (Char.ofNat bits)], none)
  | some (missing, bits, least, greatest) => ([], some ⟨missing, bits, least, greatest⟩)

def decodeNext (b : UInt8) : Option Pending → List (Option Char) × Option Pending
  | none => decodeFirst b
  | some p =>
    if p.least ≤ b.toNat && b.toNat ≤ p.greatest then
      let bits := p.bits * 64 + (tailBits? b).getD 0
      if p.missing ≤ 1 then ([some (Char.ofNat bits)], none)
      else ([], some { missing := p.missing - 1, bits := bits })
    else
      let (found, pending) := decodeFirst b
      (none :: found, pending)

def decodeFrom (pending : Option Pending) : List UInt8 → List (Option Char)
  | [] => if pending.isSome then [none] else []
  | b :: bs =>
    let (found, pending) := decodeNext b pending
    found ++ decodeFrom pending bs

/-- The text that bytes encode, with a replacement character for each stretch that could not
become a character. -/
def decodeUtf8 (bytes : List UInt8) : String :=
  String.ofList ((decodeFrom none bytes).map (·.getD '\ufffd'))

end Text
end CastLint
