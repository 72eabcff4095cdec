/-! Byte lengths of texts and cuts of a text at byte offsets. A text is a list of characters, and
an offset counts the bytes of its encoding; only the offsets between two characters can cut. -/

namespace CastLint
namespace Text

def byteLength : List Char → Nat
  | [] => 0
  | c :: cs => c.utf8Size + byteLength cs

@[simp] theorem byteLength_nil : byteLength [] = 0 := rfl

@[simp] theorem byteLength_cons (c : Char) (cs : List Char) :
    byteLength (c :: cs) = c.utf8Size + byteLength cs := rfl

@[simp] theorem byteLength_append (xs ys : List Char) :
    byteLength (xs ++ ys) = byteLength xs + byteLength ys := by
  induction xs with
  | nil => simp
  | cons c xs ih => simp [ih, Nat.add_assoc]

/-- The text in front of byte `n` and the text from it on, unless `n` lies inside a character or
past the end. -/
def splitAtByte : List Char → Nat → Option (List Char × List Char)
  | cs, 0 => some ([], cs)
  | [], _ + 1 => none
  | c :: cs, n + 1 =>
    if c.utf8Size ≤ n + 1 then
      (splitAtByte cs (n + 1 - c.utf8Size)).map fun (before, after) => (c :: before, after)
    else none

/-- The text between two byte offsets, unless they are out of order, out of range or inside a
character. -/
def sliceBytes (cs : List Char) (start stop : Nat) : Option (List Char) :=
  if start ≤ stop then
    match splitAtByte cs start with
    | some (_, rest) => (splitAtByte rest (stop - start)).map (·.1)
    | none => none
  else none

end Text
end CastLint
