/-! Sorting by a key. -/

namespace CastLint
namespace Text

variable {α κ : Type} [LT κ] [DecidableLT κ]

def insertBy (key : α → κ) (a : α) : List α → List α
  | [] => [a]
  | b :: bs => if key b < key a then b :: insertBy key a bs else a :: b :: bs

/-- Items in the order of their keys. Those with one key keep the order they have. -/
def sortBy (key : α → κ) (items : List α) : List α := items.foldr (insertBy key) []

end Text
end CastLint
