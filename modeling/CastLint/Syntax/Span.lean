/-! A stretch of a text by byte offsets. -/

namespace CastLint
namespace Syntax

structure Span where
  start : Nat
  stop : Nat
deriving DecidableEq, Repr, Inhabited

end Syntax
end CastLint
