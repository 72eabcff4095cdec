import CastLint.Command.Check
import CastLint.Proofs.DecodedReports
import Mathlib.Data.Finset.Card

/-! The numbers of findings in reports. The summary that programs read, the two that people read and
the exit code all come from the same counts. -/

namespace CastLint
namespace Report

open Lint Json

section

variable (subject : Subject) (findings : List Diagnostic)

end

end Report
end CastLint
