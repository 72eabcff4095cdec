import CastLint.Proofs.CastAddresses
import CastLint.Proofs.MockedCalls

/-! When findings come in the order of the text. They come in the order of a walk, and a walk takes
the parts of a node as the tree has them. Some nodes do not have them as the text has: a loop that
tests last comes with its test in front, and a class with its members in front of its base. -/

namespace CastLint
namespace Lint

open Syntax

/-- Findings that do not go back in the text. -/
def InSourceOrder (diagnostics : List Diagnostic) : Prop :=
  diagnostics.Pairwise fun d e => d.range.start.key ≤ e.range.start.key

instance inSourceOrderDecidable (diagnostics : List Diagnostic) :
    Decidable (InSourceOrder diagnostics) :=
  inferInstanceAs (Decidable (diagnostics.Pairwise fun d e => d.range.start.key ≤ e.range.start.key))

namespace PreferMocked

/-- If both casts are reported, then the second does not start in front of the first. -/
def KeepsOrder (file : Source.File) (c d : Cast) : Prop :=
  (finding? file c).isSome → (finding? file d).isSome → c.span.start ≤ d.span.start

theorem keepsOrder_iff {file : Source.File} {c d : Cast} (hc : WellPlaced file c)
    (hd : WellPlaced file d) :
    (∀ x, finding? file c = some x → ∀ y, finding? file d = some y →
      x.range.start.key ≤ y.range.start.key) ↔ KeepsOrder file c d := by
  have hkey : (file.locationOf c.span.start).key ≤ (file.locationOf d.span.start).key ↔
      c.span.start ≤ d.span.start := Text.locate_key_le_iff hc.start hd.start
  simp only [KeepsOrder, Option.isSome_iff_exists, ← hkey]
  constructor
  · rintro h ⟨x, hx⟩ ⟨y, hy⟩
    rw [← start_of_finding? hx, ← start_of_finding? hy]
    exact h x hx y hy
  · intro h x hx y hy
    rw [start_of_finding? hx, start_of_finding? hy]
    exact h ⟨x, hx⟩ ⟨y, hy⟩

/-- The findings of a file are in the order of its text exactly if the reported casts are in the
order of the text wherever they belong to different parts of one node, or to different trees. -/
theorem check_inSourceOrder_iff {file : Source.File} {items : List Node}
    (hts : file.language.isTypescript = true) (hitems : file.module.items = some items)
    (hplaced : ∀ cast ∈ casts items, WellPlaced file cast) (hnested : Nested items) :
    InSourceOrder (check file) ↔
      (∀ n ∈ Node.preorderAll items, Across (KeepsOrder file) n.parts) ∧
        Across (KeepsOrder file) items := by
  have hpairs : InSourceOrder (check file) ↔ (casts items).Pairwise (KeepsOrder file) := by
    rw [InSourceOrder, check_eq_filterMap hts hitems, List.pairwise_filterMap]
    exact List.Pairwise.iff_of_mem fun {c d} hc hd => keepsOrder_iff (hplaced c hc) (hplaced d hd)
  rw [hpairs, pairwise_casts_iff]
  refine and_congr_left fun _ => forall₂_congr fun n hn => ?_
  -- a cast starts no later than the casts inside it
  exact and_iff_right fun c hc d hd _ _ => ((hnested.parts n hn).1 c hc d hd).1

def classFile : Source.File :=
  Source.File.ofText "a.ts" "class A extends (b as jest.Mock) { c = d as jest.Mock as jest.Mock; }"

theorem classFile_inSourceOrder_iff :
    ∃ items, classFile.language.isTypescript = true ∧ classFile.module.items = some items ∧
      (∀ cast ∈ casts items, WellPlaced classFile cast) ∧ Nested items ∧
      ¬InSourceOrder (check classFile) ∧
      (InSourceOrder (check classFile) ↔
        (∀ n ∈ Node.preorderAll items, Across (KeepsOrder classFile) n.parts) ∧
          Across (KeepsOrder classFile) items) := by
  have hts : classFile.language.isTypescript = true := by decide +kernel
  have hplaced : ∃ items ∈ classFile.module.items,
      (∀ cast ∈ casts items, WellPlaced classFile cast) ∧ Nested items := by
    decide +kernel
  obtain ⟨items, hitems, hplaced, hnested⟩ := hplaced
  exact ⟨items, hts, hitems, hplaced, hnested, by decide +kernel,
    check_inSourceOrder_iff hts hitems hplaced hnested⟩

/-- The test of a loop that tests last is visited in front of its body. -/
theorem doLoop_not_inSourceOrder :
    ¬InSourceOrder (check (Source.File.ofText "a.ts"
      "do { a as jest.Mock; } while (b as jest.Mock);")) := by
  decide +kernel

end PreferMocked
end Lint
end CastLint
