/-!
# Sets of code points given by ranges

A property of characters that only a table can tell is given by the closed
ranges of code points that have it.
-/

namespace SmallScheme.Text

/-- `inRanges rs n`: the code point `n` lies in one of the closed ranges `rs`. -/
def inRanges (rs : List (Nat × Nat)) (n : Nat) : Bool :=
  rs.any fun (lo, hi) => lo ≤ n && n ≤ hi

end SmallScheme.Text
