/-
# Sets of code points

A property of characters is kept as the increasing list of the code points where
membership changes: outside the set below the first of them, inside it from the
first up to the second, outside again from the second, and so on.
-/

namespace CallResolution
namespace Text

/-- Whether code point `n` lies in the set whose membership changes at `points`:
it does when an odd number of changes are behind it. -/
def insideAt (points : List Nat) (n : Nat) : Bool :=
  (points.takeWhile (· ≤ n)).length % 2 == 1

end Text
end CallResolution
