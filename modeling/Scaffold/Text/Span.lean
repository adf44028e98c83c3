/-!
Sets of code points, written as the intervals and evenly spaced runs that the Unicode character
tables are made of.
-/

namespace Scaffold.Text

/-- The code points from `first` to `last`, both included. -/
structure Span where
  first : Nat
  last : Nat

/-- A code point lies in a span when it is between its ends. -/
def Span.has (s : Span) (n : Nat) : Bool :=
  s.first ≤ n && n ≤ s.last

/-- The code points `first`, `first + step`, … up to `last`. -/
structure Run where
  first : Nat
  last : Nat
  step : Nat

/-- A code point lies on a run when it is between its ends and a whole number of steps from the
first one. -/
def Run.has (r : Run) (n : Nat) : Bool :=
  r.first ≤ n && n ≤ r.last && (n - r.first) % r.step == 0

end Scaffold.Text
