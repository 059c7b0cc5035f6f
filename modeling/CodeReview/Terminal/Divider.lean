/-!
# Dividers

A horizontal rule as wide as the terminal, within bounds.
-/

namespace CodeReview.Terminal

/-- Narrowest divider. -/
def minDivider : Nat := 10

/-- Widest divider, which is also used where the width of the terminal is not known. -/
def maxDivider : Nat := 80

/-- Width of a divider on a terminal of so many columns; zero columns are an unknown width. -/
def dividerWidth (columns : Option Nat) : Nat :=
  match columns with
  | none | some 0 => maxDivider
  | some n => max minDivider (min maxDivider n)

/-- A divider. -/
def divider (columns : Option Nat) : String :=
  String.ofList (List.replicate (dividerWidth columns) '=')

end CodeReview.Terminal
