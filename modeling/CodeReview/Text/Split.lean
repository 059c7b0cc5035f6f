/-!
# Cutting a list at separators
-/

namespace CodeReview.Text

/-- The parts of a list between separators; a list without separator is one part. -/
def splitOn {α : Type} (sep : α → Bool) : List α → List (List α)
  | [] => [[]]
  | c :: rest =>
    if sep c then [] :: splitOn sep rest
    else
      match splitOn sep rest with
      | [] => [[c]]
      | part :: parts => (c :: part) :: parts

/-- What stands after the last separator. -/
def lastPart {α : Type} (sep : α → Bool) (s : List α) : List α :=
  (s.reverse.takeWhile fun c => !sep c).reverse

end CodeReview.Text
