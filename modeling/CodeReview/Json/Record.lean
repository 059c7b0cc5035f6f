import CodeReview.Json.Value

/-!
# Reading records out of JSON

A record comes as an object, or as an array of its fields in order.  In an object keys that the
record does not know are ignored, and a known key must not be repeated.  In an array fields may
be missing at the end, but there may be no more of them than the record has.
-/

namespace CodeReview.Json

/-- The value given for one of the names, or nothing; refuses a repeated key. -/
def memberOf? (name : String) (members : List (Option String × Value)) : Option (Option Value) :=
  match members.filter fun m => m.1 == some name with
  | [] => some none
  | [m] => some (some m.2)
  | _ => none

/-- The values of the fields with these names, in their order. -/
def fields? (names : List String) : Value → Option (List (Option Value))
  | .object members =>
    if members.any fun m => m.1.isNone then none
    else names.mapM fun name => memberOf? name members
  | .array items =>
    if names.length < items.length then none
    else some (items.map some ++ List.replicate (names.length - items.length) none)
  | _ => none

/-- A text. -/
def asText? : Value → Option String
  | .string t => t
  | _ => none

/-- A whole number below `2 ^ 32`. -/
def asWord? : Value → Option Nat
  | .number t =>
    if t.toList.all Char.isDigit then
      (t.toList.foldl (fun n c => n * 10 + (c.toNat - 48)) 0 |> some).filter (· < Nat.pow 2 32)
    else none
  | _ => none

/-- Every item of an array, read the same way. -/
def asList? {α : Type} (item : Value → Option α) : Value → Option (List α)
  | .array items => items.mapM item
  | _ => none

/-- A value or null. -/
def asOptional? {α : Type} (read : Value → Option α) : Value → Option (Option α)
  | .null => some none
  | v => (read v).map some

/-- A field that has to be given. -/
def required? {α : Type} (read : Value → Option α) : Option Value → Option α
  | none => none
  | some v => read v

/-- A field that may be left out. -/
def orElse? {α : Type} (default : α) (read : Value → Option α) : Option Value → Option α
  | none => some default
  | some v => read v

end CodeReview.Json
