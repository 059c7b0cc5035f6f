import CodeReview.Yaml.Node
import CodeReview.Number.Single

/-!
# What YAML nodes are read as

A scalar is read by what is asked for, not by what it looks like: any scalar is a text, and a plain
scalar is a number where a number is asked for.  Whole numbers may be written in four bases, with a
plus sign, and without leading zeros; floating-point numbers in decimal only.
-/

namespace CodeReview.Yaml.Node

open CodeReview.Number CodeReview.Text

/-- The tag of a type of the core schema. -/
def coreTag (name : String) : String := "tag:yaml.org,2002:" ++ name

/-- Any scalar is a text. -/
def asText? : Node → Option String
  | scalar _ _ text => some text
  | _ => none

/-- The words for null. -/
def isNull (s : String) : Bool := ["null", "Null", "NULL", "~"].contains s

/-- The text of a scalar that may be a value of the type with this tag: a plain scalar, or a
literal block with the tag. -/
def typed? (type : String) : Node → Option String
  | scalar tag style text =>
    if style = .plain || (style = .literal && tag == some (coreTag type)) then some text else none
  | _ => none

/-- Digits of a base, at least one. -/
def digitsIn? (base : Nat) (s : List Char) : Option Nat :=
  if s.isEmpty then none else inBase? base s

/-- A natural number with an optional plus sign, in base sixteen, eight, two or ten. -/
def naturalText? (s : List Char) : Option Nat :=
  let body := match s with
    | '+' :: rest => rest
    | s => s
  match body with
  | '0' :: 'x' :: rest => digitsIn? 16 rest
  | '0' :: 'o' :: rest => digitsIn? 8 rest
  | '0' :: 'b' :: rest => digitsIn? 2 rest
  | '0' :: _ :: _ => none
  | body => digitsIn? 10 body

/-- A natural number below a bound. -/
def asNatural? (bound : Nat) (n : Node) : Option Nat :=
  ((typed? "int" n).bind fun s => naturalText? s.toList).filter (· < bound)

/-- A floating-point number.  Finite numbers pass through the 64-bit format, where they have to be
finite too. -/
def singleText? (s : String) : Option Single :=
  let unsigned := match s.toList with
    | '+' :: rest => String.ofList rest
    | _ => s
  if [".inf", ".Inf", ".INF"].contains unsigned then some (.infinite false)
  else if ["-.inf", "-.Inf", "-.INF"].contains s then some (.infinite true)
  else if [".nan", ".NaN", ".NAN"].contains s then some .nan
  else
    let (negative, digits) := Single.signed s.toList
    (Decimal.ofChars? digits).bind (Single.ofDecimalViaDouble? negative)

/-- A floating-point number. -/
def asSingle? (n : Node) : Option Single :=
  (typed? "float" n).bind singleText?

/-- The words for truth values. -/
def isTruth (s : String) : Bool :=
  ["true", "True", "TRUE", "false", "False", "FALSE"].contains s

/-- A scalar that by itself is a text and nothing else. -/
def isWord : Node → Bool
  | scalar tag style text =>
    tag.isNone && (style ≠ .plain ||
      !(text == "" || isNull text || isTruth text || (singleText? text).isSome ||
        (naturalText? (text.toList.dropWhile (· == '-'))).isSome))
  | _ => false

/-- A text, or nothing where a plain scalar is empty or a word for null. -/
def asOptionalText? : Node → Option (Option String)
  | scalar tag style text =>
    if style ≠ .plain then some (some text)
    else
      match tag with
      | some t =>
        if t == coreTag "null" then (if isNull text then some none else none) else some (some text)
      | none => some (if text == "" || isNull text then none else some text)
  | _ => none

/-- The pairs of a mapping; an empty plain scalar is a mapping without pairs. -/
def asPairs? : Node → Option (List (Node × Node))
  | mapping _ pairs => some pairs
  | scalar _ .plain "" => some []
  | _ => none

/-- The name of a choice: a scalar, or a local tag on a scalar that holds nothing. -/
def asChoice? : Node → Option String
  | scalar tag style text =>
    match (tag.getD "").toList with
    | '!' :: c :: rest =>
      if style = .plain && (text == "" || isNull text) then some (String.ofList (c :: rest))
      else none
    | _ => some text
  | mapping .. | sequence .. | .recursive => none

/-- The values under keys that are texts; fails where a key is no scalar. -/
def asMembers? (n : Node) : Option (List (String × Node)) :=
  (asPairs? n).bind fun pairs => pairs.mapM fun p => (asText? p.1).map (·, p.2)

end CodeReview.Yaml.Node
