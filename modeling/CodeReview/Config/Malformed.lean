import CodeReview.Text.Quoted

/-!
# Texts that are no configurations

The text of a configuration is read by a parser of its format, YAML or TOML.  What such a parser
says about a text that it refuses is up to that parser, and commands only pass it on: it is the
`wording` of the machine that they run on, about which nothing is assumed.

The readers here tell a few kinds of refusal apart.  `Malformed.message` has the words for these, and
one sentence that stands for all others, so that commands can be run where no parser is at hand.
-/

namespace CodeReview.Config

open CodeReview.Text

/-- The formats that a configuration may be written in. -/
inductive Format where
  | yaml
  | toml
  deriving Repr, DecidableEq

/-- What is wrong with a text, as far as it is told apart. -/
inductive Complaint where
  /-- The whole is a single word, in YAML. -/
  | word (text : String)
  /-- The whole lacks a field, in YAML. -/
  | missing (field : String)
  /-- A key stands alone, in TOML: neither a point nor an equals sign follows. -/
  | unassigned
  /-- Anything else. -/
  | other
  deriving Repr, DecidableEq

/-- The wording of a complaint.  For anything else it only stands for the words of a parser. -/
def Complaint.message : Complaint → String
  | word text => "invalid type: string " ++ quoted text ++ ", expected struct Config"
  | missing field => "missing field \x60" ++ field ++ "\x60"
  | unassigned => "expected \x60.\x60, \x60=\x60"
  | other => "the text is not a well-formed configuration"

/-- A text that is refused. -/
structure Malformed where
  /-- The format that it was read in. -/
  format : Format
  text : String
  complaint : Complaint
  deriving Repr, DecidableEq

/-- What is said about a text that is refused, where no parser says it in words of its own. -/
def Malformed.message (e : Malformed) : String := e.complaint.message

end CodeReview.Config
