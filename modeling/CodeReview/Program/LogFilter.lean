import CodeReview.Machine
import CodeReview.Text.Blank
import CodeReview.Text.Replace
import CodeReview.Text.Split

/-!
# Which lines of the log are shown

A filter is a list of directives separated by commas.  A directive is a level, the start of a
target's name, or both with an equals sign between; of the directives that fit the program's own
target the one with the longest name counts.  Directives that cannot be read are skipped with a
warning.  What stands behind a slash is not looked at.
-/

namespace CodeReview.Program

open CodeReview.Text

/-- The target that the program's own lines belong to. -/
def ownTarget : String := "reverse_engineer"

/-- How far down lines are shown: nothing, and then one level more at each step. -/
abbrev Depth := Nat

/-- The depth from which on lines of a level are shown. -/
def depthOf : Level → Depth
  | .error => 1
  | .warn => 2
  | .info => 3
  | .debug => 4

/-- Deeper than all levels. -/
def maxDepth : Depth := 5

/-- The depth of a name; letter case does not matter. -/
def depth? (name : String) : Option Depth :=
  [("off", 0), ("error", 1), ("warn", 2), ("info", 3), ("debug", 4), ("trace", 5)].lookup
    (lowerAscii name)

/-- A directive: the start of the names of the targets that it is about, and a depth. -/
abbrev Directive := String × Depth

/-- Parts of a text between separators. -/
def partsOf (sep : Char) (s : String) : List String :=
  (splitOn (· == sep) s.toList).map String.ofList

/-- Read a directive, or say what is wrong with it. -/
def directive (s : String) : Except String Directive :=
  match partsOf '=' s with
  | [one] => .ok (match depth? one with
    | some d => ("", d)
    | none => (one, maxDepth))
  | [name, level] =>
    if trim level == "" then .ok (name, maxDepth)
    else
      match depth? (trim level) with
      | some d => .ok (name, d)
      | none => .error ("invalid logging spec '" ++ trim level ++ "'")
  | _ => .error ("invalid logging spec '" ++ s ++ "'")

/-- What there is of a filter between commas. -/
def itemsOf (filter : String) : List (Except String Directive) :=
  match partsOf '/' filter with
  | _ :: _ :: _ :: _ =>
    [.error ("invalid logging spec '" ++ filter ++ "' (too many '/'s)")]
  | parts => (((partsOf ',' (parts.headD "")).map trim).filter (· ≠ "")).map directive

/-- The directives of a filter; a filter without any shows errors only. -/
def directivesOf (filter : String) : List Directive :=
  match (itemsOf filter).filterMap (·.toOption) with
  | [] => [("", depthOf .error)]
  | ds => ds

/-- What is wrong with a filter, one line for each part that is skipped. -/
def filterWarnings (filter : String) : List String :=
  (itemsOf filter).filterMap fun
    | .ok _ => none
    | .error e => some ("warning: " ++ e ++ ", ignoring it\n")

/-- Of two directives the one that counts: the one with the longer name, of equal names the
later. -/
def stronger (old : Option Directive) (new : Directive) : Option Directive :=
  match old with
  | some o => if new.1.utf8ByteSize < o.1.utf8ByteSize then some o else some new
  | none => some new

/-- The depth of a filter for the program's own lines. -/
def ownDepth (filter : String) : Depth :=
  ((((directivesOf filter).filter fun d => d.1.isPrefixOf ownTarget).foldl stronger none).map
    (·.2)).getD 0

/-- The environment variable that holds the filter. -/
def filterVariable : String := "RUST_LOG"

/-- The depth that a verbosity asks for. -/
def depthOfVerbosity (verbosity : Nat) : Depth := min maxDepth (depthOf .info + verbosity)

/-- The depth of the program's lines: that of the filter in the environment, else that of the
verbosity. -/
def shownDepth (m : Machine) (verbosity : Nat) : Depth :=
  match m.setting? filterVariable with
  | some filter => ownDepth filter
  | none => depthOfVerbosity verbosity

/-- A line of the log as it is shown; further lines of a text are indented. -/
def logLine (level : Level) (text : String) : String :=
  let name := level.name
  "[" ++ name ++ String.ofList (List.replicate (5 - name.length) ' ') ++ "] " ++
    replace text "\n" "\n    " ++ "\n"

end CodeReview.Program
