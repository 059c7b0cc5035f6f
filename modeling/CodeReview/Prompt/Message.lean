import CodeReview.Text.Blank

/-!
# The message sent to a model

A message is the instruction, an empty line, and the source text in a fenced block.  The fence is
a line of back quotes, at least three and more than any run of back quotes in the source, so that
the source cannot close its own block.
-/

namespace CodeReview.Prompt

open CodeReview.Text

/-- The back quote. -/
def tick : Char := '\x60'

/-- Length of the longest run of `c`, where `run` copies of it were just read and `best` is the
longest run so far. -/
def longestRunFrom (c : Char) : Nat → Nat → List Char → Nat
  | run, best, [] => max run best
  | run, best, d :: rest =>
    if d = c then longestRunFrom c (run + 1) best rest
    else longestRunFrom c 0 (max run best) rest

/-- Length of the longest run of `c` in a text. -/
def longestRun (c : Char) (s : List Char) : Nat :=
  longestRunFrom c 0 0 s

/-- Length of the fence around a source text. -/
def fenceLength (source : List Char) : Nat :=
  max (longestRun tick source) 2 + 1

/-- The characters of the message. -/
def messageChars (instruction source : List Char) : List Char :=
  let fence := List.replicate (fenceLength source) tick
  trimEndChars instruction ++ '\n' :: '\n' :: fence ++ '\n' ::
    dropEndWhile (· == '\n') source ++ '\n' :: fence ++ ['\n']

/-- The instruction followed by the source text in a fenced block. -/
def message (instruction source : String) : String :=
  String.ofList (messageChars instruction.toList source.toList)

/-- What every model is told about its role. -/
def systemPrompt : String :=
  "You are a senior software engineer and code reviewer with deep experience across " ++
  "programming languages, algorithms, software architecture and application security.\n" ++
  "\n" ++
  "RULES:\n" ++
  "1. Work only from the code you are given; say so when context is missing instead of " ++
  "guessing.\n" ++
  "2. Be specific: reference functions, variables and line numbers where possible.\n" ++
  "3. Use Markdown headings and fenced code blocks with the correct language tag.\n" ++
  "4. Keep explanations concise and actionable."

end CodeReview.Prompt
