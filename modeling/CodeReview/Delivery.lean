import CodeReview.Machine
import CodeReview.Text.Split

/-!
# Delivering results

A result is printed, or stored in a file.  Where a directory is given instead of a file, the name
of the file is made from the name of the source, the operation and the local time.
-/

namespace CodeReview

open CodeReview.Text

/-- Where a result is. -/
inductive Delivery where
  | printed
  | saved (path : String)
  deriving Repr, DecidableEq

namespace Delivery

/-- The part of a locator behind its last slash or backslash, slashes at the end left out. -/
def lastName (locator : String) : String :=
  String.ofList (lastPart (fun c => c == '/' || c == '\\') (trimEndOf '/' locator).toList)

/-- What the names of files made for a source start with. -/
def stem (locator : String) : String :=
  ((Path.stem? (lastName locator)).filter (· ≠ "")).getD "output"

/-- The name of a file made for the result of an operation on a source. -/
def fileName (locator : String) (operation : Operation) (stamp : String) : String :=
  stem locator ++ "_" ++ operation.fileTag ++ "_" ++ stamp ++ ".txt"

/-- The path of the file that a result goes to. -/
def targetPath (m : Machine) (destination locator : String) (operation : Operation) : String :=
  if m.disk.isDirectory destination then
    Path.join destination (fileName locator operation m.stamp)
  else destination

/-- Print a result. -/
def print (text : String) : Command Unit := do
  Command.write (← get).printer true (.printed (text ++ "\n"))

/-- Make a text the whole content of a file, after making the directories above it. -/
def store (path text : String) : Command Unit :=
  Command.orFail (modifyGet fun m =>
      let (result, disk) := m.disk.store path text
      (result, { m with disk }))
    fun e => .output path e.message

/-- Deliver the result of an operation on a source. -/
def deliver (text : String) (destination : Option String) (locator : String)
    (operation : Operation) : Command Delivery := do
  match destination with
  | none => do
    print text
    pure .printed
  | some destination => do
    let path := targetPath (← get) destination locator operation
    store path text
    Act.log .info ("💾 Output saved to " ++ path)
    pure (.saved path)

end Delivery

end CodeReview
