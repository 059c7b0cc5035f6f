import CodeReview.Number.Single

/-!
# TOML values

A table remembers how it came to be, as this decides what may still be added to it.
-/

namespace CodeReview.Toml

open CodeReview.Number

/-- How a table came to be. -/
inductive Origin where
  /-- Written between braces; complete. -/
  | braces
  /-- By a dotted key before an equals sign. -/
  | dotted
  /-- As part of a longer header. -/
  | implied
  /-- By a header of its own. -/
  | header
  deriving Repr, DecidableEq

/-- A value. -/
inductive Value where
  | text (s : String)
  | integer (n : Int)
  /-- A finite number, already rounded to the nearest single. -/
  | float (x : Single)
  | bool (b : Bool)
  /-- A date, a time or both. -/
  | moment
  | array (items : List Value)
  | table (origin : Origin) (members : List (String × Value))
  /-- Tables under one header that is repeated, first one last. -/
  | tables (parts : List (List (String × Value)))
  deriving Repr

/-- The members of a table. -/
abbrev Members := List (String × Value)

namespace Members

/-- Put a value under a key, in the place of one that was there. -/
def put (key : String) (v : Value) : Members → Members
  | [] => [(key, v)]
  | (k, w) :: rest => if k = key then (key, v) :: rest else (k, w) :: put key v rest

/-- Follow a path of table names and change the members found there; `created` is the origin of
tables that are made on the way.  Of tables under a repeated header the last is meant.  A dotted key
must not pass through a table that has a header of its own, must end in a table that dotted keys
made, and nothing passes through a complete value. -/
def change? (created : Origin) (f : Members → Option Members) :
    List String → Members → Option Members
  | [], ms => f ms
  | key :: path, ms =>
    match ms.lookup key with
    | none => (change? created f path []).map fun inner => put key (.table created inner) ms
    | some (.table origin inner) =>
      let closed := match created, origin with
        | _, .braces => true
        | .dotted, .header => true
        | .dotted, .implied => path.isEmpty
        | _, _ => false
      if closed then none
      else (change? created f path inner).map fun inner => put key (.table origin inner) ms
    | some (.tables (last :: others)) =>
      if created = .dotted && path.isEmpty then none
      else (change? created f path last).map fun last => put key (.tables (last :: others)) ms
    | some _ => none

/-- Add a value under a dotted key that is not there yet. -/
def add? (created : Origin) (path : List String) (key : String) (v : Value) (ms : Members) :
    Option Members :=
  change? created (fun ms => if (ms.lookup key).isSome then none else some (put key v ms)) path ms

end Members

end CodeReview.Toml
