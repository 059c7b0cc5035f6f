import CodeReview.RateLimit.Policy

/-!
# The sliding window

A limiter keeps the instants of the requests that it admitted and that still count.  An instant
stops counting when the whole window has passed since: from age `window` on it is dropped, always
from the front of the queue.

Time is the number of nanoseconds since the clock's origin.  Instants from `horizon` on cannot be
represented; where an expiry would lie there, the waiting time given is the whole window.

`check` takes the reading of the clock as an argument.  A caller that reads the clock first and is
admitted later is described by passing the earlier reading.
-/

namespace CodeReview

/-- An instant, in nanoseconds since the clock's origin. -/
abbrev Instant := Nat

/-- The first instant that cannot be represented. -/
def Instant.horizon : Instant := Duration.ofSeconds (Nat.pow 2 63)

/-- A later instant, if it can be represented. -/
def Instant.add? (t : Instant) (d : Duration) : Option Instant :=
  if t + d < Instant.horizon then some (t + d) else none

/-- The answer to a request for admission. -/
inductive Decision where
  | allowed
  | denied (retryAfter : Duration)
  deriving Repr, DecidableEq

/-- A policy and the instants that count against it, first admitted first. -/
structure Limiter where
  policy : Policy
  admitted : List Instant
  deriving Repr, DecidableEq

namespace Limiter

/-- A limiter that has admitted nothing yet. -/
def fresh (policy : Policy) : Limiter := ⟨policy, []⟩

/-- Whether an instant has left the window at time `now`. -/
def expired (window : Duration) (now : Instant) (t : Instant) : Bool :=
  window ≤ now - t

/-- Drop expired instants from the front of the queue. -/
def prune (l : Limiter) (now : Instant) : Limiter :=
  { l with admitted := l.admitted.dropWhile (expired l.policy.window now) }

/-- How long to wait at time `now` until an instant leaves the window. -/
def waitFor (window : Duration) (now : Instant) (oldest : Instant) : Duration :=
  match oldest.add? window with
  | some expiry => expiry - now
  | none => window

/-- How long to wait at time `now` until the oldest instant of the queue leaves the window. -/
def wait (l : Limiter) (now : Instant) : Duration :=
  match l.admitted with
  | [] => 0
  | oldest :: _ => waitFor l.policy.window now oldest

/-- Ask for admission at time `now`.  A request that is admitted is recorded. -/
def check (l : Limiter) (now : Instant) : Decision × Limiter :=
  let l := l.prune now
  if l.admitted.length < l.policy.limit then
    (.allowed, { l with admitted := l.admitted ++ [now] })
  else (.denied (l.wait now), l)

/-- How many requests could be admitted at time `now`. -/
def remaining (l : Limiter) (now : Instant) : Nat × Limiter :=
  let l := l.prune now
  (l.policy.limit - l.admitted.length, l)

end Limiter

end CodeReview
