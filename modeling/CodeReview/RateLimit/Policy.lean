import CodeReview.Duration

/-!
# The quota of model requests

A policy admits at most `limit` requests in any window of `timeFrame` seconds.
-/

namespace CodeReview

/-- At most `limit` requests within any `timeFrame` seconds. -/
structure Policy where
  limit : Nat
  timeFrame : Nat
  deriving Repr, DecidableEq

namespace Policy

/-- The policy used where a configuration has none. -/
def standard : Policy := ⟨50, 60⟩

/-- Length of the window. -/
def window (p : Policy) : Duration := Duration.ofSeconds p.timeFrame

end Policy

end CodeReview
