import OnScreen.Report

namespace OnScreen

/-!
# Sinks

A sink is where calls end up.  It keeps a state of its own and answers each call; a call may be
accepted or refused, it may have to wait, and it may bring the delivery down.
-/

/-- Why a sink refused a call. -/
inductive SinkError where
  /-- The outside could not be reached. -/
  | unreachable (reason : String)
  /-- The outside was reached and said no. -/
  | remote (reason : String)
  deriving DecidableEq, Repr

/-- The text of a refusal. -/
def SinkError.message : SinkError → String
  | unreachable reason => "Sink unreachable: " ++ reason
  | remote reason => "Remote error: " ++ reason

/-- What becomes of a call. -/
inductive SinkReply where
  | accepted
  | refused (e : SinkError)
  /-- The call cannot return yet. -/
  | waiting
  /-- The call never returns, and whoever made it is gone. -/
  | crashed
  deriving DecidableEq, Repr

/-- A sink with states in `σ`. -/
structure Sink (σ : Type) where
  offer : σ → Call → σ × SinkReply

end OnScreen
