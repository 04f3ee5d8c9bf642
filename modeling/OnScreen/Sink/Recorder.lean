import OnScreen.Sink

namespace OnScreen

/-!
# A sink that remembers

A recorder keeps every call it accepts.  It can be told to fail; while it fails it refuses every
call, counts it and keeps nothing.
-/

/-- The state of a recording sink. -/
structure Recorder where
  /-- The accepted calls, in order. -/
  calls : List Call
  /-- Whether calls are refused. -/
  failing : Bool
  /-- How many calls were refused. -/
  failures : Nat
  deriving DecidableEq, Repr

namespace Recorder

/-- A recorder that has seen no call. -/
def new : Recorder := ⟨[], false, 0⟩

/-- Takes a call. -/
def offer (r : Recorder) (c : Call) : Recorder × SinkReply :=
  if r.failing then
    ({ r with failures := r.failures + 1 }, .refused (.unreachable "recording sink set to fail"))
  else ({ r with calls := r.calls ++ [c] }, .accepted)

/-- The recorder as a sink. -/
def sink : Sink Recorder := ⟨offer⟩

/-- Makes later calls fail, or succeed again. -/
def setFailing (r : Recorder) (failing : Bool) : Recorder := { r with failing := failing }

/-- Hands out the recorded calls and forgets them. -/
def take (r : Recorder) : Recorder × List Call := ({ r with calls := [] }, r.calls)

/-- The keys of each recorded batch of visibility changes. -/
def batches (r : Recorder) : List (List ItemKey × List ItemKey) :=
  r.calls.filterMap fun
    | .visibilityChanges newly gone => some (newly.map Record.key, gone.map Record.key)
    | _ => none

/-- The recorded expansion calls. -/
def expansions (r : Recorder) : List (ItemKey × Bool × Bool × UInt8) :=
  r.calls.filterMap fun
    | .expansionChanged key user expanded ordinal => some (key, user, expanded, ordinal)
    | _ => none

end Recorder

/-- A recorder behind a stock of permits. -/
structure RationedRecorder where
  permits : Nat
  recorder : Recorder
  deriving DecidableEq, Repr

namespace RationedRecorder

/-- Takes a call: it waits for a permit, uses it up, and then either brings the delivery down, if
    it is `fatal`, or goes to the recorder. -/
def offer (fatal : Call → Bool) (r : RationedRecorder) (c : Call) : RationedRecorder × SinkReply :=
  match r.permits with
  | 0 => (r, .waiting)
  | permits + 1 =>
    if fatal c then ({ r with permits := permits }, .crashed)
    else
      let (recorder, reply) := r.recorder.offer c
      (⟨permits, recorder⟩, reply)

/-- The rationed recorder as a sink. -/
def sink (fatal : Call → Bool) : Sink RationedRecorder := ⟨offer fatal⟩

end RationedRecorder

/-- A sink that implements no more than it must: it refuses expansion calls for a fixed reason and
    accepts everything else. -/
def Sink.minimal (reason : String) : Sink Unit where
  offer _ c :=
    match c with
    | .expansionChanged .. => ((), .refused (.remote reason))
    | _ => ((), .accepted)

end OnScreen
