import LiveCanvas.Number.Basic
import LiveCanvas.Text.Cut

/-!
# Going on to the next key

The service is called with one key after the other until an answer comes.  Only a rate limit or an
unavailable service leads on to the next key; a timeout and any other failure end the call.
-/

namespace LiveCanvas

/-- Why one attempt failed. -/
structure ServiceFailure where
  message : Text
  /-- The status that the failure gives first. -/
  statusCode : Option Int := none
  /-- The status that counts when there is no other. -/
  otherStatus : Option Int := none
  /-- The failure is of the service's own kind for rate limits and unavailability. -/
  isOverload : Bool := false
deriving DecidableEq, Repr

namespace ServiceFailure

/-- The status of a failure. -/
def status (f : ServiceFailure) : Option Int :=
  f.statusCode <|> f.otherStatus

/-- A status that leads on to the next key. -/
def isRetryStatus (status : Int) : Bool :=
  status == 429 || status == 503

/-- The failure leads on to the next key. -/
def isRetryable (f : ServiceFailure) : Bool :=
  f.isOverload || f.status.any isRetryStatus || Text.occursIn (Text.toList "429") f.message.toList

/-- The status that is reported when every key failed; one that says nothing counts as a rate
limit. -/
def reportedStatus (f : ServiceFailure) : Int :=
  match f.status with
  | some status => if status = 0 then 429 else status
  | none => 429

end ServiceFailure

/-- What an attempt comes to. -/
inductive Outcome (α : Type)
  | answered (answer : α)
  | timedOut
  | failed (failure : ServiceFailure)

/-- Why a call came to nothing. -/
inductive GivenUp
  | noKeys
  /-- The limit is in seconds. -/
  | timedOut (limit : Float)
  | failed (failure : ServiceFailure)
  /-- Every key failed; the status is that of the last failure. -/
  | exhausted (status : Int)

/-- A call that came to nothing. -/
structure ServiceError where
  cause : GivenUp
  attempts : Nat

namespace ServiceError

/-- What a reader sees. -/
def message (e : ServiceError) : Text :=
  match e.cause with
  | .noKeys => "No API keys configured"
  | .timedOut limit => "Service call timed out (" ++ Number.roundedText limit ++ "s limit)"
  | .failed failure => failure.message
  | .exhausted _ => "All API keys are rate limited or unavailable"

/-- The status that is reported. -/
def status (e : ServiceError) : Option Int :=
  match e.cause with
  | .noKeys | .timedOut _ => none
  | .failed failure => failure.status
  | .exhausted status => some status

end ServiceError

namespace Failover

variable {σ α : Type}

/-- Tries keys one after the other.  `tried` counts the attempts before, `last` is the status of the
failure before. -/
def tryKeys (timeout : Float) (attempt : Text → σ → Outcome α × σ) (tried : Nat) (last : Int) :
    List Text → σ → Except ServiceError α × σ
  | [], s => (.error ⟨.exhausted last, tried⟩, s)
  | key :: rest, s =>
    match attempt key s with
    | (.answered answer, s) => (.ok answer, s)
    | (.timedOut, s) => (.error ⟨.timedOut timeout, tried + 1⟩, s)
    | (.failed failure, s) =>
      if failure.isRetryable then
        tryKeys timeout attempt (tried + 1) failure.reportedStatus rest s
      else (.error ⟨.failed failure, tried + 1⟩, s)

/-- Calls the service; without keys there is nobody to call. -/
def call (timeout : Float) (attempt : Text → σ → Outcome α × σ) (keys : List Text) (s : σ) :
    Except ServiceError α × σ :=
  match keys with
  | [] => (.error ⟨.noKeys, 0⟩, s)
  | keys => tryKeys timeout attempt 0 429 keys s

end Failover
end LiveCanvas
