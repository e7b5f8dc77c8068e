import LiveCanvas.Chat.Failover
import LiveCanvas.Chat.Service

/-!
# Answers that take time

An answer of the service comes after a while; one that would come after the limit is a timeout, and
with no time at all the service is not even asked.
-/

namespace LiveCanvas

/-- What the service does with a call. -/
structure ServiceAnswer where
  /-- In seconds. -/
  delay : Float := 0
  outcome : Outcome Reply := .answered {}

namespace ServiceAnswer

/-- The answer comes before the limit. -/
def isInTime (answer : ServiceAnswer) (limit : Float) : Bool :=
  answer.delay < limit

/-- How long the caller waits. -/
def waited (answer : ServiceAnswer) (limit : Float) : Float :=
  if answer.isInTime limit then answer.delay else limit

/-- What the caller gets. -/
def within (answer : ServiceAnswer) (limit : Float) : Outcome Reply :=
  if answer.isInTime limit then answer.outcome else .timedOut

end ServiceAnswer

/-- There is time to ask the service. -/
def leavesTime (limit : Float) : Bool := 0 < limit

end LiveCanvas
