import LiveCanvas.Collab.InPlace

/-!
# The inbox for snapshots

Snapshots can arrive faster than they are worth applying.  Only the latest one waits, and each
arrival starts the timer anew.  Time itself stays outside: here the timer is armed or not, and
somebody tells when it fires.
-/

namespace LiveCanvas

/-- What waits to be applied. -/
structure Inbox where
  /-- The latest payload; null is no payload. -/
  latest : Option Value := none
  /-- The timer runs. -/
  isArmed : Bool := false

/-- What applying the latest payload leads to. -/
structure Flushed where
  inbox : Inbox
  graph : Graph
  /-- Nothing when no payload waits or the waiting one is refused as no snapshot. -/
  result : Except Misuse (Option MergeReport)

namespace Inbox

/-- A payload arrives. -/
def push (_ : Inbox) (payload : Value) : Inbox :=
  { latest := payload.present?, isArmed := true }

/-- Something waits. -/
def isPending (inbox : Inbox) : Bool := inbox.latest.isSome

/-- Applies the latest payload now. -/
def flush (inbox : Inbox) (g : Graph) : Flushed :=
  -- a payload is used up even when it is refused, and the timer runs on
  let emptied : Inbox := { inbox with latest := none }
  match inbox.latest with
  | none => ⟨emptied, g, .ok none⟩
  | some payload =>
    match (GraphWork.reconcile payload).run g with
    | .ok report merged => ⟨emptied, merged, .ok (some report)⟩
    | .error (.misuse cause) left => ⟨emptied, left, .error cause⟩
    | .error _ left => ⟨emptied, left, .ok none⟩

/-- The timer fires. -/
def fire (inbox : Inbox) (g : Graph) : Flushed :=
  flush { inbox with isArmed := false } g

/-- Stops the timer and forgets what waits. -/
def cancel (_ : Inbox) : Inbox := {}

end Inbox
end LiveCanvas
