import LiveCanvas.Journal.Level

/-!
# Failures in the journal

Each kind of failure has one level, so that a gesture that had to wait does not look like a service
that is down.
-/

namespace LiveCanvas
namespace Journal

/-- What can fail. -/
inductive Failure
  /-- A gesture was begun while another one was under way. -/
  | gesture (text : Text)
  /-- A tool call fits no command. -/
  | command (name text : Text)
  /-- A script cannot be transformed. -/
  | transform (file text : Text)
  /-- A snapshot or graph file cannot be read. -/
  | snapshot (text : Text)
  /-- The assistant's service gave no answer. -/
  | service (text : Text)
  /-- Any other failure that the library describes. -/
  | general (text : Text)
  /-- A failure that comes from elsewhere. -/
  | foreign (text : Text)
deriving DecidableEq, Repr

namespace Failure

/-- What a reader sees of a failure. -/
def text : Failure → Text
  | gesture text | snapshot text | service text | general text | foreign text => text
  | command name text => name ++ ": " ++ text
  | transform file text => file ++ ": " ++ text

/-- The level at which a failure is written. -/
def level : Failure → Level
  | gesture _ => 10
  | command _ _ | transform _ _ | snapshot _ | general _ => 30
  | service _ | foreign _ => 40

end Failure
end Journal
end LiveCanvas
