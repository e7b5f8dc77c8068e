import LiveCanvas.Preview.Compile
import LiveCanvas.Preview.Watch

/-!
# Recompiling when the graph settles

Each change of the graph is reported; when what previews watch has changed, a timer is started
anew, so a burst of changes leads to one pass over the running previews.  A pass shows each preview
the document it should have, unless it shows it already.  Time itself stays outside: here the timer
is armed or not, and somebody tells when it fires.
-/

namespace LiveCanvas

/-- Compiles a preview of a graph; a token forces a document that differs from the one before. -/
abbrev PreviewCompiler := Graph → NodeId → Option Text → Except Misuse CompiledDocument

/-- A document on its way to a preview. -/
structure Delivery where
  preview : NodeId
  html : Text
deriving DecidableEq, Repr

/-- What is remembered between passes. -/
structure Recompiler where
  /-- The digest of the graph at the last reported change. -/
  seen : Option Text := none
  /-- The timer runs. -/
  isArmed : Bool := false
  /-- The digest of the document that each preview shows. -/
  shown : Fields Text := []
deriving DecidableEq, Repr

/-- What a step of a recompiler leads to. -/
structure Recompiled (α : Type) where
  state : Recompiler
  deliveries : List Delivery
  result : Except Misuse α

namespace Recompiler

/-- What previews watch differs from what was seen last. -/
def sees (r : Recompiler) (g : Graph) : Bool :=
  r.seen == some (Watch.fingerprint g)

/-- Takes note of a possible change; the timer starts anew when there is one. -/
def notify (r : Recompiler) (g : Graph) : Recompiler :=
  if r.sees g then r else { r with seen := some (Watch.fingerprint g), isArmed := true }

/-- The pages of previews that no longer run; a preview that has left the graph shows nothing. -/
def stops (r : Recompiler) (g : Graph) : List Delivery :=
  ((r.shown.names.filter fun id => !g.running.contains id).filter g.hasNode).map fun id =>
    ⟨id, Document.stopped⟩

/-- What is shown by the previews that still run. -/
def stillShown (shown : Fields Text) (running : List NodeId) : Fields Text :=
  shown.filter fun entry => running.contains entry.1

/-- Compiles previews one after the other and delivers what is new, up to the first one that cannot
be compiled. -/
def showAll (compile : NodeId → Except Misuse CompiledDocument) :
    List NodeId → Fields Text → Fields Text × List Delivery × Option Misuse
  | [], shown => (shown, [], none)
  | id :: rest, shown =>
    match compile id with
    | .error e => (shown, [], some e)
    | .ok document =>
      if shown.get? id = some document.fingerprint then showAll compile rest shown
      else
        let (after, deliveries, failure) :=
          showAll compile rest (shown.set id document.fingerprint)
        (after, ⟨id, document.html⟩ :: deliveries, failure)

/-- A pass over the running previews; the result is how many documents are new. -/
def compileAll (r : Recompiler) (compile : PreviewCompiler) (g : Graph) : Recompiled Nat :=
  let (shown, fresh, failure) :=
    showAll (fun id => compile g id none) g.running (stillShown r.shown g.running)
  { state := { r with shown }
    -- previews that stopped come first
    deliveries := r.stops g ++ fresh
    result := match failure with
      | some e => .error e
      | none => .ok fresh.length }

/-- The timer fires. -/
def fire (r : Recompiler) (compile : PreviewCompiler) (g : Graph) : Recompiled Nat :=
  compileAll { r with isArmed := false } compile g

/-- Shows a preview a forced document; the result is its text. -/
def reload (r : Recompiler) (compile : PreviewCompiler) (g : Graph) (preview : NodeId)
    (token : Text) : Recompiled Text :=
  match compile g preview (some token) with
  | .error e => ⟨r, [], .error e⟩
  | .ok document =>
    { state := { r with shown := r.shown.set preview document.fingerprint }
      deliveries := [⟨preview, document.html⟩]
      result := .ok document.html }

/-- Stops the timer. -/
def cancel (r : Recompiler) : Recompiler :=
  { r with isArmed := false }

end Recompiler
end LiveCanvas
