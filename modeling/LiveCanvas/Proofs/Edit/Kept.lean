import LiveCanvas.Edit.Batch

/-!
# What a batch keeps

Whatever a command comes to, it is carried out by seven elementary edits: a line is reported, a node
is added or removed, two nodes are wired, connections are taken away by name, and a node gets new
content or a new title.  A property that each of the seven keeps is therefore kept by every command
and by every batch.  The induction over the batch is made here once.
-/

namespace LiveCanvas
namespace Batch

/-- The elementary edits keep a property of batches. -/
structure Keeps (P : Batch → Prop) : Prop where
  /-- Lines are only ever added to a report. -/
  report : ∀ (b : Batch) (report : BatchReport) (a : Annotation),
    report.annotations = b.report.annotations ++ [a] → P b → P { b with report }
  /-- Commands leave the id of a new node to the source of ids. -/
  add : ∀ (b : Batch) (request : NodeRequest), request.id = none → P b → P (b.add request).2
  remove : ∀ (b : Batch) (id : NodeId), P b → P (b.remove id)
  wire : ∀ (b : Batch) (source target : Node) (role : Role), P b → P (b.wire source target role).2
  disconnect : ∀ (b : Batch) (name : Text), P b → P (b.onGraph fun g => g.disconnect name)
  setContent : ∀ (b : Batch) (id : NodeId) (content : Text),
    P b → P (b.onGraph fun g => g.setContent id content)
  setTitle : ∀ (b : Batch) (id : NodeId) (title : Text),
    P b → P (b.onGraph fun g => g.setTitle id title)

namespace Keeps

variable {P : Batch → Prop} (h : Keeps P)

include h

theorem note {b : Batch} (hb : P b) (a : Annotation) : P (b.note a) :=
  h.report b _ a rfl hb

theorem noteChange {b : Batch} (hb : P b) (a : Annotation) (id : NodeId) :
    P (b.noteChange a id) :=
  h.report b _ a rfl hb

theorem disconnectAll {b : Batch} (hb : P b) (edges : List Connection) :
    P (b.onGraph fun g => edges.foldl (fun g edge => g.disconnect edge.id) g) := by
  induction edges generalizing b with
  | nil => exact hb
  | cons edge edges ih => exact ih (h.disconnect b edge.id hb)

theorem detach {b : Batch} (hb : P b) (c : BatchContext) (id : NodeId) : P (b.detach c id) :=
  h.disconnectAll hb _

theorem ensureFolder {b : Batch} (hb : P b) (title : Text) (position : Position) :
    P (b.ensureFolder title position).2 := by
  unfold Batch.ensureFolder
  split
  · exact hb
  · exact h.noteChange (h.add b _ rfl hb) _ _

theorem putInto {b : Batch} (hb : P b) (c : BatchContext) (n folder : Node) :
    P (b.putInto c n folder) :=
  h.wire _ n folder Role.files (h.detach hb c n.id)

theorem linkAnchor {b : Batch} (hb : P b) (c : BatchContext) (file folder : Node) :
    P (b.linkAnchor c file folder) := by
  unfold Batch.linkAnchor
  split
  · split
    · exact hb
    · exact h.wire b folder _ Role.imports hb
  · exact hb

theorem file {b : Batch} (hb : P b) (c : BatchContext) (n : Node) (folder : Text) :
    P (b.file c n folder) :=
  h.linkAnchor (h.noteChange (h.putInto (h.ensureFolder hb _ _) c n _) _ _) c n _

theorem feedAnchor {b : Batch} (hb : P b) (c : BatchContext) (n : Node) :
    P (b.feedAnchor c n) := by
  unfold Batch.feedAnchor
  split
  · exact h.wire b n _ Role.imports hb
  · exact hb

theorem perform {b : Batch} (hb : P b) (c : BatchContext) (action : Action) :
    P (b.perform c action) := by
  cases action with
  | overwrite n content folder =>
      have hwritten := h.noteChange (h.setContent b n.id content hb) (.updated n.title) n.id
      cases folder with
      | none => exact hwritten
      | some folder => exact h.file hwritten c n folder
  | create title content folder =>
      have hcreated := h.add b { kind := .code, title := some title, content := some content,
                                 position := b.nearAnchor c c.placement.fileOffset } rfl hb
      cases folder with
      | none => exact h.feedAnchor (h.noteChange hcreated (.created title) _) c _
      | some folder => exact h.file (h.noteChange hcreated (.created title) _) c _ folder
  | move n folder =>
      have hdetached := h.detach hb c n.id
      cases folder with
      | none => exact h.noteChange hdetached _ _
      | some folder =>
          exact h.noteChange (h.wire _ n _ Role.files (h.ensureFolder hdetached _ _)) _ _
  | rename n oldTitle newTitle => exact h.noteChange (h.setTitle b n.id newTitle hb) _ _
  | delete n title => exact h.note (h.remove b n.id hb) _
  | place source folder => exact h.noteChange (h.putInto hb c source folder) _ _
  | importInto source target =>
      have hwired := h.wire b source target Role.imports hb
      simp only [Batch.perform]
      split
      · exact h.noteChange hwired _ _
      · exact h.note hwired _

theorem apply {b : Batch} (hb : P b) (c : BatchContext) (command : Command) :
    P (b.apply c command) := by
  unfold Batch.apply
  split
  · exact h.perform hb c _
  · exact h.note hb _

theorem applyCall {b : Batch} (hb : P b) (c : BatchContext) (call : Value) :
    P (b.applyCall c call) := by
  unfold Batch.applyCall
  split
  · exact h.apply hb c _
  · exact h.note hb _

theorem applyCalls {b : Batch} (hb : P b) (c : BatchContext) (calls : List Value) :
    P (calls.foldl (fun b call => b.applyCall c call) b) := by
  induction calls generalizing b with
  | nil => exact hb
  | cons call calls ih => exact ih (h.applyCall hb c call)

end Keeps

namespace Keeps

/-- What is nothing about the batch is kept. -/
theorem const (p : Prop) : Keeps fun _ => p where
  report _ _ _ _ h := h
  add _ _ _ h := h
  remove _ _ h := h
  wire _ _ _ _ h := h
  disconnect _ _ h := h
  setContent _ _ _ h := h
  setTitle _ _ _ h := h

theorem and {P Q : Batch → Prop} (hP : Keeps P) (hQ : Keeps Q) : Keeps fun b => P b ∧ Q b where
  report b report a hreport h :=
    ⟨hP.report b report a hreport h.1, hQ.report b report a hreport h.2⟩
  add b request hid h := ⟨hP.add b request hid h.1, hQ.add b request hid h.2⟩
  remove b id h := ⟨hP.remove b id h.1, hQ.remove b id h.2⟩
  wire b source target role h :=
    ⟨hP.wire b source target role h.1, hQ.wire b source target role h.2⟩
  disconnect b name h := ⟨hP.disconnect b name h.1, hQ.disconnect b name h.2⟩
  setContent b id content h := ⟨hP.setContent b id content h.1, hQ.setContent b id content h.2⟩
  setTitle b id title h := ⟨hP.setTitle b id title h.1, hQ.setTitle b id title h.2⟩

theorem congr {P Q : Batch → Prop} (h : Keeps P) (hiff : ∀ b, P b ↔ Q b) : Keeps Q := by
  have hsame : P = Q := funext fun b => propext (hiff b)
  rwa [← hsame]

end Keeps

/-- For a property of the graph alone there are six edits to look at. -/
theorem Keeps.ofGraph {Q : Graph → Prop} (add : ∀ g n, Q g → Q (g.addNode n))
    (remove : ∀ g id, Q g → Q (g.removeNode id)) (connect : ∀ g c, Q g → Q (g.connect c))
    (disconnect : ∀ g name, Q g → Q (g.disconnect name))
    (setContent : ∀ g id content, Q g → Q (g.setContent id content))
    (setTitle : ∀ g id title, Q g → Q (g.setTitle id title)) : Keeps fun b => Q b.graph where
  report _ _ _ _ h := h
  add _ _ _ h := add _ _ h
  remove _ _ h := remove _ _ h
  wire b source target role h := by
    unfold Batch.wire
    split
    · exact h
    · exact connect _ _ h
  disconnect _ _ h := disconnect _ _ h
  setContent _ _ _ h := setContent _ _ _ h
  setTitle _ _ _ h := setTitle _ _ _ h

/-- A line that was reported stays reported. -/
theorem keeps_reported (a : Annotation) : Keeps fun b => a ∈ b.report.annotations where
  report b report line hreport h := by
    show a ∈ report.annotations
    rw [hreport]
    exact List.mem_append_left [line] h
  add _ _ _ h := h
  remove _ _ h := h
  wire b source target role h := by
    unfold Batch.wire
    split
    · exact h
    · exact h
  disconnect _ _ h := h
  setContent _ _ _ h := h
  setTitle _ _ _ h := h

end Batch
end LiveCanvas
