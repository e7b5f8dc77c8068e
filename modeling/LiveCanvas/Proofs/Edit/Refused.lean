import LiveCanvas.Proofs.Edit.Kept

/-!
# Refused calls

A call of a batch is either carried out, and then reports at least one line and no refusal, or it is
refused, and then one line is all that comes of it.  What is carried out never looks at the report.
So a batch without its refused calls is the same batch with the refusals left out of its report.
-/

namespace LiveCanvas

/-- The line tells of a refusal. -/
def Annotation.isRefusal : Annotation → Bool
  | refused _ => true
  | _ => false

/-- The report with the refusals left out. -/
def BatchReport.withoutRefusals (r : BatchReport) : BatchReport :=
  { r with annotations := r.annotations.filter fun a => !a.isRefusal }

namespace Batch

/-- Why a call is refused, if it is. -/
def refusal? (b : Batch) (c : BatchContext) (call : Value) : Option Refusal :=
  match Command.ofCall call with
  | .error e => some (.invalid e)
  | .ok command =>
    match b.decide c command with
    | .error refusal => some refusal
    | .ok _ => none

/-- The calls of a list that are carried out. -/
def carriedOut (b : Batch) (c : BatchContext) : List Value → List Value
  | [] => []
  | call :: calls =>
    let rest := (b.applyCall c call).carriedOut c calls
    if (b.refusal? c call).isSome then rest else call :: rest

theorem applyCall_of_refused {b : Batch} {c : BatchContext} {call : Value} {refusal : Refusal}
    (h : b.refusal? c call = some refusal) : b.applyCall c call = b.note (.refused refusal) := by
  unfold refusal? at h
  unfold applyCall
  split at h
  · next hcall =>
      rw [Option.some.injEq] at h
      rw [hcall, ← h]
  · next command hcall =>
      rw [hcall]
      split at h
      · next hdecide =>
          rw [Option.some.injEq] at h
          show b.apply c command = _
          unfold apply
          rw [hdecide, h]
      · cases h

/-- A call that is not refused comes to an action. -/
theorem exists_applyCall_eq_perform {b : Batch} {c : BatchContext} {call : Value}
    (h : b.refusal? c call = none) :
    ∃ command action, Command.ofCall call = .ok command ∧ b.decide c command = .ok action ∧
      b.applyCall c call = b.perform c action := by
  unfold refusal? at h
  unfold applyCall
  split at h
  · cases h
  · next command hcall =>
      rw [hcall]
      split at h
      · cases h
      · next action hdecide =>
          refine ⟨command, action, rfl, hdecide, ?_⟩
          show b.apply c command = _
          unfold apply
          rw [hdecide]

/-! ## What an action reports -/

/-- More is reported, and no refusal. -/
def Reports (b b' : Batch) : Prop :=
  ∃ lines, b'.report.annotations = b.report.annotations ++ lines ∧
    ∀ a ∈ lines, a.isRefusal = false

namespace Reports

variable {b b' b'' : Batch}

theorem of_eq (h : b'.report.annotations = b.report.annotations) : b.Reports b' :=
  ⟨[], by rw [h, List.append_nil], by simp⟩

theorem of_eq_concat {a : Annotation} (ha : a.isRefusal = false)
    (h : b'.report.annotations = b.report.annotations ++ [a]) : b.Reports b' :=
  ⟨[a], h, by simpa using ha⟩

theorem trans (h : b.Reports b') (h' : b'.Reports b'') : b.Reports b'' := by
  obtain ⟨lines, hlines, hnone⟩ := h
  obtain ⟨lines', hlines', hnone'⟩ := h'
  refine ⟨lines ++ lines', by rw [hlines', hlines, List.append_assoc], ?_⟩
  intro a ha
  exact (List.mem_append.1 ha).elim (hnone a) (hnone' a)

end Reports

@[simp] theorem report_wire (b : Batch) (source target : Node) (role : Role) :
    (b.wire source target role).2.report = b.report := by
  unfold wire
  split
  · rfl
  · rfl

@[simp] theorem report_putInto (b : Batch) (c : BatchContext) (n folder : Node) :
    (b.putInto c n folder).report = b.report :=
  report_wire _ _ _ _

@[simp] theorem report_linkAnchor (b : Batch) (c : BatchContext) (file folder : Node) :
    (b.linkAnchor c file folder).report = b.report := by
  unfold linkAnchor
  split
  · split
    · rfl
    · exact report_wire _ _ _ _
  · rfl

@[simp] theorem report_feedAnchor (b : Batch) (c : BatchContext) (n : Node) :
    (b.feedAnchor c n).report = b.report := by
  unfold feedAnchor
  split
  · exact report_wire _ _ _ _
  · rfl

theorem reports_ensureFolder (b : Batch) (title : Text) (position : Position) :
    b.Reports (b.ensureFolder title position).2 := by
  unfold ensureFolder
  split
  · exact .of_eq rfl
  · exact .of_eq_concat (a := .createdFolder title) rfl rfl

theorem reports_file (b : Batch) (c : BatchContext) (n : Node) (folder : Text) :
    b.Reports (b.file c n folder) := by
  let position := b.nearAnchor c c.placement.folderOffset
  let target := (b.ensureFolder folder position).1
  have hfolder := reports_ensureFolder b folder position
  have hput : (b.file c n folder).report.annotations =
      (b.ensureFolder folder position).2.report.annotations ++ [.wired n.title target.title] := by
    simp only [file, report_linkAnchor, noteChange, BatchReport.noteChange, report_putInto]
    rfl
  exact hfolder.trans (.of_eq_concat rfl hput)

/-- Somewhere along an action a line is reported that is no refusal, and neither is any other. -/
theorem exists_reports_perform (b : Batch) (c : BatchContext) (action : Action) :
    ∃ (before : Batch) (a : Annotation) (after : Batch), b.Reports before ∧ a.isRefusal = false ∧
      after.report.annotations = before.report.annotations ++ [a] ∧
      after.Reports (b.perform c action) := by
  cases action with
  | overwrite n content folder =>
      let written :=
        (b.onGraph fun g => g.setContent n.id content).noteChange (.updated n.title) n.id
      refine ⟨b, .updated n.title, written, .of_eq rfl, rfl, rfl, ?_⟩
      cases folder with
      | none => exact .of_eq rfl
      | some folder => exact reports_file written c n folder
  | create title content folder =>
      let request : NodeRequest :=
        { kind := .code, title := some title, content := some content
          position := b.nearAnchor c c.placement.fileOffset }
      let made := (b.add request).2.noteChange (.created title) (b.add request).1.id
      refine ⟨b, .created title, made, .of_eq rfl, rfl, rfl, ?_⟩
      cases folder with
      | none => exact .of_eq (congrArg _ (report_feedAnchor made c _))
      | some folder => exact reports_file made c _ folder
  | move n folder =>
      cases folder with
      | none => exact ⟨b, .moved n.title none, _, .of_eq rfl, rfl, rfl, .of_eq rfl⟩
      | some title =>
          let offset := c.placement.moveFolderOffset
          let placed := (b.detach c n.id).ensureFolder title (n.position.offset offset.x offset.y)
          have hplaced : b.Reports placed.2 := reports_ensureFolder (b.detach c n.id) title _
          have hwired := hplaced.trans (.of_eq (congrArg _ (report_wire _ n placed.1 Role.files)))
          exact ⟨_, .moved n.title (some placed.1.title), _, hwired, rfl, rfl, .of_eq rfl⟩
  | rename n oldTitle newTitle =>
      exact ⟨b, .renamed oldTitle newTitle, _, .of_eq rfl, rfl, rfl, .of_eq rfl⟩
  | delete n title => exact ⟨b, .deleted title, _, .of_eq rfl, rfl, rfl, .of_eq rfl⟩
  | place source folder =>
      have hput : b.Reports (b.putInto c source folder) :=
        .of_eq (congrArg _ (report_putInto b c source folder))
      exact ⟨_, .wired source.title folder.title, _, hput, rfl, rfl, .of_eq rfl⟩
  | importInto source target =>
      have hwired : b.Reports (b.wire source target Role.imports).2 :=
        .of_eq (congrArg _ (report_wire b source target Role.imports))
      simp only [perform]
      split
      · exact ⟨_, .connected source.title target.title, _, hwired, rfl, rfl, .of_eq rfl⟩
      · exact ⟨_, .alreadyConnected source.title target.title, _, hwired, rfl, rfl, .of_eq rfl⟩

/-- An action reports at least one line. -/
theorem exists_lines_perform (b : Batch) (c : BatchContext) (action : Action) :
    ∃ lines, lines ≠ [] ∧ (b.perform c action).report.annotations = b.report.annotations ++ lines ∧
      ∀ a ∈ lines, a.isRefusal = false := by
  obtain ⟨before, a, after, ⟨earlier, hearlier, hnone⟩, ha, hline, ⟨later, hlater, hnone'⟩⟩ :=
    exists_reports_perform b c action
  refine ⟨earlier ++ a :: later, by simp, by rw [hlater, hline, hearlier]; simp, ?_⟩
  intro line hmem
  obtain hmem | hmem := List.mem_append.1 hmem
  · exact hnone line hmem
  · obtain rfl | hmem := List.mem_cons.1 hmem
    · exact ha
    · exact hnone' line hmem

/-! ## Leaving refusals out of the report -/

/-- The batch with the refusals left out of its report. -/
def withoutRefusals (b : Batch) : Batch :=
  { b with report := b.report.withoutRefusals }

section WithoutRefusals

variable (b : Batch) (c : BatchContext)

theorem withoutRefusals_note {a : Annotation} (h : a.isRefusal = false) :
    (b.note a).withoutRefusals = b.withoutRefusals.note a := by
  simp [withoutRefusals, note, BatchReport.withoutRefusals, BatchReport.note, h]

theorem withoutRefusals_noteChange {a : Annotation} (h : a.isRefusal = false) (id : NodeId) :
    (b.noteChange a id).withoutRefusals = b.withoutRefusals.noteChange a id := by
  simp [withoutRefusals, noteChange, BatchReport.withoutRefusals, BatchReport.noteChange, h]

theorem withoutRefusals_refused (refusal : Refusal) :
    (b.note (.refused refusal)).withoutRefusals = b.withoutRefusals := by
  simp [withoutRefusals, note, BatchReport.withoutRefusals, BatchReport.note, Annotation.isRefusal]

theorem add_withoutRefusals (request : NodeRequest) :
    b.withoutRefusals.add request = ((b.add request).1, (b.add request).2.withoutRefusals) := rfl

theorem wire_withoutRefusals (source target : Node) (role : Role) :
    b.withoutRefusals.wire source target role =
      ((b.wire source target role).1, (b.wire source target role).2.withoutRefusals) := by
  unfold wire
  split
  · rfl
  · rfl

theorem ensureFolder_withoutRefusals (title : Text) (position : Position) :
    b.withoutRefusals.ensureFolder title position =
      ((b.ensureFolder title position).1, (b.ensureFolder title position).2.withoutRefusals) := by
  have hfind : b.withoutRefusals.find? title [.folder] = b.find? title [.folder] := rfl
  unfold ensureFolder
  rw [hfind]
  cases b.find? title [.folder] with
  | some folder => rfl
  | none =>
      dsimp only
      rw [withoutRefusals_noteChange _ rfl]
      rfl

theorem putInto_withoutRefusals (n folder : Node) :
    b.withoutRefusals.putInto c n folder = (b.putInto c n folder).withoutRefusals :=
  congrArg Prod.snd (wire_withoutRefusals (b.detach c n.id) n folder Role.files)

theorem linkAnchor_withoutRefusals (file folder : Node) :
    b.withoutRefusals.linkAnchor c file folder = (b.linkAnchor c file folder).withoutRefusals := by
  have hanchor : b.withoutRefusals.codeAnchor? c = b.codeAnchor? c := rfl
  unfold linkAnchor
  rw [hanchor]
  split
  · split
    · rfl
    · rw [wire_withoutRefusals]
  · rfl

theorem feedAnchor_withoutRefusals (n : Node) :
    b.withoutRefusals.feedAnchor c n = (b.feedAnchor c n).withoutRefusals := by
  have hanchor : b.withoutRefusals.codeAnchor? c = b.codeAnchor? c := rfl
  unfold feedAnchor
  rw [hanchor]
  split
  · rw [wire_withoutRefusals]
  · rfl

theorem file_withoutRefusals (n : Node) (folder : Text) :
    b.withoutRefusals.file c n folder = (b.file c n folder).withoutRefusals := by
  have hnear : b.withoutRefusals.nearAnchor c c.placement.folderOffset =
      b.nearAnchor c c.placement.folderOffset := rfl
  simp only [file]
  rw [hnear, ensureFolder_withoutRefusals, putInto_withoutRefusals,
    ← withoutRefusals_noteChange _ rfl, linkAnchor_withoutRefusals]

/-- An action does the same whatever was refused before. -/
theorem perform_withoutRefusals (action : Action) :
    b.withoutRefusals.perform c action = (b.perform c action).withoutRefusals := by
  cases action with
  | overwrite n content folder =>
      let written := b.onGraph fun g => g.setContent n.id content
      have hwritten := withoutRefusals_noteChange written (a := .updated n.title) rfl n.id
      cases folder with
      | none => exact hwritten.symm
      | some folder =>
          refine Eq.trans ?_ (file_withoutRefusals (written.noteChange (.updated n.title) n.id) c n
            folder)
          rw [hwritten]
          rfl
  | create title content folder =>
      have hnear : b.withoutRefusals.nearAnchor c c.placement.fileOffset =
          b.nearAnchor c c.placement.fileOffset := rfl
      cases folder with
      | none =>
          simp only [perform]
          rw [hnear, add_withoutRefusals, ← withoutRefusals_noteChange _ rfl,
            feedAnchor_withoutRefusals]
      | some folder =>
          simp only [perform]
          rw [hnear, add_withoutRefusals, ← withoutRefusals_noteChange _ rfl, file_withoutRefusals]
  | move n folder =>
      cases folder with
      | none => exact (withoutRefusals_noteChange (b.detach c n.id) rfl n.id).symm
      | some title =>
          have hdetach : b.withoutRefusals.detach c n.id = (b.detach c n.id).withoutRefusals := rfl
          simp only [perform]
          rw [hdetach, ensureFolder_withoutRefusals, wire_withoutRefusals,
            withoutRefusals_noteChange _ rfl]
  | rename n oldTitle newTitle =>
      let renamed := b.onGraph fun g => g.setTitle n.id newTitle
      exact (withoutRefusals_noteChange renamed (a := .renamed oldTitle newTitle) rfl n.id).symm
  | delete n title => exact (withoutRefusals_note (b.remove n.id) (a := .deleted title) rfl).symm
  | place source folder =>
      simp only [perform]
      rw [putInto_withoutRefusals, withoutRefusals_noteChange _ rfl]
  | importInto source target =>
      simp only [perform]
      rw [wire_withoutRefusals]
      cases (b.wire source target Role.imports).1 with
      | true => exact (withoutRefusals_noteChange _ rfl _).symm
      | false => exact (withoutRefusals_note _ rfl).symm

/-- A call that is carried out does the same whatever was refused before, and one that is refused
makes no difference. -/
theorem withoutRefusals_applyCall (call : Value) :
    (b.applyCall c call).withoutRefusals =
      if (b.refusal? c call).isSome then b.withoutRefusals
      else b.withoutRefusals.applyCall c call := by
  cases h : b.refusal? c call with
  | some refusal =>
      rw [applyCall_of_refused h]
      exact withoutRefusals_refused b refusal
  | none =>
      obtain ⟨command, action, hcall, hdecide, hperform⟩ := exists_applyCall_eq_perform h
      have hsame : b.withoutRefusals.applyCall c call = b.withoutRefusals.perform c action := by
        rw [applyCall, hcall]
        show b.withoutRefusals.apply c command = _
        unfold apply
        rw [show b.withoutRefusals.decide c command = b.decide c command from rfl, hdecide]
      rw [hperform, ← perform_withoutRefusals, ← hsame]
      rfl

/-- The calls that are carried out lead to the same batch without the refusals. -/
theorem foldl_carriedOut (calls : List Value) :
    (b.carriedOut c calls).foldl (fun b call => b.applyCall c call) b.withoutRefusals =
      (calls.foldl (fun b call => b.applyCall c call) b).withoutRefusals := by
  induction calls generalizing b with
  | nil => rfl
  | cons call calls ih =>
      have hstep := withoutRefusals_applyCall b c call
      rw [List.foldl_cons, ← ih (b.applyCall c call), hstep, carriedOut]
      split
      · rfl
      · rfl

end WithoutRefusals

end Batch

/-! ## Whole batches -/

/-- What stays the same during a batch on a graph. -/
def BatchSetting.context (setting : BatchSetting) (g : Graph) : BatchContext :=
  ⟨g.connections, setting.anchor, setting.permits, setting.placement⟩

theorem runBatch_concat (setting : BatchSetting) (g : Graph) (ids : IdSource)
    (earlier : List Value) (call : Value) :
    runBatch setting g ids (earlier ++ [call]) =
      (runBatch setting g ids earlier).applyCall (setting.context g) call := by
  rw [runBatch, List.foldl_append]
  rfl

/-- A batch of one call carries out what the call comes to. -/
theorem runBatch_singleton {setting : BatchSetting} {g : Graph} {ids : IdSource} {call : Value}
    {command : Command} {action : Action} (hcall : Command.ofCall call = .ok command)
    (hdecide : (Batch.start g ids).decide (setting.context g) command = .ok action) :
    runBatch setting g ids [call] = (Batch.start g ids).perform (setting.context g) action := by
  show (Batch.start g ids).applyCall (setting.context g) call = _
  rw [Batch.applyCall, hcall]
  show (Batch.start g ids).apply (setting.context g) command = _
  rw [Batch.apply, hdecide]

/-- Every call of a batch adds to the report.  One that is refused adds the refusal and changes
nothing else, and without the refused calls the batch ends the same, up to the refusals. -/
theorem runBatch_carriedOut (setting : BatchSetting) (g : Graph) (ids : IdSource)
    (calls : List Value) :
    (∀ earlier call,
      let before := runBatch setting g ids earlier
      let after := runBatch setting g ids (earlier ++ [call])
      ∃ lines, lines ≠ [] ∧ after.report.annotations = before.report.annotations ++ lines ∧
        (before.refusal? (setting.context g) call = none → ∀ a ∈ lines, a.isRefusal = false) ∧
        ∀ refusal, before.refusal? (setting.context g) call = some refusal →
          lines = [.refused refusal] ∧ after.report.touched = before.report.touched ∧
            after.report.highlighted = before.report.highlighted ∧ after.graph = before.graph) ∧
    runBatch setting g ids ((Batch.start g ids).carriedOut (setting.context g) calls) =
      (runBatch setting g ids calls).withoutRefusals := by
  refine ⟨fun earlier call => ?_, (Batch.start g ids).foldl_carriedOut (setting.context g) calls⟩
  dsimp only
  rw [runBatch_concat]
  cases hrefusal : (runBatch setting g ids earlier).refusal? (setting.context g) call with
  | some refusal =>
      rw [Batch.applyCall_of_refused hrefusal]
      refine ⟨[.refused refusal], by simp, rfl, by simp, ?_⟩
      intro refusal' hsame
      rw [Option.some.injEq] at hsame
      rw [hsame]
      exact ⟨rfl, rfl, rfl, rfl⟩
  | none =>
      obtain ⟨command, action, -, -, hperform⟩ := Batch.exists_applyCall_eq_perform hrefusal
      obtain ⟨lines, hlines, hreport, hnone⟩ := Batch.exists_lines_perform
        (runBatch setting g ids earlier) (setting.context g) action
      rw [hperform]
      exact ⟨lines, hlines, hreport, fun _ => hnone, by simp⟩

/-- A call that is none, a locked file, and a file that is missing once it is renamed. -/
theorem runBatch_carriedOut_locked :
    let g := Graph.build
      [{ id := "a", kind := .code, title := "a.js", lock := some (.text "bob") },
        { id := "b", kind := .code, title := "b.js" }] []
    let setting : BatchSetting := { permits := fun g id => g.permits (some "ada") id }
    let call (name : Text) (arguments : List (Text × Value)) : Value :=
      .object [("name", .text name), ("args", .object arguments)]
    let rename := call "renameFile" [("oldName", .text "b.js"), ("newName", .text "c.js")]
    let write := call "updateFile" [("filename", .text "a.js"), ("code", .text "1")]
    let delete := call "deleteFile" [("filename", .text "b.js")]
    let before := runBatch setting g {} [rename]
    let after := runBatch setting g {} [rename, write]
    before.refusal? (setting.context g) write = some (.locked "a.js") ∧
      after.report.annotations = before.report.annotations ++ [.refused (.locked "a.js")] ∧
      after.graph = before.graph ∧
      (Batch.start g {}).carriedOut (setting.context g) [.null, rename, write, delete] = [rename] ∧
      runBatch setting g {} [rename] =
        (runBatch setting g {} [.null, rename, write, delete]).withoutRefusals := by
  intro g setting call rename write delete before after
  have hrefused : before.refusal? (setting.context g) write = some (.locked "a.js") := by
    decide +kernel
  have hkept : (Batch.start g {}).carriedOut (setting.context g) [.null, rename, write, delete] =
      [rename] := rfl
  obtain ⟨hcalls, hbatch⟩ := runBatch_carriedOut setting g {} [.null, rename, write, delete]
  obtain ⟨lines, -, hlines, -, hsome⟩ := hcalls [rename] write
  obtain ⟨rfl, -, -, hgraph⟩ := hsome _ hrefused
  rw [hkept] at hbatch
  exact ⟨hrefused, hlines, hgraph, hkept, hbatch⟩

end LiveCanvas
