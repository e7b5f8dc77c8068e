import LiveCanvas.CommandLine.Run
import LiveCanvas.Proofs.Json.RoundTrip
import LiveCanvas.Proofs.Edit.Errors

/-!
# How the applying of a batch ends

A run that applies a batch ends with code 0 when every call was carried out, and with code 1 when
one was refused.  Whether one was refused is taken from the lines that read as errors, so the code
is also 1 when a line is misread.
-/

namespace LiveCanvas
namespace CommandLine

/-! ## Files -/

section Files

variable {disk : Disk} {path : DiskPath}

theorem readValue_write {v : Value} (hv : v.IsTextual) (hsame : v.reread = v)
    (hread : disk.read path = .ok (Json.write Json.tight v)) : readValue disk path = .ok v := by
  have hvalue : GraphFile.readValue path.text (Json.write Json.tight v) = .ok v := by
    rw [GraphFile.readValue, Json.read_write Json.isReadable_tight hv, hsame]
  rw [readValue, readFile, hread]
  show ofData (GraphFile.readValue path.text (Json.write Json.tight v)) = _
  rw [hvalue]
  rfl

/-- A graph without a `state` is read as it is. -/
theorem readGraph_write {fields : Fields Value} {g : Graph} (hv : (Value.object fields).IsTextual)
    (hsame : (Value.object fields).reread = .object fields) (hstate : fields.get? "state" = none)
    (hload : Graph.ofValue (.object fields) = .ok g)
    (hread : disk.read path = .ok (Json.write Json.tight (.object fields))) :
    readGraph disk path = .ok g := by
  have hwhole : GraphFile.unwrap path.text (.object fields) = .ok (.object fields) := by
    rw [GraphFile.unwrap, hstate]
  rw [readGraph, readFile, hread]
  show ofData (GraphFile.load path.text (Json.write Json.tight (.object fields))) = _
  rw [GraphFile.load, GraphFile.readValue, Json.read_write Json.isReadable_tight hv, hsame]
  show ofData (GraphFile.unwrap path.text (.object fields) >>= Graph.ofValue) = _
  rw [hwhole]
  show ofData (Graph.ofValue (.object fields)) = _
  rw [hload]
  rfl

end Files

/-! ## Applying a batch -/

/-- A run whose files can be read, and written if it is to write, applies the batch. -/
theorem Job.run_apply {disk : Disk} (settings : Settings) {run : RunSetting}
    {graph batch : DiskPath} {anchor identity : Option Text} {write : Bool} {g : Graph}
    {calls : List Value} {written : List (DiskPath × Text)}
    (hgraph : readGraph disk graph = .ok g)
    (hcalls : (readValue disk batch).bind callsOf = .ok calls)
    (hsaved : saved disk write graph (runBatch ⟨anchor, fun g => g.permits identity,
      settings.placement⟩ g run.ids calls).graph = .ok written) :
    (Job.apply graph batch anchor identity write).run disk settings run =
      let report := (runBatch ⟨anchor, fun g => g.permits identity, settings.placement⟩ g run.ids
        calls).report
      (putOut (report.transcript ++ "\n")).map fun output =>
        { exitCode := if report.errors.isEmpty then 0 else 1, output, written } := by
  simp only [Job.run, hgraph, hcalls]
  show Except.bind (putOut _) _ = _
  cases putOut ((runBatch ⟨anchor, fun g => g.permits identity, settings.placement⟩ g run.ids
    calls).report.transcript ++ "\n") with
  | error stopped => rfl
  | ok output =>
      show Except.bind ((saved disk write graph _).mapError _) _ = _
      rw [hsaved]
      rfl

/-- A text and a line end can be put out if the text can. -/
theorem putOut_line (text : Text) :
    putOut (text ++ "\n") = if text.isEncodable then .ok (text ++ "\n")
      else .error { fault := .misuse .unencodable } := by
  have hline : (text ++ "\n").isEncodable = text.isEncodable := by
    simp [Text.isEncodable, Rune.isChar]
  rw [putOut, hline]

/-- The errors of a batch are the lines of its refusals and the lines that are misread, in order; so
they are the refusals of its calls, one after the other, just if no line is misread.  A run that
applies a batch ends with code 0 just if no call was refused and no line is misread, and else with
code 1.  When there are halves in the lines, they cannot be put out and the run breaks off. -/
theorem errors_eq_refusals_iff_misread (setting : BatchSetting) (g : Graph) (ids : IdSource)
    (calls : List Value) :
    let after := runBatch setting g ids calls
    let report := after.report
    let refusals := (Batch.start g ids).refusals (setting.context g) calls
    report.annotations.filter Annotation.isRefusal = refusals.map Annotation.refused ∧
      report.errors =
        (report.annotations.filter fun a => a.isRefusal || a.isMisread).map Annotation.text ∧
      (report.errors = refusals.map (fun refusal => Annotation.text (.refused refusal)) ↔
        ∀ a ∈ report.annotations, a.isMisread = false) ∧
      ∀ (disk : Disk) (settings : Settings) (run : RunSetting) (graph batch : DiskPath)
        (anchor identity : Option Text) (write : Bool) (written : List (DiskPath × Text)),
        setting = ⟨anchor, fun g => g.permits identity, settings.placement⟩ → ids = run.ids →
        readGraph disk graph = .ok g → (readValue disk batch).bind callsOf = .ok calls →
        saved disk write graph after.graph = .ok written →
        if report.transcript.isEncodable then
          ∃ ending,
            (Job.apply graph batch anchor identity write).run disk settings run = .ok ending ∧
            ending.exitCode =
              if refusals = [] ∧ ∀ a ∈ report.annotations, a.isMisread = false then 0 else 1
        else (Job.apply graph batch anchor identity write).run disk settings run =
          .error { fault := .misuse .unencodable } := by
  intro after report refusals
  have htold := Batch.filter_isRefusal_runBatch setting g ids calls
  refine ⟨htold, report.errors_eq, BatchReport.errors_eq_refusals_iff htold, ?_⟩
  rintro disk settings run graph batch anchor identity write written rfl rfl hgraph hcalls hsaved
  have hrun := Job.run_apply settings hgraph hcalls hsaved
  simp only [putOut_line] at hrun
  split
  · next hencodable =>
      rw [if_pos hencodable] at hrun
      refine ⟨_, hrun, ?_⟩
      have hnone := List.isEmpty_iff.trans (BatchReport.errors_eq_nil_iff htold)
      exact ite_congr (propext hnone) (fun _ => rfl) fun _ => rfl
  · next hhalves =>
      rw [if_neg hhalves] at hrun
      exact hrun

/-- One call connects two files, and the other is about a file that is not there. -/
theorem errors_eq_refusals_iff_misread_missing :
    let node (id title : Text) : Value :=
      .object [("id", .text id), ("type", .text "CODE"), ("title", .text title)]
    let stored : Fields Value := [("nodes", .list [node "a" "a.js", node "b" "b.js"])]
    let call (name : Text) (arguments : List (Text × Value)) : Value :=
      .object [("name", .text name), ("args", .object arguments)]
    let calls := [call "deleteFile" [("filename", .text "c.js")],
      call "connectFiles" [("sourceFilename", .text "a.js"), ("targetFilename", .text "b.js")]]
    let disk : Disk := .ofFiles [("g.json", Json.write Json.tight (.object stored)),
      ("b.json", Json.write Json.tight (.list calls))]
    let run : RunSetting := { env := [], usage := "", reload := "" }
    let g : Graph := { nodes := [{ id := "a", kind := .code, title := "a.js" },
      { id := "b", kind := .code, title := "b.js" }] }
    let setting : BatchSetting := ⟨none, fun g => g.permits none, {}⟩
    readGraph disk (.ofText "g.json") = .ok g ∧
      (readValue disk (.ofText "b.json")).bind callsOf = .ok calls ∧
      (runBatch setting g {} calls).report.errors =
        ["[Error: Could not find c.js]"].map Text.ofString ∧
      ∃ ending, (Job.apply (.ofText "g.json") (.ofText "b.json") none none false).run disk {}
        run = .ok ending ∧ ending.exitCode = 1 := by
  intro node stored call calls disk run g setting
  have hgraph : readGraph disk (.ofText "g.json") = .ok g := by
    refine readGraph_write ?_ rfl rfl rfl rfl
    simp [stored, node, Value.IsTextual, ItemsTextual, FieldsTextual]
  have hvalue : readValue disk (.ofText "b.json") = .ok (.list calls) := by
    refine readValue_write ?_ rfl rfl
    simp [calls, call, Value.IsTextual, ItemsTextual, FieldsTextual]
  have hcalls : (readValue disk (.ofText "b.json")).bind callsOf = .ok calls := by
    rw [hvalue]
    rfl
  obtain ⟨-, -, herrors, hcode⟩ := errors_eq_refusals_iff_misread setting g {} calls
  have hencodable : (runBatch setting g {} calls).report.transcript.isEncodable = true := by
    decide +kernel
  have hend := hcode disk {} run (.ofText "g.json") (.ofText "b.json") none none false [] rfl
    rfl hgraph hcalls rfl
  rw [if_pos hencodable] at hend
  obtain ⟨ending, hrun, hexit⟩ := hend
  refine ⟨hgraph, hcalls, ?_, ending, hrun, ?_⟩
  · rw [herrors.2 (by decide +kernel)]
    decide +kernel
  · rw [hexit]
    decide +kernel

/-- A file whose title begins with the mark of an error is connected twice.  No call is refused, and
yet there is an error and the run ends with code 1. -/
theorem exitCode_of_misread :
    let node (id title : Text) : Value :=
      .object [("id", .text id), ("type", .text "CODE"), ("title", .text title)]
    let stored : Value := .object [("nodes", .list [node "a" "ErrorBoundary.js", node "b" "b.js"])]
    let call : Value := .object [("name", .text "connectFiles"), ("args", .object
      [("sourceFilename", .text "ErrorBoundary.js"), ("targetFilename", .text "b.js")])]
    let disk : Disk := .ofFiles [("g.json", Json.write Json.tight stored),
      ("b.json", Json.write Json.tight (.list [call, call]))]
    let told (g : Graph) := ((Batch.start g {}).refusals (BatchSetting.context {} g) [call, call],
      (runBatch {} g {} [call, call]).report.errors)
    (readGraph disk (.ofText "g.json")).toOption.map told =
        some ([], ["[ErrorBoundary.js is already connected to b.js]"].map Text.ofString) ∧
      (run disk { env := [], usage := "", reload := "" } ["apply", "g.json", "b.json"]).toOption.map
        Ending.exitCode = some 1 := by
  intro node stored call disk told
  constructor
  · decide +kernel
  · decide +kernel

end CommandLine
end LiveCanvas
