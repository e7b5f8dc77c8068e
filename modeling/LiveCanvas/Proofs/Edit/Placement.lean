import LiveCanvas.Proofs.Edit.LiesIn
import LiveCanvas.Proofs.Edit.Refused
import Mathlib.Data.List.ReduceOption

/-!
# Where a batch puts a file

Taking a file out of where it is takes away connections from before the batch only.  So the first
placement of a file in a batch takes it out of where it lay, and every further one adds to what the
batch made: in the end the file lies in every folder in which the batch put it, in the order in
which it came there first, and in no other.  Its path goes through the first of them.
-/

namespace LiveCanvas

namespace Batch

variable {before : List Connection} {ids : IdSource} {b b' : Batch} {c : BatchContext}
  {changes : NodeId → Prop} {id : NodeId}

/-! ## The placements of a batch -/

/-- The file that a call puts somewhere, and the folder; none for the root. -/
def placementOf? (b : Batch) (c : BatchContext) (call : Value) :
    Option (NodeId × Option NodeId) :=
  match Command.ofCall call with
  | .error _ => none
  | .ok command =>
    match b.decide c command with
    | .error _ => none
    | .ok action => b.placement? action

/-- Where a placement puts a file, if it is about this one. -/
def placeIn (id : NodeId) : Option (NodeId × Option NodeId) → List (Option NodeId)
  | some (file, place) => if file = id then [place] else []
  | none => []

/-- The folders in which calls put a file, one after the other; none for the root. -/
def placesOf (b : Batch) (c : BatchContext) (id : NodeId) : List Value → List (Option NodeId)
  | [] => []
  | call :: calls => placeIn id (b.placementOf? c call) ++ (b.applyCall c call).placesOf c id calls

theorem placementOf?_of_refused {call : Value} {refusal : Refusal}
    (h : b.refusal? c call = some refusal) : b.placementOf? c call = none := by
  unfold refusal? at h
  unfold placementOf?
  cases hcall : Command.ofCall call with
  | error e => rfl
  | ok command =>
      rw [hcall] at h
      cases hdecide : b.decide c command with
      | error refusal => simp only [hdecide]
      | ok action =>
          simp only [hdecide] at h
          cases h

theorem placementOf?_of_decide {call : Value} {command : Command} {action : Action}
    (hcall : Command.ofCall call = .ok command) (hdecide : b.decide c command = .ok action) :
    b.placementOf? c call = b.placement? action := by
  rw [placementOf?, hcall]
  simp only [hdecide]

/-! ## One placement after the other -/

/-- What has come of the placements of a file so far. -/
structure Lying (before : List Connection) (ids : IdSource) (id : NodeId)
    (placed : List (Option NodeId)) (b : Batch) : Prop where
  regular : Regular before ids b
  untouched : placed = [] → ∀ e ∈ b.graph.folderEdges id, e ∈ before
  liesIn : placed ≠ [] → ∃ kind, LiesIn ids id kind placed.reduceOption.eraseDups b

namespace Lying

variable {placed : List (Option NodeId)}

theorem concat (hregular : Regular before ids b) {kind : Kind} {place : Option NodeId}
    (h : LiesIn ids id kind (placed ++ [place]).reduceOption.eraseDups b) :
    Lying before ids id (placed ++ [place]) b where
  regular := hregular
  untouched hnone := absurd hnone (by simp)
  liesIn _ := ⟨kind, h⟩

theorem wire_of_ne (h : Lying before ids id placed b) {source : Node} (hne : id ≠ source.id)
    (target : Node) (role : Role) :
    Lying before ids id placed (b.wire source target role).2 where
  regular := (keeps_regular before ids).wire b source target role h.regular
  untouched := by
    rw [folderEdges_wire_of_ne hne]
    exact h.untouched
  liesIn hplaced := (h.liesIn hplaced).imp fun _ hlies => hlies.wire_of_ne hne target role

theorem edits (h : Lying before ids id placed b) (hedits : Edits before changes b b') :
    Lying before ids id placed b' where
  regular := (keeps_regular before ids).edits hedits h.regular
  untouched hplaced e he :=
    h.untouched hplaced e (folderEdges_edits_subset hedits h.regular id he)
  liesIn hplaced := (h.liesIn hplaced).imp fun _ hlies => hlies.edits h.regular hedits

/-- Taken out of where it lay before the batch, a file lies where the batch has put it. -/
theorem detach (h : Lying c.before ids id placed b) {n : Node} (hn : n ∈ b.graph.nodes)
    (hid : n.id = id) : LiesIn ids id n.kind placed.reduceOption.eraseDups (b.detach c id) := by
  have hout : Edits c.before (Eq id) b (b.detach c id) := edits_detach rfl b
  have hknown : Known id n.kind b := hid ▸ h.regular.known hn
  by_cases hplaced : placed = []
  · have hnone : (b.detach c id).graph.folderEdges id = [] := by
      rw [List.eq_nil_iff_forall_not_mem]
      intro e he
      have hold := h.untouched hplaced e (folderEdges_edits_subset hout h.regular id he)
      exact notMem_before_of_mem_folderEdges_detach h.regular.tidy he hold
    refine ⟨(keeps_known id n.kind).edits hout hknown, fun _ _ => ?_⟩
    rw [hnone, hplaced]
    exact ⟨rfl, by simp⟩
  · obtain ⟨kind, hlies⟩ := h.liesIn hplaced
    rw [hlies.known.kind n hn hid]
    exact hlies.edits h.regular hout

theorem performs {placement : Option (NodeId × Option NodeId)} (h : Lying c.before ids id placed b)
    (hperforms : Performs c changes placement b b') :
    Lying c.before ids id (placed ++ placeIn id placement) b' := by
  cases hperforms with
  | nowhere edits =>
      rw [placeIn, List.append_nil]
      exact h.edits edits
  | @toRoot _ first _ file within live start finish =>
      have hfirst := h.edits start
      have hout : Edits c.before changes first (first.detach c file) := edits_detach within first
      rw [placeIn]
      by_cases hfile : file = id
      · subst hfile
        obtain ⟨n, hn, hid⟩ := mem_idsOf.1 live
        have hregular := (keeps_regular c.before ids).edits hout hfirst.regular
        have hlies := (hfirst.detach hn hid).edits hregular finish
        have hplaces : (placed ++ [none]).reduceOption = placed.reduceOption := by
          rw [List.reduceOption_append]
          exact List.append_nil _
        rw [if_pos rfl]
        exact concat ((keeps_regular c.before ids).edits finish hregular) (hplaces ▸ hlies)
      · rw [if_neg hfile, List.append_nil]
        exact (hfirst.edits hout).edits finish
  | @into _ first second _ source folder within live known isFolder start between finish =>
      have hfirst := h.edits start
      have hout : Edits c.before changes first (first.detach c source.id) :=
        edits_detach within first
      rw [placeIn]
      by_cases hfile : source.id = id
      · subst hfile
        obtain ⟨n, hn, hid, hkind⟩ := live
        have hkeeps := keeps_regular c.before ids
        have hdetached := hkeeps.edits hout hfirst.regular
        have hsecond := hkeeps.edits between hdetached
        have hwired := hkeeps.wire second source folder Role.files hsecond
        have hlies := (hfirst.detach hn hid).edits hdetached between
        rw [hsecond.tidy.nodes_eq] at known
        have hput := (hlies.put hsecond rfl hkind.symm known isFolder).edits hwired finish
        have hplaces : (placed ++ [some folder.id]).reduceOption =
            placed.reduceOption ++ [folder.id] := List.reduceOption_append _ _
        rw [if_pos rfl]
        exact concat (hkeeps.edits finish hwired) (hplaces ▸ hput)
      · rw [if_neg hfile, List.append_nil]
        have hsecond := (hfirst.edits hout).edits between
        exact (hsecond.wire_of_ne (Ne.symm hfile) folder Role.files).edits finish

theorem applyCall (h : Lying c.before ids id placed b) (call : Value) :
    Lying c.before ids id (placed ++ placeIn id (b.placementOf? c call)) (b.applyCall c call) := by
  cases hrefusal : b.refusal? c call with
  | some refusal =>
      rw [applyCall_of_refused hrefusal, placementOf?_of_refused hrefusal, placeIn, List.append_nil]
      have hnoted : Edits c.before (fun _ => False) b (b.note (.refused refusal)) := edits_note b _
      exact h.edits hnoted
  | none =>
      obtain ⟨command, action, hcall, hdecide, hperform⟩ := exists_applyCall_eq_perform hrefusal
      have hdecided := decided_of_decide h.regular.tidy hdecide
      rw [hperform, placementOf?_of_decide hcall hdecide]
      exact h.performs (Batch.performs h.regular.tidy c hdecided.known)

theorem applyCalls (h : Lying c.before ids id placed b) (calls : List Value) :
    Lying c.before ids id (placed ++ b.placesOf c id calls)
      (calls.foldl (fun b call => b.applyCall c call) b) := by
  induction calls generalizing b placed with
  | nil => simpa [placesOf] using h
  | cons call calls ih =>
      rw [placesOf, ← List.append_assoc]
      exact ih (h.applyCall call)

end Lying

theorem lying_runBatch {setting : BatchSetting} {g : Graph} (hsound : g.Sound)
    (hfresh : ids.FreshFor g)
    (hmade : ∀ e ∈ g.connections, ∀ node direction role, e.id ≠ Port.idOf node direction role)
    (id : NodeId) (calls : List Value) :
    Lying g.connections ids id ((start g ids).placesOf (setting.context g) id calls)
      (runBatch setting g ids calls) := by
  have hstart : Lying g.connections ids id [] (start g ids) :=
    ⟨regular_start hsound hfresh hmade, fun _ e he => (Graph.mem_folderEdges.1 he).1,
      fun h => absurd rfl h⟩
  exact hstart.applyCalls (c := setting.context g) calls

end Batch

/-! ## After the batch -/

namespace Path

/-- Only a connection that leads into a folder tells of one. -/
theorem map_id_filter_folder (g : Graph) (e : Connection) :
    ((nodeWithId? g.nodes e.target).filter (·.kind == .folder)).map (·.id) =
      if g.leadsIntoFolder e then some e.target else none := by
  rw [Graph.leadsIntoFolder]
  cases hlook : nodeWithId? g.nodes e.target with
  | none => rfl
  | some n =>
      have hid : n.id = e.target := by simpa using List.find?_some hlook
      rw [Option.filter_some, Option.any_some, ← hid]
      split <;> rfl

/-- With all its edges into folders in place, a node lies in the folder of the first one. -/
theorem folderOf_eq_of_folderEdges {g : Graph} {n : Node}
    (h : ∀ e ∈ g.folderEdges n.id, Port.matchesRole e.targetPort Role.files = true) :
    (folderOf n g.nodes g.connections).map (·.id) =
      ((g.folderEdges n.id).map (·.target)).head? := by
  have hfiled : (folderOf n g.nodes g.connections).map (·.id) =
      (g.connections.filterMap fun e =>
        if e.source == n.id && Port.matchesRole e.targetPort Role.files then
          if g.leadsIntoFolder e then some e.target else none
        else none).head? := by
    rw [folderOf, List.map_findSome?, ← List.head?_filterMap, List.filterMap_filter]
    simp only [Function.comp_def, map_id_filter_folder]
  have hedges : (g.folderEdges n.id).map (·.target) = g.connections.filterMap fun e =>
      if e.source == n.id && g.leadsIntoFolder e then some e.target else none := by
    rw [Graph.folderEdges, ← List.filterMap_eq_map, List.filterMap_filter]
    rfl
  rw [hfiled, hedges]
  refine congrArg List.head? (List.filterMap_congr fun e he => ?_)
  by_cases hedge : e.source == n.id && g.leadsIntoFolder e
  · have hport := h e (List.mem_filter.2 ⟨he, hedge⟩)
    obtain ⟨hsource, hleads⟩ := Bool.and_eq_true_iff.1 hedge
    simp [hsource, hleads, hport]
  · rw [if_neg hedge]
    split
    · next hfiled =>
        -- an edge of the node that leads somewhere else
        rw [(Bool.and_eq_true_iff.1 hfiled).1, Bool.true_and] at hedge
        exact if_neg hedge
    · rfl

end Path

/-- When only one place is ever named, or none, the first is the last. -/
theorem head?_reduceOption_of_last {places : List (Option NodeId)} {last : Option NodeId}
    (hlast : places.getLast? = some last)
    (hsame : ∀ place, some place ∈ places → last = some place) :
    places.reduceOption.head? = last := by
  have hall : ∀ place ∈ places.reduceOption, last = some place :=
    fun place hplace => hsame place (List.reduceOption_mem_iff.1 hplace)
  cases hplaces : places.reduceOption with
  | cons first rest => exact (hall first (hplaces ▸ List.mem_cons_self)).symm
  | nil =>
      have hnot : ∀ place, last ≠ some place := by
        rintro place rfl
        have hplace := List.reduceOption_mem_iff.2 (List.mem_of_getLast? hlast)
        rw [hplaces] at hplace
        cases hplace
      exact (Option.eq_none_iff_forall_ne_some.2 hnot).symm

/-- What a batch does to the place of a file: it lies in every folder in which the batch put it, in
that order, and in no other; its path goes through the first one. -/
theorem folderOf_eq_head?_placesOf {setting : BatchSetting} {g : Graph} {ids : IdSource}
    (hsound : g.Sound) (hfresh : ids.FreshFor g)
    (hmade : ∀ e ∈ g.connections, ∀ node direction role, e.id ≠ Port.idOf node direction role)
    (calls : List Value) {n : Node} (hn : n ∈ (runBatch setting g ids calls).graph.nodes)
    (hfile : n.isFile = true) {last : Option NodeId}
    (hlast : ((Batch.start g ids).placesOf (setting.context g) n.id calls).getLast? = some last) :
    let after := (runBatch setting g ids calls).graph
    let places := (Batch.start g ids).placesOf (setting.context g) n.id calls
    (Path.folderOf n after.nodes after.connections).map (·.id) = places.reduceOption.head? ∧
      (after.folderEdges n.id).map (·.target) = places.reduceOption.eraseDups ∧
      ((∀ folder, some folder ∈ places → last = some folder) →
        (Path.folderOf n after.nodes after.connections).map (·.id) = last ∧
          ∀ e ∈ after.folderEdges n.id, last = some e.target) := by
  intro after places
  have hlying : Batch.Lying g.connections ids n.id places (runBatch setting g ids calls) :=
    Batch.lying_runBatch hsound hfresh hmade n.id calls
  have hplaced : places ≠ [] := List.ne_nil_of_mem (List.mem_of_getLast? hlast)
  obtain ⟨kind, hlies⟩ := hlying.liesIn hplaced
  have hkind : n.kind = kind := hlies.known.kind n hn rfl
  obtain ⟨htargets, hputs⟩ := hlies.edges (mem_idsOf_of_mem hn) (hkind ▸ hfile)
  have hports : ∀ e ∈ after.folderEdges n.id, Port.matchesRole e.targetPort Role.files = true := by
    intro e he
    rw [(hputs e he).targetPort]
    exact Port.matchesRole_files _
  have hfolder : (Path.folderOf n after.nodes after.connections).map (·.id) =
      places.reduceOption.head? := by
    rw [Path.folderOf_eq_of_folderEdges hports, htargets]
    cases places.reduceOption with
    | nil => rfl
    | cons first rest => rw [List.eraseDups_cons]; rfl
  refine ⟨hfolder, htargets, fun hsame => ⟨?_, fun e he => ?_⟩⟩
  · rw [hfolder]
    exact head?_reduceOption_of_last hlast hsame
  · have htarget : e.target ∈ places.reduceOption := by
      rw [← List.mem_eraseDups, ← htargets]
      exact List.mem_map_of_mem he
    exact hsame e.target (List.reduceOption_mem_iff.1 htarget)

/-- A file that lay elsewhere is put into a folder, moved to the root and put there again. -/
theorem folderOf_eq_head?_placesOf_again :
    let code (id title : Text) : Node := { id, kind := .code, title }
    let folder (id title : Text) : Node := { id, kind := .folder, title }
    let g := Graph.build [code "a" "a.js", folder "f" "F", folder "g" "G"]
      [⟨"x", "a", "a-out-dom", "g", "g-in-files"⟩]
    let call (name : Text) (arguments : List (Text × Value)) : Value :=
      .object [("name", .text name), ("args", .object arguments)]
    let calls :=
      [call "updateFile" [("filename", .text "F/a.js"), ("code", .text "1")],
        call "moveFile" [("filename", .text "a.js")],
        call "connectFiles" [("sourceFilename", .text "a.js"), ("targetFilename", .text "F")]]
    let after := (runBatch {} g {} calls).graph
    (Batch.start g {}).placesOf (BatchSetting.context {} g) "a" calls =
        [some (.ofString "f"), none, some (.ofString "f")] ∧
      ∃ n ∈ after.nodes, n.id = "a" ∧
        (Path.folderOf n after.nodes after.connections).map (·.id) = some (.ofString "f") ∧
        ∀ e ∈ after.folderEdges n.id, some (.ofString "f") = some e.target := by
  intro code folder g call calls after
  have hfresh : IdSource.FreshFor {} g :=
    .of_not_endsInDigit {} (by decide +kernel) (by decide +kernel)
  have hmade : ∀ e ∈ g.connections, ∀ node direction role,
      e.id ≠ Port.idOf node direction role := by
    have hids : ∀ e ∈ g.connections, .char '-' ∉ e.id.toList := by decide +kernel
    exact fun e he => Port.ne_idOf_of_hyphen_notMem (hids e he)
  have hplaces : (Batch.start g {}).placesOf (BatchSetting.context {} g) "a" calls =
      [some (.ofString "f"), none, some (.ofString "f")] := by decide +kernel
  have hlive : ∃ n ∈ after.nodes, n.id = "a" ∧ n.isFile = true := by decide +kernel
  obtain ⟨n, hn, hid, hfile⟩ := hlive
  have hlast : ((Batch.start g {}).placesOf (BatchSetting.context {} g) n.id calls).getLast? =
      some (some (.ofString "f")) := by
    rw [hid, hplaces]
    rfl
  have hsound : g.Sound := Graph.sound_build _ _
  have hsame := (folderOf_eq_head?_placesOf hsound hfresh hmade calls hn hfile hlast).2.2
  rw [hid, hplaces] at hsame
  exact ⟨hplaces, n, hn, hid, hid ▸ hsame (by simp)⟩

/-- After a batch that was accepted as a whole, a file does not lie where the batch put it last. -/
structure Misplaced (g : Graph) (calls : List Value) (id : NodeId) (last : Option NodeId) :
    Prop where
  sound : g.Sound
  fresh : IdSource.FreshFor {} g
  accepted : (runBatch {} g {} calls).report.errors = []
  placed : ((Batch.start g {}).placesOf (BatchSetting.context {} g) id calls).getLast? = some last
  elsewhere : ∃ n ∈ (runBatch {} g {} calls).graph.nodes, n.id = id ∧ n.isFile = true ∧
    (Path.folderOf n (runBatch {} g {} calls).graph.nodes
      (runBatch {} g {} calls).graph.connections).map (·.id) ≠ last

theorem misplaced_build {nodes : List Node} {connections : List Connection} {calls : List Value}
    {id : NodeId} {last : Option NodeId}
    (hfresh : (∀ id ∈ idsOf (Graph.build nodes connections).nodes,
        IdSource.endsInDigit id = false) ∧
      ∀ e ∈ (Graph.build nodes connections).connections, IdSource.endsInDigit e.id = false)
    (hcalls : (runBatch {} (.build nodes connections) {} calls).report.errors = [] ∧
      ((Batch.start (.build nodes connections) {}).placesOf
        (BatchSetting.context {} (.build nodes connections)) id calls).getLast? = some last)
    (helsewhere : ∃ n ∈ (runBatch {} (.build nodes connections) {} calls).graph.nodes,
      n.id = id ∧ n.isFile = true ∧
        (Path.folderOf n (runBatch {} (.build nodes connections) {} calls).graph.nodes
          (runBatch {} (.build nodes connections) {} calls).graph.connections).map (·.id) ≠ last) :
    Misplaced (.build nodes connections) calls id last :=
  ⟨Graph.sound_build _ _, .of_not_endsInDigit {} hfresh.1 hfresh.2, hcalls.1, hcalls.2, helsewhere⟩

/-- The last placement does not win over an earlier one, and the ids of connections matter. -/
theorem misplaced_of_moves :
    let code (id title : Text) : Node := { id, kind := .code, title }
    let folder (id title : Text) : Node := { id, kind := .folder, title }
    let nodes := [code "a" "a.js", code "b" "b.js", folder "f" "F", folder "g" "G"]
    let move (title : Text) (folder : Option Text) : Value :=
      .object [("name", .text "moveFile"), ("args", .object [("filename", .text title),
        ("targetFolderName", (folder.map .text).getD .null)])]
    -- the file stays in the folder in which the batch put it first
    Misplaced (.build nodes []) [move "a.js" (some "F"), move "a.js" (some "G")] "a" (some "g") ∧
    -- also when it is moved to the root
    Misplaced (.build nodes []) [move "a.js" (some "F"), move "a.js" none] "a" none ∧
    -- the id of a connection of another file is the port of the folder
    Misplaced (.build nodes [⟨"f-in-files", "b", "b-out-dom", "g", "g-in-files"⟩])
      [move "a.js" (some "F"), move "b.js" none] "a" (some "f") := by
  intro code folder nodes move
  refine ⟨?_, ?_, ?_⟩
  · exact misplaced_build (by decide +kernel) (by decide +kernel) (by decide +kernel)
  · exact misplaced_build (by decide +kernel) (by decide +kernel) (by decide +kernel)
  · exact misplaced_build (by decide +kernel) (by decide +kernel) (by decide +kernel)

end LiveCanvas
