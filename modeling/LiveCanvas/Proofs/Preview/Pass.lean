import LiveCanvas.Preview.Recompile
import LiveCanvas.Proofs.Canvas.NodeList
import LiveCanvas.Settings.Schema

/-!
# What one pass shows

A pass compiles the running previews one after the other and skips those that show their document
already.  With a compiler that always gives a document, what is remembered after the pass and what
is delivered during it can be told for each preview on its own.
-/

namespace LiveCanvas

/-! ## What a preview was shown -/

/-- The texts that were delivered to a preview, one after the other. -/
def shownTo (deliveries : List Delivery) (id : NodeId) : List Text :=
  (deliveries.filter fun d => d.preview == id).map (·.html)

@[simp] theorem shownTo_nil (id : NodeId) : shownTo [] id = [] := rfl

theorem shownTo_cons (d : Delivery) (deliveries : List Delivery) (id : NodeId) :
    shownTo (d :: deliveries) id =
      if d.preview = id then d.html :: shownTo deliveries id else shownTo deliveries id := by
  by_cases h : d.preview = id <;> simp [shownTo, h]

theorem shownTo_append (earlier later : List Delivery) (id : NodeId) :
    shownTo (earlier ++ later) id = shownTo earlier id ++ shownTo later id := by
  simp [shownTo]

theorem mem_shownTo {deliveries : List Delivery} {id : NodeId} {html : Text} :
    html ∈ shownTo deliveries id ↔ ⟨id, html⟩ ∈ deliveries := by
  simp only [shownTo, List.mem_map, List.mem_filter, beq_iff_eq]
  constructor
  · rintro ⟨d, ⟨hd, rfl⟩, rfl⟩
    exact hd
  · exact fun hd => ⟨_, ⟨hd, rfl⟩, rfl⟩

/-- The text that was delivered last to a preview. -/
def lastShown? (deliveries : List Delivery) (id : NodeId) : Option Text :=
  (deliveries.reverse.find? fun d => d.preview == id).map (·.html)

theorem lastShown?_eq_getLast? (deliveries : List Delivery) (id : NodeId) :
    lastShown? deliveries id = (shownTo deliveries id).getLast? := by
  rw [lastShown?, shownTo, List.getLast?_map, List.getLast?_eq_head?_reverse, ← List.filter_reverse,
    List.head?_filter]

theorem lastShown?_append (earlier later : List Delivery) (id : NodeId) :
    lastShown? (earlier ++ later) id = (lastShown? later id).or (lastShown? earlier id) := by
  rw [lastShown?, List.reverse_append, List.find?_append, Option.map_or]
  rfl

theorem lastShown?_eq_none {deliveries : List Delivery} {id : NodeId}
    (h : ∀ d ∈ deliveries, d.preview ≠ id) : lastShown? deliveries id = none := by
  rw [lastShown?, Option.map_eq_none_iff, List.find?_eq_none]
  intro d hd
  simpa using h d (List.mem_reverse.1 hd)

/-! ## Compilers that always give a document -/

/-- The compiler of a runtime and a transform. -/
def Runtime.compiler (runtime : Runtime) (transform : Transform) : PreviewCompiler :=
  fun g preview reload => .ok (compile runtime transform preview g.nodes g.connections reload)

/-- Settings whose base for packages is a text lead to such a compiler. -/
theorem Settings.Documents.previewCompiler_of_text {d : Settings.Documents} {base : Text}
    (h : d.packageBase = .text base) (transform : Transform) :
    d.previewCompiler transform = (d.runtime base).compiler transform := by
  funext g preview reload
  rw [previewCompiler, compiler, h]
  rfl

namespace Recompiler

section ShowAll

variable (document : NodeId → CompiledDocument)

/-- After a pass the previews it ran through are known to show their documents. -/
theorem get?_showAll (ids : List NodeId) (shown : Fields Text) (id : NodeId) :
    (showAll (fun id => .ok (document id)) ids shown).1.get? id =
      if id ∈ ids then some (document id).fingerprint else shown.get? id := by
  induction ids generalizing shown with
  | nil => rfl
  | cons first ids ih =>
      rw [showAll]
      dsimp only
      split
      · next hshown =>
          rw [ih]
          by_cases hid : id = first
          · subst hid
            simp [hshown]
          · simp [hid]
      · rw [ih, Fields.get?_set]
        by_cases hid : id = first
        · subst hid
          simp
        · simp [hid, Ne.symm hid]

/-- A pass shows each preview it runs through its document once, unless it shows it already. -/
theorem shownTo_showAll (ids : List NodeId) (shown : Fields Text) (id : NodeId) :
    shownTo (showAll (fun id => .ok (document id)) ids shown).2.1 id =
      if id ∈ ids ∧ shown.get? id ≠ some (document id).fingerprint then [(document id).html]
      else [] := by
  induction ids generalizing shown with
  | nil => simp [showAll]
  | cons first ids ih =>
      rw [showAll]
      dsimp only
      split
      · next hshown =>
          rw [ih]
          by_cases hid : id = first
          · subst hid
            simp [hshown]
          · simp [hid]
      · next hshown =>
          rw [shownTo_cons, ih, Fields.get?_set]
          by_cases hid : first = id
          · subst hid
            simp [hshown]
          · simp [hid, Ne.symm hid]

theorem nodup_names_showAll (ids : List NodeId) {shown : Fields Text}
    (h : shown.names.Nodup) :
    (showAll (fun id => .ok (document id)) ids shown).1.names.Nodup := by
  induction ids generalizing shown with
  | nil => exact h
  | cons first ids ih =>
      rw [showAll]
      dsimp only
      split
      · exact ih h
      · exact ih (Fields.nodup_names_set h _ _)

end ShowAll

theorem get?_stillShown (shown : Fields Text) (running : List NodeId) (id : NodeId) :
    (stillShown shown running).get? id = if id ∈ running then shown.get? id else none := by
  induction shown with
  | nil => simp [stillShown]
  | cons entry rest ih =>
      have hstill : stillShown (entry :: rest) running =
          if entry.1 ∈ running then entry :: stillShown rest running
          else stillShown rest running := by
        simp [stillShown, List.filter_cons]
      rw [hstill, Fields.get?_cons]
      by_cases hid : entry.1 = id
      · subst hid
        by_cases hrunning : entry.1 ∈ running
        · simp [hrunning, Fields.get?_cons]
        · simp [hrunning, ih]
      · rw [if_neg hid, ← ih]
        split
        · rw [Fields.get?_cons, if_neg hid]
        · rfl

theorem nodup_names_stillShown {shown : Fields Text} (h : shown.names.Nodup)
    (running : List NodeId) : (stillShown shown running).names.Nodup :=
  h.sublist (List.filter_sublist.map _)

/-- A preview is told that it stopped when it was shown a document, does not run any more and is
still there.  It is told once, as what is remembered has its name once. -/
theorem shownTo_stops {r : Recompiler} (hnames : r.shown.names.Nodup) (g : Graph) (id : NodeId) :
    shownTo (r.stops g) id =
      if id ∉ g.running ∧ id ∈ r.shown.names ∧ g.hasNode id = true then [Document.stopped]
      else [] := by
  have hstopped : shownTo (r.stops g) id = List.replicate
      (((r.shown.names.filter fun id => !g.running.contains id).filter g.hasNode).count id)
        Document.stopped := by
    rw [shownTo, stops, List.filter_map, List.map_map]
    change List.map _ (List.filter (fun other => other == id) _) = _
    rw [List.filter_beq, List.map_replicate]
    rfl
  rw [hstopped, ((hnames.filter _).filter _).count]
  by_cases hrunning : id ∈ g.running <;> by_cases hname : id ∈ r.shown.names <;>
    by_cases hnode : g.hasNode id = true <;> simp [hrunning, hname, hnode]

/-- A preview that runs is not told that it stopped, whatever is remembered. -/
theorem shownTo_stops_of_running (r : Recompiler) {g : Graph} {id : NodeId}
    (hrunning : id ∈ g.running) : shownTo (r.stops g) id = [] := by
  rw [shownTo, List.map_eq_nil_iff, List.filter_eq_nil_iff]
  intro d hd hid
  simp only [stops, List.mem_map, List.mem_filter] at hd
  obtain ⟨other, ⟨⟨-, hother⟩, -⟩, rfl⟩ := hd
  obtain rfl : other = id := by simpa using hid
  simp [hrunning] at hother

section Pass

variable (r : Recompiler) (runtime : Runtime) (transform : Transform) (g : Graph)

theorem get?_shown_compileAll (id : NodeId) :
    (r.compileAll (runtime.compiler transform) g).state.shown.get? id =
      if id ∈ g.running then
        some (compile runtime transform id g.nodes g.connections none).fingerprint
      else none := by
  have hshown := get?_showAll (fun id => compile runtime transform id g.nodes g.connections none)
    g.running (stillShown r.shown g.running) id
  rw [get?_stillShown] at hshown
  refine hshown.trans ?_
  by_cases hid : id ∈ g.running
  · simp only [if_pos hid]
  · simp only [if_neg hid]

theorem shownTo_compileAll (id : NodeId) :
    shownTo (r.compileAll (runtime.compiler transform) g).deliveries id =
      shownTo (r.stops g) id ++
        if id ∈ g.running ∧ r.shown.get? id ≠
            some (compile runtime transform id g.nodes g.connections none).fingerprint then
          [(compile runtime transform id g.nodes g.connections none).html]
        else [] := by
  have hfresh := shownTo_showAll (fun id => compile runtime transform id g.nodes g.connections none)
    g.running (stillShown r.shown g.running) id
  rw [get?_stillShown] at hfresh
  refine (shownTo_append _ _ id).trans (congrArg (shownTo (r.stops g) id ++ ·) ?_)
  refine hfresh.trans ?_
  by_cases hrunning : id ∈ g.running
  · simp only [if_pos hrunning]
  · simp only [hrunning, false_and]

/-- A running preview that shows its document already is delivered nothing. -/
theorem lastShown?_compileAll_of_shown {id : NodeId} (hrunning : id ∈ g.running)
    (hshown : r.shown.get? id =
      some (compile runtime transform id g.nodes g.connections none).fingerprint) :
    lastShown? (r.compileAll (runtime.compiler transform) g).deliveries id = none := by
  rw [lastShown?_eq_getLast?, shownTo_compileAll, shownTo_stops_of_running r hrunning]
  simp [hshown]

/-- Any other running preview is delivered its document. -/
theorem lastShown?_compileAll_of_not_shown {id : NodeId} (hrunning : id ∈ g.running)
    (hshown : r.shown.get? id ≠
      some (compile runtime transform id g.nodes g.connections none).fingerprint) :
    lastShown? (r.compileAll (runtime.compiler transform) g).deliveries id =
      some (compile runtime transform id g.nodes g.connections none).html := by
  rw [lastShown?_eq_getLast?, shownTo_compileAll, shownTo_stops_of_running r hrunning]
  simp [hrunning, hshown]

end Pass

end Recompiler
end LiveCanvas
