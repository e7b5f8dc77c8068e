import LiveCanvas.Proofs.Preview.Debounce

/-!
# What a preview is shown over a whole run

The graph changes without the recompiler being told, changes are reported or not, the timer fires or
is stopped, and passes and reloads come in between as they please.  Whatever their order, a preview
is told that it stopped only in place of another page, and a pass leaves every preview that is in
the graph with the page it should have.

What is remembered of a preview decides both.  A remembered preview was shown a page last, so it is
not told again that it stopped; and a preview that was shown a page is remembered or was told
already that it stopped, for as long as it is in the graph.
-/

namespace LiveCanvas

/-! ## Stopped pages among others -/

/-- The stopped page comes only in place of another page. -/
structure StopsApart (texts : List Text) : Prop where
  /-- It is not the first one. -/
  head : texts.head? ≠ some Document.stopped
  /-- There are no two of it in a row. -/
  apart : ¬ [Document.stopped, Document.stopped] <:+: texts

theorem stopsApart_nil : StopsApart [] where
  head := by simp
  apart := by simp

/-- One more text keeps stopped pages apart if another page was shown before a stopped one. -/
theorem StopsApart.concat {texts : List Text} (h : StopsApart texts) {text : Text}
    (hbefore : text = Document.stopped →
      ∃ last, texts.getLast? = some last ∧ last ≠ Document.stopped) :
    StopsApart (texts ++ [text]) where
  head := by
    intro hhead
    cases texts with
    | nil =>
        obtain ⟨last, hlast, -⟩ := hbefore (by simpa using hhead)
        cases hlast
    | cons first rest => exact h.head hhead
  apart := by
    intro hpair
    obtain hsuffix | hinfix := List.infix_concat_iff.1 hpair
    · -- the two end here, so the text before this one is the first of them
      obtain hnil | ⟨before, heq, hlast⟩ := List.suffix_concat_iff.1 hsuffix
      · cases hnil
      · have hsplit : [Document.stopped] ++ [Document.stopped] = before ++ [text] := heq
        obtain ⟨rfl, htext⟩ := List.append_singleton_inj.1 hsplit
        obtain ⟨last, hsome, hne⟩ := hbefore htext.symm
        obtain ⟨start, rfl⟩ := hlast
        rw [List.getLast?_concat, Option.some.injEq] at hsome
        exact hne hsome.symm
    · exact h.apart hinfix

theorem StopsApart.append_ite {texts : List Text} (h : StopsApart texts) {c : Prop} [Decidable c]
    {text : Text} (hmore : c → StopsApart (texts ++ [text])) :
    StopsApart (texts ++ if c then [text] else []) := by
  split
  · next hc => exact hmore hc
  · rwa [List.append_nil]

namespace PreviewRun

/-! ## Pages and the stopped page -/

/-- Pages have a document type. -/
theorem prefix_page (runtime : Runtime) (transform : Transform) (g : Graph) (id : NodeId) :
    [.char '<', .char '!'] <+: (page runtime transform g id).toList := by
  have hdoctype : [.char '<', .char '!'] <+: (Text.toList "<!DOCTYPE html>") := ⟨_, rfl⟩
  have hrender (page : Document.Page) : [.char '<', .char '!'] <+: page.render.toList :=
    hdoctype.trans (Text.prefix_unlines _ _ _)
  rw [page, compile]
  cases Traversal.singleSource id Role.dom g.nodes g.connections with
  | none => exact hdoctype.trans (Text.prefix_unlines _ _ _)
  | some root => simpa [Compile.withRoot] using hrender _

/-- The stopped page has none. -/
theorem prefix_stopped : [.char '<', .char 'b'] <+: Document.stopped.toList := by
  have hfirst (first second third : Text) :
      first.toList <+: (first ++ second ++ third).toList := by
    simp
  refine List.IsPrefix.trans ?_ (hfirst _ _ _)
  exact ⟨_, rfl⟩

/-- No document is the stopped page. -/
theorem page_append_ne_stopped (runtime : Runtime) (transform : Transform) (g : Graph) (id : NodeId)
    (mark : Text) : page runtime transform g id ++ mark ≠ Document.stopped := by
  intro h
  have hpage : [.char '<', .char '!'] <+: Document.stopped.toList := by
    rw [← h, Text.toList_append]
    exact (prefix_page runtime transform g id).trans (List.prefix_append _ _)
  have hsame : [Rune.char '<', .char '!'] <+: ['<', 'b'] :=
    List.prefix_of_prefix_length_le hpage prefix_stopped le_rfl
  revert hsame
  decide

end PreviewRun

/-! ## Runs -/

/-- What can happen around a recompiler. -/
inductive RecompilerEvent
  /-- The graph changes to this one, and nobody tells the recompiler. -/
  | edit (after : Graph)
  /-- The recompiler is told that the graph may have changed. -/
  | notify
  /-- The timer fires, if it runs. -/
  | fire
  /-- The running previews are compiled out of turn. -/
  | compileAll
  /-- A preview is shown a forced document. -/
  | reload (preview : NodeId) (token : Text)
  /-- The timer is stopped. -/
  | cancel

namespace PreviewRun

variable (runtime : Runtime) (transform : Transform)

/-- One event. -/
def step (w : PreviewRun) : RecompilerEvent → PreviewRun
  | .edit after => { w with graph := after }
  | .notify =>
    { w with
      recompiler := w.recompiler.notify w.graph
      texts := w.texts ++ [Watch.text w.graph] }
  | .fire => next runtime transform w .fire
  | .compileAll => next runtime transform w .compileAll
  | .reload preview token => next runtime transform w (.reload preview token)
  | .cancel => { w with recompiler := w.recompiler.cancel }

/-- A run from a graph that no preview has been compiled for. -/
def steps (g : Graph) (events : List RecompilerEvent) : PreviewRun :=
  events.foldl (step runtime transform) { graph := g }

/-- The event is a pass over the running previews. -/
def isPass (w : PreviewRun) : RecompilerEvent → Bool
  | .fire => w.recompiler.isArmed
  | .compileAll => true
  | _ => false

/-- A document was delivered to a preview, and the preview has been in the graph ever since. -/
inductive StaysShown (g : Graph) (id : NodeId) : List RecompilerEvent → Prop
  /-- The event delivers a document. -/
  | shown {events : List RecompilerEvent} {event : RecompilerEvent} {fresh : List Delivery}
      {html : Text}
      (hfresh : (steps runtime transform g (events ++ [event])).deliveries =
        (steps runtime transform g events).deliveries ++ fresh)
      (hmem : ⟨id, html⟩ ∈ fresh) (hhtml : html ≠ Document.stopped)
      (hnode : (steps runtime transform g (events ++ [event])).graph.hasNode id = true) :
      StaysShown g id (events ++ [event])
  /-- The event leaves the preview in the graph. -/
  | stays {events : List RecompilerEvent} {event : RecompilerEvent}
      (hbefore : StaysShown g id events)
      (hnode : (steps runtime transform g (events ++ [event])).graph.hasNode id = true) :
      StaysShown g id (events ++ [event])

section Steps

variable {runtime : Runtime} {transform : Transform} {w : PreviewRun}

theorem steps_concat (g : Graph) (events : List RecompilerEvent) (event : RecompilerEvent) :
    steps runtime transform g (events ++ [event]) =
      step runtime transform (steps runtime transform g events) event := by
  rw [steps, List.foldl_append]
  rfl

/-- Two moments that tell the same of the previews. -/
structure SameShown (w w' : PreviewRun) : Prop where
  shown : w'.recompiler.shown = w.recompiler.shown
  deliveries : w'.deliveries = w.deliveries
  pages : w'.pages = w.pages

variable (runtime transform w) in
/-- An event is a pass, a reload, or of no concern to what previews show. -/
theorem step_cases (event : RecompilerEvent) :
    (∃ r : Recompiler, r.shown = w.recompiler.shown ∧ step runtime transform w event =
      w.take (w.graph.running.map (page runtime transform w.graph))
        (r.compileAll (runtime.compiler transform) w.graph)) ∨
    isPass w event = false ∧
      ((∃ preview token, step runtime transform w event =
        w.take [page runtime transform w.graph preview]
          (w.recompiler.reload (runtime.compiler transform) w.graph preview token)) ∨
      SameShown w (step runtime transform w event)) := by
  cases event with
  | edit after => exact .inr ⟨rfl, .inr ⟨rfl, rfl, rfl⟩⟩
  | notify =>
      refine .inr ⟨rfl, .inr ⟨?_, rfl, rfl⟩⟩
      simp only [step, Recompiler.notify]
      split <;> rfl
  | fire =>
      by_cases harmed : w.recompiler.isArmed = true
      · exact .inl ⟨{ w.recompiler with isArmed := false }, rfl, if_pos harmed⟩
      · have hsame : step runtime transform w .fire = w := if_neg harmed
        rw [hsame]
        exact .inr ⟨Bool.eq_false_iff.2 harmed, .inr ⟨rfl, rfl, rfl⟩⟩
  | compileAll => exact .inl ⟨w.recompiler, rfl, rfl⟩
  | reload preview token => exact .inr ⟨rfl, .inl ⟨preview, token, rfl⟩⟩
  | cancel => exact .inr ⟨rfl, .inr ⟨rfl, rfl, rfl⟩⟩

end Steps

/-! ## Previews are told that they stopped in place of a page -/

/-- What the recompiler remembers is true, and stopped pages came only in place of others. -/
structure Orderly (w : PreviewRun) : Prop where
  /-- A preview is remembered once. -/
  names : w.recompiler.shown.names.Nodup
  /-- The digest remembered for a preview is that of the page it was shown last. -/
  remembers : Remembers w
  /-- Pages are documents. -/
  pages : ∀ text ∈ w.pages, ∀ mark, text ++ mark ≠ Document.stopped
  /-- No preview was told twice in a row, or first of all, that it stopped. -/
  stops : ∀ id, StopsApart (shownTo w.deliveries id)

section Order

variable {runtime : Runtime} {transform : Transform} {w : PreviewRun}

theorem orderly_start (g : Graph) : Orderly { graph := g } where
  names := List.nodup_nil
  remembers := fun _ _ h => by cases h
  pages := fun _ h => by cases h
  stops := fun _ => stopsApart_nil

/-- A remembered preview was shown another page than the stopped one last. -/
theorem Orderly.last_ne_stopped (h : Orderly w) {id : NodeId}
    (hid : id ∈ w.recompiler.shown.names) :
    ∃ last, (shownTo w.deliveries id).getLast? = some last ∧ last ≠ Document.stopped := by
  have hsome : w.recompiler.shown.get? id ≠ none := fun hnone => Fields.get?_eq_none_iff.1 hnone hid
  obtain ⟨digest, hdigest⟩ := Option.ne_none_iff_exists'.1 hsome
  obtain ⟨text, hmem, -, mark, -, hlast⟩ := h.remembers id digest hdigest
  rw [lastShown?_eq_getLast?] at hlast
  exact ⟨text ++ mark, hlast, h.pages text hmem mark⟩

/-- Other pages than the stopped one may come at any time. -/
theorem stopsApart_concat_page {texts : List Text} (h : StopsApart texts) (g : Graph)
    (id : NodeId) (mark : Text) : StopsApart (texts ++ [page runtime transform g id ++ mark]) :=
  h.concat fun hstopped => absurd hstopped (page_append_ne_stopped runtime transform g id mark)

/-- More pages are documents as well. -/
theorem Orderly.pages_append (h : Orderly w) {pages : List Text}
    (hpages : ∀ text ∈ pages, ∃ id, text = page runtime transform w.graph id) :
    ∀ text ∈ w.pages ++ pages, ∀ mark, text ++ mark ≠ Document.stopped := by
  intro text htext
  obtain hbefore | hmore := List.mem_append.1 htext
  · exact h.pages text hbefore
  · obtain ⟨id, rfl⟩ := hpages text hmore
    exact page_append_ne_stopped runtime transform w.graph id

theorem Orderly.pass (h : Orderly w) {r : Recompiler} (hshown : r.shown = w.recompiler.shown) :
    Orderly (w.take (w.graph.running.map (page runtime transform w.graph))
      (r.compileAll (runtime.compiler transform) w.graph)) where
  names := by
    have hnames : r.shown.names.Nodup := hshown ▸ h.names
    exact Recompiler.nodup_names_showAll
      (fun id => compile runtime transform id w.graph.nodes w.graph.connections none) _
      (Recompiler.nodup_names_stillShown hnames _)
  remembers := h.remembers.pass hshown
  pages := by
    apply h.pages_append
    intro text htext
    obtain ⟨id, -, rfl⟩ := List.mem_map.1 htext
    exact ⟨id, rfl⟩
  stops := by
    intro id
    rw [take, shownTo_append, Recompiler.shownTo_compileAll]
    by_cases hrunning : id ∈ w.graph.running
    · -- the preview runs, so it is shown its page or nothing
      rw [Recompiler.shownTo_stops_of_running r hrunning, List.nil_append]
      have hpage : StopsApart
          (shownTo w.deliveries id ++ [page runtime transform w.graph id ++ ""]) :=
        stopsApart_concat_page (h.stops id) w.graph id ""
      rw [Text.append_empty] at hpage
      exact (h.stops id).append_ite fun _ => hpage
    · -- it does not, so it is told that it stopped if it is remembered
      rw [if_neg fun hand => hrunning hand.1, List.append_nil,
        Recompiler.shownTo_stops (hshown ▸ h.names)]
      refine (h.stops id).append_ite fun hstops => (h.stops id).concat fun _ => ?_
      exact h.last_ne_stopped (hshown ▸ hstops.2.1)

theorem Orderly.reload (h : Orderly w) (preview : NodeId) (token : Text) :
    Orderly (w.take [page runtime transform w.graph preview]
      (w.recompiler.reload (runtime.compiler transform) w.graph preview token)) := by
  obtain ⟨mark, -, hdeliveries, hstate⟩ :=
    reload_eq runtime transform w.recompiler w.graph preview token
  constructor
  · rw [take, hstate]
    exact Fields.nodup_names_set h.names _ _
  · exact h.remembers.reload preview token
  · apply h.pages_append
    intro text htext
    exact ⟨preview, List.mem_singleton.1 htext⟩
  · intro id
    rw [take, hdeliveries, shownTo_append, shownTo_cons, shownTo_nil]
    refine (h.stops id).append_ite fun _ => ?_
    exact stopsApart_concat_page (h.stops id) w.graph preview mark

/-- Nothing else matters to what previews show. -/
theorem Orderly.of_sameShown {w' : PreviewRun} (h : Orderly w) (hsame : SameShown w w') :
    Orderly w' where
  names := hsame.shown ▸ h.names
  remembers := by
    rw [Remembers, hsame.shown, hsame.deliveries, hsame.pages]
    exact h.remembers
  pages := hsame.pages ▸ h.pages
  stops := hsame.deliveries ▸ h.stops

theorem Orderly.step (h : Orderly w) (event : RecompilerEvent) :
    Orderly (step runtime transform w event) := by
  obtain ⟨r, hshown, hstep⟩ | ⟨-, ⟨preview, token, hstep⟩ | hsame⟩ :=
    step_cases runtime transform w event
  · rw [hstep]
    exact h.pass hshown
  · rw [hstep]
    exact h.reload preview token
  · exact h.of_sameShown hsame

theorem orderly_steps (g : Graph) (events : List RecompilerEvent) :
    Orderly (steps runtime transform g events) := by
  induction events using List.reverseRecOn with
  | nil => exact orderly_start g
  | append_singleton events event ih =>
      rw [steps_concat]
      exact ih.step event

end Order

/-! ## A preview that was shown a document is not forgotten -/

/-- The preview is remembered or told already that it stopped. -/
def IsKnown (w : PreviewRun) (id : NodeId) : Prop :=
  id ∈ w.recompiler.shown.names ∨ lastShown? w.deliveries id = some Document.stopped

section Known

variable {runtime : Runtime} {transform : Transform} {w : PreviewRun} {id : NodeId}

/-- After a pass exactly the running previews are remembered. -/
theorem mem_names_pass (r : Recompiler) (g : Graph) :
    id ∈ (r.compileAll (runtime.compiler transform) g).state.shown.names ↔ id ∈ g.running := by
  rw [← not_iff_not, ← Fields.get?_eq_none_iff, Recompiler.get?_shown_compileAll]
  split <;> simp [*]

/-- A pass remembers a preview that runs, and tells one that it stopped that is remembered. -/
theorem IsKnown.pass (h : IsKnown w id) (hnames : w.recompiler.shown.names.Nodup)
    (hnode : w.graph.hasNode id = true) {r : Recompiler} (hshown : r.shown = w.recompiler.shown) :
    IsKnown (w.take (w.graph.running.map (page runtime transform w.graph))
      (r.compileAll (runtime.compiler transform) w.graph)) id := by
  by_cases hrunning : id ∈ w.graph.running
  · exact .inl ((mem_names_pass r w.graph).2 hrunning)
  · right
    have hfresh : shownTo (r.compileAll (runtime.compiler transform) w.graph).deliveries id =
        shownTo (r.stops w.graph) id := by
      rw [Recompiler.shownTo_compileAll, if_neg fun hand => hrunning hand.1, List.append_nil]
    rw [take, lastShown?_append, lastShown?_eq_getLast?, hfresh,
      Recompiler.shownTo_stops (hshown ▸ hnames), hshown]
    obtain hknown | hstopped := h
    · rw [if_pos ⟨hrunning, hknown, hnode⟩]
      rfl
    · rw [hstopped]
      split <;> rfl

theorem IsKnown.reload (h : IsKnown w id) (preview : NodeId) (token : Text) :
    IsKnown (w.take [page runtime transform w.graph preview]
      (w.recompiler.reload (runtime.compiler transform) w.graph preview token)) id := by
  obtain ⟨mark, -, hdeliveries, hstate⟩ :=
    reload_eq runtime transform w.recompiler w.graph preview token
  rw [IsKnown, take, hstate, hdeliveries, Fields.mem_names_set]
  by_cases hid : id = preview
  · exact .inl (.inl hid)
  · rw [lastShown?_append, lastShown?_eq_none (by simpa using Ne.symm hid), Option.none_or]
    exact h.imp_left .inr

theorem IsKnown.step (h : IsKnown w id) (hnames : w.recompiler.shown.names.Nodup)
    (event : RecompilerEvent) (hnode : (step runtime transform w event).graph.hasNode id = true) :
    IsKnown (step runtime transform w event) id := by
  obtain ⟨r, hshown, hstep⟩ | ⟨-, ⟨preview, token, hstep⟩ | hsame⟩ :=
    step_cases runtime transform w event
  · rw [hstep] at hnode ⊢
    exact h.pass hnames hnode hshown
  · rw [hstep]
    exact h.reload preview token
  · rw [IsKnown, hsame.shown, hsame.deliveries]
    exact h

/-- Whoever is delivered a document is remembered. -/
theorem mem_names_of_delivered {event : RecompilerEvent} {fresh : List Delivery} {html : Text}
    (hfresh : (PreviewRun.step runtime transform w event).deliveries = w.deliveries ++ fresh)
    (hmem : ⟨id, html⟩ ∈ fresh) (hhtml : html ≠ Document.stopped) :
    id ∈ (PreviewRun.step runtime transform w event).recompiler.shown.names := by
  obtain ⟨r, -, hstep⟩ | ⟨-, ⟨preview, token, hstep⟩ | hsame⟩ :=
    step_cases runtime transform w event
  · rw [hstep] at hfresh ⊢
    obtain rfl := List.append_cancel_left hfresh
    rw [← mem_shownTo, Recompiler.shownTo_compileAll, List.mem_append] at hmem
    obtain hstops | hpage := hmem
    · obtain ⟨other, -, heq⟩ := List.mem_map.1 (mem_shownTo.1 hstops)
      exact absurd (congrArg Delivery.html heq).symm hhtml
    · obtain ⟨⟨hrunning, -⟩, -⟩ := List.mem_ite_nil_right.1 hpage
      exact (mem_names_pass r w.graph).2 hrunning
  · obtain ⟨mark, -, hdeliveries, hstate⟩ :=
      reload_eq runtime transform w.recompiler w.graph preview token
    rw [hstep, take, hdeliveries] at hfresh
    obtain rfl := List.append_cancel_left hfresh
    obtain ⟨rfl, -⟩ := Delivery.mk.inj (List.mem_singleton.1 hmem)
    rw [hstep, take, hstate, Fields.mem_names_set]
    exact .inl rfl
  · rw [hsame.deliveries] at hfresh
    obtain rfl := List.self_eq_append_right.1 hfresh
    cases hmem

/-- A preview that was delivered a document and stays in the graph is known. -/
theorem StaysShown.isKnown {g : Graph} {events : List RecompilerEvent}
    (h : StaysShown runtime transform g id events) :
    IsKnown (steps runtime transform g events) id := by
  induction h with
  | shown hfresh hmem hhtml =>
      rw [steps_concat] at hfresh ⊢
      exact .inl (mem_names_of_delivered hfresh hmem hhtml)
  | stays _ hnode ih =>
      rw [steps_concat] at hnode ⊢
      exact ih.step (orderly_steps g _).names _ hnode

variable (runtime transform) in
/-- The running previews are remembered with their pages, and nobody else is. -/
structure PassRemembers (w : PreviewRun) : Prop where
  /-- Each running preview has its page. -/
  running : ∀ id ∈ w.graph.running, page runtime transform w.graph id ∈ w.pages ∧
    w.recompiler.shown.get? id = some (Sha256.hex (page runtime transform w.graph id))
  /-- Whoever is remembered runs. -/
  names : ∀ id ∈ w.recompiler.shown.names, id ∈ w.graph.running

theorem passRemembers_step {event : RecompilerEvent} (hpass : isPass w event = true) :
    PassRemembers runtime transform (PreviewRun.step runtime transform w event) := by
  obtain ⟨r, -, hstep⟩ | ⟨hnot, -⟩ := step_cases runtime transform w event
  · rw [hstep]
    exact ⟨fun id hid => ⟨mem_pages_pass hid, get?_shown_pass r w.graph hid⟩,
      fun id hid => (mem_names_pass r w.graph).1 hid⟩
  · rw [hpass] at hnot
    cases hnot

end Known

/-- In no run is a preview told that it stopped before it was shown anything, or twice in a row.
Right after a pass, called for or started by the timer, the document delivered last to each running
preview is the one that a compile of the current graph gives, with at most the mark of a reload
after it.  A preview that does not run was told last that it stopped, if it has been in the graph
since it was last delivered a document.  Only what is said of running previews needs pages to differ
in their digests. -/
theorem deliveries_after_pass (runtime : Runtime) (transform : Transform) (g : Graph)
    (events : List RecompilerEvent) :
    (∀ id, StopsApart (shownTo (steps runtime transform g events).deliveries id)) ∧
    ∀ event, isPass (steps runtime transform g events) event = true →
      let w := steps runtime transform g (events ++ [event])
      (NoCollision w.pages → ∀ id ∈ w.graph.running, ∃ mark, IsMark mark ∧
        lastShown? w.deliveries id = some
          ((compile runtime transform id w.graph.nodes w.graph.connections none).html ++ mark)) ∧
      ∀ id ∉ w.graph.running, StaysShown runtime transform g id (events ++ [event]) →
        lastShown? w.deliveries id = some Document.stopped := by
  refine ⟨(orderly_steps g events).stops, fun event hpass => ?_⟩
  intro w
  have horderly : Orderly w := orderly_steps g (events ++ [event])
  obtain ⟨hremembered, hnames⟩ : PassRemembers runtime transform w := by
    rw [show w = _ from steps_concat g events event]
    exact passRemembers_step hpass
  constructor
  · intro hpages id hid
    obtain ⟨hmem, hdigest⟩ := hremembered id hid
    obtain ⟨text, htext, hhex, mark, hmark, hlast⟩ := horderly.remembers id _ hdigest
    rw [hpages text htext _ hmem hhex] at hlast
    exact ⟨mark, hmark, hlast⟩
  · intro id hid hstays
    exact hstays.isKnown.resolve_left fun hknown => hid (hnames id hknown)

/-- A preview is shown, reloaded and compiled again, and then it stops. -/
theorem deliveries_after_pass_reloaded :
    let file : Node := { id := "f", kind := .code, title := "index.html", content := "<p>" }
    let preview : Node := { id := "p", kind := .preview, title := "Preview" }
    let g : Graph :=
      { nodes := [file, preview], connections := [⟨"c", "f", "f-out-dom", "p", "p-in-dom"⟩]
        running := ["p"] }
    let still : Graph := { g with running := [] }
    let shown : List RecompilerEvent := [.compileAll, .reload "p" "7"]
    (∃ mark, IsMark mark ∧
      lastShown? (steps {} .unchanged g (shown ++ [.compileAll])).deliveries "p" =
        some ((compile {} .unchanged "p" g.nodes g.connections none).html ++ mark)) ∧
    lastShown? (steps {} .unchanged g (shown ++ [.edit still] ++ [.compileAll])).deliveries "p" =
      some Document.stopped := by
  intro file preview g still shown
  have hpages : ∀ s ∈ (steps {} .unchanged g (shown ++ [.compileAll])).pages,
      s = page {} .unchanged g "p" := by
    intro s hs
    have hs' : s ∈ [page {} .unchanged g "p", page {} .unchanged g "p", page {} .unchanged g "p"] :=
      hs
    simpa using hs'
  have hreloaded : StaysShown {} .unchanged g "p" shown := by
    obtain ⟨mark, -, hhtml⟩ := html_compile_reload {} .unchanged g "p" "7"
    have hdocument : (compile {} .unchanged "p" g.nodes g.connections (some "7")).html ≠
        Document.stopped := hhtml ▸ page_append_ne_stopped {} .unchanged g "p" mark
    have hfresh : (steps {} .unchanged g ([.compileAll] ++ [.reload "p" "7"])).deliveries =
        (steps {} .unchanged g [.compileAll]).deliveries ++
          [⟨"p", (compile {} .unchanged "p" g.nodes g.connections (some "7")).html⟩] := rfl
    exact .shown hfresh List.mem_cons_self hdocument rfl
  have hstays : StaysShown {} .unchanged g "p" (shown ++ [.edit still] ++ [.compileAll]) :=
    .stays (.stays hreloaded rfl) rfl
  have hreloading := (deliveries_after_pass {} .unchanged g shown).2 .compileAll rfl
  have hstopping :=
    (deliveries_after_pass {} .unchanged g (shown ++ [.edit still])).2 .compileAll rfl
  exact ⟨hreloading.1 (noCollision_of_forall_eq hpages) "p" (List.mem_singleton.2 rfl),
    hstopping.2 "p" List.not_mem_nil hstays⟩

end PreviewRun
end LiveCanvas
