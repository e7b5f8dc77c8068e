import LiveCanvas.Proofs.Preview.Pass
import LiveCanvas.Proofs.Preview.Watched

/-!
# No change is lost while the graph settles

A recompiler is told of every edit, its timer fires when it runs, and passes and reloads come in
between as they please.  Whenever the timer does not run, every running preview was last shown the
document of the current graph, up to the mark of a reload.

Only digests are remembered, so this holds as long as no two texts digested in the run have one
digest.  The texts are therefore collected along the run: the watched text at each edit, the page at
each compile.  The watched text does not tell the two halves of a character from the character, so
an edit that joins them is missed.
-/

namespace LiveCanvas

/-- No two of these texts have one digest. -/
def NoCollision (texts : List Text) : Prop :=
  ∀ s ∈ texts, ∀ t ∈ texts, Sha256.hex s = Sha256.hex t → s = t

theorem NoCollision.of_append {earlier later : List Text} (h : NoCollision (earlier ++ later)) :
    NoCollision earlier :=
  fun s hs t ht => h s (List.mem_append_left later hs) t (List.mem_append_left later ht)

theorem noCollision_of_forall_eq {texts : List Text} {t : Text} (h : ∀ s ∈ texts, s = t) :
    NoCollision texts :=
  fun s hs s' hs' _ => (h s hs).trans (h s' hs').symm

/-- What follows the page in a document: nothing, or the mark of a reload. -/
def IsMark (mark : Text) : Prop :=
  mark = "" ∨ ∃ token, mark = Compile.reloadMark token

/-- A page with more in its table and its entry is longer. -/
theorem Document.length_render_lt (page : Page) {importMap : Value} {entry : Text}
    (htable : (scriptJson page.importMap).length < (scriptJson importMap).length)
    (hentry : page.entry.length < entry.length) :
    page.render.length < ({ page with importMap, entry } : Page).render.length := by
  let front : List Text := ["<!DOCTYPE html>", "<html>", "  <head>", "    <meta charset=\"utf-8\">",
    "    <meta name=\"viewport\" content=\"width=device-width, initial-scale=1.0\">" ++
      Text.join (page.stylesheets.map stylesheetTag),
    "    <style>", page.css, "    </style>", "    " ++ telemetryScript page.previewId,
    "    <script type=\"importmap\">"]
  let middle : List Text := ["    </script>", "  </head>", "  <body>", page.body]
  let back : List Text := ["  </body>", "</html>", ""]
  calc page.render.length
      < (Text.unlines (front ++ scriptJson importMap :: (middle ++ page.entry :: back))).length :=
        Text.length_unlines_lt front _ htable
    _ < ({ page with importMap, entry } : Page).render.length :=
        Text.length_unlines_lt (front ++ scriptJson importMap :: middle) back hentry

/-- A recompiler at work on a graph. -/
structure PreviewRun where
  graph : Graph
  recompiler : Recompiler := {}
  /-- The documents that were delivered. -/
  deliveries : List Delivery := []
  /-- The watched texts that were digested. -/
  texts : List Text := []
  /-- The pages that were digested. -/
  pages : List Text := []

/-- What can happen to a recompiler at work. -/
inductive PreviewEvent
  /-- The graph changes to this one, and the recompiler is told. -/
  | edit (after : Graph)
  /-- The timer fires, if it runs. -/
  | fire
  /-- The running previews are compiled out of turn. -/
  | compileAll
  /-- A preview is shown a forced document. -/
  | reload (preview : NodeId) (token : Text)

namespace PreviewRun

variable (runtime : Runtime) (transform : Transform)

/-- The page of a preview: its document without a mark. -/
def page (g : Graph) (id : NodeId) : Text :=
  (compile runtime transform id g.nodes g.connections none).html

/-- Takes over what a step of the recompiler leads to, with the pages that it digested. -/
def take {α : Type} (w : PreviewRun) (pages : List Text) (result : Recompiled α) : PreviewRun :=
  { w with
    recompiler := result.state
    deliveries := w.deliveries ++ result.deliveries
    pages := w.pages ++ pages }

/-- One event. -/
def next (w : PreviewRun) : PreviewEvent → PreviewRun
  | .edit after =>
    { w with
      graph := after
      recompiler := w.recompiler.notify after
      texts := w.texts ++ [Watch.text after] }
  | .fire =>
    if w.recompiler.isArmed then
      w.take (w.graph.running.map (page runtime transform w.graph))
        (w.recompiler.fire (runtime.compiler transform) w.graph)
    else w
  | .compileAll =>
    w.take (w.graph.running.map (page runtime transform w.graph))
      (w.recompiler.compileAll (runtime.compiler transform) w.graph)
  | .reload preview token =>
    w.take [page runtime transform w.graph preview]
      (w.recompiler.reload (runtime.compiler transform) w.graph preview token)

/-- A run from a graph that no preview has been compiled for. -/
def run (g : Graph) (events : List PreviewEvent) : PreviewRun :=
  events.foldl (next runtime transform) { graph := g }

/-! ## Documents and pages -/

section Pages

variable {runtime : Runtime} {transform : Transform}

/-- The digest of a document is that of its page, forced or not. -/
theorem fingerprint_compile (g : Graph) (id : NodeId) (reload : Option Text) :
    (compile runtime transform id g.nodes g.connections reload).fingerprint =
      Sha256.hex (page runtime transform g id) := by
  rw [page, compile, compile]
  cases Traversal.singleSource id Role.dom g.nodes g.connections with
  | none => rfl
  | some root => simp [Compile.withRoot, Compile.fingerprint]

variable (runtime transform) in
/-- A forced document is the page and perhaps a mark. -/
theorem html_compile_reload (g : Graph) (id : NodeId) (token : Text) :
    ∃ mark, IsMark mark ∧
      (compile runtime transform id g.nodes g.connections (some token)).html =
        page runtime transform g id ++ mark := by
  rw [page, compile, compile]
  cases Traversal.singleSource id Role.dom g.nodes g.connections with
  | none => exact ⟨"", .inl rfl, (Text.append_empty _).symm⟩
  | some root =>
      exact ⟨Compile.reloadMark token, .inr ⟨token, rfl⟩, by simp [Compile.withRoot]⟩

/-- Graphs that look the same to previews have the same pages. -/
theorem page_eq_of_view_eq {g g' : Graph} (h : Watch.view g = Watch.view g') (id : NodeId) :
    page runtime transform g id = page runtime transform g' id := by
  obtain ⟨hnodes, hconnections, -⟩ := Watch.bare_eq_of_view_eq h
  rw [page, page, ← Watch.compile_bare, hnodes, hconnections, Watch.compile_bare]

end Pages

/-! ## What is remembered of the pages shown -/

/-- The digest remembered for a preview is that of the page it was shown last. -/
def Remembers (w : PreviewRun) : Prop :=
  ∀ id digest, w.recompiler.shown.get? id = some digest →
    ∃ text ∈ w.pages, Sha256.hex text = digest ∧
      ∃ mark, IsMark mark ∧ lastShown? w.deliveries id = some (text ++ mark)

section Memory

variable {runtime : Runtime} {transform : Transform} {w : PreviewRun}

theorem mem_pages_pass {id : NodeId} (hid : id ∈ w.graph.running) :
    page runtime transform w.graph id ∈
      w.pages ++ w.graph.running.map (page runtime transform w.graph) :=
  List.mem_append_right _ (List.mem_map_of_mem hid)

theorem get?_shown_pass (r : Recompiler) (g : Graph) {id : NodeId} (hid : id ∈ g.running) :
    (r.compileAll (runtime.compiler transform) g).state.shown.get? id =
      some (Sha256.hex (page runtime transform g id)) := by
  rw [Recompiler.get?_shown_compileAll, if_pos hid, fingerprint_compile]

/-- A pass may start from any memory that tells the same of the previews, so this serves the timer
as well. -/
theorem Remembers.pass (h : Remembers w) {r : Recompiler} (hshown : r.shown = w.recompiler.shown) :
    Remembers (w.take (w.graph.running.map (page runtime transform w.graph))
      (r.compileAll (runtime.compiler transform) w.graph)) := by
  intro id digest hdigest
  change (r.compileAll (runtime.compiler transform) w.graph).state.shown.get? id = some digest
    at hdigest
  have hid : id ∈ w.graph.running := by
    by_contra hid
    rw [Recompiler.get?_shown_compileAll, if_neg hid] at hdigest
    cases hdigest
  rw [get?_shown_pass r w.graph hid, Option.some.injEq] at hdigest
  change ∃ text ∈ w.pages ++ w.graph.running.map (page runtime transform w.graph), _ ∧
    ∃ mark, IsMark mark ∧ lastShown? (w.deliveries ++ _) id = some (text ++ mark)
  by_cases hknown : r.shown.get? id =
      some (compile runtime transform id w.graph.nodes w.graph.connections none).fingerprint
  · -- nothing new is delivered, and what was shown before has the digest of the page
    have hlast := Recompiler.lastShown?_compileAll_of_shown r runtime transform w.graph hid hknown
    rw [fingerprint_compile, hdigest, hshown] at hknown
    obtain ⟨text, hmem, hhex, mark, hmark, hbefore⟩ := h id digest hknown
    refine ⟨text, List.mem_append_left _ hmem, hhex, mark, hmark, ?_⟩
    rw [lastShown?_append, hlast]
    exact hbefore
  · have hlast := Recompiler.lastShown?_compileAll_of_not_shown r runtime transform w.graph hid
      hknown
    refine ⟨_, mem_pages_pass hid, hdigest, "", .inl rfl, ?_⟩
    rw [lastShown?_append, hlast, Text.append_empty]
    rfl

variable (runtime transform) in
/-- What a reload leads to: the page is delivered, perhaps with a mark, and its digest
remembered. -/
theorem reload_eq (r : Recompiler) (g : Graph) (preview : NodeId) (token : Text) :
    ∃ mark, IsMark mark ∧
      (r.reload (runtime.compiler transform) g preview token).deliveries =
        [⟨preview, page runtime transform g preview ++ mark⟩] ∧
      (r.reload (runtime.compiler transform) g preview token).state =
        { r with
          shown := r.shown.set preview (Sha256.hex (page runtime transform g preview)) } := by
  obtain ⟨mark, hmark, hhtml⟩ := html_compile_reload runtime transform g preview token
  refine ⟨mark, hmark, ?_, ?_⟩
  · rw [← hhtml]
    rfl
  · rw [← fingerprint_compile g preview (some token)]
    rfl

/-- A reload may come at any time. -/
theorem Remembers.reload (h : Remembers w) (preview : NodeId) (token : Text) :
    Remembers (w.take [page runtime transform w.graph preview]
      (w.recompiler.reload (runtime.compiler transform) w.graph preview token)) := by
  obtain ⟨mark, hmark, hdeliveries, hstate⟩ :=
    reload_eq runtime transform w.recompiler w.graph preview token
  intro id digest hdigest
  rw [take, hstate] at hdigest
  rw [take, hdeliveries]
  rw [Fields.get?_set] at hdigest
  by_cases hid : preview = id
  · subst hid
    rw [if_pos rfl, Option.some.injEq] at hdigest
    refine ⟨_, List.mem_append_right _ List.mem_cons_self, hdigest, mark, hmark, ?_⟩
    rw [lastShown?_append]
    simp [lastShown?]
  · rw [if_neg hid] at hdigest
    obtain ⟨text, hmem, hhex, mark, hmark, hbefore⟩ := h id digest hdigest
    refine ⟨text, List.mem_append_left _ hmem, hhex, mark, hmark, ?_⟩
    rw [lastShown?_append, lastShown?_eq_none (by simpa using hid)]
    exact hbefore

end Memory

/-! ## What every step keeps -/

/-- What the recompiler remembers is true, and nothing is missing while the timer does not run. -/
structure Faithful (w : PreviewRun) : Prop where
  /-- The digest remembered for a preview is that of the page it was shown last. -/
  shown : ∀ id digest, w.recompiler.shown.get? id = some digest →
    ∃ text ∈ w.pages, Sha256.hex text = digest ∧
      ∃ mark, IsMark mark ∧ lastShown? w.deliveries id = some (text ++ mark)
  /-- The digest seen last is that of the graph, in which there are no pairs to join. -/
  seen : ∀ digest, w.recompiler.seen = some digest →
    digest = Watch.fingerprint w.graph ∧ Watch.text w.graph ∈ w.texts ∧ Watch.IsUnsplit w.graph
  /-- Without a timer every running preview is known to show its page. -/
  quiet : w.recompiler.seen ≠ none → w.recompiler.isArmed = false → ∀ id ∈ w.graph.running,
    page runtime transform w.graph id ∈ w.pages ∧
      w.recompiler.shown.get? id = some (Sha256.hex (page runtime transform w.graph id))

section Steps

variable {runtime : Runtime} {transform : Transform} {w : PreviewRun}

theorem faithful_start (g : Graph) : Faithful runtime transform { graph := g } where
  shown := fun _ _ h => by cases h
  seen := fun _ h => by cases h
  quiet := fun h => absurd rfl h

/-- An edit that previews do not watch changes nothing for them; any other one starts the timer. -/
theorem Faithful.edit (h : Faithful runtime transform w) {after : Graph}
    (hunsplit : Watch.IsUnsplit after)
    (hcollision : NoCollision (next runtime transform w (.edit after)).texts) :
    Faithful runtime transform (next runtime transform w (.edit after)) := by
  have hafter : Watch.text after ∈ w.texts ++ [Watch.text after] := by simp
  by_cases hsees : w.recompiler.sees after = true
  · -- the digest did not change, so neither did what previews watch
    have hnotify : w.recompiler.notify after = w.recompiler := if_pos hsees
    have hseen : w.recompiler.seen = some (Watch.fingerprint after) := by
      simpa [Recompiler.sees] using hsees
    obtain ⟨hdigest, hbefore, hwhole⟩ := h.seen _ hseen
    have htext : Watch.text after = Watch.text w.graph :=
      hcollision _ hafter _ (List.mem_append_left _ hbefore) hdigest
    have hview := Watch.view_eq_of_text_eq hunsplit hwhole htext
    have hrunning : after.running = w.graph.running := (Watch.bare_eq_of_view_eq hview).2.2
    constructor
    · intro id digest hshown
      rw [next, hnotify] at hshown
      exact h.shown id digest hshown
    · intro digest hdigest'
      rw [next, hnotify, hseen] at hdigest'
      exact ⟨(Option.some.inj hdigest').symm, hafter, hunsplit⟩
    · intro hnoted hquiet id hid
      rw [next, hnotify] at hnoted hquiet
      have hid' : id ∈ w.graph.running := by
        rw [← hrunning]
        exact hid
      have hpage := h.quiet hnoted hquiet id hid'
      rw [← page_eq_of_view_eq hview] at hpage
      rw [next, hnotify]
      exact hpage
  · have hnotify : w.recompiler.notify after = { w.recompiler with
        seen := some (Watch.fingerprint after), isArmed := true } := if_neg hsees
    constructor
    · intro id digest hshown
      rw [next, hnotify] at hshown
      exact h.shown id digest hshown
    · intro digest hdigest
      rw [next, hnotify] at hdigest
      exact ⟨(Option.some.inj hdigest).symm, hafter, hunsplit⟩
    · intro _ hquiet
      rw [next, hnotify] at hquiet
      cases hquiet

/-- After a pass nothing is missing, whatever started it. -/
theorem Faithful.pass (h : Faithful runtime transform w) {r : Recompiler}
    (hshown : r.shown = w.recompiler.shown) (hseen : r.seen = w.recompiler.seen) :
    Faithful runtime transform (w.take (w.graph.running.map (page runtime transform w.graph))
      (r.compileAll (runtime.compiler transform) w.graph)) where
  shown := Remembers.pass h.shown hshown
  seen := fun digest hdigest => h.seen digest (hseen ▸ hdigest)
  quiet := fun _ _ _ hid => ⟨mem_pages_pass hid, get?_shown_pass r w.graph hid⟩

/-- A reload delivers the page of the current graph and remembers its digest, which is right whether
or not the timer runs. -/
theorem Faithful.reload (h : Faithful runtime transform w) (preview : NodeId) (token : Text) :
    Faithful runtime transform (next runtime transform w (.reload preview token)) := by
  obtain ⟨-, -, -, hstate⟩ := reload_eq runtime transform w.recompiler w.graph preview token
  constructor
  · exact Remembers.reload h.shown preview token
  · intro digest hdigest
    rw [next, take, hstate] at hdigest
    exact h.seen digest hdigest
  · intro hnoted hquiet id hid
    rw [next, take, hstate] at hnoted hquiet
    obtain ⟨hmem, hknown⟩ := h.quiet hnoted hquiet id hid
    rw [next, take, hstate]
    refine ⟨List.mem_append_left _ hmem, ?_⟩
    rw [Fields.get?_set]
    by_cases hpreview : preview = id
    · rw [if_pos hpreview, hpreview]
    · rw [if_neg hpreview]
      exact hknown

/-- Every event keeps what is remembered true. -/
theorem Faithful.next (h : Faithful runtime transform w) {event : PreviewEvent}
    (hunsplit : ∀ after, event = .edit after → Watch.IsUnsplit after)
    (hcollision : NoCollision (next runtime transform w event).texts) :
    Faithful runtime transform (next runtime transform w event) := by
  cases event with
  | edit after => exact h.edit (hunsplit after rfl) hcollision
  | fire =>
      rw [PreviewRun.next]
      split
      · exact h.pass rfl rfl
      · exact h
  | compileAll => exact h.pass rfl rfl
  | reload preview token => exact h.reload preview token

end Steps

/-! ## Whole runs -/

section Runs

variable {runtime : Runtime} {transform : Transform}

variable (runtime transform) in
theorem exists_texts_next (w : PreviewRun) (event : PreviewEvent) :
    ∃ later, (next runtime transform w event).texts = w.texts ++ later := by
  cases event with
  | edit after => exact ⟨[Watch.text after], rfl⟩
  | fire =>
      refine ⟨[], ?_⟩
      rw [next, List.append_nil]
      split <;> rfl
  | compileAll => exact ⟨[], (List.append_nil _).symm⟩
  | reload preview token => exact ⟨[], (List.append_nil _).symm⟩

variable (runtime transform) in
theorem exists_texts_foldl (w : PreviewRun) (events : List PreviewEvent) :
    ∃ later, (events.foldl (next runtime transform) w).texts = w.texts ++ later := by
  induction events generalizing w with
  | nil => exact ⟨[], (List.append_nil _).symm⟩
  | cons event events ih =>
      obtain ⟨first, hfirst⟩ := exists_texts_next runtime transform w event
      obtain ⟨rest, hrest⟩ := ih (next runtime transform w event)
      refine ⟨first ++ rest, ?_⟩
      rw [List.foldl_cons, hrest, hfirst, List.append_assoc]

theorem Faithful.foldl {w : PreviewRun} (h : Faithful runtime transform w)
    {events : List PreviewEvent}
    (hunsplit : ∀ after, .edit after ∈ events → Watch.IsUnsplit after)
    (hcollision : NoCollision (events.foldl (PreviewRun.next runtime transform) w).texts) :
    Faithful runtime transform (events.foldl (PreviewRun.next runtime transform) w) := by
  induction events generalizing w with
  | nil => exact h
  | cons event events ih =>
      rw [List.foldl_cons] at hcollision ⊢
      obtain ⟨later, hlater⟩ := exists_texts_foldl runtime transform
        (PreviewRun.next runtime transform w event) events
      have hevent : ∀ after, event = .edit after → Watch.IsUnsplit after :=
        fun after h => hunsplit after (h ▸ List.mem_cons_self)
      refine ih (h.next hevent ?_) (fun after hmem => hunsplit after (List.mem_cons_of_mem _ hmem))
        hcollision
      rw [hlater] at hcollision
      exact hcollision.of_append

/-- What the recompiler has seen of a graph it does not forget. -/
theorem seen_ne_none_next {w : PreviewRun} (h : w.recompiler.seen ≠ none) (event : PreviewEvent) :
    (next runtime transform w event).recompiler.seen ≠ none := by
  cases event with
  | edit after =>
      simp only [next, Recompiler.notify]
      split
      · exact h
      · simp
  | fire =>
      rw [next]
      split
      · exact h
      · exact h
  | compileAll => exact h
  | reload preview token => exact h

theorem seen_ne_none_edit (w : PreviewRun) (after : Graph) :
    (next runtime transform w (.edit after)).recompiler.seen ≠ none := by
  simp only [next, Recompiler.notify]
  split
  · next hsees =>
      have hseen : w.recompiler.seen = some (Watch.fingerprint after) := by
        simpa [Recompiler.sees] using hsees
      rw [hseen]
      simp
  · simp

theorem seen_ne_none_foldl {w : PreviewRun} {events : List PreviewEvent}
    (h : w.recompiler.seen ≠ none ∨ ∃ after, .edit after ∈ events) :
    (events.foldl (next runtime transform) w).recompiler.seen ≠ none := by
  induction events generalizing w with
  | nil =>
      obtain h | ⟨after, hmem⟩ := h
      · exact h
      · cases hmem
  | cons event events ih =>
      rw [List.foldl_cons]
      apply ih
      obtain h | ⟨after, hmem⟩ := h
      · exact .inl (seen_ne_none_next h event)
      · obtain rfl | hmem := List.mem_cons.1 hmem
        · exact .inl (seen_ne_none_edit w after)
        · exact .inr ⟨after, hmem⟩

end Runs

/-- Whenever the timer does not run after the graph was edited at least once, the document delivered
last to each running preview is the one that a compile of the current graph gives, with at most the
mark of a reload after it.  No edit may bring the two halves of a character next to one another. -/
theorem lastShown_of_not_isArmed (runtime : Runtime) (transform : Transform) (g : Graph)
    (events : List PreviewEvent) (hedited : ∃ after, .edit after ∈ events)
    (hunsplit : ∀ after, .edit after ∈ events → Watch.IsUnsplit after)
    (htexts : NoCollision (run runtime transform g events).texts)
    (hpages : NoCollision (run runtime transform g events).pages)
    (hquiet : (run runtime transform g events).recompiler.isArmed = false) :
    ∀ id ∈ (run runtime transform g events).graph.running, ∃ mark, IsMark mark ∧
      lastShown? (run runtime transform g events).deliveries id =
        some ((compile runtime transform id (run runtime transform g events).graph.nodes
          (run runtime transform g events).graph.connections none).html ++ mark) := by
  intro id hid
  have hfaithful : Faithful runtime transform (run runtime transform g events) :=
    (faithful_start g).foldl hunsplit htexts
  have hnoted : (run runtime transform g events).recompiler.seen ≠ none :=
    seen_ne_none_foldl (.inr hedited)
  obtain ⟨hpage, hknown⟩ := hfaithful.quiet hnoted hquiet id hid
  obtain ⟨text, htext, hhex, mark, hmark, hlast⟩ := hfaithful.shown id _ hknown
  rw [hpages text htext _ hpage hhex] at hlast
  exact ⟨mark, hmark, hlast⟩

/-- A preview is shown, reloaded and then moved: moving it starts no timer. -/
theorem lastShown_of_not_isArmed_moved :
    let file : Node := { id := "f", kind := .code, title := "index.html", content := "<p>" }
    let preview : Node := { id := "p", kind := .preview, title := "Preview" }
    let g : Graph :=
      { nodes := [file, preview], connections := [⟨"c", "f", "f-out-dom", "p", "p-in-dom"⟩]
        running := ["p"] }
    let moved : Graph := { g with nodes := [file, { preview with position := ⟨500, 500⟩ }] }
    let w := run {} .unchanged {} [.edit g, .fire, .reload "p" "7", .edit moved]
    w.recompiler.isArmed = false ∧ ∃ mark, IsMark mark ∧
      lastShown? w.deliveries "p" = some
        ((compile {} .unchanged "p" moved.nodes moved.connections none).html ++ mark) := by
  intro file preview g moved w
  have hunsplit : ∀ after, .edit after ∈
      ([.edit g, .fire, .reload "p" "7", .edit moved] : List PreviewEvent) →
        Watch.IsUnsplit after := by
    intro after hmem
    simp only [List.mem_cons, PreviewEvent.edit.injEq, reduceCtorEq, List.not_mem_nil, or_false,
      false_or] at hmem
    obtain rfl | rfl := hmem
    · constructor <;> simp [g, file, preview]
    · constructor <;> simp [moved, g, file, preview]
  have hsees : (run {} .unchanged {} [.edit g, .fire, .reload "p" "7"]).recompiler.sees moved =
      true := beq_self_eq_true (some (Watch.fingerprint g))
  have hquiet : w.recompiler.isArmed = false := by
    show ((run {} .unchanged {} [.edit g, .fire, .reload "p" "7"]).recompiler.notify
      moved).isArmed = false
    rw [Recompiler.notify, if_pos hsees]
    rfl
  have htexts : ∀ s ∈ w.texts, s = Watch.text g := by
    intro s hs
    have hs' : s ∈ [Watch.text g, Watch.text g] := hs
    simpa using hs'
  have hpages : ∀ s ∈ w.pages, s = page {} .unchanged g "p" := by
    intro s hs
    have hs' : s ∈ [page {} .unchanged g "p", page {} .unchanged g "p"] := hs
    simpa using hs'
  refine ⟨hquiet, lastShown_of_not_isArmed {} .unchanged {} _ ⟨g, List.mem_cons_self⟩
    hunsplit (noCollision_of_forall_eq htexts) (noCollision_of_forall_eq hpages) hquiet "p" ?_⟩
  exact List.mem_singleton.2 rfl

/-- An edit puts a character in the place of its two halves: it starts no timer, and the preview
goes on showing the document of the graph with the halves. -/
theorem lastShown_stale_of_split_pair :
    let file (content : Text) : Graph :=
      { nodes := [{ id := "f", kind := .code, title := "main.js", content },
          { id := "p", kind := .preview, title := "Preview" }]
        connections := [⟨"c", "f", "f-out-dom", "p", "p-in-dom"⟩], running := ["p"] }
    let halves := file (.ofList [.half 0x03d, .half 0x600])
    let whole := file "😀"
    let w := run {} .unchanged {} [.edit halves, .fire, .edit whole]
    NoCollision w.texts ∧ NoCollision w.pages ∧ w.recompiler.isArmed = false ∧
      .ofString "p" ∈ w.graph.running ∧
      ¬∃ mark, lastShown? w.deliveries "p" = some
        ((compile {} .unchanged "p" w.graph.nodes w.graph.connections none).html ++ mark) := by
  intro file halves whole w
  have htext : Watch.text whole = Watch.text halves := by decide +kernel
  have htexts : ∀ s ∈ w.texts, s = Watch.text halves := by
    intro s hs
    have hs' : s ∈ [Watch.text halves, Watch.text whole] := hs
    simpa [htext] using hs'
  have hpages : ∀ s ∈ w.pages, s = page {} .unchanged halves "p" := by
    intro s hs
    have hs' : s ∈ [page {} .unchanged halves "p"] := hs
    simpa using hs'
  have hsees : (run {} .unchanged {} [.edit halves, .fire]).recompiler.sees whole = true := by
    show (some (Sha256.hex (Watch.text halves)) == some (Sha256.hex (Watch.text whole))) = true
    rw [htext, beq_self_eq_true]
  have hquiet : w.recompiler.isArmed = false := by
    show ((run {} .unchanged {} [.edit halves, .fire]).recompiler.notify whole).isArmed = false
    rw [Recompiler.notify, if_pos hsees]
    rfl
  refine ⟨noCollision_of_forall_eq htexts, noCollision_of_forall_eq hpages, hquiet,
    List.mem_singleton.2 rfl, ?_⟩
  rintro ⟨mark, hlast⟩
  have hshown : page {} .unchanged halves "p" = page {} .unchanged whole "p" ++ mark :=
    Option.some.inj hlast
  have hroot (content : Text) : Traversal.singleSource "p" Role.dom (file content).nodes
      (file content).connections = some { id := "f", kind := .code, title := "main.js", content } :=
    rfl
  -- the character takes more room in the address of the script than the marks for its halves
  have hlonger :
      (page {} .unchanged halves "p").length < (page {} .unchanged whole "p").length := by
    simp only [page, compile, halves, whole, hroot, Compile.withRoot, Option.map_none,
      Option.getD_none, Text.append_empty]
    refine Document.length_render_lt _ ?_ ?_ <;> decide +kernel
  rw [hshown, Text.length_append] at hlonger
  omega

end PreviewRun
end LiveCanvas
