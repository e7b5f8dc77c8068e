import LiveCanvas.Proofs.Edit.Errors
import LiveCanvas.Proofs.Edit.LastWrite

/-!
# Reading back what a batch wrote

After a batch of writes a path is looked up by the connections as they are, while the batch went by
those from before.  The two look-ups agree on every file that was not moved, and a file that was
moved lies where the path that moved it says.
-/

namespace LiveCanvas

/-- A search with another test finds the same when nothing else passes the new test alone. -/
theorem find?_eq_some_of_imp {α : Type} {l : List α} {p q : α → Bool} {n : α}
    (hfind : l.find? p = some n) (hq : q n = true)
    (himp : ∀ a ∈ l, q a = true → a = n ∨ p a = true) : l.find? q = some n := by
  induction l with
  | nil => cases hfind
  | cons a l ih =>
      cases hqa : q a with
      | true =>
          rw [List.find?_cons_of_pos hqa]
          obtain rfl | hpa := himp a List.mem_cons_self hqa
          · rfl
          · rwa [List.find?_cons_of_pos hpa] at hfind
      | false =>
          have hpa : ¬p a = true := by
            intro hpa
            rw [List.find?_cons_of_pos hpa, Option.some.injEq] at hfind
            rw [hfind, hq] at hqa
            cases hqa
          rw [List.find?_cons_of_neg (by simp [hqa])]
          rw [List.find?_cons_of_neg hpa] at hfind
          exact ih hfind fun b hb => himp b (List.mem_cons_of_mem a hb)

namespace Settled

variable {g g' : Graph} {paths : List Text} {done : List (Text × Text)}
  {placed : List Text} {path code : Text} {n m : Node}
  (h : Settled g paths done placed g') (hpath : path ∈ paths)

include h

/-- A file that no path moved lies where it lay before the batch. -/
theorem pathOf_of_unmoved (hunmoved : ∀ p ∈ placed, ∀ folder,
    Path.move? p g'.nodes g.connections ≠ some (n.id, folder)) :
    Path.pathOf n g'.nodes g'.connections = Path.pathOf n g'.nodes g.connections :=
  Path.pathOf_eq_of_filings_eq (h.filed.unmoved n.id hunmoved)

include hpath

/-- A file that was moved comes to lie at a path only if the path leads to it. -/
theorem eq_of_moved (htitle : ∀ m ∈ g'.nodes, m.title ≠ path)
    (hn : Path.target? path g'.nodes g.connections = some n) (hm : m ∈ g'.nodes)
    (hlies : Path.pathOf m g'.nodes g'.connections = path) {q folder : Text} (hq : q ∈ placed)
    (hmove : Path.move? q g'.nodes g.connections = some (m.id, folder)) : m = n := by
  obtain ⟨f, hf, hfiled⟩ := h.filed.moved q hq m.id folder hmove
  have hfolder : path = folder ++ "/" ++ m.title := by
    obtain hbelow | hbare := Path.pathOf_of_filed h.sound hf hfiled
    · rw [← hlies, hbelow]
    · exact absurd (hbare.symm.trans hlies) (htitle m hm)
  obtain ⟨code', hcode'⟩ := h.written q hq
  have hused := h.used q code' hcode'
  obtain ⟨hsplit, htarget, hbelow⟩ := Path.target?_of_move? h.sound.ids_nodup hm hmove
  obtain hfind | ⟨-, hfind⟩ | ⟨-, hfind⟩ := Path.target?_cases htarget
  · have hmtitle : m.title = q := by simpa using List.find?_some hfind
    have hslash : .char '/' ∈ q.toList := by
      rw [hsplit]
      simp
    have hold := h.grew.title_of_slash h.apart hused hslash hm hmtitle
    have hasked := h.grew.folderAsked?_of_move? h.origin h.apart hused hmove
    rw [hmtitle] at hfolder
    exact absurd hfolder (h.apart.titles path hpath q hused hold folder hasked)
  · have hat : Path.pathOf m g'.nodes g.connections = q := by simpa using List.find?_some hfind
    rw [Path.isBelow_of_pathOf_eq (hat.trans hsplit)] at hbelow
    cases hbelow
  · have hbare := List.find?_some hfind
    simp only [Bool.and_eq_true, beq_iff_eq] at hbare
    rw [hbare.1, ← hsplit] at hfolder
    rw [← hfolder, hn, Option.some.injEq] at htarget
    exact htarget.symm

/-- Only the file that a path leads to comes to lie at that path. -/
theorem eq_of_pathOf_eq (htitle : ∀ m ∈ g'.nodes, m.title ≠ path)
    (hn : Path.target? path g'.nodes g.connections = some n) (hm : m ∈ g'.nodes)
    (hlies : Path.pathOf m g'.nodes g'.connections = path) :
    m = n ∨ Path.pathOf m g'.nodes g.connections = path := by
  by_cases hmoved : ∃ q ∈ placed, ∃ folder,
      Path.move? q g'.nodes g.connections = some (m.id, folder)
  · obtain ⟨q, hq, folder, hmove⟩ := hmoved
    exact .inl (h.eq_of_moved hpath htitle hn hm hlies hq hmove)
  · right
    have hstays : ∀ p ∈ placed, ∀ folder,
        Path.move? p g'.nodes g.connections ≠ some (m.id, folder) :=
      fun p hp folder hmove => hmoved ⟨p, hp, folder, hmove⟩
    rw [← h.pathOf_of_unmoved hstays, hlies]

/-- A file that lay at a path before the batch still lies there. -/
theorem pathOf_of_found (hn : Path.target? path g'.nodes g.connections = some n)
    (hlies : Path.pathOf n g'.nodes g.connections = path) :
    Path.pathOf n g'.nodes g'.connections = path := by
  rw [h.pathOf_of_unmoved, hlies]
  intro q hq folder hmove
  obtain ⟨code', hcode'⟩ := h.written q hq
  obtain ⟨hsplit, htarget, hbelow⟩ :=
    Path.target?_of_move? h.sound.ids_nodup (Path.mem_of_target? hn) hmove
  obtain rfl := h.grew.eq_of_target? h.origin h.apart hpath (h.used q code' hcode') hn htarget
  rw [Path.isBelow_of_pathOf_eq (hlies.trans hsplit)] at hbelow
  cases hbelow

/-- A file that was found by its bare name or made lies at the path that it was written at. -/
theorem pathOf_of_bare (hplaced : path ∈ placed)
    (hslash : .char '/' ∈ path.toList → (Path.split path).2 ≠ none)
    (hn : Path.target? path g'.nodes g.connections = some n)
    (hnone : ∀ m ∈ g'.nodes, m.title ≠ path ∧ Path.pathOf m g'.nodes g.connections ≠ path)
    (htitle : n.title = (Path.split path).1) (hkind : n.kind = .code) :
    Path.pathOf n g'.nodes g'.connections = path := by
  have hmem : n ∈ g'.nodes := Path.mem_of_target? hn
  cases hfolder : (Path.split path).2 with
  | none =>
      have hplain : .char '/' ∉ path.toList := fun hmem => hslash hmem hfolder
      rw [Path.split_of_slash_notMem hplain] at htitle
      exact absurd htitle (hnone n hmem).1
  | some folder =>
      have hmove := h.grew.move?_of_bare h.origin h.apart hpath hfolder
        (Path.resolve_eq_none_iff.2 hnone) hn
      obtain ⟨f, hf, hfiled⟩ := h.filed.moved path hplaced n.id folder hmove
      rw [Path.pathOf_of_filed_code h.sound hf hfiled hmem hkind, htitle]
      exact (Path.split_eq_some (Prod.ext rfl hfolder)).1.symm

/-- Every path leads to the file that was written at it. -/
theorem resolve (hplaced : path ∈ placed)
    (hslash : .char '/' ∈ path.toList → (Path.split path).2 ≠ none)
    (hn : Path.target? path g'.nodes g.connections = some n) :
    Path.resolve path g'.nodes g'.connections = some n := by
  unfold Path.resolve
  obtain hfind | ⟨htitle, hfind⟩ | ⟨hnone, hfind⟩ := Path.target?_cases hn
  · rw [hfind]
  · have hfound : Path.pathOf n g'.nodes g.connections = path := by
      simpa using List.find?_some hfind
    rw [List.find?_eq_none.2 fun m hm => by simpa using htitle m hm]
    apply find?_eq_some_of_imp hfind
    · rw [h.pathOf_of_found hpath hn hfound, beq_self_eq_true]
    · intro m hm hlies
      rw [beq_iff_eq] at hlies ⊢
      exact h.eq_of_pathOf_eq hpath htitle hn hm hlies
  · have hbare := List.find?_some hfind
    simp only [Bool.and_eq_true, beq_iff_eq] at hbare
    rw [List.find?_eq_none.2 fun m hm => by simpa using (hnone m hm).1]
    apply find?_eq_some_of_imp hfind
    · rw [h.pathOf_of_bare hpath hplaced hslash hn hnone hbare.1 hbare.2,
        beq_self_eq_true]
    · intro m hm hlies
      rw [beq_iff_eq] at hlies
      left
      exact (h.eq_of_pathOf_eq hpath (fun m hm => (hnone m hm).1) hn hm
        hlies).resolve_right (hnone m hm).2

end Settled

/-! ## The run -/

section Run

variable {g : Graph} {ids : IdSource} {c : BatchContext} {paths : List Text}
  {done updates : List (Text × Text)}
  (hbefore : c.before = g.connections)

include hbefore

/-- One write. -/
theorem Settled.updateFile {b : Batch} {path code : Text}
    (h : Settled g paths done (done.map (·.1)) b.graph) (hfollowed : b.Followed c.before ids)
    (hpath : path ∈ paths) (hallowed : ∀ refusal, b.decideUpdate c path code ≠ .error refusal) :
    Settled g paths (done ++ [(path, code)]) ((done ++ [(path, code)]).map (·.1))
      (b.apply c (.updateFile path code)).graph := by
  have hends : ∀ e ∈ c.before, e.source ∈ idsOf b.graph.nodes ∧ e.target ∈ idsOf b.graph.nodes := by
    intro e he
    rw [hbefore] at he
    obtain ⟨hsource, htarget⟩ := h.origin.ends_live e he
    exact ⟨h.grew.idsOf_subset hsource, h.grew.idsOf_subset htarget⟩
  obtain ⟨mid, hmid, hput, hplaced⟩ := Batch.placed_updateFile hfollowed hends hallowed
  rw [hbefore] at hput hplaced
  have hafter : (b.apply c (.updateFile path code)).graph.Sound :=
    ((Batch.keeps_followed c.before ids).apply hfollowed c _).sound
  have hcode : lastCode? (done ++ [(path, code)]) path = some code := by
    rw [lastCode?_concat, if_pos rfl]
  rw [List.map_append]
  exact (h.put hpath hmid hput).place hcode hafter hplaced

/-- Many writes, none of which is refused. -/
theorem Settled.applyCalls {b : Batch} (h : Settled g paths done (done.map (·.1)) b.graph)
    (hfollowed : b.Followed c.before ids) (calls : List Value)
    (hcalls : calls.map Command.ofCall = updates.map fun u => .ok (.updateFile u.1 u.2))
    (hpaths : ∀ u ∈ updates, u.1 ∈ paths)
    (hallowed : ∀ refusal, Annotation.refused refusal ∉
      (calls.foldl (fun b call => b.applyCall c call) b).report.annotations) :
    Settled g paths (done ++ updates) ((done ++ updates).map (·.1))
      (calls.foldl (fun b call => b.applyCall c call) b).graph := by
  induction calls generalizing b done updates with
  | nil =>
      obtain rfl : updates = [] := by simpa using hcalls.symm
      rwa [List.append_nil]
  | cons call calls ih =>
      cases updates with
      | nil => simp at hcalls
      | cons u updates =>
          simp only [List.map_cons, List.cons.injEq] at hcalls
          obtain ⟨hcall, hcalls⟩ := hcalls
          have happly : b.applyCall c call = b.apply c (.updateFile u.1 u.2) := by
            rw [Batch.applyCall, hcall]
          rw [List.foldl_cons, happly] at hallowed ⊢
          have hdecide : ∀ refusal, b.decideUpdate c u.1 u.2 ≠ .error refusal := by
            intro refusal hrefused
            apply hallowed refusal
            -- a refusal would still be in the report at the end
            apply (Batch.keeps_reported (.refused refusal)).applyCalls
            rw [Batch.apply, Batch.decide, hrefused]
            exact List.mem_append_right _ (List.mem_singleton_self _)
          have hstep := h.updateFile hbefore hfollowed (hpaths u List.mem_cons_self) hdecide
          have hmore : done ++ u :: updates = done ++ [u] ++ updates := by simp
          rw [hmore]
          exact ih hstep ((Batch.keeps_followed c.before ids).apply hfollowed c _) hcalls
            (fun u hu => hpaths u (List.mem_cons_of_mem _ hu)) hallowed

end Run

/-- A call that writes a file. -/
def writeCall (u : Text × Text) : Value :=
  .object [("name", .text "updateFile"),
    ("args", .object [("filename", .text u.1), ("code", .text u.2)])]

/-- After a batch of writes every path that was written leads to a file with what was written to it
last. -/
theorem exists_resolve_eq_lastCode {g : Graph} {ids : IdSource} {setting : BatchSetting}
    {updates : List (Text × Text)} {calls : List Value} (hsound : g.Sound)
    (hnames : Connection.NamesApart g.connections) (hfresh : ids.FreshFor g)
    (hcalls : calls.map Command.ofCall = updates.map fun u => .ok (.updateFile u.1 u.2))
    (hfolder : ∀ u ∈ updates, .char '/' ∈ u.1.toList → (Path.split u.1).2 ≠ none)
    (hallowed : (runBatch setting g ids calls).report.errors = [])
    (hapart : WritesApart g (updates.map (·.1))) :
    ∀ path ∈ updates.map (·.1), ∃ n,
      Path.resolve path (runBatch setting g ids calls).graph.nodes
        (runBatch setting g ids calls).graph.connections = some n ∧
      lastCode? updates path = some n.content := by
  let c : BatchContext := ⟨g.connections, setting.anchor, setting.permits, setting.placement⟩
  have hstart : (Batch.start g ids).Followed c.before ids :=
    ⟨Batch.regular_start hsound hfresh hnames.made, hnames.toNamedOnce⟩
  have hempty : Settled g (updates.map (·.1)) [] [] (Batch.start g ids).graph :=
    .start hsound hapart
  have hrun : Settled g (updates.map (·.1)) updates (updates.map (·.1))
      (runBatch setting g ids calls).graph :=
    hempty.applyCalls rfl hstart calls hcalls (fun u hu => List.mem_map_of_mem hu)
      (BatchReport.refused_notMem hallowed)
  intro path hpath
  obtain ⟨code, hcode⟩ := hrun.written path hpath
  obtain ⟨n, hn, hcontent⟩ := hrun.found path code hcode
  have hslash : .char '/' ∈ path.toList → (Path.split path).2 ≠ none := by
    obtain ⟨u, hu, rfl⟩ := List.mem_map.1 hpath
    exact hfolder u hu
  refine ⟨n, ?_, by rw [hcode, hcontent]⟩
  exact hrun.resolve hpath hpath hslash hn

/-- Files of one name in two folders, a file that is moved, a new file, and a second write. -/
theorem exists_resolve_eq_lastCode_same_name :
    let code (id title : Text) : Node := { id, kind := .code, title }
    let folder (id title : Text) : Node := { id, kind := .folder, title }
    let inFolder (id source target : Text) : Connection :=
      ⟨id, source, source ++ "-out-dom", target, target ++ "-in-files"⟩
    let g := Graph.build
      [code "a" "x.js", code "b" "x.js", folder "l" "lib", folder "u" "util", code "m" "main.js"]
      [inFolder "c" "a" "l", inFolder "d" "b" "u"]
    let updates : List (Text × Text) := [⟨"lib/x.js", "1"⟩, ⟨"util/x.js", "2"⟩,
      ⟨"app/main.js", "3"⟩, ⟨"new/n.js", "4"⟩, ⟨"lib/x.js", "5"⟩]
    g.Sound ∧ Connection.NamesApart g.connections ∧ IdSource.FreshFor {} g ∧
      (updates.map writeCall).map Command.ofCall =
        updates.map (fun u => .ok (.updateFile u.1 u.2)) ∧
      (∀ u ∈ updates, .char '/' ∈ u.1.toList → (Path.split u.1).2 ≠ none) ∧
      (runBatch {} g {} (updates.map writeCall)).report.errors = [] ∧
      WritesApart g (updates.map (·.1)) ∧
      ∀ path ∈ updates.map (·.1), ∃ n,
        Path.resolve path (runBatch {} g {} (updates.map writeCall)).graph.nodes
          (runBatch {} g {} (updates.map writeCall)).graph.connections = some n ∧
        lastCode? updates path = some n.content := by
  intro code folder inFolder g updates
  have hsound : g.Sound := Graph.sound_build _ _
  have hconnections : g.connections = [inFolder "c" "a" "l", inFolder "d" "b" "u"] := by
    decide +kernel
  have hnames : Connection.NamesApart g.connections := by
    rw [hconnections]
    refine ⟨⟨by decide +kernel, by decide +kernel⟩, ?_⟩
    intro c hc node direction role
    apply Port.ne_idOf_of_hyphen_notMem
    revert c
    decide +kernel
  have hfresh : IdSource.FreshFor {} g :=
    .of_not_endsInDigit {} (by decide +kernel) (by decide +kernel)
  have hcalls : (updates.map writeCall).map Command.ofCall =
      updates.map fun u => .ok (.updateFile u.1 u.2) := rfl
  have hfolder : ∀ u ∈ updates, .char '/' ∈ u.1.toList → (Path.split u.1).2 ≠ none := by
    decide +kernel
  have hallowed : (runBatch {} g {} (updates.map writeCall)).report.errors = [] := by
    decide +kernel
  have hapart : WritesApart g (updates.map (·.1)) := by decide +kernel
  exact ⟨hsound, hnames, hfresh, hcalls, hfolder, hallowed, hapart,
    exists_resolve_eq_lastCode hsound hnames hfresh hcalls hfolder hallowed hapart⟩

/-! ## Writes that get into each other's way -/

/-- The batch of writes is as it should be, and still a path does not lead to what was written to it
last. -/
structure Clashes (g : Graph) (updates : List (Text × Text)) : Prop where
  sound : g.Sound
  fresh : IdSource.FreshFor {} g
  paths : ∀ u ∈ updates, (Path.split u.1).1 ≠ "" ∧
    (.char '/' ∈ u.1.toList → (Path.split u.1).2 ≠ none)
  allowed : (runBatch {} g {} (updates.map writeCall)).report.errors = []
  lost : ∃ u ∈ updates,
    (Path.resolve u.1 (runBatch {} g {} (updates.map writeCall)).graph.nodes
      (runBatch {} g {} (updates.map writeCall)).graph.connections).map (·.content) ≠
        lastCode? updates u.1

theorem clashes_build {nodes : List Node} {connections : List Connection}
    {updates : List (Text × Text)}
    (hfresh : (∀ id ∈ idsOf (Graph.build nodes connections).nodes,
        IdSource.endsInDigit id = false) ∧
      ∀ e ∈ (Graph.build nodes connections).connections, IdSource.endsInDigit e.id = false)
    (hpaths : ∀ u ∈ updates, (Path.split u.1).1 ≠ "" ∧
      (.char '/' ∈ u.1.toList → (Path.split u.1).2 ≠ none))
    (hrun : (runBatch {} (.build nodes connections) {} (updates.map writeCall)).report.errors = [] ∧
      ∃ u ∈ updates, (Path.resolve u.1
        (runBatch {} (.build nodes connections) {} (updates.map writeCall)).graph.nodes
        (runBatch {} (.build nodes connections) {} (updates.map writeCall)).graph.connections).map
          (·.content) ≠ lastCode? updates u.1) : Clashes (.build nodes connections) updates :=
  ⟨Graph.sound_build _ _, .of_not_endsInDigit {} hfresh.1 hfresh.2, hpaths, hrun.1, hrun.2⟩

/-- None of the assumptions can be left out. -/
theorem clashes_of_writes :
    let code (id title : Text) : Node := { id, kind := .code, title }
    let folder (id title : Text) : Node := { id, kind := .folder, title }
    let inFolder (id source target : Text) : Connection :=
      ⟨id, source, source ++ "-out-dom", target, target ++ "-in-files"⟩
    let two := [code "a" "a.js", code "b" "b.js", folder "l" "lib"]
    -- two paths lead to one file
    Clashes (.build [] []) [("lib/a.js", "1"), ("util/a.js", "2")] ∧
    -- a folder is made with a path as its title
    Clashes (.build [] []) [("x/y", "1"), ("x/y/z", "2")] ∧
    -- a folder only begins like the one of the path
    Clashes (.build [code "f" "f.js", folder "l" "lib/sub"] [inFolder "c" "f" "l"])
      [("lib/f.js", "1")] ∧
    -- a title that is a path is moved
    Clashes (.build [code "t" "a/b", folder "z" "z"] [inFolder "c" "t" "z"])
      [("a/a/b", "1"), ("a/b", "2")] ∧
    -- two connections have one id
    Clashes (.build two [inFolder "c" "a" "l", inFolder "c" "b" "l"])
      [("lib/a.js", "1"), ("util/b.js", "2")] ∧
    -- the id of a connection is a port of another one
    Clashes (.build two [inFolder "c" "a" "l", inFolder "a-out-dom" "b" "l"])
      [("lib/a.js", "1"), ("util/b.js", "2")] ∧
    -- the id of a connection becomes a port of another one
    Clashes (.build two [inFolder "a-out-dom" "b" "l"])
      [("lib/a.js", "1"), ("util/b.js", "2")] := by
  intro code folder inFolder two
  refine ⟨?_, ?_, ?_, ?_, ?_, ?_, ?_⟩
  · exact clashes_build (by decide +kernel) (by decide +kernel) (by decide +kernel)
  · exact clashes_build (by decide +kernel) (by decide +kernel) (by decide +kernel)
  · exact clashes_build (by decide +kernel) (by decide +kernel) (by decide +kernel)
  · exact clashes_build (by decide +kernel) (by decide +kernel) (by decide +kernel)
  · exact clashes_build (by decide +kernel) (by decide +kernel) (by decide +kernel)
  · exact clashes_build (by decide +kernel) (by decide +kernel) (by decide +kernel)
  · exact clashes_build (by decide +kernel) (by decide +kernel) (by decide +kernel)

end LiveCanvas
