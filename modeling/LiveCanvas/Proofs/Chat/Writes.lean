import LiveCanvas.Collab.Presence
import LiveCanvas.Proofs.Canvas.History
import LiveCanvas.Proofs.Chat.Marks
import LiveCanvas.Proofs.Edit.Descent
import LiveCanvas.Workspace.Basic
import Mathlib.Data.List.Chain
import Mathlib.Data.List.Infix

/-!
# Whether the end of a turn may write

A turn on one file asks whether it may change the file before it asks the service.  By the time the
answer arrives somebody else may have taken the lock.  The calls of an answer ask again, each before
it changes anything.  The text of an answer without calls does not: it is written into the file
whoever holds the lock by then.
-/

namespace LiveCanvas

/-- What can happen to a graph while a turn waits: any change, and other sessions that take and
release locks by being there. -/
inductive Meanwhile
  | change (change : Change)
  | presence (presence : Presence)

/-- What it makes of the graph. -/
def Meanwhile.apply (g : Graph) : Meanwhile → Graph
  | change c => c.apply g
  | presence p => p.applyLocks g

/-- A step from one graph to the next writes into no node but those that may be changed. -/
def WritesPermitted (identity : Option Text) (g g' : Graph) : Prop :=
  ∀ n ∈ g.nodes, ∀ m ∈ g'.nodes, m.id = n.id → m.content ≠ n.content →
    g.permits identity n.id = true

/-- The graphs that the end of a turn on one file goes through, from the one that the answer finds
to the one without the marks of the turn.  Each call of the answer is a step, and so is its text. -/
def Turn.stages (turn : Turn) (a : Assistant) (file : NodeId) (g : Graph) (ids : IdSource) :
    Except ServiceError Reply → List Graph
  | .error _ => [g, turn.unmark g]
  | .ok reply =>
    if reply.calls.isEmpty then
      let written := if reply.text = "" then g else g.setContent file (Prompt.codeOf reply.text)
      [g, written, turn.unmark written]
    else
      (reply.calls.inits.map fun calls => (applyCalls a (some file) g ids calls).graph) ++
        [turn.unmark (applyCalls a (some file) g ids reply.calls).graph]

/-- However the graph is changed meanwhile, it stays sound. -/
theorem Graph.Sound.meanwhile {g : Graph} (h : g.Sound) (events : List Meanwhile) :
    (events.foldl Meanwhile.apply g).Sound := by
  induction events generalizing g with
  | nil => exact h
  | cons event events ih =>
      refine ih ?_
      cases event with
      | change c => exact h.apply c
      | presence p => exact h.of_same (by simp [Meanwhile.apply, Presence.applyLocks, idsOf]) rfl

section Steps

variable {identity : Option Text} {g g' : Graph}

/-- Changing nodes in place writes nothing if their contents stay. -/
theorem writesPermitted_of_map (hnodup : (idsOf g.nodes).Nodup) {change : Node → Node}
    (hid : ∀ n, (change n).id = n.id) (hcontent : ∀ n, (change n).content = n.content)
    (hnodes : g'.nodes = g.nodes.map change) : WritesPermitted identity g g' := by
  intro n hn m hm hsame hne
  rw [hnodes] at hm
  obtain ⟨old, hold, rfl⟩ := List.mem_map.1 hm
  obtain rfl : n = old := eq_of_mem_of_id_eq hnodup hn hold (hsame.symm.trans (hid old))
  exact absurd (hcontent n) hne

theorem writesPermitted_refl (hnodup : (idsOf g.nodes).Nodup) : WritesPermitted identity g g :=
  writesPermitted_of_map hnodup (fun _ => rfl) (fun _ => rfl) (List.map_id _).symm

theorem writesPermitted_unmark (turn : Turn) (hnodup : (idsOf g.nodes).Nodup) :
    WritesPermitted identity g (turn.unmark g) :=
  writesPermitted_of_map hnodup (Graph.id_markIn turn.loading false)
    (Graph.content_markIn turn.loading false) (by rw [Turn.unmark, Graph.setLoadingAll_eq])

/-- Writing a file is permitted just if the file may be changed, or has the content already. -/
theorem writesPermitted_setContent (hnodup : (idsOf g.nodes).Nodup) (file : NodeId)
    (content : Text) :
    WritesPermitted identity g (g.setContent file content) ↔
      ∀ n, g.node? file = some n → n.content ≠ content → g.permits identity file = true := by
  constructor
  · intro h n hn hne
    obtain ⟨hmem, hid⟩ := Graph.node?_eq_some hn
    refine hid ▸ h n hmem { n with content } ?_ rfl hne.symm
    exact List.mem_map.2 ⟨n, hmem, if_pos hid⟩
  · intro h n hn m hm hsame hne
    obtain ⟨old, hold, rfl⟩ := List.mem_map.1 hm
    have hkept : (if old.id = file then { old with content } else old).id = old.id := by
      split <;> rfl
    obtain rfl : n = old := eq_of_mem_of_id_eq hnodup hn hold (hsame.symm.trans hkept)
    split at hne
    · next hfile =>
      subst hfile
      exact h n (Graph.node?_of_mem hnodup hn) hne.symm
    · exact absurd rfl hne

/-- Every call asks before it writes. -/
theorem writesPermitted_applyCalls (a : Assistant) (anchor : Option NodeId)
    (hnodup : (idsOf g.nodes).Nodup) {ids : IdSource} (hfresh : ids.FreshFor g)
    (calls : List Value) (call : Value) :
    WritesPermitted a.identity (Turn.applyCalls a anchor g ids calls).graph
      (Turn.applyCalls a anchor g ids (calls ++ [call])).graph := by
  intro n hn m hm hsame hne
  unfold Turn.applyCalls at hm
  rw [runBatch_concat] at hm
  exact Batch.permits_of_content_ne (tidy_runBatch hnodup hfresh _ calls) call hn hm hsame hne

end Steps

section Inits

variable {α β : Type}

theorem inits_concat (calls : List α) (call : α) :
    (calls ++ [call]).inits = calls.inits ++ [calls ++ [call]] := by
  rw [List.inits_append]
  rfl

theorem getLast?_inits (calls : List α) : calls.inits.getLast? = some calls := by
  induction calls using List.reverseRecOn with
  | nil => rfl
  | append_singleton calls call ih => rw [inits_concat, List.getLast?_concat]

/-- When each step from one run to the next is right, they are all right from none to the whole. -/
theorem isChain_map_inits {R : β → β → Prop} {run : List α → β}
    (hstep : ∀ calls call, R (run calls) (run (calls ++ [call]))) (calls : List α) :
    List.IsChain R (calls.inits.map run) := by
  induction calls using List.reverseRecOn with
  | nil => exact List.isChain_singleton _
  | append_singleton calls call ih =>
      rw [inits_concat, List.map_append, List.isChain_append]
      refine ⟨ih, List.isChain_singleton _, ?_⟩
      rw [List.getLast?_map, getLast?_inits]
      simp [hstep]

end Inits

/-- The answer is a text without calls that would be written into a file that may not be changed. -/
def WritesUnasked (identity : Option Text) (file : NodeId) (g : Graph) :
    Except ServiceError Reply → Prop
  | .error _ => False
  | .ok reply => reply.calls.isEmpty = true ∧ reply.text ≠ "" ∧
      g.permits identity file = false ∧
        ∃ n, g.node? file = some n ∧ n.content ≠ Prompt.codeOf reply.text

section Stages

variable {a : Assistant} {file : NodeId} {g : Graph} {ids : IdSource} {reply : Reply}

theorem head?_stages (turn : Turn) (a : Assistant) (file : NodeId) (g : Graph) (ids : IdSource)
    (answer : Except ServiceError Reply) : (turn.stages a file g ids answer).head? = some g := by
  unfold Turn.stages
  split
  · rfl
  · next reply =>
    split
    · rfl
    · cases reply.calls <;> rfl

/-- The last stage is what the turn leaves. -/
theorem getLast?_stages {turn : Turn} (hkind : turn.kind = .generate file) (a : Assistant)
    (g : Graph) (ids : IdSource) (answer : Except ServiceError Reply) :
    (turn.stages a file g ids answer).getLast? = some (turn.finish a g ids answer).graph := by
  cases answer with
  | error e => simp [Turn.stages, Turn.finish, Turn.apply, Turn.endFailed, hkind]
  | ok reply =>
      cases hcalls : reply.calls.isEmpty with
      | true => simp [Turn.stages, Turn.finish, Turn.apply, Turn.endGenerate, hkind, hcalls]
      | false => simp [Turn.stages, Turn.finish, Turn.apply, Turn.endGenerate, hkind, hcalls]

/-- The calls of an answer ask before they write, one by one. -/
theorem isChain_stages_of_calls (turn : Turn) (hnodup : (idsOf g.nodes).Nodup)
    (hfresh : ids.FreshFor g) (hcalls : reply.calls.isEmpty = false) :
    List.IsChain (WritesPermitted a.identity) (turn.stages a file g ids (.ok reply)) := by
  have hedited := (tidy_runBatch hnodup hfresh
    ⟨some file, fun g => g.permits a.identity, a.placement⟩ reply.calls).nodup
  simp only [Turn.stages, hcalls, Bool.false_eq_true, if_false]
  rw [List.isChain_append]
  refine ⟨isChain_map_inits ?_ reply.calls, List.isChain_singleton _, ?_⟩
  · exact writesPermitted_applyCalls a (some file) hnodup hfresh
  · rw [List.getLast?_map, getLast?_inits]
    rintro _ ⟨rfl⟩ _ ⟨rfl⟩
    exact writesPermitted_unmark turn hedited

/-- The text of an answer is written without asking. -/
theorem isChain_stages_of_text (turn : Turn) (hnodup : (idsOf g.nodes).Nodup)
    (hcalls : reply.calls.isEmpty = true) :
    List.IsChain (WritesPermitted a.identity) (turn.stages a file g ids (.ok reply)) ↔
      ¬ WritesUnasked a.identity file g (.ok reply) := by
  simp only [Turn.stages, hcalls, if_true]
  rw [List.isChain_cons_cons, List.isChain_pair]
  by_cases htext : reply.text = ""
  · have hunasked : ¬ WritesUnasked a.identity file g (.ok reply) := fun h => h.2.1 htext
    simp only [htext, if_true, hunasked, not_false_eq_true, iff_true]
    exact ⟨writesPermitted_refl hnodup, writesPermitted_unmark turn hnodup⟩
  · -- what takes the marks away writes nothing, so only the text counts
    have hids : idsOf (g.setContent file (Prompt.codeOf reply.text)).nodes = idsOf g.nodes :=
      Graph.idsOf_modifyNode fun _ => rfl
    have hwritten := hids.symm ▸ hnodup
    simp only [htext, if_false, writesPermitted_setContent hnodup,
      writesPermitted_unmark turn hwritten, and_true]
    constructor
    · rintro hpermitted ⟨-, -, hlocked, n, hn, hne⟩
      exact Bool.false_ne_true (hlocked.symm.trans (hpermitted n hn hne))
    · intro hunasked n hn hne
      by_contra hlocked
      exact hunasked ⟨hcalls, htext, Bool.not_eq_true _ ▸ hlocked, n, hn, hne⟩

end Stages

/-- Whatever happens while a turn on one file waits, and whatever the answer is: the end of the turn
writes into no node that may not be changed at that moment, unless the answer is a text without
calls that differs from what the file has, and the file may not be changed. -/
theorem writes_permitted_iff {g begun : Graph} {a : Assistant} {file : NodeId}
    {request : Option Text} {turn : Turn} (hsound : g.Sound)
    (hbegin : Turn.beginGenerate a g file request = some (turn, begun)) (events : List Meanwhile)
    {ids : IdSource} (hfresh : ids.FreshFor (events.foldl Meanwhile.apply begun))
    (answer : Except ServiceError Reply) :
    let arrived := events.foldl Meanwhile.apply begun
    let stages := turn.stages a file arrived ids answer
    stages.head? = some arrived ∧
    stages.getLast? = some (turn.finish a arrived ids answer).graph ∧
    (List.IsChain (WritesPermitted a.identity) stages ↔
      ¬ WritesUnasked a.identity file arrived answer) := by
  intro arrived stages
  obtain ⟨hkind, -, rfl⟩ := Turn.beginGenerate_eq_some hbegin
  have hnodup : (idsOf arrived.nodes).Nodup :=
    ((hsound.of_same (by simp [Turn.mark]) (by simp [Turn.mark, Graph.setLoadingAll_eq])).meanwhile
      events).ids_nodup
  refine ⟨head?_stages turn a file arrived ids answer,
    getLast?_stages hkind a arrived ids answer, ?_⟩
  cases answer with
  | error e =>
      have hchain : List.IsChain (WritesPermitted a.identity) stages :=
        List.isChain_pair.2 (writesPermitted_unmark turn hnodup)
      exact iff_of_true hchain id
  | ok reply =>
      cases hcalls : reply.calls.isEmpty with
      | true => exact isChain_stages_of_text turn hnodup hcalls
      | false =>
          refine iff_of_true (isChain_stages_of_calls turn hnodup hfresh hcalls) fun h => ?_
          exact Bool.false_ne_true (hcalls.symm.trans h.1)

/-- Bob takes the lock while Ada's turn waits, and the answer asks for an edit of the file. -/
theorem writes_permitted_iff_call_on_locked :
    let g := Graph.build [{ id := "a", kind := .code, title := "a.js", content := "old" }] []
    let a : Assistant := { identity := some "ada" }
    let call : Value := .object [("name", .text "updateFile"),
      ("args", .object [("filename", .text "a.js"), ("code", .text "new")])]
    ∃ turn begun, Turn.beginGenerate a g "a" none = some (turn, begun) ∧
      IdSource.FreshFor {} (begun.lock "a" "bob") ∧
      (begun.lock "a" "bob").permits (some "ada") "a" = false ∧
      List.IsChain (WritesPermitted (some "ada"))
        (turn.stages a "a" (begun.lock "a" "bob") {} (.ok { calls := [call] })) := by
  intro g a call
  have hbegins : ((Turn.beginGenerate a g "a" none).all fun begun =>
      (begun.2.lock "a" "bob").nodes.map (fun n => n.id) == ["a"].map Text.ofString &&
        (begun.2.lock "a" "bob").connections.isEmpty &&
        !(begun.2.lock "a" "bob").permits (some "ada") "a") = true := by
    decide +kernel
  cases hbegin : Turn.beginGenerate a g "a" none with
  | none => exact absurd (congrArg Option.isSome hbegin) (by decide +kernel)
  | some pair =>
      obtain ⟨turn, begun⟩ := pair
      simp only [hbegin, Option.all_some, Bool.and_eq_true, beq_iff_eq, List.isEmpty_iff,
        Bool.not_eq_true'] at hbegins
      obtain ⟨⟨hids, hconnections⟩, hlocked⟩ := hbegins
      have hfresh : IdSource.FreshFor {} (begun.lock "a" "bob") := by
        refine .of_not_endsInDigit {} ?_ ?_
        · rw [idsOf, hids]
          decide +kernel
        · simp [hconnections]
      obtain ⟨-, -, hchain⟩ := writes_permitted_iff (Graph.sound_build _ _) hbegin
        [.change (.lock "a" "bob")] hfresh (.ok { calls := [call] })
      exact ⟨turn, begun, rfl, hfresh, hlocked, hchain.2 fun h => Bool.false_ne_true h.1⟩

/-- The text of an answer overwrites a file that somebody else has locked by then, whether Bob took
the lock here or a snapshot brought it while the turn waited.  A call with the same content leaves
the file alone. -/
theorem text_written_into_locked :
    let code : Node := { id := "a", kind := .code, title := "a.js", content := "old" }
    let g := Graph.build [code] []
    let a : Assistant := { identity := some "ada" }
    let call : Value := .object [("name", .text "updateFile"),
      ("args", .object [("filename", .text "a.js"), ("code", .text "new")])]
    let after (reply : Reply) := (Turn.beginGenerate a g "a" none).map fun (turn, begun) =>
      let arrived := begun.lock "a" "bob"
      (arrived.permits a.identity "a",
        (turn.finish a arrived {} (.ok reply)).graph.nodes.map fun n => n.content)
    let payload : Value := .object [("nodes", .list [.object [("id", .text "a"),
      ("type", .text "CODE"), ("title", .text "a.js"), ("content", .text "old"),
      ("lockedBy", .text "bob")]])]
    let setup : WorkspaceSetup := { compile := fun _ _ _ => .error .noFields }
    let w := ({ graph := g } : Workspace).push setup payload
    let r := w.turn setup a ["k"] 60 [{ delay := 2, outcome := .answered { text := "new" } }]
      (Turn.beginGenerate a g "a" none)
    after { text := "new" } = some (false, ["new"].map Text.ofString) ∧
      after { calls := [call] } = some (false, ["old"].map Text.ofString) ∧
      r.workspace.graph.permits a.identity "a" = false ∧
      r.workspace.graph.nodes.map (·.content) = ["new"].map Text.ofString := by
  decide +kernel

end LiveCanvas
