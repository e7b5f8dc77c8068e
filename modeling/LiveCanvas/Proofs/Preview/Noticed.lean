import LiveCanvas.Proofs.Preview.Delivery
import LiveCanvas.Workspace.Basic

/-!
# Which changes are noticed

A recompiler that is told of a change compares the graph with what it was told last, not with what
was compiled last.  Along a run both are recorded, and so is whether a timer was stopped that no
pass has made up for.  A change that the last pass did not see is passed over only when the graph is
back at what was told last; and then a timer was stopped, or the pass saw a graph that the
recompiler had not been told of.  All of this is up to pairs of halves, which are joined here.
-/

namespace LiveCanvas

/-! ## Runs -/

/-- A pass over the running previews. -/
structure PassRecord where
  /-- What previews saw of the graph. -/
  saw : Value
  /-- What they saw of it when the recompiler was told last. -/
  told : Option Value

/-- A workspace with a record of what was told and what was compiled. -/
structure NoticeRun where
  workspace : Workspace
  /-- What previews saw of the graph when the recompiler was told last. -/
  told : Option Value := none
  /-- The last pass. -/
  passed : Option PassRecord := none
  /-- The timer was stopped, and neither started again nor followed by a pass. -/
  calledOff : Bool := false
  /-- The watched texts that were digested. -/
  texts : List Text := []

namespace NoticeRun

variable (setup : WorkspaceSetup)

/-- What previews see of the graph, with pairs of halves joined. -/
def sight (w : NoticeRun) : Value := Watch.view (Watch.joined w.workspace.graph)

/-- Takes over what a pass leads to. -/
def pass (w : NoticeRun) (after : Workspace) : NoticeRun :=
  { w with workspace := after, passed := some ⟨w.sight, w.told⟩, calledOff := false }

/-- One event. -/
def step (w : NoticeRun) : RecompilerEvent → NoticeRun
  | .edit after => { w with workspace := { w.workspace with graph := after } }
  | .notify =>
    let (scheduled, after) := w.workspace.notify setup
    { w with
      workspace := after
      told := some w.sight
      calledOff := w.calledOff && !scheduled
      texts := w.texts ++ [Watch.text w.workspace.graph] }
  | .fire =>
    if w.workspace.recompiler.isArmed then w.pass (w.workspace.fire setup .compile) else w
  | .compileAll => w.pass (w.workspace.compileAll setup).2
  | .reload preview token => { w with workspace := (w.workspace.reload setup preview token).2 }
  | .cancel =>
    { w with
      workspace := w.workspace.cancelCompile
      calledOff := w.calledOff || w.workspace.recompiler.isArmed }

/-- A run from a graph that no preview has been compiled for. -/
def run (g : Graph) (events : List RecompilerEvent) : NoticeRun :=
  events.foldl (step setup) { workspace := { graph := g } }

theorem run_concat (g : Graph) (events : List RecompilerEvent) (event : RecompilerEvent) :
    run setup g (events ++ [event]) = step setup (run setup g events) event := by
  rw [run, List.foldl_append]
  rfl

/-! ## Telling a recompiler -/

section Notify

variable {setup : WorkspaceSetup} {w : Workspace}

theorem sees_iff (r : Recompiler) (g : Graph) :
    r.sees g = true ↔ r.seen = some (Watch.fingerprint g) :=
  beq_iff_eq

theorem notify_of_sees (h : w.recompiler.sees w.graph = true) : w.notify setup = (false, w) :=
  if_pos h

/-- What is not seen yet starts the timer. -/
theorem notify_of_not_sees (h : ¬ w.recompiler.sees w.graph = true) :
    w.notify setup = (true, { w with
      recompiler := { w.recompiler with
        seen := some (Watch.fingerprint w.graph), isArmed := true }
      compileAt := w.now + setup.compileDelay }) := by
  rw [Workspace.notify, if_neg h, Recompiler.notify, if_neg h]

variable (setup w) in
theorem notify_eq_true_iff :
    (w.notify setup).1 = true ↔ w.recompiler.seen ≠ some (Watch.fingerprint w.graph) := by
  rw [Ne, ← sees_iff]
  by_cases h : w.recompiler.sees w.graph = true
  · simp [notify_of_sees h, h]
  · simp [notify_of_not_sees h, h]

/-- A reload has no influence on what is noticed. -/
theorem reload_keeps (r : Recompiler) (compile : PreviewCompiler) (g : Graph) (preview : NodeId)
    (token : Text) :
    (r.reload compile g preview token).state.seen = r.seen ∧
      (r.reload compile g preview token).state.isArmed = r.isArmed := by
  rw [Recompiler.reload]
  cases compile g preview (some token) with
  | error e => exact ⟨rfl, rfl⟩
  | ok document => exact ⟨rfl, rfl⟩

end Notify

/-! ## Digests of what previews see -/

/-- The digest of what previews see. -/
def digest (v : Value) : Text := Sha256.hex (Json.write Json.tight v)

theorem digest_sight (w : NoticeRun) : digest w.sight = Watch.fingerprint w.workspace.graph :=
  congrArg Sha256.hex (Watch.text_joined w.workspace.graph)

/-- Previews see this of a graph whose watched text is among these. -/
def IsWatched (texts : List Text) (v : Value) : Prop :=
  ∃ g, v = Watch.view (Watch.joined g) ∧ Watch.text g ∈ texts

theorem IsWatched.append {texts : List Text} {v : Value} (h : IsWatched texts v)
    (later : List Text) : IsWatched (texts ++ later) v := by
  obtain ⟨g, hview, htext⟩ := h
  exact ⟨g, hview, List.mem_append_left _ htext⟩

theorem isWatched_concat (texts : List Text) (g : Graph) :
    IsWatched (texts ++ [Watch.text g]) (Watch.view (Watch.joined g)) :=
  ⟨g, rfl, List.mem_append_right _ List.mem_cons_self⟩

theorem IsWatched.eq_of_digest_eq {texts : List Text} (hcollision : NoCollision texts)
    {v v' : Value} (hv : IsWatched texts v) (hv' : IsWatched texts v')
    (h : digest v = digest v') : v = v' := by
  obtain ⟨g, rfl, hg⟩ := hv
  obtain ⟨g', rfl, hg'⟩ := hv'
  have hhex : Sha256.hex (Watch.text g) = Sha256.hex (Watch.text g') := by
    rw [← Watch.text_joined g, ← Watch.text_joined g']
    exact h
  exact Watch.view_joined_eq_of_text_eq (hcollision _ hg _ hg' hhex)

/-! ## What every step keeps -/

/-- The record fits the recompiler. -/
structure Noted (w : NoticeRun) : Prop where
  /-- What was told last was seen last. -/
  seen : w.workspace.recompiler.seen = w.told.map digest
  told : ∀ v ∈ w.told, IsWatched w.texts v
  passed : ∀ p ∈ w.passed, ∀ v ∈ p.told, IsWatched w.texts v
  /-- Without a timer, and unless one was stopped, the last pass came after what was told last. -/
  quiet : w.workspace.recompiler.isArmed = false → w.calledOff = false →
    ∀ v ∈ w.told, ∃ p ∈ w.passed, ∃ v' ∈ p.told, digest v' = digest v

section Steps

variable {setup : WorkspaceSetup} {w : NoticeRun}

theorem noted_start (g : Graph) : Noted { workspace := { graph := g } } where
  seen := rfl
  told := fun _ h => by cases h
  passed := fun _ h => by cases h
  quiet := fun _ _ _ h => by cases h

theorem Noted.notify (h : Noted w) : Noted (step setup w .notify) := by
  have htold : ∀ v ∈ some w.sight, IsWatched (w.texts ++ [Watch.text w.workspace.graph]) v := by
    intro v hv
    obtain rfl := Option.mem_some.1 hv
    exact isWatched_concat _ _
  have hpassed : ∀ p ∈ w.passed, ∀ v ∈ p.told,
      IsWatched (w.texts ++ [Watch.text w.workspace.graph]) v :=
    fun p hp v hv => (h.passed p hp v hv).append _
  by_cases hsees : w.workspace.recompiler.sees w.workspace.graph = true
  · have hstep : step setup w .notify = { w with
        told := some w.sight, texts := w.texts ++ [Watch.text w.workspace.graph] } := by
      rw [step, notify_of_sees hsees]
      simp
    have hseen := (sees_iff _ _).1 hsees
    rw [hstep]
    rw [← digest_sight] at hseen
    refine ⟨hseen, htold, hpassed, fun harmed hcalledOff v hv => ?_⟩
    -- what was told before has the same digest
    obtain rfl := Option.mem_some.1 hv
    rw [h.seen] at hseen
    obtain ⟨before, hbefore, hdigest⟩ := Option.map_eq_some_iff.1 hseen
    obtain ⟨p, hp, v', hv', hsame⟩ := h.quiet harmed hcalledOff before hbefore
    exact ⟨p, hp, v', hv', hsame.trans hdigest⟩
  · rw [step, notify_of_not_sees hsees]
    refine ⟨?_, htold, hpassed, fun harmed => by cases harmed⟩
    exact congrArg some (digest_sight w).symm

/-- A pass comes after all that was told, whatever started it. -/
theorem Noted.pass (h : Noted w) {after : Workspace}
    (hseen : after.recompiler.seen = w.workspace.recompiler.seen) : Noted (w.pass after) where
  seen := hseen.trans h.seen
  told := h.told
  passed := by
    intro p hp
    obtain rfl := Option.mem_some.1 hp
    exact h.told
  quiet := fun _ _ v hv => ⟨_, rfl, v, hv, rfl⟩

theorem Noted.reload (h : Noted w) (preview : NodeId) (token : Text) :
    Noted (step setup w (.reload preview token)) := by
  obtain ⟨hseen, harmed⟩ :=
    reload_keeps w.workspace.recompiler setup.compile w.workspace.graph preview token
  exact ⟨hseen.trans h.seen, h.told, h.passed, fun hquiet => h.quiet (harmed.symm.trans hquiet)⟩

/-- A timer that is stopped is on record, so nothing is claimed of it. -/
theorem Noted.cancel (h : Noted w) : Noted (step setup w .cancel) where
  seen := h.seen
  told := h.told
  passed := h.passed
  quiet := by
    intro _ hcalledOff
    obtain ⟨hbefore, harmed⟩ := Bool.or_eq_false_iff.1 hcalledOff
    exact h.quiet harmed hbefore

theorem Noted.step (h : Noted w) (event : RecompilerEvent) : Noted (step setup w event) := by
  cases event with
  | edit after => exact ⟨h.seen, h.told, h.passed, h.quiet⟩
  | notify => exact h.notify
  | fire =>
      rw [NoticeRun.step]
      split
      · exact h.pass rfl
      · exact h
  | compileAll => exact h.pass rfl
  | reload preview token => exact h.reload preview token
  | cancel => exact h.cancel

theorem noted_run (g : Graph) (events : List RecompilerEvent) : Noted (run setup g events) := by
  induction events using List.reverseRecOn with
  | nil => exact noted_start g
  | append_singleton events event ih =>
      rw [run_concat]
      exact ih.step event

end Steps

/-- A recompiler that is told of a change starts the timer exactly when previews see another graph
than when it was told last.  So if the timer does not run, a change that the last pass did not see
starts it, unless a timer was stopped and no pass has come since, or the last pass saw another graph
than the recompiler was told of. -/
theorem notify_of_unseen_change (setup : WorkspaceSetup) (g : Graph)
    (events : List RecompilerEvent)
    (hcollision : NoCollision ((run setup g events).texts ++
      [Watch.text (run setup g events).workspace.graph])) :
    let w := run setup g events
    let noticed := w.workspace.notify setup
    (noticed.1 = true ↔ w.told ≠ some w.sight) ∧
    (noticed.1 = true → noticed.2.recompiler.isArmed = true) ∧
    (w.workspace.recompiler.isArmed = false → (∀ p ∈ w.passed, p.saw ≠ w.sight) →
      w.calledOff = false → (∀ p ∈ w.passed, p.told = some p.saw) → noticed.1 = true) := by
  intro w noticed
  have hnoted : Noted w := noted_run g events
  have hsight := isWatched_concat w.texts w.workspace.graph
  have hiff : noticed.1 = true ↔ w.told ≠ some w.sight := by
    rw [notify_eq_true_iff, hnoted.seen, ← digest_sight, not_iff_not]
    constructor
    · intro hseen
      obtain ⟨v, hv, hdigest⟩ := Option.map_eq_some_iff.1 hseen
      rw [hv, ((hnoted.told v hv).append _).eq_of_digest_eq hcollision hsight hdigest]
      rfl
    · intro htold
      rw [htold]
      rfl
  refine ⟨hiff, ?_, fun harmed hsaw hcalledOff htold => hiff.2 fun hback => ?_⟩
  · intro hscheduled
    have hsees : ¬ w.workspace.recompiler.sees w.workspace.graph = true := by
      rw [sees_iff]
      exact (notify_eq_true_iff setup w.workspace).1 hscheduled
    simp only [noticed, notify_of_not_sees hsees]
  · -- the graph is back at what was told, which is what the last pass saw
    obtain ⟨p, hp, v, hv, hdigest⟩ := hnoted.quiet harmed hcalledOff w.sight hback
    have hv' : v = p.saw := Option.some.inj (hv.symm.trans (htold p hp))
    have hwatched := (hnoted.passed p hp v hv).append [Watch.text w.workspace.graph]
    exact hsaw p hp (hv' ▸ hwatched.eq_of_digest_eq hcollision hsight hdigest)

/-- A preview is compiled and then stops. -/
theorem notify_of_unseen_change_stopped :
    let setup : WorkspaceSetup := { compile := ({} : Runtime).compiler .unchanged }
    let g : Graph := { nodes := [{ id := "p", kind := .preview, title := "P" }], running := ["p"] }
    let still : Graph := { g with running := [] }
    let w := run setup g [.notify, .fire, .edit still]
    NoCollision (w.texts ++ [Watch.text w.workspace.graph]) ∧
    w.workspace.recompiler.isArmed = false ∧ (∀ p ∈ w.passed, p.saw ≠ w.sight) ∧
    w.calledOff = false ∧ (∀ p ∈ w.passed, p.told = some p.saw) ∧
    (w.workspace.notify setup).1 = true := by
  intro setup g still w
  have hdigest : Sha256.hex (Watch.text g) ≠ Sha256.hex (Watch.text still) := by
    decide +kernel
  have hcollision : NoCollision (w.texts ++ [Watch.text w.workspace.graph]) := by
    have htexts : w.texts ++ [Watch.text w.workspace.graph] =
        [Watch.text g, Watch.text still] := rfl
    rw [htexts]
    intro s hs t ht hhex
    simp only [List.mem_cons, List.not_mem_nil, or_false] at hs ht
    obtain rfl | rfl := hs <;> obtain rfl | rfl := ht
    · rfl
    · exact absurd hhex hdigest
    · exact absurd hhex.symm hdigest
    · rfl
  have hpassed : w.passed = some ⟨Watch.view g, some (Watch.view g)⟩ := rfl
  have hsaw : ∀ p ∈ w.passed, p.saw ≠ w.sight := by
    intro p hp hsame
    rw [hpassed, Option.mem_some] at hp
    subst hp
    exact hdigest (congrArg digest hsame)
  have htold : ∀ p ∈ w.passed, p.told = some p.saw := by
    intro p hp
    rw [hpassed, Option.mem_some] at hp
    subst hp
    rfl
  exact ⟨hcollision, rfl, hsaw, rfl, htold,
    (notify_of_unseen_change setup g _ hcollision).2.2 rfl hsaw rfl htold⟩

/-- Two changes that are passed over.  One was told before a timer that was stopped; the other takes
back an edit that was compiled without being told of. -/
theorem notify_passes_over_known_text :
    let setup : WorkspaceSetup := { compile := ({} : Runtime).compiler .unchanged }
    let file (content : Text) : Graph :=
      { nodes := [{ id := "f", kind := .code, title := "index.html", content },
          { id := "p", kind := .preview, title := "Preview" }]
        connections := [⟨"c", "f", "f-out-dom", "p", "p-in-dom"⟩], running := ["p"] }
    let stopped := run setup (file "<p>") [.notify, .cancel]
    let undone := run setup (file "<p>")
      [.notify, .edit (file "<b>"), .fire, .edit (file "<p>")]
    (stopped.workspace.recompiler.isArmed = false ∧ stopped.passed.isNone ∧
      (stopped.workspace.notify setup).1 = false) ∧
    undone.workspace.recompiler.isArmed = false ∧
      (∃ p ∈ undone.passed, p.saw ≠ undone.sight) ∧
      (undone.workspace.notify setup).1 = false := by
  intro setup file stopped undone
  have hpassed : undone.passed =
      some ⟨Watch.view (file "<b>"), some (Watch.view (file "<p>"))⟩ := rfl
  have hother : Watch.view (file "<b>") ≠ Watch.view (file "<p>") := by
    intro hsame
    have htext := congrArg (Json.write Json.tight) hsame
    revert htext
    decide +kernel
  have hstopped : stopped.workspace.recompiler.sees stopped.workspace.graph = true :=
    beq_self_eq_true (some (Watch.fingerprint (file "<p>")))
  have hundone : undone.workspace.recompiler.sees undone.workspace.graph = true :=
    beq_self_eq_true (some (Watch.fingerprint (file "<p>")))
  refine ⟨⟨rfl, rfl, ?_⟩, rfl, ⟨_, hpassed, hother⟩, ?_⟩
  · rw [notify_of_sees hstopped]
  · rw [notify_of_sees hundone]

end NoticeRun
end LiveCanvas
