import LiveCanvas.Proofs.Edit.Refused

/-!
# Lines that read as errors

The errors of a batch are found again by how its lines begin.  The line of a refusal begins with the
mark of an error, and no other line does but one: that a file is already connected is told with the
title of the file in front, and a title may begin with the mark.  So the errors are the lines of the
calls that were refused, and the lines that are misread in this way.
-/

namespace LiveCanvas

/-- A pattern without the next character begins a text just if it begins the part before. -/
theorem prefix_append_cons_iff {p s rest : List Rune} {c : Rune} (h : c ∉ p) :
    p <+: s ++ c :: rest ↔ p <+: s := by
  constructor
  · intro hp
    have hs : s <+: s ++ c :: rest := List.prefix_append s (c :: rest)
    obtain hp' | ⟨more, rfl⟩ := List.prefix_or_prefix_of_prefix hp hs
    · exact hp'
    · rw [List.prefix_append_right_inj] at hp
      cases more with
      | nil => simp
      | cons d more =>
          have hd := (List.cons_prefix_cons.1 hp).1
          simp [hd] at h
  · exact fun hp => hp.trans (List.prefix_append _ _)

namespace Annotation

/-- The line is about a connection and begins with a title that begins with the mark of an error. -/
def isMisread : Annotation → Bool
  | alreadyConnected source _ => (Text.toList "Error").isPrefixOf source.toList
  | _ => false

theorem isRefusal_of_isMisread {a : Annotation} (h : a.isMisread = true) : a.isRefusal = false := by
  cases a with
  | alreadyConnected source target => rfl
  | _ => cases h

theorem toList_text (a : Annotation) :
    a.text.toList = .char '[' :: (a.body.toList ++ [.char ']']) := by
  simp [text]

/-- The lines that read as errors. -/
theorem readsAsError_text (a : Annotation) :
    readsAsError a.text = (a.isRefusal || a.isMisread) := by
  have hbody : readsAsError a.text =
      (Text.toList "Error").isPrefixOf (a.body.toList ++ [.char ']']) := by
    rw [readsAsError, toList_text]
    rfl
  rw [hbody]
  cases a with
  | refused refusal => simp [body, isRefusal]
  | alreadyConnected source target =>
      have hspace : .char ' ' ∉ Text.toList "Error" := by decide
      have hline : body (.alreadyConnected source target) =
          source ++ (" is already connected to " ++ target) := Text.append_assoc
      show _ = (false || (Text.toList "Error").isPrefixOf source.toList)
      rw [Bool.false_or, Bool.eq_iff_iff, List.isPrefixOf_iff_prefix, List.isPrefixOf_iff_prefix,
        hline, Text.toList_append, Text.toList_append, List.append_assoc]
      exact prefix_append_cons_iff hspace
  | _ => simp [body, isRefusal, isMisread, List.isPrefixOf]

end Annotation

/-- The lines that read as errors are those of refusals, and those that are misread. -/
theorem BatchReport.errors_eq (r : BatchReport) :
    r.errors = (r.annotations.filter fun a => a.isRefusal || a.isMisread).map Annotation.text := by
  rw [errors, lines, List.filter_map]
  simp only [Function.comp_def, Annotation.readsAsError_text]

theorem BatchReport.refused_notMem {r : BatchReport} (h : r.errors = []) (refusal : Refusal) :
    .refused refusal ∉ r.annotations := by
  intro hmem
  rw [errors_eq, List.map_eq_nil_iff, List.filter_eq_nil_iff] at h
  exact h _ hmem rfl

section Told

variable {r : BatchReport} {refusals : List Refusal}
  (htold : r.annotations.filter Annotation.isRefusal = refusals.map Annotation.refused)

include htold

/-- The errors are the lines of the refusals just if no line is misread. -/
theorem BatchReport.errors_eq_refusals_iff :
    r.errors = refusals.map (fun refusal => Annotation.text (.refused refusal)) ↔
      ∀ a ∈ r.annotations, a.isMisread = false := by
  have hlines : refusals.map (fun refusal => Annotation.text (.refused refusal)) =
      (r.annotations.filter Annotation.isRefusal).map Annotation.text := by
    rw [htold, List.map_map]
    rfl
  rw [hlines, errors_eq]
  constructor
  · intro hsame a ha
    let errors := r.annotations.filter fun a => a.isRefusal || a.isMisread
    have hagain : errors.filter Annotation.isRefusal =
        r.annotations.filter Annotation.isRefusal := by
      rw [List.filter_filter]
      refine List.filter_congr fun a _ => ?_
      cases a.isRefusal <;> rfl
    have hlength : (errors.filter Annotation.isRefusal).length = errors.length := by
      rw [hagain, ← List.length_map (f := Annotation.text), ← hsame, List.length_map]
    -- with as many errors as refusals every error is one
    have hrefusal := List.length_filter_eq_length_iff.1 hlength
    refine Bool.eq_false_iff.2 fun hmisread => ?_
    have hmem : a ∈ errors := List.mem_filter.2 ⟨ha, by rw [hmisread, Bool.or_true]⟩
    have hnot := Annotation.isRefusal_of_isMisread hmisread
    exact absurd (hrefusal a hmem) (Bool.eq_false_iff.1 hnot)
  · intro hnone
    refine congrArg (List.map Annotation.text) (List.filter_congr fun a ha => ?_)
    rw [hnone a ha, Bool.or_false]

theorem BatchReport.errors_eq_nil_iff :
    r.errors = [] ↔ refusals = [] ∧ ∀ a ∈ r.annotations, a.isMisread = false := by
  have hnone : refusals = [] ↔ ∀ a ∈ r.annotations, a.isRefusal = false := by
    rw [← List.map_eq_nil_iff (f := Annotation.refused), ← htold, List.filter_eq_nil_iff]
    simp only [Bool.not_eq_true]
  rw [hnone, errors_eq, List.map_eq_nil_iff, List.filter_eq_nil_iff]
  simp only [Bool.not_eq_true, Bool.or_eq_false_iff]
  constructor
  · exact fun h => ⟨fun a ha => (h a ha).1, fun a ha => (h a ha).2⟩
  · exact fun h a ha => ⟨h.1 a ha, h.2 a ha⟩

end Told

/-! ## The refusals of a batch -/

namespace Batch

variable {b : Batch} {c : BatchContext}

/-- The refusals of calls, one after the other. -/
def refusals (b : Batch) (c : BatchContext) : List Value → List Refusal
  | [] => []
  | call :: calls => (b.refusal? c call).toList ++ (b.applyCall c call).refusals c calls

/-- A call that is refused reports its refusal, and no other call reports one. -/
theorem filter_isRefusal_applyCall (b : Batch) (c : BatchContext) (call : Value) :
    (b.applyCall c call).report.annotations.filter Annotation.isRefusal =
      b.report.annotations.filter Annotation.isRefusal ++
        (b.refusal? c call).toList.map Annotation.refused := by
  cases hrefusal : b.refusal? c call with
  | some refusal =>
      rw [applyCall_of_refused hrefusal]
      show List.filter Annotation.isRefusal (b.report.annotations ++ [.refused refusal]) = _
      rw [List.filter_append]
      rfl
  | none =>
      obtain ⟨-, action, -, -, hperform⟩ := exists_applyCall_eq_perform hrefusal
      obtain ⟨lines, -, hlines, hnone⟩ := exists_lines_perform b c action
      have hleft : lines.filter Annotation.isRefusal = [] := by
        rw [List.filter_eq_nil_iff]
        exact fun a ha => Bool.eq_false_iff.1 (hnone a ha)
      rw [hperform, hlines, List.filter_append, hleft]
      rfl

theorem filter_isRefusal_applyCalls (b : Batch) (c : BatchContext) (calls : List Value) :
    (calls.foldl (fun b call => b.applyCall c call) b).report.annotations.filter
        Annotation.isRefusal =
      b.report.annotations.filter Annotation.isRefusal ++
        (b.refusals c calls).map Annotation.refused := by
  induction calls generalizing b with
  | nil => exact (List.append_nil _).symm
  | cons call calls ih =>
      rw [List.foldl_cons, ih, filter_isRefusal_applyCall, refusals, List.map_append,
        List.append_assoc]

/-- The refusals in the report of a batch are those of its calls. -/
theorem filter_isRefusal_runBatch (setting : BatchSetting) (g : Graph) (ids : IdSource)
    (calls : List Value) :
    (runBatch setting g ids calls).report.annotations.filter Annotation.isRefusal =
      ((start g ids).refusals (setting.context g) calls).map Annotation.refused :=
  filter_isRefusal_applyCalls (start g ids) (setting.context g) calls

end Batch
end LiveCanvas
