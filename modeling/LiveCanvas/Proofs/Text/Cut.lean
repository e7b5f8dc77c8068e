import LiveCanvas.Text.Cut
import Mathlib.Data.List.TakeDrop
import Mathlib.Data.List.TakeWhile

/-!
# Cutting at the last separator

A text occurs in another one as an infix.  A cut is determined by what it gives: the piece behind it
holds no separator, and the two pieces with the separator between them are the text again.
-/

namespace LiveCanvas
namespace Text

theorem occursIn_iff_isInfix {needle cs : List Rune} : occursIn needle cs = true ↔ needle <:+: cs :=
  occursIn_iff.trans ⟨fun ⟨front, back, h⟩ => ⟨front, back, h.symm⟩,
    fun ⟨front, back, h⟩ => ⟨front, back, h.symm⟩⟩

theorem span_append {p : Rune → Bool} {before after : List Rune} {c : Rune}
    (hbefore : ∀ d ∈ before, p d = true) (hc : p c = false) :
    (before ++ c :: after).span p = (before, c :: after) := by
  rw [List.span_eq_takeWhile_dropWhile]
  rw [List.takeWhile_append_of_pos hbefore, List.dropWhile_append_of_pos hbefore]
  simp [hc]

theorem cutLast?_append {separator : Rune} (before : List Rune) {after : List Rune}
    (h : separator ∉ after) :
    cutLast? separator (before ++ separator :: after) = some (before, after) := by
  have hreverse : (before ++ separator :: after).reverse =
      after.reverse ++ separator :: before.reverse := by simp
  have hafter : ∀ c ∈ after.reverse, (c != separator) = true := by
    intro c hc
    rw [bne_iff_ne]
    rintro rfl
    exact h (List.mem_reverse.1 hc)
  rw [cutLast?, hreverse, span_append hafter (by simp)]
  simp

theorem cutLast?_eq_none {separator : Rune} {cs : List Rune} (h : separator ∉ cs) :
    cutLast? separator cs = none := by
  have hall : ∀ c ∈ cs.reverse, (c != separator) = true := by
    intro c hc
    rw [bne_iff_ne]
    rintro rfl
    exact h (List.mem_reverse.1 hc)
  rw [cutLast?, List.span_eq_takeWhile_dropWhile, List.dropWhile_eq_nil_iff.2 hall]

/-- A text with a separator is cut somewhere, and nothing is lost. -/
theorem exists_cutLast? {separator : Rune} {cs : List Rune} (h : separator ∈ cs) :
    ∃ before after, cs = before ++ separator :: after ∧ separator ∉ after ∧
      cutLast? separator cs = some (before, after) := by
  induction cs with
  | nil => cases h
  | cons c cs ih =>
      by_cases hmem : separator ∈ cs
      · obtain ⟨before, after, rfl, hafter, -⟩ := ih hmem
        exact ⟨c :: before, after, rfl, hafter, cutLast?_append (c :: before) hafter⟩
      · obtain rfl : separator = c := (List.mem_cons.1 h).resolve_right hmem
        exact ⟨[], cs, rfl, hmem, cutLast?_append [] hmem⟩

theorem cutLast?_eq_some {separator : Rune} {cs before after : List Rune}
    (h : cutLast? separator cs = some (before, after)) :
    cs = before ++ separator :: after ∧ separator ∉ after := by
  by_cases hmem : separator ∈ cs
  · obtain ⟨before', after', hcs, hafter, hcut⟩ := exists_cutLast? hmem
    rw [hcut, Option.some.injEq, Prod.mk.injEq] at h
    rw [← h.1, ← h.2]
    exact ⟨hcs, hafter⟩
  · rw [cutLast?_eq_none hmem] at h
    cases h

theorem afterLast_append {separator : Rune} (before : List Rune) {after : List Rune}
    (h : separator ∉ after) : afterLast separator (before ++ separator :: after) = after := by
  rw [afterLast, cutLast?_append before h]

end Text
end LiveCanvas
