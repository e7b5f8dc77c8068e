import LiveCanvas.Text.Blank
import LiveCanvas.Text.Cut
import Mathlib.Data.List.DropRight

/-!
# Pieces and padding

The pieces of a text, joined by the separator, are the text again, and two texts with a separator
between them have the pieces of both.  Trimming takes away what was put around a text, provided that
the text itself neither begins nor ends with a character of this kind.
-/

namespace LiveCanvas
namespace Text

variable {separator : Rune} {cs : List Rune} {pieces : List (List Rune)}

/-! ## Splitting at every separator -/

theorem consFirst_append (h : pieces ≠ []) (c : Rune) (more : List (List Rune)) :
    consFirst c (pieces ++ more) = consFirst c pieces ++ more := by
  cases pieces with
  | nil => exact absurd rfl h
  | cons piece pieces => rfl

theorem splitAt_of_notMem (h : separator ∉ cs) : splitAt separator cs = [cs] := by
  induction cs with
  | nil => rfl
  | cons c cs ih =>
      rw [List.mem_cons, not_or] at h
      rw [splitAt_cons, if_neg (by simpa using Ne.symm h.1), ih h.2]
      rfl

/-- What stands on both sides of a separator is split on its own. -/
theorem splitAt_append (separator : Rune) (front back : List Rune) :
    splitAt separator (front ++ separator :: back) =
      splitAt separator front ++ splitAt separator back := by
  induction front with
  | nil => rw [List.nil_append, splitAt_cons, if_pos (by simp)]; rfl
  | cons c front ih =>
      rw [List.cons_append, splitAt_cons, splitAt_cons, ih]
      split
      · rfl
      · exact consFirst_append (splitAt_ne_nil separator front) c _

theorem intercalate_consFirst (separator c : Rune) (pieces : List (List Rune)) :
    [separator].intercalate (consFirst c pieces) = c :: [separator].intercalate pieces := by
  match pieces with
  | [] => rfl
  | [piece] => simp [consFirst]
  | piece :: next :: pieces => simp [consFirst, List.intercalate_cons_cons]

/-- The pieces are joined to the text again. -/
theorem intercalate_splitAt (separator : Rune) (cs : List Rune) :
    [separator].intercalate (splitAt separator cs) = cs := by
  induction cs with
  | nil => rfl
  | cons c cs ih =>
      rw [splitAt_cons]
      split
      · next h =>
          rw [← List.cons_head_tail (splitAt_ne_nil separator cs)] at ih ⊢
          rw [List.intercalate_cons_cons, ih, beq_iff_eq.1 h]
          rfl
      · rw [intercalate_consFirst, ih]

/-! ## Trimming -/

variable {p : Rune → Bool}

theorem dropEndWhile_eq_self (h : ∀ c ∈ cs.getLast?, p c = false) : dropEndWhile p cs = cs := by
  refine List.rdropWhile_eq_self_iff.2 fun hne => ?_
  simp [h _ (List.getLast?_eq_some_getLast hne)]

/-- Trimming takes away what stands around a text, if the text does not begin or end like it. -/
theorem stripWhile_padded {front body back : List Rune} (hfront : ∀ c ∈ front, p c = true)
    (hback : ∀ c ∈ back, p c = true) (hne : body ≠ []) (hfirst : ∀ c ∈ body.head?, p c = false)
    (hlast : ∀ c ∈ body.getLast?, p c = false) : stripWhile p (front ++ body ++ back) = body := by
  have hstart : (body ++ back).dropWhile p = body ++ back := by
    cases body with
    | nil => exact absurd rfl hne
    | cons c body => exact List.dropWhile_cons_of_neg (by simp [hfirst c rfl])
  rw [stripWhile, List.append_assoc, List.dropWhile_append_of_pos hfront, hstart,
    dropEndWhile_append_of_all hback, dropEndWhile_eq_self hlast]

end Text
end LiveCanvas
