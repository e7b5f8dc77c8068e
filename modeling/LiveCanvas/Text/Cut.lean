import LiveCanvas.Text.Basic

/-!
# Cutting a text at a separator

Splitting at every separator, cutting at the last one, and looking for a text inside another.
The pieces of a split, joined by the separator, are the text again.
-/

namespace LiveCanvas
namespace Text

/-- Puts a character in front of the first piece. -/
def consFirst (c : Rune) : List (List Rune) → List (List Rune)
  | [] => [[c]]
  | piece :: pieces => (c :: piece) :: pieces

/-- The pieces between the separators; one piece more than there are separators. -/
def splitAt (separator : Rune) (cs : List Rune) : List (List Rune) :=
  cs.foldr (fun c pieces => if c == separator then [] :: pieces else consFirst c pieces) [[]]

/-- What stands before and after the last separator, if there is one. -/
def cutLast? (separator : Rune) (cs : List Rune) : Option (List Rune × List Rune) :=
  match cs.reverse.span (· != separator) with
  | (_, []) => none
  | (after, _ :: before) => some (before.reverse, after.reverse)

/-- What stands after the last separator, or everything when there is none. -/
def afterLast (separator : Rune) (cs : List Rune) : List Rune :=
  match cutLast? separator cs with
  | some (_, after) => after
  | none => cs

/-- The characters of `needle` stand somewhere in the text, one after the other. -/
def occursIn (needle : List Rune) : List Rune → Bool
  | [] => needle.isEmpty
  | c :: cs => needle.isPrefixOf (c :: cs) || occursIn needle cs

/-- The texts one below the other. -/
def unlines (parts : List Text) : Text :=
  Text.intercalate "\n" parts

theorem prefix_unlines (first second : Text) (rest : List Text) :
    first.toList <+: (unlines (first :: second :: rest)).toList := by
  rw [unlines, Text.intercalate_cons_cons, Text.toList_append, Text.toList_append,
    List.append_assoc]
  exact List.prefix_append _ _

theorem consFirst_ne_nil (c : Rune) (pieces : List (List Rune)) : consFirst c pieces ≠ [] := by
  cases pieces <;> simp [consFirst]

@[simp] theorem splitAt_nil (separator : Rune) : splitAt separator [] = [[]] := rfl

theorem splitAt_cons (separator c : Rune) (cs : List Rune) :
    splitAt separator (c :: cs) =
      if c == separator then [] :: splitAt separator cs
      else consFirst c (splitAt separator cs) := rfl

theorem splitAt_ne_nil (separator : Rune) (cs : List Rune) : splitAt separator cs ≠ [] := by
  cases cs with
  | nil => simp
  | cons c cs =>
    rw [splitAt_cons]
    split
    · simp
    · exact consFirst_ne_nil _ _

theorem occursIn_iff {needle cs : List Rune} :
    occursIn needle cs = true ↔ ∃ before after, cs = before ++ needle ++ after := by
  induction cs with
  | nil =>
    simp only [occursIn, List.isEmpty_iff]
    constructor
    · rintro rfl
      exact ⟨[], [], rfl⟩
    · rintro ⟨before, after, h⟩
      simp_all
  | cons c cs ih =>
    simp only [occursIn, Bool.or_eq_true, List.isPrefixOf_iff_prefix, ih]
    constructor
    · rintro (⟨after, h⟩ | ⟨before, after, h⟩)
      · exact ⟨[], after, by simpa using h.symm⟩
      · exact ⟨c :: before, after, by simp [h]⟩
    · rintro ⟨before, after, h⟩
      cases before with
      | nil => exact .inl ⟨after, by simpa using h.symm⟩
      | cons b before =>
        simp only [List.cons_append, List.cons.injEq] at h
        exact .inr ⟨before, after, h.2⟩

example : splitAt '/' (Text.toList "a/b//") = [Text.toList "a", Text.toList "b", [], []] := by
  decide +kernel

example : cutLast? '-' (Text.toList "a-in-dom") = some (Text.toList "a-in", Text.toList "dom") := by
  decide +kernel

end Text
end LiveCanvas
