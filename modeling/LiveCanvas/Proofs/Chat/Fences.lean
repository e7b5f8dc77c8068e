import LiveCanvas.Chat.Turn
import LiveCanvas.Proofs.Text.Pieces

/-!
# Code between fences

The service may put code between fences: a line with three backticks and the name of a language
before it, a line with three backticks behind it, and empty lines around both.  What is read out of
such a reply is the code, character by character, whatever lines the code has: the first line and
the last one are the fences that were put there, and only these two are taken away.
-/

namespace LiveCanvas
namespace Prompt

/-- A reply that is code between fences, with empty lines before and behind. -/
def fenced (before : Nat) (language code : Text) (behind : Nat) : Text :=
  Text.ofList (List.replicate before '\n') ++ "```" ++ language ++ "\n" ++ code ++ "\n```" ++
    Text.ofList (List.replicate behind '\n')

/-- The text from the first fence to the last. -/
def block (language code : Text) : List Rune :=
  (fence ++ language.toList) ++ .char '\n' :: (code.toList ++ .char '\n' :: fence)

theorem toList_fenced (before : Nat) (language code : Text) (behind : Nat) :
    (fenced before language code behind).toList =
      List.replicate before (.char '\n') ++ block language code ++
        List.replicate behind (.char '\n') := by
  simp [fenced, block, fence]

/-- The empty lines around a block are not part of it. -/
theorem stripWhile_fenced (before : Nat) (language code : Text) (behind : Nat) :
    Text.stripWhile (· == .char '\n') (fenced before language code behind).toList =
      block language code := by
  have hnewlines : ∀ number, ∀ c ∈ List.replicate number (Rune.char '\n'),
      (c == .char '\n') = true := by
    intro number c hc
    rw [List.eq_of_mem_replicate hc]
    rfl
  rw [toList_fenced]
  exact Text.stripWhile_padded (hnewlines before) (hnewlines behind) (by simp [block])
    (by simp [block, fence]) (by simp [block, fence, List.getLast?_cons])

/-- The lines of a block are those of the code between two more. -/
theorem splitAt_block {language : Text} (h : .char '\n' ∉ language.toList) (code : Text) :
    Text.splitAt '\n' (block language code) =
      (fence ++ language.toList) :: (Text.splitAt '\n' code.toList ++ [fence]) := by
  have hopening : .char '\n' ∉ fence ++ language.toList := by
    rw [List.mem_append, not_or]
    exact ⟨by decide, h⟩
  rw [block, Text.splitAt_append, Text.splitAt_append, Text.splitAt_of_notMem hopening,
    Text.splitAt_of_notMem (by decide : .char '\n' ∉ fence)]
  rfl

theorem dropOpening_cons (language : List Rune) (lines : List (List Rune)) :
    dropOpening ((fence ++ language) :: lines) = lines := by
  rw [dropOpening, if_pos (List.isPrefixOf_iff_prefix.2 (List.prefix_append fence language))]

theorem dropClosing_append (lines : List (List Rune)) : dropClosing (lines ++ [fence]) = lines := by
  have hfence : (Text.stripWhile Text.isBlank fence == fence) = true := by decide
  rw [dropClosing, List.getLast?_concat]
  simp only [hfence, if_true, List.dropLast_concat]

/-- The code is read out of the fences as it is, and a turn on a file writes just this code into
it. -/
theorem codeOf_fenced {language : Text} (h : .char '\n' ∉ language.toList) (code : Text)
    (before behind : Nat) :
    codeOf (fenced before language code behind) = code ∧
    ∀ (a : Assistant) (file : NodeId) (g : Graph) (ids : IdSource),
      (Turn.endGenerate a file g ids { text := fenced before language code behind }).graph =
        g.setContent file code := by
  have hcode : codeOf (fenced before language code behind) = code := by
    rw [codeOf, stripWhile_fenced, splitAt_block h, dropOpening_cons, dropClosing_append,
      Text.intercalate_splitAt, Text.ofList_toList]
  refine ⟨hcode, fun a file g ids => ?_⟩
  have hsaid : fenced before language code behind ≠ "" := by
    rw [Ne, ← Text.toList_inj, toList_fenced]
    simp [block, fence]
  show (if fenced before language code behind = "" then g else
    g.setContent file (codeOf (fenced before language code behind))) = g.setContent file code
  rw [if_neg hsaid, hcode]

/-- The code is a block between fences itself, with empty lines at both ends. -/
theorem codeOf_fenced_twice :
    .char '\n' ∉ Text.toList "md" ∧
    codeOf "\n```md\n\n```js\nlet a;\n```\n\n```\n\n" = "\n```js\nlet a;\n```\n" :=
  ⟨by decide, (codeOf_fenced (by decide : .char '\n' ∉ Text.toList "md")
    "\n```js\nlet a;\n```\n" 1 2).1⟩

end Prompt
end LiveCanvas
