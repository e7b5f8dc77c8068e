import LiveCanvas.Text.Basic

/-!
# Texts as bytes

A character is written in one to four bytes.  A half of a pair is no character, and what becomes of
it depends on what the bytes are for: it is put into three bytes as if it were one, a question mark
takes its place, or the text cannot be written at all.
-/

namespace LiveCanvas

/-- The bytes of a code point; a half is put into bytes like a character with its number. -/
def Rune.utf8 : Rune → List UInt8
  | char c => String.utf8EncodeChar c
  | half number => [0xed, (0xa0 + number.val / 0x40).toUInt8, (0x80 + number.val % 0x40).toUInt8]

/-- The character, or a question mark for a half. -/
def Rune.orQuestionMark : Rune → Char
  | char c => c
  | half _ => '?'

namespace Text

/-- The bytes of the text, halves included. -/
def utf8 (s : Text) : List UInt8 :=
  s.toList.flatMap Rune.utf8

/-- The text as a string, with a question mark for every half in it. -/
def replaced (s : Text) : String :=
  String.ofList (s.toList.map Rune.orQuestionMark)

/-- The text consists of characters. -/
def isEncodable (s : Text) : Bool :=
  s.toList.all (·.isChar fun _ => true)

/-- No half was replaced just if there was none. -/
theorem ofString_replaced_eq_self_iff {s : Text} :
    ofString s.replaced = s ↔ s.isEncodable = true := by
  have hall : ∀ cs : List Rune, (cs.map Rune.orQuestionMark).map Rune.char = cs ↔
      cs.all (·.isChar fun _ => true) = true := by
    intro cs
    induction cs with
    | nil => simp
    | cons c cs ih =>
        simp only [List.map_cons, List.all_cons, List.cons.injEq, Bool.and_eq_true, ih]
        cases c <;> simp [Rune.orQuestionMark, Rune.isChar]
  rw [← toList_inj, toList_ofString, replaced, String.toList_ofList]
  exact hall s.toList

end Text
end LiveCanvas
