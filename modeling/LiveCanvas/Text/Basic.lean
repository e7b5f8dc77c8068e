/-!
# Texts

A text is a list of code points.  Most of them are characters.  The code points from `0xd800` to
`0xdfff` are none: they are the halves by which two units of sixteen bits write a character beyond
the first plane.  A text may hold them all the same, alone, in any order, and even as the two halves
of a character next to one another.
-/

namespace LiveCanvas

/-- A code point of a text: a character, or the half of a pair with this number. -/
inductive Rune
  | char (c : Char)
  | half (number : Fin 0x800)
deriving DecidableEq, Repr

/-- The code points of a text in order. -/
structure Text where
  ofList ::
  toList : List Rune
deriving DecidableEq, Repr

instance : Coe Char Rune := ⟨Rune.char⟩

namespace Rune

/-- The number of the code point. -/
def toNat : Rune → Nat
  | char c => c.toNat
  | half number => 0xd800 + number

/-- The code point with a number; there is none above `0x10ffff`. -/
def ofNat (n : Nat) : Rune :=
  if h : 0xd800 ≤ n ∧ n < 0xe000 then half ⟨n - 0xd800, by omega⟩ else char (Char.ofNat n)

@[simp] theorem char_inj {c d : Char} : char c = char d ↔ c = d :=
  ⟨char.inj, congrArg char⟩

theorem char_injective : Function.Injective char := fun _ _ => char.inj

@[simp] theorem char_mem_map {c : Char} {cs : List Char} : char c ∈ cs.map char ↔ c ∈ cs := by
  simp

theorem toNat_lt (c : Rune) : c.toNat < 0x110000 := by
  cases c with
  | char c =>
      have hvalid : c.toNat < 0xd800 ∨ 0xdfff < c.toNat ∧ c.toNat < 0x110000 := c.valid
      simp only [toNat]
      omega
  | half number =>
      simp only [toNat]
      omega

@[simp] theorem ofNat_toNat (c : Rune) : ofNat c.toNat = c := by
  cases c with
  | char c =>
      have hvalid : c.toNat < 0xd800 ∨ 0xdfff < c.toNat ∧ c.toNat < 0x110000 := c.valid
      rw [ofNat, dif_neg (by simp only [toNat]; omega)]
      simp [toNat]
  | half number =>
      rw [ofNat, dif_pos (by simp only [toNat]; omega)]
      simp [toNat]

instance : Inhabited Rune := ⟨char default⟩

instance : LE Rune := ⟨fun a b => a.toNat ≤ b.toNat⟩

instance (a b : Rune) : Decidable (a ≤ b) := inferInstanceAs (Decidable (a.toNat ≤ b.toNat))

/-- The code point is a character with this property. -/
def isChar (p : Char → Bool) : Rune → Bool
  | char c => p c
  | half _ => false

/-- One of the ten ASCII digits. -/
def isDigit (c : Rune) : Bool := c.isChar Char.isDigit

/-- An ASCII letter or digit. -/
def isAlphanum (c : Rune) : Bool := c.isChar Char.isAlphanum

/-- The code point with a function applied to it if it is a character. -/
def mapChar (f : Char → Char) : Rune → Rune
  | char c => char (f c)
  | half number => half number

/-- The small letter of an ASCII capital. -/
def toLower (c : Rune) : Rune := c.mapChar Char.toLower

/-- The capital of a small ASCII letter. -/
def toUpper (c : Rune) : Rune := c.mapChar Char.toUpper

end Rune

namespace Text

/-- The text of some characters. -/
def ofChars (cs : List Char) : Text := ofList (cs.map Rune.char)

/-- The text that is written as a string. -/
def ofString (s : String) : Text := ofChars s.toList

instance : Coe String Text := ⟨ofString⟩

instance : Inhabited Text := ⟨ofList []⟩

instance : Append Text := ⟨fun s t => ofList (s.toList ++ t.toList)⟩

/-- The number of code points. -/
def length (s : Text) : Nat := s.toList.length

/-- The text of one code point. -/
def singleton (c : Rune) : Text := ofList [c]

/-- The texts one after the other. -/
def join (parts : List Text) : Text := ofList (parts.flatMap toList)

/-- The texts one after the other, with a separator between any two. -/
def intercalate (separator : Text) (parts : List Text) : Text :=
  ofList (separator.toList.intercalate (parts.map toList))

@[simp] theorem toList_append {s t : Text} : (s ++ t).toList = s.toList ++ t.toList := rfl

@[simp] theorem toList_ofChars (cs : List Char) : (ofChars cs).toList = cs.map .char := rfl

@[simp] theorem toList_ofString (s : String) : (ofString s).toList = s.toList.map .char := rfl

@[simp] theorem toList_ofList {cs : List Rune} : (ofList cs).toList = cs := rfl

@[simp] theorem ofList_toList (s : Text) : ofList s.toList = s := rfl

@[simp] theorem intercalate_nil (separator : Text) : intercalate separator [] = ofString "" := rfl

@[simp] theorem intercalate_singleton (separator s : Text) : intercalate separator [s] = s := by
  rw [intercalate, List.map_singleton, List.intercalate_singleton]

theorem intercalate_cons_cons (separator first second : Text) (rest : List Text) :
    intercalate separator (first :: second :: rest) =
      first ++ separator ++ intercalate separator (second :: rest) := by
  rw [intercalate, List.map_cons, List.map_cons, List.intercalate_cons_cons]
  rfl

@[ext] theorem ext {s t : Text} (h : s.toList = t.toList) : s = t :=
  congrArg ofList h

theorem toList_inj {s t : Text} : s.toList = t.toList ↔ s = t :=
  ⟨ext, congrArg toList⟩

theorem toList_injective : Function.Injective toList := fun _ _ => ext

@[simp] theorem ofString_inj {s t : String} : ofString s = ofString t ↔ s = t := by
  rw [← toList_inj, toList_ofString, toList_ofString, List.map_inj_right fun _ _ => Rune.char.inj,
    String.toList_inj]

theorem append_assoc {s t u : Text} : s ++ t ++ u = s ++ (t ++ u) := by
  simp [← toList_inj]

@[simp] theorem append_empty (s : Text) : s ++ ofString "" = s := by
  simp [← toList_inj]

@[simp] theorem empty_append (s : Text) : ofString "" ++ s = s := by
  simp [← toList_inj]

theorem append_left_inj {s t : Text} (u : Text) : s ++ u = t ++ u ↔ s = t := by
  simp [← toList_inj]

theorem append_right_inj (s : Text) {t u : Text} : s ++ t = s ++ u ↔ t = u := by
  simp [← toList_inj]

theorem length_append (s t : Text) : (s ++ t).length = s.length + t.length := by
  simp [length]

end Text
end LiveCanvas
