import LiveCanvas.Digest.Base64
import Mathlib.Data.List.Basic

/-!
# Base64 read back

The bits of a symbol are the number it was made from, so four characters give back the three bytes
they were made from, and the padding tells how many of them there were.  A text is read back from
the base64 of its bytes, which are UTF-8 because they are those of a text.
-/

namespace LiveCanvas
namespace Base64

/-! ## Symbols -/

theorem bits?_symbol : ∀ n < 64, bits? (symbol n) = some n := by
  decide

theorem symbol_ne_pad : ∀ n < 64, symbol n ≠ '=' := by
  decide

theorem symbol_isAscii : ∀ n < 64, (symbol n).toNat < 128 := by
  decide

/-- A character that the reader does not pass over. -/
def IsSymbol (c : Rune) : Prop :=
  c.toNat < 128 ∧ ((bits? c).isSome || c == '=') = true

theorem isSymbol_symbol {n : Nat} (hn : n < 64) : IsSymbol (symbol n) :=
  ⟨symbol_isAscii n hn, by simp [bits?_symbol n hn]⟩

theorem isSymbol_pad : IsSymbol '=' :=
  ⟨by decide, by decide⟩

/-! ## Groups -/

theorem decodeGroups_one {m n : Nat} (hm : m < 64) (hn : n < 64) :
    decodeGroups [symbol m, symbol n, '=', '='] = some [(4 * m + n / 16).toUInt8] := by
  simp [decodeGroups, bits?_symbol m hm, bits?_symbol n hn]

theorem decodeGroups_two {m n k : Nat} (hm : m < 64) (hn : n < 64) (hk : k < 64) :
    decodeGroups [symbol m, symbol n, symbol k, '='] =
      some [(4 * m + n / 16).toUInt8, (n % 16 * 16 + k / 4).toUInt8] := by
  rw [decodeGroups]
  · simp [bits?_symbol m hm, bits?_symbol n hn, bits?_symbol k hk]
  · exact fun h => absurd h (symbol_ne_pad k hk)

/-- A group without padding says nothing of what follows it. -/
theorem decodeGroups_three {m n k l : Nat} (hm : m < 64) (hn : n < 64) (hk : k < 64) (hl : l < 64)
    {cs : List Rune} {bytes : List UInt8} (h : decodeGroups cs = some bytes) :
    decodeGroups (symbol m :: symbol n :: symbol k :: symbol l :: cs) =
      some ((4 * m + n / 16).toUInt8 :: (n % 16 * 16 + k / 4).toUInt8 ::
        (k % 4 * 64 + l).toUInt8 :: bytes) := by
  rw [decodeGroups]
  · simp [bits?_symbol m hm, bits?_symbol n hn, bits?_symbol k hk, bits?_symbol l hl, h]
  · exact fun hpad => absurd hpad (symbol_ne_pad k hk)
  · exact fun hpad => absurd hpad (symbol_ne_pad l hl)

theorem decodeGroups_encode (bytes : List UInt8) : decodeGroups (encode bytes) = some bytes := by
  fun_induction encode bytes with
  | case1 => rfl
  | case2 a =>
      have ha := a.toNat_lt
      rw [decodeGroups_one (by omega) (by omega)]
      rw [show 4 * (a.toNat / 4) + a.toNat % 4 * 16 / 16 = a.toNat by omega]
      simp
  | case3 a b =>
      have ha := a.toNat_lt
      have hb := b.toNat_lt
      rw [decodeGroups_two (by omega) (by omega) (by omega)]
      rw [show 4 * (a.toNat / 4) + (a.toNat % 4 * 16 + b.toNat / 16) / 16 = a.toNat by omega]
      rw [show (a.toNat % 4 * 16 + b.toNat / 16) % 16 * 16 + b.toNat % 16 * 4 / 4 = b.toNat by
        omega]
      simp
  | case4 a b c rest ih =>
      have ha := a.toNat_lt
      have hb := b.toNat_lt
      have hc := c.toNat_lt
      rw [decodeGroups_three (by omega) (by omega) (by omega) (by omega) ih]
      rw [show 4 * (a.toNat / 4) + (a.toNat % 4 * 16 + b.toNat / 16) / 16 = a.toNat by omega]
      rw [show (a.toNat % 4 * 16 + b.toNat / 16) % 16 * 16 +
        (b.toNat % 16 * 4 + c.toNat / 64) / 4 = b.toNat by omega]
      rw [show (b.toNat % 16 * 4 + c.toNat / 64) % 4 * 64 + c.toNat % 64 = c.toNat by omega]
      simp

theorem isSymbol_of_mem_encode {bytes : List UInt8} {c : Rune} (h : c ∈ encode bytes) :
    IsSymbol c := by
  fun_induction encode bytes with
  | case1 => cases h
  | case2 a =>
      have ha := a.toNat_lt
      simp only [List.mem_cons, List.not_mem_nil, or_false] at h
      obtain rfl | rfl | rfl | rfl := h
      · exact isSymbol_symbol (by omega)
      · exact isSymbol_symbol (by omega)
      · exact isSymbol_pad
      · exact isSymbol_pad
  | case3 a b =>
      have ha := a.toNat_lt
      have hb := b.toNat_lt
      simp only [List.mem_cons, List.not_mem_nil, or_false] at h
      obtain rfl | rfl | rfl | rfl := h
      · exact isSymbol_symbol (by omega)
      · exact isSymbol_symbol (by omega)
      · exact isSymbol_symbol (by omega)
      · exact isSymbol_pad
  | case4 a b d rest ih =>
      have ha := a.toNat_lt
      have hb := b.toNat_lt
      have hd := d.toNat_lt
      simp only [List.mem_cons] at h
      obtain rfl | rfl | rfl | rfl | h := h
      · exact isSymbol_symbol (by omega)
      · exact isSymbol_symbol (by omega)
      · exact isSymbol_symbol (by omega)
      · exact isSymbol_symbol (by omega)
      · exact ih h

/-- Bytes are read back from their characters; none of these is passed over. -/
theorem decode?_encode (bytes : List UInt8) : decode? (encode bytes) = some bytes := by
  have hascii : (encode bytes).all (·.toNat < 128) = true := by
    rw [List.all_eq_true]
    exact fun c hc => decide_eq_true (isSymbol_of_mem_encode hc).1
  have hkept : (encode bytes).filter (fun c => (bits? c).isSome || c == '=') = encode bytes :=
    List.filter_eq_self.2 fun c hc => (isSymbol_of_mem_encode hc).2
  rw [decode?, if_pos hascii, hkept, decodeGroups_encode]

/-! ## Texts -/

theorem toList_loop (bytes : ByteArray) (i : Nat) (read : List UInt8) :
    ByteArray.toList.loop bytes i read = read.reverse ++ bytes.data.toList.drop i := by
  fun_induction ByteArray.toList.loop bytes i read with
  | case1 i read hi ih =>
      have hi' : i < bytes.data.toList.length := hi
      rw [ih, List.drop_eq_getElem_cons hi', List.reverse_cons, List.append_assoc]
      congr 1
      simp [ByteArray.get!, getElem!_pos bytes.data i hi]
  | case2 i read hi =>
      have hi' : bytes.data.toList.length ≤ i := Nat.le_of_not_lt hi
      rw [List.drop_eq_nil_of_le hi', List.append_nil]

/-- The text that some characters stand for. -/
def text? (cs : List Rune) : Option Text :=
  (decode? cs).bind fun bytes => (String.fromUTF8? ⟨bytes.toArray⟩).map Text.ofString

/-- A text is read back from the base64 of its bytes, with a question mark for each half. -/
theorem text?_ofText (s : Text) : text? (ofText s).toList = some (.ofString s.replaced) := by
  have hbytes : s.replaced.toUTF8.toList = s.replaced.toByteArray.data.toList := by
    rw [ByteArray.toList, toList_loop]
    rfl
  rw [ofText, Text.toList_ofList, text?, decode?_encode, Option.bind_some, hbytes,
    Array.toArray_toList, String.fromUTF8?, dif_pos s.replaced.isValidUTF8]
  rfl

end Base64
end LiveCanvas
