import LiveCanvas.Payload.Checked

/-!
# When a payload fits

A checked reading fits when every reading in it does.  Each way of combining readings says so for
itself here, so that a payload which fits can be taken apart into its places.
-/

namespace LiveCanvas
namespace Checked

variable {α β : Type}

theorem seq_eq_fits_iff {f : Checked (α → β)} {x : Checked α} {b : β} :
    f <*> x = fits b ↔ ∃ g a, f = fits g ∧ x = fits a ∧ g a = b := by
  cases f <;> cases x <;> simp [Seq.seq, both]

theorem map_eq_fits_iff {f : α → β} {x : Checked α} {b : β} :
    f <$> x = fits b ↔ ∃ a, x = fits a ∧ f a = b := by
  cases x <;> simp [Functor.map, both]

@[simp] theorem inside_eq_fits_iff {place : Text} {x : Checked α} {a : α} :
    inside place x = fits a ↔ x = fits a := by
  cases x <;> simp [inside]

theorem text_eq_fits_iff {v : Value} {s : Text} : text v = fits s ↔ v = .text s := by
  cases v <;> simp [text, misfit]

theorem object_eq_fits_iff {v : Value} {fields : Fields Value} :
    object v = fits fields ↔ v = .object fields := by
  cases v <;> simp [object, misfit]

theorem nullable_eq_fits_iff {check : Value → Checked α} {v : Value} {found : Option α} :
    nullable check v = fits found ↔
      v = .null ∧ found = none ∨ v ≠ .null ∧ ∃ a, check v = fits a ∧ some a = found := by
  cases v with
  | null => simp [nullable, eq_comm]
  | bool | number | text | list | object => simp [nullable, map_eq_fits_iff]

section Lists

variable {check : Value → Checked α} {write : α → Value}

/-- Where each item fits in one form only, a list fits in one form only. -/
theorem itemsFrom_eq_fits_iff (h : ∀ v a, check v = fits a ↔ v = write a) {i : Nat}
    {items : List Value} {as : List α} :
    itemsFrom check i items = fits as ↔ items = as.map write := by
  induction items generalizing i as with
  | nil => cases as <;> simp [itemsFrom]
  | cons v items ih =>
      cases as with
      | nil => simp [itemsFrom, seq_eq_fits_iff, map_eq_fits_iff]
      | cons a as =>
          simp only [itemsFrom, seq_eq_fits_iff, map_eq_fits_iff, inside_eq_fits_iff, h, ih]
          constructor
          · rintro ⟨_, bs, ⟨b, rfl, rfl⟩, rfl, hcons⟩
            rw [← hcons, List.map_cons]
          · intro hitems
            obtain ⟨hv, hrest⟩ := List.cons.inj hitems
            exact ⟨_, as, ⟨a, hv, rfl⟩, hrest, rfl⟩

theorem list_eq_fits_iff (h : ∀ v a, check v = fits a ↔ v = write a) {v : Value} {as : List α} :
    list check v = fits as ↔ v = .list (as.map write) := by
  cases v with
  | list items => simpa [list] using itemsFrom_eq_fits_iff h
  | null | bool | number | text | object => simp [list, misfit]

end Lists
end Checked
end LiveCanvas
