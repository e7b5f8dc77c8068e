import Mathlib.Data.List.Induction
import LiveCanvas.Proofs.Value.Nested
import LiveCanvas.Settings.Merge

/-!
# Layers of settings, path by path

What merged layers hold under a path depends only on what each layer holds on the way there, where
a null counts as nothing.  A null itself is passed over as long as the objects above it are there to
be merged into; an object that is new is taken over as it is, with the nulls in it.
-/

namespace LiveCanvas
namespace Settings

open Value

/-! ## What stands under one name -/

/-- What stands under a name after a layer, from what stood there and what the layer has there. -/
def overlaid : Option Value → Option Value → Option Value
  | current, none | current, some .null => current
  | some (.object current), some (.object fields) => some (.object (layFields current fields))
  | _, some v => some v

theorem overlaid_of_nothing {layer : Option Value} (h : held layer = .nothing)
    (current : Option Value) : overlaid current layer = current := by
  rcases held_eq_nothing_iff.mp h with rfl | rfl <;> simp [overlaid]

theorem overlaid_of_plain {layer : Option Value} {v : Value} (h : held layer = .plain v)
    (current : Option Value) : overlaid current layer = layer := by
  obtain ⟨rfl, hnull, hobject⟩ := held_eq_plain_iff.mp h
  cases v <;> simp_all [overlaid]

theorem overlaid_of_new {current : Option Value} (h : held current ≠ .fields)
    (fields : Fields Value) : overlaid current (some (.object fields)) = some (.object fields) := by
  rcases current with - | current
  · rfl
  · cases current <;> simp_all [overlaid, held]

@[simp] theorem overlaid_objects (current fields : Fields Value) :
    overlaid (some (.object current)) (some (.object fields)) =
      some (.object (layFields current fields)) :=
  rfl

/-- A layer passes over a name, or is merged into the object there, or replaces what is there. -/
theorem overlaid_cases (current layer : Option Value) :
    held layer = .nothing ∧ overlaid current layer = current ∨
    (∃ below fields, current = some (.object below) ∧ layer = some (.object fields) ∧
      overlaid current layer = some (.object (layFields below fields))) ∨
    held layer ≠ .nothing ∧ (held layer = .fields → held current ≠ .fields) ∧
      overlaid current layer = layer := by
  cases h : held layer with
  | nothing => exact .inl ⟨rfl, overlaid_of_nothing h current⟩
  | plain v => exact .inr (.inr ⟨nofun, nofun, overlaid_of_plain h current⟩)
  | fields =>
      obtain ⟨fields, rfl⟩ := held_eq_fields_iff.mp h
      by_cases hcurrent : held current = .fields
      · obtain ⟨below, rfl⟩ := held_eq_fields_iff.mp hcurrent
        exact .inr (.inl ⟨below, fields, rfl, rfl, overlaid_objects below fields⟩)
      · exact .inr (.inr ⟨nofun, fun _ => hcurrent, overlaid_of_new hcurrent fields⟩)

theorem get?_layField (base : Fields Value) (name other : Text) (v : Value) :
    Fields.get? (layField base name v) other =
      if name = other then overlaid (base.get? name) (some v) else base.get? other := by
  cases v with
  | null =>
      rw [layField, overlaid_of_nothing rfl]
      split <;> simp_all
  | object fields =>
      by_cases hcurrent : held (base.get? name) = .fields
      · obtain ⟨current, hget⟩ := held_eq_fields_iff.mp hcurrent
        rw [layField, hget, overlaid_objects]
        exact Fields.get?_set base name other _
      · rw [overlaid_of_new hcurrent, layField]
        split
        · next current hget => exact absurd (held_eq_fields_iff.mpr ⟨current, hget⟩) hcurrent
        · exact Fields.get?_set base name other _
  | bool | number | text | list =>
      rw [overlaid_of_plain rfl]
      simp [layField]

/-- Under each name of a layer its value is laid over what stood there. -/
theorem get?_layFields (base : Fields Value) {layer : Fields Value} (h : layer.names.Nodup)
    (name : Text) :
    Fields.get? (layFields base layer) name = overlaid (base.get? name) (layer.get? name) := by
  induction layer generalizing base with
  | nil => rw [layFields, Fields.get?_nil, overlaid_of_nothing rfl]
  | cons entry rest ih =>
      obtain ⟨first, v⟩ := entry
      rw [Fields.names, List.map_cons, List.nodup_cons] at h
      rw [layFields, ih _ h.2, get?_layField, Fields.get?_cons]
      by_cases hname : first = name
      · subst hname
        -- the name stands once, so the rest of the layer does not touch it again
        have hnone : Fields.get? rest first = none := Fields.get?_eq_none_iff.mpr h.1
        rw [if_pos rfl, if_pos rfl, hnone, overlaid_of_nothing rfl]
      · rw [if_neg hname, if_neg hname]

theorem at?_layFields_cons (base : Fields Value) {layer : Fields Value} (h : layer.names.Nodup)
    (name : Text) (path : List Text) :
    (object (layFields base layer)).at? (name :: path) =
      (overlaid (base.get? name) (layer.get? name)).bind (·.at? path) := by
  rw [at?_object_cons, get?_layFields base h]

theorem nodup_names_layField {base : Fields Value} (h : base.names.Nodup) (name : Text)
    (v : Value) : (Fields.names (layField base name v)).Nodup := by
  cases v with
  | null => rwa [layField_null]
  | object fields =>
      rw [layField]
      split <;> exact Fields.nodup_names_set h name _
  | bool | number | text | list =>
      simpa [layField] using Fields.nodup_names_set h name _

theorem nodup_names_layFields {base : Fields Value} (h : base.names.Nodup) (layer : Fields Value) :
    (Fields.names (layFields base layer)).Nodup := by
  induction layer generalizing base with
  | nil => rwa [layFields_nil]
  | cons entry rest ih =>
      rw [layFields]
      exact ih (nodup_names_layField h _ _)

/-! ## What one layer changes -/

/-- What is held after a layer depends on what was held and on what the layer holds. -/
theorem holds_layFields_congr {base base' layer layer' : Fields Value}
    (hlayer : (object layer).NamesOnce) (hlayer' : (object layer').NamesOnce)
    (hbase : ∀ path, (object base).holds path = (object base').holds path)
    (hsame : ∀ path, (object layer).holds path = (object layer').holds path) (path : List Text) :
    (object (layFields base layer)).holds path = (object (layFields base' layer')).holds path := by
  -- along the path, for what lies below a name is laid over in the same way
  induction path generalizing base base' layer layer' with
  | nil => rw [holds_object_nil, holds_object_nil]
  | cons name path ih =>
      have hbelow (p : List Text) := hbase (name :: p)
      have hlaid (p : List Text) := hsame (name :: p)
      simp only [holds, at?_object_cons] at hbelow hlaid
      have hcurrent : held (base.get? name) = held (base'.get? name) := by
        simpa [holds_object_singleton] using hbase [name]
      have hkind : held (layer.get? name) = held (layer'.get? name) := by
        simpa [holds_object_singleton] using hsame [name]
      rw [holds, holds, at?_layFields_cons base hlayer.nodup,
        at?_layFields_cons base' hlayer'.nodup]
      cases h : held (layer.get? name) with
      | nothing =>
          rw [overlaid_of_nothing h, overlaid_of_nothing (hkind ▸ h)]
          exact hbelow path
      | plain v =>
          rw [overlaid_of_plain h, overlaid_of_plain (hkind ▸ h)]
          exact hlaid path
      | fields =>
          obtain ⟨fields, hget⟩ := held_eq_fields_iff.mp h
          obtain ⟨fields', hget'⟩ := held_eq_fields_iff.mp (hkind ▸ h)
          rw [hget, hget'] at hlaid ⊢
          by_cases hmerged : held (base.get? name) = .fields
          · obtain ⟨current, hcur⟩ := held_eq_fields_iff.mp hmerged
            obtain ⟨current', hcur'⟩ := held_eq_fields_iff.mp (hcurrent ▸ hmerged)
            rw [hcur, hcur'] at hbelow ⊢
            exact ih (hlayer.of_get? hget) (hlayer'.of_get? hget') hbelow hlaid
          · rw [overlaid_of_new hmerged, overlaid_of_new (hcurrent ▸ hmerged)]
            exact hlaid path

theorem namesOnce_layFields {base layer : Fields Value} (hbase : (object base).NamesOnce)
    (hlayer : (object layer).NamesOnce) : (object (layFields base layer)).NamesOnce := by
  intro path
  induction path generalizing base layer with
  | nil =>
      intro below hat
      rw [at?_nil, Option.some_inj, Value.object.injEq] at hat
      exact hat ▸ nodup_names_layFields hbase.nodup layer
  | cons name path ih =>
      intro below hat
      rw [at?_layFields_cons base hlayer.nodup] at hat
      rcases overlaid_cases (base.get? name) (layer.get? name) with
        ⟨-, heq⟩ | ⟨current, fields, hcur, hget, heq⟩ | ⟨-, -, heq⟩ <;> rw [heq] at hat
      · exact hbase (name :: path) below (at?_object_cons base name path ▸ hat)
      · exact ih (hbase.of_get? hcur) (hlayer.of_get? hget) below hat
      · exact hlayer (name :: path) below (at?_object_cons layer name path ▸ hat)

/-! ## Nulls -/

/-- On the way to the end of the path there are only objects. -/
def HasObjectsAbove (v : Value) (path : List Text) : Prop :=
  ∀ above, above <+: path → above ≠ path → v.holds above = .fields

/-- Nothing is put under the path or in place of an object above it. -/
def LeavesAlone (v : Value) (path : List Text) : Prop :=
  ∀ above, above <+: path → v.holds above = .nothing ∨ v.holds above = .fields ∧ above ≠ path

theorem hasObjectsAbove_cons_iff {fields : Fields Value} {name : Text} {path : List Text} :
    HasObjectsAbove (object fields) (name :: path) ↔
      path = [] ∨
        ∃ below, fields.get? name = some (.object below) ∧ HasObjectsAbove (object below) path := by
  constructor
  · intro h
    rcases path with - | ⟨next, rest⟩
    · exact .inl rfl
    · have hname := h [name] (by simp) (by simp)
      rw [holds_object_singleton] at hname
      obtain ⟨below, hget⟩ := held_eq_fields_iff.mp hname
      refine .inr ⟨below, hget, fun above hprefix hne => ?_⟩
      rw [← holds_object_cons hget]
      exact h (name :: above) (List.cons_prefix_cons.mpr ⟨rfl, hprefix⟩) (by simpa using hne)
  · intro h above hprefix hne
    rcases List.prefix_cons_iff.mp hprefix with rfl | ⟨above, rfl, hrest⟩
    · exact holds_object_nil fields
    · rw [ne_eq, List.cons.injEq, not_and] at hne
      rcases h with rfl | ⟨below, hget, hbelow⟩
      · exact absurd (List.prefix_nil.mp hrest) (hne rfl)
      · rw [holds_object_cons hget]
        exact hbelow above hrest (hne rfl)

theorem leavesAlone_cons_iff {fields : Fields Value} {name : Text} {path : List Text} :
    LeavesAlone (object fields) (name :: path) ↔
      held (fields.get? name) = .nothing ∨
        ∃ below, fields.get? name = some (.object below) ∧ LeavesAlone (object below) path := by
  constructor
  · intro h
    rcases h [name] (by simp) with hnothing | ⟨hfields, -⟩
    · rw [holds_object_singleton] at hnothing
      exact .inl hnothing
    · rw [holds_object_singleton] at hfields
      obtain ⟨below, hget⟩ := held_eq_fields_iff.mp hfields
      refine .inr ⟨below, hget, fun above hprefix => ?_⟩
      have habove := h (name :: above) (List.cons_prefix_cons.mpr ⟨rfl, hprefix⟩)
      rwa [holds_object_cons hget, ne_eq, List.cons.injEq, and_iff_right rfl] at habove
  · intro h above hprefix
    rcases List.prefix_cons_iff.mp hprefix with rfl | ⟨above, rfl, hrest⟩
    · exact .inr ⟨holds_object_nil fields, by simp⟩
    · rcases h with hnothing | ⟨below, hget, hbelow⟩
      · exact .inl (holds_object_cons_of_nothing hnothing above)
      · rw [holds_object_cons hget, ne_eq, List.cons.injEq, and_iff_right rfl]
        exact hbelow above hrest

theorem hasObjectsAbove_nil (v : Value) : HasObjectsAbove v [] :=
  fun _ hprefix hne => absurd (List.prefix_nil.mp hprefix) hne

theorem not_leavesAlone_object_nil (fields : Fields Value) :
    ¬ LeavesAlone (object fields) [] := by
  intro h
  simpa using h [] List.prefix_rfl

/-- A null is taken over only with an object above it that is new, and stays as long as the place
is left alone. -/
theorem at?_layFields_eq_null_iff {base layer : Fields Value} (hlayer : (object layer).NamesOnce)
    (path : List Text) :
    (object (layFields base layer)).at? path = some .null ↔
      (object layer).at? path = some .null ∧ ¬ HasObjectsAbove (object base) path ∨
      (object base).at? path = some .null ∧ LeavesAlone (object layer) path := by
  induction path generalizing base layer with
  | nil => simp
  | cons name path ih =>
      rw [at?_layFields_cons base hlayer.nodup, at?_object_cons, at?_object_cons,
        hasObjectsAbove_cons_iff, leavesAlone_cons_iff]
      rcases overlaid_cases (base.get? name) (layer.get? name) with
        ⟨hnothing, heq⟩ | ⟨current, fields, hcur, hget, heq⟩ | ⟨hsome, hnew, heq⟩ <;> rw [heq]
      -- the name is passed over: only a null right here could be there, with nothing new above it
      · constructor
        · exact fun h => .inr ⟨h, .inl hnothing⟩
        · rintro (⟨hnull, habove⟩ | ⟨h, -⟩)
          · rcases bind_at?_eq_null hnull with ⟨-, hnil⟩ | ⟨hfields, -⟩
            · exact absurd (.inl hnil) habove
            · exact nomatch hnothing.symm.trans hfields
          · exact h
      -- two objects are merged: the question goes one name further
      · have habove : path = [] ∨ HasObjectsAbove (object current) path ↔
            HasObjectsAbove (object current) path :=
          or_iff_right_of_imp fun hnil => hnil ▸ hasObjectsAbove_nil _
        simpa [hcur, hget, held, habove] using ih (hlayer.of_get? hget)
      -- what the layer has is taken over as it is
      · constructor
        · intro h
          refine .inl ⟨h, ?_⟩
          rcases bind_at?_eq_null h with ⟨hnull, -⟩ | ⟨hfields, hne⟩
          · exact absurd (held_eq_nothing_iff.mpr (.inr hnull)) hsome
          · rintro (hnil | ⟨below, hcur, -⟩)
            · exact hne hnil
            · exact hnew hfields (held_eq_fields_iff.mpr ⟨below, hcur⟩)
        · rintro (⟨h, -⟩ | ⟨hnull, hnothing | ⟨below, hget, hleft⟩⟩)
          · exact h
          · exact absurd hnothing hsome
          · rcases bind_at?_eq_null hnull with ⟨-, rfl⟩ | ⟨hfields, -⟩
            · exact absurd hleft (not_leavesAlone_object_nil below)
            · exact absurd hfields (hnew (held_eq_fields_iff.mpr ⟨below, hget⟩))

/-! ## All layers -/

/-- The fields of all layers, the first one at the bottom. -/
def merged (layers : List (Fields Value)) : Fields Value :=
  layers.foldl layFields []

theorem merged_append_singleton (layers : List (Fields Value)) (last : Fields Value) :
    merged (layers ++ [last]) = layFields (merged layers) last := by
  simp [merged]

theorem lay_object (base fields : Fields Value) :
    lay base (.object fields) = .ok (layFields base fields) := by
  cases fields <;> rfl

/-- Layers that are objects can always be merged. -/
theorem mergeLayers_objects (layers : List (Fields Value)) :
    mergeLayers (layers.map .object) = .ok (merged layers) := by
  induction layers using List.reverseRecOn with
  | nil => rfl
  | append_singleton layers last ih =>
      rw [mergeLayers] at ih
      rw [mergeLayers, List.map_append, List.foldlM_append, ih, merged_append_singleton]
      simp only [List.map_singleton, List.foldlM_cons, List.foldlM_nil, bind_pure]
      exact lay_object (merged layers) last

variable {layers : List (Fields Value)}

theorem namesOnce_merged (h : ∀ layer ∈ layers, (object layer).NamesOnce) :
    (object (merged layers)).NamesOnce := by
  induction layers using List.reverseRecOn with
  | nil => exact namesOnce_object_nil
  | append_singleton layers last ih =>
      rw [merged_append_singleton]
      exact namesOnce_layFields (ih fun layer hmem => h layer (List.mem_append_left _ hmem))
        (h last (by simp))

/-- Taking nulls out of the layers changes nothing where null counts as nothing. -/
theorem holds_merged_withoutNulls (h : ∀ layer ∈ layers, (object layer).NamesOnce)
    (path : List Text) :
    (object (merged (layers.map fieldsWithoutNulls))).holds path =
      (object (merged layers)).holds path := by
  induction layers using List.reverseRecOn generalizing path with
  | nil => rfl
  | append_singleton layers last ih =>
      have hlast := h last (by simp)
      rw [List.map_append, List.map_singleton, merged_append_singleton, merged_append_singleton]
      refine holds_layFields_congr ?_ hlast ?_ (fun p => ?_) path
      · exact withoutNulls_object last ▸ hlast.withoutNulls (by simp)
      · exact ih fun layer hmem => h layer (List.mem_append_left _ hmem)
      · rw [← withoutNulls_object, holds_withoutNulls hlast (by simp)]

/-- The null that a layer has under a path is in the result if the layer brought an object above it
and no later layer puts anything there. -/
theorem at?_merged_eq_null_iff (h : ∀ layer ∈ layers, (object layer).NamesOnce)
    (path : List Text) :
    (object (merged layers)).at? path = some .null ↔
      ∃ before layer after, layers = before ++ layer :: after ∧
        (object layer).at? path = some .null ∧
        ¬ HasObjectsAbove (object (merged before)) path ∧
        ∀ later ∈ after, LeavesAlone (object later) path := by
  induction layers using List.reverseRecOn with
  | nil => cases path <;> simp [merged, at?_object_cons]
  | append_singleton layers last ih =>
      rw [merged_append_singleton, at?_layFields_eq_null_iff (h last (by simp)),
        ih fun layer hmem => h layer (List.mem_append_left _ hmem)]
      -- either the last layer brought the null, or an earlier one did and the last left it alone
      constructor
      · rintro (⟨hnull, hnew⟩ | ⟨⟨before, layer, after, rfl, hnull, hnew, hleft⟩, hlast⟩)
        · exact ⟨layers, last, [], rfl, hnull, hnew, by simp⟩
        · refine ⟨before, layer, after ++ [last], by simp, hnull, hnew, ?_⟩
          intro later hmem
          rcases List.mem_append.mp hmem with hmem | hmem
          · exact hleft later hmem
          · exact List.mem_singleton.mp hmem ▸ hlast
      · rintro ⟨before, layer, after, heq, hnull, hnew, hleft⟩
        rcases after.eq_nil_or_concat with rfl | ⟨after, later, rfl⟩
        · obtain ⟨rfl, hlast⟩ := List.append_inj' heq rfl
          obtain rfl : last = layer := by simpa using hlast
          exact .inl ⟨hnull, hnew⟩
        · rw [List.concat_eq_append, ← List.cons_append, ← List.append_assoc] at heq
          obtain ⟨rfl, hlast⟩ := List.append_inj' heq rfl
          obtain rfl : last = later := by simpa using hlast
          refine .inr ⟨⟨before, layer, after, rfl, hnull, hnew, fun later hmem => ?_⟩, ?_⟩
          · exact hleft later (by simp [hmem])
          · exact hleft last (by simp)

/-- No name at the top is null, for nothing there is new. -/
theorem get?_merged_ne_null (h : ∀ layer ∈ layers, (object layer).NamesOnce) (name : Text) :
    (merged layers).get? name ≠ some .null := by
  rw [← at?_object_singleton, ne_eq, at?_merged_eq_null_iff h]
  rintro ⟨before, layer, after, -, -, hnew, -⟩
  exact hnew (hasObjectsAbove_cons_iff.mpr (.inl rfl))

theorem namesOnce_withoutNulls (h : ∀ layer ∈ layers, (object layer).NamesOnce) :
    ∀ layer ∈ layers.map fieldsWithoutNulls, (object layer).NamesOnce := by
  intro bare hmem
  obtain ⟨layer, hlayer, rfl⟩ := List.mem_map.mp hmem
  exact withoutNulls_object layer ▸ (h layer hlayer).withoutNulls (by simp)

theorem at?_merged_withoutNulls_ne_null (h : ∀ layer ∈ layers, (object layer).NamesOnce)
    (path : List Text) :
    (object (merged (layers.map fieldsWithoutNulls))).at? path ≠ some .null := by
  rw [ne_eq, at?_merged_eq_null_iff (namesOnce_withoutNulls h)]
  rintro ⟨before, bare, after, heq, hnull, -⟩
  have hmem : bare ∈ layers.map fieldsWithoutNulls := by simp [heq]
  obtain ⟨layer, hlayer, rfl⟩ := List.mem_map.mp hmem
  rw [← withoutNulls_object] at hnull
  exact at?_withoutNulls_ne_null (h layer hlayer) (by simp) path hnull

end Settings
end LiveCanvas
