import LiveCanvas.Text.Basic

/-!
# Named fields in order

A list of named values in the order in which the names were first set.  Setting a name again
changes the value and keeps the place.
-/

namespace LiveCanvas

/-- Named values in order. -/
abbrev Fields (β : Type) := List (Text × β)

namespace Fields

variable {β : Type}

/-- The value of a name: that of its first entry. -/
def get? (fields : Fields β) (name : Text) : Option β :=
  (fields.find? fun entry => entry.1 == name).map (·.2)

/-- The name has a value. -/
def has (fields : Fields β) (name : Text) : Bool :=
  fields.any fun entry => entry.1 == name

/-- The names in order. -/
def names (fields : Fields β) : List Text :=
  fields.map (·.1)

/-- Gives a name a value, in its place or at the end. -/
def set (fields : Fields β) (name : Text) (value : β) : Fields β :=
  match fields with
  | [] => [(name, value)]
  | entry :: rest =>
    if entry.1 = name then (name, value) :: rest else entry :: set rest name value

/-- Gives a name a value unless it has one. -/
def setDefault (fields : Fields β) (name : Text) (value : β) : Fields β :=
  if fields.has name then fields else fields ++ [(name, value)]

/-- The fields without a name. -/
def erase (fields : Fields β) (name : Text) : Fields β :=
  fields.filter fun entry => entry.1 != name

/-- The fields in the order of a list in which a name may stand twice; the last value counts. -/
def ofList (entries : List (Text × β)) : Fields β :=
  entries.foldl (fun fields entry => fields.set entry.1 entry.2) []

@[simp] theorem get?_nil (name : Text) : get? ([] : Fields β) name = none := rfl

theorem get?_cons (entry : Text × β) (fields : Fields β) (name : Text) :
    get? (entry :: fields) name = if entry.1 = name then some entry.2 else get? fields name := by
  by_cases h : entry.1 = name <;> simp [get?, h]

theorem get?_append (fields more : Fields β) (name : Text) :
    Fields.get? (fields ++ more) name = (fields.get? name).or (more.get? name) := by
  simp only [get?, List.find?_append, Option.map_or]

@[simp] theorem get?_set (fields : Fields β) (name other : Text) (value : β) :
    (fields.set name value).get? other =
      if name = other then some value else fields.get? other := by
  induction fields with
  | nil => simp [set, get?_cons]
  | cons entry rest ih =>
    by_cases h : entry.1 = name
    · by_cases h' : name = other <;> simp [set, get?_cons, h, h']
    · by_cases h' : name = other
      · subst h'
        simp [set, get?_cons, h, ih]
      · simp [set, get?_cons, h, ih, h']

theorem get?_eq_none_iff {fields : Fields β} {name : Text} :
    fields.get? name = none ↔ name ∉ fields.names := by
  simp only [get?, names, Option.map_eq_none_iff, List.find?_eq_none, beq_iff_eq, List.mem_map]
  exact ⟨fun h ⟨entry, hm, he⟩ => h entry hm he, fun h entry hm he => h ⟨entry, hm, he⟩⟩

theorem has_iff {fields : Fields β} {name : Text} :
    fields.has name = true ↔ name ∈ fields.names := by
  simp [has, names]

@[simp] theorem names_erase (fields : Fields β) (name : Text) :
    (fields.erase name).names = fields.names.filter (· != name) := by
  simp [erase, names, List.filter_map, Function.comp_def]

theorem names_set (fields : Fields β) (name : Text) (value : β) :
    (fields.set name value).names =
      if name ∈ fields.names then fields.names else fields.names ++ [name] := by
  induction fields with
  | nil => simp [set, names]
  | cons entry rest ih =>
    by_cases h : entry.1 = name
    · simp [set, names, h]
    · have h' : name ≠ entry.1 := fun e => h e.symm
      simp only [names] at ih
      by_cases hm : name ∈ rest.map (·.1) <;> simp_all [set, names]

theorem mem_names_set {fields : Fields β} {name other : Text} {value : β} :
    other ∈ (fields.set name value).names ↔ other = name ∨ other ∈ fields.names := by
  rw [names_set]
  split
  · next hmem => exact ⟨.inr, fun h => h.elim (fun heq => heq ▸ hmem) id⟩
  · rw [List.mem_append, List.mem_singleton, or_comm]

/-- One more name, unless it is there already, leaves each name once. -/
theorem nodup_addName {names : List Text} (h : names.Nodup) (name : Text) :
    (if name ∈ names then names else names ++ [name]).Nodup := by
  split
  · exact h
  · next hnew =>
    have hne : ∀ other ∈ names, other ≠ name := fun other hother e => hnew (e ▸ hother)
    simpa [List.nodup_append, h] using hne

theorem nodup_names_set {fields : Fields β} (h : fields.names.Nodup) (name : Text) (value : β) :
    (fields.set name value).names.Nodup := by
  rw [names_set]
  exact nodup_addName h name

/-- What has a value keeps it. -/
theorem get?_setDefault (fields : Fields β) (name other : Text) (value : β) :
    (fields.setDefault name value).get? other =
      (fields.get? other).or (if name = other then some value else none) := by
  by_cases hhas : fields.has name = true
  · rw [setDefault, if_pos hhas]
    by_cases h : name = other
    · subst h
      have hsome : fields.get? name ≠ none := fun hnone =>
        get?_eq_none_iff.mp hnone (has_iff.mp hhas)
      rw [Option.or_of_isSome (Option.isSome_iff_ne_none.mpr hsome)]
    · simp [h]
  · rw [setDefault, if_neg hhas, get?_append, get?_cons, get?_nil]

/-- Of entries set one after the other the first one under a name counts. -/
theorem get?_foldl_setDefault (fields entries : Fields β) (name : Text) :
    Fields.get? (entries.foldl (fun fields entry => fields.setDefault entry.1 entry.2) fields)
        name = (fields.get? name).or (entries.get? name) := by
  induction entries generalizing fields with
  | nil => simp
  | cons entry entries ih =>
      rw [List.foldl_cons, ih, get?_setDefault, get?_cons, Option.or_assoc]
      by_cases h : entry.1 = name <;> simp [h]

theorem names_setDefault (fields : Fields β) (name : Text) (value : β) :
    (fields.setDefault name value).names =
      if name ∈ fields.names then fields.names else fields.names ++ [name] := by
  by_cases hmem : name ∈ fields.names
  · rw [setDefault, if_pos (has_iff.mpr hmem), if_pos hmem]
  · rw [setDefault, if_neg fun h => hmem (has_iff.mp h), if_neg hmem]
    simp [names]

theorem nodup_names_setDefault {fields : Fields β} (h : fields.names.Nodup) (name : Text)
    (value : β) : (fields.setDefault name value).names.Nodup := by
  rw [names_setDefault]
  exact nodup_addName h name

theorem get?_map_values {γ : Type} (value : β → γ) (fields : Fields β) (name : Text) :
    Fields.get? (fields.map fun entry => (entry.1, value entry.2)) name =
      (fields.get? name).map value := by
  induction fields with
  | nil => rfl
  | cons entry fields ih =>
      rw [List.map_cons, get?_cons, get?_cons, ih]
      by_cases h : entry.1 = name <;> simp [h]

theorem names_map_values {γ : Type} (value : β → γ) (fields : Fields β) :
    Fields.names (fields.map fun entry => (entry.1, value entry.2)) = fields.names := by
  simp [names, Function.comp_def]

/-- Names whose values are told by a function. -/
theorem get?_map_names (names : List Text) (value : Text → β) (name : Text) :
    Fields.get? (names.map fun name => (name, value name)) name =
      if name ∈ names then some (value name) else none := by
  induction names with
  | nil => rfl
  | cons first names ih =>
      rw [List.map_cons, get?_cons, ih]
      by_cases h : first = name
      · simp [h]
      · simp [h, Ne.symm h]

/-- Where each item of a list has a value for several names, the first item with a name counts. -/
theorem get?_flatMap_names {α : Type} (items : List α) (names : α → List Text) (value : α → β)
    (name : Text) :
    Fields.get? (items.flatMap fun item => (names item).map fun name => (name, value item)) name =
      (items.find? fun item => name ∈ names item).map value := by
  induction items with
  | nil => rfl
  | cons item items ih =>
      rw [List.flatMap_cons, get?_append, ih, get?_map_names _ fun _ => value item]
      by_cases h : name ∈ names item <;> simp [h]

theorem mem_of_mem_set {fields : Fields β} {name : Text} {value : β} {entry : Text × β}
    (h : entry ∈ fields.set name value) : entry = (name, value) ∨ entry ∈ fields := by
  induction fields with
  | nil => exact .inl (List.mem_singleton.mp h)
  | cons first rest ih =>
      rw [set] at h
      split at h
      · exact (List.mem_cons.mp h).imp id (List.mem_cons_of_mem _)
      · rcases List.mem_cons.mp h with rfl | hrest
        · exact .inr List.mem_cons_self
        · exact (ih hrest).imp id (List.mem_cons_of_mem _)

theorem mem_of_mem_foldl_set {entries fields : Fields β} {entry : Text × β}
    (h : entry ∈ entries.foldl (fun fields entry => fields.set entry.1 entry.2) fields) :
    entry ∈ fields ∨ entry ∈ entries := by
  induction entries generalizing fields with
  | nil => exact .inl h
  | cons first entries ih =>
      rcases ih h with hset | hmem
      · rcases mem_of_mem_set hset with rfl | hmem
        · exact .inr List.mem_cons_self
        · exact .inl hmem
      · exact .inr (List.mem_cons_of_mem _ hmem)

theorem mem_of_mem_ofList {entries : Fields β} {entry : Text × β}
    (h : entry ∈ ofList entries) : entry ∈ entries :=
  (mem_of_mem_foldl_set h).resolve_left List.not_mem_nil

theorem nodup_names_foldl_set (entries : Fields β) {fields : Fields β} (h : fields.names.Nodup) :
    (entries.foldl (fun fields entry => fields.set entry.1 entry.2) fields).names.Nodup := by
  induction entries generalizing fields with
  | nil => exact h
  | cons entry entries ih => exact ih (nodup_names_set h _ _)

theorem nodup_names_ofList (entries : Fields β) : (ofList entries).names.Nodup :=
  nodup_names_foldl_set entries List.nodup_nil

theorem set_of_notMem {fields : Fields β} {name : Text} (h : name ∉ fields.names) (value : β) :
    fields.set name value = fields ++ [(name, value)] := by
  induction fields with
  | nil => rfl
  | cons entry rest ih =>
      rw [names, List.map_cons, List.mem_cons, not_or] at h
      rw [set, if_neg (Ne.symm h.1), ih h.2, List.cons_append]

theorem foldl_set_of_nodup (entries fields : Fields β)
    (h : (fields.names ++ entries.names).Nodup) :
    entries.foldl (fun fields entry => fields.set entry.1 entry.2) fields = fields ++ entries := by
  induction entries generalizing fields with
  | nil => simp
  | cons entry rest ih =>
      have hnew : entry.1 ∉ fields.names := by
        intro hmem
        exact (List.nodup_append.1 h).2.2 _ hmem _ (by simp [names]) rfl
      rw [List.foldl_cons, set_of_notMem hnew]
      rw [ih (fields ++ [entry]) (by simpa [names] using h)]
      simp

/-- Fields whose names are distinct already are left as they are. -/
theorem ofList_of_nodup {entries : Fields β} (h : entries.names.Nodup) :
    ofList entries = entries := by
  have hfold := foldl_set_of_nodup entries [] (by simpa [names] using h)
  simpa [ofList] using hfold

end Fields
end LiveCanvas
