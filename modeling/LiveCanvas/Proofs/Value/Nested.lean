import LiveCanvas.Value.Basic

/-!
# Values inside objects

What an object holds is found under paths of names, one name for each object on the way.  Where a
null is as good as nothing, a path leads to nothing, to more fields, or to a plain value.  Lists are
plain values: no path leads into one.
-/

namespace LiveCanvas
namespace Value

/-- The value under the names of a path. -/
def at? : Value → List Text → Option Value
  | v, [] => some v
  | .object fields, name :: path =>
    match Fields.get? fields name with
    | some v => at? v path
    | none => none
  | _, _ :: _ => none

@[simp] theorem at?_nil (v : Value) : v.at? [] = some v := by
  cases v <;> rfl

theorem at?_object_cons (fields : Fields Value) (name : Text) (path : List Text) :
    (object fields).at? (name :: path) = (fields.get? name).bind (·.at? path) := by
  rw [at?]
  cases Fields.get? fields name <;> rfl

theorem at?_cons_of_not_object {v : Value} (h : ∀ fields, v ≠ object fields) (name : Text)
    (path : List Text) : v.at? (name :: path) = none := by
  cases v with
  | object fields => exact absurd rfl (h fields)
  | null | bool | number | text | list => rfl

theorem at?_object_singleton (fields : Fields Value) (name : Text) :
    (object fields).at? [name] = fields.get? name := by
  rw [at?_object_cons]
  cases fields.get? name <;> simp

/-- A value that is neither null nor an object. -/
def IsPlain (v : Value) : Prop :=
  v ≠ null ∧ ∀ fields, v ≠ object fields

/-! ## What is held when null counts as nothing -/

/-- What may be held somewhere. -/
inductive Held
  | nothing
  | fields
  | plain (v : Value)

/-- What is held where this value stands, if one does. -/
def held : Option Value → Held
  | none | some null => .nothing
  | some (object _) => .fields
  | some v => .plain v

/-- What is held under a path. -/
def holds (v : Value) (path : List Text) : Held :=
  held (v.at? path)

@[simp] theorem holds_object_nil (fields : Fields Value) : (object fields).holds [] = .fields := by
  rw [holds, at?_nil, held]

theorem holds_object_singleton (fields : Fields Value) (name : Text) :
    (object fields).holds [name] = held (fields.get? name) := by
  rw [holds, at?_object_singleton]

theorem holds_object_cons {fields : Fields Value} {name : Text} {v : Value}
    (h : fields.get? name = some v) (path : List Text) :
    (object fields).holds (name :: path) = v.holds path := by
  rw [holds, at?_object_cons, h, Option.bind_some, holds]

theorem held_eq_nothing_iff {o : Option Value} : held o = .nothing ↔ o = none ∨ o = some null := by
  rcases o with - | v
  · simp [held]
  · cases v <;> simp [held]

theorem held_eq_fields_iff {o : Option Value} :
    held o = .fields ↔ ∃ fields, o = some (object fields) := by
  rcases o with - | v
  · simp [held]
  · cases v <;> simp [held]

theorem held_eq_plain_iff {o : Option Value} {v : Value} :
    held o = .plain v ↔ o = some v ∧ v.IsPlain := by
  rcases o with - | w
  · simp [held]
  · cases w <;> simp [held, IsPlain] <;> rintro rfl <;> simp

theorem eq_of_held_eq {o o' : Option Value} (h : held o = held o') (hnull : o ≠ some null)
    (hnull' : o' ≠ some null) (hfields : held o ≠ .fields) : o = o' := by
  cases hheld : held o with
  | nothing =>
      rw [(held_eq_nothing_iff.mp hheld).resolve_right hnull,
        (held_eq_nothing_iff.mp (h ▸ hheld)).resolve_right hnull']
  | plain v =>
      have hv := (held_eq_plain_iff.mp hheld).1
      have hv' := (held_eq_plain_iff.mp (h ▸ hheld)).1
      rw [hv, hv']
  | fields => exact absurd hheld hfields

theorem getD_eq_of_held_eq {o o' : Option Value} (h : held o = held o')
    (hfields : held o ≠ .fields) : o.getD null = o'.getD null := by
  cases hheld : held o with
  | nothing =>
      have hnone := held_eq_nothing_iff.mp hheld
      have hnone' := held_eq_nothing_iff.mp (h ▸ hheld)
      rcases hnone with rfl | rfl <;> rcases hnone' with rfl | rfl <;> rfl
  | plain v =>
      have hv := (held_eq_plain_iff.mp hheld).1
      have hv' := (held_eq_plain_iff.mp (h ▸ hheld)).1
      rw [hv, hv']
  | fields => exact absurd hheld hfields

theorem holds_object_cons_of_nothing {fields : Fields Value} {name : Text}
    (h : held (fields.get? name) = .nothing) (path : List Text) :
    (object fields).holds (name :: path) = .nothing := by
  rw [holds, at?_object_cons]
  rcases held_eq_nothing_iff.mp h with hnone | hnull
  · rw [hnone, Option.bind_none, held]
  · rw [hnull, Option.bind_some]
    cases path <;> simp [held, at?]

/-- A path leads to a null only where the null is, or by way of an object. -/
theorem bind_at?_eq_null {o : Option Value} {path : List Text}
    (h : o.bind (·.at? path) = some null) :
    o = some null ∧ path = [] ∨ held o = .fields ∧ path ≠ [] := by
  obtain ⟨v, rfl, hat⟩ := Option.bind_eq_some_iff.mp h
  rcases path with - | ⟨name, path⟩
  · rw [at?_nil] at hat
    exact .inl ⟨hat, rfl⟩
  · cases v with
    | object fields => exact .inr ⟨rfl, by simp⟩
    | null | bool | number | text | list => exact nomatch hat

/-! ## Names that stand once -/

/-- No object under a path has a name twice. -/
def NamesOnce (v : Value) : Prop :=
  ∀ path fields, v.at? path = some (object fields) → (Fields.names fields).Nodup

namespace NamesOnce

variable {fields : Fields Value} {name : Text} {v : Value}

theorem nodup (h : (object fields).NamesOnce) : fields.names.Nodup :=
  h [] fields (at?_nil _)

theorem of_get? (h : (object fields).NamesOnce) (hget : fields.get? name = some v) :
    v.NamesOnce := by
  intro path below hbelow
  refine h (name :: path) below ?_
  rw [at?_object_cons, hget, Option.bind_some, hbelow]

theorem of_not_object (h : ∀ fields, v ≠ object fields) : v.NamesOnce := by
  intro path below hbelow
  cases path with
  | nil =>
      rw [at?_nil, Option.some_inj] at hbelow
      exact absurd hbelow (h below)
  | cons name path =>
      rw [at?_cons_of_not_object h] at hbelow
      exact nomatch hbelow

/-- An object names its fields once, and so do the objects in it. -/
theorem object (hnodup : fields.names.Nodup) (hbelow : ∀ entry ∈ fields, entry.2.NamesOnce) :
    (Value.object fields).NamesOnce := by
  intro path below hpath
  cases path with
  | nil =>
      rw [at?_nil, Option.some_inj, Value.object.injEq] at hpath
      exact hpath ▸ hnodup
  | cons name path =>
      rw [at?_object_cons] at hpath
      obtain ⟨v, hget, hpath⟩ := Option.bind_eq_some_iff.mp hpath
      obtain ⟨entry, hentry, rfl⟩ := Option.map_eq_some_iff.mp hget
      exact hbelow entry (List.mem_of_find?_eq_some hentry) path below hpath

end NamesOnce

theorem namesOnce_object_nil : (object []).NamesOnce :=
  NamesOnce.object List.nodup_nil fun _ hmem => absurd hmem List.not_mem_nil

/-! ## Without nulls -/

mutual

/-- The value without the fields that are null, in the objects at every depth. -/
def withoutNulls : Value → Value
  | object fields => object (fieldsWithoutNulls fields)
  | v => v

/-- The fields that are not null, without the ones that are null below them. -/
def fieldsWithoutNulls : List (Text × Value) → List (Text × Value)
  | [] => []
  | (_, null) :: rest => fieldsWithoutNulls rest
  | (name, v) :: rest => (name, v.withoutNulls) :: fieldsWithoutNulls rest

end

theorem withoutNulls_object (fields : Fields Value) :
    (object fields).withoutNulls = object (fieldsWithoutNulls fields) := by
  rw [withoutNulls]

theorem fieldsWithoutNulls_cons_null (name : Text) (rest : Fields Value) :
    fieldsWithoutNulls ((name, null) :: rest) = fieldsWithoutNulls rest := by
  rw [fieldsWithoutNulls]

theorem fieldsWithoutNulls_cons {v : Value} (h : v ≠ null) (name : Text) (rest : Fields Value) :
    fieldsWithoutNulls ((name, v) :: rest) =
      (name, v.withoutNulls) :: fieldsWithoutNulls rest := by
  cases v <;> first | exact absurd rfl h | simp [fieldsWithoutNulls]

theorem withoutNulls_ne_null {v : Value} (h : v ≠ null) : v.withoutNulls ≠ null := by
  cases v <;> simp_all [withoutNulls]

theorem names_fieldsWithoutNulls_sublist (fields : Fields Value) :
    (Fields.names (fieldsWithoutNulls fields)).Sublist fields.names := by
  induction fields with
  | nil => simp [fieldsWithoutNulls, Fields.names]
  | cons entry rest ih =>
      obtain ⟨name, v⟩ := entry
      by_cases h : v = null
      · subst h
        rw [fieldsWithoutNulls_cons_null]
        exact ih.cons name
      · rw [fieldsWithoutNulls_cons h]
        exact ih.cons_cons name

theorem present?_of_ne_null {v : Value} (h : v ≠ null) : v.present? = some v := by
  cases v <;> first | exact absurd rfl h | rfl

theorem ne_null_of_present? {v w : Value} (h : v.present? = some w) : w ≠ null := by
  rintro rfl
  rw [eq_of_present? h] at h
  exact nomatch h

/-- Under each name stands what stood there, unless it was null. -/
theorem get?_fieldsWithoutNulls {fields : Fields Value} (h : fields.names.Nodup) (name : Text) :
    Fields.get? (fieldsWithoutNulls fields) name =
      ((fields.get? name).bind present?).map withoutNulls := by
  induction fields with
  | nil => simp [fieldsWithoutNulls]
  | cons entry rest ih =>
      obtain ⟨first, v⟩ := entry
      rw [Fields.names, List.map_cons, List.nodup_cons] at h
      have hrest := ih h.2
      by_cases hnull : v = null
      · subst hnull
        rw [fieldsWithoutNulls_cons_null, hrest, Fields.get?_cons]
        by_cases hname : first = name
        · subst hname
          have hnone : Fields.get? rest first = none := Fields.get?_eq_none_iff.mpr h.1
          simp [hnone, present?]
        · simp [hname]
      · rw [fieldsWithoutNulls_cons hnull, Fields.get?_cons, Fields.get?_cons, hrest]
        by_cases hname : first = name <;> simp [hname, present?_of_ne_null hnull]

/-- Under each path stands what stood there, unless it was null. -/
theorem at?_withoutNulls {v : Value} (hnames : v.NamesOnce) (hv : v ≠ null) (path : List Text) :
    v.withoutNulls.at? path = ((v.at? path).bind present?).map withoutNulls := by
  induction path generalizing v with
  | nil => rw [at?_nil, at?_nil, Option.bind_some, present?_of_ne_null hv, Option.map_some]
  | cons name path ih =>
      cases v with
      | object fields =>
          rw [withoutNulls, at?_object_cons, at?_object_cons,
            get?_fieldsWithoutNulls hnames.nodup]
          cases hget : Fields.get? fields name with
          | none => rfl
          | some w =>
              -- a null is gone, and no path leads on from it
              by_cases hw : w = null
              · subst hw
                cases path <;> simp [present?, at?]
              · simpa [present?_of_ne_null hw] using ih (hnames.of_get? hget) hw
      | null | bool | number | text | list => simp [withoutNulls, at?]

theorem at?_withoutNulls_ne_null {v : Value} (hnames : v.NamesOnce) (hv : v ≠ null)
    (path : List Text) : v.withoutNulls.at? path ≠ some null := by
  rw [at?_withoutNulls hnames hv]
  intro hnull
  obtain ⟨w, hw, hnone⟩ := Option.map_eq_some_iff.mp hnull
  obtain ⟨u, -, hpresent⟩ := Option.bind_eq_some_iff.mp hw
  exact withoutNulls_ne_null (ne_null_of_present? hpresent) hnone

/-- Taking nulls away changes nothing where null counts as nothing. -/
theorem holds_withoutNulls {v : Value} (hnames : v.NamesOnce) (hv : v ≠ null)
    (path : List Text) : v.withoutNulls.holds path = v.holds path := by
  rw [holds, holds, at?_withoutNulls hnames hv]
  rcases v.at? path with - | w
  · rfl
  · cases w <;> simp [present?, withoutNulls, held]

theorem NamesOnce.withoutNulls {v : Value} (h : v.NamesOnce) (hv : v ≠ null) :
    v.withoutNulls.NamesOnce := by
  intro path below hpath
  rw [at?_withoutNulls h hv] at hpath
  obtain ⟨w, hw, hbelow⟩ := Option.map_eq_some_iff.mp hpath
  obtain ⟨u, hat, hpresent⟩ := Option.bind_eq_some_iff.mp hw
  obtain rfl := eq_of_present? hpresent
  cases u with
  | object fields =>
      rw [Value.withoutNulls, Value.object.injEq] at hbelow
      subst hbelow
      exact (names_fieldsWithoutNulls_sublist fields).nodup (h path fields hat)
  | null | bool | number | text | list => simp [Value.withoutNulls] at hbelow

end Value
end LiveCanvas
