import LiveCanvas.Canvas.GraphFile
import LiveCanvas.Proofs.Canvas.EntryFaults
import LiveCanvas.Proofs.Json.RoundTrip

/-!
# What is wrong with a graph file

A file that holds no graph is to be refused with a description of what is wrong with it.  For the
most part it is; but a file can also be of a shape that nothing describes, such as a wrapped text
that is no object, or a zoom that is no number.  This module tells the shapes apart: every file with
a graph in it is regular, and a regular file without one is refused with a description.
-/

namespace LiveCanvas

/-! ## Readings that describe faults -/

/-- A reading vets a property of what is read: it succeeds only where the property holds, and where
the property holds it fails only with a description. -/
structure Vets {α : Type} (r : Except LoadError α) (p : Prop) : Prop where
  of_ok : ∀ a, r = .ok a → p
  ne_misuse : p → ∀ cause, r ≠ .error (.misuse cause)

namespace Vets

variable {α β : Type} {r : Except LoadError α} {p q : Prop}

theorem of_iff (h : Vets r p) (hpq : p ↔ q) : Vets r q :=
  ⟨fun a ha => hpq.mp (h.of_ok a ha), fun hq => h.ne_misuse (hpq.mpr hq)⟩

/-- A reading in two steps vets what both steps vet. -/
theorem bind {f : α → Except LoadError β} (hr : Vets r p) (hf : ∀ a, r = .ok a → Vets (f a) q) :
    Vets (r >>= f) (p ∧ q) where
  of_ok b h := by
    obtain ⟨a, ha, hb⟩ := bind_eq_ok_iff.mp h
    exact ⟨hr.of_ok a ha, (hf a ha).of_ok b hb⟩
  ne_misuse h cause hfails := by
    rcases bind_eq_error_iff.mp hfails with hfirst | ⟨a, ha, hsecond⟩
    · exact hr.ne_misuse h.1 cause hfirst
    · exact (hf a ha).ne_misuse h.2 cause hsecond

/-- A last step that cannot fail vets nothing more. -/
theorem bind_pure (hr : Vets r p) (f : α → β) : Vets (r >>= fun a => pure (f a)) p where
  of_ok b h := by
    obtain ⟨a, ha, -⟩ := bind_eq_ok_iff.mp h
    exact hr.of_ok a ha
  ne_misuse h cause hfails := by
    rcases bind_eq_error_iff.mp hfails with hfirst | ⟨a, -, hsecond⟩
    · exact hr.ne_misuse h cause hfirst
    · exact pure_ne_error hsecond

theorem mapM {read : Value → Except LoadError β} {p : Value → Prop} (h : ∀ v, Vets (read v) (p v))
    (vs : List Value) : Vets (vs.mapM read) (∀ v ∈ vs, p v) where
  of_ok bs hread v hv := by
    obtain ⟨b, hb⟩ := exists_of_mapM_eq_ok hread v hv
    exact (h v).of_ok b hb
  ne_misuse hall cause hfails := by
    obtain ⟨v, hv, hfault⟩ := exists_of_mapM_eq_error hfails
    exact (h v).ne_misuse (hall v hv) cause hfault

/-- Outside every node a misuse is never described. -/
theorem bare (x : Except Misuse α) : Vets (Graph.bare x) (∃ a, x = .ok a) := by
  cases x with
  | ok a => exact ⟨fun _ _ => ⟨a, rfl⟩, fun _ _ h => nomatch h⟩
  | error e => exact ⟨(fun _ h => nomatch h), fun ⟨_, h⟩ => nomatch h⟩

/-- What is vetted is read, or refused with a description. -/
theorem ok_or_described (h : Vets r p) (hp : p) :
    (∃ a, r = .ok a) ∨ ∃ e, r = .error e ∧ e.isDescribed = true := by
  cases hr : r with
  | ok a => exact .inl ⟨a, rfl⟩
  | error e =>
      refine .inr ⟨e, rfl, ?_⟩
      cases e with
      | misuse cause => exact absurd hr (h.ne_misuse hp cause)
      | _ => rfl

theorem exists_error (h : Vets r p) (hp : ¬ p) : ∃ e, r = .error e := by
  cases hr : r with
  | ok a => exact absurd (h.of_ok a hr) hp
  | error e => exact ⟨e, rfl⟩

end Vets

/-! ## Entries -/

/-- The entry is an object, and the places and sizes in it are not beyond every double. -/
def Node.IsEntry (v : Value) : Prop :=
  (∃ fields, v = .object fields) ∧ ∀ n, .number (.whole n) ∈ measures v → ¬ BeyondDoubles n

theorem Node.vets_ofValue (v : Value) : Vets (ofValue v) (IsEntry v) where
  of_ok n h := by
    obtain ⟨fields, rfl, hreal⟩ := exists_fields_of_ofValue_eq_ok h
    exact ⟨⟨fields, rfl⟩, fun m hm => not_beyondDoubles_of_toReal (hreal _ hm)⟩
  ne_misuse h cause hfails := by
    obtain ⟨⟨fields, rfl⟩, hfits⟩ := h
    obtain ⟨-, n, hn, hbeyond⟩ := ofValue_eq_misuse hfails
    exact hfits n hn hbeyond

theorem Connection.vets_ofValue (v : Value) : Vets (ofValue v) (∃ fields, v = .object fields) where
  of_ok c h := by
    cases v with
    | object fields => exact ⟨fields, rfl⟩
    | null | bool | number | text | list => simp [ofValue] at h
  ne_misuse h cause := by
    obtain ⟨fields, rfl⟩ := h
    exact ofValue_ne_misuse fields cause

namespace Value

/-- The value is a list of what has a property, or counts as no. -/
def IsListOf (p : Value → Prop) (v : Value) : Prop :=
  v.isTrue = true → ∃ items, v = .list items ∧ ∀ item ∈ items, p item

/-- The characters of a text and the names of an object are no objects, so only a list is a list of
objects. -/
theorem isListOf_iff {p : Value → Prop} (hp : ∀ v, p v → ∃ fields, v = .object fields) {v : Value} :
    ((∃ items, v.elementsIfTrue = .ok items) ∧
      ∀ items, v.elementsIfTrue = .ok items → ∀ item ∈ items, p item) ↔ IsListOf p v := by
  by_cases htrue : v.isTrue = true
  · have hnone : ∀ s, ¬ p (.text s) := fun s h => by
      obtain ⟨fields, hfields⟩ := hp _ h
      cases hfields
    simp only [elementsIfTrue, IsListOf, htrue, if_true, true_implies]
    cases v with
    | list items => simp [elements]
    | text s =>
        have hne : s.toList ≠ [] := fun h => bne_iff_ne.1 htrue (Text.ext h)
        obtain ⟨c, rest, hcons⟩ := List.exists_cons_of_ne_nil hne
        simp [elements, hcons, hnone]
    | object fields =>
        have hne : fields ≠ [] := by simpa [isTrue] using htrue
        obtain ⟨field, rest, rfl⟩ := List.exists_cons_of_ne_nil hne
        simp [elements, hnone]
    | null | bool | number => simp [elements]
  · simp [elementsIfTrue, IsListOf, htrue]

end Value

/-! ## Graphs -/

/-- Whatever is wrong with the object of a graph has a description. -/
structure Graph.IsRegular (fields : Fields Value) : Prop where
  nodes : (Value.field fields "nodes").IsListOf Node.IsEntry
  connections : (Value.field fields "connections").IsListOf fun v => ∃ fields, v = .object fields
  /-- A loop can run through what is listed as running. -/
  running : (Value.field fields "runningPreviewIds").isTrue = true →
    ∃ items, (Value.field fields "runningPreviewIds").elements = .ok items
  /-- The place is an object whose coordinates stand for doubles. -/
  pan : (Value.field fields "pan").isTrue = true →
    (∃ place, Value.field fields "pan" = .object place) ∧
      ∀ v ∈ (Value.field fields "pan").valuesOf ["x", "y"], ∃ x, v.toReal = .ok x
  zoom : ∀ v, fields.get? "zoom" = some v → ∃ x, v.toReal = .ok x

namespace Graph

theorem eq_ok_of_bare {α : Type} {x : Except Misuse α} {a : α} (h : bare x = .ok a) :
    x = .ok a := by
  cases x with
  | ok b => exact congrArg _ (Except.ok.inj h)
  | error e => cases h

theorem exists_elementsIfTrue_iff {v : Value} :
    (∃ items, v.elementsIfTrue = .ok items) ↔
      (v.isTrue = true → ∃ items, v.elements = .ok items) := by
  by_cases htrue : v.isTrue = true <;> simp [Value.elementsIfTrue, htrue]

theorem exists_realField_iff {fields : Fields Value} {name : Text} {default : Float} :
    (∃ x, Value.realField fields name default = .ok x) ↔
      ∀ v, fields.get? name = some v → ∃ x, v.toReal = .ok x := by
  cases hget : fields.get? name <;> simp [Value.realField, hget]

/-- A place can be read where its coordinates stand for doubles. -/
theorem exists_position_iff {fields : Fields Value} :
    (∃ place, Position.ofFields fields = .ok place) ↔
      ∀ v ∈ (Value.object fields).valuesOf ["x", "y"], ∃ x, v.toReal = .ok x := by
  constructor
  · rintro ⟨place, h⟩
    exact Value.toReal_of_realFields_eq_ok h
  · intro h
    have hread : ∀ name ∈ ["x", "y"].map Text.ofString,
        ∃ x, Value.realField fields name 0 = .ok x :=
      fun name hname => exists_realField_iff.mpr fun v hget => h v (Value.mem_valuesOf hname hget)
    obtain ⟨x, hx⟩ := hread "x" (by simp)
    obtain ⟨y, hy⟩ := hread "y" (by simp)
    exact ⟨⟨x, y⟩, by rw [Position.ofFields, hx, hy]; rfl⟩

section Steps

variable {α β : Type} {q : Prop}

/-- A list is read entry by entry. -/
theorem vets_entries {read : Value → Except LoadError α} {p : Value → Prop}
    (hread : ∀ v, Vets (read v) (p v)) (hp : ∀ v, p v → ∃ fields, v = .object fields) (v : Value)
    {rest : List α → Except LoadError β} (hrest : ∀ as, Vets (rest as) q) :
    Vets (bare v.elementsIfTrue >>= fun items => items.mapM read >>= rest) (v.IsListOf p ∧ q) := by
  have hitems : ∀ items, bare v.elementsIfTrue = .ok items →
      Vets (items.mapM read >>= rest)
        ((∀ items, v.elementsIfTrue = .ok items → ∀ item ∈ items, p item) ∧ q) := by
    intro items hbare
    have helements := eq_ok_of_bare hbare
    refine ((Vets.mapM hread items).of_iff ?_).bind fun as _ => hrest as
    simp [helements]
  refine ((Vets.bare v.elementsIfTrue).bind hitems).of_iff ?_
  rw [← and_assoc, Value.isListOf_iff hp]

/-- A place is read from an object, or from nothing. -/
theorem vets_place (v : Value) {rest : Position → Except LoadError β}
    (hrest : ∀ place, Vets (rest place) q) :
    Vets (bare v.toFieldsIfTrue >>= fun fields => bare (Position.ofFields fields) >>= rest)
      ((v.isTrue = true → (∃ fields, v = .object fields) ∧
        ∀ w ∈ v.valuesOf ["x", "y"], ∃ x, w.toReal = .ok x) ∧ q) := by
  have hfields : ∀ fields, bare v.toFieldsIfTrue = .ok fields →
      Vets (bare (Position.ofFields fields) >>= rest)
        ((∀ w ∈ v.valuesOf ["x", "y"], ∃ x, w.toReal = .ok x) ∧ q) := by
    intro fields hbare
    rw [Node.valuesOf_of_toFieldsIfTrue (eq_ok_of_bare hbare)]
    refine ((Vets.bare (Position.ofFields fields)).of_iff ?_).bind fun place _ => hrest place
    exact exists_position_iff
  refine ((Vets.bare v.toFieldsIfTrue).bind hfields).of_iff ?_
  rw [← and_assoc]
  refine and_congr_left fun _ => ?_
  by_cases htrue : v.isTrue = true
  · cases v <;> simp [Value.toFieldsIfTrue, htrue, Value.toFields]
  · cases v <;> simp_all [Value.toFieldsIfTrue, Value.valuesOf, Value.isTrue]

end Steps

/-- Whatever is wrong with a regular object has a description, and no other object is a graph. -/
theorem vets_ofFields (fields : Fields Value) : Vets (ofFields fields) (IsRegular fields) := by
  have hsteps : Vets (ofFields fields) ((Value.field fields "nodes").IsListOf Node.IsEntry ∧
      (Value.field fields "connections").IsListOf (fun v => ∃ fields, v = .object fields) ∧
      (∃ items, (Value.field fields "runningPreviewIds").elementsIfTrue = .ok items) ∧
      ((Value.field fields "pan").isTrue = true →
        (∃ place, Value.field fields "pan" = .object place) ∧
          ∀ v ∈ (Value.field fields "pan").valuesOf ["x", "y"], ∃ x, v.toReal = .ok x) ∧
      ∃ x, Value.realField fields "zoom" 1 = .ok x) := by
    -- one step after the other, in the order in which a fault is told
    refine vets_entries Node.vets_ofValue (fun v hv => hv.1) _ fun nodes => ?_
    refine vets_entries Connection.vets_ofValue (fun v hv => hv) _ fun connections => ?_
    refine (Vets.bare _).bind fun running _ => ?_
    refine vets_place _ fun pan => ?_
    exact (Vets.bare _).bind_pure _
  rw [exists_elementsIfTrue_iff, exists_realField_iff] at hsteps
  exact hsteps.of_iff ⟨fun ⟨hnodes, hconnections, hrunning, hpan, hzoom⟩ =>
    ⟨hnodes, hconnections, hrunning, hpan, hzoom⟩, fun h =>
    ⟨h.nodes, h.connections, h.running, h.pan, h.zoom⟩⟩

theorem vets_ofValue (v : Value) :
    Vets (ofValue v) (∃ fields, v = .object fields ∧ IsRegular fields) := by
  cases v with
  | object fields =>
      show Vets (ofFields fields) _
      exact (vets_ofFields fields).of_iff (by simp)
  | null | bool | number | text | list =>
      exact ⟨(fun _ h => nomatch h), fun ⟨_, h, _⟩ => nomatch h⟩

end Graph

/-! ## Files -/

namespace GraphFile

/-- The object that counts is regular: the one that is wrapped in a text, or else the whole. -/
def WrapsRegular (fields : Fields Value) : Prop :=
  match fields.get? "state" with
  | some (.text s) => Json.read s ≠ .error .tooManyDigits ∧
      ∀ v, Json.read s = .ok v → ∃ inner, v = .object inner ∧ Graph.IsRegular inner
  | _ => Graph.IsRegular fields

/-- Whatever is wrong with a graph file has a description. -/
structure IsRegular (text : Text) : Prop where
  digits : Json.read text ≠ .error .tooManyDigits
  object : ∀ fields, Json.read text = .ok (.object fields) → WrapsRegular fields

/-- A text that is to be JSON is refused with a description, unless a number in it is too long. -/
theorem vets_json {β : Type} {s : Text} (refusal : LoadError)
    (hrefusal : refusal.isDescribed = true) {rest : Value → Except LoadError β} {q : Value → Prop}
    (hrest : ∀ v, Vets (rest v) (q v)) :
    Vets ((match Json.read s with
        | .ok v => .ok v
        | .error .malformed => .error refusal
        | .error .tooManyDigits => .error (.misuse .unreadable)) >>= rest)
      (Json.read s ≠ .error .tooManyDigits ∧ ∀ v, Json.read s = .ok v → q v) := by
  cases hread : Json.read s with
  | ok v =>
      show Vets (rest v) _
      exact (hrest v).of_iff (by simp)
  | error fault =>
      cases fault with
      | malformed =>
          refine ⟨(fun _ h => nomatch h), fun _ cause h => ?_⟩
          obtain rfl : refusal = .misuse cause := Except.error.inj h
          cases hrefusal
      | tooManyDigits => exact ⟨(fun _ h => nomatch h), fun h => absurd rfl h.1⟩

/-- What a file holds or wraps is vetted as a graph. -/
theorem vets_unwrapped (path : Text) (v : Value) :
    Vets (unwrap path v >>= Graph.ofValue)
      (∀ fields, v = .object fields → WrapsRegular fields) := by
  cases v with
  | object fields =>
      have hobject :
          Vets (unwrap path (.object fields) >>= Graph.ofValue) (WrapsRegular fields) := by
        simp only [unwrap, WrapsRegular]
        cases hstate : Fields.get? fields "state" with
        | none => exact Graph.vets_ofFields fields
        | some state =>
            cases state with
            | text s => exact vets_json (.invalidEmbedded path) rfl Graph.vets_ofValue
            | null | bool | number | list | object => exact Graph.vets_ofFields fields
      exact hobject.of_iff (by simp)
  | null | bool | number | text | list =>
      constructor
      · intro _ h
        cases h
      · intro _ _ h
        cases h

theorem vets_load (path text : Text) : Vets (load path text) (IsRegular text) := by
  refine (vets_json (.invalidJson path) rfl (vets_unwrapped path)).of_iff ?_
  constructor
  · rintro ⟨hdigits, hobject⟩
    exact ⟨hdigits, fun fields h => hobject _ h fields rfl⟩
  · rintro ⟨hdigits, hobject⟩
    refine ⟨hdigits, ?_⟩
    rintro _ h fields rfl
    exact hobject fields h

/-- A regular file is read or refused with a description, and no other file is read. -/
theorem load_described_of_regular (path text : Text) :
    (IsRegular text →
      (∃ g, load path text = .ok g) ∨ ∃ e, load path text = .error e ∧ e.isDescribed = true) ∧
    (¬ IsRegular text → ∃ e, load path text = .error e) :=
  ⟨(vets_load path text).ok_or_described, (vets_load path text).exists_error⟩

/-- A file that wraps a graph with a node whose place is no object. -/
theorem load_described_of_regular_wrapped :
    let node : Value :=
      .object [("id", .text "a"), ("type", .text "CODE"), ("position", .list [.bool true])]
    let wrapped := Json.write Json.spaced (.object [("nodes", .list [node])])
    let text := Json.write Json.tight (.object [("state", .text wrapped)])
    IsRegular text ∧
      ((∃ g, load "g.json" text = .ok g) ∨
        ∃ e, load "g.json" text = .error e ∧ e.isDescribed = true) := by
  intro node wrapped text
  have htext : Json.read text = .ok (.object [("state", .text wrapped)]) := by
    refine Json.read_write Json.isReadable_tight ?_
    simp [Value.IsTextual, FieldsTextual]
  have hwrapped : Json.read wrapped = .ok (.object [("nodes", .list [node])]) := by
    refine Json.read_write Json.isReadable_spaced ?_
    simp [node, Value.IsTextual, ItemsTextual, FieldsTextual]
  have hnode : Node.IsEntry node := by
    refine ⟨⟨_, rfl⟩, fun n hn => ?_⟩
    simp [node, Node.measures, Value.valuesOf, Value.field, Fields.get?] at hn
  have hgraph : Graph.IsRegular [("nodes", .list [node])] := by
    constructor <;> simp [Value.IsListOf, Value.field, Fields.get?, Value.isTrue, hnode]
  have hregular : IsRegular text := by
    refine ⟨by simp [htext], fun fields h => ?_⟩
    obtain rfl : ([("state", .text wrapped)] : Fields Value) = fields := by simpa [htext] using h
    show Json.read wrapped ≠ _ ∧ _
    simp [hwrapped, hgraph]
  exact ⟨hregular, (load_described_of_regular "g.json" text).1 hregular⟩

/-- A wrapped text that is no object fails without a description. -/
theorem load_undescribed_of_wrapped_list :
    ¬ ((∃ g, load "g.json" "\x7b\"state\": \"[]\"\x7d" = .ok g) ∨
      ∃ e, load "g.json" "\x7b\"state\": \"[]\"\x7d" = .error e ∧ e.isDescribed = true) := by
  have hread : Json.read "\x7b\"state\": \"[]\"\x7d" = .ok (.object [("state", .text "[]")]) := by
    have htext : "\x7b\"state\": \"[]\"\x7d" =
        Json.write Json.spaced (.object [("state", .text "[]")]) := by decide +kernel
    rw [htext]
    refine Json.read_write Json.isReadable_spaced ?_
    simp [Value.IsTextual, FieldsTextual]
  have hwrapped : Json.read "[]" = .ok (.list []) := by
    have htext : "[]" = Json.write Json.spaced (.list []) := by decide +kernel
    rw [htext]
    exact Json.read_write Json.isReadable_spaced (by simp [Value.IsTextual, ItemsTextual])
  have hunwrap : unwrap "g.json" (.object [("state", .text "[]")]) = .ok (.list []) := by
    simp [unwrap, Fields.get?_cons, hwrapped]
  have hload : load "g.json" "\x7b\"state\": \"[]\"\x7d" = .error (.misuse .noFields) := by
    rw [load, readValue, hread]
    show (unwrap "g.json" (.object [("state", .text "[]")]) >>= Graph.ofValue) = _
    rw [hunwrap]
    rfl
  simp [hload, LoadError.isDescribed]

end GraphFile

end LiveCanvas
