import LiveCanvas.Proofs.Reading
import LiveCanvas.Proofs.Value.Nested
import LiveCanvas.Settings.Schema

/-!
# What settings are read from

The settings are read from the fields of five sections.  A null among them is taken in three ways: a
number or a list of texts that is null is refused, a setting that may be any value is null instead
of its default, and for the others null is as good as nothing.  Apart from the first two kinds, the
settings depend only on what the fields hold where null counts as nothing.
-/

namespace LiveCanvas
namespace Settings

open Value

/-- The settings that are read as a number or as a list of texts, with their sections. -/
def converted : List (Text × Text) :=
  [("compiler", "stylesheets"), ("compiler", "babel_presets"), ("compiler", "debounce"),
    ("assistant", "api_key_env"), ("assistant", "timeout"),
    ("sync", "debounce"), ("sync", "presence_timeout")]

/-- The settings that have a default and are handed on as they are. -/
def handedOn : List (Text × Text) :=
  [("compiler", "package_cdn"), ("compiler", "transform")]

/-- The settings for which null is as good as nothing, apart from the imports. -/
def nullable : List (Text × Text) :=
  [("tools", "file_offset"), ("tools", "folder_offset"), ("tools", "move_folder_offset"),
    ("tools", "fallback_position"), ("assistant", "model"),
    ("logging", "level"), ("logging", "verbose"), ("logging", "file")]

/-! ## Reading a section -/

section Reading

variable {fields : Fields Value} {name : Text}

theorem textsOf_null (h : fields.get? name = some .null) (default : List Text) :
    textsOf fields name default = .error .wrongKind := by
  rw [textsOf, h]
  rfl

theorem realField_null (h : fields.get? name = some .null) (default : Float) :
    realField fields name default = .error .wrongKind := by
  rw [realField, h]
  rfl

theorem get?_ne_null_of_textsOf {default texts : List Text}
    (h : textsOf fields name default = .ok texts) : fields.get? name ≠ some .null := by
  intro hnull
  rw [textsOf_null hnull] at h
  exact nomatch h

theorem get?_ne_null_of_realField {default x : Float}
    (h : realField fields name default = .ok x) : fields.get? name ≠ some .null := by
  intro hnull
  rw [realField_null hnull] at h
  exact nomatch h

theorem Documents.ofFields_eq_ok {d : Documents} (h : ofFields fields = .ok d) :
    (∀ name ∈ ["stylesheets", "babel_presets", "debounce"], fields.get? name ≠ some .null) ∧
      (fields.get? "package_cdn" = some .null → d.packageBase = .null) ∧
      (fields.get? "transform" = some .null → d.transform = .null) := by
  simp only [ofFields, bind_eq_ok_iff, pure_eq_ok_iff] at h
  obtain ⟨stylesheets, hstylesheets, presets, hpresets, debounce, hdebounce, rfl⟩ := h
  refine ⟨?_, ?_, ?_⟩
  · intro name hname
    simp only [List.mem_cons, List.not_mem_nil, or_false] at hname
    rcases hname with rfl | rfl | rfl
    · exact get?_ne_null_of_textsOf hstylesheets
    · exact get?_ne_null_of_textsOf hpresets
    · exact get?_ne_null_of_realField hdebounce
  · exact fun hnull => by rw [hnull, Option.getD_some]
  · exact fun hnull => by rw [hnull, Option.getD_some]

theorem Assistant.ofFields_eq_ok {a : Assistant} (h : ofFields fields = .ok a) :
    ∀ name ∈ ["api_key_env", "timeout"], fields.get? name ≠ some .null := by
  simp only [ofFields, bind_eq_ok_iff, pure_eq_ok_iff] at h
  obtain ⟨keyNames, hkeyNames, timeout, htimeout, rfl⟩ := h
  intro name hname
  simp only [List.mem_cons, List.not_mem_nil, or_false] at hname
  rcases hname with rfl | rfl
  · exact get?_ne_null_of_textsOf hkeyNames
  · exact get?_ne_null_of_realField htimeout

theorem Sync.ofFields_eq_ok {s : Sync} (h : ofFields fields = .ok s) :
    ∀ name ∈ ["debounce", "presence_timeout"], fields.get? name ≠ some .null := by
  simp only [ofFields, bind_eq_ok_iff, pure_eq_ok_iff] at h
  obtain ⟨debounce, hdebounce, presenceTimeout, hpresence, rfl⟩ := h
  intro name hname
  simp only [List.mem_cons, List.not_mem_nil, or_false] at hname
  rcases hname with rfl | rfl
  · exact get?_ne_null_of_realField hdebounce
  · exact get?_ne_null_of_realField hpresence

end Reading

/-! ## Reading all sections -/

theorem sectionOf_object {data fields : Fields Value} {name : Text}
    (h : data.get? name = some (.object fields)) : sectionOf data name = .ok fields := by
  rw [sectionOf, h]
  rfl

theorem sectionOf_eq_ok {data fields : Fields Value} {name : Text}
    (h : sectionOf data name = .ok fields) :
    data.get? name = some (.object fields) ∨ data.get? name = none ∧ fields = [] := by
  rw [sectionOf] at h
  cases hget : data.get? name with
  | none =>
      rw [hget, Except.ok.injEq] at h
      exact .inr ⟨rfl, h.symm⟩
  | some v =>
      rw [hget] at h
      cases v with
      | object below =>
          obtain rfl : below = fields := Except.ok.inj h
          exact .inl rfl
      | null | bool | number | text | list => exact nomatch h

/-- Below a section the fields are those of the section. -/
theorem at?_of_sectionOf {data fields : Fields Value} {name : Text}
    (h : sectionOf data name = .ok fields) (below : Text) (path : List Text) :
    (object data).at? (name :: below :: path) = (object fields).at? (below :: path) := by
  rw [at?_object_cons]
  rcases sectionOf_eq_ok h with hget | ⟨hget, rfl⟩
  · rw [hget, Option.bind_some]
  · rw [hget, Option.bind_none, at?_object_cons, Fields.get?_nil, Option.bind_none]

theorem get?_of_sectionOf {data fields : Fields Value} {name : Text}
    (h : sectionOf data name = .ok fields) (below : Text) :
    fields.get? below = (object data).at? [name, below] := by
  rw [at?_of_sectionOf h, at?_object_singleton]

theorem at?_of_sectionOf_object {data fields below : Fields Value} {name mid : Text}
    (h : sectionOf data name = .ok fields) (hget : fields.get? mid = some (.object below))
    (last : Text) : (object data).at? [name, mid, last] = below.get? last := by
  rw [at?_of_sectionOf h, at?_object_cons, hget, Option.bind_some, at?_object_singleton]

/-- Sections are read alike where the same is held under their names and no name is null. -/
theorem sectionOf_bind_congr {data data' : Fields Value} {name : Text} {α : Type}
    {read : Fields Value → Except Misuse α}
    (hsame : (object data).holds [name] = (object data').holds [name])
    (hnull : data.get? name ≠ some .null) (hnull' : data'.get? name ≠ some .null)
    (hread : ∀ fields fields', sectionOf data name = .ok fields →
      sectionOf data' name = .ok fields' → read fields = read fields') :
    sectionOf data name >>= read = sectionOf data' name >>= read := by
  rw [holds_object_singleton, holds_object_singleton] at hsame
  cases hheld : held (data.get? name) with
  | nothing =>
      have hnone := (held_eq_nothing_iff.mp hheld).resolve_right hnull
      have hnone' := (held_eq_nothing_iff.mp (hsame ▸ hheld)).resolve_right hnull'
      have heq : sectionOf data name = sectionOf data' name := by
        rw [sectionOf, sectionOf, hnone, hnone']
      rw [heq]
  | plain v =>
      have hget := (held_eq_plain_iff.mp hheld).1
      have hget' := (held_eq_plain_iff.mp (hsame ▸ hheld)).1
      have heq : sectionOf data name = sectionOf data' name := by
        rw [sectionOf, sectionOf, hget, hget']
      rw [heq]
  | fields =>
      obtain ⟨fields, hget⟩ := held_eq_fields_iff.mp hheld
      obtain ⟨fields', hget'⟩ := held_eq_fields_iff.mp (hsame ▸ hheld)
      have hok := sectionOf_object hget
      have hok' := sectionOf_object hget'
      rw [hok, hok']
      exact hread fields fields' hok hok'

/-- The sections are read one after the other. -/
theorem ofFields_eq (data : Fields Value) :
    ofFields data = do
      let documents ← sectionOf data "compiler" >>= Documents.ofFields
      let placement ← sectionOf data "tools" >>= placementOf
      let assistant ← sectionOf data "assistant" >>= Assistant.ofFields
      let sync ← sectionOf data "sync" >>= Sync.ofFields
      let journal ← sectionOf data "logging" >>= fun fields => pure (Journal.ofFields fields)
      return { documents, placement, assistant, sync, journal } := by
  simp only [ofFields, bind_assoc, pure_bind]

/-- Settings that were read hold no null where a number or a list of texts is wanted, and hold the
null itself where any value is handed on. -/
theorem ofFields_eq_ok {data : Fields Value} {s : Settings} (h : ofFields data = .ok s) :
    (∀ p ∈ converted, (object data).at? [p.1, p.2] ≠ some .null) ∧
      ((object data).at? ["compiler", "package_cdn"] = some .null →
        s.documents.packageBase = .null) ∧
      ((object data).at? ["compiler", "transform"] = some .null →
        s.documents.transform = .null) := by
  rw [ofFields_eq] at h
  obtain ⟨documents, hdocuments, h⟩ := bind_eq_ok_iff.mp h
  obtain ⟨placement, -, h⟩ := bind_eq_ok_iff.mp h
  obtain ⟨assistant, hassistant, h⟩ := bind_eq_ok_iff.mp h
  obtain ⟨sync, hsync, h⟩ := bind_eq_ok_iff.mp h
  obtain ⟨journal, -, h⟩ := bind_eq_ok_iff.mp h
  obtain rfl := pure_eq_ok_iff.mp h
  obtain ⟨compiler, hcompiler, hdocuments⟩ := bind_eq_ok_iff.mp hdocuments
  obtain ⟨assistantFields, hfields, hassistant⟩ := bind_eq_ok_iff.mp hassistant
  obtain ⟨syncFields, hsyncFields, hsync⟩ := bind_eq_ok_iff.mp hsync
  obtain ⟨hconverted, hbase, htransform⟩ := Documents.ofFields_eq_ok hdocuments
  rw [get?_of_sectionOf hcompiler] at hbase htransform
  refine ⟨?_, hbase, htransform⟩
  have hkeys := Assistant.ofFields_eq_ok hassistant
  have htimes := Sync.ofFields_eq_ok hsync
  simp only [get?_of_sectionOf hcompiler] at hconverted
  simp only [get?_of_sectionOf hfields] at hkeys
  simp only [get?_of_sectionOf hsyncFields] at htimes
  simpa [converted, and_assoc] using And.intro hconverted (And.intro hkeys htimes)

/-! ## Reading past nulls -/

/-- The section on documents with the imports found by their names. -/
def Documents.byName (d : Documents) : (Text → Option Text) × Documents :=
  (d.runtimeImports.get?, { d with runtimeImports := [] })

/-- The settings with the imports found by their names. -/
def byName (s : Settings) : (Text → Option Text) × Settings :=
  (s.documents.byName.1, { s with documents := s.documents.byName.2 })

/-- Every null among these settings is as good as nothing, and only the imports are an object. -/
structure IsSettled (data : Fields Value) : Prop where
  ne_null : ∀ p ∈ converted ++ handedOn, (object data).at? [p.1, p.2] ≠ some .null
  ne_fields : ∀ p ∈ converted ++ handedOn ++ nullable, (object data).holds [p.1, p.2] ≠ .fields
  imports : ∀ name v, (object data).at? ["compiler", "runtime_imports", name] = some v → v.IsPlain

section Congruence

variable {data data' fields fields' : Fields Value}

theorem textsOf_congr {name : Text} (h : fields.get? name = fields'.get? name)
    (default : List Text) : textsOf fields name default = textsOf fields' name default := by
  rw [textsOf, textsOf, h]

theorem realField_congr {name : Text} (h : fields.get? name = fields'.get? name)
    (default : Float) : realField fields name default = realField fields' name default := by
  rw [realField, realField, h]

theorem get?_importsOf_object (h : fields.names.Nodup) (default : Fields Text) (name : Text) :
    (importsOf (.object fields) default).get? name = (fields.get? name).map asText := by
  have hnodup : (Fields.names (fields.map fun entry => (entry.1, entry.2.asText))).Nodup := by
    rwa [Fields.names_map_values]
  rw [← Fields.get?_map_values asText fields name]
  exact congrArg (Fields.get? · name) (Fields.ofList_of_nodup hnodup)

/-- What the section on documents is read from, up to the order of the imports. -/
theorem Documents.ofFields_congr
    (hget : ∀ name ∈ ["stylesheets", "babel_presets", "debounce", "package_cdn", "transform"],
      fields.get? name = fields'.get? name)
    (himports : ∀ name,
      (importsOf (field fields "runtime_imports") ({} : Documents).runtimeImports).get? name =
        (importsOf (field fields' "runtime_imports") ({} : Documents).runtimeImports).get? name) :
    byName <$> ofFields fields = byName <$> ofFields fields' := by
  simp only [ofFields, textsOf_congr (hget "stylesheets" (by simp)),
    textsOf_congr (hget "babel_presets" (by simp)), realField_congr (hget "debounce" (by simp)),
    hget "package_cdn" (by simp), hget "transform" (by simp)]
  rcases textsOf fields' "stylesheets" ({} : Documents).stylesheets with e | stylesheets
  · rfl
  rcases textsOf fields' "babel_presets" ({} : Documents).presets with e | presets
  · rfl
  rcases realField fields' "debounce" ({} : Documents).debounce with e | debounce
  · rfl
  exact congrArg (fun imports => Except.ok (imports, _)) (funext himports)

theorem placementOf_congr
    (h : ∀ name ∈ ["file_offset", "folder_offset", "move_folder_offset", "fallback_position"],
      field fields name = field fields' name) : placementOf fields = placementOf fields' := by
  simp only [placementOf, h "file_offset" (by simp), h "folder_offset" (by simp),
    h "move_folder_offset" (by simp), h "fallback_position" (by simp)]

theorem Assistant.ofFields_congr (hmodel : field fields "model" = field fields' "model")
    (h : ∀ name ∈ ["api_key_env", "timeout"], fields.get? name = fields'.get? name) :
    ofFields fields = ofFields fields' := by
  simp only [ofFields, hmodel, textsOf_congr (h "api_key_env" (by simp)),
    realField_congr (h "timeout" (by simp))]

theorem Sync.ofFields_congr
    (h : ∀ name ∈ ["debounce", "presence_timeout"], fields.get? name = fields'.get? name) :
    ofFields fields = ofFields fields' := by
  simp only [ofFields, realField_congr (h "debounce" (by simp)),
    realField_congr (h "presence_timeout" (by simp))]

theorem Journal.ofFields_congr
    (h : ∀ name ∈ ["level", "verbose", "file"], field fields name = field fields' name) :
    ofFields fields = ofFields fields' := by
  simp only [ofFields, h "level" (by simp), h "verbose" (by simp), h "file" (by simp)]

end Congruence

/-! ## Fields with nulls and fields without -/

/-- The second fields hold what the first ones do where null counts as nothing, and no nulls. -/
structure IsBareOf (data bare : Fields Value) : Prop where
  names : (object data).NamesOnce
  names_bare : (object bare).NamesOnce
  same : ∀ path, (object data).holds path = (object bare).holds path
  top : ∀ name, data.get? name ≠ some .null
  ne_null : ∀ path, (object bare).at? path ≠ some .null

namespace IsBareOf

variable {data bare fields fields' : Fields Value}

theorem bind_congr (h : IsBareOf data bare) {α : Type} {read : Fields Value → Except Misuse α}
    (name : Text)
    (hread : ∀ fields fields', sectionOf data name = .ok fields →
      sectionOf bare name = .ok fields' → read fields = read fields') :
    sectionOf data name >>= read = sectionOf bare name >>= read :=
  sectionOf_bind_congr (h.same _) (h.top name) (at?_object_singleton bare name ▸ h.ne_null [name])
    hread

theorem value (h : IsBareOf data bare) (hsettled : IsSettled data) {p : Text × Text}
    (hp : p ∈ converted ++ handedOn) (hok : sectionOf data p.1 = .ok fields)
    (hok' : sectionOf bare p.1 = .ok fields') : fields.get? p.2 = fields'.get? p.2 := by
  rw [get?_of_sectionOf hok, get?_of_sectionOf hok']
  exact eq_of_held_eq (h.same _) (hsettled.ne_null p hp) (h.ne_null _)
    (hsettled.ne_fields p (List.mem_append_left _ hp))

theorem field (h : IsBareOf data bare) (hsettled : IsSettled data) {p : Text × Text}
    (hp : p ∈ nullable) (hok : sectionOf data p.1 = .ok fields)
    (hok' : sectionOf bare p.1 = .ok fields') :
    Value.field fields p.2 = Value.field fields' p.2 := by
  rw [Value.field, Value.field, get?_of_sectionOf hok, get?_of_sectionOf hok']
  exact getD_eq_of_held_eq (h.same _) (hsettled.ne_fields p (List.mem_append_right _ hp))

/-- Imports that are plain are found alike. -/
theorem imports (h : IsBareOf data bare) (hsettled : IsSettled data)
    (hok : sectionOf data "compiler" = .ok fields)
    (hok' : sectionOf bare "compiler" = .ok fields') (default : Fields Text) (name : Text) :
    (importsOf (Value.field fields "runtime_imports") default).get? name =
      (importsOf (Value.field fields' "runtime_imports") default).get? name := by
  have hheld := h.same ["compiler", "runtime_imports"]
  rw [holds, holds, ← get?_of_sectionOf hok, ← get?_of_sectionOf hok'] at hheld
  cases hkind : held (fields.get? "runtime_imports") with
  | fields =>
      obtain ⟨imports, hget⟩ := held_eq_fields_iff.mp hkind
      obtain ⟨imports', hget'⟩ := held_eq_fields_iff.mp (hheld ▸ hkind)
      have hnodup := h.names _ imports (get?_of_sectionOf hok _ ▸ hget)
      have hnodup' := h.names_bare _ imports' (get?_of_sectionOf hok' _ ▸ hget')
      have hone : Fields.get? imports name = Fields.get? imports' name := by
        rw [← at?_of_sectionOf_object hok hget, ← at?_of_sectionOf_object hok' hget']
        refine eq_of_held_eq (h.same _) (fun hat => (hsettled.imports _ _ hat).1 rfl)
          (h.ne_null _) fun hat => ?_
        obtain ⟨below, hbelow⟩ := held_eq_fields_iff.mp hat
        exact (hsettled.imports _ _ hbelow).2 below rfl
      rw [Value.field, Value.field, hget, hget', Option.getD_some, Option.getD_some,
        get?_importsOf_object hnodup, get?_importsOf_object hnodup', hone]
  | nothing | plain =>
      have hfields : held (fields.get? "runtime_imports") ≠ .fields := by simp [hkind]
      rw [Value.field, Value.field, ← getD_eq_of_held_eq hheld hfields]

theorem documents (h : IsBareOf data bare) (hsettled : IsSettled data) :
    Documents.byName <$> (sectionOf data "compiler" >>= Documents.ofFields) =
      Documents.byName <$> (sectionOf bare "compiler" >>= Documents.ofFields) := by
  rw [map_bind, map_bind]
  refine h.bind_congr "compiler" fun fields fields' hok hok' => ?_
  refine Documents.ofFields_congr (fun name hname => ?_) (h.imports hsettled hok hok' _)
  have hmem : ⟨"compiler", name⟩ ∈ converted ++ handedOn := by revert name; decide
  exact h.value hsettled hmem hok hok'

theorem placement (h : IsBareOf data bare) (hsettled : IsSettled data) :
    sectionOf data "tools" >>= placementOf = sectionOf bare "tools" >>= placementOf := by
  refine h.bind_congr "tools" fun fields fields' hok hok' => placementOf_congr fun name hname => ?_
  have hmem : ⟨"tools", name⟩ ∈ nullable := by revert name; decide
  exact h.field hsettled hmem hok hok'

theorem assistant (h : IsBareOf data bare) (hsettled : IsSettled data) :
    sectionOf data "assistant" >>= Assistant.ofFields =
      sectionOf bare "assistant" >>= Assistant.ofFields := by
  refine h.bind_congr "assistant" fun fields fields' hok hok' => ?_
  have hmodel : ⟨"assistant", "model"⟩ ∈ nullable := by decide
  refine Assistant.ofFields_congr (h.field hsettled hmodel hok hok') fun name hname => ?_
  have hmem : ⟨"assistant", name⟩ ∈ converted ++ handedOn := by revert name; decide
  exact h.value hsettled hmem hok hok'

theorem sync (h : IsBareOf data bare) (hsettled : IsSettled data) :
    sectionOf data "sync" >>= Sync.ofFields = sectionOf bare "sync" >>= Sync.ofFields := by
  refine h.bind_congr "sync" fun fields fields' hok hok' => Sync.ofFields_congr fun name hname => ?_
  have hmem : ⟨"sync", name⟩ ∈ converted ++ handedOn := by revert name; decide
  exact h.value hsettled hmem hok hok'

theorem journal (h : IsBareOf data bare) (hsettled : IsSettled data) :
    (sectionOf data "logging" >>= fun fields => pure (Journal.ofFields fields)) =
      sectionOf bare "logging" >>= fun fields => pure (Journal.ofFields fields) := by
  refine h.bind_congr "logging" fun fields fields' hok hok' => ?_
  refine congrArg pure (Journal.ofFields_congr fun name hname => ?_)
  have hmem : ⟨"logging", name⟩ ∈ nullable := by revert name; decide
  exact h.field hsettled hmem hok hok'

/-- Settled settings are read alike with nulls and without. -/
theorem settings (h : IsBareOf data bare) (hsettled : IsSettled data) :
    byName <$> ofFields data = byName <$> ofFields bare := by
  rw [ofFields_eq, ofFields_eq, h.placement hsettled, h.assistant hsettled, h.sync hsettled,
    h.journal hsettled]
  -- what is left to differ is the order of the imports
  refine map_bind_congr (h.documents hsettled) fun documents documents' heq => ?_
  rcases sectionOf bare "tools" >>= placementOf with e | placement
  · rfl
  rcases sectionOf bare "assistant" >>= Assistant.ofFields with e | assistant
  · rfl
  rcases sectionOf bare "sync" >>= Sync.ofFields with e | sync
  · rfl
  rcases sectionOf bare "logging" >>= fun fields => pure (Journal.ofFields fields) with e | journal
  · rfl
  show Except.ok (documents.byName.1, _) = Except.ok (documents'.byName.1, _)
  rw [heq]

end IsBareOf

end Settings
end LiveCanvas
