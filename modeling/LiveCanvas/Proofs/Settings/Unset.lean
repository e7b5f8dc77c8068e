import LiveCanvas.Proofs.Settings.Layers
import LiveCanvas.Proofs.Settings.Loaded
import LiveCanvas.Proofs.Settings.Sections

/-!
# Settings that are null

A setting that is null in a layer is meant to be unset.  Merged layers keep to that with one
exception: an object that is new at its place is taken over with the nulls in it, and the settings
are read from these.
-/

namespace LiveCanvas
namespace Settings

open Value

variable {layers : List (Fields Value)}

theorem isBareOf_merged (h : ∀ layer ∈ layers, (object layer).NamesOnce) :
    IsBareOf (merged layers) (merged (layers.map fieldsWithoutNulls)) where
  names := namesOnce_merged h
  names_bare := namesOnce_merged (namesOnce_withoutNulls h)
  same path := (holds_merged_withoutNulls h path).symm
  top := get?_merged_ne_null h
  ne_null := at?_merged_withoutNulls_ne_null h

theorem ofLayers_objects (layers : List (Fields Value)) :
    ofLayers (layers.map .object) = ofFields (merged layers) := by
  rw [ofLayers, mergeLayers_objects]
  rfl

/-- Settings are always loaded from layers in which no object has a name twice. -/
theorem load_eq_of_layersFor {disk : Disk} {env : Environment} {root : Option DiskPath}
    {loaded : List Value} (h : layersFor disk env root = .ok loaded) :
    ∃ layers, (∀ layer ∈ layers, (object layer).NamesOnce) ∧
      load disk env root = (ofFields (merged layers)).mapError .setting := by
  obtain ⟨layers, rfl, hnames⟩ := namesOnce_of_layersFor h
  refine ⟨layers, hnames, ?_⟩
  rw [load, h, ← ofLayers_objects]
  rfl

/-- Layers that are objects can be merged, with their nulls and without.  Both ways the same plain
values come out.  Without nulls there is none in the result; otherwise the nulls of an object that
is new at its place stay until something is put there.  A null that stays is not unset: where a
number or a list of texts is wanted the settings are refused, and where any value is handed on it is
handed on.  If no such null is left, the settings are those of the layers without nulls. -/
theorem mergeLayers_nulls (h : ∀ layer ∈ layers, (object layer).NamesOnce) :
    mergeLayers (layers.map .object) = .ok (merged layers) ∧
      mergeLayers (layers.map fun layer => (object layer).withoutNulls) =
        .ok (merged (layers.map fieldsWithoutNulls)) ∧
      (∀ path v, v.IsPlain →
        ((object (merged layers)).at? path = some v ↔
          (object (merged (layers.map fieldsWithoutNulls))).at? path = some v)) ∧
      (∀ path, (object (merged (layers.map fieldsWithoutNulls))).at? path ≠ some .null) ∧
      (∀ path, (object (merged layers)).at? path = some .null ↔
        ∃ before layer after, layers = before ++ layer :: after ∧
          (object layer).at? path = some .null ∧
          ¬ HasObjectsAbove (object (merged before)) path ∧
          ∀ later ∈ after, LeavesAlone (object later) path) ∧
      (∀ p ∈ converted, (object (merged layers)).at? [p.1, p.2] = some .null →
        ∃ m, ofLayers (layers.map .object) = .error m) ∧
      (∀ s, ofLayers (layers.map .object) = .ok s →
        ((object (merged layers)).at? ["compiler", "package_cdn"] = some .null →
          s.documents.packageBase = .null) ∧
        ((object (merged layers)).at? ["compiler", "transform"] = some .null →
          s.documents.transform = .null)) ∧
      (IsSettled (merged layers) →
        byName <$> ofLayers (layers.map .object) =
          byName <$> ofLayers (layers.map fun layer => (object layer).withoutNulls)) := by
  have hbare : (layers.map fun layer => (object layer).withoutNulls) =
      (layers.map fieldsWithoutNulls).map .object := by
    simp [withoutNulls_object]
  have hsame (path : List Text) := (holds_merged_withoutNulls h path).symm
  refine ⟨mergeLayers_objects layers, hbare ▸ mergeLayers_objects _, fun path v hv => ?_,
    at?_merged_withoutNulls_ne_null h, at?_merged_eq_null_iff h, fun p hp hnull => ?_,
    fun s hs => ?_, fun hsettled => ?_⟩
  · have hheld := hsame path
    rw [holds, holds] at hheld
    constructor
    · intro hat
      exact (held_eq_plain_iff.mp (hheld ▸ held_eq_plain_iff.mpr ⟨hat, hv⟩)).1
    · intro hat
      exact (held_eq_plain_iff.mp (hheld.symm ▸ held_eq_plain_iff.mpr ⟨hat, hv⟩)).1
  · rw [ofLayers_objects]
    cases hread : ofFields (merged layers) with
    | error m => exact ⟨m, rfl⟩
    | ok s => exact absurd hnull ((ofFields_eq_ok hread).1 p hp)
  · rw [ofLayers_objects] at hs
    exact (ofFields_eq_ok hs).2
  · rw [hbare, ofLayers_objects, ofLayers_objects]
    exact (isBareOf_merged h).settings hsettled

/-- A layer with a new section keeps the null in it, and the settings cannot be read. -/
theorem mergeLayers_nulls_new_section :
    let layer : Fields Value := [("sync", object [("debounce", null)])]
    (∀ entries ∈ [layer], (object entries).NamesOnce) ∧
      (object (merged [layer])).at? ["sync", "debounce"] = some null ∧
      ∃ m, ofLayers [object layer] = .error m := by
  intro layer
  have hnames : ∀ entries ∈ [layer], (object entries).NamesOnce := by
    intro entries hentries
    obtain rfl := List.mem_singleton.mp hentries
    refine NamesOnce.object (by decide) fun entry hentry => ?_
    obtain rfl := List.mem_singleton.mp hentry
    refine NamesOnce.object (by decide) fun entry hentry => ?_
    obtain rfl := List.mem_singleton.mp hentry
    exact NamesOnce.of_not_object (by simp)
  have hnull : (object (merged [layer])).at? ["sync", "debounce"] = some null := rfl
  obtain ⟨-, -, -, -, -, hrefused, -⟩ := mergeLayers_nulls hnames
  exact ⟨hnames, hnull, hrefused ("sync", "debounce") (by decide) hnull⟩

/-- The null of a new section stays, and the settings are refused. -/
theorem mergeLayers_keeps_null_of_new_section :
    mergeLayers [object [("sync", object [("debounce", null)])]] =
        .ok [("sync", object [("debounce", null)])] ∧
      mergeLayers [(object [("sync", object [("debounce", null)])]).withoutNulls] =
        .ok [("sync", object [])] ∧
      ofLayers [object [("sync", object [("debounce", null)])]] = .error .wrongKind ∧
      ofLayers [(object [("sync", object [("debounce", null)])]).withoutNulls] = .ok {} := by
  exact ⟨rfl, rfl, rfl, rfl⟩

end Settings
end LiveCanvas
