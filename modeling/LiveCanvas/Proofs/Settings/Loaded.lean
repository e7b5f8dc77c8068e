import LiveCanvas.Proofs.Reading
import LiveCanvas.Proofs.Value.Nested
import LiveCanvas.Settings.Load

/-!
# The layers that are loaded

Every layer of settings is an object, and no object in a layer has a name twice: a key that stands
twice in a file has its last value, and the environment names each setting once.
-/

namespace LiveCanvas

open Value

namespace Yaml

theorem snd_of_mem_setKey {entries : List (Atom × Value)} {k : Atom} {v : Value}
    {entry : Atom × Value} (h : entry ∈ setKey entries k v) :
    entry.2 = v ∨ entry ∈ entries := by
  induction entries with
  | nil =>
      obtain rfl := List.mem_singleton.mp h
      exact .inl rfl
  | cons first rest ih =>
      obtain ⟨a, w⟩ := first
      rw [setKey] at h
      split at h
      · rcases List.mem_cons.mp h with rfl | hrest
        · exact .inl rfl
        · exact .inr (List.mem_cons_of_mem _ hrest)
      · rcases List.mem_cons.mp h with rfl | hrest
        · exact .inr List.mem_cons_self
        · exact (ih hrest).imp id (List.mem_cons_of_mem _)

theorem snd_of_mem_foldl_setKey {read entries : List (Atom × Value)} {entry : Atom × Value}
    (h : entry ∈ read.foldl (fun read e => setKey read e.1 e.2) entries) :
    entry ∈ entries ∨ ∃ e ∈ read, entry.2 = e.2 := by
  induction read generalizing entries with
  | nil => exact .inl h
  | cons e read ih =>
      rcases ih h with hset | ⟨other, hmem, heq⟩
      · rcases snd_of_mem_setKey hset with heq | hmem
        · exact .inr ⟨e, List.mem_cons_self, heq⟩
        · exact .inl hmem
      · exact .inr ⟨other, List.mem_cons_of_mem _ hmem, heq⟩

theorem snd_of_mem_fieldsOf {read : List (Atom × Value)} {entry : Text × Value}
    (h : entry ∈ fieldsOf read) : ∃ e ∈ read, entry.2 = e.2 := by
  obtain ⟨e, he, rfl⟩ := List.mem_map.mp (Fields.mem_of_mem_ofList h)
  rcases snd_of_mem_foldl_setKey he with hnil | hread
  · exact absurd hnil List.not_mem_nil
  · exact hread

namespace Found

theorem inside_eq_ok {α : Type} {a : Found α} {x : α} (h : inside a = .ok x) : a = .ok x := by
  cases a with
  | ok y => exact h
  | error e => exact nomatch h

theorem map_eq_ok {α β : Type} {a : Found α} {f : α → β} {y : β} (h : a.map f = .ok y) :
    ∃ x, a = .ok x ∧ f x = y := by
  cases a with
  | ok x => exact ⟨x, rfl, Except.ok.inj h⟩
  | error e => exact nomatch h

theorem both_eq_ok {α β : Type} {a : Found α} {b : Found β} {x : α × β} (h : both a b = .ok x) :
    a = .ok x.1 ∧ b = .ok x.2 := by
  cases a with
  | error d => cases b <;> exact nomatch h
  | ok y =>
      cases b with
      | error e => exact nomatch h
      | ok z =>
          obtain rfl := Except.ok.inj h
          exact ⟨rfl, rfl⟩

theorem mem_of_all_eq_ok {α : Type} {items : List (Found α)} {xs : List α}
    (h : all items = .ok xs) : ∀ x ∈ xs, .ok x ∈ items := by
  induction items generalizing xs with
  | nil =>
      obtain rfl := Except.ok.inj h
      simp
  | cons item items ih =>
      obtain ⟨⟨y, ys⟩, hboth, rfl⟩ := map_eq_ok h
      obtain ⟨hitem, hrest⟩ := both_eq_ok hboth
      intro x hx
      rcases List.mem_cons.mp hx with rfl | hx
      · exact hitem ▸ List.mem_cons_self
      · exact List.mem_cons_of_mem _ (ih hrest x hx)

end Found

theorem exists_of_entriesOf {entries : List (Node × Node)} {fuel : Nat}
    {read : List (Atom × Value)} (h : entriesOf entries (fuel + 1) = .ok read) :
    ∀ e ∈ read, ∃ n, valueOf n fuel = .ok e.2 := by
  rw [entriesOf] at h
  split at h
  · exact nomatch h
  · intro e he
    obtain ⟨entry, -, hentry⟩ := List.mem_map.mp (Found.mem_of_all_eq_ok h e he)
    exact ⟨entry.2, (Found.both_eq_ok hentry).2⟩

theorem toValue_ne_object (a : Atom) (fields : Fields Value) : a.toValue ≠ .object fields := by
  cases a <;> exact nofun

/-- Only an object is read as one, with the values of its keys. -/
theorem exists_of_valueOf_object {n : Node} {fuel : Nat} {fields : Fields Value}
    (h : valueOf n (fuel + 1) = .ok (.object fields)) :
    ∃ entries read, entriesOf entries fuel = .ok read ∧ fieldsOf read = fields := by
  unfold valueOf at h
  split at h
  -- an object
  case h_5 =>
    obtain ⟨read, hread, hfields⟩ := Found.map_eq_ok (Found.inside_eq_ok h)
    exact ⟨_, read, hread, Value.object.inj hfields⟩
  -- lists, and a set that is read as the list of its keys
  case h_2 | h_3 | h_4 | h_6 =>
    obtain ⟨_, -, hlist⟩ := Found.map_eq_ok (Found.inside_eq_ok h)
    exact nomatch hlist
  -- what is read from a text of its own
  case h_17 =>
    split at h
    · exact nomatch h
    · split at h
      · exact absurd (Except.ok.inj h) (toValue_ne_object _ fields)
      · exact nomatch h
  -- null, and what cannot be read
  all_goals exact nomatch h

/-- No object in what a node holds has a name twice. -/
theorem namesOnce_of_valueOf {n : Node} {fuel : Nat} {v : Value} (h : valueOf n fuel = .ok v) :
    v.NamesOnce := by
  -- the values of an object are read with two steps less
  induction fuel using Nat.strongRecOn generalizing n v with
  | ind fuel ih =>
      cases v with
      | object fields =>
          match fuel with
          | 0 => exact nomatch h
          | 1 =>
              obtain ⟨entries, read, hread, -⟩ := exists_of_valueOf_object h
              exact nomatch hread
          | fuel + 2 =>
              obtain ⟨entries, read, hread, rfl⟩ := exists_of_valueOf_object h
              refine NamesOnce.object (Fields.nodup_names_ofList _) fun entry hentry => ?_
              obtain ⟨e, he, heq⟩ := snd_of_mem_fieldsOf hentry
              obtain ⟨below, hbelow⟩ := exists_of_entriesOf hread e he
              exact heq ▸ ih fuel (by omega) hbelow
      | null | bool | number | text | list => exact NamesOnce.of_not_object (by simp)

theorem namesOnce_of_read {s : Text} {v : Value} (h : read s = .ok v) : v.NamesOnce := by
  obtain ⟨o, -, ho⟩ := bind_eq_ok_iff.mp h
  cases o with
  | none =>
      obtain rfl := pure_eq_ok_iff.mp ho
      exact NamesOnce.of_not_object (by simp)
  | some n =>
      have hvalue : n.value = .ok v := ho
      rw [Node.value] at hvalue
      cases hof : valueOf n (3 * n.depth + 1) with
      | error e =>
          rw [hof] at hvalue
          exact nomatch hvalue
      | ok w =>
          rw [hof] at hvalue
          exact Except.ok.inj hvalue ▸ namesOnce_of_valueOf hof

theorem namesOnce_of_readFields {s : Text} {fields : Fields Value}
    (h : readFields s = .ok fields) : (Value.object fields).NamesOnce := by
  rw [readFields] at h
  split at h
  · next below hread => exact Except.ok.inj h ▸ namesOnce_of_read hread
  · exact Except.ok.inj h ▸ namesOnce_object_nil
  · exact Except.ok.inj h ▸ namesOnce_object_nil
  · exact nomatch h

end Yaml

namespace Settings

theorem namesOnce_of_readFile {disk : Disk} {p : DiskPath} {fields : Fields Value}
    (h : readFile disk p = .ok fields) : (Value.object fields).NamesOnce := by
  rw [readFile] at h
  split at h
  · exact Yaml.namesOnce_of_readFields h
  · exact Except.ok.inj h ▸ namesOnce_object_nil

theorem namesOnce_override (env : Environment) (name area field : Text) :
    ∀ entry ∈ env.override name area field, entry.1 = area ∧ entry.2.NamesOnce := by
  intro entry hentry
  rw [Environment.override] at hentry
  split at hentry
  · obtain rfl := List.mem_singleton.mp hentry
    refine ⟨rfl, NamesOnce.object (by simp [Fields.names]) fun below hbelow => ?_⟩
    obtain rfl := List.mem_singleton.mp hbelow
    exact NamesOnce.of_not_object (by simp)
  · exact absurd hentry List.not_mem_nil

theorem namesOnce_layer (env : Environment) :
    ∃ fields, env.layer = .object fields ∧ (Value.object fields).NamesOnce := by
  refine ⟨_, rfl, NamesOnce.object ?_ fun entry hentry => ?_⟩
  · rw [Environment.override, Environment.override]
    split <;> split <;> simp [Fields.names]
  · rcases List.mem_append.mp hentry with hmem | hmem
    · exact (namesOnce_override env _ _ _ entry hmem).2
    · exact (namesOnce_override env _ _ _ entry hmem).2

/-- Every layer is an object in which no object has a name twice. -/
theorem namesOnce_of_layersFor {disk : Disk} {env : Environment} {root : Option DiskPath}
    {layers : List Value} (h : layersFor disk env root = .ok layers) :
    ∃ all : List (Fields Value), layers = all.map .object ∧
      ∀ layer ∈ all, (Value.object layer).NamesOnce := by
  obtain ⟨files, hfiles, h⟩ := bind_eq_ok_iff.mp h
  obtain rfl := pure_eq_ok_iff.mp h
  obtain ⟨fields, hlayer, hnames⟩ := namesOnce_layer env
  refine ⟨files ++ [fields], by simp [hlayer], fun layer hmem => ?_⟩
  rcases List.mem_append.mp hmem with hfile | hlast
  · exact forall_of_mapM_eq_ok (fun _ _ hread => namesOnce_of_readFile hread) hfiles layer hfile
  · exact List.mem_singleton.mp hlast ▸ hnames

end Settings
end LiveCanvas
