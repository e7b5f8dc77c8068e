import LiveCanvas.Proofs.Preview.Specifiers

/-!
# Spellings of a file in a folder

The path of a file in a folder has the spellings of the title with the folder in front of them.  The
extension is cut off the path as it is cut off the title, but for one kind of title: one that is
nothing but an extension, like `.env`.  It keeps its extension as a title and loses it in a path, so
that nothing of the file is left behind the folder.
-/

namespace LiveCanvas
namespace Naming

variable {folder file key written : Text} {nodes : List Node} {connections : List Connection}
  {n f : Node}

/-! ## Extensions -/

/-- The title is an extension with nothing before it. -/
def IsOnlyExtension (title : Text) : Prop :=
  title.toList.head? = some (.char '.') ∧ .char '.' ∉ title.toList.tail

instance (title : Text) : Decidable (IsOnlyExtension title) :=
  inferInstanceAs (Decidable (_ ∧ _))

theorem isOnlyExtension_iff :
    IsOnlyExtension file ↔
      ∃ extension, .char '.' ∉ extension ∧ file.toList = .char '.' :: extension := by
  rw [IsOnlyExtension]
  cases file.toList with
  | nil => simp
  | cons c rest =>
      simp only [List.head?_cons, List.tail_cons, Option.some.injEq, List.cons.injEq]
      constructor
      · rintro ⟨rfl, hrest⟩
        exact ⟨rest, hrest, rfl, rfl⟩
      · rintro ⟨_, hrest, rfl, rfl⟩
        exact ⟨rfl, hrest⟩

/-- A name without a slash loses what stands from its last dot on, unless that is all of it. -/
theorem stripExtension_of_dot {base extension : List Rune} (hbase : base ≠ [])
    (hdot : .char '.' ∉ extension) (hslash : .char '/' ∉ extension)
    (hname : written.toList = base ++ .char '.' :: extension) :
    stripExtension written = Text.ofList base := by
  rw [stripExtension, hname, Text.cutLast?_append base hdot]
  simp [hbase, hslash]

/-- A name without a dot has no extension. -/
theorem stripExtension_of_dot_notMem (h : .char '.' ∉ written.toList) :
    stripExtension written = written := by
  rw [stripExtension, Text.cutLast?_eq_none h]

theorem stripExtension_of_isOnlyExtension (h : IsOnlyExtension file) :
    stripExtension file = file := by
  obtain ⟨extension, hdot, hfile⟩ := isOnlyExtension_iff.1 h
  rw [stripExtension, hfile, ← List.nil_append (.char '.' :: extension),
    Text.cutLast?_append [] hdot]
  rfl

/-- A dot before a slash begins no extension. -/
theorem stripExtension_of_slash {front back : List Rune} (hdot : .char '.' ∉ back)
    (hname : written.toList = front ++ .char '/' :: back) : stripExtension written = written := by
  by_cases hfront : .char '.' ∈ front
  · obtain ⟨base, extension, rfl, hextension, -⟩ := Text.exists_cutLast? hfront
    have hbehind : .char '.' ∉ extension ++ .char '/' :: back := by
      simp [hextension, hdot]
    rw [stripExtension, hname, List.append_assoc, List.cons_append,
      Text.cutLast?_append base hbehind]
    simp
  · exact stripExtension_of_dot_notMem (by simp [hname, hfront, hdot])

/-- The extension of a file in a folder is that of the file. -/
theorem stripExtension_filed (hslash : .char '/' ∉ file.toList) (hname : ¬IsOnlyExtension file) :
    stripExtension (folder ++ "/" ++ file) = folder ++ "/" ++ stripExtension file := by
  by_cases hdot : .char '.' ∈ file.toList
  · obtain ⟨base, extension, hfile, hextension, -⟩ := Text.exists_cutLast? hdot
    have hbase : base ≠ [] := by
      rintro rfl
      exact hname (isOnlyExtension_iff.2 ⟨extension, hextension, hfile⟩)
    have hbehind : .char '/' ∉ extension := by
      intro hmem
      exact hslash (hfile ▸ List.mem_append_right _ (List.mem_cons_of_mem _ hmem))
    rw [stripExtension_of_dot hbase hextension hbehind hfile]
    have hpath : (folder ++ "/" ++ file).toList =
        (folder.toList ++ .char '/' :: base) ++ .char '.' :: extension := by
      simp [hfile]
    rw [stripExtension_of_dot (by simp) hextension hbehind hpath, ← Text.toList_inj]
    simp
  · rw [stripExtension_of_dot_notMem hdot]
    have hpath : (folder ++ "/" ++ file).toList =
        folder.toList ++ .char '/' :: file.toList := by simp
    exact stripExtension_of_slash hdot hpath

/-- Of a file that is only an extension nothing is left behind the folder. -/
theorem stripExtension_filed_of_isOnlyExtension (hslash : .char '/' ∉ file.toList)
    (h : IsOnlyExtension file) : stripExtension (folder ++ "/" ++ file) = folder ++ "/" := by
  obtain ⟨extension, hdot, hfile⟩ := isOnlyExtension_iff.1 h
  have hbehind : .char '/' ∉ extension := fun hmem => hslash (hfile ▸ List.mem_cons_of_mem _ hmem)
  have hpath : (folder ++ "/" ++ file).toList =
      (folder.toList ++ [.char '/']) ++ .char '.' :: extension := by
    simp [hfile]
  rw [stripExtension_of_dot (by simp) hdot hbehind hpath, ← Text.toList_inj]
  simp

theorem stripExtension_filed_iff (hslash : .char '/' ∉ file.toList) :
    stripExtension (folder ++ "/" ++ file) = folder ++ "/" ++ stripExtension file ↔
      ¬IsOnlyExtension file := by
  refine ⟨fun heq h => ?_, stripExtension_filed hslash⟩
  -- both sides have the folder and the slash, and only the right one has the file behind them
  rw [stripExtension_filed_of_isOnlyExtension hslash h, stripExtension_of_isOnlyExtension h,
    ← Text.toList_inj] at heq
  obtain ⟨extension, -, hfile⟩ := isOnlyExtension_iff.1 h
  simp [hfile] at heq

/-! ## Keys -/

/-- The keys of a file in a folder are the spellings of its title and of its path, both with the
extension and without. -/
theorem mem_referenceKeys_of_folderOf (hfolder : Path.folderOf n nodes connections = some f) :
    key ∈ referenceKeys n nodes connections ↔
      (key ∈ spellings n.title ∨ key ∈ spellings (stripExtension n.title)) ∨
        key ∈ spellings (f.title ++ "/" ++ n.title) ∨
          key ∈ spellings (stripExtension (f.title ++ "/" ++ n.title)) := by
  have hpath : Path.pathOf n nodes connections = f.title ++ "/" ++ n.title := by
    rw [Path.pathOf, hfolder]
  rw [mem_referenceKeys_iff, hpath]
  simp only [List.mem_cons, List.not_mem_nil, or_false, exists_eq_or_imp, exists_eq_left]

/-- The extension is cut off the path of a file in a folder as it is cut off its title, just when
the title is more than an extension.  The keys of the file are the spellings of the title with and
without its extension, these with the folder in front, and for a title that is only an extension
those of the folder with a slash behind it. -/
theorem mem_referenceKeys_filed_iff (hslash : .char '/' ∉ file.toList) (folder : Text) :
    (stripExtension (folder ++ "/" ++ file) = folder ++ "/" ++ stripExtension file ↔
      ¬IsOnlyExtension file) ∧
    ∀ (n f : Node) (nodes : List Node) (connections : List Connection),
      Path.folderOf n nodes connections = some f → f.title = folder → n.title = file →
      ∀ key, key ∈ referenceKeys n nodes connections ↔
        (∃ written ∈ [file, stripExtension file],
          key ∈ spellings written ∨ key ∈ spellings (folder ++ "/" ++ written)) ∨
        IsOnlyExtension file ∧ key ∈ spellings (folder ++ "/") := by
  refine ⟨stripExtension_filed_iff hslash, ?_⟩
  rintro n f nodes connections hfolder rfl rfl key
  rw [mem_referenceKeys_of_folderOf hfolder]
  simp only [List.mem_cons, List.not_mem_nil, or_false, exists_eq_or_imp, exists_eq_left]
  by_cases h : IsOnlyExtension n.title
  · rw [stripExtension_filed_of_isOnlyExtension hslash h, stripExtension_of_isOnlyExtension h]
    simp only [h, true_and, or_self, or_assoc]
  · rw [stripExtension_filed hslash h]
    simp only [h, false_and, or_false]
    exact or_or_or_comm

/-- The name of the folder has a dot and the title begins with one, and still no key ends behind the
folder. -/
theorem mem_referenceKeys_filed_iff_dots :
    let f : Node := { id := "f", kind := .folder, title := "lib.v2" }
    let n : Node := { id := "n", kind := .code, title := ".eslint.js" }
    let connections : List Connection := [⟨"e", "n", "n-out-dom", "f", "f-in-files"⟩]
    .char '/' ∉ n.title.toList ∧ Path.folderOf n [f, n] connections = some f ∧
    stripExtension "lib.v2/.eslint.js" = "lib.v2/.eslint" ∧
    .ofString "./lib.v2/.eslint" ∈ referenceKeys n [f, n] connections ∧
    .ofString "./lib.v2/" ∉ referenceKeys n [f, n] connections := by
  intro f n connections
  have hslash : .char '/' ∉ n.title.toList := by decide
  have hname : ¬IsOnlyExtension n.title := by decide
  have hstem : stripExtension n.title = ".eslint" := by decide +kernel
  have hfolder : Path.folderOf n [f, n] connections = some f := by rfl
  obtain ⟨hpath, hkeys⟩ := mem_referenceKeys_filed_iff hslash "lib.v2"
  have hkey := hkeys n f [f, n] connections hfolder rfl rfl
  rw [hstem] at hpath hkey
  refine ⟨hslash, hfolder, hpath.2 hname, (hkey _).2 (.inl ?_), fun hmem => ?_⟩
  · exact ⟨".eslint", by decide, .inr (by decide)⟩
  · exact absurd ((hkey _).1 hmem) (by decide)

/-- A file that is only an extension can be imported by the name of its folder with a slash, which
stands for everything in the folder. -/
theorem folder_mem_referenceKeys :
    let f : Node := { id := "f", kind := .folder, title := "lib" }
    let n : Node := { id := "n", kind := .code, title := ".env" }
    let connections : List Connection := [⟨"e", "n", "n-out-dom", "f", "f-in-files"⟩]
    Path.folderOf n [f, n] connections = some f ∧ stripExtension ".env" = ".env" ∧
    stripExtension "lib/.env" = "lib/" ∧
    referenceKeys n [f, n] connections =
      [".env", "./.env", "/.env", "lib/.env", "./lib/.env", "/lib/.env",
        "lib/", "./lib/", "/lib/"].map Text.ofString := by
  intro f n connections
  exact ⟨rfl, by decide +kernel, by decide +kernel, by decide +kernel⟩

end Naming
end LiveCanvas
