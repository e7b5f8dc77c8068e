import LiveCanvas.Proofs.Preview.ImportLines

/-!
# The names that import lines bind

An import line binds the identifier that is made of the last path part of a name, without its
extension.  It is always an identifier and never stands in the content below.  But it is not kept
away from reserved words or from the identifiers of other lines: what is reserved stays reserved,
and names that differ in their folders, extensions or odd characters only share one identifier.
-/

namespace LiveCanvas

namespace Naming

/-- The words that are reserved in modules. -/
def reservedWords : List Text :=
  ["await", "break", "case", "catch", "class", "const", "continue", "debugger", "default", "delete",
    "do", "else", "enum", "export", "extends", "false", "finally", "for", "function", "if",
    "implements", "import", "in", "instanceof", "interface", "let", "new", "null", "package",
    "private", "protected", "public", "return", "static", "super", "switch", "this", "throw",
    "true", "try", "typeof", "var", "void", "while", "with", "yield"].map Text.ofString

/-- The name is made of the characters of identifiers. -/
structure IsIdentifierName (name : List Rune) : Prop where
  chars : ∀ c ∈ name, isIdentifierChar c = true
  /-- There is a first character, and it is no digit. -/
  first : name.head?.all Rune.isDigit = false

/-- The names are identifiers, differ from one another, and none of them is a reserved word.  Names
that are not reserved but may not be bound in a module, such as `eval`, are not ruled out. -/
structure BindsLegally (names : List Text) : Prop where
  distinct : names.Nodup
  identifiers : ∀ name ∈ names, IsIdentifierName name.toList
  unreserved : ∀ name ∈ names, name ∉ reservedWords

/-- The last path part of a name without its extension. -/
def stem (name : Text) : Text :=
  stripExtension (Text.ofList (Text.afterLast '/' name.toList))

theorem toList_identifier (name : Text) :
    (identifier name).toList = identifierChars (stem name).toList :=
  Text.toList_ofList

/-! ## Identifiers of names -/

/-- The character that stands for a character in an identifier. -/
def identifierChar (c : Rune) : Rune :=
  if isIdentifierChar c then c else '_'

theorem isIdentifierChar_identifierChar (c : Rune) :
    isIdentifierChar (identifierChar c) = true := by
  unfold identifierChar
  split
  · next h => exact h
  · decide

theorem identifierChar_of_isIdentifierChar {c : Rune} (h : isIdentifierChar c = true) :
    identifierChar c = c :=
  if_pos h

theorem identifierChar_of_ne_underscore {c : Rune} (h : identifierChar c ≠ '_') :
    identifierChar c = c := by
  unfold identifierChar at h ⊢
  split
  · rfl
  · next hc => exact absurd (if_neg hc) h

/-- The characters stand for those of the name, below an underscore where a digit or nothing at all
would be the first one. -/
theorem identifierChars_eq (name : List Rune) :
    identifierChars name =
      if (name.map identifierChar).head?.all Rune.isDigit then .char '_' :: name.map identifierChar
      else name.map identifierChar := by
  cases name with
  | nil => rfl
  | cons c rest => rfl

/-- What stands for a name is an identifier. -/
theorem isIdentifierName_identifierChars (name : List Rune) :
    IsIdentifierName (identifierChars name) := by
  have hchars : ∀ c ∈ name.map identifierChar, isIdentifierChar c = true := by
    intro c hc
    obtain ⟨d, -, rfl⟩ := List.mem_map.1 hc
    exact isIdentifierChar_identifierChar d
  rw [identifierChars_eq]
  split
  · refine ⟨?_, by rfl⟩
    intro c hc
    obtain rfl | hc := List.mem_cons.1 hc
    · decide
    · exact hchars c hc
  · next hfirst => exact ⟨hchars, Bool.eq_false_iff.2 hfirst⟩

/-- An identifier stands for itself. -/
theorem identifierChars_of_isIdentifierName {name : List Rune} (h : IsIdentifierName name) :
    identifierChars name = name := by
  have hsame : name.map identifierChar = name :=
    (List.map_congr_left fun c hc => identifierChar_of_isIdentifierChar (h.chars c hc)).trans
      (List.map_id name)
  rw [identifierChars_eq, hsame, h.first]
  rfl

/-- An identifier without underscores stands for itself only. -/
theorem eq_of_identifierChars_eq {name word : List Rune} (hword : .char '_' ∉ word)
    (h : identifierChars name = word) : name = word := by
  rw [identifierChars_eq] at h
  split at h
  · rw [← h] at hword
    exact absurd List.mem_cons_self hword
  · have hsame : name.map identifierChar = name := by
      refine (List.map_congr_left fun c hc => ?_).trans (List.map_id name)
      refine identifierChar_of_ne_underscore fun hc' => hword ?_
      rw [← h, ← hc']
      exact List.mem_map_of_mem hc
    rw [← h, hsame]

/-- Reserved words are made of small letters. -/
theorem isLower_of_reserved {word : Text} (h : word ∈ reservedWords) :
    word.toList.head?.all Rune.isDigit = false ∧
      ∀ c ∈ word.toList, c.isChar Char.isLower = true := by
  have hall : (reservedWords.all fun word =>
      !word.toList.head?.all Rune.isDigit && word.toList.all (·.isChar Char.isLower)) = true := by
    decide +kernel
  have hword := List.all_eq_true.1 hall word h
  rw [Bool.and_eq_true, Bool.not_eq_true', List.all_eq_true] at hword
  exact hword

/-- Reserved words are identifiers without underscores. -/
theorem isIdentifierName_of_reserved {word : Text} (h : word ∈ reservedWords) :
    IsIdentifierName word.toList ∧ .char '_' ∉ word.toList := by
  obtain ⟨hfirst, hlower⟩ := isLower_of_reserved h
  refine ⟨⟨fun c hc => ?_, hfirst⟩, fun hmem => absurd (hlower '_' hmem) (by decide)⟩
  have hc' := hlower c hc
  cases c with
  | half number => cases hc'
  | char c =>
      have hc' : c.isLower = true := hc'
      show (((c.isUpper || c.isLower) || c.isDigit) || _ || _) = true
      rw [hc', Bool.or_true]
      rfl

theorem isIdentifierName_identifier (name : Text) :
    IsIdentifierName (identifier name).toList := by
  rw [toList_identifier]
  exact isIdentifierName_identifierChars _

theorem identifier_of_isIdentifierName {name : Text} (h : IsIdentifierName (stem name).toList) :
    identifier name = stem name := by
  rw [← Text.toList_inj, toList_identifier, identifierChars_of_isIdentifierName h]

/-- The identifier of a name is reserved only when its stem is a reserved word already. -/
theorem identifier_mem_reservedWords_iff (name : Text) :
    identifier name ∈ reservedWords ↔ stem name ∈ reservedWords := by
  constructor
  · intro h
    obtain ⟨-, hword⟩ := isIdentifierName_of_reserved h
    have hstem := eq_of_identifierChars_eq hword (toList_identifier name).symm
    rwa [← Text.toList_inj.1 hstem] at h
  · intro h
    obtain ⟨hname, -⟩ := isIdentifierName_of_reserved h
    rwa [identifier_of_isIdentifierName hname]

end Naming

namespace Imports

variable {packageBase : Text} {nodes : List Node} {connections : List Connection} {m n : Node}
  {d : Dependency}

/-- The name that a dependency is imported by: that of a package, or the title of a file. -/
def Dependency.name (d : Dependency) : Text :=
  d.names.headD ""

theorem identifier_of_offered? (h : offered? packageBase nodes connections m = some d) :
    d.identifier = Naming.identifier d.name := by
  obtain ⟨-, -, rfl⟩ | ⟨-, -, rfl⟩ := offered?_cases h
  · rfl
  · rfl

theorem identifier_of_unmentioned (hd : d ∈ unmentioned packageBase nodes connections n) :
    d.identifier = Naming.identifier d.name := by
  obtain ⟨hwired, -⟩ := mem_unmentioned.1 hd
  obtain ⟨m, -, hoffered⟩ := mem_wired.1 hwired
  exact identifier_of_offered? hoffered

/-- No line binds what stands in the content. -/
theorem not_standsIn_of_unmentioned (hd : d ∈ unmentioned packageBase nodes connections n) :
    ¬StandsIn d.identifier.toList n.content.toList := by
  intro hstands
  obtain ⟨hwired, hnot⟩ := mem_unmentioned.1 hd
  obtain ⟨m, -, hoffered⟩ := mem_wired.1 hwired
  rw [(isMentioned_iff hoffered).2 (.inr hstands)] at hnot
  cases hnot

/-- The lines above a content bind identifiers that do not stand in the content.  One module may
declare them beside each other exactly if no two of them are the same and no imported name has a
reserved word as its stem.  Stems that are identifiers are bound as they are. -/
theorem bindsLegally_unmentioned_iff (packageBase : Text) (nodes : List Node)
    (connections : List Connection) (n : Node) :
    let missing := unmentioned packageBase nodes connections n
    let bound := missing.map (·.identifier)
    let stems := missing.map fun d => Naming.stem d.name
    sourceOf packageBase nodes connections n = header missing ++ n.content ∧
    (∀ name ∈ bound,
      Naming.IsIdentifierName name.toList ∧ ¬StandsIn name.toList n.content.toList) ∧
    (Naming.BindsLegally bound ↔
      bound.Nodup ∧ ∀ stem ∈ stems, stem ∉ Naming.reservedWords) ∧
    ((∀ stem ∈ stems, Naming.IsIdentifierName stem.toList) → bound = stems) := by
  intro missing bound stems
  have hidentifier : ∀ d ∈ missing, d.identifier = Naming.identifier d.name :=
    fun d hd => identifier_of_unmentioned hd
  have hlegal : ∀ name ∈ bound, Naming.IsIdentifierName name.toList := by
    intro name hname
    obtain ⟨d, hd, rfl⟩ := List.mem_map.1 hname
    rw [hidentifier d hd]
    exact Naming.isIdentifierName_identifier d.name
  have hreserved : (∀ name ∈ bound, name ∉ Naming.reservedWords) ↔
      ∀ stem ∈ stems, stem ∉ Naming.reservedWords := by
    simp only [bound, stems, List.forall_mem_map]
    refine forall₂_congr fun d hd => ?_
    rw [hidentifier d hd, Naming.identifier_mem_reservedWords_iff]
  refine ⟨sourceOf_eq_append packageBase nodes connections n, ?_, ?_, ?_⟩
  · intro name hname
    refine ⟨hlegal name hname, ?_⟩
    obtain ⟨d, hd, rfl⟩ := List.mem_map.1 hname
    exact not_standsIn_of_unmentioned hd
  · rw [← hreserved]
    constructor
    · exact fun h => ⟨h.distinct, h.unreserved⟩
    · exact fun ⟨hdistinct, hunreserved⟩ => ⟨hdistinct, hlegal, hunreserved⟩
  · intro hstems
    refine List.map_congr_left fun d hd => ?_
    rw [hidentifier d hd]
    exact Naming.identifier_of_isIdentifierName (hstems _ (List.mem_map_of_mem hd))

/-- A file has a reserved word as its title, and two files differ in their extensions only. -/
theorem bindsLegally_fails_for_class_and_util :
    let main : Node := { id := "m", kind := .code, title := "main.js", content := "export {};" }
    let file (id title : Text) : Node := { id, kind := .code, title }
    let imported (id : NodeId) : Connection := ⟨id, id, id ++ "-out-dom", "m", "m-in-imports"⟩
    let bound (nodes : List Node) (connections : List Connection) : List Text :=
      (unmentioned "https://esm.sh/" nodes connections main).map (·.identifier)
    bound [main, file "c" "class.js"] [imported "c"] = ["class"].map Text.ofString ∧
    bound [main, file "u" "util.js", file "v" "util.ts"] [imported "u", imported "v"] =
      ["util", "util"].map Text.ofString ∧
    ¬Naming.BindsLegally ["class"] ∧ ¬Naming.BindsLegally ["util", "util"] := by
  intro main file imported bound
  refine ⟨by decide +kernel, by decide +kernel, ?_, ?_⟩
  · intro h
    exact h.unreserved "class" (List.mem_singleton_self _) (by decide)
  · intro h
    exact List.not_nodup_pair _ h.distinct

end Imports
end LiveCanvas
