import LiveCanvas.Proofs.Preview.Tags
import LiveCanvas.Proofs.Text.Cut
import LiveCanvas.Proofs.Text.Pieces

/-!
# Attributes of script tags

A script tag that loads a module gets a type and an address and keeps its other attributes.  The
attributes are looked for in the text of the tag, with no regard to quotes.  So they are found and
kept as long as no value has text in it that reads as one of them, and a value that has some is
taken for it.
-/

namespace LiveCanvas

namespace Text

/-- The blanks as numbers. -/
def blankCodes : List Nat :=
  List.range' 9 5 ++ List.range' 28 5 ++ [0x85, 0xa0, 0x1680] ++ List.range' 0x2000 11 ++
    [0x2028, 0x2029, 0x202f, 0x205f, 0x3000]

theorem toNat_mem_blankCodes {c : Rune} (h : isBlank c = true) : c.toNat ∈ blankCodes := by
  simp only [isBlank, Bool.or_eq_true, Bool.and_eq_true, decide_eq_true_eq, beq_iff_eq] at h
  simp only [blankCodes, List.mem_append, List.mem_range'_1, List.mem_cons, List.not_mem_nil,
    or_false]
  omega

theorem isNameChar_of_mem_blankCodes :
    ∀ n ∈ blankCodes, isNameChar (Rune.ofNat n) = false := by
  decide +kernel

/-- No blank is part of a name. -/
theorem isBlank_of_isNameChar {c : Rune} (h : isNameChar c = true) : isBlank c = false := by
  rw [Bool.eq_false_iff]
  intro hblank
  have hnot := isNameChar_of_mem_blankCodes _ (toNat_mem_blankCodes hblank)
  rw [Rune.ofNat_toNat, h] at hnot
  cases hnot

end Text

namespace Markup

/-! ## Attributes -/

/-- An attribute with its value in quotes. -/
structure Attribute where
  name : List Rune
  value : List Rune
  isName : name.all Text.isNameChar = true := by decide +kernel
  isValue : (value.all fun c => c != '"' && c != '>') = true := by decide +kernel
deriving DecidableEq

namespace Attribute

theorem isNameChar_of_mem (a : Attribute) : ∀ c ∈ a.name, Text.isNameChar c = true :=
  List.all_eq_true.1 a.isName

theorem ne_of_mem_value (a : Attribute) : ∀ c ∈ a.value, c ≠ '"' ∧ c ≠ '>' := by
  have h := a.isValue
  rw [List.all_eq_true] at h
  intro c hc
  simpa using h c hc

/-- The attribute as it is written, with the space before it. -/
def text (a : Attribute) : List Rune :=
  .char ' ' :: (a.name ++ .char '=' :: .char '"' :: (a.value ++ [.char '"']))

/-- The attribute has this name, in any case. -/
def isNamed (word : Text) (a : Attribute) : Bool :=
  afterWord? word.toList a.name == some []

end Attribute

/-- Attributes as they are written. -/
def written (attributes : List Attribute) : List Rune :=
  attributes.flatMap Attribute.text

/-- The text begins like an attribute with this name, as far as its equals sign. -/
def beginsLike (word : List Rune) (before : Option Rune) : List Rune → Bool
  | [] => false
  | c :: cs =>
    (Text.isBlank c || !before.any Text.isNameChar) &&
      ((afterWord? word ((c :: cs).dropWhile Text.isBlank)).bind afterEquals?).isSome

/-- The text has something in it that begins like an attribute with this name. -/
def looksLike (word : List Rune) (before : Option Rune) : List Rune → Bool
  | [] => false
  | c :: cs => beginsLike word before (c :: cs) || looksLike word (some c) cs

/-- The value has something in it that begins like an attribute with this name. -/
def Attribute.hides (word : Text) (a : Attribute) : Bool :=
  looksLike word.toList (some (.char '"')) a.value

/-- A name that is neither empty nor runs over the marks around it. -/
structure IsAttributeWord (word : List Rune) : Prop where
  ne_nil : word ≠ []
  equals : Misses word '='
  quote : Misses word '"'

theorem isAttributeWord_src : IsAttributeWord (Text.toList "src") :=
  ⟨by decide, by decide, by decide⟩

theorem isAttributeWord_type : IsAttributeWord (Text.toList "type") :=
  ⟨by decide, by decide, by decide⟩

/-! ## Places where no attribute begins -/

section Places

variable {word : List Rune} {before : Option Rune} {c : Rune} {cs : List Rune}

theorem dropWhile_isBlank_cons (hc : Text.isBlank c = false) (cs : List Rune) :
    (c :: cs).dropWhile Text.isBlank = c :: cs :=
  List.dropWhile_cons_of_neg (by simp [hc])

theorem attribute?_of_runsOn (hc : Text.isBlank c = false)
    (hbefore : before.any Text.isNameChar = true) : attribute? word before (c :: cs) = none := by
  simp [attribute?, hc, hbefore]

theorem attribute?_of_not_matches (hword : word ≠ [])
    (hc : Misses word c) (hblank : Text.isBlank c = false) :
    attribute? word before (c :: cs) = none := by
  obtain ⟨letter, word, rfl⟩ := List.exists_cons_of_ne_nil hword
  have hafter : afterWord? (letter :: word) (c :: cs) = none := by
    rw [afterWord?, hc letter List.mem_cons_self]
    rfl
  simp [attribute?, dropWhile_isBlank_cons hblank, hafter]

theorem dropWhile_isBlank_append_quote (cs rest : List Rune) :
    (cs ++ .char '"' :: rest).dropWhile Text.isBlank =
      cs.dropWhile Text.isBlank ++ .char '"' :: rest := by
  induction cs with
  | nil => rfl
  | cons c cs ih =>
      cases hc : Text.isBlank c with
      | true => simp [hc, ih]
      | false => rw [List.cons_append, dropWhile_isBlank_cons hc, dropWhile_isBlank_cons hc]; rfl

theorem afterEquals?_append_quote (h : afterEquals? cs = none) (rest : List Rune) :
    afterEquals? (cs ++ .char '"' :: rest) = none := by
  rw [afterEquals?] at h
  rw [afterEquals?, dropWhile_isBlank_append_quote]
  cases hdrop : cs.dropWhile Text.isBlank with
  | nil => rfl
  | cons d tail =>
      rw [hdrop] at h
      rw [List.cons_append]
      split
      · next heq =>
          rw [(List.cons.inj heq).1] at h
          cases h
      · rfl

/-- A name is followed by an equals sign only if it is the whole name. -/
theorem afterWord?_bind_afterEquals? (hword : IsAttributeWord word) {name : List Rune}
    (hname : ∀ c ∈ name, Text.isNameChar c = true) (rest : List Rune) :
    (afterWord? word (name ++ .char '=' :: rest)).bind afterEquals? =
      if afterWord? word name = some [] then some (rest.dropWhile Text.isBlank) else none := by
  rw [afterWord?_append_cons hword.equals]
  cases hafter : afterWord? word name with
  | none => rfl
  | some tail =>
      cases tail with
      | nil => rfl
      | cons d tail =>
          obtain ⟨front, rfl, -⟩ := exists_of_afterWord? hafter
          have hd : Text.isNameChar d = true := hname d (by simp)
          have hne : d ≠ '=' := by
            rintro rfl
            revert hd
            decide +kernel
          have hnone : afterEquals? (d :: tail ++ .char '=' :: rest) = none := by
            rw [List.cons_append, afterEquals?,
              dropWhile_isBlank_cons (Text.isBlank_of_isNameChar hd)]
            split
            · next heq => exact absurd (List.cons.inj heq).1 hne
            · rfl
          rw [Option.map_some, Option.bind_some, hnone]
          rfl

theorem dropWhile_isBlank_name {name : List Rune}
    (hname : ∀ c ∈ name, Text.isNameChar c = true) (rest : List Rune) :
    (name ++ .char '=' :: rest).dropWhile Text.isBlank = name ++ .char '=' :: rest := by
  cases name with
  | nil => rfl
  | cons c name =>
      exact dropWhile_isBlank_cons (Text.isBlank_of_isNameChar (hname c List.mem_cons_self)) _

/-- With a space before it or without. -/
theorem attribute?_of_other_name (hword : IsAttributeWord word) {name : List Rune}
    (hname : ∀ c ∈ name, Text.isNameChar c = true) (hother : afterWord? word name ≠ some [])
    (rest : List Rune) :
    attribute? word before (.char ' ' :: (name ++ .char '=' :: rest)) = none ∧
      attribute? word before (name ++ .char '=' :: rest) = none := by
  have hbind : (afterWord? word (name ++ .char '=' :: rest)).bind afterEquals? = none := by
    rw [afterWord?_bind_afterEquals? hword hname, if_neg hother]
  have hspace : (.char ' ' :: (name ++ .char '=' :: rest)).dropWhile Text.isBlank =
      name ++ .char '=' :: rest :=
    dropWhile_isBlank_name hname rest
  constructor
  · rw [attribute?, hspace, hbind]
    exact ite_self _
  · rw [attribute?.eq_def, dropWhile_isBlank_name hname, hbind]
    exact ite_self _

/-- Text that does not begin like an attribute does not do so with more text behind a quote. -/
theorem attribute?_of_not_beginsLike (hword : IsAttributeWord word)
    (h : beginsLike word before (c :: cs) = false) (rest : List Rune) :
    attribute? word before (c :: cs ++ .char '"' :: rest) = none := by
  rw [beginsLike, Bool.and_eq_false_iff] at h
  rw [List.cons_append, attribute?]
  obtain hruns | hnone := h
  · rw [Bool.or_eq_false_iff, Bool.not_eq_false'] at hruns
    simp [hruns]
  · have hafter : (afterWord? word ((c :: (cs ++ .char '"' :: rest)).dropWhile Text.isBlank)).bind
        afterEquals? = none := by
      rw [← List.cons_append, dropWhile_isBlank_append_quote, afterWord?_append_cons hword.quote]
      rw [Option.isSome_eq_false_iff, Option.isNone_iff_eq_none, Option.bind_eq_none_iff] at hnone
      rw [Option.bind_eq_none_iff]
      intro tail htail
      obtain ⟨front, hfront, rfl⟩ := Option.map_eq_some_iff.1 htail
      exact afterEquals?_append_quote (hnone front hfront) rest
    simp [hafter]

end Places

/-! ## Finding an attribute -/

/-- What is found behind some text. -/
def Found.behind (front : List Rune) (found : Found) : Found :=
  { found with before := front ++ found.before }

section Find

variable {word : List Rune}

theorem behind_comp (front back : List Rune) :
    Found.behind front ∘ Found.behind back = Found.behind (front ++ back) := by
  funext found
  simp [Found.behind]

theorem findAttribute?_of_none {before : Option Rune} {c : Rune} {cs : List Rune}
    (h : attribute? word before (c :: cs) = none) :
    findAttribute? word before (c :: cs) =
      (findAttribute? word (some c) cs).map (Found.behind [c]) := by
  -- by evaluation: proving the equations of the function would open the classes of characters
  conv_lhs => whnf
  simp only [h]
  rfl

theorem findAttribute?_of_some {before : Option Rune} {c : Rune} {cs value after : List Rune}
    (h : attribute? word before (c :: cs) = some (value, after)) :
    findAttribute? word before (c :: cs) = some ⟨value, [], after⟩ := by
  conv_lhs => whnf
  simp only [h]

/-- No attribute begins inside of a name. -/
theorem findAttribute?_runsOn (hword : IsAttributeWord word) {name : List Rune}
    (hname : ∀ c ∈ name, Text.isNameChar c = true) {before : Option Rune}
    (hbefore : before.any Text.isNameChar = true) (rest : List Rune) :
    findAttribute? word before (name ++ .char '=' :: rest) =
      (findAttribute? word (some (.char '=')) rest).map (Found.behind (name ++ [.char '='])) := by
  induction name generalizing before with
  | nil =>
      exact findAttribute?_of_none
        (attribute?_of_not_matches hword.ne_nil hword.equals (by decide))
  | cons c name ih =>
      rw [List.forall_mem_cons] at hname
      have hc : (some c).any Text.isNameChar = true := hname.1
      rw [List.cons_append, findAttribute?_of_none
        (attribute?_of_runsOn (Text.isBlank_of_isNameChar hname.1) hbefore),
        ih hname.2 hc, Option.map_map, behind_comp]
      rfl

theorem findAttribute?_name (hword : IsAttributeWord word) {name : List Rune}
    (hname : ∀ c ∈ name, Text.isNameChar c = true) (hother : afterWord? word name ≠ some [])
    (before : Option Rune) (rest : List Rune) :
    findAttribute? word before (name ++ .char '=' :: rest) =
      (findAttribute? word (some (.char '=')) rest).map (Found.behind (name ++ [.char '='])) := by
  cases name with
  | nil =>
      exact findAttribute?_of_none
        (attribute?_of_not_matches hword.ne_nil hword.equals (by decide))
  | cons c name =>
      have hnone : attribute? word before (c :: (name ++ .char '=' :: rest)) = none :=
        (attribute?_of_other_name hword hname hother rest).2
      rw [List.forall_mem_cons] at hname
      have hc : (some c).any Text.isNameChar = true := hname.1
      rw [List.cons_append, findAttribute?_of_none hnone, findAttribute?_runsOn hword hname.2 hc,
        Option.map_map, behind_comp]
      rfl

/-- A value between quotes is passed over if nothing in it begins like an attribute. -/
theorem findAttribute?_value (hword : IsAttributeWord word) {before : Option Rune}
    {value : List Rune} (h : looksLike word before value = false) (rest : List Rune) :
    findAttribute? word before (value ++ .char '"' :: rest) =
      (findAttribute? word (some (.char '"')) rest).map (Found.behind (value ++ [.char '"'])) := by
  induction value generalizing before with
  | nil =>
      exact findAttribute?_of_none
        (attribute?_of_not_matches hword.ne_nil hword.quote (by decide))
  | cons c value ih =>
      rw [looksLike, Bool.or_eq_false_iff] at h
      have hnone : attribute? word before (c :: (value ++ .char '"' :: rest)) = none :=
        attribute?_of_not_beginsLike hword h.1 rest
      rw [List.cons_append, findAttribute?_of_none hnone, ih h.2, Option.map_map, behind_comp]
      rfl

end Find

section Attributes

theorem Attribute.text_append (a : Attribute) (rest : List Rune) :
    a.text ++ rest =
      .char ' ' :: (a.name ++ .char '=' :: .char '"' :: (a.value ++ .char '"' :: rest)) := by
  simp [Attribute.text]

theorem value?_quoted {value : List Rune} (hvalue : ∀ c ∈ value, c ≠ '"') (rest : List Rune) :
    value? (.char '"' :: (value ++ .char '"' :: rest)) = some (value, rest) := by
  have hspan : (value ++ .char '"' :: rest).span (· != .char '"') = (value, .char '"' :: rest) :=
    Text.span_append (fun c hc => by simpa using hvalue c hc) (by decide)
  rw [value?]
  simp only [quotedValue?, hspan]

variable {word : Text} (hword : IsAttributeWord word.toList) {before : Option Rune}

include hword

/-- An attribute with the name is found where it begins. -/
theorem findAttribute?_of_isNamed {a : Attribute} (hnamed : a.isNamed word = true)
    (rest : List Rune) :
    findAttribute? word.toList before (a.text ++ rest) = some ⟨a.value, [], rest⟩ := by
  have hspace : (.char ' ' :: (a.name ++ .char '=' :: .char '"' ::
      (a.value ++ .char '"' :: rest))).dropWhile Text.isBlank =
      a.name ++ .char '=' :: .char '"' :: (a.value ++ .char '"' :: rest) :=
    dropWhile_isBlank_name a.isNameChar_of_mem _
  have hquote : (.char '"' :: (a.value ++ .char '"' :: rest)).dropWhile Text.isBlank =
      .char '"' :: (a.value ++ .char '"' :: rest) :=
    dropWhile_isBlank_cons (by decide) _
  rw [Attribute.text_append]
  apply findAttribute?_of_some
  rw [attribute?, hspace, afterWord?_bind_afterEquals? hword a.isNameChar_of_mem,
    if_pos (beq_iff_eq.1 hnamed), hquote, Option.bind_some,
    value?_quoted fun c hc => (a.ne_of_mem_value c hc).1]
  rfl

/-- An attribute of another name is passed over if its value hides nothing. -/
theorem findAttribute?_of_not_hides {a : Attribute} (hnamed : a.isNamed word = false)
    (hhides : a.hides word = false) (rest : List Rune) :
    findAttribute? word.toList before (a.text ++ rest) =
      (findAttribute? word.toList (some (.char '"')) rest).map (Found.behind a.text) := by
  have hother : afterWord? word.toList a.name ≠ some [] := by simpa [Attribute.isNamed] using hnamed
  have hquote : attribute? word.toList (some (.char '='))
      (.char '"' :: (a.value ++ .char '"' :: rest)) = none :=
    attribute?_of_not_matches hword.ne_nil hword.quote (by decide)
  rw [Attribute.text_append,
    findAttribute?_of_none (attribute?_of_other_name hword a.isNameChar_of_mem hother _).1,
    findAttribute?_name hword a.isNameChar_of_mem hother, findAttribute?_of_none hquote,
    findAttribute?_value hword hhides, Option.map_map, Option.map_map, Option.map_map,
    behind_comp, behind_comp, behind_comp]
  congr 2
  simp [Attribute.text]

end Attributes

/-! ## Lists of attributes -/

section Lists

theorem written_cons (a : Attribute) (attributes : List Attribute) :
    written (a :: attributes) = a.text ++ written attributes :=
  List.flatMap_cons

theorem written_append (front back : List Attribute) :
    written (front ++ back) = written front ++ written back :=
  List.flatMap_append

theorem length_le_written (attributes : List Attribute) :
    attributes.length ≤ (written attributes).length := by
  induction attributes with
  | nil => exact Nat.zero_le _
  | cons a attributes ih =>
      rw [written_cons, a.text_append, List.length_cons, List.length_cons, List.length_append,
        List.length_cons, List.length_cons, List.length_append, List.length_cons]
      omega

theorem notMem_written (attributes : List Attribute) : .char '>' ∉ written attributes := by
  intro h
  obtain ⟨a, -, ha⟩ := List.mem_flatMap.1 h
  have hname : .char '>' ∉ a.name := by
    intro hmem
    have hchar := a.isNameChar_of_mem _ hmem
    revert hchar
    decide +kernel
  have hvalue : .char '>' ∉ a.value := fun hmem => (a.ne_of_mem_value _ hmem).2 rfl
  simp [Attribute.text, hname, hvalue] at ha

/-- Nothing is trimmed off the end of attributes. -/
theorem dropEndWhile_written (attributes : List Attribute) :
    Text.dropEndWhile Text.isBlank (written attributes) = written attributes := by
  obtain rfl | ⟨front, a, rfl⟩ := List.eq_nil_or_concat attributes
  · rfl
  · have hlast : written (front ++ [a]) =
        written front ++
          .char ' ' :: (a.name ++ .char '=' :: .char '"' :: a.value) ++ [.char '"'] := by
      simp [written, Attribute.text]
    have hquote : Text.isBlank '"' = false := by decide
    rw [List.concat_eq_append, hlast]
    refine Text.dropEndWhile_eq_self fun c hc => ?_
    rw [List.getLast?_concat, Option.mem_some_iff] at hc
    rwa [← hc]

theorem attribute?_space (word : List Rune) (before : Option Rune) (cs : List Rune) :
    attribute? word before (.char ' ' :: cs) =
      ((afterWord? word ((.char ' ' :: cs).dropWhile Text.isBlank)).bind afterEquals?).bind
        value? := by
  rw [attribute?]
  rfl

/-- It does not matter what stands before the space before the first attribute. -/
theorem findAttribute?_written_congr (word : List Rune) (before before' : Option Rune)
    (attributes : List Attribute) :
    findAttribute? word before (written attributes) =
      findAttribute? word before' (written attributes) := by
  cases attributes with
  | nil => rfl
  | cons a attributes =>
      rw [written_cons, a.text_append]
      generalize
        a.name ++ .char '=' :: .char '"' :: (a.value ++ .char '"' :: written attributes) = cs
      have hsame :
          attribute? word before (.char ' ' :: cs) = attribute? word before' (.char ' ' :: cs) := by
        rw [attribute?_space, attribute?_space]
      cases h : attribute? word before' (.char ' ' :: cs) with
      | none => rw [findAttribute?_of_none h, findAttribute?_of_none (hsame.trans h)]
      | some found => rw [findAttribute?_of_some h, findAttribute?_of_some (hsame.trans h)]

variable {word : Text} (hword : IsAttributeWord word.toList)

include hword

/-- The first attribute with the name is found if no value before it hides another one. -/
theorem findAttribute?_written {front : List Attribute} {a : Attribute}
    (hfront : ∀ b ∈ front, b.isNamed word = false ∧ b.hides word = false)
    (hnamed : a.isNamed word = true) (back : List Attribute) (before : Option Rune) :
    findAttribute? word.toList before (written (front ++ a :: back)) =
      some ⟨a.value, written front, written back⟩ := by
  induction front generalizing before with
  | nil =>
      rw [List.nil_append, written_cons, findAttribute?_of_isNamed hword hnamed]
      rfl
  | cons b front ih =>
      rw [List.forall_mem_cons] at hfront
      rw [List.cons_append, written_cons, written_cons,
        findAttribute?_of_not_hides hword hfront.1.1 hfront.1.2, ih hfront.2]
      rfl

/-- The attributes with the name are dropped, and the others stay. -/
theorem dropAttributes_written {attributes : List Attribute}
    (hquiet : ∀ a ∈ attributes, a.isNamed word = false → a.hides word = false) {fuel : Nat}
    (hfuel : attributes.length ≤ fuel) :
    dropAttributes word.toList fuel (written attributes) =
      written (attributes.filter fun a => !a.isNamed word) := by
  induction attributes generalizing fuel with
  | nil => cases fuel <;> rfl
  | cons a attributes ih =>
      rw [List.forall_mem_cons] at hquiet
      rw [List.length_cons] at hfuel
      obtain ⟨fuel, rfl⟩ := Nat.exists_eq_succ_of_ne_zero (show fuel ≠ 0 by omega)
      cases hnamed : a.isNamed word with
      | true =>
          rw [written_cons, dropAttributes, findAttribute?_of_isNamed hword hnamed,
            List.filter_cons_of_neg (by simp [hnamed])]
          exact ih hquiet.2 (Nat.le_of_succ_le_succ hfuel)
      | false =>
          -- the same step of the rest, as it does not matter what stands before the rest
          have hrest := ih hquiet.2 (Nat.le_of_succ_le hfuel)
          rw [dropAttributes] at hrest
          rw [written_cons, dropAttributes,
            findAttribute?_of_not_hides hword hnamed (hquiet.1 hnamed),
            findAttribute?_written_congr _ _ none, List.filter_cons_of_pos (by simp [hnamed]),
            written_cons, ← hrest]
          cases findAttribute? word.toList none (written attributes) with
          | none => rfl
          | some found => simp [Found.behind]

end Lists

/-! ## Script tags -/

section Script

variable {table : Fields Text} {target : Text}

/-- What a script tag holds when it is pointed at a module. -/
theorem linkScript_written {front : List Attribute} {src : Attribute} {back : List Attribute}
    (hfront : ∀ a ∈ front, a.isNamed "src" = false ∧ a.hides "src" = false)
    (hsrc : src.isNamed "src" = true) (htarget : moduleFor? table src.value = some target)
    (htype : ∀ a ∈ front ++ back, a.isNamed "type" = false → a.hides "type" = false) :
    linkScript table (written (front ++ src :: back)) =
      some (scriptTag (Text.toList " type=\"module\" src=\"" ++ target.toList ++
        .char '"' :: written ((front ++ back).filter fun a => !a.isNamed "type"))) := by
  have hfuel := length_le_written (front ++ back)
  rw [linkScript, findAttribute?_written isAttributeWord_src hfront hsrc, Option.bind_some, htarget,
    Option.map_some]
  simp only [← written_append, dropAttributes_written isAttributeWord_type htype hfuel,
    dropEndWhile_written]

/-- The same, for attributes of which one is a source. -/
theorem linkScript_of_filter {attributes : List Attribute} {src : Attribute}
    (hsrc : attributes.filter (·.isNamed "src") = [src])
    (htarget : moduleFor? table src.value = some target)
    (hfirst : ∀ a ∈ attributes.takeWhile (!·.isNamed "src"), a.hides "src" = false)
    (htype : ∀ a ∈ attributes, a.isNamed "src" = false → a.isNamed "type" = false →
      a.hides "type" = false) :
    linkScript table (written attributes) =
      some (scriptTag (Text.toList " type=\"module\" src=\"" ++ target.toList ++
        .char '"' :: written (attributes.filter fun a =>
          !a.isNamed "src" && !a.isNamed "type"))) := by
  -- no other attribute is a source, so what the others have to fulfil is asked of them only
  obtain ⟨front, back, rfl, hfront, hnamed, hback⟩ := List.filter_eq_cons_iff.1 hsrc
  rw [List.filter_eq_nil_iff] at hback
  have hnotSrc : ∀ a ∈ front ++ back, a.isNamed "src" = false := by
    intro a ha
    obtain ha | ha := List.mem_append.1 ha
    · simpa using hfront a ha
    · simpa using hback a ha
  have hbefore : (front ++ src :: back).takeWhile (!·.isNamed "src") = front := by
    rw [List.takeWhile_append_of_pos fun a ha => by simpa using hfront a ha,
      List.takeWhile_cons_of_neg (by simp [hnamed]), List.append_nil]
  have hothers : (front ++ src :: back).filter (fun a => !a.isNamed "src" && !a.isNamed "type") =
      (front ++ back).filter fun a => !a.isNamed "type" := by
    rw [List.filter_append, List.filter_cons_of_neg (by simp [hnamed]), ← List.filter_append]
    exact List.filter_congr fun a ha => by simp [hnotSrc a ha]
  rw [hbefore] at hfirst
  rw [hothers]
  refine linkScript_written (fun a ha => ⟨hnotSrc a (List.mem_append_left _ ha), hfirst a ha⟩)
    hnamed htarget fun a ha => htype a ?_ (hnotSrc a ha)
  obtain ha | ha := List.mem_append.1 ha
  · exact List.mem_append_left _ ha
  · exact List.mem_append_right _ (List.mem_cons_of_mem src ha)

theorem isTag_scriptTag {attributes : List Attribute} (hne : attributes ≠ []) :
    IsTag (Text.toList "script") ⟨Text.toList "<script", written attributes⟩ where
  opening := ⟨Text.toList "script", rfl, by decide⟩
  apart := by
    obtain ⟨a, attributes, rfl⟩ := List.exists_cons_of_ne_nil hne
    intro c hc
    obtain rfl : ' ' = c := Option.some.inj hc
    decide +kernel
  body := notMem_written attributes

theorem endsTags_scriptTag (attributes : List Rune) : EndsTags (scriptTag attributes) :=
  endsTags_concat _

/-- First the stylesheet links go, then the script tags are pointed at modules. -/
theorem replaceTags_around {attributes : List Attribute} (hne : attributes ≠ [])
    {before new : List Rune} (hbefore : TagsApart before)
    (hlink : dropStylesheets (scriptTag (written attributes)) = scriptTag (written attributes))
    (hnew : linkScript table (written attributes) = some new) (after : List Rune) :
    replaceTags "script" (linkScript table)
        (dropStylesheets (before ++ (scriptTag (written attributes) ++ after))) =
      replaceTags "script" (linkScript table) (dropStylesheets before) ++
        (new ++ replaceTags "script" (linkScript table) (dropStylesheets after)) := by
  have hlinkEnd : Misses (Text.toList "link") '>' := by decide
  have hscriptEnd : Misses (Text.toList "script") '>' := by decide
  have hdrop : dropStylesheets (before ++ (scriptTag (written attributes) ++ after)) =
      dropStylesheets before ++ (scriptTag (written attributes) ++ dropStylesheets after) := by
    rw [dropStylesheets] at hlink
    rw [dropStylesheets, replaceTags_append hlinkEnd _ hbefore.endsTags,
      replaceTags_append hlinkEnd _ (endsTags_scriptTag _), hlink]
    rfl
  have hends : EndsTags (dropStylesheets before) := by
    refine endsTags_replaceTags hlinkEnd _ hbefore fun body => ?_
    split
    · exact .inr rfl
    · exact .inl rfl
  have htag := replaceTags_of_isTag "script" (linkScript table) (isTag_scriptTag hne)
    (dropStylesheets after)
  rw [hnew, Option.getD_some] at htag
  rw [hdrop, replaceTags_append hscriptEnd _ hends, ← htag]
  rfl

end Script

theorem toList_linkModules (markup : Text) (table : Fields Text) :
    (linkModules markup table).toList =
      replaceTags "script" (linkScript table) (dropStylesheets markup.toList) :=
  rfl

theorem scriptTag_linked (target : Text) (others : List Rune) :
    scriptTag (Text.toList " type=\"module\" src=\"" ++ target.toList ++ .char '"' :: others) =
      ("<script type=\"module\" src=\"" ++ target ++ "\"" ++ Text.ofList others ++ ">").toList := by
  have hopening : (Text.toList "<script type=\"module\" src=\"") =
      (Text.toList "<script") ++ Text.toList " type=\"module\" src=\"" := by decide
  have hassoc (name start address : List Rune) :
      name ++ (start ++ address ++ .char '"' :: others) ++ [.char '>'] =
      name ++ start ++ address ++ [.char '"'] ++ others ++ [.char '>'] := by simp
  simp only [Text.toList_append, hopening]
  exact hassoc _ _ _

/-- A page with a script tag that has exactly one source, and the source means a module.  The tag is
pointed at the module and keeps its other attributes as they are and in order, and the rest of the
page is what it is without the tag, if no value hides a source before the real one or a type, and if
no stylesheet link begins in the tag or is left open before it. -/
theorem linkModules_scriptTag (table : Fields Text) (before after : Text)
    (attributes : List Attribute) {src : Attribute} {target : Text}
    (hbefore : TagsApart before.toList)
    (hsrc : attributes.filter (·.isNamed "src") = [src])
    (htarget : moduleFor? table src.value = some target)
    (hfirst : ∀ a ∈ attributes.takeWhile (!·.isNamed "src"), a.hides "src" = false)
    (htype : ∀ a ∈ attributes, a.isNamed "src" = false → a.isNamed "type" = false →
      a.hides "type" = false)
    (hlink : dropStylesheets (scriptTag (written attributes)) = scriptTag (written attributes)) :
    linkModules (before ++ Text.ofList (scriptTag (written attributes)) ++ after) table =
      linkModules before table ++ "<script type=\"module\" src=\"" ++ target ++ "\"" ++
        Text.ofList (written (attributes.filter fun a => !a.isNamed "src" && !a.isNamed "type")) ++
          ">" ++ linkModules after table := by
  have hne : attributes ≠ [] := by
    rintro rfl
    cases hsrc
  have hnew := linkScript_of_filter hsrc htarget hfirst htype
  have hpage : (before ++ Text.ofList (scriptTag (written attributes)) ++ after).toList =
      before.toList ++ (scriptTag (written attributes) ++ after.toList) := by
    rw [Text.toList_append, Text.toList_append, Text.toList_ofList, List.append_assoc]
  apply Text.toList_injective
  rw [toList_linkModules, hpage, replaceTags_around hne hbefore hlink hnew, scriptTag_linked,
    ← toList_linkModules, ← toList_linkModules]
  simp only [Text.toList_append, List.append_assoc]

/-- A tag with another type, a value with a bracket in it and a name that ends in that of a
source. -/
theorem linkModules_scriptTag_other_attributes :
    let target := moduleStart ++ "AAAA"
    let table : Fields Text := [("app.js", target)]
    let src : Attribute := { name := Text.toList "SRC", value := Text.toList "./app.js" }
    let attributes : List Attribute :=
      [{ name := Text.toList "type", value := Text.toList "text/babel" }, src,
        { name := Text.toList "data-x", value := Text.toList "1 < 2" },
        { name := Text.toList "data-src", value := Text.toList "x" }]
    TagsApart (Text.toList "<p>") ∧ attributes.filter (·.isNamed "src") = [src] ∧
    moduleFor? table src.value = some target ∧
    linkModules ("<p>" ++ Text.ofList (scriptTag (written attributes)) ++ "</script>") table =
      "<p><script type=\"module\" src=\"data:text/javascript;base64,AAAA\" data-x=\"1 < 2\" " ++
        "data-src=\"x\"></script>" := by
  intro target table src attributes
  have hbefore : TagsApart (Text.toList "<p>") := by
    intro rest hrest
    have hsuffix : .char '<' :: rest <:+ ['<', 'p', '>'] := hrest
    simp only [List.suffix_cons_iff, List.cons.injEq] at hsuffix
    obtain ⟨-, rfl⟩ : True ∧ rest = ['p', '>'] := by simpa using hsuffix
    exact ⟨['p'], [], rfl, by decide⟩
  have hsrc : attributes.filter (·.isNamed "src") = [src] := by decide +kernel
  have htarget : moduleFor? table src.value = some target := by decide +kernel
  refine ⟨hbefore, hsrc, htarget, ?_⟩
  exact (linkModules_scriptTag table "<p>" "</script>" attributes hbefore hsrc htarget
    (by decide +kernel) (by decide +kernel) (by decide +kernel)).trans (by decide +kernel)

/-- A value that hides a source keeps the tag from being pointed at the module, one that hides a
type loses text, and a stylesheet link that begins in a value takes the tag away. -/
theorem linkModules_misreads_values :
    let target := moduleStart ++ "AAAA"
    let table : Fields Text := [("app.js", target)]
    let src : Attribute := { name := Text.toList "src", value := Text.toList "app.js" }
    let withSrc : Attribute := { name := Text.toList "data-x", value := Text.toList "a src=b" }
    let withType : Attribute := {
      name := Text.toList "data-x", value := Text.toList "a type=b c" }
    let withLink : Attribute := {
      name := Text.toList "data-x", value := Text.toList "<link rel=stylesheet" }
    let linked (a : Attribute) := linkModules (Text.ofList (scriptTag (written [a, src]))) table
    moduleFor? table src.value = some target ∧
    (∀ a ∈ [withSrc, withType, withLink], linked a ≠ "<script type=\"module\" src=\"" ++ target ++
      "\"" ++ Text.ofList (written [a]) ++ ">") ∧
    linked withSrc = "<script data-x=\"a src=b\" src=\"app.js\">" ∧
    linked withType =
      "<script type=\"module\" src=\"data:text/javascript;base64,AAAA\" data-x=\"a c\">" ∧
    linked withLink = "<script data-x=\"" := by
  decide +kernel

end Markup
end LiveCanvas
