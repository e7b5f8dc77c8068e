import LiveCanvas.Fields
import LiveCanvas.Text.Blank
import LiveCanvas.Text.LowerCase
import LiveCanvas.Text.Word

/-!
# Markup of a page

The root of a preview may be a markup file.  Its stylesheet links are dropped, because the styles
stand in the page already, and a script tag whose source is one of the modules is pointed at that
module.  A tag ends at the first `>` after its name; the names of tags and attributes are read
without regard to case.
-/

namespace LiveCanvas
namespace Markup

/-- What follows a word at the start of the text; case does not matter. -/
def afterWord? : List Rune → List Rune → Option (List Rune)
  | [], cs => some cs
  | letter :: word, c :: cs => if Text.matchesLetter letter c then afterWord? word cs else none
  | _ :: _, [] => none

/-- The characters before the first `>` and those after it. -/
def tagEnd? : List Rune → Option (List Rune × List Rune)
  | [] => none
  | c :: cs =>
    if c == '>' then some ([], cs)
    else (tagEnd? cs).map fun (inside, after) => (c :: inside, after)

/-- A tag as it was found. -/
structure Tag where
  /-- The bracket and the name as they are written. -/
  opening : List Rune
  /-- What stands between the name and the closing bracket. -/
  body : List Rune
deriving DecidableEq, Repr

/-- The tag as it is written. -/
def Tag.text (tag : Tag) : List Rune :=
  tag.opening ++ tag.body ++ [Rune.char '>']

/-- The tag with a name that begins here, and what follows it. -/
def tag? (name : List Rune) (cs : List Rune) : Option (Tag × List Rune) :=
  match cs with
  | .char '<' :: rest =>
    match afterWord? name rest with
    | some (c :: body) =>
      if Text.isWord c then none
      else (tagEnd? (c :: body)).map fun (inside, after) =>
        (⟨cs.take (name.length + 1), inside⟩, after)
    | _ => none
  | _ => none

/-- Puts other text in the place of the tags with a name.  `rule` sees what a tag holds and gives
none where the tag is to stay; no tag is looked into again. -/
def replaceTagsIn (name : List Rune) (rule : List Rune → Option (List Rune)) :
    Nat → List Rune → List Rune
  | 0, cs => cs
  | _ + 1, [] => []
  | fuel + 1, c :: cs =>
    match tag? name (c :: cs) with
    | some (tag, after) => (rule tag.body).getD tag.text ++ replaceTagsIn name rule fuel after
    | none => c :: replaceTagsIn name rule fuel cs

/-- Puts other text in the place of the tags with a name. -/
def replaceTags (name : Text) (rule : List Rune → Option (List Rune)) (cs : List Rune) :
    List Rune :=
  replaceTagsIn name.toList rule cs.length cs

/-- What follows an equals sign that may have blanks around it. -/
def afterEquals? (cs : List Rune) : Option (List Rune) :=
  match cs.dropWhile Text.isBlank with
  | .char '=' :: rest => some (rest.dropWhile Text.isBlank)
  | _ => none

/-- The text without a quote at its start. -/
def dropQuote : List Rune → List Rune
  | .char '"' :: rest => rest
  | .char '\'' :: rest => rest
  | cs => cs

/-- The text begins with `rel=stylesheet`, in any of its spellings. -/
def startsStylesheet (cs : List Rune) : Bool :=
  ((afterWord? (Text.toList "rel") cs).bind afterEquals?).any fun value =>
    (afterWord? (Text.toList "stylesheet") (dropQuote value)).isSome

/-- A link names a stylesheet at a place that no word runs into.  `inWord` tells whether one runs
into the first character. -/
def linksStylesheet (inWord : Bool) : List Rune → Bool
  | [] => false
  | c :: cs => (!inWord && startsStylesheet (c :: cs)) || linksStylesheet (Text.isWord c) cs

/-- The markup without its stylesheet links. -/
def dropStylesheets (cs : List Rune) : List Rune :=
  replaceTags "link" (fun body => if linksStylesheet true body then some [] else none) cs

/-- A value up to a closing quote, and what follows that. -/
def quotedValue? (quote : Rune) (cs : List Rune) : Option (List Rune × List Rune) :=
  match cs.span (· != quote) with
  | (value, _ :: rest) => some (value, rest)
  | (_, []) => none

/-- A value without quotes. -/
def bareValue? (cs : List Rune) : Option (List Rune × List Rune) :=
  match cs.span fun c => !Text.isBlank c && c != '>' with
  | ([], _) => none
  | (value, rest) => some (value, rest)

/-- The value of an attribute, and what follows it.  A quote that is never closed belongs to a value
without quotes. -/
def value? (cs : List Rune) : Option (List Rune × List Rune) :=
  let closed := match cs with
    | .char '"' :: rest => quotedValue? '"' rest
    | .char '\'' :: rest => quotedValue? '\'' rest
    | _ => none
  match closed with
  | some found => some found
  | none => bareValue? cs

/-- The attribute with a name that begins here, after blanks, unless a name runs into it: its
value, and what follows it. -/
def attribute? (name : List Rune) (before : Option Rune) (cs : List Rune) :
    Option (List Rune × List Rune) :=
  -- blanks before the name belong to the attribute, and nothing runs into a blank
  let runsOn := match cs with
    | c :: _ => !Text.isBlank c && before.any Text.isNameChar
    | [] => true
  if runsOn then none
  else ((afterWord? name (cs.dropWhile Text.isBlank)).bind afterEquals?).bind value?

/-- An attribute that was found. -/
structure Found where
  value : List Rune
  before : List Rune
  after : List Rune
deriving DecidableEq, Repr

/-- The first attribute with a name. -/
def findAttribute? (name : List Rune) (before : Option Rune) : List Rune → Option Found
  | [] => none
  | c :: cs =>
    match attribute? name before (c :: cs) with
    | some (value, after) => some ⟨value, [], after⟩
    | none =>
      (findAttribute? name (some c) cs).map fun found => { found with before := c :: found.before }

/-- The attributes without those of a name. -/
def dropAttributes (name : List Rune) : Nat → List Rune → List Rune
  | 0, cs => cs
  | fuel + 1, cs =>
    match findAttribute? name none cs with
    | some found => found.before ++ dropAttributes name fuel found.after
    | none => cs

/-- How the address of every module begins. -/
def moduleStart : Text := "data:text/javascript;base64,"

/-- The address as a name in the table: without one `./` or `/` at its start. -/
def bareName : List Rune → List Rune
  | .char '.' :: .char '/' :: rest => rest
  | .char '/' :: rest => rest
  | cs => cs

/-- The module that a script address means: the first of its spellings that the table leads to a
module. -/
def moduleFor? (table : Fields Text) (address : List Rune) : Option Text :=
  let bare := bareName address
  [address, bare, .char '.' :: .char '/' :: bare].findSome? fun name =>
    (table.get? (Text.ofList name)).filter fun target =>
      moduleStart.toList.isPrefixOf target.toList

/-- A script tag around other attributes. -/
def scriptTag (attributes : List Rune) : List Rune :=
  (Text.toList "<script") ++ attributes ++ [Rune.char '>']

/-- A script tag, given what it holds: pointed at the module that its source means, if there is
one. -/
def linkScript (table : Fields Text) (body : List Rune) : Option (List Rune) :=
  (findAttribute? (Text.toList "src") none body).bind fun found =>
    (moduleFor? table found.value).map fun target =>
      -- the new tag says itself what type it has
      let others := found.before ++ found.after
      let kept := Text.dropEndWhile Text.isBlank
        (dropAttributes (Text.toList "type") others.length others)
      scriptTag (Text.toList " type=\"module\" src=\"" ++ target.toList ++ Rune.char '"' :: kept)

/-- The markup of a page: stylesheet links dropped and scripts pointed at modules. -/
def linkModules (markup : Text) (table : Fields Text) : Text :=
  Text.ofList (replaceTags "script" (linkScript table) (dropStylesheets markup.toList))

example : linkModules "<link rel=stylesheet href=a.css><p>" [] = "<p>" := by decide +kernel

example : linkModules "<script src='./a.js' defer>" [("a.js", moduleStart)] =
    "<script type=\"module\" src=\"data:text/javascript;base64,\" defer>" := by
  decide +kernel

end Markup
end LiveCanvas
