import LiveCanvas.Text.Cut

/-!
# Switches and places

The words of a command line are switches, which start with a dash and may take a value, and plain
words, which fill places.  They may be mixed.  A long switch may be shortened as long as only one is
meant, and a value may be joined to its switch.  After `--` every word is plain.
-/

namespace LiveCanvas
namespace CommandLine

/-- A switch of a command. -/
structure Switch where
  /-- All spellings. -/
  names : List Text
  takesValue : Bool := false
deriving DecidableEq, Repr

/-- The switch that every command has: it asks for help. -/
def Switch.help : Switch := ⟨["-h", "--help"], false⟩

/-- Why a command line is not carried out. -/
inductive Halt
  /-- Help was asked for. -/
  | help
  /-- The words do not fit the command. -/
  | usage
deriving DecidableEq, Repr

/-- What a word is. -/
inductive Word
  /-- A plain word. -/
  | plain
  /-- The first `--`. -/
  | divider
  /-- A switch by one of its names, with a value that is joined to it. -/
  | switch (s : Switch) (name : Text) (joined : Option Text)
  /-- It looks like a switch and is none. -/
  | unknown
deriving DecidableEq, Repr

/-- The word stands for something that a switch cannot take as its value. -/
def Word.isPlain : Word → Bool
  | plain => true
  | _ => false

namespace Switch

/-- The switch with this name. -/
def named? (switches : List Switch) (name : Text) : Option Switch :=
  switches.find? fun s => s.names.contains name

/-- The spellings of switches that start like this, each with its switch. -/
def startingWith (switches : List Switch) (start : List Rune) : List (Switch × Text) :=
  switches.flatMap fun s =>
    (s.names.filter fun name => start.isPrefixOf name.toList).map fun name => (s, name)

/-- A text before the first equals sign, and what stands after the sign. -/
def cutValue (cs : List Rune) : List Rune × Option (List Rune) :=
  match cs.span (· != .char '=') with
  | (before, []) => (before, none)
  | (before, _ :: after) => (before, some after)

/-- A word that starts with one dash: the short switch with the rest joined to it, or any switch
that it shortens. -/
def shortMeanings (switches : List Switch) (cs : List Rune) : List Word :=
  let short := Text.ofList (cs.take 2)
  switches.flatMap fun s => s.names.filterMap fun name =>
    if name = short then some (.switch s name (some (Text.ofList (cs.drop 2))))
    else if cs.isPrefixOf name.toList then some (.switch s name none)
    else none

/-- A word that starts with two dashes: every switch that it shortens. -/
def longMeanings (switches : List Switch) (cs : List Rune) : List Word :=
  let (start, value) := cutValue cs
  (startingWith switches start).map fun (s, name) => .switch s name (value.map Text.ofList)

/-- A negative number, which is a plain word. -/
def isNegativeNumber (cs : List Rune) : Bool :=
  match cs with
  | .char '-' :: rest =>
    match rest.span Rune.isDigit with
    | ([], .char '.' :: fraction) | (_ :: _, .char '.' :: fraction) =>
      !fraction.isEmpty && fraction.all Rune.isDigit
    | (_ :: _, []) => true
    | _ => false
  | _ => false

/-- What a word means that starts with a dash and is no whole name. -/
def looseMeaning (switches : List Switch) (cs : List Rune) : Except Halt Word :=
  let meanings :=
    if cs[1]? == some (.char '-') then longMeanings switches cs else shortMeanings switches cs
  match meanings with
  | [w] => .ok w
  -- no switch looks like a number, so a negative number is a plain word
  | [] => .ok (if isNegativeNumber cs || cs.contains ' ' then .plain else .unknown)
  | _ => .error .usage

/-- What a word means before any divider. -/
def meaning (switches : List Switch) (word : Text) : Except Halt Word :=
  let cs := word.toList
  if cs.head? != some (.char '-') then .ok .plain
  else match named? switches word with
    | some s => .ok (.switch s word none)
    | none =>
      if cs.length = 1 then .ok .plain
      else match cutValue cs with
        | (name, some value) =>
          match named? switches (Text.ofList name) with
          | some s => .ok (.switch s (Text.ofList name) (some (Text.ofList value)))
          | none => looseMeaning switches cs
        | _ => looseMeaning switches cs

/-- What each word means. -/
def meanings (switches : List Switch) : List Text → Except Halt (List (Word × Text))
  | [] => .ok []
  | word :: rest =>
    if word = "--" then .ok ((.divider, word) :: rest.map fun w => (.plain, w))
    else do
      let w ← meaning switches word
      let ws ← meanings switches rest
      return (w, word) :: ws

end Switch

/-- What a command line gives. -/
structure Reading where
  /-- The switches in order, each with its value. -/
  given : List (Switch × Option Text) := []
  /-- The plain words that fill places. -/
  places : List Text := []
  /-- There are words that fit nowhere. -/
  hasStrays : Bool := false
deriving DecidableEq, Repr

namespace Reading

/-- How often a switch is given. -/
def count (r : Reading) (name : Text) : Nat :=
  (r.given.filter fun g => g.1.names.contains name).length

/-- A switch is given. -/
def has (r : Reading) (name : Text) : Bool :=
  r.given.any fun g => g.1.names.contains name

/-- The value that a switch is given last. -/
def value? (r : Reading) (name : Text) : Option Text :=
  (r.given.reverse.find? fun g => g.1.names.contains name).bind (·.2)

/-- One more switch; the one for help ends the reading. -/
def give (r : Reading) (s : Switch) (value : Option Text) : Except Halt Reading :=
  if s = .help then .error .help else .ok { r with given := r.given ++ [(s, value)] }

/-- Switches without values that are joined behind one dash; the last one may take the rest as its
value. -/
def giveJoined (switches : List Switch) (r : Reading) (s : Switch) (name : Text) :
    List Rune → Except Halt Reading
  | [] => if s.takesValue then r.give s (some "") else .error .usage
  | c :: rest =>
    if s.takesValue then r.give s (some (Text.ofList (c :: rest)))
    else if name.toList[1]? == some (.char '-') || c == '-' then .error .usage
    else do
      let r ← r.give s none
      let nextName := Text.ofList ['-', c]
      match Switch.named? switches nextName with
      | none => throw .usage
      | some next =>
        if rest.isEmpty && !next.takesValue then r.give next none
        else if rest.isEmpty then throw .usage
        else giveJoined switches r next nextName rest

end Reading

/-- Takes the words in order.  `wanted` is the number of places to fill; `filled` tells that the
last word filled one, so that a divider after it goes with it. -/
def takeWords (switches : List Switch) (wanted : Nat) (filled : Bool) (r : Reading) :
    List (Word × Text) → Except Halt Reading
  | [] => .ok r
  | (.plain, word) :: rest =>
    match wanted with
    | 0 => takeWords switches 0 false { r with hasStrays := true } rest
    | wanted + 1 => takeWords switches wanted true { r with places := r.places ++ [word] } rest
  | (.divider, _) :: rest =>
    if filled || (0 < wanted && !rest.isEmpty) then takeWords switches wanted false r rest
    else takeWords switches wanted false { r with hasStrays := true } rest
  | (.unknown, _) :: rest => takeWords switches wanted false { r with hasStrays := true } rest
  | (.switch s name (some joined), _) :: rest => do
    let r ← r.giveJoined switches s name joined.toList
    takeWords switches wanted false r rest
  | (.switch s _ none, _) :: rest =>
    if s.takesValue then
      match rest with
      -- the value is the next word, whatever places are still to be filled
      | (.plain, word) :: rest => do
        let r ← r.give s (some word)
        takeWords switches wanted false r rest
      | _ => .error .usage
    else do
      let r ← r.give s none
      takeWords switches wanted false r rest

/-- The words of a command with so many places, all of which have to be filled. -/
def readWords (switches : List Switch) (places : Nat) (words : List Text) :
    Except Halt Reading := do
  let all := Switch.help :: switches
  let r ← takeWords all places false {} (← Switch.meanings all words)
  if r.places.length = places && !r.hasStrays then return r else throw .usage

/-- Takes switches up to the first plain word; it and the words after it are left. -/
def takeLeading (switches : List Switch) (r : Reading) :
    List (Word × Text) → Except Halt (Reading × List Text)
  | [] => .ok (r, [])
  | (.plain, word) :: rest => .ok (r, word :: rest.map (·.2))
  | (.divider, _) :: rest =>
    if rest.isEmpty then .ok ({ r with hasStrays := true }, []) else .ok (r, rest.map (·.2))
  | (.unknown, _) :: rest => takeLeading switches { r with hasStrays := true } rest
  | (.switch s name (some joined), _) :: rest => do
    let r ← r.giveJoined switches s name joined.toList
    takeLeading switches r rest
  | (.switch s _ none, _) :: rest =>
    if s.takesValue then
      match rest with
      | (.plain, value) :: rest => do
        let r ← r.give s (some value)
        takeLeading switches r rest
      | _ => .error .usage
    else do
      let r ← r.give s none
      takeLeading switches r rest

/-- The switches before the first plain word, and the words from there on. -/
def splitWords (switches : List Switch) (words : List Text) :
    Except Halt (Reading × List Text) := do
  let all := Switch.help :: switches
  takeLeading all {} (← Switch.meanings all words)

end CommandLine
end LiveCanvas
