import LiveCanvas.Text.Encoding
import LiveCanvas.Text.Quoted

/-!
# SHA-256

The digest of a text is that of its bytes, in sixty-four small hexadecimal digits.  The bytes
are padded to whole blocks of sixty-four; each block is spread over sixty-four words and mixed into
a state of eight.
-/

namespace LiveCanvas
namespace Sha256

/-- Eight words of thirty-two bits. -/
structure State where
  a : UInt32
  b : UInt32
  c : UInt32
  d : UInt32
  e : UInt32
  f : UInt32
  g : UInt32
  h : UInt32

/-- The state before the first block. -/
def initial : State :=
  ⟨0x6a09e667, 0xbb67ae85, 0x3c6ef372, 0xa54ff53a,
    0x510e527f, 0x9b05688c, 0x1f83d9ab, 0x5be0cd19⟩

/-- One constant for each of the sixty-four rounds. -/
def roundConstants : Array UInt32 :=
  #[
    0x428a2f98, 0x71374491, 0xb5c0fbcf, 0xe9b5dba5, 0x3956c25b, 0x59f111f1,
    0x923f82a4, 0xab1c5ed5, 0xd807aa98, 0x12835b01, 0x243185be, 0x550c7dc3,
    0x72be5d74, 0x80deb1fe, 0x9bdc06a7, 0xc19bf174, 0xe49b69c1, 0xefbe4786,
    0x0fc19dc6, 0x240ca1cc, 0x2de92c6f, 0x4a7484aa, 0x5cb0a9dc, 0x76f988da,
    0x983e5152, 0xa831c66d, 0xb00327c8, 0xbf597fc7, 0xc6e00bf3, 0xd5a79147,
    0x06ca6351, 0x14292967, 0x27b70a85, 0x2e1b2138, 0x4d2c6dfc, 0x53380d13,
    0x650a7354, 0x766a0abb, 0x81c2c92e, 0x92722c85, 0xa2bfe8a1, 0xa81a664b,
    0xc24b8b70, 0xc76c51a3, 0xd192e819, 0xd6990624, 0xf40e3585, 0x106aa070,
    0x19a4c116, 0x1e376c08, 0x2748774c, 0x34b0bcb5, 0x391c0cb3, 0x4ed8aa4a,
    0x5b9cca4f, 0x682e6ff3, 0x748f82ee, 0x78a5636f, 0x84c87814, 0x8cc70208,
    0x90befffa, 0xa4506ceb, 0xbef9a3f7, 0xc67178f2]

/-- Rotation to the right. -/
def rotate (x count : UInt32) : UInt32 :=
  (x >>> count) ||| (x <<< (32 - count))

/-- The bytes, a mark, zeros, and the length in bits, in whole blocks. -/
def pad (message : ByteArray) : ByteArray :=
  -- one byte of mark and eight of length close the last block
  let zeros := (119 - message.size % 64) % 64
  let marked := zeros.fold (fun _ _ bytes => bytes.push 0) (message.push 0x80)
  let bits := 8 * message.size
  Nat.fold 8 (fun i _ bytes => bytes.push (bits >>> (8 * (7 - i))).toUInt8) marked

/-- The byte at a place, zero beyond the end. -/
def byteAt (bytes : ByteArray) (i : Nat) : UInt32 :=
  if h : i < bytes.size then bytes[i].toUInt32 else 0

/-- Four bytes as a word, the first one highest. -/
def wordAt (bytes : ByteArray) (i : Nat) : UInt32 :=
  (byteAt bytes i <<< 24) ||| (byteAt bytes (i + 1) <<< 16) ||| (byteAt bytes (i + 2) <<< 8) |||
    byteAt bytes (i + 3)

/-- The word at a place, zero beyond the end. -/
def entry (words : Array UInt32) (i : Nat) : UInt32 :=
  words[i]?.getD 0

/-- The next word of a schedule, from four earlier ones. -/
def nextWord (words : Array UInt32) (i : Nat) : UInt32 :=
  let x := entry words (i - 15)
  let y := entry words (i - 2)
  let near := rotate x 7 ^^^ rotate x 18 ^^^ (x >>> 3)
  let far := rotate y 17 ^^^ rotate y 19 ^^^ (y >>> 10)
  entry words (i - 16) + near + entry words (i - 7) + far

/-- The sixty-four words of the block that starts at a place. -/
def schedule (bytes : ByteArray) (start : Nat) : Array UInt32 :=
  let first := Array.ofFn fun i : Fin 16 => wordAt bytes (start + 4 * i)
  Nat.fold 48 (fun i _ words => words.push (nextWord words (16 + i))) first

/-- One round with its word and constant together. -/
def State.round (s : State) (input : UInt32) : State :=
  let high := rotate s.e 6 ^^^ rotate s.e 11 ^^^ rotate s.e 25
  let choice := (s.e &&& s.f) ^^^ (~~~s.e &&& s.g)
  let first := s.h + high + choice + input
  let low := rotate s.a 2 ^^^ rotate s.a 13 ^^^ rotate s.a 22
  let majority := (s.a &&& s.b) ^^^ (s.a &&& s.c) ^^^ (s.b &&& s.c)
  ⟨first + low + majority, s.a, s.b, s.c, s.d + first, s.e, s.f, s.g⟩

/-- The sum of two states, word by word. -/
def State.add (s t : State) : State :=
  ⟨s.a + t.a, s.b + t.b, s.c + t.c, s.d + t.d, s.e + t.e, s.f + t.f, s.g + t.g, s.h + t.h⟩

/-- Mixes the block that starts at a place into the state. -/
def mix (bytes : ByteArray) (start : Nat) (s : State) : State :=
  let words := schedule bytes start
  s.add (Nat.fold 64 (fun i _ t => t.round (entry roundConstants i + entry words i)) s)

/-- The state after the last block. -/
def digest (message : ByteArray) : State :=
  let bytes := pad message
  Nat.fold (bytes.size / 64) (fun i _ s => mix bytes (64 * i) s) initial

/-- The words of a state in order. -/
def State.words (s : State) : List UInt32 :=
  [s.a, s.b, s.c, s.d, s.e, s.f, s.g, s.h]

/-- The digest of a text. -/
def hex (s : Text) : Text :=
  Text.ofList ((digest ⟨s.utf8.toArray⟩).words.flatMap fun w => Text.hexPadded 8 w.toNat)

end Sha256
end LiveCanvas
