/-!
# Text as bytes

The bytes of a text in UTF-8, and the text that bytes stand for. Bytes that are no text can be read
all the same, with a replacement character for each part that makes no sense.
-/

namespace PromptPipeline.Text

/-- The bytes of a text. -/
def utf8Bytes (s : String) : List UInt8 :=
  s.toUTF8.toList

/-- The text that the bytes stand for, if they are text. -/
def ofUtf8? (bytes : List UInt8) : Option String :=
  String.fromUTF8? ⟨bytes.toArray⟩

/-- The character that stands for what makes no sense. -/
def replacement : Char := Char.ofNat 0xFFFD

/-- Whether a byte continues a character. -/
def continues (b : UInt8) : Bool :=
  0x80 ≤ b && b < 0xC0

/-- The number of bytes of a character with this first byte, the bits that the first byte has of
it, and the range of its second byte; nothing if no character starts so. -/
def leadByte? (b : UInt8) : Option (Nat × Nat × UInt8 × UInt8) :=
  let n := b.toNat
  if n < 0x80 then some (1, n, 0, 0)
  else if n < 0xC2 then none
  else if n < 0xE0 then some (2, n - 0xC0, 0x80, 0xBF)
  else if n < 0xF0 then
    some (3, n - 0xE0, if n = 0xE0 then 0xA0 else 0x80, if n = 0xED then 0x9F else 0xBF)
  else if n < 0xF5 then
    some (4, n - 0xF0, if n = 0xF0 then 0x90 else 0x80, if n = 0xF4 then 0x8F else 0xBF)
  else none

/-- Reads the other bytes of a character: the character and what follows, or what follows the
part that makes sense. -/
def readTail (low high : UInt8) (code : Nat) : (count : Nat) → List UInt8 → Char × List UInt8
  | 0, rest => (Char.ofNat code, rest)
  | _ + 1, [] => (replacement, [])
  | count + 1, b :: rest =>
    if low ≤ b ∧ b ≤ high then readTail 0x80 0xBF (code * 64 + (b.toNat - 0x80)) count rest
    else (replacement, b :: rest)

theorem length_readTail_le (low high : UInt8) (code count : Nat) (bytes : List UInt8) :
    (readTail low high code count bytes).2.length ≤ bytes.length := by
  induction count generalizing low high code bytes with
  | zero => simp [readTail]
  | succ count ih =>
    cases bytes with
    | nil => simp [readTail]
    | cons b rest =>
      simp only [readTail]
      split
      · exact Nat.le_trans (ih ..) (by simp)
      · simp

/-- The text that bytes stand for, with a replacement for each part that makes no sense. -/
def ofUtf8Lossy (bytes : List UInt8) : List Char :=
  match bytes with
  | [] => []
  | b :: rest =>
    match leadByte? b with
    | none => replacement :: ofUtf8Lossy rest
    | some (count, bits, low, high) =>
      let read := readTail low high bits (count - 1) rest
      read.1 :: ofUtf8Lossy read.2
termination_by bytes.length
decreasing_by
  · simp
  · have := length_readTail_le low high bits (count - 1) rest
    simp only [List.length_cons]
    omega

end PromptPipeline.Text
