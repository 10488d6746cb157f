import PacketLayer.Bytes

/-!
# Text in UTF-8

Writing text yields its UTF-8 octets. Reading never fails: each longest run of
octets that begins a character but does not complete one, and each octet that
begins none, is read as the replacement character.
-/

namespace PacketLayer.Text.Utf8

/-- The octets of a text. -/
def encode (text : String) : Bytes :=
  text.toList.flatMap String.utf8EncodeChar

/-- The character that stands for octets that are not text. -/
def replacement : Char := '\uFFFD'

/-- The character that a string of octets begins with, if it begins with one. -/
def first? (bytes : Bytes) : Option Char :=
  (bytes.take 4).toByteArray.utf8DecodeChar? 0

/-- Whether an octet can follow within a character. -/
def isContinuation (byte : UInt8) : Bool :=
  0x80 ≤ byte && byte ≤ 0xBF

/-- Whether an octet can be the second of a character of three or four octets
that begins with `lead`. -/
def isSecond (lead second : UInt8) : Bool :=
  if lead == 0xE0 then 0xA0 ≤ second && second ≤ 0xBF
  else if lead == 0xED then 0x80 ≤ second && second ≤ 0x9F
  else if lead == 0xF0 then 0x90 ≤ second && second ≤ 0xBF
  else if lead == 0xF4 then 0x80 ≤ second && second ≤ 0x8F
  else if 0xE1 ≤ lead && lead ≤ 0xF3 then isContinuation second
  else false

/-- How many octets after `lead` belong to the character that is begun but not
completed. -/
def brokenTail (lead : UInt8) : Bytes → Nat
  | second :: rest =>
      if isSecond lead second then
        match rest with
        | third :: _ => if 0xF0 ≤ lead && isContinuation third then 2 else 1
        | [] => 1
      else 0
  | [] => 0

/-- The characters of a string of octets. -/
def decode : Bytes → List Char
  | [] => []
  | lead :: rest =>
      match first? (lead :: rest) with
      | some c => c :: decode (rest.drop (c.utf8Size - 1))
      | none => replacement :: decode (rest.drop (brokenTail lead rest))
  termination_by bytes => bytes.length
  decreasing_by
    all_goals
      rw [List.length_drop, List.length_cons]
      omega

/-- The text read from a string of octets. -/
def read (bytes : Bytes) : String :=
  String.ofList (decode bytes)

end PacketLayer.Text.Utf8
