/-!
Reading bytes as UTF-8. A text is refused at the first byte sequence that is no character; the
refusal names the bytes, from the lead byte up to the longest part that could still have become a
character, and the reason.
-/

namespace ExprFront.Text

/-- Why a byte sequence is no character. -/
inductive Utf8Reason where
  /-- No character starts with this byte. -/
  | invalidStart
  /-- The next byte cannot continue the character. -/
  | invalidContinuation
  /-- The bytes end inside the character. -/
  | endOfData
  deriving DecidableEq, Repr

/-- A refused byte sequence: its lead byte, the position of that byte, the number of bytes and the
reason. -/
structure Utf8Error where
  lead : UInt8
  position : Nat
  length : Nat
  reason : Utf8Reason
  deriving DecidableEq, Repr

/-- The words for a reason. -/
def Utf8Reason.message : Utf8Reason → String
  | .invalidStart => "invalid start byte"
  | .invalidContinuation => "invalid continuation byte"
  | .endOfData => "unexpected end of data"

/-- The words for a refused sequence; one byte is named by its value, several by their positions. -/
def Utf8Error.message (e : Utf8Error) : String :=
  let bytes :=
    if e.length = 1 then
      "byte 0x" ++ (if e.lead < 16 then "0" else "")
        ++ String.ofList (Nat.toDigits 16 e.lead.toNat) ++ " in position " ++ toString e.position
    else
      "bytes in position " ++ toString e.position ++ "-" ++ toString (e.position + e.length - 1)
  "'utf-8' codec can't decode " ++ bytes ++ ": " ++ e.reason.message

/-- What the lead byte of a character promises: how many bytes follow, the payload bits of the lead
byte, and the range of the byte that comes next. The range leaves out overlong forms, surrogates and
code points beyond the last. -/
structure Utf8Lead where
  following : Nat
  payload : Nat
  low : Nat
  high : Nat

/-- The promise of a lead byte, if it is one. -/
def utf8Lead? (b : Nat) : Option Utf8Lead :=
  if b < 0x80 then some ⟨0, b, 0x80, 0xBF⟩
  else if b < 0xC2 then none
  else if b < 0xE0 then some ⟨1, b - 0xC0, 0x80, 0xBF⟩
  else if b < 0xF0 then
    some ⟨2, b - 0xE0, if b = 0xE0 then 0xA0 else 0x80, if b = 0xED then 0x9F else 0xBF⟩
  else if b < 0xF5 then
    some ⟨3, b - 0xF0, if b = 0xF0 then 0x90 else 0x80, if b = 0xF4 then 0x8F else 0xBF⟩
  else none

/-- Reads `n` further bytes of a character, the next one between `low` and `high`, the others
between `0x80` and `0xBF`. A refusal tells how many bytes fitted. -/
def utf8Follow : (n low high payload fitted : Nat) → List UInt8 →
    Except (Nat × Utf8Reason) Nat
  | 0, _, _, payload, _, _ => .ok payload
  | _ + 1, _, _, _, fitted, [] => .error (fitted, .endOfData)
  | n + 1, low, high, payload, fitted, b :: rest =>
    if low ≤ b.toNat && b.toNat ≤ high then
      utf8Follow n 0x80 0xBF (payload * 64 + (b.toNat - 0x80)) (fitted + 1) rest
    else .error (fitted, .invalidContinuation)

/-- Reads bytes from the given position on; the first `skip` of them belong to the character before
and are passed over. -/
def decodeUtf8From (position skip : Nat) : List UInt8 → Except Utf8Error (List Char)
  | [] => .ok []
  | b :: rest =>
    match skip with
    | skip + 1 => decodeUtf8From (position + 1) skip rest
    | 0 =>
      match utf8Lead? b.toNat with
      | none => .error ⟨b, position, 1, .invalidStart⟩
      | some lead =>
        match utf8Follow lead.following lead.low lead.high lead.payload 1 rest with
        | .error (fitted, reason) => .error ⟨b, position, fitted, reason⟩
        | .ok code =>
          match decodeUtf8From (position + 1) lead.following rest with
          | .error e => .error e
          | .ok cs => .ok (Char.ofNat code :: cs)

/-- Reads bytes as UTF-8. -/
def decodeUtf8 (bytes : List UInt8) : Except Utf8Error (List Char) := decodeUtf8From 0 0 bytes

end ExprFront.Text
