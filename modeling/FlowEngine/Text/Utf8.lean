/-!
# Octets to text

Octets that are no UTF-8 do not fail: each longest run of octets that could have begun a character
becomes one replacement character.
-/

namespace FlowEngine.Text

/-- The number of tail octets that follow a first octet, the range allowed for the first of them,
and the bits that the first octet contributes. -/
def leadOctet? (b : Nat) : Option (Nat × Nat × Nat × Nat) :=
  if 0xC2 ≤ b && b ≤ 0xDF then some (1, 0x80, 0xBF, b - 0xC0)
  else if b = 0xE0 then some (2, 0xA0, 0xBF, 0)
  else if b = 0xED then some (2, 0x80, 0x9F, 0xD)
  else if 0xE1 ≤ b && b ≤ 0xEF then some (2, 0x80, 0xBF, b - 0xE0)
  else if b = 0xF0 then some (3, 0x90, 0xBF, 0)
  else if b = 0xF4 then some (3, 0x80, 0x8F, 4)
  else if 0xF1 ≤ b && b ≤ 0xF3 then some (3, 0x80, 0xBF, b - 0xF0)
  else none

/-- Decodes octets. The second argument holds the character that is being read: how many tail octets
are missing, the range of the next one and the bits so far. -/
def decodeUtf8From : List Nat → Option (Nat × Nat × Nat × Nat) → List Char
  | [], none => []
  | [], some _ => ['\ufffd']
  | b :: rest, none =>
    if b < 0x80 then Char.ofNat b :: decodeUtf8From rest none
    else
      match leadOctet? b with
      | some lead => decodeUtf8From rest (some lead)
      | none => '\ufffd' :: decodeUtf8From rest none
  | b :: rest, some (missing, low, high, bits) =>
    if low ≤ b && b ≤ high then
      let bits := bits * 64 + (b - 0x80)
      if missing ≤ 1 then Char.ofNat bits :: decodeUtf8From rest none
      else decodeUtf8From rest (some (missing - 1, 0x80, 0xBF, bits))
    else if b < 0x80 then '\ufffd' :: Char.ofNat b :: decodeUtf8From rest none
    else
      match leadOctet? b with
      | some lead => '\ufffd' :: decodeUtf8From rest (some lead)
      | none => '\ufffd' :: '\ufffd' :: decodeUtf8From rest none

def decodeUtf8 (octets : List Nat) : String := String.ofList (decodeUtf8From octets none)

end FlowEngine.Text
