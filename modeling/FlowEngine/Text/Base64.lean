/-!
# Base64

Three octets become four letters of an alphabet of sixty-four; the last group is filled up with
equals signs.
-/

namespace FlowEngine.Text

def base64Letter (n : Nat) : Char :=
  if n < 26 then Char.ofNat (65 + n)
  else if n < 52 then Char.ofNat (97 + (n - 26))
  else if n < 62 then Char.ofNat (48 + (n - 52))
  else if n = 62 then '+'
  else '/'

def base64 : List Nat → List Char
  | [] => []
  | [a] => [base64Letter (a / 4), base64Letter (a % 4 * 16), '=', '=']
  | [a, b] =>
    [base64Letter (a / 4), base64Letter (a % 4 * 16 + b / 16), base64Letter (b % 16 * 4), '=']
  | a :: b :: c :: rest =>
    base64Letter (a / 4) :: base64Letter (a % 4 * 16 + b / 16) ::
      base64Letter (b % 16 * 4 + c / 64) :: base64Letter (c % 64) :: base64 rest

def base64Value? (c : Char) : Option Nat :=
  if c.isUpper then some (c.toNat - 65)
  else if c.isLower then some (c.toNat - 71)
  else if c.isDigit then some (c.toNat + 4)
  else if c == '+' then some 62
  else if c == '/' then some 63
  else none

/-- Decodes letters; padding and anything else that is no letter is passed over. -/
def decodeBase64 (s : List Char) : List Nat :=
  let rec groups : List Nat → List Nat
    | a :: b :: c :: d :: rest =>
      (a * 4 + b / 16) :: (b % 16 * 16 + c / 4) :: (c % 4 * 64 + d) :: groups rest
    | [a, b, c] => [a * 4 + b / 16, b % 16 * 16 + c / 4]
    | [a, b] => [a * 4 + b / 16]
    | _ => []
  groups (s.filterMap base64Value?)

end FlowEngine.Text
