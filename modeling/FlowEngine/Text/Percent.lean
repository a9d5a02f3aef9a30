import FlowEngine.Text.Utf8

/-!
# Percent coding

Characters outside of a safe set are written as their octets, each as a percent sign and two
hexadecimal digits. Reading takes every such triple back and leaves a percent sign that begins none.
-/

namespace FlowEngine.Text

def upperHexDigit (n : Nat) : Char := (Nat.digitChar n).toUpper

def percentOctet (octet : Nat) : List Char :=
  ['%', upperHexDigit (octet / 16 % 16), upperHexDigit (octet % 16)]

/-- Letters, digits and four marks that are never coded. -/
def isUnreserved (c : Char) : Bool :=
  c.isAlpha || c.isDigit || c == '_' || c == '.' || c == '-' || c == '~'

def percentEncode (safe : List Char) (s : String) : String :=
  String.ofList (s.toList.flatMap fun c =>
    if isUnreserved c || safe.contains c then [c]
    else (String.singleton c).toUTF8.toList.flatMap fun octet => percentOctet octet.toNat)

/-- Codes a part of a query, where a space is written as a plus sign. -/
def queryEncode (s : String) : String :=
  String.ofList ((percentEncode [' '] s).toList.map fun c => if c == ' ' then '+' else c)

def hexDigitValue? (c : Char) : Option Nat :=
  if c.isDigit then some (c.toNat - 48)
  else if 'a' ≤ c && c ≤ 'f' then some (c.toNat - 87)
  else if 'A' ≤ c && c ≤ 'F' then some (c.toNat - 55)
  else none

def percentOctets : List Char → List Nat
  | '%' :: a :: b :: rest =>
    match hexDigitValue? a, hexDigitValue? b with
    | some high, some low => (16 * high + low) :: percentOctets rest
    | _, _ => 37 :: percentOctets (a :: b :: rest)
  | c :: rest => c.toNat :: percentOctets rest
  | [] => []

/-- The runs of ASCII characters and of others in a text. -/
def asciiRuns (s : List Char) : List (List Char) :=
  s.foldr (fun c runs =>
    match runs with
    | (d :: run) :: rest =>
      if decide (c.toNat < 128) == decide (d.toNat < 128) then (c :: d :: run) :: rest
      else [c] :: (d :: run) :: rest
    | rest => [c] :: rest) []

/-- Reads a coded text. Octets that are no text become replacement characters. -/
def percentDecode (s : String) : String :=
  String.join ((asciiRuns s.toList).map fun run =>
    if run.all (·.toNat < 128) then decodeUtf8 (percentOctets run) else String.ofList run)

end FlowEngine.Text
