import FlowEngine.Outside.Site
import FlowEngine.Script.Runner

/-!
# An outside without services

Where no service can be reached, every request is told so. Time stands still, and ids are drawn from a
generator of random numbers.
-/

namespace FlowEngine

/-- An instant that stays, and where the next id comes from. -/
structure Alone where
  now : Instant
  generator : StdGen

namespace Alone

/-- So many lower-case hexadecimal digits of a number, the last ones. -/
def hexDigits : Nat → Nat → List Char
  | 0, _ => []
  | width + 1, n => hexDigits width (n / 16) ++ [Nat.digitChar (n % 16)]

def draw (bits : Nat) (generator : StdGen) : Nat × StdGen :=
  randNat generator 0 (Nat.pow 2 bits - 1)

def idText (a b c d e : Nat) : String :=
  let group (width n : Nat) : String := String.ofList (hexDigits width n)
  "-".intercalate [group 8 a, group 4 b, group 4 (0x4000 + c % 0x1000),
    group 4 (0x8000 + d % 0x4000), group 12 e]

def freshId (alone : Alone) : String × Alone :=
  let (a, generator) := draw 32 alone.generator
  let (b, generator) := draw 16 generator
  let (c, generator) := draw 12 generator
  let (d, generator) := draw 14 generator
  let (e, generator) := draw 48 generator
  (idText a b c d e, { alone with generator })

def unavailable : String := "not available"

def outside : Outside Alone where
  send _ alone := (.transport "ConnectError" unavailable, alone)
  readAddress := Database.Address.read
  connect _ alone := (.ok (), alone)
  statement _ _ alone := (.refused unavailable, alone)
  disconnect _ alone := alone
  complete _ alone := (.broken unavailable, alone)
  script _ _ _ alone := (⟨0, [], .ok (.failed (.text unavailable))⟩, alone)
  pause _ alone := (false, alone)
  now alone := (alone.now, alone)
  freshId := freshId
  consult _ alone := (.ok .null, alone)

def children : Script.Children Alone where
  write _ alone := (.done, alone)
  spawn _ _ alone := (.noInterpreter, alone)
  kill alone := alone
  remove _ alone := (.removed, alone)

end Alone

end FlowEngine
