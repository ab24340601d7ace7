/-!
Request targets: a path and the parameters after the question mark.
-/
namespace TenderPricing
namespace Service

def hexDigit? (b : UInt8) : Option UInt8 :=
  if 48 ≤ b && b ≤ 57 then some (b - 48)
  else if 65 ≤ b && b ≤ 70 then some (b - 55)
  else if 97 ≤ b && b ≤ 102 then some (b - 87)
  else none

/-- Replaces every percent sign with two hexadecimal digits by the byte that they name. -/
def unescapeBytes : List UInt8 → List UInt8
  | 37 :: a :: b :: rest => match hexDigit? a, hexDigit? b with
    | some high, some low => (high * 16 + low) :: unescapeBytes rest
    | _, _ => 37 :: unescapeBytes (a :: b :: rest)
  | byte :: rest => byte :: unescapeBytes rest
  | [] => []

/-- The text that an escaped text stands for; escapes that name no character stay as they are. -/
def unescape (s : String) : String :=
  (String.fromUTF8? (ByteArray.mk (unescapeBytes s.toUTF8.toList).toArray)).getD s

/-- In parameters a plus sign is a space. -/
def unescapeParameter (s : String) : String :=
  unescape (String.ofList (s.toList.map fun c => if c = '+' then ' ' else c))

structure Target where
  path : String
  parameters : List (String × String)
  deriving Repr

/-- What stands before the first of some character, and what stands after it. -/
def cut (c : Char) (s : String) : String × Option String :=
  let chars := s.toList
  let before := String.ofList (chars.takeWhile (· != c))
  match chars.dropWhile (· != c) with
  | [] => (before, none)
  | _ :: after => (before, some (String.ofList after))

def readParameter (s : String) : String × String :=
  let (name, value) := cut '=' s
  (unescapeParameter name, unescapeParameter (value.getD ""))

namespace Target

def ofString (s : String) : Target :=
  let (path, query) := cut '?' (cut '#' s).1
  let pairs := ((query.getD "").splitOn "&").filter (· != "")
  ⟨unescape path, pairs.map readParameter⟩

/-- The value of a parameter; of several the last. -/
def parameter? (t : Target) (name : String) : Option String :=
  t.parameters.reverse.lookup name

end Target

end Service
end TenderPricing
