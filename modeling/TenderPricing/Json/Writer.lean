import TenderPricing.Json.Value
/-!
Writing of JSON text.

Text is kept as it is but for quotes, backslashes and control characters, so a line of the journal
or an answer holds the characters that it speaks of.  Numbers are written as `floatText` writes
them; the infinities and NaN have words of their own.
-/
namespace TenderPricing
namespace Json

/-- The two lowest hexadecimal digits of a number. -/
def hexPair (n : Nat) : List Char := [Nat.digitChar (n / 16 % 16), Nat.digitChar (n % 16)]

def escapeChar (c : Char) : List Char :=
  match c with
  | '"' => ['\\', '"']
  | '\\' => ['\\', '\\']
  | '\n' => ['\\', 'n']
  | '\r' => ['\\', 'r']
  | '\t' => ['\\', 't']
  | '\x08' => ['\\', 'b']
  | '\x0c' => ['\\', 'f']
  | c => if c.toNat < 32 then ['\\', 'u', '0', '0'] ++ hexPair c.toNat else [c]

def writeString (s : String) : String :=
  String.ofList ('"' :: s.toList.flatMap escapeChar ++ ['"'])

def writeFloat (x : Float) : String :=
  if x.isNaN then "NaN"
  else if x.isInf then (if x < 0.0 then "-Infinity" else "Infinity")
  else Number.floatText x

mutual

def write : Json → String
  | null => "null"
  | bool true => "true"
  | bool false => "false"
  | int n => toString n
  | float x => writeFloat x
  | string s => writeString s
  | array elements => "[" ++ writeElements elements ++ "]"
  | object members => "\x7b" ++ writeMembers members ++ "\x7d"

def writeElements : List Json → String
  | [] => ""
  | [v] => write v
  | v :: rest => write v ++ ", " ++ writeElements rest

def writeMembers : List (String × Json) → String
  | [] => ""
  | [(key, v)] => writeString key ++ ": " ++ write v
  | (key, v) :: rest => writeString key ++ ": " ++ write v ++ ", " ++ writeMembers rest

end

end Json
end TenderPricing
