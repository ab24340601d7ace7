import TenderPricing.Number.Notation
import TenderPricing.Text.Quoted
/-!
Untyped values: what a request body, a persisted step or a stored column may hold.

Whole numbers and doubles are told apart, texts are Unicode, and an object keeps its members in
order.
-/
namespace TenderPricing

inductive Json where
  | null
  | bool (b : Bool)
  | int (n : Int)
  | float (x : Float)
  | string (s : String)
  | array (elements : List Json)
  | object (members : List (String × Json))

namespace Json

instance : Inhabited Json := ⟨null⟩

mutual

def beq : Json → Json → Bool
  | null, null => true
  | bool a, bool b => a == b
  | int a, int b => a == b
  | float a, float b => a == b
  | string a, string b => a == b
  | array a, array b => beqElements a b
  | object a, object b => beqMembers a b
  | _, _ => false

def beqElements : List Json → List Json → Bool
  | [], [] => true
  | a :: as, b :: bs => beq a b && beqElements as bs
  | _, _ => false

def beqMembers : List (String × Json) → List (String × Json) → Bool
  | [], [] => true
  | (k, a) :: as, (l, b) :: bs => k == l && beq a b && beqMembers as bs
  | _, _ => false

end

instance : BEq Json := ⟨beq⟩

/-- Whether a value counts as given: empty values, zero, false and null do not. -/
def isSet : Json → Bool
  | null => false
  | bool b => b
  | int n => n != 0
  | float x => x != 0.0
  | string s => !s.isEmpty
  | array elements => !elements.isEmpty
  | object members => !members.isEmpty

/-- The value itself if it counts as given, else null. -/
def orNull (v : Json) : Json := if v.isSet then v else null

/-- The kinds of value, by the words that messages use for them. -/
def kind : Json → String
  | null => "NoneType"
  | bool _ => "bool"
  | int _ => "int"
  | float _ => "float"
  | string _ => "str"
  | array _ => "list"
  | object _ => "dict"

/-- The value of a key in a list of members, null when the key is missing. -/
def member (members : List (String × Json)) (key : String) : Json :=
  (members.lookup key).getD null

mutual

/-- A value as messages show it. -/
def display : Json → String
  | null => "None"
  | bool true => "True"
  | bool false => "False"
  | int n => toString n
  | float x => Number.floatText x
  | string s => Text.quoted s
  | array elements => "[" ++ displayElements elements ++ "]"
  | object members => "\x7b" ++ displayMembers members ++ "\x7d"

def displayElements : List Json → String
  | [] => ""
  | [v] => display v
  | v :: rest => display v ++ ", " ++ displayElements rest

def displayMembers : List (String × Json) → String
  | [] => ""
  | [(key, v)] => Text.quoted key ++ ": " ++ display v
  | (key, v) :: rest => Text.quoted key ++ ": " ++ display v ++ ", " ++ displayMembers rest

end

/-- A value as text: a text stands for itself. -/
def text : Json → String
  | string s => s
  | v => v.display

end Json

end TenderPricing
