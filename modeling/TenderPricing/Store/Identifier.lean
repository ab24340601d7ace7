/-!
Identifiers of new rows.

An identifier is 128 bits.  Of a random one six are fixed: the version says that the others are
random, the variant in which layout they stand.
-/
namespace TenderPricing
namespace Store

structure Identifier where
  bits : BitVec 128
  deriving DecidableEq, Repr

namespace Identifier

/-- An identifier of random bits. -/
def ofRandom (bits : BitVec 128) : Identifier :=
  ⟨bits &&& 0xffffffffffff0fff3fffffffffffffff#128 ||| 0x00000000000040008000000000000000#128⟩

/-- How the bits came about; 4 stands for random ones. -/
def version (x : Identifier) : Nat := (x.bits.extractLsb' 76 4).toNat

/-- How many digits stand between the dashes. -/
def groups : List Nat := [8, 4, 4, 4, 12]

/-- Cuts digits into groups with dashes between them. -/
def grouped : List Nat → List Char → List Char
  | [], digits => digits
  | [count], digits => digits.take count
  | count :: rest, digits => digits.take count ++ '-' :: grouped rest (digits.drop count)

/-- The bits in base sixteen, in groups. -/
def text (x : Identifier) : String :=
  let digits := Nat.toDigits 16 x.bits.toNat
  String.ofList (grouped groups (List.replicate (32 - digits.length) '0' ++ digits))

/-- A number of new identifiers. -/
def fresh {γ : Type} [RandomGen γ] : Nat → γ → List Identifier
  | 0, _ => []
  | count + 1, g =>
    let (n, g) := randNat g 0 0xffffffffffffffffffffffffffffffff
    ofRandom (.ofNat 128 n) :: fresh count g

example : (ofRandom 0#128).text = "00000000-0000-4000-8000-000000000000" := by decide +kernel
example : (ofRandom 0#128).version = 4 := by decide

end Identifier

end Store
end TenderPricing
