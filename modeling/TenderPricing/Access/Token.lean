import TenderPricing.Markup.RawStep
import TenderPricing.Setup.Variables
/-!
Bearer tokens.

Tokens are read by a library, which is given the key and the algorithm that they must be signed
with.  What the library does with a text is left open here.
-/
namespace TenderPricing
namespace Access

open Markup Setup

/-- What the library makes of a text. -/
inductive Decoded where
  /-- The claims of a token. -/
  | claims (members : Members)
  /-- The text is no token that holds. -/
  | refused
  /-- The library breaks off. -/
  | failed

structure TokenLibrary where
  decode (key algorithm text : String) : Decoded

/-- The key and the algorithm of the tokens that the service takes. -/
structure Signing where
  key : String
  algorithm : String

def defaultKey : String := "changethis_use_a_real_secret_in_production_64chars"

def defaultAlgorithm : String := "HS256"

namespace Signing

def ofVariables (v : Variables) : Signing where
  key := (v "JWT_SECRET_KEY").getD defaultKey
  algorithm := (v "JWT_ALGORITHM").getD defaultAlgorithm

end Signing

end Access
end TenderPricing
