import TenderPricing.Text.LowerCase
import TenderPricing.Text.Blank
/-!
Headers of requests and responses, and requests from pages of other origins.
-/
namespace TenderPricing
namespace Service

abbrev Headers := List (String × String)

namespace Headers

/-- The value of a header, whose name may be in capital or small letters. -/
def value? (headers : Headers) (name : String) : Option String :=
  (headers.find? fun (n, _) => Text.lower n = Text.lower name).map (·.2)

end Headers

/-- The headers that protect every response. -/
def securityHeaders : Headers := [
  ("X-Content-Type-Options", "nosniff"),
  ("X-Frame-Options", "DENY"),
  ("Strict-Transport-Security", "max-age=31536000; includeSubDomains"),
  ("Referrer-Policy", "strict-origin-when-cross-origin")]

def allowOriginHeader : String := "Access-Control-Allow-Origin"

/-- Whether pages of an origin may call; a star lets in all origins. -/
def allowsOrigin (allowed : List String) (origin : String) : Bool :=
  allowed.contains "*" || allowed.contains origin

/-- What a response says to the page that sent a request: the page's own origin, if allowed. -/
def crossOriginHeaders (allowed : List String) (request : Headers) : Headers :=
  match request.value? "origin" with
  | none => []
  | some origin => if allowsOrigin allowed origin then [(allowOriginHeader, origin)] else []

def crossOriginMethods : List String := ["GET", "POST", "OPTIONS"]

/-- Headers that pages may send, in small letters. -/
def crossOriginRequestHeaders : List String :=
  ["accept", "accept-language", "authorization", "content-language", "content-type",
    "x-request-id"]

/-- What speaks against a request that a page announces. -/
def announcementFaults (allowed : List String) (origin method : String)
    (headers : Option String) : List String :=
  let names := ((headers.map (·.splitOn ",")).getD []).map fun h => Text.trim (Text.lower h)
  (if allowsOrigin allowed origin then [] else ["origin"]) ++
  (if crossOriginMethods.contains method then [] else ["method"]) ++
  (if names.all crossOriginRequestHeaders.contains then [] else ["headers"])

/-- The reply to a page that announces a request, if this is one. -/
def announcementReply? (allowed : List String) (method : String) (request : Headers) :
    Option (Nat × String) := do
  let origin ← request.value? "origin"
  let wanted ← request.value? "access-control-request-method"
  if method = "OPTIONS" then
    match announcementFaults allowed origin wanted
        (request.value? "access-control-request-headers") with
    | [] => some (200, "OK")
    | faults => some (400, "Disallowed CORS " ++ ", ".intercalate faults)
  else none

end Service
end TenderPricing
