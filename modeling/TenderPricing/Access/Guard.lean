import TenderPricing.Access.Token
import TenderPricing.Store.Tables
/-!
Who may call.

Every caller must be an active user, known by a token; changing prices takes the role `adminRole`.
-/
namespace TenderPricing
namespace Access

open Store

inductive Refusal where
  | notAuthenticated
  | invalidToken
  | unknownUser
  | adminRequired
  deriving DecidableEq, Repr

namespace Refusal

def status : Refusal → Nat
  | adminRequired => 403
  | _ => 401

def message : Refusal → String
  | notAuthenticated => "Not authenticated"
  | invalidToken => "Invalid token"
  | unknownUser => "User not found or inactive"
  | adminRequired => "Admin role required"

/-- Headers that tell the caller how to authenticate. -/
def headers : Refusal → List (String × String)
  | notAuthenticated => [("WWW-Authenticate", "Bearer")]
  | _ => []

end Refusal

/-- Why nobody is let in. -/
inductive Denial where
  | refused (refusal : Refusal)
  /-- The library of tokens has broken off. -/
  | libraryFailed
  deriving DecidableEq, Repr

/-- The subject that a token names; a subject that counts as not given is none. -/
def subjectOf (decode : String → Decoded) (text : String) : Except Denial Json :=
  match decode text with
  | .failed => .error .libraryFailed
  | .refused => .error (.refused .invalidToken)
  | .claims members =>
    let subject := Json.member members "sub"
    if subject.isSet then .ok subject else .error (.refused .invalidToken)

/-- The active user whom credentials name. -/
def currentUser (decode : String → Decoded) (users : List UserRow) (credentials : Option String) :
    Except Denial UserRow :=
  match credentials with
  | none => .error (.refused .notAuthenticated)
  | some text => do
    let subject ← subjectOf decode text
    match users.find? (fun user => Json.string user.id == subject) with
    | none => .error (.refused .unknownUser)
    | some user => if user.isActive then .ok user else .error (.refused .unknownUser)

def adminRole : String := "Admin"

/-- The name of a role.  Zero is the number of no role. -/
def roleName? (roles : List RoleRow) (id : Option Int) : Option String :=
  match id with
  | none | some 0 => none
  | some id => (roles.find? (·.id = id)).map (·.name)

def requireAdmin (roles : List RoleRow) (user : UserRow) : Except Denial UserRow :=
  if roleName? roles user.role = some adminRole then .ok user
  else .error (.refused .adminRequired)

/-- The user, if the credentials name an active one who may change prices. -/
def currentAdmin (decode : String → Decoded) (users : List UserRow) (roles : List RoleRow)
    (credentials : Option String) : Except Denial UserRow := do
  let user ← currentUser decode users credentials
  requireAdmin roles user

end Access
end TenderPricing
