import TenderPricing.Proofs.Access.Identity
import TenderPricing.Service.Server
/-!
Requests that come to the work of their endpoint.

Before an endpoint does its work, the path, the method, the caller and the body have to be right.
For a request that passes, `respond_of_reaches` reads the response off the result of the work
alone.
-/
namespace TenderPricing
namespace Service

open Access Markup Store

section Handling

variable {β : Type} {first : Handling β} {next : β → Handling Json}

theorem result_bind_ok {value : β} (h : first.result = .ok value) :
    (first >>= next).result = (next value).result := by
  rw [Logged.result_bind, h]
  rfl

theorem result_bind_error {trouble : Trouble} (h : first.result = .error trouble) :
    (first >>= next).result = .error trouble := by
  rw [Logged.result_bind, h]
  rfl

theorem result_mapError_lift {ε : Type} (f : ε → Trouble) (x : Except ε β) :
    ((Logged.lift x : Logged Float ε β).mapError f).result = x.mapError f := rfl

end Handling

/-- The reply as a response; where there is none, the service has failed. -/
def Reply.toResponse (headers : Headers) : Reply → Response
  | none => failureResponse
  | some (status, body) => ⟨status, body, headers⟩

/-- A request for an endpoint, with its method and from a caller who is let in. -/
structure Reaches (env : Environment) (t : Tables Float) (endpoint : Endpoint)
    (request : Request) : Prop where
  path : Endpoint.ofPath? request.target.path = some endpoint
  method : request.method = endpoint.method
  caller : (guardUser env t request.credentials).result = .ok ()

variable {env : Environment} {t : Tables Float} {endpoint : Endpoint} {request : Request}

theorem Endpoint.method_eq_get_or_post (endpoint : Endpoint) :
    endpoint.method = "GET" ∨ endpoint.method = "POST" := by
  cases endpoint <;> simp [Endpoint.method]

/-- Only requests with the method `OPTIONS` announce others. -/
theorem announcementReply?_eq_none {allowed : List String} {method : String} {headers : Headers}
    (h : method ≠ "OPTIONS") : announcementReply? allowed method headers = none := by
  unfold announcementReply?
  cases headers.value? "origin" with
  | none => rfl
  | some origin =>
    cases headers.value? "access-control-request-method" with
    | none => rfl
    | some wanted => exact if_neg h

/-- A request with a method of some endpoint is answered with the reply to its work. -/
theorem respond_of_method (hmethod : request.method = "GET" ∨ request.method = "POST") :
    respond env t request =
      ((handle env t request).tables, (handle env t request).work.notices,
        (replyTo (handle env t request).work.result).toResponse (responseHeaders env request)) := by
  have hplain : request.method ≠ "OPTIONS" ∧ request.method ≠ "HEAD" := by
    rcases hmethod with h | h <;> simp [h]
  simp only [respond, announcementReply?_eq_none hplain.1, if_neg hplain.2]
  cases replyTo (handle env t request).work.result <;> rfl

theorem handle_eq_query (path : Endpoint.ofPath? request.target.path = some endpoint)
    (method : request.method = endpoint.method)
    (leaves : ∀ tender, endpoint ≠ .recalculate tender) :
    handle env t request = ⟨t, query env t request endpoint⟩ := by
  simp only [handle, path, method, bne_self_eq_false, Bool.false_eq_true, if_false]

/-- The response to a request that reaches an endpoint is the reply to the work of that endpoint. -/
theorem respond_of_reaches (reaches : Reaches env t endpoint request)
    (leaves : ∀ tender, endpoint ≠ .recalculate tender) :
    (respond env t request).2.2 =
      (replyTo (query env t request endpoint).result).toResponse (responseHeaders env request) := by
  have hmethod : request.method = "GET" ∨ request.method = "POST" := by
    rw [reaches.method]
    exact endpoint.method_eq_get_or_post
  rw [respond_of_method hmethod, handle_eq_query reaches.path reaches.method leaves]

/-- Work that waits for the caller and the body. -/
theorem result_admitted {β : Type} {body : Checked β} {value : β} {work : β → Handling Json}
    (reaches : Reaches env t endpoint request) (hbody : body = .valid value) :
    (do
      guardUser env t request.credentials
      work (← accept body) : Handling Json).result = (work value).result := by
  rw [result_bind_ok reaches.caller, hbody]
  exact result_bind_ok rfl

/-! ## An office -/

def adminId : String := "00000000-0000-4000-8000-000000000001"

def engineerId : String := "00000000-0000-4000-8000-000000000002"

def formerAdminId : String := "00000000-0000-4000-8000-000000000003"

/-- The token with the id of the administrator as its subject, signed with the default key by the
default algorithm. -/
def adminToken : String := "eyJhbGciOiJIUzI1NiIsInR5cCI6IkpXVCJ9." ++
  "eyJzdWIiOiIwMDAwMDAwMC0wMDAwLTQwMDAtODAwMC0wMDAwMDAwMDAwMDEifQ." ++
  "sYlEe6L9vIOqpT7q49yzUwXxyC_ntL6ksGSXckxL_gU"

def engineerToken : String := "eyJhbGciOiJIUzI1NiIsInR5cCI6IkpXVCJ9." ++
  "eyJzdWIiOiIwMDAwMDAwMC0wMDAwLTQwMDAtODAwMC0wMDAwMDAwMDAwMDIifQ." ++
  "e3cfN2XQCVqY_OfntHuJjSFr_YxPTpkwjNuctU3gMaE"

def formerAdminToken : String := "eyJhbGciOiJIUzI1NiIsInR5cCI6IkpXVCJ9." ++
  "eyJzdWIiOiIwMDAwMDAwMC0wMDAwLTQwMDAtODAwMC0wMDAwMDAwMDAwMDMifQ." ++
  "s3lgcWzZAkCQr3IYB_ac8hfNtuSkVtJJcBkx762oSeA"

/-- The claims of the texts that the office has signed. -/
def officeSigned (key algorithm text : String) : Option Members :=
  if key = defaultKey ∧ algorithm = defaultAlgorithm then
    ([(adminToken, adminId), (engineerToken, engineerId),
      (formerAdminToken, formerAdminId)].lookup text).map fun id => [("sub", .string id)]
  else none

def officeLibrary : TokenLibrary where
  decode key algorithm text := match officeSigned key algorithm text with
    | some claims => .claims claims
    | none => .refused

/-- A service without a queue and with no origins that may call. -/
def openService : Environment :=
  ⟨⟨false, false, [], 80.0⟩, .unreachable "", officeLibrary, .ofVariables fun _ => none⟩

/-- An administrator, an engineer and an administrator who has left. -/
def officeTables : Tables Float where
  roles := [⟨1, "Admin"⟩, ⟨2, "Engineer"⟩]
  users := [⟨adminId, some 1, true⟩, ⟨engineerId, some 2, true⟩, ⟨formerAdminId, some 1, false⟩]

theorem officeSigned_default (text : String) :
    officeSigned openService.signing.key openService.signing.algorithm text =
      ([(adminToken, adminId), (engineerToken, engineerId),
        (formerAdminToken, formerAdminId)].lookup text).map fun id => [("sub", .string id)] :=
  if_pos ⟨rfl, rfl⟩

theorem reads_office : Reads openService.decode
    (officeSigned openService.signing.key openService.signing.algorithm) := fun _ => rfl

theorem distinct_officeUsers : Distinct (fun row => some row.id) officeTables.users := by
  rw [Distinct]
  decide +kernel

theorem distinct_officeRoles : Distinct (fun row => some row.id) officeTables.roles := by
  rw [Distinct]
  decide +kernel

theorem identifies_admin :
    Identifies (officeSigned openService.signing.key openService.signing.algorithm)
      officeTables.users (some adminToken) ⟨adminId, some 1, true⟩ := by
  refine ⟨⟨_, [("sub", .string adminId)], rfl, ?_, rfl⟩, by decide +kernel,
    by simp [officeTables], rfl⟩
  rw [officeSigned_default, List.lookup_cons_self]
  rfl

theorem guardUser_admin (users : t.users = officeTables.users) :
    (guardUser openService t (some adminToken)).result = .ok () := by
  rw [guardUser, users,
    (currentUser_eq_ok_iff reads_office distinct_officeUsers).mpr identifies_admin]
  rfl

theorem guardAdmin_admin (users : t.users = officeTables.users)
    (roles : t.roles = officeTables.roles) :
    (guardAdmin openService t (some adminToken)).result = .ok () := by
  have hadmin : IsAdmin officeTables.roles ⟨adminId, some 1, true⟩ :=
    ⟨1, rfl, by decide, ⟨1, "Admin"⟩, by simp [officeTables], rfl, rfl⟩
  rw [guardAdmin, users, roles, (currentAdmin_eq_ok_iff reads_office distinct_officeUsers
    distinct_officeRoles).mpr ⟨identifies_admin, hadmin⟩]
  rfl

end Service
end TenderPricing
