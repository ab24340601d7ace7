import TenderPricing.Proofs.Access.Identity
import TenderPricing.Proofs.Service.Recalculation
/-!
Who may have prices rewritten.

A request to recalculate is refused before anything is looked up or changed, unless its credentials
stand for an administrator.  A request whose credentials stand for nobody learns nothing of what is
stored.
-/
namespace TenderPricing
namespace Service

open Access Markup Store

variable {env : Environment} {t t' : Tables Float} {id : String} {request : Request}
  {signed : String → String → String → Option Members} {user : UserRow}

/-- At most one user and one role of each id. -/
structure UniqueIds (t : Tables Float) : Prop where
  users : Distinct (fun row => some row.id) t.users
  roles : Distinct (fun row => some row.id) t.roles

/-- The request comes from the user: its token is signed with the key of the service. -/
def IsFrom (env : Environment) (signed : String → String → String → Option Members)
    (t : Tables Float) (request : Request) (user : UserRow) : Prop :=
  Identifies (signed env.signing.key env.signing.algorithm) t.users request.credentials user

/-- A request that has the worker recalculate a tender. -/
structure QueuesTask (env : Environment) (t : Tables Float) (id : String) (request : Request) :
    Prop where
  path : Endpoint.ofPath? request.target.path = some (.recalculate id)
  method : request.method = "POST"
  caller : (guardAdmin env t request.credentials).result = .ok ()
  later : truthParameter request.target "background" = .valid true
  accepted : ∃ task, env.broker = .accepting task

/-- A request that starts a recalculation, by itself or on the worker. -/
def Starts (env : Environment) (t : Tables Float) (id : String) (request : Request) : Prop :=
  RunsInline env t id request ∨ QueuesTask env t id request

/-! ## Guards -/

/-- The refusal to a request of nobody. -/
def refusalOf (env : Environment) (signed : String → String → String → Option Members)
    (request : Request) : Refusal :=
  refusalTo (signed env.signing.key env.signing.algorithm) request.credentials

theorem reads_of_verifies (verifies : env.library.Verifies signed) :
    Reads env.decode (signed env.signing.key env.signing.algorithm) := verifies _ _

section Guards

variable (verifies : env.library.Verifies signed) (unique : UniqueIds t)
include verifies unique

theorem guardUser_of_nobody (h : ¬ ∃ user, IsFrom env signed t request user) :
    guardUser env t request.credentials = .fail (.refused (refusalOf env signed request)) := by
  rw [guardUser, currentUser_of_unidentified (reads_of_verifies verifies) unique.users h]
  rfl

theorem guardAdmin_of_nobody (h : ¬ ∃ user, IsFrom env signed t request user) :
    guardAdmin env t request.credentials = .fail (.refused (refusalOf env signed request)) := by
  rw [guardAdmin, currentAdmin_of_unidentified (reads_of_verifies verifies) unique.users h]
  rfl

theorem guardAdmin_of_not_isAdmin (h : IsFrom env signed t request user)
    (hadmin : ¬ IsAdmin t.roles user) :
    guardAdmin env t request.credentials = .fail (.refused .adminRequired) := by
  rw [guardAdmin, currentAdmin_of_not_isAdmin (reads_of_verifies verifies) unique.users
    unique.roles h hadmin]
  rfl

theorem exists_admin_of_guardAdmin (h : (guardAdmin env t request.credentials).result = .ok ()) :
    ∃ user, IsFrom env signed t request user ∧ IsAdmin t.roles user := by
  cases hcurrent : currentAdmin env.decode t.users t.roles request.credentials with
  | ok user =>
    exact ⟨user, (currentAdmin_eq_ok_iff (reads_of_verifies verifies) unique.users
      unique.roles).mp hcurrent⟩
  | error denial =>
    rw [guardAdmin, hcurrent] at h
    cases denial <;> cases h

end Guards

theorem Starts.caller (h : Starts env t id request) :
    (guardAdmin env t request.credentials).result = .ok () := by
  rcases h with h | h
  · exact h.caller
  · exact h.caller

/-! ## Refused requests -/

/-- A request that is refused does no work but the refusal. -/
theorem handle_of_guardAdmin_fail {trouble : Trouble}
    (path : Endpoint.ofPath? request.target.path = some (.recalculate id))
    (method : request.method = "POST") (h : guardAdmin env t request.credentials = .fail trouble) :
    handle env t request = ⟨t, .fail trouble⟩ := by
  rw [handle_eq_recalculateFor path method, recalculateFor, h]
  rfl

theorem respond_of_refused {refusal : Refusal}
    (path : Endpoint.ofPath? request.target.path = some (.recalculate id))
    (method : request.method = "POST")
    (h : guardAdmin env t request.credentials = .fail (.refused refusal)) :
    respond env t request =
      (t, [], ⟨refusal.status, detail (.string refusal.message), responseHeaders env request⟩) := by
  rw [respond_of_method (.inr method), handle_of_guardAdmin_fail path method h]
  rfl

/-- A request for a recalculation that starts none is in trouble. -/
theorem exists_trouble_of_not_starts
    (path : Endpoint.ofPath? request.target.path = some (.recalculate id))
    (method : request.method = "POST") (h : ¬ Starts env t id request) :
    ∃ trouble, handle env t request = ⟨t, .fail trouble⟩ := by
  rw [handle_eq_recalculateFor path method, recalculateFor]
  cases hadmitted : (do
      guardAdmin env t request.credentials
      accept (truthParameter request.target "background") : Handling Bool).result with
  | error trouble => exact ⟨trouble, rfl⟩
  | ok background =>
    obtain ⟨hcaller, hparameter⟩ := admitted_of_result hadmitted
    cases background with
    | false => exact absurd (.inl ⟨path, method, hcaller, .inl hparameter⟩) h
    | true =>
      cases hbroker : env.broker with
      | accepting task => exact absurd (.inr ⟨path, method, hcaller, hparameter, task, hbroker⟩) h
      | unreachable reason =>
        exact absurd (.inl ⟨path, method, hcaller, .inr ⟨hparameter, reason, hbroker⟩⟩) h

/-! ## Requests of nobody -/

section Nobody

variable (verifies : env.library.Verifies signed) (unique : UniqueIds t) (unique' : UniqueIds t')
include verifies unique

theorem query_of_nobody (h : ¬ ∃ user, IsFrom env signed t request user) {endpoint : Endpoint}
    (leaves : ∀ id, endpoint ≠ .recalculate id) (guarded : endpoint ≠ .health) :
    query env t request endpoint = .fail (.refused (refusalOf env signed request)) := by
  have hguard := guardUser_of_nobody verifies unique h
  cases endpoint with
  | health => exact absurd rfl guarded
  | recalculate id => exact absurd rfl (leaves id)
  | _ =>
    simp only [query, hguard]
    rfl

include unique'

/-- What is answered to a request of nobody does not depend on what is stored. -/
theorem handle_work_of_nobody (h : ¬ ∃ user, IsFrom env signed t request user)
    (h' : ¬ ∃ user, IsFrom env signed t' request user) :
    (handle env t request).work = (handle env t' request).work := by
  cases path : Endpoint.ofPath? request.target.path with
  | none => simp only [handle, path]
  | some endpoint =>
    by_cases method : request.method = endpoint.method
    · by_cases leaves : ∀ id, endpoint ≠ .recalculate id
      · rw [handle_eq_query path method leaves, handle_eq_query path method leaves]
        by_cases guarded : endpoint = .health
        · rw [guarded]
          rfl
        · exact (query_of_nobody verifies unique h leaves guarded).trans
            (query_of_nobody verifies unique' h' leaves guarded).symm
      · simp only [ne_eq, not_forall, not_not] at leaves
        obtain ⟨id, rfl⟩ := leaves
        rw [handle_of_guardAdmin_fail path method (guardAdmin_of_nobody verifies unique h),
          handle_of_guardAdmin_fail path method (guardAdmin_of_nobody verifies unique' h')]
    · have hmethod : (endpoint.method != request.method) = true :=
        bne_iff_ne.mpr (Ne.symm method)
      simp only [handle, path, if_pos hmethod]

theorem respond_of_nobody (h : ¬ ∃ user, IsFrom env signed t request user)
    (h' : ¬ ∃ user, IsFrom env signed t' request user) :
    (respond env t' request).2 = (respond env t request).2 := by
  have hwork := handle_work_of_nobody verifies unique unique' h h'
  unfold respond
  cases announcementReply? env.settings.allowedOrigins request.method request.headers with
  | none => simp only [hwork]
  | some reply => rfl

end Nobody

/-! ## Administrators -/

theorem exists_admin_of_changed (verifies : env.library.Verifies signed) (unique : UniqueIds t)
    (h : (respond env t request).1 ≠ t) :
    ∃ user, IsFrom env signed t request user ∧ IsAdmin t.roles user := by
  by_contra hnone
  refine h (respond_tables fun id inline => hnone ?_)
  exact exists_admin_of_guardAdmin verifies unique inline.caller

/-- Only an active administrator has prices rewritten, if tokens are read by a library that refuses
what is not signed.  A request that starts no recalculation does no work at all; without a known
active user its answer is 401, without the role 403, and what is answered to nobody is the same
whatever is stored. -/
theorem only_admins_rewrite_prices (verifies : env.library.Verifies signed)
    (unique : UniqueIds t) :
    ((respond env t request).1 ≠ t →
      ∃ user, IsFrom env signed t request user ∧ IsAdmin t.roles user) ∧
    (∀ id, Endpoint.ofPath? request.target.path = some (.recalculate id) →
      request.method = "POST" →
        (Starts env t id request →
          ∃ user, IsFrom env signed t request user ∧ IsAdmin t.roles user) ∧
        (¬ Starts env t id request → ∃ trouble, handle env t request = ⟨t, .fail trouble⟩) ∧
        ((¬ ∃ user, IsFrom env signed t request user) →
          (respond env t request).1 = t ∧ (respond env t request).2.2.status = 401) ∧
        ∀ user, IsFrom env signed t request user → ¬ IsAdmin t.roles user →
          (respond env t request).1 = t ∧ (respond env t request).2.2.status = 403) ∧
    ∀ t', UniqueIds t' → (¬ ∃ user, IsFrom env signed t request user) →
      (¬ ∃ user, IsFrom env signed t' request user) →
        (respond env t' request).2 = (respond env t request).2 := by
  refine ⟨exists_admin_of_changed verifies unique, fun id path method =>
    ⟨?_, exists_trouble_of_not_starts path method, ?_, ?_⟩,
    fun t' unique' h h' => respond_of_nobody verifies unique unique' h h'⟩
  · intro starts
    exact exists_admin_of_guardAdmin verifies unique starts.caller
  · intro h
    rw [respond_of_refused path method (guardAdmin_of_nobody verifies unique h)]
    exact ⟨rfl, status_refusalTo _ request.credentials⟩
  · intro user h hadmin
    rw [respond_of_refused path method (guardAdmin_of_not_isAdmin verifies unique h hadmin)]
    exact ⟨rfl, rfl⟩

/-- A request of somebody for a recalculation. -/
def recalculationWith (token : String) : Request :=
  { recalculationRequest with credentials := some token }

theorem eq_of_isFrom {token sender : String} (h : IsFrom openService officeSigned t
      (recalculationWith token) user)
    (signs : officeSigned openService.signing.key openService.signing.algorithm token =
      some [("sub", .string sender)]) : user.id = sender := by
  obtain ⟨text, claims, hcredentials, hsigned, hsub⟩ := h.token
  obtain rfl := Option.some.inj hcredentials
  obtain rfl := Option.some.inj (signs.symm.trans hsigned)
  exact (Json.string.inj hsub).symm

theorem officeSigned_engineerToken :
    officeSigned openService.signing.key openService.signing.algorithm engineerToken =
      some [("sub", .string engineerId)] := by
  have hadmin : (engineerToken == adminToken) = false := by decide +kernel
  rw [officeSigned_default, List.lookup_cons, hadmin, List.lookup_cons_self]
  rfl

theorem officeSigned_formerAdminToken :
    officeSigned openService.signing.key openService.signing.algorithm formerAdminToken =
      some [("sub", .string formerAdminId)] := by
  have hadmin : (formerAdminToken == adminToken) = false := by decide +kernel
  have hengineer : (formerAdminToken == engineerToken) = false := by decide +kernel
  rw [officeSigned_default, List.lookup_cons, hadmin, List.lookup_cons, hengineer,
    List.lookup_cons_self]
  rfl

theorem isFrom_engineer : IsFrom openService officeSigned officeTables
    (recalculationWith engineerToken) ⟨engineerId, some 2, true⟩ :=
  ⟨⟨_, _, rfl, officeSigned_engineerToken, rfl⟩, by decide +kernel, by simp [officeTables], rfl⟩

theorem engineer_not_isAdmin : ¬ IsAdmin officeTables.roles ⟨engineerId, some 2, true⟩ := by
  rintro ⟨number, hnumber, -, role, hrole, hid, hname⟩
  obtain rfl := Option.some.inj hnumber
  obtain rfl | rfl : role = ⟨1, "Admin"⟩ ∨ role = ⟨2, "Engineer"⟩ := by
    simpa [officeTables] using hrole
  · exact absurd hid (by decide)
  · exact absurd hname (by decide)

theorem formerAdmin_is_nobody : ¬ ∃ user, IsFrom openService officeSigned officeTables
    (recalculationWith formerAdminToken) user := by
  rintro ⟨user, h⟩
  have hid := eq_of_isFrom h officeSigned_formerAdminToken
  obtain rfl | rfl | rfl : user = ⟨adminId, some 1, true⟩ ∨ user = ⟨engineerId, some 2, true⟩ ∨
      user = ⟨formerAdminId, some 1, false⟩ := by
    simpa [officeTables] using h.stored
  · exact absurd hid (by decide +kernel)
  · exact absurd hid (by decide +kernel)
  · exact absurd h.active Bool.false_ne_true

/-- The engineer may not, and the administrator who has left is nobody. -/
theorem only_admins_rewrite_prices_office :
    openService.library.Verifies officeSigned ∧ UniqueIds officeTables ∧
      (respond openService officeTables (recalculationWith engineerToken)).2.2.status = 403 ∧
      (respond openService officeTables (recalculationWith formerAdminToken)).2.2.status = 401 ∧
      (respond openService {} (recalculationWith formerAdminToken)).2 =
        (respond openService officeTables (recalculationWith formerAdminToken)).2 := by
  have verifies : openService.library.Verifies officeSigned := fun _ _ _ => rfl
  have unique : UniqueIds officeTables := ⟨distinct_officeUsers, distinct_officeRoles⟩
  have uniqueEmpty : UniqueIds {} := ⟨.nil, .nil⟩
  have nobodyEmpty : ¬ ∃ user, IsFrom openService officeSigned {}
      (recalculationWith formerAdminToken) user := by
    rintro ⟨user, h⟩
    exact absurd h.stored List.not_mem_nil
  have path : Endpoint.ofPath? "/api/markup/tenders/t-1/recalculate" =
      some (.recalculate "t-1") := by decide +kernel
  have engineer := (@only_admins_rewrite_prices openService officeTables
    (recalculationWith engineerToken) _ verifies unique).2.1 "t-1" path rfl
  have formerAdmin := @only_admins_rewrite_prices openService officeTables
    (recalculationWith formerAdminToken) _ verifies unique
  refine ⟨verifies, unique, ?_, ?_, ?_⟩
  · exact (engineer.2.2.2 _ isFrom_engineer engineer_not_isAdmin).2
  · exact ((formerAdmin.2.1 "t-1" path rfl).2.2.1 formerAdmin_is_nobody).2
  · exact formerAdmin.2.2 {} uniqueEmpty formerAdmin_is_nobody nobodyEmpty

end Service
end TenderPricing
