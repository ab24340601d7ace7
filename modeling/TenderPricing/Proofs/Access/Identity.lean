import TenderPricing.Access.Guard
import TenderPricing.Proofs.Store.RowOrder
/-!
Whom the guards let in.

Credentials stand for a user or for nobody.  The guard of a user lets in those who stand for one;
the guard of an administrator asks for the role as well.  Credentials that stand for nobody are
refused in the same way whatever is stored.
-/
namespace TenderPricing
namespace Access

open Markup Store

/-- What the library is taken to do, with some key and algorithm: a text that is signed with them
has its claims read, and every other text is refused. -/
def Reads (decode : String → Decoded) (signed : String → Option Members) : Prop :=
  ∀ text, decode text = match signed text with
    | some claims => .claims claims
    | none => .refused

/-- The library is one for signed tokens, whatever the key and the algorithm. -/
def TokenLibrary.Verifies (library : TokenLibrary)
    (signed : String → String → String → Option Members) : Prop :=
  ∀ key algorithm, Reads (library.decode key algorithm) (signed key algorithm)

/-- The credentials are a signed token, and its subject is the id of an active user. -/
structure Identifies (signed : String → Option Members) (users : List UserRow)
    (credentials : Option String) (user : UserRow) : Prop where
  token : ∃ text claims, credentials = some text ∧ signed text = some claims ∧
    Json.member claims "sub" = .string user.id
  named : user.id ≠ ""
  stored : user ∈ users
  active : user.isActive = true

/-- The user has a role, and the role has the name of administrators.  Zero is the number of no
role. -/
def IsAdmin (roles : List RoleRow) (user : UserRow) : Prop :=
  ∃ number, user.role = some number ∧ number ≠ 0 ∧
    ∃ role ∈ roles, role.id = number ∧ role.name = adminRole

variable {decode : String → Decoded} {signed : String → Option Members} {users : List UserRow}
  {roles : List RoleRow} {credentials : Option String} {user : UserRow}

/-! ## Users -/

theorem subjectOf_eq_ok_iff (reads : Reads decode signed) {text : String} {subject : Json} :
    subjectOf decode text = .ok subject ↔
      ∃ claims, signed text = some claims ∧ Json.member claims "sub" = subject ∧
        subject.isSet = true := by
  rw [subjectOf, reads text]
  cases signed text with
  | none => simp
  | some claims =>
    simp only [Option.some.injEq, exists_eq_left']
    by_cases hset : (Json.member claims "sub").isSet = true
    · rw [if_pos hset, Except.ok.injEq]
      constructor
      · rintro rfl
        exact ⟨rfl, hset⟩
      · exact fun h => h.1
    · rw [if_neg hset]
      refine iff_of_false nofun ?_
      rintro ⟨rfl, h⟩
      exact hset h

theorem beq_string_iff {s : String} {v : Json} : (Json.string s == v) = true ↔ v = .string s := by
  cases v with
  | string s' =>
    show (s == s') = true ↔ _
    rw [beq_iff_eq, Json.string.injEq, eq_comm]
  | _ => exact iff_of_false nofun nofun

theorem isSet_string_iff {s : String} : (Json.string s).isSet = true ↔ s ≠ "" := by
  show (!s.isEmpty) = true ↔ _
  simp

/-- A subject is found among the users as the id of one of them. -/
theorem find?_subject_eq_some_iff (distinct : Distinct (fun row => some row.id) users)
    {subject : Json} :
    users.find? (fun row => Json.string row.id == subject) = some user ↔
      user ∈ users ∧ subject = .string user.id := by
  constructor
  · intro h
    have hfound := List.find?_some h
    exact ⟨List.mem_of_find?_eq_some h, beq_string_iff.mp hfound⟩
  · rintro ⟨hstored, rfl⟩
    have hsame : (fun row : UserRow => Json.string row.id == Json.string user.id) =
        fun row => decide (row.id = user.id) := by
      funext row
      rw [Bool.eq_iff_iff, beq_string_iff, Json.string.injEq, decide_eq_true_iff, eq_comm]
    rw [hsame]
    exact distinct.find?_eq_some_iff.mpr ⟨hstored, rfl⟩

/-- The guard finds the user whom the credentials stand for. -/
theorem currentUser_eq_ok_iff (reads : Reads decode signed)
    (distinct : Distinct (fun row => some row.id) users) :
    currentUser decode users credentials = .ok user ↔
      Identifies signed users credentials user := by
  constructor
  · intro h
    cases credentials with
    | none => cases h
    | some text =>
      obtain ⟨subject, hsubject, hfind⟩ := bind_eq_ok_iff.mp h
      obtain ⟨claims, hsigned, hsub, hset⟩ := (subjectOf_eq_ok_iff reads).mp hsubject
      cases hfound : users.find? (fun row => Json.string row.id == subject) with
      | none =>
        rw [hfound] at hfind
        cases hfind
      | some found =>
        rw [hfound] at hfind
        obtain ⟨hstored, rfl⟩ := (find?_subject_eq_some_iff distinct).mp hfound
        by_cases hactive : found.isActive = true
        · simp only [if_pos hactive] at hfind
          obtain rfl := Except.ok.inj hfind
          exact ⟨⟨text, claims, rfl, hsigned, hsub⟩, isSet_string_iff.mp hset, hstored, hactive⟩
        · simp only [if_neg hactive] at hfind
          cases hfind
  · rintro ⟨⟨text, claims, rfl, hsigned, hsub⟩, named, stored, active⟩
    have hsubject : subjectOf decode text = .ok (.string user.id) :=
      (subjectOf_eq_ok_iff reads).mpr ⟨claims, hsigned, hsub, isSet_string_iff.mpr named⟩
    refine bind_eq_ok_iff.mpr ⟨_, hsubject, ?_⟩
    rw [(find?_subject_eq_some_iff distinct).mpr ⟨stored, rfl⟩]
    exact if_pos active

/-- The refusal to credentials that stand for nobody. -/
def refusalTo (signed : String → Option Members) (credentials : Option String) : Refusal :=
  match credentials with
  | none => .notAuthenticated
  | some text => match signed text with
    | none => .invalidToken
    | some claims => if (Json.member claims "sub").isSet then .unknownUser else .invalidToken

theorem status_refusalTo (signed : String → Option Members) (credentials : Option String) :
    (refusalTo signed credentials).status = 401 := by
  unfold refusalTo
  cases credentials with
  | none => rfl
  | some text =>
    cases hsigned : signed text with
    | none => simp only [hsigned, Refusal.status]
    | some claims =>
      simp only [hsigned]
      split_ifs <;> rfl

theorem currentUser_of_unidentified (reads : Reads decode signed)
    (distinct : Distinct (fun row => some row.id) users)
    (h : ¬ ∃ user, Identifies signed users credentials user) :
    currentUser decode users credentials = .error (.refused (refusalTo signed credentials)) := by
  have hnobody : ∀ user, currentUser decode users credentials ≠ .ok user := fun user hok =>
    h ⟨user, (currentUser_eq_ok_iff reads distinct).mp hok⟩
  cases credentials with
  | none => rfl
  | some text =>
    rw [currentUser, subjectOf, reads text] at hnobody ⊢
    rw [refusalTo]
    cases hsigned : signed text with
    | none => rfl
    | some claims =>
      simp only [hsigned] at hnobody ⊢
      by_cases hset : (Json.member claims "sub").isSet = true
      · rw [if_pos hset, ok_bind] at hnobody ⊢
        rw [if_pos hset]
        -- a user with this id would have to be inactive
        cases hfound : users.find? fun row => Json.string row.id == Json.member claims "sub" with
        | none => rfl
        | some found =>
          rw [hfound] at hnobody
          exact if_neg fun hactive => hnobody found (if_pos hactive)
      · rw [if_neg hset, if_neg hset]
        rfl

/-! ## Administrators -/

theorem roleName?_eq_adminRole_iff (distinct : Distinct (fun row => some row.id) roles) :
    roleName? roles user.role = some adminRole ↔ IsAdmin roles user := by
  unfold IsAdmin
  cases hrole : user.role with
  | none => simp [roleName?]
  | some number =>
    by_cases hzero : number = 0
    · -- number 0 is no number to the code: it looks nothing up and no administrator has it
      have hname : roleName? roles (some number) = none := by rw [hzero, roleName?]
      rw [hname]
      constructor
      · rintro h
        cases h
      · rintro ⟨_, hnumber, hpositive, -⟩
        exact absurd hzero (Option.some.inj hnumber ▸ hpositive)
    · have hname : roleName? roles (some number) =
          (roles.find? (·.id = number)).map (·.name) := by
        rw [roleName?]
        exact hzero
      rw [hname, Option.map_eq_some_iff]
      constructor
      · rintro ⟨role, hfound, hadmin⟩
        obtain ⟨hrole, hid⟩ := distinct.find?_eq_some_iff.mp hfound
        exact ⟨number, rfl, hzero, role, hrole, hid, hadmin⟩
      · rintro ⟨_, hnumber, _, role, hrole, hid, hadmin⟩
        obtain rfl := Option.some.inj hnumber
        exact ⟨role, distinct.find?_eq_some_iff.mpr ⟨hrole, hid⟩, hadmin⟩

section Admin

variable (reads : Reads decode signed) (distinctUsers : Distinct (fun row => some row.id) users)
  (distinctRoles : Distinct (fun row => some row.id) roles)
include reads distinctUsers

theorem currentAdmin_of_unidentified (h : ¬ ∃ user, Identifies signed users credentials user) :
    currentAdmin decode users roles credentials =
      .error (.refused (refusalTo signed credentials)) := by
  rw [currentAdmin, currentUser_of_unidentified reads distinctUsers h]
  rfl

include distinctRoles

theorem currentAdmin_of_not_isAdmin (h : Identifies signed users credentials user)
    (hadmin : ¬ IsAdmin roles user) :
    currentAdmin decode users roles credentials = .error (.refused .adminRequired) := by
  rw [currentAdmin, (currentUser_eq_ok_iff reads distinctUsers).mpr h]
  exact if_neg fun hname => hadmin ((roleName?_eq_adminRole_iff distinctRoles).mp hname)

theorem currentAdmin_eq_ok_iff :
    currentAdmin decode users roles credentials = .ok user ↔
      Identifies signed users credentials user ∧ IsAdmin roles user := by
  rw [currentAdmin, bind_eq_ok_iff, ← roleName?_eq_adminRole_iff distinctRoles]
  constructor
  · rintro ⟨found, hfound, hrequired⟩
    rw [requireAdmin] at hrequired
    split_ifs at hrequired with hname
    obtain rfl := Except.ok.inj hrequired
    exact ⟨(currentUser_eq_ok_iff reads distinctUsers).mp hfound, hname⟩
  · rintro ⟨hidentifies, hname⟩
    exact ⟨user, (currentUser_eq_ok_iff reads distinctUsers).mpr hidentifies, if_pos hname⟩

end Admin

end Access
end TenderPricing
