/-!
Values by key, in the order in which the keys first arrived.

Running totals, stored percentages and the plan of a version are kept this way, because answers
list them in that order.  `lookup_put_self` and `lookup_put_of_ne` say what a write does to every
later look-up.
-/
namespace TenderPricing

abbrev Keyed (κ α : Type) := List (κ × α)

namespace Keyed

variable {κ α : Type} [BEq κ]

/-- Writes a value: a present key keeps its place, a new one goes to the end. -/
def put (key : κ) (value : α) : Keyed κ α → Keyed κ α
  | [] => [(key, value)]
  | (k, v) :: rest => if k == key then (k, value) :: rest else (k, v) :: put key value rest

/-- Writes what `f` makes of the present value, or of `start` if there is none. -/
def update (key : κ) (start : α) (f : α → α) (table : Keyed κ α) : Keyed κ α :=
  put key (f ((table.lookup key).getD start)) table

/-- Later values win over earlier ones of the same key. -/
def ofList (entries : List (κ × α)) : Keyed κ α :=
  entries.foldl (fun table (key, value) => put key value table) []

theorem lookup_put_self [LawfulBEq κ] (key : κ) (value : α) (table : Keyed κ α) :
    (put key value table).lookup key = some value := by
  induction table with
  | nil => simp [put]
  | cons entry rest ih =>
    obtain ⟨k, v⟩ := entry
    unfold put
    by_cases h : k == key
    · simp_all
    · have h' : (key == k) = false := by
        simp only [beq_iff_eq, beq_eq_false_iff_ne, ne_eq] at h ⊢
        exact fun e => h e.symm
      simp [h, List.lookup_cons, h', ih]

theorem lookup_put_of_ne [LawfulBEq κ] {key other : κ} (h : other ≠ key) (value : α)
    (table : Keyed κ α) : (put key value table).lookup other = table.lookup other := by
  induction table with
  | nil => simp [put, h]
  | cons entry rest ih =>
    obtain ⟨k, v⟩ := entry
    unfold put
    by_cases hk : k == key
    · have hk' : k = key := by simpa using hk
      subst hk'
      have absent : (other == k) = false := by simpa using h
      simp [List.lookup_cons, absent]
    · simp [hk, List.lookup_cons, ih]

theorem lookup_update_self [LawfulBEq κ] (key : κ) (start : α) (f : α → α) (table : Keyed κ α) :
    (table.update key start f).lookup key = some (f ((table.lookup key).getD start)) :=
  lookup_put_self key _ table

theorem lookup_update_of_ne [LawfulBEq κ] {key other : κ} (h : other ≠ key) (start : α) (f : α → α)
    (table : Keyed κ α) : (table.update key start f).lookup other = table.lookup other :=
  lookup_put_of_ne h _ table

end Keyed

end TenderPricing
