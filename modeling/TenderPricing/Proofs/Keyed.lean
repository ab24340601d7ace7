import Mathlib.Algebra.BigOperators.Group.List.Basic
import TenderPricing.Keyed
/-!
What an update does to a whole table.

A sum over the values changes by the new value less the one that it replaces, and what holds of
every value goes on holding if the new value has it too.  Neither asks for distinct keys: an update
rewrites the entry that a look-up finds.  A table made of entries with distinct keys is the list
of these entries; they are found in every order, and also when others have been dropped.
-/
namespace TenderPricing
namespace Keyed

variable {κ α M : Type} [BEq κ]

theorem sum_map_put [LawfulBEq κ] [AddCommMonoid M] (f : α → M) (key : κ) (value : α)
    (table : Keyed κ α) :
    ((put key value table).map fun entry => f entry.2).sum + ((table.lookup key).map f).getD 0 =
      (table.map fun entry => f entry.2).sum + f value := by
  induction table with
  | nil => simp [put]
  | cons entry rest ih =>
    obtain ⟨k, v⟩ := entry
    by_cases hkey : k = key
    · subst hkey
      simp only [put, beq_self_eq_true, if_true, List.map_cons, List.sum_cons,
        List.lookup_cons_self, Option.map_some, Option.getD_some]
      rw [add_right_comm, add_comm (f value), add_right_comm]
    · have hput : (k == key) = false := by simpa using hkey
      have hlookup : (key == k) = false := by simpa using fun h => hkey h.symm
      simp only [put, hput, Bool.false_eq_true, if_false, List.map_cons, List.sum_cons,
        List.lookup_cons, hlookup]
      rw [add_assoc, ih, add_assoc]

/-- An update that adds an amount to a value adds it to the sum. -/
theorem sum_map_update [LawfulBEq κ] [AddCancelCommMonoid M] {f : α → M} {start : α} {g : α → α}
    {amount : M} (hstart : f start = 0) (hg : ∀ value, f (g value) = f value + amount) (key : κ)
    (table : Keyed κ α) :
    ((table.update key start g).map fun entry => f entry.2).sum =
      (table.map fun entry => f entry.2).sum + amount := by
  have hput := sum_map_put f key (g ((table.lookup key).getD start)) table
  have hcurrent : ((table.lookup key).map f).getD 0 = f ((table.lookup key).getD start) := by
    cases table.lookup key with
    | none => exact hstart.symm
    | some value => rfl
  rw [hcurrent, hg, add_comm (f _) amount, ← add_assoc] at hput
  exact add_right_cancel hput

theorem put_of_not_mem [LawfulBEq κ] {key : κ} {value : α} {table : Keyed κ α}
    (h : key ∉ table.map Prod.fst) : put key value table = table ++ [(key, value)] := by
  induction table with
  | nil => rfl
  | cons entry rest ih =>
    rw [List.map_cons, List.mem_cons, not_or] at h
    have hkey : (entry.1 == key) = false := by simpa using fun heq => h.1 heq.symm
    rw [put, hkey, ih h.2]
    rfl

theorem foldl_put_of_nodup [LawfulBEq κ] {entries : List (κ × α)} :
    ∀ {table : Keyed κ α}, ((table ++ entries).map Prod.fst).Nodup →
      entries.foldl (fun table (key, value) => put key value table) table = table ++ entries := by
  induction entries with
  | nil => exact fun _ => (List.append_nil _).symm
  | cons entry rest ih =>
    obtain ⟨key, value⟩ := entry
    intro table h
    have hnew : key ∉ table.map Prod.fst := by
      rw [List.map_append, List.nodup_append] at h
      exact fun hold => h.2.2 _ hold _ List.mem_cons_self rfl
    rw [List.append_cons] at h
    show rest.foldl _ (put key value table) = _
    rw [put_of_not_mem hnew, ih h, List.append_assoc]
    rfl

/-- Entries with distinct keys are kept as they are. -/
theorem ofList_of_nodup [LawfulBEq κ] {entries : List (κ × α)}
    (h : (entries.map Prod.fst).Nodup) : ofList entries = entries :=
  foldl_put_of_nodup h

theorem contains_keys [LawfulBEq κ] {key : κ} {table : Keyed κ α} :
    (table.map Prod.fst).contains key = (table.lookup key).isSome := by
  induction table with
  | nil => rfl
  | cons entry rest ih =>
    rw [List.map_cons, List.contains_cons, List.lookup_cons, ih]
    cases key == entry.1 <;> rfl

/-- Entries with distinct keys are found alike in every order. -/
theorem lookup_perm [LawfulBEq κ] {entries entries' : List (κ × α)}
    (distinct : (entries.map Prod.fst).Nodup) (same : entries.Perm entries') (k : κ) :
    entries'.lookup k = entries.lookup k := by
  induction same with
  | nil => rfl
  | cons entry same ih =>
    rw [List.map_cons, List.nodup_cons] at distinct
    rw [List.lookup_cons, List.lookup_cons, ih distinct.2]
  | swap first second rest =>
    have hne : second.1 ≠ first.1 := by
      rw [List.map_cons, List.map_cons, List.nodup_cons] at distinct
      intro h
      rw [h] at distinct
      exact distinct.1 List.mem_cons_self
    rw [List.lookup_cons, List.lookup_cons, List.lookup_cons, List.lookup_cons]
    by_cases hfirst : k = first.1
    · have hsecond : (k == second.1) = false := by
        rw [hfirst]
        simpa using hne.symm
      rw [hsecond]
    · have hother : (k == first.1) = false := by simpa using hfirst
      rw [hother]
  | trans same _ ih ih' =>
    rw [ih' ((same.map Prod.fst).nodup_iff.mp distinct), ih distinct]

theorem lookup_of_not_mem [LawfulBEq κ] {k : κ} {entries : List (κ × α)}
    (absent : k ∉ entries.map Prod.fst) : entries.lookup k = none := by
  rw [List.lookup_eq_none_iff]
  intro entry hentry
  rw [bne_iff_ne]
  rintro rfl
  exact absent (List.mem_map.mpr ⟨entry, hentry, rfl⟩)

/-- What is found among entries with distinct keys after some are dropped. -/
theorem lookup_filter [LawfulBEq κ] {keep : κ × α → Bool} {entries : List (κ × α)}
    (distinct : (entries.map Prod.fst).Nodup) (k : κ) :
    (entries.filter keep).lookup k = (entries.lookup k).filter fun value => keep (k, value) := by
  induction entries with
  | nil => rfl
  | cons entry rest ih =>
    obtain ⟨key, value⟩ := entry
    rw [List.map_cons, List.nodup_cons] at distinct
    by_cases hkey : k = key
    · subst hkey
      rw [List.lookup_cons_self]
      cases hkeep : keep (k, value) with
      | true =>
        rw [List.filter_cons_of_pos hkeep, List.lookup_cons_self, Option.filter_some, hkeep,
          if_pos rfl]
      | false =>
        rw [List.filter_cons_of_neg (by simp [hkeep]), ih distinct.2,
          lookup_of_not_mem distinct.1, Option.filter_some, hkeep]
        rfl
    · have hother : (k == key) = false := by simpa using hkey
      rw [List.lookup_cons, hother, ← ih distinct.2]
      cases hkeep : keep (key, value) with
      | true => rw [List.filter_cons_of_pos hkeep, List.lookup_cons, hother]
      | false => rw [List.filter_cons_of_neg (by simp [hkeep])]

theorem forall_put {P : α → Prop} {key : κ} {value : α} {table : Keyed κ α}
    (h : ∀ entry ∈ table, P entry.2) (hvalue : P value) :
    ∀ entry ∈ put key value table, P entry.2 := by
  induction table with
  | nil => simpa [put] using hvalue
  | cons entry rest ih =>
    obtain ⟨k, v⟩ := entry
    rw [List.forall_mem_cons] at h
    unfold put
    by_cases hkey : (k == key) = true
    · rw [if_pos hkey, List.forall_mem_cons]
      exact ⟨hvalue, h.2⟩
    · rw [if_neg hkey, List.forall_mem_cons]
      exact ⟨h.1, ih h.2⟩

theorem lookup_getD_of_forall {P : α → Prop} {key : κ} {start : α} {table : Keyed κ α}
    (h : ∀ entry ∈ table, P entry.2) (hstart : P start) : P ((table.lookup key).getD start) := by
  induction table with
  | nil => exact hstart
  | cons entry rest ih =>
    rw [List.forall_mem_cons] at h
    rw [List.lookup_cons]
    cases key == entry.1 with
    | true => exact h.1
    | false => exact ih h.2

theorem forall_update {P : α → Prop} {key : κ} {start : α} {g : α → α} {table : Keyed κ α}
    (h : ∀ entry ∈ table, P entry.2) (hstart : P start) (hg : ∀ value, P value → P (g value)) :
    ∀ entry ∈ table.update key start g, P entry.2 :=
  forall_put h (hg _ (lookup_getD_of_forall h hstart))

end Keyed
end TenderPricing
