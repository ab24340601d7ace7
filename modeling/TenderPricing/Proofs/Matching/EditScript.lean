import Mathlib.Order.Bounds.Basic
import Mathlib.Algebra.Order.Group.Abs
import Mathlib.Algebra.Order.Group.Int
import TenderPricing.Matching.EditDistance
/-!
Edit distance as the least number of edits.

An edit inserts, deletes or replaces one character anywhere in a text.  `leastEdits` is the textbook
recursion from the front of both texts, and it is the least number of edits that lead from one to
the other: its choices can be carried out, and no single edit changes it by more than one.

The rows of the computation go over the beginnings of the texts, so a cell is the recursion on
beginnings that are read backwards.  That makes no difference, as edits can be read backwards too.
-/
namespace TenderPricing
namespace Matching

/-- One character is inserted, deleted or replaced. -/
inductive Edit : List Char → List Char → Prop
  | insert (before : List Char) (c : Char) (after : List Char) :
      Edit (before ++ after) (before ++ c :: after)
  | delete (before : List Char) (c : Char) (after : List Char) :
      Edit (before ++ c :: after) (before ++ after)
  | replace (before : List Char) (c d : Char) (after : List Char) :
      Edit (before ++ c :: after) (before ++ d :: after)

/-- The second text is made from the first by a number of edits. -/
inductive EditedIn : Nat → List Char → List Char → Prop
  | unchanged (s : List Char) : EditedIn 0 s s
  | edit {n : Nat} {s t u : List Char} : Edit s t → EditedIn n t u → EditedIn (n + 1) s u

/-! ## Edits -/

section Edits

variable {s t u : List Char} {m n : Nat}

theorem Edit.symm (h : Edit s t) : Edit t s := by
  cases h with
  | insert before c after => exact .delete before c after
  | delete before c after => exact .insert before c after
  | replace before c d after => exact .replace before d c after

theorem Edit.cons (c : Char) (h : Edit s t) : Edit (c :: s) (c :: t) := by
  cases h with
  | insert before d after => exact .insert (c :: before) d after
  | delete before d after => exact .delete (c :: before) d after
  | replace before d e after => exact .replace (c :: before) d e after

theorem Edit.reverse (h : Edit s t) : Edit s.reverse t.reverse := by
  have hwith (before : List Char) (c : Char) (after : List Char) :
      (before ++ c :: after).reverse = after.reverse ++ c :: before.reverse := by simp
  cases h with
  | insert before c after =>
    rw [hwith, List.reverse_append]
    exact .insert after.reverse c before.reverse
  | delete before c after =>
    rw [hwith, List.reverse_append]
    exact .delete after.reverse c before.reverse
  | replace before c d after =>
    rw [hwith, hwith]
    exact .replace after.reverse c d before.reverse

theorem Edit.length_le (h : Edit s t) : s.length ≤ t.length + 1 := by
  cases h with
  | insert | delete | replace =>
    simp only [List.length_append, List.length_cons]
    omega

namespace EditedIn

theorem eq_of_zero (h : EditedIn 0 s t) : s = t := by
  cases h
  rfl

theorem single (h : Edit s t) : EditedIn 1 s t := .edit h (.unchanged t)

theorem trans (h : EditedIn m s t) (h' : EditedIn n t u) : EditedIn (m + n) s u := by
  induction h with
  | unchanged => rwa [Nat.zero_add]
  | @edit m s t _ hedit _ ih =>
    rw [Nat.add_right_comm]
    exact .edit hedit (ih h')

theorem symm (h : EditedIn n s t) : EditedIn n t s := by
  induction h with
  | unchanged s => exact .unchanged s
  | edit hedit _ ih => exact ih.trans (single hedit.symm)

theorem cons (c : Char) (h : EditedIn n s t) : EditedIn n (c :: s) (c :: t) := by
  induction h with
  | unchanged s => exact .unchanged (c :: s)
  | edit hedit _ ih => exact .edit (hedit.cons c) ih

theorem reverse (h : EditedIn n s t) : EditedIn n s.reverse t.reverse := by
  induction h with
  | unchanged s => exact .unchanged s.reverse
  | edit hedit _ ih => exact .edit hedit.reverse ih

theorem length_le (h : EditedIn n s t) : s.length ≤ t.length + n := by
  induction h with
  | unchanged => exact Nat.le_refl _
  | edit hedit _ ih =>
    have hlength := hedit.length_le
    omega

theorem insertAll (t : List Char) : EditedIn t.length [] t := by
  induction t with
  | nil => exact .unchanged []
  | cons d t ih => exact ih.trans (single (.insert [] d t))

end EditedIn

end Edits

/-! ## The recursion -/

/-- The textbook recursion: the first character of either text goes, or the two first characters are
paired, at no cost if they are the same. -/
def leastEdits : List Char → List Char → Nat
  | [], t => t.length
  | c :: s, [] => (c :: s).length
  | c :: s, d :: t =>
    min (leastEdits s (d :: t) + 1)
      (min (leastEdits (c :: s) t + 1) (leastEdits s t + if c = d then 0 else 1))
termination_by s t => s.length + t.length

section Recursion

variable {c d : Char} {s t : List Char}

theorem leastEdits_nil_left (t : List Char) : leastEdits [] t = t.length := by rw [leastEdits]

theorem leastEdits_nil_right (s : List Char) : leastEdits s [] = s.length := by
  cases s with
  | nil => rw [leastEdits]
  | cons c s => rw [leastEdits]

theorem leastEdits_cons_cons (c d : Char) (s t : List Char) :
    leastEdits (c :: s) (d :: t) = min (leastEdits s (d :: t) + 1)
      (min (leastEdits (c :: s) t + 1) (leastEdits s t + if c = d then 0 else 1)) := by
  rw [leastEdits]

theorem cost_le_one (c d : Char) : (if c = d then 0 else 1) ≤ 1 := by
  split <;> omega

theorem leastEdits_self (s : List Char) : leastEdits s s = 0 := by
  induction s with
  | nil => exact leastEdits_nil_left []
  | cons c s ih =>
    rw [leastEdits_cons_cons, ih, if_pos rfl]
    omega

theorem leastEdits_cons_left_le (c : Char) (s t : List Char) :
    leastEdits (c :: s) t ≤ leastEdits s t + 1 := by
  cases t with
  | nil => rw [leastEdits_nil_right, leastEdits_nil_right, List.length_cons]
  | cons d t =>
    rw [leastEdits_cons_cons]
    omega

theorem leastEdits_cons_right_le (s : List Char) (d : Char) (t : List Char) :
    leastEdits s (d :: t) ≤ leastEdits s t + 1 := by
  cases s with
  | nil => rw [leastEdits_nil_left, leastEdits_nil_left, List.length_cons]
  | cons c s =>
    rw [leastEdits_cons_cons]
    omega

/-- The choices of the recursion can be carried out. -/
theorem editedIn_leastEdits (s t : List Char) : EditedIn (leastEdits s t) s t := by
  induction s, t using leastEdits.induct with
  | case1 t =>
    rw [leastEdits_nil_left]
    exact .insertAll t
  | case2 c s =>
    rw [leastEdits_nil_right]
    exact (EditedIn.insertAll (c :: s)).symm
  | case3 c s d t hdelete hinsert hpair =>
    rw [leastEdits_cons_cons]
    have hd : EditedIn (leastEdits s (d :: t) + 1) (c :: s) (d :: t) :=
      .edit (.delete [] c s) hdelete
    have hi : EditedIn (leastEdits (c :: s) t + 1) (c :: s) (d :: t) :=
      hinsert.trans (.single (.insert [] d t))
    have hp : EditedIn (leastEdits s t + if c = d then 0 else 1) (c :: s) (d :: t) := by
      by_cases hcd : c = d
      · rw [if_pos hcd, hcd]
        exact hpair.cons d
      · rw [if_neg hcd]
        exact .edit (.replace [] c d s) (hpair.cons d)
    exact min_rec' (fun n => EditedIn n (c :: s) (d :: t)) hd
      (min_rec' (fun n => EditedIn n (c :: s) (d :: t)) hi hp)

/-! An edit changes the recursion by one at most.  The edit may stand behind characters that both
texts begin with, so each kind is dealt with at the front first. -/

theorem leastEdits_le_cons_left (c : Char) (s t : List Char) :
    leastEdits s t ≤ leastEdits (c :: s) t + 1 := by
  induction t with
  | nil =>
    rw [leastEdits_nil_right, leastEdits_nil_right, List.length_cons]
    omega
  | cons d t ih =>
    have hright := leastEdits_cons_right_le s d t
    rw [leastEdits_cons_cons]
    omega

theorem leastEdits_replace_le (c d : Char) (s t : List Char) :
    leastEdits (c :: s) t ≤ leastEdits (d :: s) t + 1 := by
  induction t with
  | nil =>
    rw [leastEdits_nil_right, leastEdits_nil_right, List.length_cons, List.length_cons]
    omega
  | cons e t ih =>
    have hcost := cost_le_one c e
    rw [leastEdits_cons_cons, leastEdits_cons_cons]
    omega

theorem leastEdits_cons_le_cons (c : Char) {s s' : List Char}
    (h : ∀ t, leastEdits s t ≤ leastEdits s' t + 1) (t : List Char) :
    leastEdits (c :: s) t ≤ leastEdits (c :: s') t + 1 := by
  induction t with
  | nil =>
    have hnil := h []
    rw [leastEdits_nil_right, leastEdits_nil_right] at hnil
    rw [leastEdits_nil_right, leastEdits_nil_right, List.length_cons, List.length_cons]
    omega
  | cons d t ih =>
    have hdelete := h (d :: t)
    have hpair := h t
    rw [leastEdits_cons_cons, leastEdits_cons_cons]
    omega

theorem leastEdits_append_le (before : List Char) {s s' : List Char}
    (h : ∀ t, leastEdits s t ≤ leastEdits s' t + 1) (t : List Char) :
    leastEdits (before ++ s) t ≤ leastEdits (before ++ s') t + 1 := by
  induction before generalizing t with
  | nil => exact h t
  | cons c before ih => exact leastEdits_cons_le_cons c ih t

theorem Edit.leastEdits_le {s' : List Char} (h : Edit s s') (t : List Char) :
    leastEdits s t ≤ leastEdits s' t + 1 := by
  cases h with
  | insert before c after =>
    exact leastEdits_append_le before (leastEdits_le_cons_left c after) t
  | delete before c after =>
    exact leastEdits_append_le before (leastEdits_cons_left_le c after) t
  | replace before c d after =>
    exact leastEdits_append_le before (leastEdits_replace_le c d after) t

/-- No edits do better than the recursion. -/
theorem EditedIn.leastEdits_le {n : Nat} (h : EditedIn n s t) : leastEdits s t ≤ n := by
  induction h with
  | unchanged s => rw [leastEdits_self]
  | @edit n s u t hedit _ ih =>
    have hstep := hedit.leastEdits_le t
    omega

theorem leastEdits_reverse (s t : List Char) :
    leastEdits s.reverse t.reverse = leastEdits s t := by
  apply Nat.le_antisymm
  · exact (editedIn_leastEdits s t).reverse.leastEdits_le
  · have hback := (editedIn_leastEdits s.reverse t.reverse).reverse
    rw [List.reverse_reverse, List.reverse_reverse] at hback
    exact hback.leastEdits_le

theorem leastEdits_le_max (s t : List Char) : leastEdits s t ≤ max s.length t.length := by
  induction s, t using leastEdits.induct with
  | case1 t =>
    rw [leastEdits_nil_left]
    exact Nat.le_max_right _ _
  | case2 c s =>
    rw [leastEdits_nil_right]
    exact Nat.le_max_left _ _
  | case3 c s d t _ _ hpair =>
    have hcost := cost_le_one c d
    rw [leastEdits_cons_cons, List.length_cons, List.length_cons]
    omega

end Recursion

/-! ## Rows -/

section Rows

/-- The cells of a row from one on, with `r` the characters of the first text and `q` those of the
second up to that cell, the nearest first. -/
def rowFrom (r q : List Char) : List Char → List Nat
  | [] => [leastEdits r q]
  | d :: t => leastEdits r q :: rowFrom r (d :: q) t

theorem rowFrom_eq_cons (r q t : List Char) :
    rowFrom r q t = leastEdits r q :: (rowFrom r q t).tail := by
  cases t with
  | nil => rfl
  | cons d t => rfl

theorem fillRow_rowFrom (c : Char) (r q t : List Char) :
    fillRow c (leastEdits (c :: r) q) t (rowFrom r q t) = (rowFrom (c :: r) q t).tail := by
  induction t generalizing q with
  | nil => rfl
  | cons d t ih =>
    have hcell : min (leastEdits r (d :: q) + 1)
        (min (leastEdits (c :: r) q + 1) (leastEdits r q + if c = d then 0 else 1)) =
          leastEdits (c :: r) (d :: q) := (leastEdits_cons_cons c d r q).symm
    have hrow := ih (d :: q)
    rw [rowFrom_eq_cons r (d :: q) t] at hrow
    show fillRow c (leastEdits (c :: r) q) (d :: t) (leastEdits r q :: rowFrom r (d :: q) t) =
      rowFrom (c :: r) (d :: q) t
    rw [rowFrom_eq_cons r (d :: q) t, rowFrom_eq_cons (c :: r) (d :: q) t, fillRow, hcell, hrow]

theorem nextRow_rowFrom (c : Char) (r t : List Char) :
    nextRow t (rowFrom r [] t) c = rowFrom (c :: r) [] t := by
  have hfirst : leastEdits r [] + 1 = leastEdits (c :: r) [] := by
    rw [leastEdits_nil_right, leastEdits_nil_right, List.length_cons]
  have hrow := fillRow_rowFrom c r [] t
  rw [rowFrom_eq_cons r [] t] at hrow ⊢
  rw [rowFrom_eq_cons (c :: r) [] t, nextRow, hfirst, hrow]

/-- One row after the other: the rows say what the recursion says of the beginnings. -/
theorem foldl_nextRow (s r t : List Char) :
    s.foldl (nextRow t) (rowFrom r [] t) = rowFrom (s.reverse ++ r) [] t := by
  induction s generalizing r with
  | nil => rfl
  | cons c s ih =>
    rw [List.foldl_cons, nextRow_rowFrom, ih, List.reverse_cons, List.append_assoc]
    rfl

theorem range'_eq_rowFrom (q t : List Char) :
    List.range' q.length (t.length + 1) = rowFrom [] q t := by
  induction t generalizing q with
  | nil =>
    rw [rowFrom, leastEdits_nil_left]
    rfl
  | cons d t ih =>
    rw [rowFrom, leastEdits_nil_left, List.length_cons, List.range'_succ, ← ih (d :: q)]
    rfl

theorem getLastD_rowFrom (r q t : List Char) (k : Nat) :
    (rowFrom r q t).getLastD k = leastEdits r (t.reverse ++ q) := by
  induction t generalizing q k with
  | nil => rfl
  | cons d t ih =>
    rw [rowFrom, List.getLastD_cons, ih, List.reverse_cons, List.append_assoc]
    rfl

theorem editDistance_eq_leastEdits (s t : List Char) : editDistance s t = leastEdits s t := by
  rw [editDistance, List.range_eq_range', show 0 = ([] : List Char).length from rfl,
    range'_eq_rowFrom, foldl_nextRow, getLastD_rowFrom, List.append_nil, List.append_nil,
    leastEdits_reverse]

end Rows

/-! ## Texts -/

section Texts

variable (s t u : String)

theorem textDistance_eq : textDistance s t = leastEdits (comparable s) (comparable t) :=
  editDistance_eq_leastEdits _ _

theorem editedIn_textDistance : EditedIn (textDistance s t) (comparable s) (comparable t) := by
  rw [textDistance_eq]
  exact editedIn_leastEdits _ _

variable {s t}

theorem textDistance_le {n : Nat} (h : EditedIn n (comparable s) (comparable t)) :
    textDistance s t ≤ n := by
  rw [textDistance_eq]
  exact h.leastEdits_le

variable (s t)

theorem textDistance_comm : textDistance t s = textDistance s t := by
  apply Nat.le_antisymm
  · exact textDistance_le (editedIn_textDistance s t).symm
  · exact textDistance_le (editedIn_textDistance t s).symm

theorem textDistance_triangle : textDistance s u ≤ textDistance s t + textDistance t u :=
  textDistance_le ((editedIn_textDistance s t).trans (editedIn_textDistance t u))

theorem textDistance_eq_zero_iff : textDistance s t = 0 ↔ comparable s = comparable t := by
  constructor
  · intro h
    have hedits := editedIn_textDistance s t
    rw [h] at hedits
    exact hedits.eq_of_zero
  · intro h
    rw [textDistance_eq, h, leastEdits_self]

theorem textDistance_le_max :
    textDistance s t ≤ max (comparable s).length (comparable t).length := by
  rw [textDistance_eq]
  exact leastEdits_le_max _ _

/-- The distance of two texts is the least number of edits that lead from one to the other, both in
small letters and trimmed.  It is the textbook recursion, and a metric on such texts. -/
theorem textDistance_least :
    IsLeast {n | EditedIn n (comparable s) (comparable t)} (textDistance s t) ∧
      textDistance s t = leastEdits (comparable s) (comparable t) ∧
      textDistance t s = textDistance s t ∧
      textDistance s u ≤ textDistance s t + textDistance t u ∧
      (textDistance s t = 0 ↔ comparable s = comparable t) ∧
      |((comparable s).length : ℤ) - (comparable t).length| ≤ textDistance s t ∧
      textDistance s t ≤ max (comparable s).length (comparable t).length := by
  refine ⟨⟨editedIn_textDistance s t, fun _ h => textDistance_le h⟩, textDistance_eq s t,
    textDistance_comm s t, textDistance_triangle s t u, textDistance_eq_zero_iff s t, ?_,
    textDistance_le_max s t⟩
  have hforth := (editedIn_textDistance s t).length_le
  have hback := (editedIn_textDistance s t).symm.length_le
  rw [abs_le]
  omega

end Texts

end Matching
end TenderPricing
