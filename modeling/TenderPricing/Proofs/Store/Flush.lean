import TenderPricing.Proofs.Store.RowOrder
import TenderPricing.Store.Flush
import TenderPricing.Store.Transaction
/-!
A recalculation and its flush.

A run changes each row by itself, and so the database takes or refuses each row by itself.  What it
makes of a run that has changed the rows by `f` and `g` is what it makes of each row and its image,
in whichever order the rows stand.  On a database that refuses nothing and keeps no times, the run
leaves what its transaction commits.
-/
namespace TenderPricing
namespace Store

/-! ## Flushes -/

section Flush

variable {α : Type} {db : Backend α} {t t' : Tables α}
variable {f : ItemRow α → ItemRow α} {g : PositionRow α → PositionRow α}

def Tables.mapRows (f : ItemRow α → ItemRow α) (g : PositionRow α → PositionRow α)
    (t : Tables α) : Tables α :=
  { t with items := t.items.map f, positions := t.positions.map g }

theorem SameRows.mapRows (same : SameRows t t') : SameRows (t.mapRows f g) (t'.mapRows f g) :=
  { same with items := same.items.map f, positions := same.positions.map g }

namespace Backend

theorem stored_self (db : Backend α) (row : ItemRow α) : db.stored row row = row := by
  rw [stored, db.items.sends_self]
  exact if_neg Bool.false_ne_true

theorem stored_eq (db : Backend α) (before after : ItemRow α) :
    db.stored before after = { after with
      updatedAt := if db.items.sends before after then some db.now else after.updatedAt } := by
  unfold stored
  cases db.items.sends before after <;> rfl

theorem refuses_mapRows (db : Backend α) (t : Tables α) :
    db.refuses t (t.mapRows f g) =
      (t.items.any (fun row => db.items.refuses row (f row)) ||
        t.positions.any fun p => db.positions.refuses p (g p)) := by
  simp only [refuses, Tables.mapRows, List.zipWith_map_right, List.zipWith_self, List.any_map]
  rfl

theorem flush?_mapRows (db : Backend α) (t : Tables α) :
    db.flush? t (t.mapRows f g) =
      if db.refuses t (t.mapRows f g) then none
      else some (t.mapRows (fun row => db.stored row (f row)) g) := by
  have hitems : List.zipWith db.stored t.items (t.mapRows f g).items =
      t.items.map fun row => db.stored row (f row) := by
    rw [Tables.mapRows, List.zipWith_map_right, List.zipWith_self]
  rw [flush?, hitems]
  rfl

/-- The order of the rows decides neither whether they are taken nor how they are stored. -/
theorem flush?_of_sameRows {stored : Tables α} (same : SameRows t t')
    (taken : db.flush? t (t.mapRows f g) = some stored) :
    ∃ stored', db.flush? t' (t'.mapRows f g) = some stored' ∧ SameRows stored stored' := by
  have hrefuses : db.refuses t' (t'.mapRows f g) = db.refuses t (t.mapRows f g) := by
    rw [refuses_mapRows, refuses_mapRows, same.items.any_eq, same.positions.any_eq]
  rw [flush?_mapRows] at taken
  rw [flush?_mapRows, hrefuses]
  by_cases hrefused : db.refuses t (t.mapRows f g) = true
  · rw [if_pos hrefused] at taken
    cases taken
  · rw [if_neg hrefused] at taken
    cases taken
    exact ⟨_, if_neg hrefused, same.mapRows⟩

/-- A database that refuses nothing and keeps no times. -/
def plain : Backend α where
  items := ⟨fun _ _ => false, fun _ => true, fun _ => rfl⟩
  positions := ⟨fun _ _ => false, fun _ => true, fun _ => rfl⟩
  now := 0

theorem flush?_plain (t : Tables α) : plain.flush? t (t.mapRows f g) = some (t.mapRows f g) := by
  have hitems : (t.items.any fun row => plain.items.refuses row (f row)) = false :=
    List.any_eq_false.mpr fun _ _ => Bool.false_ne_true
  have hpositions : (t.positions.any fun p => plain.positions.refuses p (g p)) = false :=
    List.any_eq_false.mpr fun _ _ => Bool.false_ne_true
  rw [flush?_mapRows, refuses_mapRows, hitems, hpositions]
  rfl

end Backend

end Flush

/-! ## Recalculations -/

section Run

variable {α : Type} [Arithmetic α] {db : Backend α} {t : Tables α} {id : String}

theorem recalculateOn_of_error {e : TenderError}
    (failed : (recalculate t id).outcome.result = .error e) :
    recalculateOn db t id = ⟨(recalculate t id).tables, t, .error (.tender e)⟩ := by
  simp only [recalculateOn, Run.flushTo, failed]

theorem recalculateOn_of_refused {summary : Summary}
    (returned : (recalculate t id).outcome.result = .ok summary)
    (refused : db.flush? t (recalculate t id).tables = none) :
    recalculateOn db t id = ⟨t, t, .error .refused⟩ := by
  simp only [recalculateOn, Run.flushTo, returned, refused]

theorem recalculateOn_of_taken {summary : Summary} {stored : Tables α}
    (returned : (recalculate t id).outcome.result = .ok summary)
    (taken : db.flush? t (recalculate t id).tables = some stored) :
    recalculateOn db t id = ⟨stored, stored, .ok summary⟩ := by
  simp only [recalculateOn, Run.flushTo, returned, taken]

theorem recalculateOn_eq_ok_iff {summary : Summary} :
    (recalculateOn db t id).outcome = .ok summary ↔
      (recalculate t id).outcome.result = .ok summary ∧
        db.flush? t (recalculate t id).tables = some (recalculateOn db t id).stored := by
  cases hresult : (recalculate t id).outcome.result with
  | error e =>
    rw [recalculateOn_of_error hresult]
    simp
  | ok found =>
    cases hflush : db.flush? t (recalculate t id).tables with
    | none =>
      rw [recalculateOn_of_refused hresult hflush]
      simp
    | some stored =>
      rw [recalculateOn_of_taken hresult hflush]
      simp

/-- On the plain database a recalculation stores what the session of a request commits. -/
theorem recalculateOn_plain (t : Tables α) (id : String) :
    (recalculateOn .plain t id).session = (recalculate t id).tables ∧
      (recalculateOn .plain t id).stored = (recalculateAndCommit t id).tables ∧
      (recalculateOn .plain t id).outcome =
        (recalculateAndCommit t id).outcome.result.mapError .tender := by
  unfold recalculateAndCommit closeRequest
  cases hresult : (recalculate t id).outcome.result with
  | error e =>
    rw [recalculateOn_of_error hresult]
    simp only [hresult]
    exact ⟨trivial, trivial, rfl⟩
  | ok summary =>
    obtain ⟨ctx, loaded, priceable, -⟩ := recalculate_eq_ok_iff.mp hresult
    have htables : (recalculate t id).tables = t.mapRows _ _ := recalculate_tables loaded priceable
    have taken : Backend.plain.flush? t (recalculate t id).tables =
        some (recalculate t id).tables := by
      rw [htables]
      exact Backend.flush?_plain t
    rw [recalculateOn_of_taken hresult taken]
    simp only [hresult]
    exact ⟨trivial, trivial, rfl⟩

end Run

/-! ## Columns of numbers -/

section Columns

variable {α : Type}

/-- The columns of an item that a run writes. -/
def ItemRow.outputs (row : ItemRow α) : List (Option α) :=
  [row.materialCost, row.workCost, row.coefficient]

def PositionRow.outputs (p : PositionRow α) : List (Option α) := [p.materialTotal, p.workTotal]

/-- Whether a column with room for numbers below the bound can hold a value. -/
def fitsBelow [Arithmetic α] (bound : α) : Option α → Bool
  | some x => decide (Arithmetic.abs x < bound)
  | none => true

/-- Amounts of at most eighteen digits, two of them after the point, and coefficients of at most
twelve, six of them after the point.  Numbers are told apart by `key`. -/
def numericColumns [Arithmetic α] {κ : Type} [DecidableEq κ] (key : α → κ) (now : Int) :
    Backend α where
  items := {
    sends := fun row after =>
      row.outputs.map (Option.map key) != after.outputs.map (Option.map key)
    fits := fun row => fitsBelow 1e16 row.materialCost && fitsBelow 1e16 row.workCost &&
      fitsBelow 1e6 row.coefficient
    sends_self := fun _ => bne_self_eq_false _ }
  positions := {
    sends := fun p after => p.outputs.map (Option.map key) != after.outputs.map (Option.map key)
    fits := fun p => p.outputs.all (fitsBelow 1e16)
    sends_self := fun _ => bne_self_eq_false _ }
  now := now

end Columns

end Store
end TenderPricing
