import TenderPricing.Number.Notation
/-!
What the service writes to its journal.

A notice states what happened; its line says which logger reports it, at which level and in which
words.
-/
namespace TenderPricing

inductive Level where
  | debug
  | info
  | warning
  | error
  deriving DecidableEq, Repr

namespace Level

def word : Level → String
  | debug => "DEBUG"
  | info => "INFO"
  | warning => "WARNING"
  | error => "ERROR"

def rank : Level → Nat
  | debug => 10
  | info => 20
  | warning => 30
  | error => 40

end Level

inductive Notice (α : Type) where
  | dependsOnBase (sequence : String)
  | fallbackRates
  | unknownItemType (label : String)
  | aggregated (base commercial markup : α) (parameters : Nat)
  | disagreements (count : Nat)
  | matched (found rows candidates : Nat) (threshold : α)
  | parentMissing (parent position : String)
  | transfersPlanned (count orphans : Nat)
  | noDistribution (tender : String)
  | recalculated (tender : String) (updated skipped : Nat)
  | recalculationFailed (tender reason : String)
  | queueUnavailable (reason : String)
  | matchingTender (rows : Nat) (tender : String)
  | noDatabase
  | tablesReady
  | tablesFailed (reason : String)
  | settingMissing (name : String)
  | optionalSettingMissing (name : String)
  deriving Repr

/-- One line of the journal. -/
structure Line where
  logger : String
  level : Level
  message : String
  deriving DecidableEq, Repr

namespace Notice

open Number

def line : Notice Float → Line
  | dependsOnBase sequence =>
    ⟨"tender-markup", .warning, "Sequence '" ++ sequence ++
      "' is not scale-invariant; its coefficient depends on the base value"⟩
  | fallbackRates =>
    ⟨"tender-pricing", .warning, "No markup percentages stored; using fallback parameters"⟩
  | unknownItemType label =>
    ⟨"tender-pricing", .warning,
      "Unknown BOQ item type '" ++ label ++ "'; commercial cost put on work axis"⟩
  | aggregated base commercial markup parameters =>
    ⟨"tender-pricing", .debug,
      "Markup aggregation: base=" ++ fixedText 2 base ++ " commercial=" ++ fixedText 2 commercial ++
      " markup=" ++ fixedText 2 markup ++ " parameters=" ++ toString parameters⟩
  | disagreements count =>
    ⟨"tender-pricing", .warning,
      toString count ++ " BOQ items disagree between coefficient and sequence"⟩
  | matched found rows candidates threshold =>
    ⟨"tender-matcher", .info,
      "Matched " ++ toString found ++ " of " ++ toString rows ++ " new rows against " ++
      toString candidates ++ " old positions (threshold " ++ fixedText 1 threshold ++ ")"⟩
  | parentMissing parent position =>
    ⟨"tender-transfer", .warning,
      "Matched parent " ++ parent ++ " of " ++ position ++ " is not in the new version"⟩
  | transfersPlanned count orphans =>
    ⟨"tender-transfer", .info,
      "Planned " ++ toString count ++ " supplementary transfers, " ++ toString orphans ++
      " without parent"⟩
  | noDistribution tender =>
    ⟨"tender-store", .info,
      "No pricing distribution for tender " ++ tender ++ ", using item-type axes"⟩
  | recalculated tender updated skipped =>
    ⟨"tender-store", .info,
      "Recalculated tender " ++ tender ++ ": " ++ toString updated ++ " items updated, " ++
      toString skipped ++ " skipped"⟩
  | recalculationFailed tender reason =>
    ⟨"tender-celery", .error, "Recalculation failed for tender " ++ tender ++ ": " ++ reason⟩
  | queueUnavailable reason =>
    ⟨"tender-markup-routes", .warning,
      "Celery unavailable (" ++ reason ++ "); recalculating inline."⟩
  | matchingTender rows tender =>
    ⟨"tender-matching-routes", .info,
      "Matching " ++ toString rows ++ " rows against tender " ++ tender⟩
  | noDatabase => ⟨"tender-db", .warning, "DATABASE_URL not set, skipping init_db()"⟩
  | tablesReady => ⟨"tender-db", .info, "Database tables initialized."⟩
  | tablesFailed reason =>
    ⟨"tender-api", .warning, "Table init warning (OK if using Alembic): " ++ reason⟩
  | settingMissing name =>
    ⟨"tender-api", .warning, "MISSING env var: " ++ name ++ " — running in dev mode"⟩
  | optionalSettingMissing name =>
    ⟨"tender-api", .info, "Optional env var not set: " ++ name⟩

end Notice

end TenderPricing
