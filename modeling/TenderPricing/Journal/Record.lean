import TenderPricing.Journal.Template
import TenderPricing.Json.Writer
/-!
Records of the journal as lines of JSON.

A line holds the same members in the same order for every record, an exception if there is one,
and those further facts about a request that the record carries.
-/
namespace TenderPricing
namespace Journal

structure Record where
  level : Json
  logger : Json
  template : String
  values : List Json
  module : Json
  function : Json
  line : Json
  /-- The text of an exception that the record reports. -/
  failure : Option String
  /-- Everything else that is known of the record. -/
  facts : List (String × Json)

/-- The facts that a line shows. -/
def shownFacts : List String :=
  ["tender_id", "duration_ms", "request_id", "http_method", "http_path", "http_status"]

/-- An exception by its kind and text. -/
def failureText (text : String) : String :=
  if text = "" then "ValueError" else "ValueError: " ++ text

namespace Record

/-- The members of a line, the time aside. -/
def members (r : Record) : Except TemplateFault (List (String × Json)) := do
  let message ← fill r.template r.values
  return [("level", r.level), ("logger", r.logger), ("message", .string message),
      ("module", r.module), ("function", r.function), ("line", r.line)] ++
    (match r.failure with
      | some text => [("exception", .string (failureText text))]
      | none => []) ++
    shownFacts.filterMap fun name => (r.facts.lookup name).map (name, ·)

end Record

/-- Whether a line of these members keeps to ASCII. -/
def isAsciiLine (members : List (String × Json)) : Bool :=
  (Json.object members).write.toList.all fun c => c.toNat < 128

end Journal
end TenderPricing
