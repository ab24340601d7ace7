import TenderPricing.Matching.Score
import TenderPricing.Service.Checked
/-!
Request bodies.
-/
namespace TenderPricing
namespace Service

open Markup Matching

/-- A sequence in persisted form. -/
structure SequenceRequest where
  name : String
  steps : List Json

structure EvaluationRequest where
  sequence : SequenceRequest
  baseValue : Float
  percentages : Option (List (String × Float))

structure CoefficientRequest where
  sequences : List (String × List Json)
  percentages : Option (List (String × Float))

structure RowsRequest where
  rows : List (Row Float)
  threshold : Float

structure MatchRequest where
  rows : RowsRequest
  positions : List (Position Float)

structure TransferRequest where
  additional : List (Position Float)
  counterparts : List (String × String)
  oldPositions : List (Position Float)
  newPositions : List (Position Float)

def readSteps : Reader (List Json) := readList readObject

def readPercentages : Reader (Option (List (String × Float))) := orNone (readDictionary readFloat)

def readSequence (members : Members) (place : Place) : Checked SequenceRequest :=
  SequenceRequest.mk <$> optional members place "name" "sequence" readText
    <*> optional members place "steps" [] readSteps

def readEvaluation (members : Members) (place : Place) : Checked EvaluationRequest :=
  EvaluationRequest.mk <$> readSequence members place
    <*> required members place "base_value" readFloat
    <*> optional members place "markup_values" none readPercentages

def readCoefficients (members : Members) (place : Place) : Checked CoefficientRequest :=
  CoefficientRequest.mk <$> required members place "sequences" (readDictionary readSteps)
    <*> optional members place "markup_values" none readPercentages

def readTextOrNone (members : Members) (place : Place) (name : String) :
    Checked (Option String) :=
  optional members place name none (orNone readText)

def readPosition (members : Members) (place : Place) : Checked (Position Float) :=
  Position.mk <$> required members place "id" readText
    <*> readTextOrNone members place "item_no"
    <*> readTextOrNone members place "work_name"
    <*> readTextOrNone members place "unit_code"
    <*> optional members place "volume" none (orNone readFloat)
    <*> optional members place "is_additional" false readTruth
    <*> optional members place "position_number" 0.0 readFloat
    <*> optional members place "hierarchy_level" 0 readInteger
    <*> readTextOrNone members place "parent_position_id"

def readRow (members : Members) (place : Place) : Checked (Row Float) :=
  Row.mk <$> readTextOrNone members place "item_no"
    <*> readTextOrNone members place "work_name"
    <*> readTextOrNone members place "unit_code"
    <*> optional members place "volume" none (orNone readFloat)
    <*> optional members place "hierarchy_level" 0 readInteger
    <*> readTextOrNone members place "client_note"

/-- Rows and a threshold in percent; `default` is the threshold where none is given. -/
def readRows (default : Float) (members : Members) (place : Place) : Checked RowsRequest :=
  RowsRequest.mk <$> required members place "new_rows" (readList (readRecord readRow))
    <*> optional members place "threshold" default (readFloatBetween 0.0 100.0)

def readPositions (members : Members) (place : Place) (name : String) :
    Checked (List (Position Float)) :=
  required members place name (readList (readRecord readPosition))

def readMatch (default : Float) (members : Members) (place : Place) : Checked MatchRequest :=
  MatchRequest.mk <$> readRows default members place <*> readPositions members place "old_positions"

def readTransfers (members : Members) (place : Place) : Checked TransferRequest :=
  TransferRequest.mk <$> readPositions members place "additional"
    <*> required members place "match_map" (readDictionary readText)
    <*> readPositions members place "old_positions"
    <*> readPositions members place "new_positions"

end Service
end TenderPricing
