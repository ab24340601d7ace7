import TenderPricing.Access.Guard
import TenderPricing.Access.Token
import TenderPricing.Journal.Logged
import TenderPricing.Journal.Notice
import TenderPricing.Journal.Record
import TenderPricing.Journal.Template
import TenderPricing.Json.Numeric
import TenderPricing.Json.Reader
import TenderPricing.Json.Value
import TenderPricing.Json.Writer
import TenderPricing.Keyed
import TenderPricing.Markup.Coefficient
import TenderPricing.Markup.Degree
import TenderPricing.Markup.Evaluation
import TenderPricing.Markup.Fault
import TenderPricing.Markup.Growth
import TenderPricing.Markup.Rates
import TenderPricing.Markup.RawStep
import TenderPricing.Markup.Review
import TenderPricing.Markup.Step
import TenderPricing.Markup.Validity
import TenderPricing.Matching.Assignment
import TenderPricing.Matching.EditDistance
import TenderPricing.Matching.Outcome
import TenderPricing.Matching.Position
import TenderPricing.Matching.Score
import TenderPricing.Matching.Similarity
import TenderPricing.Number.Arithmetic
import TenderPricing.Number.Binary64
import TenderPricing.Number.Notation
import TenderPricing.Number.Numeral
import TenderPricing.Number.Precision
import TenderPricing.Number.Rounding
import TenderPricing.Number.Shortest
import TenderPricing.Pricing.Aggregation
import TenderPricing.Pricing.Consistency
import TenderPricing.Pricing.Cost
import TenderPricing.Pricing.Distribution
import TenderPricing.Pricing.Item
import TenderPricing.Pricing.ItemType
import TenderPricing.Pricing.Tactic
import TenderPricing.Proofs.Markup.Exclusion
import TenderPricing.Proofs.Markup.FinalValue
import TenderPricing.Proofs.Markup.Homogeneity
import TenderPricing.Proofs.Markup.Loading
import TenderPricing.Proofs.Markup.Redirection
import TenderPricing.Proofs.Markup.References
import TenderPricing.Proofs.Markup.Safety
import TenderPricing.Proofs.Outcome
import TenderPricing.Proofs.Pricing.Credits
import TenderPricing.Schema.Command
import TenderPricing.Schema.Migration
import TenderPricing.Schema.Statement
import TenderPricing.Schema.Table
import TenderPricing.Schema.Tables
import TenderPricing.Service.Answer
import TenderPricing.Service.Body
import TenderPricing.Service.Checked
import TenderPricing.Service.Endpoint
import TenderPricing.Service.Headers
import TenderPricing.Service.Pricing
import TenderPricing.Service.Reply
import TenderPricing.Service.Server
import TenderPricing.Service.Target
import TenderPricing.Service.Versions
import TenderPricing.Setup.DatabaseUrl
import TenderPricing.Setup.Launch
import TenderPricing.Setup.Logging
import TenderPricing.Setup.Variables
import TenderPricing.Store.Context
import TenderPricing.Store.Flush
import TenderPricing.Store.Identifier
import TenderPricing.Store.Recalculation
import TenderPricing.Store.Tables
import TenderPricing.Store.Transaction
import TenderPricing.Text.Blank
import TenderPricing.Text.DecimalDigit
import TenderPricing.Text.LowerCase
import TenderPricing.Text.Printable
import TenderPricing.Text.Quoted
import TenderPricing.Text.Ranges
import TenderPricing.Transfer.AlternativeParent
import TenderPricing.Transfer.Numbering
import TenderPricing.Transfer.Plan
import TenderPricing.Proofs.Markup.KeptSteps
import TenderPricing.Proofs.Markup.ReferenceGraph
import TenderPricing.Proofs.Number.Cents
import TenderPricing.Proofs.Pricing.Conservation
import TenderPricing.Proofs.Store.Settlement
import TenderPricing.Proofs.Keyed
import TenderPricing.Proofs.Markup.Chain
import TenderPricing.Proofs.Pricing.MarkupTotals
import TenderPricing.Proofs.Pricing.Additivity
import TenderPricing.Proofs.Pricing.Agreement
import TenderPricing.Proofs.Markup.RoundTrip
import TenderPricing.Proofs.Markup.Grammar
import TenderPricing.Proofs.Markup.Acceptance
import TenderPricing.Proofs.Markup.Rejection
import TenderPricing.Proofs.Markup.Review
import TenderPricing.Proofs.Service.Admission
import TenderPricing.Proofs.Service.Loading
import TenderPricing.Proofs.Service.Validation
import TenderPricing.Proofs.Matching.Partition
import TenderPricing.Proofs.Matching.Greedy
import TenderPricing.Proofs.Matching.Floor
import TenderPricing.Proofs.Transfer.Plan
import TenderPricing.Proofs.Transfer.RegularNumbers
import TenderPricing.Proofs.Store.ItemRun
import TenderPricing.Proofs.Store.Rerun
import TenderPricing.Proofs.Store.RowOrder
import TenderPricing.Proofs.Store.RollUp
import TenderPricing.Proofs.Store.Session
import TenderPricing.Proofs.Service.Recalculation
import TenderPricing.Proofs.Markup.StoredTactic
import TenderPricing.Proofs.Store.Loading
import TenderPricing.Proofs.Service.TenderLoading
import TenderPricing.Proofs.Number.Normal
import TenderPricing.Proofs.Number.Value
import TenderPricing.Proofs.Transfer.Gap
import TenderPricing.Proofs.Transfer.Capacity
import TenderPricing.Proofs.Schema.Contents
import TenderPricing.Proofs.Schema.Upgrade
import TenderPricing.Proofs.Schema.Downgrade
import TenderPricing.Proofs.Access.Identity
import TenderPricing.Proofs.Service.Authorization
import TenderPricing.Proofs.Transfer.NearestParent
import TenderPricing.Proofs.Matching.EditScript
import TenderPricing.Proofs.Text.SmallLetters
import TenderPricing.Proofs.Text.Words
import TenderPricing.Proofs.Matching.NormalForm
import TenderPricing.Proofs.Number.Checked
import TenderPricing.Proofs.Matching.ExactScore
import TenderPricing.Proofs.Markup.Shortening
import TenderPricing.Proofs.Markup.Configuration
import TenderPricing.Proofs.Store.FailedRun
import TenderPricing.Proofs.Markup.NamedRates
import TenderPricing.Proofs.Pricing.NamedRates
import TenderPricing.Proofs.Transfer.Succession
