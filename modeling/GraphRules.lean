import GraphRules.Extractor.Recipe
import GraphRules.Inspect
import GraphRules.Kind.Json
import GraphRules.Rule.Document
import GraphRules.Session
import GraphRules.Store.Json
import GraphRules.Proofs.Validation.Attribution
import GraphRules.Proofs.Validation.Journal
import GraphRules.Proofs.Walk.Coverage
import GraphRules.Proofs.Extraction.Branch
import GraphRules.Proofs.Registry.Memory
import GraphRules.Proofs.Validation.Declared
import GraphRules.Proofs.Extraction.Outcome
import GraphRules.Proofs.Validation.Completeness
import GraphRules.Proofs.Kind.Order
import GraphRules.Proofs.Extraction.Depth
import GraphRules.Proofs.Extraction.Isolation
import GraphRules.Proofs.RuleBook.Filing
import GraphRules.Proofs.Validation.MoreRules
import GraphRules.Proofs.Walk.Kinds
import GraphRules.Proofs.Registry.Dispatch
import GraphRules.Proofs.Store.History
import GraphRules.Proofs.Walk.Hidden
import GraphRules.Proofs.Rule.Bounds
import GraphRules.Proofs.Walk.Levels
import GraphRules.Proofs.Extraction.Height
import GraphRules.Proofs.Descriptor.Notes
import GraphRules.Proofs.RuleBook.Workshop
import GraphRules.Proofs.Validation.Enforcement
import GraphRules.Proofs.Extraction.Marks
import GraphRules.Proofs.Extraction.OneLevel
import GraphRules.Proofs.Store.Items
import GraphRules.Proofs.Store.Entries
import GraphRules.Proofs.Store.Comparison
import GraphRules.Proofs.RuleBook.Log
import GraphRules.Proofs.Rule.Thresholds
import GraphRules.Proofs.Rule.Contract
import GraphRules.Proofs.Violation.Parameters
import GraphRules.Proofs.Store.Bindings
import GraphRules.Proofs.Json.Conversion
import GraphRules.Proofs.Kind.Spelling
import GraphRules.Proofs.Validation.Places
