import Schemata.Json.Reader
import Schemata.Main
import Schemata.Proofs.Attribute.Accounting
import Schemata.Proofs.Attribute.ArgumentOrder
import Schemata.Proofs.Attribute.Binding
import Schemata.Proofs.Attribute.FieldLists
import Schemata.Proofs.Attribute.KeyLists
import Schemata.Proofs.Attribute.Placement
import Schemata.Proofs.Decimal.Comparing
import Schemata.Proofs.Decimal.Rounding
import Schemata.Proofs.Json.Arrangement
import Schemata.Proofs.Lowering.Correctness
import Schemata.Proofs.Lowering.Future
import Schemata.Proofs.Lowering.Hygiene
import Schemata.Proofs.Lowering.Identity
import Schemata.Proofs.Lowering.Inlining
import Schemata.Proofs.Lowering.Integers
import Schemata.Proofs.Lowering.Interpreter
import Schemata.Proofs.Lowering.Invariant
import Schemata.Proofs.Lowering.Names
import Schemata.Proofs.Lowering.NegationNormal
import Schemata.Proofs.Lowering.Parts
import Schemata.Proofs.Lowering.Progress
import Schemata.Proofs.Lowering.Recursion
import Schemata.Proofs.Lowering.Scoping
import Schemata.Proofs.Lowering.Simulation
import Schemata.Proofs.Lowering.Soundness
import Schemata.Proofs.Lowering.Tests
import Schemata.Proofs.NameMap
import Schemata.Proofs.Order.Attributes
import Schemata.Proofs.Order.Bases
import Schemata.Proofs.Order.Declarations
import Schemata.Proofs.Order.Extends
import Schemata.Proofs.Order.Groups
import Schemata.Proofs.Order.Hierarchy
import Schemata.Proofs.Order.Inherited
import Schemata.Proofs.Order.Lowering
import Schemata.Proofs.Order.Names
import Schemata.Proofs.Order.Pairs
import Schemata.Proofs.Order.Passes
import Schemata.Proofs.Order.Permutations
import Schemata.Proofs.Order.Reorder
import Schemata.Proofs.Order.Structure
import Schemata.Proofs.Order.Turns
import Schemata.Proofs.Order.Typing
import Schemata.Proofs.Places.Attributes
import Schemata.Proofs.Places.Documents
import Schemata.Proofs.Places.Lowering
import Schemata.Proofs.Places.Relations
import Schemata.Proofs.Places.Schema
import Schemata.Proofs.Places.Structure
import Schemata.Proofs.Places.Syntax
import Schemata.Proofs.Places.Typing
import Schemata.Proofs.Policy.Bundle
import Schemata.Proofs.Policy.Conditions
import Schemata.Proofs.Policy.Decisions
import Schemata.Proofs.Policy.Decoding
import Schemata.Proofs.Policy.Future
import Schemata.Proofs.Policy.Inheritance
import Schemata.Proofs.Policy.Operations
import Schemata.Proofs.Policy.Rules
import Schemata.Proofs.Policy.Scoping
import Schemata.Proofs.Predicate.Comparisons
import Schemata.Proofs.Predicate.Decoding
import Schemata.Proofs.Predicate.Induction
import Schemata.Proofs.Predicate.Scoping
import Schemata.Proofs.Relation.Candidates
import Schemata.Proofs.Relation.Edges
import Schemata.Proofs.Relation.ForeignKeys
import Schemata.Proofs.Relation.OneToOne
import Schemata.Proofs.Relation.Partition
import Schemata.Proofs.Result
import Schemata.Proofs.Schema.Ancestors
import Schemata.Proofs.Schema.Ancestry
import Schemata.Proofs.Schema.CycleReports
import Schemata.Proofs.Schema.Cycles
import Schemata.Proofs.Schema.Delegates
import Schemata.Proofs.Schema.Flattening
import Schemata.Proofs.Schema.Hierarchy
import Schemata.Proofs.Schema.Keys
import Schemata.Proofs.Schema.Legality
import Schemata.Proofs.Schema.Loosening
import Schemata.Proofs.Schema.Members
import Schemata.Proofs.Schema.SharedFields
import Schemata.Proofs.Schema.Symbols
import Schemata.Proofs.Schema.Ways
import Schemata.Proofs.Syntax.AttributeRoundTrip
import Schemata.Proofs.Syntax.BodyRoundTrip
import Schemata.Proofs.Syntax.Comments
import Schemata.Proofs.Syntax.Decoding
import Schemata.Proofs.Syntax.DocumentComments
import Schemata.Proofs.Syntax.DocumentForm
import Schemata.Proofs.Syntax.DocumentPlaces
import Schemata.Proofs.Syntax.DocumentRoundTrip
import Schemata.Proofs.Syntax.ExprInduction
import Schemata.Proofs.Syntax.ExprPlaces
import Schemata.Proofs.Syntax.ExprRoundTrip
import Schemata.Proofs.Syntax.ExprSteps
import Schemata.Proofs.Syntax.Follow
import Schemata.Proofs.Syntax.Formatting
import Schemata.Proofs.Syntax.Items
import Schemata.Proofs.Syntax.Levels
import Schemata.Proofs.Syntax.Outline
import Schemata.Proofs.Syntax.Parentheses
import Schemata.Proofs.Syntax.Passages
import Schemata.Proofs.Syntax.PrimaryForms
import Schemata.Proofs.Syntax.ReadsAlike
import Schemata.Proofs.Syntax.WellFormed
import Schemata.Proofs.Syntax.Words
import Schemata.Proofs.Text.Coordinates
import Schemata.Proofs.Typing.Descendants
import Schemata.Proofs.Typing.Issues
import Schemata.Proofs.Typing.Loosening
import Schemata.Proofs.Typing.Paths
import Schemata.Proofs.Typing.Standard
import Schemata.Proofs.Typing.Values
import Schemata.Proofs.Validation.Clean
import Schemata.Proofs.Validation.Located
import Schemata.Proofs.Validation.LocatedRelations
import Schemata.Proofs.Validation.LocatedSchema
import Schemata.Proofs.Validation.SourcePlaces
