import Targeting.Cohort.Format
import Targeting.Audience.Store
import Targeting.Main
import Targeting.Sample
import Targeting.Warehouse.Registry
import Targeting.Warehouse.Script
import Targeting.Proofs.Statements
import Targeting.Proofs.Leaves
import Targeting.Proofs.Compilation
import Targeting.Proofs.Queries
import Targeting.Proofs.Parameters
import Targeting.Proofs.Contents
import Targeting.Proofs.Noninterference
import Targeting.Proofs.Token
import Targeting.Proofs.SearchCondition
import Targeting.Proofs.Meaning
import Targeting.Proofs.Vetted
import Targeting.Proofs.Alphabet
import Targeting.Proofs.Spacing
import Targeting.Proofs.Operand
import Targeting.Proofs.Filling
import Targeting.Proofs.Adjacency
import Targeting.Proofs.Precedence
import Targeting.Proofs.BreadthFirst
import Targeting.Proofs.SameRows
import Targeting.Proofs.Sources
import Targeting.Proofs.Findings
import Targeting.Proofs.Executed
import Targeting.Proofs.Permissions
import Targeting.Proofs.Previews
import Targeting.Proofs.Freshness
import Targeting.Proofs.Scope
import Targeting.Proofs.Membership
import Targeting.Proofs.Quoting
import Targeting.Proofs.HiddenFields
import Targeting.Proofs.Routing
import Targeting.Proofs.Roles
import Targeting.Proofs.Capture
import Targeting.Proofs.OutputNames
import Targeting.Proofs.Leniency
import Targeting.Proofs.Specification
import Targeting.Proofs.Storage
import Targeting.Proofs.Overlay
import Targeting.Proofs.SavedFilters
import Targeting.Proofs.Environment
import Targeting.Proofs.Classification
import Targeting.Proofs.Conjunction
import Targeting.Proofs.CountCells
import Targeting.Proofs.Searching
import Targeting.Proofs.PreviewNames
import Targeting.Proofs.FilterTexts
import Targeting.Proofs.IntegerOperands
import Targeting.Proofs.Literals
import Targeting.Proofs.Refusals
import Targeting.Proofs.Validity
import Targeting.Proofs.RowForms
import Targeting.Proofs.References
