import Reckoner.Main
import Reckoner.Proofs.Moment.Fields
import Reckoner.Proofs.Exponents
import Reckoner.Proofs.Number.Exact
import Reckoner.Proofs.Unit.Algebra
import Reckoner.Proofs.Quantity
import Reckoner.Proofs.Number.Nonzero
import Reckoner.Proofs.Unit.Symbol
import Reckoner.Proofs.Unit.Representation
import Reckoner.Proofs.Unit.Registry
import Reckoner.Proofs.Unit.Catalogue
import Reckoner.Proofs.Diagnostic
import Reckoner.Proofs.Expr.Path
import Reckoner.Proofs.Library
import Reckoner.Proofs.Expr.Provenance
import Reckoner.Proofs.Moment.Iso
import Reckoner.Proofs.Number.Parts
import Reckoner.Proofs.Expr.Dimension
import Reckoner.Proofs.Expr.Exactness
import Reckoner.Proofs.Expr.Congruence
import Reckoner.Proofs.Expr.Depth
import Reckoner.Proofs.Expr.Product
import Reckoner.Proofs.Unit.Built
import Reckoner.Proofs.Expr.Units
import Reckoner.Proofs.Moment.Cuts
import Reckoner.Proofs.Text.Lower
import Reckoner.Proofs.Unit.Terms
import Reckoner.Proofs.Unit.Names
import Reckoner.Proofs.Unit.Lookup
import Reckoner.Proofs.Unit.Standard
import Reckoner.Proofs.Unit.Product
import Reckoner.Proofs.Unit.Reading
import Reckoner.Proofs.Unit.ReadBack
import Reckoner.Proofs.Expr.Contract
import Reckoner.Proofs.Expr.Blank
import Reckoner.Proofs.Number.Bits
import Reckoner.Proofs.Expr.Size
import Reckoner.Proofs.Number.Magnitude
import Reckoner.Proofs.Expr.Range
import Reckoner.Proofs.Exchange.Expr
import Reckoner.Proofs.Number.Reading
import Reckoner.Proofs.Number.Layout
import Reckoner.Proofs.Number.Terminating
import Reckoner.Proofs.Number.Significant
import Reckoner.Proofs.Number.Renderings
import Reckoner.Proofs.Moment.Months
import Reckoner.Proofs.Moment.Durations
import Reckoner.Proofs.Moment.Weeks
import Reckoner.Proofs.Moment.TimeOfDay
import Reckoner.Proofs.Number.Powers
import Reckoner.Proofs.Number.Roots
import Reckoner.Proofs.Number.Whole
import Reckoner.Proofs.Number.Trigonometry
import Reckoner.Proofs.Decimal.Compare
import Reckoner.Proofs.Number.Demotion
import Reckoner.Proofs.Unit.Conversion
import Reckoner.Proofs.Quantity.Equality
import Reckoner.Proofs.Unit.Coherent
import Reckoner.Proofs.Unit.Overflow
import Reckoner.Proofs.Quantity.Squares
import Reckoner.Proofs.Text.EditDistance
import Reckoner.Proofs.Unit.Suggestion
import Reckoner.Proofs.Expr.Literal
import Reckoner.Proofs.Number.Integers
