import Stencil.Parameter.Json
import Stencil.Proofs.Expr.Provenance
import Stencil.Proofs.Path.Spelling
import Stencil.Proofs.Rendering.Single
import Stencil.Proofs.Rendering.Positional
import Stencil.Proofs.Template.Failure
import Stencil.Proofs.Template.Interpreted
import Stencil.Proofs.Template.Reads
import Stencil.Proofs.Template.Settled
import Stencil.Proofs.Template.Objects
import Stencil.Proofs.Template.Summary
import Stencil.Proofs.Template.Integers
import Stencil.Template.Inspect
import Stencil.Proofs.Placeholder.Intact
import Stencil.Proofs.Template.Defaults
import Stencil.Proofs.Expr.Lexing
import Stencil.Proofs.Placeholder.Alphabet
import Stencil.Proofs.Expr.Printed
import Stencil.Proofs.Expr.Height
import Stencil.Proofs.Expr.Integers
import Stencil.Proofs.Expr.Bracketed
import Stencil.Proofs.Number.Rounding
import Stencil.Proofs.Expr.Overflowing
import Stencil.Proofs.Expr.Comparing
import Stencil.Proofs.Number.Binary
import Stencil.Proofs.Expr.Lazy
import Stencil.Proofs.Value.Equality
import Stencil.Proofs.Expr.Reading
import Stencil.Proofs.Expr.Positions
import Stencil.Proofs.Expr.Blanks
import Stencil.Proofs.FirstWins.Places
import Stencil.Proofs.Value.Plain
import Stencil.Proofs.Parameter
