import Polish.CommandLine.Run
import Polish.Expr.Building
import Polish.Interface
import Polish.Main
import Polish.Parser.Reader
import Polish.Proofs.CommandLine.Totality
import Polish.Proofs.Expr.Agreement
import Polish.Proofs.Expr.Conversion
import Polish.Proofs.Expr.Faults
import Polish.Proofs.Expr.Interchange
import Polish.Proofs.Expr.NormalForm
import Polish.Proofs.Expr.Postfix
import Polish.Proofs.Expr.Residue
import Polish.Proofs.Graph.Independence
import Polish.Proofs.Graph.Order
import Polish.Proofs.Graph.Sharing
import Polish.Proofs.Graph.Typing
import Polish.Proofs.Parsing.Diagnosis
import Polish.Proofs.Parsing.Positions
import Polish.Proofs.Parsing.Spacing
import Polish.Proofs.Session.Balance
import Polish.Proofs.Session.Functions
import Polish.Proofs.Session.Identity
import Polish.Proofs.Session.Transparency
import Polish.Proofs.Tensor.Median
import Polish.Proofs.Tensor.Roots
import Polish.Proofs.Text.LongestMatch
import Polish.Session.Run
import Polish.Statistics
import Polish.Tensor.Gradient
import Polish.Tensor.Mapping
import Polish.Text.Cursor
