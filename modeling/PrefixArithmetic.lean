import PrefixArithmetic.Expr.Nodes
import PrefixArithmetic.Main
import PrefixArithmetic.Session
import PrefixArithmetic.Proofs.Parsing.Halting
import PrefixArithmetic.Proofs.Parsing.Flat
import PrefixArithmetic.Proofs.Parsing.OnePass
import PrefixArithmetic.Proofs.Evaluation.Exact
import PrefixArithmetic.Proofs.Evaluation.Causes
import PrefixArithmetic.Proofs.Postorder
import PrefixArithmetic.Proofs.Code.Formula
import PrefixArithmetic.Proofs.Code.Meaning
import PrefixArithmetic.Proofs.Scan
import PrefixArithmetic.Proofs.Report
import PrefixArithmetic.Proofs.Blame
import PrefixArithmetic.Proofs.Code.Bare
import PrefixArithmetic.Proofs.Parsing.Image
import PrefixArithmetic.Proofs.Script.Pieces
import PrefixArithmetic.Proofs.Suffix
import PrefixArithmetic.Proofs.Text.Trim
import PrefixArithmetic.Proofs.Text.Lines
import PrefixArithmetic.Proofs.Script.Kept
import PrefixArithmetic.Proofs.CommandLine.Sources
import PrefixArithmetic.Proofs.CommandLine.Batches
import PrefixArithmetic.Proofs.Framing
import PrefixArithmetic.Proofs.CommandLine.Framing
import PrefixArithmetic.Proofs.Gaps
import PrefixArithmetic.Proofs.Positions
import PrefixArithmetic.Proofs.FirstFault
import PrefixArithmetic.Proofs.Evaluation.Accumulators
import PrefixArithmetic.Proofs.ValueLine
import PrefixArithmetic.Proofs.Binary64.Rounding
import PrefixArithmetic.Proofs.Binary64.Neutral
import PrefixArithmetic.Proofs.Evaluation.Regroup
import PrefixArithmetic.Proofs.Evaluation.OneStep
import PrefixArithmetic.Proofs.Binary64.Whole
import PrefixArithmetic.Proofs.Binary64.Quotient
import PrefixArithmetic.Proofs.Evaluation.Origin
import PrefixArithmetic.Proofs.Session
import PrefixArithmetic.Proofs.Parsing.Measures
import PrefixArithmetic.Proofs.Evaluation.Order
import PrefixArithmetic.Proofs.Evaluation.Promotion
import PrefixArithmetic.Proofs.Text.Marks
import PrefixArithmetic.Proofs.Code.Contents
import PrefixArithmetic.Proofs.Literals
import PrefixArithmetic.Proofs.Parsing.Locality
import PrefixArithmetic.Proofs.Evaluation.Exactness
