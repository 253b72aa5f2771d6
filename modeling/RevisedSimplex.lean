import RevisedSimplex.Decimal.Shortest
import RevisedSimplex.Decimal.Notation
import RevisedSimplex.Decimal.Read
import RevisedSimplex.Text.Alphabetic
import RevisedSimplex.Text.Numeric
import RevisedSimplex.Source.Token
import RevisedSimplex.Source.Parse
import RevisedSimplex.Scalar
import RevisedSimplex.LinearProgram
import RevisedSimplex.Source.Load
import RevisedSimplex.Matrix
import RevisedSimplex.Basis
import RevisedSimplex.Factorization
import RevisedSimplex.Solve
import RevisedSimplex.Summary
import RevisedSimplex.Reference.Tableau
import RevisedSimplex.Reference.Method
import RevisedSimplex.Reference.Summary
import RevisedSimplex.Report
import RevisedSimplex.Engine
import RevisedSimplex.Log
import RevisedSimplex.Cli.Host
import RevisedSimplex.Cli.Files
import RevisedSimplex.Dump
import RevisedSimplex.Text.GraphemeExtend
import RevisedSimplex.Text.Hidden
import RevisedSimplex.Text.Similarity
import RevisedSimplex.Cli.Path
import RevisedSimplex.Cli.Commands
import RevisedSimplex.Cli.Arguments
import RevisedSimplex.Cli.Records
import RevisedSimplex.Cli.Run
import RevisedSimplex.Main
import RevisedSimplex.Proofs.Exact
import RevisedSimplex.Proofs.MatrixView
import RevisedSimplex.Proofs.Inverse
import RevisedSimplex.Proofs.BasisView
import RevisedSimplex.Proofs.Pricing
import RevisedSimplex.Proofs.PivotRules
import RevisedSimplex.Proofs.Pivot
import RevisedSimplex.Proofs.Reachable
import RevisedSimplex.Proofs.RevisedCorrectness
import RevisedSimplex.Proofs.TableauView
import RevisedSimplex.Proofs.BlandRule
import RevisedSimplex.Proofs.PhaseOne
import RevisedSimplex.Proofs.ReferenceCorrectness
import RevisedSimplex.Proofs.CrossCheck
import RevisedSimplex.Proofs.IterationCap
import RevisedSimplex.Proofs.TraceShape
import RevisedSimplex.Proofs.Lexing
import RevisedSimplex.Proofs.RoundTrip
import RevisedSimplex.Proofs.Objective
import RevisedSimplex.Proofs.Termination
import RevisedSimplex.Proofs.Anticycling
import RevisedSimplex.Binary64
import RevisedSimplex.Proofs.Binary64
import RevisedSimplex.Proofs.SlackGate
import RevisedSimplex.Proofs.BasisUpdates
import RevisedSimplex.Proofs.Loading
import RevisedSimplex.Proofs.ParseSteps
import RevisedSimplex.Proofs.NumberTokens
import RevisedSimplex.Proofs.Spans
import RevisedSimplex.Proofs.ResultShape
import RevisedSimplex.Proofs.TableauLayout
import RevisedSimplex.Proofs.IndexBounds
import RevisedSimplex.Proofs.DriveOut
import RevisedSimplex.Proofs.PivotRulesBinary64
