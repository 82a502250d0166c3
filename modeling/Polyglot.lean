import Polyglot.Catalog.Build
import Polyglot.Cli.Command
import Polyglot.Generate.Targets
import Polyglot.Main
import Polyglot.Project.Run
import Polyglot.Proofs.Expansion
import Polyglot.Proofs.Maps
import Polyglot.Proofs.NormalForm
import Polyglot.Proofs.Parameters
import Polyglot.Proofs.ReadNames
import Polyglot.Proofs.Rereading
import Polyglot.Proofs.Resolving
import Polyglot.Proofs.Scoping
import Polyglot.Proofs.Signatures
import Polyglot.Proofs.TemplateMeaning
import Polyglot.Proofs.TemplateReader
import Polyglot.Proofs.Writing
import Polyglot.Settings.Discovery
import Polyglot.Text.Lines
import Polyglot.Text.Occurrences
import Polyglot.Proofs.Runs
import Polyglot.Proofs.Cycles
import Polyglot.Proofs.Buckets
import Polyglot.Proofs.Completeness
import Polyglot.Proofs.Gate
import Polyglot.Proofs.CoverageSteps
import Polyglot.Proofs.Coverage
import Polyglot.Proofs.Emitting
import Polyglot.Proofs.ClassMembers
import Polyglot.Proofs.IndexModule
import Polyglot.Proofs.DiskChanges
import Polyglot.Proofs.FileNames
import Polyglot.Proofs.OutputFiles
import Polyglot.Proofs.Blocking
import Polyglot.Proofs.Discovery
import Polyglot.Proofs.Substitution
import Polyglot.Proofs.ModulePieces
import Polyglot.Proofs.Interleaving
import Polyglot.Proofs.AlikeDisks
import Polyglot.Proofs.Finishing
import Polyglot.Proofs.Sequential
import Polyglot.Proofs.CompleteRuns
import Polyglot.Proofs.NeverStuck
import Polyglot.Proofs.AnyOrder
import Polyglot.Proofs.CursorMoves
import Polyglot.Proofs.Embedding
import Polyglot.Proofs.Concatenation
import Polyglot.Proofs.Isolation
import Polyglot.Proofs.SourceLines
import Polyglot.Proofs.StringLiteral
import Polyglot.Proofs.Collisions
import Polyglot.Proofs.Registering
import Polyglot.Proofs.Tokens
import Polyglot.Proofs.Unbroken
import Polyglot.Proofs.Layout
import Polyglot.Proofs.SignatureJoin
import Polyglot.Proofs.CoverageIssues
import Polyglot.Proofs.ExcludedFiles
import Polyglot.Proofs.Places
import Polyglot.Proofs.Assembly
import Polyglot.Proofs.ShownPaths
import Polyglot.Proofs.IssueOrder
import Polyglot.Proofs.IssueTies
import Polyglot.Proofs.Notice
import Polyglot.Proofs.Gluing
import Polyglot.Proofs.KeyedParts
import Polyglot.Proofs.DistinctKeys
