import BuildMatrix.Main
import BuildMatrix.Proofs.App.BuildFolder
import BuildMatrix.Proofs.Build.Jobs
import BuildMatrix.Proofs.Discovery.Union
import BuildMatrix.Proofs.Expr.RoundTrip
import BuildMatrix.Proofs.Gate.Checked
import BuildMatrix.Proofs.Gate.Growth
import BuildMatrix.Proofs.Gate.RuleChange
import BuildMatrix.Proofs.Manifest.Document
import BuildMatrix.Proofs.Manifest.Reasons
import BuildMatrix.Proofs.Discovery.Disabled
import BuildMatrix.Proofs.Manifest.Declared
import BuildMatrix.Proofs.Manifest.Nearest
import BuildMatrix.Proofs.Manifest.Strict
import BuildMatrix.Proofs.Manifest.Content
import BuildMatrix.Proofs.Manifest.MergeChain
import BuildMatrix.Proofs.CommandLine.ExitCode
import BuildMatrix.Proofs.Discovery.Included
import BuildMatrix.Proofs.Gate.Verdict
import BuildMatrix.Proofs.Discovery.Repeats
import BuildMatrix.Proofs.Manifest.PostfixList
import BuildMatrix.Proofs.Expr.SameInk
import BuildMatrix.Proofs.Manifest.SameKey
import BuildMatrix.Proofs.App.Expansion
import BuildMatrix.Proofs.Discovery.Topmost
import BuildMatrix.Proofs.Manifest.EmptyPostfix
import BuildMatrix.Proofs.Manifest.ListOrder
import BuildMatrix.Proofs.Build.Overwritten
import BuildMatrix.Proofs.Manifest.Reading
import BuildMatrix.Proofs.Value.Comparison
import BuildMatrix.Proofs.Expr.VersionTest
import BuildMatrix.Proofs.App.Separation
import BuildMatrix.Proofs.Expr.Eager
import BuildMatrix.Proofs.Sdk.Config
import BuildMatrix.Proofs.Sdk.Define
import BuildMatrix.Proofs.Glob.Root
import BuildMatrix.Proofs.Expr.MajorTest
import BuildMatrix.Proofs.Expr.Splitting
import BuildMatrix.Proofs.Path.Stable
