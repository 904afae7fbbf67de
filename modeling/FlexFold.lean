import FlexFold.Main
import FlexFold.Proofs.Markup.Reach
import FlexFold.Proofs.Run.AllOrNothing
import FlexFold.Proofs.Run.Bystanders
import FlexFold.Proofs.Run.ReadBack
import FlexFold.Proofs.Run.Skipped
import FlexFold.Proofs.Selection.Links
import FlexFold.Proofs.Source.FixedPoint
import FlexFold.Proofs.Store.Names
import FlexFold.Proofs.Store.Replace
import FlexFold.Proofs.Json.Mirror
import FlexFold.Proofs.Markup.Lossless
import FlexFold.Proofs.Run.InPlace
import FlexFold.Proofs.Glob.Tokens
import FlexFold.Proofs.Glob.Matching
import FlexFold.Proofs.Glob.Search
import FlexFold.Proofs.Run.Excluded
import FlexFold.Proofs.Fold.Permutation
import FlexFold.Proofs.Manifest.Reconcile
import FlexFold.Proofs.Markup.Schema
import FlexFold.Proofs.Store.Leftover
import FlexFold.Proofs.Backlog
import FlexFold.Proofs.Selection.Exact
import FlexFold.Proofs.Manifest.Ranking
import FlexFold.Proofs.Settings
import FlexFold.Proofs.Reached
import FlexFold.Proofs.Replacement
import FlexFold.Proofs.CommandLine.Command
import FlexFold.Proofs.Manifest.Recover
