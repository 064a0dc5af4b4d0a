import Compdb.Main
import Compdb.Text.Utf8.RoundTrip
import Compdb.Proofs.CommandLine.Quoting
import Compdb.Proofs.Database.Index
import Compdb.Proofs.Database.Merging
import Compdb.Proofs.Database.Lookup
import Compdb.Proofs.Classification.Files
import Compdb.Proofs.Invocation
import Compdb.Proofs.IncludeSet
import Compdb.Proofs.Session.History
import Compdb.Proofs.Json.Reading
import Compdb.Proofs.EntryFormat.RoundTrip
import Compdb.Proofs.FileTree
import Compdb.Proofs.Storage
import Compdb.Proofs.Session.Validity
import Compdb.Proofs.Build
import Compdb.Proofs.Session.Resumption
import Compdb.Proofs.Database.Outcomes
import Compdb.Proofs.Invocation.Marker
import Compdb.Proofs.Session.Counting
import Compdb.Proofs.Session.Idle
import Compdb.Proofs.Session.Replay
import Compdb.Proofs.Session.Recovery
import Compdb.Proofs.Database.Commutation
import Compdb.Proofs.Session.Commutation
import Compdb.Proofs.CommandLine.Runs
import Compdb.Proofs.Json.Building
import Compdb.Proofs.Json.Layout
import Compdb.Proofs.Json.Skimming
import Compdb.Proofs.EntryFormat.Layout
import Compdb.Proofs.EventFormat.Lines
import Compdb.Proofs.EventFormat.Layout
import Compdb.Proofs.Storage.Loading
import Compdb.Proofs.CommandLine.Stability
import Compdb.Proofs.Classification.Findings
import Compdb.Proofs.Classification.Composition
import Compdb.Proofs.Classification.Canonical
import Compdb.Proofs.Classification.ForcedSource
import Compdb.Proofs.Classification.Rereading
import Compdb.Proofs.Invocation.Reading
import Compdb.Proofs.IncludeSet.Growth
import Compdb.Proofs.IncludeSet.Agreement
import Compdb.Proofs.Session.Agreement
import Compdb.Proofs.Text.Items
import Compdb.Proofs.Config.Settings
import Compdb.Proofs.Config.Composition
import Compdb.Proofs.Config.Writing
import Compdb.Proofs.Config.Precedence
import Compdb.Proofs.EventFormat.Locality
import Compdb.Proofs.Text.Utf8
import Compdb.Proofs.CommandLine.Rounds
