import PhpNames.AutoloadMap
import PhpNames.Builtin
import PhpNames.Candidates
import PhpNames.Commands
import PhpNames.Configuration
import PhpNames.Declarations
import PhpNames.Derivation
import PhpNames.Document
import PhpNames.Edit
import PhpNames.Editor
import PhpNames.Entries
import PhpNames.Error
import PhpNames.FileTree
import PhpNames.Glob
import PhpNames.Import
import PhpNames.Json.Basic
import PhpNames.Json.Number
import PhpNames.Json.Token
import PhpNames.Main
import PhpNames.Manifest
import PhpNames.NamespaceStatement
import PhpNames.Path
import PhpNames.Proofs.AcceptedAlias
import PhpNames.Proofs.AgreeingNames
import PhpNames.Proofs.AliasQuestions
import PhpNames.Proofs.Batches
import PhpNames.Proofs.BlockGrowth
import PhpNames.Proofs.BlockUpToOrder
import PhpNames.Proofs.CandidateList
import PhpNames.Proofs.CommandRuns
import PhpNames.Proofs.DerivedNamespace
import PhpNames.Proofs.DirectoryNames
import PhpNames.Proofs.DistinctNames
import PhpNames.Proofs.EveryPosition
import PhpNames.Proofs.ExactScan
import PhpNames.Proofs.ExactWords
import PhpNames.Proofs.ExpandedImport
import PhpNames.Proofs.Expansion
import PhpNames.Proofs.FaithfulEditor
import PhpNames.Proofs.FirstOccurrences
import PhpNames.Proofs.FreeImport
import PhpNames.Proofs.FreshImport
import PhpNames.Proofs.GeneratedNamespace
import PhpNames.Proofs.ImportAccount
import PhpNames.Proofs.ImportAllTurns
import PhpNames.Proofs.ImportBatches
import PhpNames.Proofs.ImportCalls
import PhpNames.Proofs.ImportOrder
import PhpNames.Proofs.ImportRuns
import PhpNames.Proofs.InsertionSort
import PhpNames.Proofs.Layout
import PhpNames.Proofs.LineReferences
import PhpNames.Proofs.ManifestChain
import PhpNames.Proofs.ManifestText
import PhpNames.Proofs.MergedTables
import PhpNames.Proofs.MirroredEdit
import PhpNames.Proofs.MixedLineEnds
import PhpNames.Proofs.NamespaceLine
import PhpNames.Proofs.NamespaceRoundTrip
import PhpNames.Proofs.NamespaceSegments
import PhpNames.Proofs.NaturalOrder
import PhpNames.Proofs.NewUseLine
import PhpNames.Proofs.NormalSeparators
import PhpNames.Proofs.OpenBuffers
import PhpNames.Proofs.PlainReplies
import PhpNames.Proofs.PolicyOrder
import PhpNames.Proofs.RestatedNamespace
import PhpNames.Proofs.Rewriting
import PhpNames.Proofs.ShortNames
import PhpNames.Proofs.SortedBlock
import PhpNames.Proofs.StableBlock
import PhpNames.Proofs.TidyBatches
import PhpNames.Proofs.UriRoundTrip
import PhpNames.Proofs.WaitingCursors
import PhpNames.Proofs.WholeWords
import PhpNames.References
import PhpNames.Server.Basic
import PhpNames.Server.Client
import PhpNames.Server.Params
import PhpNames.Server.Reading
import PhpNames.Server.Requests
import PhpNames.Server.Script
import PhpNames.Server.Wire
import PhpNames.Settings
import PhpNames.Sorting
import PhpNames.StableSort
import PhpNames.Text.Basic
import PhpNames.Text.Blank
import PhpNames.Text.Lowercase
import PhpNames.Text.Quoted
import PhpNames.Text.Ranges
import PhpNames.Text.Units
import PhpNames.Text.Utf8
import PhpNames.Text.WordChar
import PhpNames.Uri.FilePath
import PhpNames.Uri.Host
import PhpNames.Uri.Percent
import PhpNames.Uri.Syntax
import PhpNames.UseStatement
import PhpNames.Word
import PhpNames.Workbench
