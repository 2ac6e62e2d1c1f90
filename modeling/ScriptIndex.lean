import ScriptIndex.Breakpoints
import ScriptIndex.CallSite
import ScriptIndex.Category
import ScriptIndex.CommandLine.Arguments
import ScriptIndex.CommandLine.Invocation
import ScriptIndex.CommandLine.Run
import ScriptIndex.ConfigKey
import ScriptIndex.ConfigLine
import ScriptIndex.Context
import ScriptIndex.Datum
import ScriptIndex.Decimal.Shortest
import ScriptIndex.Decimal.Text
import ScriptIndex.Disk
import ScriptIndex.Encoding
import ScriptIndex.Index
import ScriptIndex.Indexing
import ScriptIndex.Json
import ScriptIndex.LineShape
import ScriptIndex.Main
import ScriptIndex.Match
import ScriptIndex.Moment
import ScriptIndex.Path
import ScriptIndex.Position
import ScriptIndex.Proofs.BreakpointHistory
import ScriptIndex.Proofs.CallFrames
import ScriptIndex.Proofs.Capitals
import ScriptIndex.Proofs.ChangedSettings
import ScriptIndex.Proofs.CheckedIndexing
import ScriptIndex.Proofs.CheckedRules
import ScriptIndex.Proofs.Classification
import ScriptIndex.Proofs.CursorIndependence
import ScriptIndex.Proofs.DeclaringWords
import ScriptIndex.Proofs.EarlierState
import ScriptIndex.Proofs.ExcludedFiles
import ScriptIndex.Proofs.FieldPlaces
import ScriptIndex.Proofs.FileDialects
import ScriptIndex.Proofs.FileIsolation
import ScriptIndex.Proofs.FilePaths
import ScriptIndex.Proofs.FileReplacement
import ScriptIndex.Proofs.FileTraces
import ScriptIndex.Proofs.Fixpoint
import ScriptIndex.Proofs.GrowingTable
import ScriptIndex.Proofs.HeaderSignatures
import ScriptIndex.Proofs.IndexedLines
import ScriptIndex.Proofs.IndexingRuns
import ScriptIndex.Proofs.Interpolations
import ScriptIndex.Proofs.KeptCategories
import ScriptIndex.Proofs.KeptValues
import ScriptIndex.Proofs.KeywordBindings
import ScriptIndex.Proofs.LineValues
import ScriptIndex.Proofs.LocalNames
import ScriptIndex.Proofs.LocalPlaces
import ScriptIndex.Proofs.LocalQueries
import ScriptIndex.Proofs.NearestDeclaration
import ScriptIndex.Proofs.PassStates
import ScriptIndex.Proofs.Pieces
import ScriptIndex.Proofs.Readings
import ScriptIndex.Proofs.RecordedPlaces
import ScriptIndex.Proofs.RecordedText
import ScriptIndex.Proofs.Reproduction
import ScriptIndex.Proofs.RestoredNames
import ScriptIndex.Proofs.SavedFile
import ScriptIndex.Proofs.ScriptEvents
import ScriptIndex.Proofs.ScriptVariables
import ScriptIndex.Proofs.SettingsLayers
import ScriptIndex.Proofs.SettingsLoading
import ScriptIndex.Proofs.SharedKeys
import ScriptIndex.Proofs.SharedPositions
import ScriptIndex.Proofs.ShownScripts
import ScriptIndex.Proofs.StoredSymbols
import ScriptIndex.Proofs.SwitchOperands
import ScriptIndex.Proofs.TableConsistency
import ScriptIndex.Proofs.TableEntries
import ScriptIndex.Proofs.TableViews
import ScriptIndex.Proofs.TypeKeywords
import ScriptIndex.Proofs.VariableWords
import ScriptIndex.Proofs.WordCoverage
import ScriptIndex.Proofs.Words
import ScriptIndex.Proofs.WorkspaceRuns
import ScriptIndex.Proofs.WriteOrder
import ScriptIndex.Proofs.WrittenPositions
import ScriptIndex.Proofs.WrittenSignatures
import ScriptIndex.Query
import ScriptIndex.Registry
import ScriptIndex.Role
import ScriptIndex.Rules
import ScriptIndex.ScriptBlock
import ScriptIndex.Settings.Basic
import ScriptIndex.Settings.Document
import ScriptIndex.Settings.Files
import ScriptIndex.Settings.Store
import ScriptIndex.Signature
import ScriptIndex.Snapshot
import ScriptIndex.Symbol
import ScriptIndex.SymbolTable
import ScriptIndex.Text.Classes
import ScriptIndex.Text.Glob
import ScriptIndex.Text.HiddenRanges
import ScriptIndex.Text.Letters
import ScriptIndex.Text.Numeral
import ScriptIndex.Text.Pieces
import ScriptIndex.Text.Quoted
import ScriptIndex.Text.UpperRanges
import ScriptIndex.Text.WordRanges
import ScriptIndex.Trigger
import ScriptIndex.Word
import ScriptIndex.Workspace
import ScriptIndex.Yaml.Cursor
import ScriptIndex.Yaml.Node
import ScriptIndex.Yaml.Reader
import ScriptIndex.Yaml.Scalar
import ScriptIndex.Yaml.Token
import ScriptIndex.Yaml.Writer
