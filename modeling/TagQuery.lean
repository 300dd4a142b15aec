import TagQuery.Main
import TagQuery.Filter.Cache
import TagQuery.Log.Memory
import TagQuery.Proofs.Grammar
import TagQuery.Proofs.ReaderSound
import TagQuery.Proofs.ReaderExact
import TagQuery.Proofs.Numerals
import TagQuery.Proofs.Layout
import TagQuery.Proofs.FloatBits
import TagQuery.Proofs.CompiledValidity
import TagQuery.Proofs.DecimalText
import TagQuery.Proofs.CanonicalText
import TagQuery.Proofs.RoundTrip
import TagQuery.Proofs.Regrouping
import TagQuery.Proofs.Composition
import TagQuery.Proofs.Parentheses
import TagQuery.Proofs.BatchDecisions
import TagQuery.Proofs.Places
import TagQuery.Proofs.TokenPlaces
import TagQuery.Proofs.Lookups
import TagQuery.Proofs.CacheRuns
import TagQuery.Proofs.CacheInterleaving
import TagQuery.Proofs.WorkerCrashes
import TagQuery.Proofs.CompilationTrace
import TagQuery.Proofs.ReaderStops
import TagQuery.Proofs.ParenMatching
import TagQuery.Proofs.ViablePrefix
import TagQuery.Proofs.ConditionTexts
import TagQuery.Proofs.ErrorPlaces
import TagQuery.Proofs.FirstFault
import TagQuery.Proofs.Chains
import TagQuery.Proofs.FailFast
import TagQuery.Proofs.DiagnosticPlaces
import TagQuery.Proofs.CaretPlaces
import TagQuery.Proofs.ByteOrder
import TagQuery.Proofs.StoreContents
import TagQuery.Proofs.BoundedWalks
import TagQuery.Proofs.TokenBudget
import TagQuery.Proofs.Descent
import TagQuery.Proofs.CursorReads
import TagQuery.Proofs.DescentReads
import TagQuery.Proofs.EndMarkers
import TagQuery.Proofs.CommandParts
import TagQuery.Proofs.CommandLines
import TagQuery.Proofs.PositionalWords
import TagQuery.Proofs.RecentEvents
import TagQuery.Proofs.CommandOutput
import TagQuery.Proofs.WorkSplitting
import TagQuery.Proofs.MessageCuts
import TagQuery.Proofs.JsonStrings
import TagQuery.Proofs.JsonNumbers
import TagQuery.Proofs.JsonReads
import TagQuery.Proofs.JsonRoundTrip
import TagQuery.Proofs.StoredExpressions
