import GpuScript.BufferComparison
import GpuScript.Proofs.ComponentPlaces
import GpuScript.Script
import GpuScript.Loader
import GpuScript.Proofs.StorableValues
import GpuScript.Proofs.DataWriting
import GpuScript.Proofs.StoredBytes
import GpuScript.Proofs.ReadLines
import GpuScript.Proofs.TableEdits
import GpuScript.Proofs.BoundBuffers
import GpuScript.Proofs.BindingHistory
import GpuScript.Proofs.LoadingRun
import GpuScript.Proofs.BufferGrowth
import GpuScript.Proofs.DataCommands
import GpuScript.Proofs.DataReplay
import GpuScript.Proofs.MaximumSize
import GpuScript.Proofs.KnownFormats
import GpuScript.Proofs.LineAdditions
import GpuScript.Proofs.SectionFields
import GpuScript.Proofs.LoadOutcome
import GpuScript.Proofs.BufferCalls
import GpuScript.Proofs.ValueRoundTrip
import GpuScript.Proofs.ElementEncoding
import GpuScript.Proofs.KeptColumns
import GpuScript.Proofs.RowCells
import GpuScript.Proofs.VertexRows
import GpuScript.Proofs.LeadingLiterals
import GpuScript.Proofs.OffsetWords
import GpuScript.Proofs.ReportedLines
import GpuScript.Proofs.BufferRoles
import GpuScript.Proofs.ForwardPass
import GpuScript.Proofs.BindingUses
import GpuScript.Proofs.AlikeStates
import GpuScript.Proofs.TestBodies
import GpuScript.Proofs.MovedSizes
import GpuScript.Proofs.JoinedLines
import GpuScript.Proofs.ScannedLines
import GpuScript.Proofs.HeaderWords
import GpuScript.Proofs.ShaderSections
import GpuScript.Proofs.CarriageReturns
import GpuScript.Proofs.LinkedShaders
import GpuScript.Proofs.LineEnds
import GpuScript.Proofs.KeptComponents
import GpuScript.Proofs.StoredHalves
import GpuScript.Proofs.RequireGrammar
import GpuScript.Proofs.RequireSections
import GpuScript.Proofs.IndexSections
import GpuScript.Proofs.DataBytes
import GpuScript.Proofs.IndexTokens
import GpuScript.Proofs.TokenOccurrences
import GpuScript.Proofs.SizeWords
import GpuScript.Proofs.RecordedSizes
import GpuScript.Proofs.TypeSpellings
import GpuScript.Proofs.TestLinesInPlace
import GpuScript.Proofs.ExactComparison
import GpuScript.Proofs.ComponentDifferences
import GpuScript.Proofs.CopiedBuffers
import GpuScript.Proofs.RawCopies
import GpuScript.Proofs.LiteralParts
import GpuScript.Proofs.HalfRoundTrip
import GpuScript.Proofs.CopiedRanges
import GpuScript.Proofs.ToleranceOutcomes
import GpuScript.Proofs.FloatGrammar
import GpuScript.Proofs.StoredIntegers
import GpuScript.Proofs.ComponentIteration
import GpuScript.Proofs.ReplacementScan
import GpuScript.Proofs.FormatLookups
