import JsonUnpack.Main
import JsonUnpack.Command.Directory
import JsonUnpack.Proofs.NodePaths
import JsonUnpack.Proofs.LineReading
import JsonUnpack.Proofs.ProgramLines
import JsonUnpack.Proofs.StemNames
import JsonUnpack.Proofs.DeclarationVisits
import JsonUnpack.Proofs.PlacedVisits
import JsonUnpack.Proofs.DeclarationCoverage
import JsonUnpack.Proofs.ReferenceScopes
import JsonUnpack.Proofs.DeclarationAddressing
import JsonUnpack.Proofs.FlatteningInvariance
import JsonUnpack.Proofs.CompactText
import JsonUnpack.Proofs.DocumentReading
import JsonUnpack.Proofs.EmbeddedDocument
import JsonUnpack.Proofs.BracketDepth
import JsonUnpack.Proofs.BufferSizeReading
import JsonUnpack.Proofs.DeclaredNames
import JsonUnpack.Proofs.DistinctNames
import JsonUnpack.Proofs.WholeLines
import JsonUnpack.Proofs.FileStorage
import JsonUnpack.Proofs.RunOutcome
import JsonUnpack.Proofs.ListingEdits
import JsonUnpack.Proofs.BlankLines
import JsonUnpack.Proofs.MemberExpressions
import JsonUnpack.Proofs.NameStarts
import JsonUnpack.Proofs.CanonicalBufferSize
import JsonUnpack.Proofs.RedeclaredNames
import JsonUnpack.Proofs.NearestMagnitude
import JsonUnpack.Proofs.NumberTypes
import JsonUnpack.Proofs.SkippedValues
import JsonUnpack.Proofs.ConfigurationReading
import JsonUnpack.Proofs.SettingSources
import JsonUnpack.Proofs.FlagPlacement
import JsonUnpack.Proofs.SanitizedNames
import JsonUnpack.Proofs.IndentationWalk
