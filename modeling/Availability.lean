import Availability.Json.Audit
import Availability.Main
import Availability.Php.Program
import Availability.Proofs.BodyIsolation
import Availability.Proofs.GuardScope
import Availability.Proofs.LetterCase
import Availability.Proofs.RaisedMinimum
import Availability.Proofs.FileOrder
import Availability.Proofs.KnownClasses
import Availability.Proofs.Accounting
import Availability.Proofs.JsonText
import Availability.Proofs.KeyOrder
import Availability.Proofs.VersionText
import Availability.Proofs.TableText
import Availability.Proofs.DiskWrite
import Availability.Proofs.Encoding
import Availability.Proofs.TableGeneration
import Availability.Proofs.Lineage
import Availability.Proofs.Collation
import Availability.Proofs.TagText
import Availability.Proofs.DeclarationPlaces
import Availability.Proofs.Outcomes
import Availability.Proofs.ClassSection
import Availability.Proofs.GrowingClasses
import Availability.Proofs.NearestClass
import Availability.Proofs.Tour
import Availability.Proofs.Enclosure
import Availability.Proofs.ScopeIdentity
import Availability.Proofs.Moments
import Availability.Proofs.Bindings
import Availability.Proofs.LatestBinding
import Availability.Proofs.ByteOrder
import Availability.Proofs.TableLookup
import Availability.Proofs.VersionGrammar
import Availability.Proofs.NameCollisions
import Availability.Proofs.GuardedVariables
import Availability.Proofs.Extents
import Availability.Proofs.RuleExtents
import Availability.Proofs.QuotedExtents
import Availability.Proofs.GrammarExtents
import Availability.Proofs.Rows
import Availability.Proofs.Trimming
import Availability.Proofs.Directives
import Availability.Proofs.SuppressionRows
import Availability.Proofs.CommentStyles
import Availability.Proofs.PlainDirectives
import Availability.Proofs.HeaderLines
import Availability.Proofs.FilePaths
import Availability.Proofs.CollectedSources
import Availability.Proofs.MinimumRanking
import Availability.Proofs.ReportAgreement
import Availability.Proofs.ReportText
import Availability.Proofs.QuotedLiterals
import Availability.Proofs.Substitutions
import Availability.Proofs.OpenFrames
