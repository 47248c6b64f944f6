import HostTrust.Command.Workers
import HostTrust.Files.Tree
import HostTrust.Main
import HostTrust.Proofs.Agreement
import HostTrust.Proofs.Validity
import HostTrust.Proofs.AggregateReport
import HostTrust.Proofs.Explanation
import HostTrust.Proofs.Record
import HostTrust.Proofs.ReportHistory
import HostTrust.Proofs.HostData
import HostTrust.Proofs.Completion
import HostTrust.Proofs.Evidence
import HostTrust.Proofs.FlavorSet
import HostTrust.Proofs.SoftwareComparison
import HostTrust.Proofs.MeasuredEntries
import HostTrust.Proofs.DocumentAcceptance
import HostTrust.Proofs.PinnedLog
import HostTrust.Proofs.Markup
import HostTrust.Proofs.MarkupTokens
import HostTrust.Proofs.WrittenDocument
import HostTrust.Proofs.RecordRoundTrip
import HostTrust.Proofs.FlavorRoundTrip
import HostTrust.Proofs.ManifestRoundTrip
import HostTrust.Proofs.ReportRoundTrip
import HostTrust.Proofs.VerifiedReports
import HostTrust.Proofs.CompactForm
import HostTrust.Proofs.CompactReading
import HostTrust.Proofs.SourceAgreement
import HostTrust.Proofs.SignatureCoverage
import HostTrust.Proofs.SeveralHosts
import HostTrust.Proofs.ChainBinding
import HostTrust.Proofs.RecordParts
import HostTrust.Proofs.HexDigits
import HostTrust.Proofs.ReportedRegisters
import HostTrust.Proofs.RegisterLookup
import HostTrust.Proofs.ReportedLogs
import HostTrust.Proofs.LetterCase
import HostTrust.Proofs.LogComparison
import HostTrust.Proofs.Descriptions
import HostTrust.Proofs.ExcludedEvents
import HostTrust.Proofs.PolicyRules
import HostTrust.Proofs.AssetTag
import HostTrust.Proofs.Calendar
import HostTrust.Proofs.CertificateWindow
import HostTrust.Proofs.LoggingStart
import HostTrust.Proofs.LoggerLookup
