import ProgramSplit.Dns.Barrier
import ProgramSplit.Dns.Withhold
import ProgramSplit.Dns.TunnelRoute
import ProgramSplit.Linux.NftMarks
import ProgramSplit.Linux.IptablesMarks
import ProgramSplit.Linux.IptablesText
import ProgramSplit.Linux.FreeMarks
import ProgramSplit.Linux.Preflight
import ProgramSplit.Lib.Crash
import ProgramSplit.Linux.PolicyTrip
import ProgramSplit.Linux.DrainSafety
import ProgramSplit.Linux.Listings
import ProgramSplit.Windows.IdentityRecord
import ProgramSplit.Windows.IdentityDisputes
import ProgramSplit.Windows.SupervisorEvidence
import ProgramSplit.Windows.RecoveryEvidence
import ProgramSplit.Windows.CachePolicy
import ProgramSplit.Windows.DispatcherLoad
import ProgramSplit.Windows.IdentityAgreement
import ProgramSplit.Windows.FilterProtection
import ProgramSplit.Dns.Response
import ProgramSplit.Dns.Questions
import ProgramSplit.Dns.Resolvers
import ProgramSplit.Dns.AsyncLog
import ProgramSplit.Linux.Firewall
import ProgramSplit.Windows.CommandLine
import ProgramSplit.Windows.BoundedLog
import ProgramSplit.Windows.RunFrame
import ProgramSplit.Windows.ProfilePair
import ProgramSplit.Windows.TreeRemoval
import ProgramSplit.Linux.GuardNames
import ProgramSplit.Windows.PendingHost
import ProgramSplit.Linux.Receipts
import ProgramSplit.Linux.Installer
import ProgramSplit.Windows.ParseNumber
import ProgramSplit.Windows.PathIdentity
import ProgramSplit.Linux.ZoneScan
import ProgramSplit.Linux.RestartAudit
import ProgramSplit.Linux.UserBus
import ProgramSplit.Linux.JsonString
import ProgramSplit.Linux.WireguardState
import ProgramSplit.Linux.NameService
