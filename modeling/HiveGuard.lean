import HiveGuard.Core.RateWindow
import HiveGuard.Core.Causality
import HiveGuard.Core.BotBlocking
import HiveGuard.Persistence.CrashSafety
import HiveGuard.Persistence.Convergence
import HiveGuard.Persistence.Tombstones
import HiveGuard.Persistence.Burst
import HiveGuard.Net.Resources
import HiveGuard.Net.Pages
import HiveGuard.Net.SigningCache
import HiveGuard.Net.Merkle
import HiveGuard.Net.DeadPeers
import HiveGuard.Daemon.RemoteCoverage
import HiveGuard.Daemon.WhitelistSync
import HiveGuard.Daemon.WhitelistApi
import HiveGuard.Daemon.AnnounceReturns
import HiveGuard.Daemon.DiffRotation
import HiveGuard.PluginApi.Stripping
import HiveGuard.Host.DryRun
import HiveGuard.Enforce.Nftables
import HiveGuard.Enforce.TokenBucket
import HiveGuard.Sources.StructuredData
import HiveGuard.Sources.Framing
import HiveGuard.Sources.FileInterrupt
import HiveGuard.Sources.Firewall
import HiveGuard.Sources.Netdev
import HiveGuard.Sources.OffsetFile
import HiveGuard.Daemon.SiemTorn
import HiveGuard.Detectors.CampaignAccounts
import HiveGuard.Detectors.HttpLogin
import HiveGuard.Detectors.BruteforceExact
import HiveGuard.Detectors.PathProbe
import HiveGuard.Detectors.CrawlFreshness
import HiveGuard.Detectors.CrawlHysteresis
import HiveGuard.Sigma.Glob
import HiveGuard.Sigma.ConditionText
import HiveGuard.Sigma.Evaluation
import HiveGuard.Scoring.Exactness
