import VaultwardenEso.Lib.Str
import VaultwardenEso.Lib.Result
import VaultwardenEso.Lib.Machine
import VaultwardenEso.BwesoCore
import VaultwardenEso.Crypto
import VaultwardenEso.Cipher
import VaultwardenEso.Lib.Base64
import VaultwardenEso.CryptoSealing
import VaultwardenEso.CryptoRecorded
import VaultwardenEso.EncryptedStrings
import VaultwardenEso.CipherDecryption
import VaultwardenEso.CipherSealing
import VaultwardenEso.Client
import VaultwardenEso.Lib.Url
import VaultwardenEso.Endpoints
import VaultwardenEso.Lookup
import VaultwardenEso.NameLookup
import VaultwardenEso.Lib.Serde
import VaultwardenEso.SyncDocument
import VaultwardenEso.Keys
import VaultwardenEso.Login
import VaultwardenEso.CachedVault
import VaultwardenEso.Lib.Lock
import VaultwardenEso.Refresh
import VaultwardenEso.Selectors
import VaultwardenEso.Lib.OneSlot
import VaultwardenEso.CacheSlot
import VaultwardenEso.Freshness
import VaultwardenEso.SingleFlight
import VaultwardenEso.Coalescing
import VaultwardenEso.Lib.Census
import VaultwardenEso.CacheCounters
import VaultwardenEso.Policy
import VaultwardenEso.PolicyFile
import VaultwardenEso.Extraction
import VaultwardenEso.WholeItem
import VaultwardenEso.ItemContents
import VaultwardenEso.Webhook
import VaultwardenEso.WebhookToken
import VaultwardenEso.Server
import VaultwardenEso.Isolation
import VaultwardenEso.Confinement
import VaultwardenEso.Lib.BTreeMap
import VaultwardenEso.Lib.Counter
import VaultwardenEso.Metrics
import VaultwardenEso.PolicyReload
import VaultwardenEso.PolicyGenerations
import VaultwardenEso.HttpMetrics
import VaultwardenEso.Accounting
import VaultwardenEso.Lib.Exposition
import VaultwardenEso.Rendering
import VaultwardenEso.Histograms
import VaultwardenEso.Scrape
import VaultwardenEso.Lib.Notify
import VaultwardenEso.Shutdown
import VaultwardenEso.Permits
import VaultwardenEso.Progress
import VaultwardenEso.DirectResolve
import VaultwardenEso.Unlock
import VaultwardenEso.SequentialHandler
import VaultwardenEso.UpstreamLoad
import VaultwardenEso.Provenance
import VaultwardenEso.PlainVault
import VaultwardenEso.SealedVault
import VaultwardenEso.Lib.Form
import VaultwardenEso.Requests
import VaultwardenEso.Wire
import VaultwardenEso.Lib.JsonText
import VaultwardenEso.Documents
import VaultwardenEso.EndToEnd
import VaultwardenEso.Startup
