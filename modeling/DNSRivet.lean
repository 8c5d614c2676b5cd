import DNSRivet.AtomicFile
import DNSRivet.Base.Concurrent
import DNSRivet.Base.FilePath
import DNSRivet.Base.Program
import DNSRivet.Config.Quick
import DNSRivet.Net.Addr
import DNSRivet.Net.Text
import DNSRivet.OsDns.AllOrNothing
import DNSRivet.OsDns.Backup
import DNSRivet.OsDns.Custody
import DNSRivet.OsDns.Fallback
import DNSRivet.OsDns.Journal
import DNSRivet.OsDns.Lifecycle
import DNSRivet.OsDns.Restore
import DNSRivet.OsDns.Scutil
import DNSRivet.OsDns.Undo
import DNSRivet.OsDns.Watchdog
import DNSRivet.Proxy.Cadence
import DNSRivet.Proxy.Expiry
import DNSRivet.Proxy.Server
import DNSRivet.Service.Commands
import DNSRivet.Service.Launchd
import DNSRivet.Service.Link
import DNSRivet.Service.Machine
import DNSRivet.Service.Runs
import DNSRivet.Service.Safety
import DNSRivet.Service.Steps
import DNSRivet.Service.Waiting
import DNSRivet.Upstream.Channel
import DNSRivet.Upstream.Datagrams
import DNSRivet.Upstream.Entry
import DNSRivet.Upstream.Failover
import DNSRivet.Upstream.FastPath
import DNSRivet.Upstream.Health
import DNSRivet.Upstream.Lookup
import DNSRivet.Upstream.SingleFlight
import DNSRivet.Upstream.Staleness
import DNSRivet.Wire.Canonical
import DNSRivet.Wire.Faultless
import DNSRivet.Wire.Spelling
