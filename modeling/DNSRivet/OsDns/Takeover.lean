/-
The DNS operations of `osdns/macos.rs` as programs over the system: `take_over`, `release` with
`restore_at`, `watchdog_tick` and `takeover_intact`. Loops over services are recursions on the list, with the
variables the loop carries as arguments; an early return is a `throw`. Warnings printed on the way are
left out.
-/
import DNSRivet.OsDns.Backup

namespace DNSRivet.OsDns

open DNSRivet.Base DNSRivet.Net Prog

variable (P : Platform)

/-! ## Taking over -/

/-- The snapshot loop of `take_over`: every enabled service with its list, and the fallback candidates. -/
def snapshotServices (server : IpAddr) :
    List String → List ServiceDns → List SocketAddr → Action (List ServiceDns × List SocketAddr)
  | [], services, fallback => pure (services, fallback)
  | name :: names, services, fallback => do
    let servers ← getDnsServers name
    if servers.contains server.display then
      throw ("network service " ++ quoted name ++ " already lists " ++ server.display ++ " as a DNS server; " ++
        "refusing to take over. Clear it first (sudo networksetup -setdnsservers " ++ quoted name ++
        " Empty) or remove the other local DNS tool")
    else
      snapshotServices server names (services ++ [⟨name, servers⟩]) (fallback ++ parsedSockets P.interfaces servers)

/-- The loop of `rollback`: restore the changed services, last one first. -/
def rollbackLoop (backup : Backup) : List String → Bool → Action Bool
  | [], ok => pure ok
  | name :: names, ok =>
    match backup.services.find? fun service => service.name = name with
    | none => rollbackLoop backup names ok
    | some service => do
      match ← attempt (setDnsServers service.name service.servers) with
      | .ok () => rollbackLoop backup names ok
      | .error _ => rollbackLoop backup names false

def rollback (backup : Backup) (changed : List String) : Action Bool := do
  let ok ← rollbackLoop backup changed.reverse true
  flushCaches
  pure ok

/-- The switching loop of `take_over`: point the services at the proxy, or roll the changed ones back. -/
def switchServices (server : IpAddr) (backup : Backup) : List ServiceDns → List String → Action Unit
  | [], _ => pure ()
  | service :: services, changed => do
    match ← attempt (setDnsServers service.name [server.display]) with
    | .ok () => switchServices server backup services (changed ++ [service.name])
    | .error err =>
      let rollbackOk ← rollback backup changed
      if rollbackOk then
        let _ ← performE .removeBackup .ok
        throw (err ++ "; DNS takeover rollback completed")
      else throw (err ++ "; DNS takeover rollback was incomplete")

/-- The backup `take_over` writes. -/
def takeoverBackup (server : IpAddr) (services : List ServiceDns) (fallback : List SocketAddr) : Backup where
  version := 2
  services := services
  takeoverServers := some [server]
  fallbackServers := (filterFallbackServers fallback [server]).map serializeDnsSocket

/-- Save every enabled network service's explicit DNS settings, then point all of them at the local
proxy. The takeover-active marker is created last, only once every service was switched. -/
def takeOver (server : IpAddr) : Action Unit := do
  lock
  let present ← backupExists
  if present then
    throw ("DNS backup already exists at " ++ backupPath ++ "; run `dnsrivet stop` before starting again")
  else
    let effective ← attempt effectiveDnsServers
    let fallback := match effective with
      | .ok servers => servers
      | .error _ => []
    let names ← listServices
    let (services, fallback) ← snapshotServices P server names [] fallback
    if services.isEmpty then throw "networksetup returned no enabled network services"
    else
      let backup := takeoverBackup server services fallback
      writeBackup P backup
      switchServices server backup backup.services []
      createMarker
      flushCaches

/-! ## Restoring -/

/-- Whether a DNS list of the service may still resolve through the proxy. -/
def dnsMayDependOnTakeover (backup : Backup) (name : String) (servers : List String) : Bool :=
  match backup.takeoverServers with
  | some takeovers =>
    servers.any fun value => match parseDnsSocket P.interfaces value with
      | .ok address => takeovers.contains address.ip
      | .error _ => false
  | none =>
    let original := backup.services.find? fun service => service.name = name
    let restoredOriginal := original.any fun service => service.servers = servers
    !restoredOriginal && servers.any fun value => match parseDnsSocket P.interfaces value with
      | .ok address => address.ip.isLoopback
      | .error _ => false

/-- The loop of `restore_at` that sets the saved lists of the services that exist. -/
def restoreServices (current : List String) : List ServiceDns → List String → Action (List String)
  | [], errors => pure errors
  | service :: services, errors =>
    if current.contains service.name then do
      match ← attempt (setDnsServers service.name service.servers) with
      | .ok () => restoreServices current services errors
      | .error err => restoreServices current services (errors ++ [err])
    else restoreServices current services errors

/-- The loop of `restore_at` that verifies every service after the writes. -/
def verifyServices (backup : Backup) : List String → List String → Action (List String)
  | [], errors => pure errors
  | name :: names, errors => do
    match ← attempt (getDnsServers name) with
    | .ok servers =>
      if dnsMayDependOnTakeover P backup name servers then
        verifyServices backup names (errors ++ ["network service " ++ quoted name ++
          " still lists DNS that may use DNSRivet: " ++ joinWith ", " servers])
      else verifyServices backup names errors
    | .error err => verifyServices backup names (errors ++ [err])

/-- Restore known names, then verify all services before discarding recovery data. -/
def restoreAt : Action Unit := do
  let backup ← readBackup P
  if backup.version ≠ 1 ∧ backup.version ≠ 2 then
    throw ("unsupported DNS backup version " ++ toString backup.version)
  else
    let current ← listAllServices
    let errors ← restoreServices current backup.services []
    -- a renamed or newly added service must not escape verification
    let listed ← attempt listAllServices
    let errors ← (match listed with
      | .ok names => verifyServices P backup names errors
      | .error err => pure (errors ++ [err]))
    if errors.isEmpty then
      performE .removeBackup fun r => r.mapError fun e => "remove restored DNS backup " ++ backupPath ++ ": " ++ e.text
    else
      throw ("refusing to stop DNSRivet: " ++ joinWith "; " errors ++ " (backup retained at " ++ backupPath ++
        "); restore the affected services' known correct DNS settings manually, or rename services back to their " ++
        "backed-up names, then retry `dnsrivet stop`. Original DNS for renamed services will not be guessed")

def restore : Action Bool := do
  let present ← backupExists
  if present then
    restoreAt P
    flushCaches
    pure true
  else pure false

/-- Loopback DNS endpoints currently advertised by macOS. -/
def currentLoopbackDns : Action (List SocketAddr) := do
  let servers ← effectiveDnsServers
  pure (retainNew (fun address => address.ip.isLoopback) [] servers)

/-- The loop of `system_points_at_loopback` over all services. -/
def anyLoopbackService : List String → Action Bool
  | [] => pure false
  | name :: names => do
    let servers ← getDnsServers name
    if servers.any fun value => (parseIpAddr value).any IpAddr.isLoopback then pure true
    else anyLoopbackService names

def systemPointsAtLoopback : Action Bool := do
  let loopback ← currentLoopbackDns
  if loopback.isEmpty then
    let names ← listAllServices
    anyLoopbackService names
  else pure true

/-- stop/uninstall entry point: handles all four takeover states. -/
def release : Action Bool := do
  lock
  let present ← backupExists
  if present then
    -- Marker first: a crash between these steps leaves backup-without-marker
    removeMarker
    restore P
  else
    let marker ← markerExists
    if marker then
      let stranded ← systemPointsAtLoopback
      if stranded then
        throw ("a takeover marker exists without a DNS backup, and the system still resolves through a loopback " ++
          "address; stopping now would cut off DNS. Restore DNS manually first (for each service: sudo networksetup " ++
          "-setdnsservers <service> Empty), then retry")
      else
        removeMarker
        pure false
    else pure false

/-! ## The watchdog -/

/-- The lists of the services that the backup does not know. -/
def newServiceLists (known : List String) : List String → List (String × List String) →
    Action (List (String × List String))
  | [], found => pure found
  | name :: names, found =>
    if known.contains name then newServiceLists known names found
    else do
      let servers ← getDnsServers name
      newServiceLists known names (found ++ [(name, servers)])

/-- The backup with the new services added, and whether there were any. -/
def addNewServiceSnapshots (expected : String) : List (String × List String) → Backup → Bool →
    Except String (Backup × Bool)
  | [], backup, added => .ok (backup, added)
  | (name, servers) :: snapshots, backup, added =>
    if backup.services.any fun service => service.name = name then
      addNewServiceSnapshots expected snapshots backup added
    else if servers.contains expected || dnsMayDependOnTakeover P backup name servers then
      .error ("network service " ++ quoted name ++ " already lists a DNSRivet takeover address as a DNS server; " ++
        "refusing to capture an unknown restore state")
    else
      addNewServiceSnapshots expected snapshots { backup with services := backup.services ++ [⟨name, servers⟩] } true

/-- The backup with the address in its history, unless the history is unknown, and whether that is new. -/
def recordTakeover (server : IpAddr) (backup : Backup) : Backup × Bool :=
  match backup.takeoverServers with
  | none => (backup, false)
  | some takeovers =>
    if takeovers.contains server then (backup, false)
    else ({ backup with takeoverServers := some (takeovers ++ [server]) }, true)

/-- Persist restore data and address history before the watchdog changes DNS. -/
def prepareWatchdogBackup (backup : Backup) (snapshots : List (String × List String)) (server : IpAddr) :
    Action Backup :=
  match addNewServiceSnapshots P server.display snapshots backup false with
  | .error err => throw err
  | .ok (backup, added) =>
    let (backup, recorded) := recordTakeover server backup
    if added || recorded then do
      writeBackup P backup
      pure backup
    else pure backup

/-- The lists of the backed-up services that still exist. -/
def snapshotLoop (allServices : List String) : List ServiceDns → List (String × List String) →
    Action (List (String × List String))
  | [], snapshot => pure snapshot
  | service :: services, snapshot =>
    if allServices.contains service.name then do
      let servers ← getDnsServers service.name
      snapshotLoop allServices services (snapshot ++ [(service.name, servers)])
    else snapshotLoop allServices services snapshot

def serviceDnsSnapshot : Action (List (String × List String)) := do
  let backup ← readBackup P
  let allServices ← listAllServices
  snapshotLoop allServices backup.services []

/-- Exact-list check: anything other than exactly `[server]` is drift. -/
def servicesNeedingReassert (current : List (String × List String)) (server : String) : List String :=
  (current.filter fun entry => entry.2 ≠ [server]).map Prod.fst

/-- The reassertion loop: the errors of the sets that failed. -/
def reassertServices (expected : String) : List String → List String → Action (List String)
  | [], errors => pure errors
  | name :: names, errors => do
    match ← attempt (setDnsServers name [expected]) with
    | .ok () => reassertServices expected names errors
    | .error err => reassertServices expected names (errors ++ [err])

/-- One watchdog cycle: verify that every backed-up service still lists exactly the takeover address,
and on drift capture the currently effective DNS before reasserting. -/
def watchdogTick (server : IpAddr) : Action TickOutcome := do
  lock
  let hasBackup ← backupExists
  -- `&&`: without a backup the marker is not looked at
  let active ← (if hasBackup then markerExists else pure false)
  if active then
    let expected := server.display
    let backup ← readBackup P
    let names ← listServices
    let newServices ← newServiceLists (backup.services.map ServiceDns.name) names []
    let _ ← prepareWatchdogBackup P backup newServices server
    let current ← serviceDnsSnapshot P
    let drifted := servicesNeedingReassert current expected
    let effective ← attempt effectiveDnsServers
    let capture := captureRuntimeFallback effective server
    if drifted.isEmpty then pure (.ofClean capture)
    else
      let errors ← reassertServices expected drifted []
      flushCaches
      if errors.isEmpty then pure (.ofReasserted drifted capture)
      else throw ("reassert incomplete: " ++ joinWith "; " errors)
  else pure .notActive

/-- The loop of `takeover_intact_with`; `checked` says whether a service counted. -/
def intactLoop (backup : Backup) (expected : String) (enabled : List String) (get : String → Action (List String)) :
    List String → Bool → Action Bool
  | [], checked => pure checked
  | name :: names, checked => do
    let servers ← get name
    let known := backup.services.any fun service => service.name = name
    -- unknown names may have been renamed while retaining an old takeover address
    if known || enabled.contains name || dnsMayDependOnTakeover P backup name servers then
      if servers ≠ [expected] then pure false
      else intactLoop backup expected enabled get names true
    else intactLoop backup expected enabled get names checked

def takeoverIntactWith (backup : Backup) (expected : String) (enabled : List String) (list : Action (List String))
    (get : String → Action (List String)) : Action Bool := do
  let names ← list
  intactLoop P backup expected enabled get names false

/-- Read-only variant for `restart`'s verification wait. -/
def takeoverIntact (server : IpAddr) : Action Bool := do
  let expected := server.display
  let backup ← readBackup P
  let enabled ← listServices
  takeoverIntactWith P backup expected enabled listAllServices getDnsServers

end DNSRivet.OsDns
