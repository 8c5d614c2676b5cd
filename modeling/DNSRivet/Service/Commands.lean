/-
The commands of `service/mod.rs` as programs over the system: `start`, `stop`, `restart`, `status` and `uninstall`.
The DNS operations they use are those of `osdns/macos.rs`, each with the takeover address it acts for; the DNS lock is
dropped when the operation returns. A guard that lives to the end of a command is dropped when its process is gone.
Loops over time have a fuel, one for each round that fits before the deadline: a round ends with a sleep.
-/
import DNSRivet.Base.Bytes
import DNSRivet.Base.Concurrent
import DNSRivet.Config.Load
import DNSRivet.OsDns.Takeover
import DNSRivet.Service.Launchd
import DNSRivet.Service.Link

namespace DNSRivet.Service

open DNSRivet.Base DNSRivet.Net Prog
open DNSRivet.OsDns (SysOp IoError TickOutcome joinWith supportDir)

/-- What the commands depend on outside the repository. -/
structure ServicePlatform where
  dns : OsDns.Platform
  toml : Config.Toml
  /-- How `std::str::from_utf8` words its error. -/
  utf8Error : ByteArray → String

inductive ServiceOp
  | isRoot
  | processId
  | lockLifecycle
  | dns (target : Option IpAddr) (op : SysOp)
  | unlockDns
  | launchctl (command : Launchctl)
  | plistIsFile
  | installPlist (text : String)
  | removePlist
  | isFile (path : FilePath)
  | readBytes (path : FilePath)
  | readText (path : FilePath)
  | createSupportDir
  | installConfig (bytes : ByteArray)
  | currentExe
  | canonicalBinary
  | openExecutable (source : FilePath)
  | installBinary (source : FilePath)
  | removeBinary
  | link (op : FsOp)
  | bindUdp (addr : SocketAddr)
  | bindTcp (addr : SocketAddr)
  | closeListeners
  | now
  | sleep (ms : Nat)
  | subsecNanos
  | exchange (addr : SocketAddr) (query : List UInt8) (timeoutMs : Nat)

/-- What an operation answers; times are milliseconds. -/
abbrev ServiceOp.Reply : ServiceOp → Type
  | .isRoot => Bool
  | .processId => Nat
  | .lockLifecycle => Except String Unit
  | .dns _ op => op.Reply
  | .unlockDns => Unit
  | .launchctl _ => Except String Output
  | .plistIsFile => Bool
  | .installPlist _ => Except String Unit
  | .removePlist => Except IoError Unit
  | .isFile _ => Bool
  | .readBytes _ => Except String ByteArray
  | .readText _ => Except String String
  | .createSupportDir => Except String Unit
  | .installConfig _ => Except String Unit
  | .currentExe => Except String FilePath
  | .canonicalBinary => Except String FilePath
  | .openExecutable _ => Except String Unit
  | .installBinary _ => Except String Unit
  | .removeBinary => Except IoError Unit
  | .link op => op.Reply
  | .bindUdp _ => Except String Unit
  | .bindTcp _ => Except String Unit
  | .closeListeners => Unit
  | .now => Nat
  | .sleep _ => Unit
  | .subsecNanos => Nat
  | .exchange _ _ _ => Except String (List UInt8)

abbrev ServiceAction := ExceptT String (Prog ServiceOp ServiceOp.Reply)

def configPath : FilePath := supportDir.join "config.toml"

/-- A result that is there already. -/
def result {α : Type} (r : Except String α) : ServiceAction α := ExceptT.mk (.ret r)

/-! ## Parts of the system -/

/-- An action of `osdns`, which acts for a takeover address. -/
def dnsAction {α : Type} (target : Option IpAddr) (action : OsDns.Action α) : ServiceAction α :=
  ExceptT.mk (action.run.embed (ServiceOp.dns target) fun _ r => r)

/-- An operation of `osdns` that takes the DNS lock; the guard is dropped when it returns. -/
def dnsSection {α : Type} (target : Option IpAddr) (action : OsDns.Action α) : ServiceAction α := do
  let r ← attempt (dnsAction target action)
  performE .unlockDns Except.ok
  result r

def linkAction {α : Type} (action : FsAction α) : ServiceAction α :=
  ExceptT.mk (action.run.embed ServiceOp.link fun _ r => r)

def backupExists : ServiceAction Bool := dnsAction none OsDns.backupExists

inductive TakeoverState
  | notTakenOver
  | active
  /-- Backup without marker: a takeover attempt did not complete. -/
  | indeterminate
  /-- Marker without backup: restore data is gone. -/
  | corrupted
deriving DecidableEq, Repr

def classify : Bool → Bool → TakeoverState
  | false, false => .notTakenOver
  | true, true => .active
  | true, false => .indeterminate
  | false, true => .corrupted

def takeoverState : ServiceAction TakeoverState := do
  let backup ← backupExists
  let marker ← dnsAction none OsDns.markerExists
  pure (classify backup marker)

/-! ### launchd -/

def isLoaded : ServiceAction Bool := performE (.launchctl .print) loadedFromOutput

def bootstrap : ServiceAction Unit := performE (.launchctl .bootstrap) fun o => checked o "bootstrap launchd service"

def setEnabled (enabled : Bool) : ServiceAction Unit :=
  performE (.launchctl (.setEnabled enabled)) fun o =>
    checked o (if enabled then "enable launchd service" else "disable launchd service")

def isInstalled : ServiceAction Bool := performE .plistIsFile Except.ok

def bootout : ServiceAction Bool := do
  let loaded ← isLoaded
  if loaded then
    performE (.launchctl .bootout) fun o => checked o "stop launchd service"
    pure true
  else pure false

def kickstart : ServiceAction Unit := performE (.launchctl .kickstart) fun o => checked o "restart launchd service"

def writePlist (binary config : FilePath) : ServiceAction Unit :=
  if !binary.absolute || !config.absolute then throw "launchd binary and config paths must be absolute"
  else performE (.installPlist (renderPlist binary config)) (orFail ("install launchd plist " ++ plistPath))

def removePlist : ServiceAction Unit := performE .removePlist (ignoreNotFound ("remove launchd plist " ++ plistPath))

/-- `launchd::is_installed() || launchd::is_loaded()?`. -/
def isManaged : ServiceAction Bool := do
  let installed ← isInstalled
  if installed then pure true else isLoaded

/-! ### Files -/

def requireRoot : ServiceAction Unit := do
  let root ← performE .isRoot Except.ok
  if root then pure ()
  else throw "this command changes a system LaunchDaemon or DNS settings; rerun it with sudo"

def lockLifecycle : ServiceAction Unit := performE .lockLifecycle id

def createSupportDir : ServiceAction Unit :=
  performE .createSupportDir (orFail ("create support directory " ++ supportDir.display))

def writeConfig (bytes : ByteArray) : ServiceAction Unit := do
  createSupportDir
  performE (.installConfig bytes) (orFail ("install config " ++ configPath.display))

def currentBinary : ServiceAction FilePath := performE .currentExe (orFail "resolve current executable")

def installBinary (source : FilePath) : ServiceAction Unit := do
  createSupportDir
  performE (.openExecutable source) (orFail ("read executable " ++ source.display))
  performE (.installBinary source) (orFail ("install executable " ++ binaryPath.display))

/-- Refresh the daemon copy when `restart` is invoked from a package manager's binary. -/
def refreshInstalledBinary : ServiceAction Unit := do
  let current ← currentBinary
  let canonical ← performE .canonicalBinary Except.ok
  let installed := match canonical with
    | .ok path => path
    | .error _ => binaryPath
  if current ≠ installed then installBinary current else pure ()

def removeInstalledBinary : ServiceAction Unit :=
  performE .removeBinary (ignoreNotFound ("remove installed executable " ++ binaryPath.display))

variable (S : ServicePlatform)

def fromUtf8 (bytes : ByteArray) : Except String String :=
  match String.fromUTF8? bytes with
  | some text => .ok text
  | none => .error (S.utf8Error bytes)

/-- `config::load`. -/
def loadConfig (path : FilePath) : ServiceAction Config.Loaded := do
  let text ← performE (.readText path) (orFail path.display)
  result ((Config.loadText S.toml text).mapError (path.display ++ ": " ++ ·))

/-- The new configuration the command line asks for, checked. -/
def configBytes (explicit : Option FilePath) (generated : Option String) : ServiceAction (Option ByteArray) :=
  match explicit, generated with
  | some _, some _ => throw "config path and generated config cannot be combined"
  | some path, none => do
    let present ← performE (.isFile path) Except.ok
    if !present then throw ("config file not found: " ++ path.display)
    else
      let bytes ← performE (.readBytes path) (orFail ("read config " ++ path.display))
      let text ← result ((fromUtf8 S bytes).mapError fun e => path.display ++ " is not UTF-8: " ++ e)
      let _ ← result ((Config.loadText S.toml text).mapError (path.display ++ ": " ++ ·))
      pure (some bytes)
  | none, some text => do
    let _ ← result (Config.loadText S.toml text)
    pure (some text.toUTF8)
  | none, none => pure none

def localConfig : FilePath := ⟨false, ["dnsrivet.toml"]⟩

/-- Leave a checked configuration at `configPath`. -/
def installConfig (explicit : Option FilePath) (generated : Option String) : ServiceAction Unit := do
  match ← configBytes S explicit generated with
  | some bytes => writeConfig bytes
  | none =>
    let present ← performE (.isFile configPath) Except.ok
    if present then pure ()
    else
      let isLocal ← performE (.isFile localConfig) Except.ok
      if isLocal then
        let bytes ← performE (.readBytes localConfig) (orFail ("read config " ++ localConfig.display))
        let text ← result ((fromUtf8 S bytes).mapError ("config is not UTF-8: " ++ ·))
        let _ ← result (Config.loadText S.toml text)
        writeConfig bytes
      else throw "no config found; pass --config PATH or at least one --upstream TYPE=ENDPOINT"

/-! ### Listeners and the probe -/

/-- Also used by the daemon's takeover watchdog to derive the guarded address. -/
def takeoverAddress (listeners : List SocketAddr) : Except String IpAddr :=
  match (listeners.find? fun addr => addr.port == 53 && addr.ip.isLoopback && addr.isIpv4).or
      (listeners.find? fun addr => addr.port == 53 && addr.ip.isLoopback) with
  | some addr => .ok addr.ip
  | none => .error "service mode requires a loopback listener on port 53 (normally 127.0.0.1:53)"

def preflightListeners : List SocketAddr → ServiceAction Unit
  | [] => pure ()
  | addr :: addresses => do
    performE (.bindUdp addr) (orFail ("cannot start: UDP listener " ++ addr.display ++ " is unavailable"))
    performE (.bindTcp addr) (orFail ("cannot start: TCP listener " ++ addr.display ++ " is unavailable"))
    preflightListeners addresses

def installedProbeAddress : ServiceAction SocketAddr := do
  let loaded ← loadConfig S configPath
  let ip ← result (takeoverAddress loaded.config.listeners)
  pure (SocketAddr.new ip 53)

/-- A query for the address of example.com. -/
def probeQuery (id : UInt16) : List UInt8 :=
  [(id >>> 8).toUInt8, id.toUInt8, 0x01, 0x00, 0, 1, 0, 0, 0, 0, 0, 0,
    7, 0x65, 0x78, 0x61, 0x6d, 0x70, 0x6c, 0x65, 3, 0x63, 0x6f, 0x6d, 0, 0, 1, 0, 1]

/-- What is checked of the response; its bytes are read only when there are enough. -/
def probeAccepts (id : UInt16) (response : List UInt8) : Bool :=
  !(response.length < 12 || response.take 2 ≠ [(id >>> 8).toUInt8, id.toUInt8] || response.getD 2 0 &&& 0x80 == 0 ||
    response.getD 3 0 &&& 0x0f != 0 || (response.getD 6 0 == 0 && response.getD 7 0 == 0))

def dnsProbe (addr : SocketAddr) (timeoutMs : Nat) : ServiceAction Unit := do
  let nanos ← performE .subsecNanos Except.ok
  let queryId := UInt16.ofNat nanos
  let response ← performE (.exchange addr (probeQuery queryId) timeoutMs) id
  if probeAccepts queryId (response.take 4096) then pure () else throw "invalid DNS probe response"

def now : ServiceAction Nat := performE .now Except.ok

def sleep (ms : Nat) : ServiceAction Unit := performE (.sleep ms) Except.ok

def waitLoop (addr : SocketAddr) (deadline : Nat) : Nat → String → ServiceAction Unit
  | 0, lastError => throw lastError
  | fuel + 1, lastError => do
    let time ← now
    if time < deadline then
      match ← attempt (dnsProbe addr 1000) with
      | .ok () => pure ()
      | .error err =>
        sleep 200
        waitLoop addr deadline fuel err
    else throw lastError

def waitForDns (addr : SocketAddr) (timeoutMs : Nat) : ServiceAction Unit := do
  let start ← now
  waitLoop addr (start + timeoutMs) (timeoutMs / 200 + 2) "no response"

def reassertionLoop (server : IpAddr) (deadline : Nat) : Nat → ServiceAction Bool
  | 0 => pure false
  | fuel + 1 => do
    match ← attempt (dnsAction (some server) (OsDns.takeoverIntact S.dns server)) with
    | .ok true => pure true
    | _ =>
      let time ← now
      if deadline ≤ time then pure false
      else
        sleep 500
        reassertionLoop server deadline fuel

/-- Poll until every backed-up service points exactly at the takeover address again. -/
def waitForReassertion (server : IpAddr) (timeoutMs : Nat) : ServiceAction Bool := do
  let start ← now
  reassertionLoop S server (start + timeoutMs) (timeoutMs / 500 + 2)

/-! ## start -/

/-- The message of a failed start, after the service was stopped and, if so, its property list removed. -/
def cleanupFailedStart (failure : String) (stop : ServiceAction Bool) (removePlist : ServiceAction Unit) :
    ServiceAction String := do
  match ← attempt stop with
  | .error err =>
    pure (failure ++ "; could not stop service: " ++ err ++ "; service may still be running, " ++
      "so the launchd plist was retained; run `dnsrivet stop` to retry")
  | .ok stopped =>
    let status := if stopped then "service was stopped" else "service was not loaded"
    match ← attempt removePlist with
    | .ok () => pure (failure ++ "; " ++ status)
    | .error err => pure (failure ++ "; " ++ status ++ "; could not remove launchd plist: " ++ err)

/-- A start needs that nothing is left of an earlier takeover. -/
def requireNotTakenOver : ServiceAction Unit := do
  match ← takeoverState with
  | .notTakenOver => pure ()
  | .corrupted =>
    throw ("a takeover-active marker exists without a DNS backup (state corrupted); " ++
      "run `dnsrivet stop` to clean up before starting")
  | .active | .indeterminate =>
    throw "a previous DNS backup is still present; run `dnsrivet stop` before starting"

/-- Everything on disk that launchd needs. The listeners are held meanwhile, which detects conflicts before network
state is changed. -/
def prepareStart (explicit : Option FilePath) (generated : Option String) : ServiceAction IpAddr := do
  installConfig S explicit generated
  let loaded ← loadConfig S configPath
  let dnsIp ← result (takeoverAddress loaded.config.listeners)
  preflightListeners loaded.config.listeners
  let current ← currentBinary
  installBinary current
  let pid ← performE .processId Except.ok
  linkAction (installCommandAt pid commandPath binaryPath current)
  writePlist binaryPath configPath
  performE .closeListeners Except.ok
  pure dnsIp

def launchService : ServiceAction Unit := do
  setEnabled true
  match ← attempt bootstrap with
  | .ok () => pure ()
  | .error err =>
    let _ ← attempt removePlist
    throw err

/-- The takeover, once the service answers. -/
def takeOverDns (dnsIp : IpAddr) : ServiceAction Unit := do
  match ← attempt (dnsSection (some dnsIp) (OsDns.takeOver S.dns dnsIp)) with
  | .ok () => pure ()
  | .error err =>
    let present ← backupExists
    if present then
      throw ("DNS takeover failed and rollback was incomplete: " ++ err ++
        "; the service was left running so any network service still using " ++ dnsIp.display ++
        " can resolve—run `dnsrivet stop` to retry restoration")
    else
      let message ← cleanupFailedStart ("DNS takeover failed: " ++ err) bootout removePlist
      throw message

def start (explicit : Option FilePath) (generated : Option String) : ServiceAction String := do
  requireRoot
  lockLifecycle
  let loaded ← isLoaded
  if loaded then throw "service is already loaded; use `dnsrivet restart`"
  else
    requireNotTakenOver
    let dnsIp ← prepareStart S explicit generated
    launchService
    match ← attempt (waitForDns (SocketAddr.new dnsIp 53) 15000) with
    | .error err =>
      let message ← cleanupFailedStart ("service started but failed its DNS probe: " ++ err) bootout removePlist
      throw message
    | .ok () =>
      takeOverDns S dnsIp
      pure ("service started; system DNS now uses " ++ dnsIp.display ++ " (backup: " ++ OsDns.backupPath ++ ")")

/-! ## stop and uninstall -/

/-- Disable and stop the service, once its DNS settings are restored; whether it was managed and whether it ran. -/
def stopService : ServiceAction (Bool × Bool) := do
  let managed ← isManaged
  (if managed then setEnabled false else pure ())
  let stopped ← bootout
  pure (managed, stopped)

def stop : ServiceAction String := do
  requireRoot
  lockLifecycle
  let restored ← dnsSection none (OsDns.release S.dns)
  let (_, stopped) ← stopService
  pure (match restored, stopped with
    | true, true => "service stopped and system DNS restored"
    | true, false => "service was not loaded; system DNS was restored"
    | false, true => "service stopped; no DNSRivet DNS backup existed, so DNS was unchanged"
    | false, false => "service is not loaded; DNS was unchanged")

def uninstall : ServiceAction String := do
  requireRoot
  lockLifecycle
  let restored ← dnsSection none (OsDns.release S.dns)
  let (managed, stopped) ← stopService
  removePlist
  linkAction removeCommand
  removeInstalledBinary
  -- clear the persistent disabled override now that no job remains
  (if managed then setEnabled true else pure ())
  pure ("service uninstalled" ++ (if stopped then " and stopped" else "") ++
    (if restored then "; system DNS restored" else "; DNS unchanged") ++
    "; config preserved at " ++ configPath.display)

/-! ## restart -/

/-- Install the replacement and check it; when that fails, put the previous configuration back and check it. -/
def restartConfigTransaction (previous replacement : ByteArray) (install : ByteArray → ServiceAction Unit)
    (reload verify : ServiceAction Unit) : ServiceAction String := do
  install replacement
  match ← attempt (do reload; verify) with
  | .ok () => pure "configuration installed; service restarted and DNS checks passed"
  | .error err =>
    install previous
    match ← attempt (do reload; verify) with
    | .ok () =>
      throw ("new configuration failed: " ++ err ++ "; previous configuration restored and restarted")
    | .error rollbackErr =>
      throw ("new configuration failed: " ++ err ++
        "; previous configuration was restored but its restart failed: " ++ rollbackErr)

/-- Restart the service and wait until it answers. -/
def reloadService : ServiceAction Unit := do
  kickstart
  let addr ← installedProbeAddress S
  waitForDns addr 15000

def verifyTakeover (verify : Bool) : ServiceAction Unit :=
  if verify then do
    let addr ← installedProbeAddress S
    let intact ← waitForReassertion S addr.ip 15000
    if intact then pure () else throw "DNS probe passed but system DNS takeover was not verified"
  else pure ()

def restartWithConfig (replacement : ByteArray) : ServiceAction String := do
  let previous ← performE (.readBytes configPath) (orFail ("read installed config " ++ configPath.display))
  let verify ← (do
    match ← takeoverState with
    | .active => pure true
    | .notTakenOver => pure false
    | _ => throw ("takeover state is inconsistent; restore it with `dnsrivet stop` before replacing the " ++
        "configuration"))
  restartConfigTransaction previous replacement writeConfig (reloadService S) (verifyTakeover S verify)

/-- The restart without a new configuration. -/
def restartAsInstalled : ServiceAction String := do
  kickstart
  let addr ← installedProbeAddress S
  waitForDns addr 15000
  match ← takeoverState with
  | .active =>
    let intact ← waitForReassertion S addr.ip 15000
    pure (if intact then "service restarted; DNS probe passed and takeover verified"
      else "service restarted and DNS probe passed, but takeover verification did not complete in time; " ++
        "check `dnsrivet status`")
  | .notTakenOver => pure "service restarted and DNS probe passed"
  | .indeterminate | .corrupted =>
    pure ("service restarted and DNS probe passed, but the takeover state is inconsistent; " ++
      "run `dnsrivet stop` then `dnsrivet start` to re-establish it")

def restart (explicit : Option FilePath) (generated : Option String) : ServiceAction String := do
  requireRoot
  lockLifecycle
  let loaded ← isLoaded
  if !loaded then throw "service is not loaded; use `dnsrivet start`"
  else
    refreshInstalledBinary
    -- a replacement is there when a source of it is
    match ← configBytes S explicit generated with
    | some replacement => restartWithConfig S replacement
    | none => restartAsInstalled S

/-! ## status -/

/-- "Armed" (backup + marker) is not proof that queries flow through the proxy. -/
def takeoverStatusLine : ServiceAction String := do
  match ← takeoverState with
  | .notTakenOver => pure "takeover: not active"
  | .indeterminate => pure "takeover: indeterminate (backup without marker); run `sudo dnsrivet stop`"
  | .corrupted => pure "takeover: state corrupted (marker without backup); run `sudo dnsrivet stop`"
  | .active =>
    match ← attempt (installedProbeAddress S) with
    | .error _ => pure "takeover: armed (rerun with sudo to verify the system DNS)"
    | .ok addr =>
      match ← attempt (dnsAction (some addr.ip) (OsDns.takeoverIntact S.dns addr.ip)) with
      | .ok true => pure "takeover: active"
      | .ok false =>
        pure ("takeover: armed but drifted (system DNS is not pointing at the proxy); the watchdog reasserts it " ++
          "within its check interval")
      | .error err => pure ("takeover: armed (verification failed: " ++ err ++ ")")

/-- The first address that answers a probe, or the failures of all. -/
def probeAll : List SocketAddr → List String → ServiceAction (Except (List String) SocketAddr)
  | [], failures => pure (.error failures)
  | addr :: addresses, failures => do
    match ← attempt (waitForDns addr 2000) with
    | .ok () => pure (.ok addr)
    | .error err => probeAll addresses (failures ++ [addr.display ++ ": " ++ err])

def probeStatus (addresses : List SocketAddr) (takeover : String) : ServiceAction String := do
  match ← probeAll addresses [] with
  | .ok addr => pure ("service: loaded; DNS probe at " ++ addr.display ++ ": healthy\n" ++ takeover)
  | .error failures => pure ("service: loaded; DNS probe failed (" ++ joinWith "; " failures ++ ")\n" ++ takeover)

def status : ServiceAction String := do
  let takeover ← takeoverStatusLine S
  let loaded ← isLoaded
  if !loaded then
    let installed ← isInstalled
    pure ((if installed then "service: installed but stopped" else "service: not installed") ++ "\n" ++ takeover)
  else
    match ← attempt (installedProbeAddress S) with
    | .ok addr => probeStatus [addr] takeover
    | .error configErr =>
      let addresses ← dnsAction none OsDns.currentLoopbackDns
      if addresses.isEmpty then
        pure ("service: loaded; DNS probe unavailable (" ++ configErr ++ ")\n" ++ takeover)
      else probeStatus addresses takeover

end DNSRivet.Service
