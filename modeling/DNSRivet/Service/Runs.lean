/-
The commands and the watchdog together, in any run: any number of processes, in any order of steps, killed at any call,
with reboots and edits of the network services in between. `never_stranded`: a service that is pointed at DNSRivet has
a daemon that runs and comes back after a reboot, and a backup that records its address. `let_go_when_free`: the daemon
is stopped, and what it needs removed, only when no service is pointed at it.
-/
import DNSRivet.Config.Quick
import DNSRivet.OsDns.Lifecycle
import DNSRivet.Service.Safety

namespace DNSRivet.Service

open DNSRivet.Base DNSRivet.Net Prog Discipline
open DNSRivet.OsDns (SysOp IoError Custody CustodyOk custodyStep findServers Changing)

variable {S : ServicePlatform} {ι : Type} [DecidableEq ι]

/-! ## Runs -/

/-- What a command that succeeded leaves, as long as its process is there. -/
def Task.Post (S : ServicePlatform) (i : ι) : Task → Outcome → Machine ι → Prop
  | .start _ _, .command (.ok _), s => Running S i s ∧ s.hasBackup = true ∧ s.marker = true
  | .stop, .command (.ok _), s => Released S i s ∧ s.custody.Free
  | .uninstall, .command (.ok _), s => Released S i s ∧ s.custody.Free ∧ s.job.plist = false ∧ s.job.binary = false
  | .restart _ generated, .command (.ok _), s =>
    ∃ bytes, Restarted S i s bytes ∧ ∀ text, generated = some text → bytes = text.toUTF8
  | _, _, _ => True

omit [DecidableEq ι] in
theorem Released.free {i : ι} {s : Machine ι} (h : Released S i s) : s.custody.Free := by
  have hb := h.backup
  exact h.holds.ok.custody.free (by simpa [Machine.hasBackup] using hb)

theorem safe_task (i : ι) (task : Task) (s : Machine ι) (hok : MachineOk S.dns s)
    (hidle : s.lifecycle ≠ some i ∧ s.dns ≠ some i) :
    (watched S ι).Safe i (task.program S) s (task.Post S i) := by
  cases task with
  | start explicit generated =>
    refine Sat.bind (Sat.mono (safe_start hok hidle explicit generated) ?_)
    rintro (e | message) t h
    · trivial
    · exact h
  | stop =>
    refine Sat.bind (Sat.mono (safe_stop hok hidle) ?_)
    rintro (e | message) t h
    · trivial
    · exact ⟨h, h.free⟩
  | restart explicit generated =>
    refine Sat.bind (Sat.mono (safe_restart hok hidle explicit generated) ?_)
    rintro (e | message) t h
    · trivial
    · exact h
  | status => exact Sat.bind (Sat.mono (looks_status s hok) fun _ _ _ => trivial)
  | uninstall =>
    refine Sat.bind (Sat.mono (safe_uninstall hok hidle) ?_)
    rintro (e | message) t h
    · trivial
    · exact ⟨h.1, h.1.free, h.2⟩
  | watchdogTick server =>
    exact Sat.bind (Sat.mono (safe_dnsSection hok (fun hno => absurd rfl hno) (fun hno => by cases hno)
      fun m hm => OsDns.keeps_watchdogTick hm server) fun _ _ _ => trivial)

/-! ## One Mac -/

def localRaw : Config.RawConfig :=
  ⟨Config.RawService.default, [("0", ⟨"127.0.0.1", 53⟩)], [("0", ⟨"upstream.0", "", "9.9.9.9", "", some 5000, "both"⟩)]⟩

def localText : String := "[listener.0]\n\n[upstream.0]\nendpoint = \"9.9.9.9\"\n"

def wifiService : ServicePlatform := ⟨OsDns.wifiPlatform, Config.onlyToml localRaw localText, fun _ => "invalid utf-8"⟩

/-- The settings, where every operation succeeds. -/
def smoothDns (target : Option IpAddr) (m : Custody) : (op : SysOp) → op.Reply × Custody
  | .listServices => (.ok ((m.services.filter OsDns.Service.enabled).map OsDns.Service.name), m)
  | .listAllServices => (.ok (m.services.map OsDns.Service.name), m)
  | .getDnsServers name => (findServers m.services name, m)
  | .setDnsServers name servers => (.ok (), { m with table := OsDns.setHeld target m.table name servers })
  | op => ((OsDns.calm m.disk op).1, { m with disk := (OsDns.calm m.disk op).2 })

def locked (holder : Option Nat) : Except String Unit :=
  if holder = none then .ok () else .error "Interrupted system call"

def taken (i : Nat) (holder : Option Nat) : Option Nat := if holder = none then some i else holder

def smoothAnswer : Output := ⟨true, "", ""⟩

/-- The machine, where every operation succeeds. -/
def smooth (i : Nat) (s : Machine Nat) : (op : ServiceOp) → op.Reply × Machine Nat
  | .isRoot => (true, s)
  | .processId => (i, s)
  | .lockLifecycle => (locked s.lifecycle, { s with lifecycle := taken i s.lifecycle })
  | .dns _ .lock => (locked s.dns, { s with dns := taken i s.dns })
  | .dns target op => ((smoothDns target s.custody op).1, { s with custody := (smoothDns target s.custody op).2 })
  | .unlockDns => ((), { s with dns := dropped i s.dns })
  | .launchctl .print => (.ok ⟨s.job.loaded, "", ""⟩, s)
  | .launchctl .bootstrap => (.ok smoothAnswer, { s with job := s.job.bootstrap })
  | .launchctl .bootout => (.ok smoothAnswer, { s with job := s.job.bootout })
  | .launchctl .kickstart => (.ok smoothAnswer, { s with job := s.job.start })
  | .launchctl (.setEnabled enabled) => (.ok smoothAnswer, { s with job := s.job.setEnabled enabled })
  | .plistIsFile => (s.job.plist, s)
  | .installPlist _ => (.ok (), { s with job := s.job.setPlist true })
  | .removePlist => (.ok (), { s with job := s.job.setPlist false })
  | .isFile path => (decide (path = configPath) && s.job.config.isSome, s)
  | .readBytes path =>
    (if path = configPath then s.job.config.elim (.error "No such file") .ok else .error "No such file", s)
  | .readText path =>
    (if path = configPath ∧ s.job.config = some localText.toUTF8 then .ok localText else .error "No such file", s)
  | .createSupportDir => (.ok (), s)
  | .installConfig bytes => (.ok (), { s with job := s.job.setConfig bytes })
  | .currentExe => (.ok binaryPath, s)
  | .canonicalBinary => (.ok binaryPath, s)
  | .openExecutable _ => (.ok (), s)
  | .installBinary _ => (.ok (), { s with job := s.job.setBinary true })
  | .removeBinary => (.ok (), { s with job := s.job.setBinary false })
  | .link (.createDirAll _) => (.ok (), s)
  | .link (.symlinkMetadata _) => (.error ⟨true, "No such file or directory"⟩, s)
  | .link (.readLink _) => (.error "No such file or directory", s)
  | .link (.canonicalize _) => (.error "No such file or directory", s)
  | .link (.removeFile _) => (.error ⟨true, "No such file or directory"⟩, s)
  | .link (.symlink _ _) => (.ok (), s)
  | .link (.rename _ _) => (.ok (), s)
  | .bindUdp _ => (.ok (), s)
  | .bindTcp _ => (.ok (), s)
  | .closeListeners => ((), s)
  | .now => (0, s)
  | .sleep _ => ((), s)
  | .subsecNanos => (0, s)
  | .exchange _ query _ => (.ok (query.take 2 ++ [0x81, 0x80, 0, 1, 0, 1, 0, 0, 0, 0]), s)

theorem smoothDns_ok (target : Option IpAddr) (m : Custody) (op : SysOp) :
    custodyStep target m op (smoothDns target m op).1 (smoothDns target m op).2 := by
  cases op with
  | listServices => exact ⟨rfl, fun names h => (Except.ok.inj h).symm⟩
  | listAllServices => exact ⟨rfl, fun names h => (Except.ok.inj h).symm⟩
  | getDnsServers name => exact ⟨rfl, fun servers h => h⟩
  | setDnsServers name servers => exact .inl ⟨rfl, rfl⟩
  | _ => exact ⟨_, OsDns.diskStep_calm m.disk _, rfl⟩

theorem smooth_ok (i : Nat) (s : Machine Nat) (op : ServiceOp) :
    serviceStep i s op (smooth i s op).1 (smooth i s op).2 := by
  have hacquires : ∀ holder : Option Nat, acquires i holder (locked holder) (taken i holder) := by
    intro holder
    unfold locked taken
    split
    · rename_i h
      exact .inl ⟨rfl, h, rfl⟩
    · exact .inr ⟨⟨_, rfl⟩, rfl⟩
  have hfile : ∀ (r : Except String ByteArray) (path : FilePath),
      r = (if path = configPath then s.job.config.elim (.error "No such file") .ok else .error "No such file") →
        path = configPath → ∀ bytes, r = .ok bytes → s.job.config = some bytes := by
    rintro r path rfl rfl bytes h
    rw [if_pos rfl] at h
    cases hc : s.job.config with
    | none =>
      rw [hc] at h
      cases h
    | some bytes' =>
      rw [hc] at h
      cases h
      rfl
  cases op with
  | lockLifecycle => exact ⟨_, hacquires s.lifecycle, rfl⟩
  | dns target op =>
    cases op with
    | lock => exact ⟨_, hacquires s.dns, rfl⟩
    | _ => exact ⟨_, smoothDns_ok target s.custody _, rfl⟩
  | unlockDns => rfl
  | launchctl command =>
    cases command with
    | print =>
      refine ⟨s.job, ⟨rfl, ?_⟩, rfl⟩
      rintro o ⟨⟩
      rfl
    | _ => exact ⟨_, .inl rfl, rfl⟩
  | plistIsFile => exact ⟨s.job, ⟨rfl, rfl⟩, rfl⟩
  | installPlist text => exact ⟨_, .inl ⟨rfl, rfl⟩, rfl⟩
  | removePlist => exact ⟨_, .inl ⟨rfl, rfl⟩, rfl⟩
  | installConfig bytes => exact ⟨_, .inl ⟨rfl, rfl⟩, rfl⟩
  | installBinary source => exact ⟨_, .inl ⟨rfl, rfl⟩, rfl⟩
  | removeBinary => exact ⟨_, .inl ⟨rfl, rfl⟩, rfl⟩
  | isFile path => exact ⟨s.job, ⟨fun h => by simp [smooth, h], rfl⟩, rfl⟩
  | readBytes path => exact ⟨s.job, ⟨hfile _ path rfl, rfl⟩, rfl⟩
  | readText path =>
    refine ⟨s.job, ⟨fun _ text h => ?_, rfl⟩, rfl⟩
    simp only [smooth] at h
    split at h
    · rename_i hc
      cases h
      exact hc.2
    · cases h
  | link op => cases op <;> exact ⟨s.job, rfl, rfl⟩
  | _ => exact ⟨s.job, rfl, rfl⟩

/-- One service, which uses the resolver of its network, and an installed configuration. -/
def wifiMachine : Machine Nat :=
  ⟨⟨⟨none, false⟩, [⟨⟨"Wi-Fi", true, []⟩, none⟩]⟩, ⟨false, false, false, false, some localText.toUTF8, none⟩,
    none, none⟩

/-- A task of process 7, after `n` answers. -/
def wifiTask (task : Task) (n : Nat) : Prog ServiceOp ServiceOp.Reply Outcome × Machine Nat :=
  (task.program wifiService).advance (smooth 7) n wifiMachine

def wifiPool (task : Task) (n : Nat) : Pool (Machine Nat) ServiceOp ServiceOp.Reply Nat Task Outcome :=
  ⟨(wifiTask task n).2, Function.update (fun _ => none) 7 (some (task, (wifiTask task n).1))⟩

theorem run_task {s : Machine Nat} {es : List (PoolEvent Nat Task)}
    (h : Run (host wifiService Nat).pool es ⟨s, fun _ => none⟩) (task : Task) (n : Nat) :
    ∃ es', Run (host wifiService Nat).pool es' ⟨((task.program wifiService).advance (smooth 7) n s).2,
      Function.update (fun _ => none) 7 (some (task, ((task.program wifiService).advance (smooth 7) n s).1))⟩ := by
  have hstart : (host wifiService Nat).pool.step ⟨s, fun _ => none⟩ (.start 7 task)
      ⟨s, Function.update (fun _ => none) 7 (some (task, task.program wifiService))⟩ := ⟨rfl, rfl⟩
  exact Host.run_advance (smooth_ok 7) n (h.snoc hstart)

theorem run_wifiTask (task : Task) (n : Nat) : ∃ es, Run (host wifiService Nat).pool es (wifiPool task n) := by
  have hinit : (host wifiService Nat).pool.init ⟨wifiMachine, fun _ => none⟩ := by
    refine ⟨⟨rfl, ?_, ?_, rfl, rfl⟩, fun _ => rfl⟩
    · decide
    · rintro service (_ | ⟨_, ⟨⟩⟩)
      rfl
  exact run_task (Run.start hinit) task n

/-- The machine once a start has ended. -/
def startedMachine : Machine Nat := (host wifiService Nat).leave 7 (wifiTask (.start none none) 38).2

/-- A task of process 7 on that machine, after `n` answers. -/
def laterTask (task : Task) (n : Nat) : Prog ServiceOp ServiceOp.Reply Outcome × Machine Nat :=
  (task.program wifiService).advance (smooth 7) n startedMachine

def laterPool (task : Task) (n : Nat) : Pool (Machine Nat) ServiceOp ServiceOp.Reply Nat Task Outcome :=
  ⟨(laterTask task n).2, Function.update (fun _ => none) 7 (some (task, (laterTask task n).1))⟩

theorem run_laterTask (task : Task) (n : Nat) : ∃ es, Run (host wifiService Nat).pool es (laterPool task n) := by
  obtain ⟨es, h⟩ := run_wifiTask (.start none none) 38
  have hgone : (host wifiService Nat).pool.step (wifiPool (.start none none) 38) (.gone 7)
      ⟨startedMachine, fun _ => none⟩ := by
    refine ⟨by simp [wifiPool], ?_⟩
    simp [wifiPool, startedMachine]
  exact run_task (h.snoc hgone) task n

/-! ## Results -/

/-- What holds of a run between any two steps. -/
theorem watched_ok {es : List (PoolEvent ι Task)} {c : Pool (Machine ι) ServiceOp ServiceOp.Reply ι Task Outcome}
    (h : Run (host S ι).pool es c) : (watched S ι).Ok (fun i task => task.Post S i) c :=
  disciplined (D := watched S ι) (fun i task s hok hidle => safe_task i task s hok hidle) h

/-- A service that is pointed at DNSRivet is never left without it: the daemon is loaded, enabled and installed with
its configuration, and the backup records the address. -/
theorem never_stranded {es : List (PoolEvent ι Task)} {c : Pool (Machine ι) ServiceOp ServiceOp.Reply ι Task Outcome}
    (h : Run (host S ι).pool es c) :
    ∀ service ∈ c.shared.custody.table, ∀ server, service.pointed = some server →
      service.servers = [server.display] ∧ OsDns.Knows S.dns c.shared.custody.disk server ∧ c.shared.job.Ready := by
  intro service hs server hp
  have hok : MachineOk S.dns c.shared := (watched_ok h).inv
  obtain ⟨hlist, hknows⟩ := hok.custody.pointed service hs server hp
  refine ⟨hlist, hknows, hok.ready ?_⟩
  obtain ⟨backup, history, ⟨text, ht, -⟩, -⟩ := hknows
  simp [Machine.hasBackup, ht]

theorem never_stranded_wifi : (wifiTask (.start none none) 35).2.job.Ready := by
  obtain ⟨es, h⟩ := run_wifiTask (.start none none) 35
  have hmem : (⟨⟨"Wi-Fi", true, ["127.0.0.1"]⟩, some (.v4 ⟨127, 0, 0, 1⟩)⟩ : OsDns.HeldService) ∈
      (wifiTask (.start none none) 35).2.custody.table := by decide +kernel
  exact (never_stranded h _ hmem _ rfl).2.2

/-- Operations that take something away which a takeover needs. -/
def LetsGo : ServiceOp → Prop
  | .launchctl .bootout | .launchctl (.setEnabled false) | .removePlist | .removeBinary => True
  | .dns _ .removeBackup => True
  | _ => False

/-- A process that is about to stop or disable the daemon, or to remove its files or the backup, holds the lifecycle
lock, and no service is pointed at DNSRivet. -/
theorem let_go_when_free {es : List (PoolEvent ι Task)} {c : Pool (Machine ι) ServiceOp ServiceOp.Reply ι Task Outcome}
    (h : Run (host S ι).pool es c) {i : ι} {task : Task} {op : ServiceOp} {k : op.Reply → Prog ServiceOp _ Outcome}
    (hrun : c.running i = some (task, .call op k)) (hop : LetsGo op) :
    c.shared.lifecycle = some i ∧ ∀ service ∈ c.shared.custody.table, service.pointed = none := by
  have hwatched := watched_ok h
  have hok : MachineOk S.dns c.shared := hwatched.inv
  have hpre : servicePre S.dns i c.shared op := hwatched.pre hrun
  have hfree : c.shared.lifecycle = some i ∧ c.shared.hasBackup = false →
      c.shared.lifecycle = some i ∧ ∀ service ∈ c.shared.custody.table, service.pointed = none := by
    rintro ⟨hl, hb⟩
    exact ⟨hl, hok.custody.free (by simpa [Machine.hasBackup] using hb)⟩
  cases op with
  | launchctl command =>
    cases command with
    | bootout => exact hfree hpre
    | setEnabled enabled =>
      cases enabled with
      | false => exact hfree hpre
      | true => exact hop.elim
    | _ => exact hop.elim
  | removePlist => exact hfree hpre
  | removeBinary => exact hfree hpre
  | dns target op =>
    cases op with
    | removeBackup =>
      obtain ⟨role, ⟨hrole, -, hnone⟩, -, hl, -⟩ := hpre
      exact ⟨hl hrole, hnone⟩
    | _ => exact hop.elim
  | _ => exact hop.elim

/-- The next call removes the property list. -/
def removesPlist : Prog ServiceOp ServiceOp.Reply Outcome → Bool
  | .call .removePlist _ => true
  | _ => false

theorem removesPlist_call {p : Prog ServiceOp ServiceOp.Reply Outcome} (h : removesPlist p = true) :
    ∃ k, p = .call .removePlist k := by
  cases p with
  | ret outcome => cases h
  | call op k =>
    cases op with
    | removePlist => exact ⟨k, rfl⟩
    | _ => cases h

/-- An uninstall of a Mac that was taken over. -/
theorem let_go_when_free_wifi : (∃ service ∈ startedMachine.custody.table, service.pointed ≠ none) ∧
    (laterTask .uninstall 18).2.lifecycle = some 7 ∧
    ∀ service ∈ (laterTask .uninstall 18).2.custody.table, service.pointed = none := by
  obtain ⟨es, h⟩ := run_laterTask .uninstall 18
  obtain ⟨k, hk⟩ := removesPlist_call (p := (laterTask .uninstall 18).1) (by decide +kernel)
  have hrun : (laterPool .uninstall 18).running 7 = some (.uninstall, .call .removePlist k) := by
    rw [← hk]
    rfl
  exact ⟨by decide +kernel, let_go_when_free h hrun trivial⟩

/-- Whatever else happens, a process with the DNS lock finds the settings and the files of the takeover as it left
them; one with the lifecycle lock finds the job so, up to a daemon that launchd started again, and a backup and a
marker where there were ones. -/
theorem holder_undisturbed {es : List (PoolEvent ι Task)}
    {c c' : Pool (Machine ι) ServiceOp ServiceOp.Reply ι Task Outcome} (h : Run (host S ι).pool es c) {i : ι}
    {e : PoolEvent ι Task} (hs : (host S ι).pool.step c e c') (hstep : e ≠ .step i) (hgone : e ≠ .gone i) :
    (c.shared.dns = some i → c'.shared.dns = some i ∧ c'.shared.custody = c.shared.custody) ∧
      (c.shared.lifecycle = some i → c'.shared.lifecycle = some i ∧ Kept c.shared c'.shared) := by
  have hrely : Relies S.dns i c.shared c'.shared := (watched_ok h).others hs hstep hgone
  constructor
  · intro hd
    exact ⟨hrely.dns.1 hd, hrely.custody hd⟩
  · intro hl
    exact ⟨hrely.lifecycle.1 hl, hrely.job hl, (hrely.backup hl).1, (hrely.backup hl).2⟩

def loopback : IpAddr := .v4 ⟨127, 0, 0, 1⟩

/-- While the start switches the services, launchd starts the daemon again, and a round of its watchdog asks for the
DNS lock. -/
theorem holder_undisturbed_wifi :
    Kept (wifiTask (.start none none) 35).2
      { (wifiTask (.start none none) 35).2 with job := (wifiTask (.start none none) 35).2.job.start } ∧
    (smooth 8 (wifiTask (.start none none) 35).2 (.dns (some loopback) .lock)).2.dns = some 7 ∧
    (smooth 8 (wifiTask (.start none none) 35).2 (.dns (some loopback) .lock)).2.custody =
      (wifiTask (.start none none) 35).2.custody := by
  obtain ⟨es, h⟩ := run_wifiTask (.start none none) 35
  constructor
  · have hstep : (host wifiService Nat).pool.step (wifiPool (.start none none) 35) .outside
        ⟨{ (wifiTask (.start none none) 35).2 with job := (wifiTask (.start none none) 35).2.job.start },
          (wifiPool (.start none none) 35).running⟩ := ⟨_, .respawn, rfl⟩
    have hlifecycle : (wifiPool (.start none none) 35).shared.lifecycle = some 7 := by decide +kernel
    exact ((holder_undisturbed h hstep (by simp) (by simp)).2 hlifecycle).2
  · obtain ⟨k, hk⟩ : ∃ k, Task.program wifiService (.watchdogTick loopback) = .call (.dns (some loopback) .lock) k :=
      ⟨_, rfl⟩
    have hround : (host wifiService Nat).pool.step (wifiPool (.start none none) 35) (.start 8 (.watchdogTick loopback))
        ⟨(wifiTask (.start none none) 35).2, Function.update (wifiPool (.start none none) 35).running 8
          (some (.watchdogTick loopback, .call (.dns (some loopback) .lock) k))⟩ := ⟨rfl, by rw [← hk]; rfl⟩
    have hstep : (host wifiService Nat).pool.step ⟨(wifiTask (.start none none) 35).2,
          Function.update (wifiPool (.start none none) 35).running 8
            (some (.watchdogTick loopback, .call (.dns (some loopback) .lock) k))⟩ (.step 8)
        ⟨(smooth 8 (wifiTask (.start none none) 35).2 (.dns (some loopback) .lock)).2, _⟩ :=
      ⟨.watchdogTick loopback, _, k, _, _, Function.update_self 8 _ (wifiPool (.start none none) 35).running,
        smooth_ok 8 (wifiTask (.start none none) 35).2 (.dns (some loopback) .lock), rfl⟩
    have hdns : (wifiTask (.start none none) 35).2.dns = some 7 := by decide +kernel
    exact (holder_undisturbed (h.snoc hround) hstep (by simp) (by simp)).1 hdns

/-- How a restart with a new configuration fails: before anything was done, with the previous configuration installed
again and running, with it installed only, or with the new one still there because that could not be undone. -/
def NotReplaced (s : Machine ι) (replacement : ByteArray) (e : String) (t : Machine ι) : Prop :=
  (t.hasBackup = s.hasBackup ∧ t.marker = s.marker) ∧
    (Kept s t ∨
      (∃ err, e = "new configuration failed: " ++ err ++ "; previous configuration restored and restarted" ∧
        t.job.config = s.job.config ∧ t.job.running = s.job.config) ∨
      (∃ err rollbackErr, e = "new configuration failed: " ++ err ++
        "; previous configuration was restored but its restart failed: " ++ rollbackErr ∧
        t.job.config = s.job.config) ∨
      (t.job.config = some replacement ∧ InstallFailed e))

/-- A restart with a new configuration, while others run: it ends with the new configuration installed and running, or
fails in one of those ways, and the takeover is as it was. -/
theorem replacement_settles {i : ι} {s : Machine ι} (h : Holds S i s) (replacement : ByteArray) :
    SafeOn S i (restartWithConfig S replacement) s
      (fun _ t => (t.hasBackup = s.hasBackup ∧ t.marker = s.marker) ∧ t.job.config = some replacement ∧
        t.job.running = some replacement)
      (NotReplaced s replacement) := by
  refine (safe_restartWithConfig h replacement).mono (fun _ t ht => ⟨⟨ht.backup, ht.marker⟩, ht.config, ht.running⟩) ?_
  rintro e t (⟨-, hk⟩ | ⟨previous, hprevious, hrolled⟩)
  · exact ⟨⟨hk.backup, hk.marker⟩, .inl hk⟩
  · unfold NotReplaced
    rw [hprevious]
    cases hrolled with
    | refused ht hk he => exact ⟨⟨hk.backup, hk.marker⟩, .inl hk⟩
    | restored ht => exact ⟨⟨ht.backup, ht.marker⟩, .inr (.inl ⟨_, rfl, ht.config, ht.running⟩)⟩
    | stuck ht => exact ⟨⟨ht.backup, ht.marker⟩, .inr (.inr (.inl ⟨_, _, rfl, ht.config⟩))⟩
    | lost ht he => exact ⟨⟨ht.backup, ht.marker⟩, .inr (.inr (.inr ⟨ht.config, he⟩))⟩

theorem replacement_settles_wifi :
    SafeOn wifiService 7 (restartWithConfig wifiService localText.toUTF8) (wifiTask .stop 2).2
      (fun _ t => (t.hasBackup = false ∧ t.marker = false) ∧ t.job.config = some localText.toUTF8 ∧
        t.job.running = some localText.toUTF8)
      (NotReplaced (wifiTask .stop 2).2 localText.toUTF8) := by
  obtain ⟨es, h⟩ := run_wifiTask .stop 2
  have hholds : Holds wifiService 7 (wifiTask .stop 2).2 := ⟨(watched_ok h).inv, rfl, by decide⟩
  exact replacement_settles hholds localText.toUTF8

end DNSRivet.Service
