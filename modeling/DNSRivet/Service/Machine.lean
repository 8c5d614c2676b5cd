/-
The system the commands run on, shared by any number of processes: the DNS settings and their files, the launchd job
with its files, and the two locks. `serviceStep` is what an operation can be answered and do. A launchd command that
failed may still have had its effect; a file operation that failed had none. Besides the commands and the watchdog of
the daemon, launchd starts the daemon again, the machine may reboot, and network services are edited, renamed, added
and removed while no DNS operation runs. `watched` is the discipline of the processes: who holds the lifecycle lock
decides about the job and whether there is a backup, who holds the DNS lock about the settings.
-/
import DNSRivet.OsDns.Custody
import DNSRivet.Service.Commands

namespace DNSRivet.Service

open DNSRivet.Base DNSRivet.Net Prog
open DNSRivet.OsDns (SysOp IoError Custody CustodyOk custodyStep keeping Role Changing HeldService TickOutcome
  custodyStep_ok custodyStep_watching custodyStep_releasing custodyStep_of_not_changing)

/-! ## The system -/

/-- The launchd job and its files. -/
structure Job where
  loaded : Bool
  enabled : Bool
  plist : Bool
  binary : Bool
  config : Option ByteArray
  /-- The configuration the daemon was last started with. -/
  running : Option ByteArray
deriving DecidableEq

/-- The daemon runs, and can be started again. -/
structure Job.Ready (j : Job) : Prop where
  loaded : j.loaded = true
  enabled : j.enabled = true
  plist : j.plist = true
  binary : j.binary = true
  config : j.config.isSome

namespace Job

def bootstrap (j : Job) : Job := { j with loaded := true, running := j.config }
def bootout (j : Job) : Job := { j with loaded := false, running := none }
def start (j : Job) : Job := { j with running := j.config }
def setEnabled (enabled : Bool) (j : Job) : Job := { j with enabled := enabled }
def setPlist (plist : Bool) (j : Job) : Job := { j with plist := plist }
def setBinary (binary : Bool) (j : Job) : Job := { j with binary := binary }
def setConfig (bytes : ByteArray) (j : Job) : Job := { j with config := some bytes }

theorem Ready.start {j : Job} (h : j.Ready) : j.start.Ready := ⟨h.loaded, h.enabled, h.plist, h.binary, h.config⟩

end Job

structure Machine (ι : Type) where
  custody : Custody
  job : Job
  /-- The process that holds the lifecycle lock. -/
  lifecycle : Option ι
  /-- The process that holds the DNS lock. -/
  dns : Option ι

variable {ι : Type}

def Machine.hasBackup (s : Machine ι) : Bool := s.custody.disk.backup.isSome
def Machine.marker (s : Machine ι) : Bool := s.custody.disk.marker

/-- A command that succeeded had its effect; one that failed may have had it. -/
def effect (f : Job → Job) (j : Job) (r : Except String Output) (j' : Job) : Prop :=
  j' = f j ∨ ((∀ o, r = .ok o → o.success = false) ∧ j' = j)

def launchctlStep (j : Job) : Launchctl → Except String Output → Job → Prop
  | .print, r, j' => j' = j ∧ ∀ o, r = .ok o → o.success = j.loaded
  | .bootstrap, r, j' => effect Job.bootstrap j r j'
  | .bootout, r, j' => effect Job.bootout j r j'
  | .kickstart, r, j' => effect Job.start j r j'
  | .setEnabled enabled, r, j' => effect (Job.setEnabled enabled) j r j'

/-- A file is installed, or nothing happens. -/
def installs (f : Job → Job) (j : Job) (r : Except String Unit) (j' : Job) : Prop :=
  (r = .ok () ∧ j' = f j) ∨ ((∃ e, r = .error e) ∧ j' = j)

/-- A file is removed, or nothing happens; one that is not found is not there. -/
def removes (present : Bool) (f : Job → Job) (j : Job) (r : Except IoError Unit) (j' : Job) : Prop :=
  (r = .ok () ∧ j' = f j) ∨ ((∃ e, r = .error e ∧ (e.notFound = true → present = false)) ∧ j' = j)

def fileStep (j : Job) : (op : ServiceOp) → op.Reply → Job → Prop
  | .launchctl command, r, j' => launchctlStep j command r j'
  | .plistIsFile, r, j' => r = j.plist ∧ j' = j
  | .installPlist _, r, j' => installs (Job.setPlist true) j r j'
  | .removePlist, r, j' => removes j.plist (Job.setPlist false) j r j'
  | .installConfig bytes, r, j' => installs (Job.setConfig bytes) j r j'
  | .installBinary _, r, j' => installs (Job.setBinary true) j r j'
  | .removeBinary, r, j' => removes j.binary (Job.setBinary false) j r j'
  | .isFile path, r, j' => (path = configPath → r = j.config.isSome) ∧ j' = j
  | .readBytes path, r, j' => (path = configPath → ∀ bytes, r = .ok bytes → j.config = some bytes) ∧ j' = j
  | .readText path, r, j' => (path = configPath → ∀ text, r = .ok text → j.config = some text.toUTF8) ∧ j' = j
  | _, _, j' => j' = j

/-- Take a lock that is free, or fail. -/
def acquires (i : ι) (holder : Option ι) (r : Except String Unit) (holder' : Option ι) : Prop :=
  (r = .ok () ∧ holder = none ∧ holder' = some i) ∨ ((∃ e, r = .error e) ∧ holder' = holder)

def dropped [DecidableEq ι] (i : ι) (holder : Option ι) : Option ι := if holder = some i then none else holder

/-- What an operation of process `i` can answer and do. A lock that is held is waited for. -/
def serviceStep [DecidableEq ι] (i : ι) (s : Machine ι) : (op : ServiceOp) → op.Reply → Machine ι → Prop
  | .lockLifecycle, r, s' => ∃ holder, acquires i s.lifecycle r holder ∧ s' = { s with lifecycle := holder }
  | .dns _ .lock, r, s' => ∃ holder, acquires i s.dns r holder ∧ s' = { s with dns := holder }
  | .dns target op, r, s' => ∃ m, custodyStep target s.custody op r m ∧ s' = { s with custody := m }
  | .unlockDns, _, s' => s' = { s with dns := dropped i s.dns }
  | op, r, s' => ∃ j, fileStep s.job op r j ∧ s' = { s with job := j }

/-- What becomes of the table when services are edited, renamed, added and removed: a service is still pointed only
if its list is as it was. -/
def Edited (table table' : List HeldService) : Prop :=
  (table'.map fun service => service.name).Nodup ∧ ∀ service ∈ table', service.pointed ≠ none →
    ∃ old ∈ table, old.pointed = service.pointed ∧ old.servers = service.servers

inductive Outside : Machine ι → Machine ι → Prop
  /-- No DNS operation runs meanwhile. -/
  | edit {s : Machine ι} {table : List HeldService} (h : s.dns = none) (he : Edited s.custody.table table) :
    Outside s { s with custody := { s.custody with table := table } }
  /-- launchd starts the daemon again. -/
  | respawn {s : Machine ι} : Outside s { s with job := s.job.start }
  /-- launchd loads what is installed and enabled. -/
  | reboot {s : Machine ι} (hl : s.lifecycle = none) (hd : s.dns = none) :
    Outside s { s with job := { s.job with
      loaded := s.job.plist && s.job.enabled
      running := if s.job.plist && s.job.enabled then s.job.config else none } }

/-- What a process runs: a command, or a round of the daemon's watchdog for the address it guards. -/
inductive Task
  | start (explicit : Option FilePath) (generated : Option String)
  | stop
  | restart (explicit : Option FilePath) (generated : Option String)
  | status
  | uninstall
  | watchdogTick (server : IpAddr)

inductive Outcome
  | command (result : Except String String)
  | tick (result : Except String TickOutcome)
deriving DecidableEq

def Task.program (S : ServicePlatform) : Task → Prog ServiceOp ServiceOp.Reply Outcome
  | .start explicit generated => (Service.start S explicit generated).run >>= fun r => .ret (.command r)
  | .stop => (Service.stop S).run >>= fun r => .ret (.command r)
  | .restart explicit generated => (Service.restart S explicit generated).run >>= fun r => .ret (.command r)
  | .status => (Service.status S).run >>= fun r => .ret (.command r)
  | .uninstall => (Service.uninstall S).run >>= fun r => .ret (.command r)
  | .watchdogTick server =>
    (dnsSection (some server) (OsDns.watchdogTick S.dns server)).run >>= fun r => .ret (.tick r)

/-- Nothing was taken over yet; what is installed may be anything. -/
def Machine.Fresh (s : Machine ι) : Prop :=
  s.custody.disk = ⟨none, false⟩ ∧ (s.custody.services.map OsDns.Service.name).Nodup ∧
    (∀ service ∈ s.custody.table, service.pointed = none) ∧ s.lifecycle = none ∧ s.dns = none

/-- Any number of commands and watchdog rounds. -/
def host (S : ServicePlatform) (ι : Type) [DecidableEq ι] :
    Host (Machine ι) ServiceOp ServiceOp.Reply ι Task Outcome where
  init := Machine.Fresh
  program := Task.program S
  answer := serviceStep
  leave := fun i s => { s with lifecycle := dropped i s.lifecycle, dns := dropped i s.dns }
  outside := Outside

/-! ## The discipline -/

variable (P : OsDns.Platform)

/-- What holds between any two steps: a service is pointed only at what the backup records, and as long as there is a
backup the daemon runs. -/
structure MachineOk (s : Machine ι) : Prop where
  custody : CustodyOk P s.custody
  ready : s.hasBackup = true → s.job.Ready

/-- What a process may rely on, by the locks it holds. -/
structure Relies (i : ι) (s t : Machine ι) : Prop where
  ok : MachineOk P s → MachineOk P t
  lifecycle : s.lifecycle = some i ↔ t.lifecycle = some i
  dns : s.dns = some i ↔ t.dns = some i
  job : s.lifecycle = some i → t.job = s.job ∨ t.job = s.job.start
  backup : s.lifecycle = some i → t.hasBackup = s.hasBackup ∧ t.marker = s.marker
  custody : s.dns = some i → t.custody = s.custody

/-- What a process checks before it calls. -/
def servicePre (i : ι) (s : Machine ι) : ServiceOp → Prop
  | .dns target op =>
    ∃ role, (keeping P target role).pre s.custody op ∧ (Changing op → s.dns = some i) ∧
      (role ≠ .watching → s.lifecycle = some i) ∧ (role = .takingOver → s.job.Ready)
  | .launchctl .bootout | .launchctl (.setEnabled false) | .removePlist | .removeBinary =>
    s.lifecycle = some i ∧ s.hasBackup = false
  | .launchctl .bootstrap | .launchctl .kickstart | .launchctl (.setEnabled true) | .installPlist _ | .installConfig _
  | .installBinary _ => s.lifecycle = some i
  | _ => True

variable {P} {i j : ι} {s t u : Machine ι}

/-! ### Reliance -/

theorem Relies.refl (i : ι) (s : Machine ι) : Relies P i s s :=
  ⟨id, Iff.rfl, Iff.rfl, fun _ => .inl rfl, fun _ => ⟨rfl, rfl⟩, fun _ => rfl⟩

theorem Relies.trans (h : Relies P i s t) (h' : Relies P i t u) : Relies P i s u := by
  refine ⟨h'.ok ∘ h.ok, h.lifecycle.trans h'.lifecycle, h.dns.trans h'.dns, fun hl => ?_, fun hl => ?_, fun hd => ?_⟩
  · rcases h.job hl with e | e <;> rcases h'.job (h.lifecycle.1 hl) with e' | e' <;> rw [e'] <;> simp [e, Job.start]
  · have h1 := h.backup hl
    have h2 := h'.backup (h.lifecycle.1 hl)
    exact ⟨h2.1.trans h1.1, h2.2.trans h1.2⟩
  · rw [h'.custody (h.dns.1 hd), h.custody hd]

theorem effect_or {f : Job → Job} {j j' : Job} {r : Except String Output} (h : effect f j r j') : j' = f j ∨ j' = j :=
  h.imp id And.right

theorem installs_or {f : Job → Job} {j j' : Job} {r : Except String Unit} (h : installs f j r j') :
    j' = f j ∨ j' = j :=
  h.imp And.right And.right

/-- Without the lifecycle lock the job stays as it is; with it, it stays ready as long as there is a backup. -/
theorem fileStep_ok {op : ServiceOp} {r : op.Reply} {j' : Job} (hpre : servicePre P i s op)
    (hs : fileStep s.job op r j') :
    (s.lifecycle ≠ some i → j' = s.job) ∧ (s.hasBackup = true → s.job.Ready → j'.Ready) := by
  have hstill : j' = s.job → (s.lifecycle ≠ some i → j' = s.job) ∧ (s.hasBackup = true → s.job.Ready → j'.Ready) := by
    rintro rfl
    exact ⟨fun _ => rfl, fun _ h => h⟩
  -- what only the holder may do, as the job keeps ready
  have hheld : ∀ f : Job → Job, s.lifecycle = some i → (∀ j : Job, j.Ready → (f j).Ready) →
    (j' = f s.job ∨ j' = s.job) →
      (s.lifecycle ≠ some i → j' = s.job) ∧ (s.hasBackup = true → s.job.Ready → j'.Ready) := by
    rintro f hl hf (rfl | rfl)
    · exact ⟨fun hno => absurd hl hno, fun _ h => hf _ h⟩
    · exact ⟨fun _ => rfl, fun _ h => h⟩
  -- what is done only where there is no backup
  have hfree : s.lifecycle = some i → s.hasBackup = false →
      (s.lifecycle ≠ some i → j' = s.job) ∧ (s.hasBackup = true → s.job.Ready → j'.Ready) := by
    intro hl hnone
    exact ⟨fun hno => absurd hl hno, fun hsome => by rw [hnone] at hsome; cases hsome⟩
  cases op with
  | launchctl command =>
    cases command with
    | print => exact hstill hs.1
    | bootstrap =>
      exact hheld Job.bootstrap hpre (fun j h => ⟨rfl, h.enabled, h.plist, h.binary, h.config⟩) (effect_or hs)
    | bootout => exact hfree hpre.1 hpre.2
    | kickstart => exact hheld Job.start hpre (fun j h => h.start) (effect_or hs)
    | setEnabled enabled =>
      cases enabled with
      | true =>
        exact hheld (Job.setEnabled true) hpre (fun j h => ⟨h.loaded, rfl, h.plist, h.binary, h.config⟩)
          (effect_or hs)
      | false => exact hfree hpre.1 hpre.2
  | installPlist text =>
    exact hheld (Job.setPlist true) hpre (fun j h => ⟨h.loaded, h.enabled, rfl, h.binary, h.config⟩) (installs_or hs)
  | installConfig bytes =>
    exact hheld (Job.setConfig bytes) hpre (fun j h => ⟨h.loaded, h.enabled, h.plist, h.binary, rfl⟩) (installs_or hs)
  | installBinary source =>
    exact hheld (Job.setBinary true) hpre (fun j h => ⟨h.loaded, h.enabled, h.plist, rfl, h.config⟩) (installs_or hs)
  | removePlist => exact hfree hpre.1 hpre.2
  | removeBinary => exact hfree hpre.1 hpre.2
  | plistIsFile => exact hstill hs.2
  | isFile path => exact hstill hs.2
  | readBytes path => exact hstill hs.2
  | readText path => exact hstill hs.2
  | _ => exact hstill hs

/-- A change of the job by the holder of the lifecycle lock, or none. -/
theorem machine_job {j' : Job} (hok : MachineOk P s) (hj : s.lifecycle ≠ some i → j' = s.job)
    (hready : s.hasBackup = true → s.job.Ready → j'.Ready) :
    MachineOk P { s with job := j' } ∧ ∀ j, j ≠ i → Relies P j s { s with job := j' } := by
  have hnext : MachineOk P { s with job := j' } := ⟨hok.custody, fun hb => hready hb (hok.ready hb)⟩
  refine ⟨hnext, fun j hne => ⟨fun _ => hnext, Iff.rfl, Iff.rfl, fun hl => .inl ?_, fun _ => ⟨rfl, rfl⟩, fun _ => rfl⟩⟩
  apply hj
  rw [hl]
  simpa using hne

/-- A DNS operation whose check was made. -/
theorem machine_dns {target : Option IpAddr} {op : SysOp} {r : op.Reply} {m : Custody} (hok : MachineOk P s)
    (hpre : servicePre P i s (.dns target op)) (hs : custodyStep target s.custody op r m) :
    MachineOk P { s with custody := m } ∧ ∀ j, j ≠ i → Relies P j s { s with custody := m } := by
  obtain ⟨role, hkeep, hdns, hlife, hready⟩ := hpre
  have hnext : MachineOk P { s with custody := m } := by
    refine ⟨custodyStep_ok hok.custody hkeep hs, fun hb => ?_⟩
    by_cases hrole : role = .takingOver
    · exact hready hrole
    · -- there was a backup before
      apply hok.ready
      by_contra hno
      have hnone : s.custody.disk.backup = none := by simpa [Machine.hasBackup] using hno
      have := custodyStep_releasing hkeep hrole hnone hs
      simp [Machine.hasBackup, this] at hb
  refine ⟨hnext, fun j hne => ⟨fun _ => hnext, Iff.rfl, Iff.rfl, fun _ => .inl rfl, fun hl => ?_, fun hd => ?_⟩⟩
  · have hrole : role = .watching := by
      by_contra hno
      exact hne (Option.some.inj (hl.symm.trans (hlife hno)))
    subst hrole
    exact custodyStep_watching hkeep hs
  · refine custodyStep_of_not_changing (fun hop => hne ?_) hs
    exact Option.some.inj (hd.symm.trans (hdns hop))

/-- A lock changes hands only from and to the process that acts. -/
theorem machine_locks {lifecycle dns : Option ι} (hok : MachineOk P s)
    (hl : ∀ j, j ≠ i → (s.lifecycle = some j ↔ lifecycle = some j)) (hd : ∀ j, j ≠ i →
      (s.dns = some j ↔ dns = some j)) :
    MachineOk P { s with lifecycle := lifecycle, dns := dns } ∧
      ∀ j, j ≠ i → Relies P j s { s with lifecycle := lifecycle, dns := dns } := by
  have hnext : MachineOk P { s with lifecycle := lifecycle, dns := dns } := ⟨hok.custody, hok.ready⟩
  exact ⟨hnext, fun j hne => ⟨fun _ => hnext, hl j hne, hd j hne, fun _ => .inl rfl, fun _ => ⟨rfl, rfl⟩, fun _ => rfl⟩⟩

theorem acquires_other {holder holder' : Option ι} {r : Except String Unit} (h : acquires i holder r holder')
    (hne : j ≠ i) :
    holder = some j ↔ holder' = some j := by
  rcases h with ⟨-, rfl, rfl⟩ | ⟨-, rfl⟩
  · simpa using hne.symm
  · exact Iff.rfl

variable [DecidableEq ι]

theorem dropped_other {holder : Option ι} (hne : j ≠ i) : holder = some j ↔ dropped i holder = some j := by
  unfold dropped
  split
  · rename_i h
    rw [h]
    simpa using hne.symm
  · exact Iff.rfl

theorem dropped_self (i : ι) (holder : Option ι) : dropped i holder ≠ some i := by
  unfold dropped
  split
  · simp
  · assumption

theorem serviceStep_ok {op : ServiceOp} {r : op.Reply} (hok : MachineOk P s) (hpre : servicePre P i s op)
    (hs : serviceStep i s op r t) : MachineOk P t ∧ ∀ j, j ≠ i → Relies P j s t := by
  cases op with
  | lockLifecycle =>
    obtain ⟨holder, hl, rfl⟩ := hs
    exact machine_locks hok (fun j hne => acquires_other hl hne) fun _ _ => Iff.rfl
  | unlockDns =>
    cases hs
    exact machine_locks hok (fun _ _ => Iff.rfl) fun j hne => dropped_other hne
  | dns target op =>
    cases op with
    | lock =>
      obtain ⟨holder, hd, rfl⟩ := hs
      exact machine_locks hok (fun _ _ => Iff.rfl) fun j hne => acquires_other hd hne
    | _ =>
      obtain ⟨m, hm, rfl⟩ := hs
      exact machine_dns hok hpre hm
  | _ =>
    obtain ⟨j', hj, rfl⟩ := hs
    have hfile := fileStep_ok hpre hj
    exact machine_job hok hfile.1 hfile.2

omit [DecidableEq ι] in
theorem edited_ok {table : List HeldService} (h : CustodyOk P s.custody) (he : Edited s.custody.table table) :
    CustodyOk P { s.custody with table := table } := by
  refine ⟨?_, h.marker, h.readable, ?_⟩
  · show ((table.map HeldService.toService).map OsDns.Service.name).Nodup
    rw [List.map_map]
    exact he.1
  · intro service hservice server hp
    obtain ⟨old, hold, hpointed, hservers⟩ := he.2 service hservice (by rw [hp]; simp)
    rw [← hservers]
    exact h.pointed old hold server (hpointed.trans hp)

omit [DecidableEq ι] in
theorem outside_ok (hok : MachineOk P s) (ho : Outside s t) : MachineOk P t ∧ ∀ i, Relies P i s t := by
  cases ho with
  | edit hfree he =>
    have hnext : MachineOk P { s with custody := { s.custody with table := _ } } :=
      ⟨edited_ok hok.custody he, hok.ready⟩
    refine ⟨hnext, fun i => ⟨fun _ => hnext, Iff.rfl, Iff.rfl, fun _ => .inl rfl, fun _ => ⟨rfl, rfl⟩, fun hd => ?_⟩⟩
    rw [hfree] at hd
    cases hd
  | respawn =>
    have hnext : MachineOk P { s with job := s.job.start } := ⟨hok.custody, fun hb => (hok.ready hb).start⟩
    exact ⟨hnext, fun i => ⟨fun _ => hnext, Iff.rfl, Iff.rfl, fun _ => .inr rfl, fun _ => ⟨rfl, rfl⟩, fun _ => rfl⟩⟩
  | reboot hl hd =>
    refine ⟨⟨hok.custody, fun hb => ?_⟩, fun i => ⟨fun hok => ⟨hok.custody, fun hb => ?_⟩, Iff.rfl, Iff.rfl,
      fun h => ?_,
      fun _ => ⟨rfl, rfl⟩, fun _ => rfl⟩⟩
    · have h := hok.ready hb
      exact ⟨by simp [h.plist, h.enabled], h.enabled, h.plist, h.binary, h.config⟩
    · have h := hok.ready hb
      exact ⟨by simp [h.plist, h.enabled], h.enabled, h.plist, h.binary, h.config⟩
    · rw [hl] at h
      cases h

/-- The discipline of the commands and the watchdog. -/
def watched (S : ServicePlatform) (ι : Type) [DecidableEq ι] : Discipline (host S ι) where
  inv := MachineOk S.dns
  rely := Relies S.dns
  pre := servicePre S.dns
  idle := fun i s => s.lifecycle ≠ some i ∧ s.dns ≠ some i
  init := by
    rintro s ⟨hdisk, hnodup, hfree, hl, hd⟩
    refine ⟨⟨⟨hnodup, ?_, ?_, ?_⟩, ?_⟩, fun i => ⟨by rw [hl]; simp, by rw [hd]; simp⟩⟩
    · rw [hdisk]
      simp
    · rw [hdisk]
      simp
    · intro service hs server hp
      rw [hfree service hs] at hp
      cases hp
    · simp [Machine.hasBackup, hdisk]
  rely_refl := Relies.refl
  rely_trans := fun _ _ _ _ => Relies.trans
  rely_inv := fun _ _ _ hok h => h.ok hok
  rely_idle := fun _ _ _ hidle h => ⟨fun hl => hidle.1 (h.lifecycle.2 hl), fun hd => hidle.2 (h.dns.2 hd)⟩
  step := fun _ _ _ _ _ => serviceStep_ok
  leave := fun i s hok => by
    have hlocks := machine_locks (i := i) hok (fun _ hne => dropped_other hne) fun _ hne => dropped_other hne
    exact ⟨hlocks.1, ⟨dropped_self i _, dropped_self i _⟩, hlocks.2⟩
  outside := fun _ _ => outside_ok

end DNSRivet.Service
