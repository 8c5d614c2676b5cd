/-
Runs of the DNS operations. One operation runs at a time (they hold the DNS lock); between any two of
its steps the process may die, and any operation may be the next. What the contract of the operations
says of each step then holds of every reachable state and across every stretch in which the backup
file lives.
-/
import DNSRivet.OsDns.Journal

namespace DNSRivet.OsDns

open DNSRivet.Base DNSRivet.Net Prog

inductive Operation
  | takeOver (server : IpAddr)
  | watchdogTick (server : IpAddr)
  | release
deriving DecidableEq, Repr

/-- The address the operation points services at. -/
def Operation.target : Operation → Option IpAddr
  | .takeOver server => some server
  | .watchdogTick server => some server
  | .release => none

/-- The program of an operation, its result dropped. -/
def Operation.program (P : Platform) : Operation → Prog SysOp SysOp.Reply Unit
  | .takeOver server => (OsDns.takeOver P server).run >>= fun _ => .ret ()
  | .watchdogTick server => (OsDns.watchdogTick P server).run >>= fun _ => .ret ()
  | .release => (OsDns.release P).run >>= fun _ => .ret ()

/-- The disk, and the operation that runs with the rest of its program. -/
structure Process where
  disk : Disk
  running : Option (Operation × Prog SysOp SysOp.Reply Unit)

inductive ProcessEvent
  | start (operation : Operation)
  | step
  | finish
  | crash
deriving DecidableEq, Repr

/-- The DNS operations, one at a time, on a disk that starts with neither file. -/
def operations (P : Platform) : System Process ProcessEvent where
  init := fun c => c = ⟨⟨none, false⟩, none⟩
  step := fun c e c' =>
    match e with
    | .start operation => c.running = none ∧ c' = ⟨c.disk, some (operation, operation.program P)⟩
    | .step => ∃ operation op k r d', c.running = some (operation, .call op k) ∧ diskStep c.disk op r d' ∧
        c' = ⟨d', some (operation, k r)⟩
    | .finish => ∃ operation, c.running = some (operation, .ret ()) ∧ c' = ⟨c.disk, none⟩
    | .crash => c' = ⟨c.disk, none⟩

variable {P : Platform}

theorem sat_program {d : Disk} (h : DiskOk P d) (operation : Operation) :
    (operation.program P).Sat (journal P operation.target) diskStep d fun _ _ => True := by
  cases operation with
  | takeOver server => exact Sat.bind (Sat.mono (sat_takeOver h server) fun _ _ _ => trivial)
  | watchdogTick server => exact Sat.bind (Sat.mono (sat_watchdogTick h server) fun _ _ _ => trivial)
  | release => exact Sat.bind (Sat.mono (sat_release h) fun _ _ _ => trivial)

/-- The disk is in order and what is left of the running operation respects its contract. -/
structure ProcessOk (P : Platform) (c : Process) : Prop where
  disk : DiskOk P c.disk
  running : ∀ operation p, c.running = some (operation, p) →
    p.Sat (journal P operation.target) diskStep c.disk fun _ _ => True

/-- One step keeps the disk in order and extends the backup as long as there is one. -/
theorem operations_step {c c' : Process} {e : ProcessEvent} (h : ProcessOk P c) (hs : (operations P).step c e c') :
    ProcessOk P c' ∧ ∀ backup backup', Persisted P c.disk backup → Persisted P c'.disk backup' →
      Extends backup backup' := by
  have hstill : ∀ a b, Persisted P c.disk a → Persisted P c.disk b → Extends a b := persisted_extends
  cases e with
  | start operation =>
    obtain ⟨-, rfl⟩ := hs
    refine ⟨⟨h.disk, fun o p hp => ?_⟩, hstill⟩
    cases hp
    exact sat_program h.disk operation
  | step =>
    obtain ⟨operation, op, k, r, d', hrun, hstep, rfl⟩ := hs
    obtain ⟨⟨hok, hx⟩, hrest⟩ := (h.running _ _ hrun).2 r d' hstep
    refine ⟨⟨hok, fun o p hp => ?_⟩, hx⟩
    cases hp
    exact hrest
  | finish =>
    obtain ⟨operation, -, rfl⟩ := hs
    exact ⟨⟨h.disk, fun o p hp => by cases hp⟩, hstill⟩
  | crash =>
    cases hs
    exact ⟨⟨h.disk, fun o p hp => by cases hp⟩, hstill⟩

theorem processOk {es : List ProcessEvent} {c : Process} (h : Run (operations P) es c) : ProcessOk P c := by
  refine h.invariant_state (I := ProcessOk P) ?_ fun c e c' hc hs => (operations_step hc hs).1
  rintro c rfl
  exact ⟨⟨by simp, by simp⟩, by simp⟩

/-- As long as the backup file lives, a later backup extends an earlier one. -/
theorem extends_while_alive {c c' : Process} (h : ProcessOk P c)
    (hs : Steps (operations P) (fun c => c.disk.backup.isSome) c c') {backup backup' : Backup}
    (hb : Persisted P c.disk backup) (hb' : Persisted P c'.disk backup') : Extends backup backup' := by
  induction hs generalizing backup' with
  | refl => exact persisted_extends _ _ hb hb'
  | snoc hpath hstep hlive ih =>
    rename_i c1 c2 e
    have hok1 := hpath.invariant (fun c e c' hc hs => (operations_step hc hs).1) h
    -- the file lives before the step too
    have hlive1 : c1.disk.backup.isSome := by
      cases hpath with
      | refl => obtain ⟨text, ht, -⟩ := hb; rw [ht]; rfl
      | snoc _ _ hk => exact hk
    obtain ⟨mid, hmid, -⟩ := hok1.disk.persisted hlive1
    exact (ih hmid).trans ((operations_step hok1 hstep).2 _ _ hmid hb')

/-- Restore data always precedes takeover. In every reachable state the marker exists only beside the
backup; when `take_over` or `watchdog_tick` is about to point a service at its address, the backup on
disk has the service and, if it records a history, the address; the backup's entries have unique
names; and while its file lives entries are only appended and the history only grows. -/
theorem restore_data_first {es : List ProcessEvent} {c : Process} (h : Run (operations P) es c) :
    (c.disk.marker = true → c.disk.backup.isSome) ∧
    (∀ operation server name k, operation.target = some server →
      c.running = some (operation, .call (.setDnsServers name [server.display]) k) → Covers P c.disk server name) ∧
    (∀ text, c.disk.backup = some text → ∃ backup, P.toml.fromStr text = .ok backup ∧ backup.names.Nodup) ∧
    (∀ c', Steps (operations P) (fun c => c.disk.backup.isSome) c c' → ∀ backup backup', Persisted P c.disk backup →
      Persisted P c'.disk backup' → Extends backup backup') := by
  have hok := processOk h
  refine ⟨hok.disk.marker, ?_, hok.disk.unique, ?_⟩
  · intro operation server name k ht hrun
    exact (hok.running _ _ hrun).1 name server rfl ht
  · intro c' hs backup backup' hb hb'
    exact extends_while_alive hok hs hb hb'

/-! ## A takeover -/

/-- A system with one service, which uses the resolver of its network, where every operation succeeds. -/
def calm (d : Disk) : (op : SysOp) → SysOp.Reply op × Disk
  | .lock => (.ok (), d)
  | .backupExists => (d.backup.isSome, d)
  | .markerExists => (d.marker, d)
  | .createMarker => (.ok (), { d with marker := true })
  | .removeMarker => (.ok (), { d with marker := false })
  | .createSupportDir => (.ok (), d)
  | .readBackupFile => (match d.backup with | some text => .ok text | none => .error "No such file", d)
  | .installBackup text => (.ok (), { d with backup := some text })
  | .removeBackup => (.ok (), { d with backup := none })
  | .effectiveDnsServers => (.ok [], d)
  | .listServices => (.ok ["Wi-Fi"], d)
  | .listAllServices => (.ok ["Wi-Fi"], d)
  | .getDnsServers _ => (.ok [], d)
  | .setDnsServers _ _ => (.ok (), d)
  | .flushCaches => ((), d)

theorem diskStep_calm (d : Disk) (op : SysOp) : diskStep d op (calm d op).1 (calm d op).2 := by
  cases op with
  | createMarker => exact .inl ⟨rfl, rfl⟩
  | removeMarker => exact .inl ⟨rfl, rfl⟩
  | installBackup text => exact .inl ⟨rfl, rfl⟩
  | removeBackup => exact .inl ⟨rfl, rfl⟩
  | backupExists => exact ⟨rfl, rfl⟩
  | markerExists => exact ⟨rfl, rfl⟩
  | readBackupFile =>
    refine ⟨rfl, fun text ht => ?_⟩
    simp only [calm] at ht
    split at ht
    · rename_i h; cases ht; exact h
    · cases ht
  | listServices =>
    refine ⟨rfl, fun names hn => ?_⟩
    cases hn
    simp
  | _ => rfl

/-- The first `n` steps of a running operation under that system. -/
def advance : Nat → Process → Process
  | 0, c => c
  | n + 1, c =>
    match c.running with
    | some (operation, .call op k) => advance n ⟨(calm c.disk op).2, some (operation, k (calm c.disk op).1)⟩
    | _ => c

theorem run_advance : ∀ (n : Nat) {c : Process} {es : List ProcessEvent},
    Run (operations P) es c → ∃ es', Run (operations P) es' (advance n c)
  | 0, _, _, h => ⟨_, h⟩
  | n + 1, c, es, h => by
    unfold advance
    split
    · rename_i operation op k hrun
      have hs : (operations P).step c .step ⟨(calm c.disk op).2, some (operation, k (calm c.disk op).1)⟩ :=
        ⟨operation, op, k, _, _, hrun, diskStep_calm c.disk op, rfl⟩
      exact run_advance n (h.snoc hs)
    · exact ⟨es, h⟩

/-- An encoder that knows the backup of that takeover. -/
def wifiToml : Toml :=
  .ofTable [(takeoverBackup (.v4 ⟨127, 0, 0, 1⟩) [⟨"Wi-Fi", []⟩] [],
    "version = 2\nfallback_servers = []\ntakeover_servers = [\"127.0.0.1\"]\n\n[[services]]\nname = \"Wi-Fi\"\nservers = []\n")]
    (by simp)

def wifiPlatform : Platform := ⟨wifiToml, fun _ => .error "ENXIO"⟩

/-- The takeover, about to switch the service. -/
def wifiProcess : Process :=
  advance 7 ⟨⟨none, false⟩, some (.takeOver (.v4 ⟨127, 0, 0, 1⟩),
    (Operation.takeOver (.v4 ⟨127, 0, 0, 1⟩)).program wifiPlatform)⟩

theorem restore_data_first_wifi : Covers wifiPlatform wifiProcess.disk (.v4 ⟨127, 0, 0, 1⟩) "Wi-Fi" := by
  have h0 : Run (operations wifiPlatform) [] ⟨⟨none, false⟩, none⟩ := .start rfl
  have hs : (operations wifiPlatform).step ⟨⟨none, false⟩, none⟩ (.start (.takeOver (.v4 ⟨127, 0, 0, 1⟩)))
      ⟨⟨none, false⟩, some (.takeOver (.v4 ⟨127, 0, 0, 1⟩),
        (Operation.takeOver (.v4 ⟨127, 0, 0, 1⟩)).program wifiPlatform)⟩ := ⟨rfl, rfl⟩
  obtain ⟨es, h⟩ := run_advance 7 (h0.snoc hs)
  exact (restore_data_first h).2.1 (.takeOver (.v4 ⟨127, 0, 0, 1⟩)) (.v4 ⟨127, 0, 0, 1⟩) "Wi-Fi" _ rfl rfl

end DNSRivet.OsDns
