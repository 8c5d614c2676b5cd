/-
The backup and the marker file through every step of `take_over`, `watchdog_tick` and `release`,
whatever the network tools answer, whichever step fails, and wherever the process dies. `DiskOk` is
what holds of the two files between any two steps, `Extends` how a backup may change while its file
lives, and `Covers` what must be on disk when a service is pointed at the proxy. The contract of the
programs states all three; each operation is shown to respect it once, and the runs follow.
-/
import DNSRivet.Base.System
import DNSRivet.OsDns.Takeover

namespace DNSRivet.OsDns

open DNSRivet.Base DNSRivet.Net Prog

/-! ## The disk -/

/-- The backup file's text, when the file exists, and whether the marker file exists. -/
structure Disk where
  backup : Option String
  marker : Bool
deriving DecidableEq, Repr

/-- What an operation can answer and do: a failed one changes nothing, the existence checks are
accurate, a listing has no duplicates, and the network tools may answer anything. -/
def diskStep (d : Disk) : (op : SysOp) → SysOp.Reply op → Disk → Prop
  | .backupExists, r, d' => r = d.backup.isSome ∧ d' = d
  | .markerExists, r, d' => r = d.marker ∧ d' = d
  | .createMarker, r, d' => r = .ok () ∧ d' = { d with marker := true } ∨ (∃ e, r = .error e) ∧ d' = d
  | .removeMarker, r, d' =>
    r = .ok () ∧ d' = { d with marker := false } ∨ (∃ e, r = .error e ∧ (e.notFound = true → d.marker = false)) ∧ d' = d
  | .readBackupFile, r, d' => d' = d ∧ ∀ text, r = .ok text → d.backup = some text
  | .installBackup text, r, d' => r = .ok () ∧ d' = { d with backup := some text } ∨ (∃ e, r = .error e) ∧ d' = d
  | .removeBackup, r, d' => r = .ok () ∧ d' = { d with backup := none } ∨ (∃ e, r = .error e) ∧ d' = d
  | .listServices, r, d' => d' = d ∧ ∀ names, r = .ok names → names.Nodup
  | .lock, _, d' => d' = d
  | .createSupportDir, _, d' => d' = d
  | .effectiveDnsServers, _, d' => d' = d
  | .listAllServices, _, d' => d' = d
  | .getDnsServers _, _, d' => d' = d
  | .setDnsServers _ _, _, d' => d' = d
  | .flushCaches, _, d' => d' = d

def Backup.names (backup : Backup) : List String := backup.services.map ServiceDns.name

variable (P : Platform)

/-- The backup the file on disk holds. -/
def Persisted (d : Disk) (backup : Backup) : Prop := ∃ text, d.backup = some text ∧ P.toml.fromStr text = .ok backup

/-- What holds of the two files between any two steps. -/
structure DiskOk (d : Disk) : Prop where
  marker : d.marker = true → d.backup.isSome
  unique : ∀ text, d.backup = some text → ∃ backup, P.toml.fromStr text = .ok backup ∧ backup.names.Nodup

/-- A later backup keeps every saved entry, in place, and only adds to the history. -/
structure Extends (backup backup' : Backup) : Prop where
  services : backup.services <+: backup'.services
  history : ∀ h, backup.takeoverServers = some h → ∃ h', backup'.takeoverServers = some h' ∧ h <+: h'

/-- The backup on disk has the service, and the address in its history if it records one. -/
def Covers (d : Disk) (server : IpAddr) (name : String) : Prop :=
  ∃ backup, Persisted P d backup ∧ name ∈ backup.names ∧ ∀ h, backup.takeoverServers = some h → server ∈ h

/-- What the operations respect: a service is pointed at the address of the operation only when the
backup on disk covers it; every step keeps `DiskOk` and extends the backup, as long as there is one. -/
def journal (target : Option IpAddr) : Contract Disk SysOp where
  pre := fun d op => ∀ name server, op = .setDnsServers name [server.display] → target = some server →
    Covers P d server name
  guar := fun d d' => DiskOk P d' ∧ ∀ backup backup', Persisted P d backup → Persisted P d' backup' →
    Extends backup backup'

variable {P} {target : Option IpAddr} {d : Disk}

theorem Extends.refl (backup : Backup) : Extends backup backup :=
  ⟨List.prefix_rfl, fun h hh => ⟨h, hh, List.prefix_rfl⟩⟩

theorem Extends.trans {a b c : Backup} (h : Extends a b) (h' : Extends b c) : Extends a c := by
  refine ⟨h.services.trans h'.services, fun hs hh => ?_⟩
  obtain ⟨hs', hh', hp⟩ := h.history hs hh
  obtain ⟨hs'', hh'', hp'⟩ := h'.history hs' hh'
  exact ⟨hs'', hh'', hp.trans hp'⟩

theorem Persisted.unique {a b : Backup} (ha : Persisted P d a) (hb : Persisted P d b) : a = b := by
  obtain ⟨text, ht, ha⟩ := ha
  obtain ⟨text', ht', hb⟩ := hb
  rw [ht] at ht'
  cases ht'
  rw [ha] at hb
  exact Except.ok.inj hb

theorem DiskOk.persisted (h : DiskOk P d) (hb : d.backup.isSome) :
    ∃ backup, Persisted P d backup ∧ backup.names.Nodup := by
  obtain ⟨text, ht⟩ := Option.isSome_iff_exists.1 hb
  obtain ⟨backup, hf, hn⟩ := h.unique text ht
  exact ⟨backup, ⟨text, ht, hf⟩, hn⟩

theorem DiskOk.nodup (h : DiskOk P d) {backup : Backup} (hb : Persisted P d backup) : backup.names.Nodup := by
  obtain ⟨text, ht, hf⟩ := hb
  obtain ⟨backup', hf', hn⟩ := h.unique text ht
  rw [hf] at hf'
  cases hf'
  exact hn

/-- A disk holds one backup. -/
theorem persisted_extends : ∀ a b, Persisted P d a → Persisted P d b → Extends a b := by
  intro a b ha hb
  rw [ha.unique hb]
  exact .refl b

/-- Nothing happened. -/
theorem journal_refl (h : DiskOk P d) : (journal P target).guar d d := ⟨h, persisted_extends⟩

/-! ## Single operations -/

/-- An action that leaves the disk alone. -/
abbrev Still {α : Type} (target : Option IpAddr) (x : Action α) (d : Disk) (Q : α → Prop) : Prop :=
  SatE (journal P target) diskStep x d (fun a d' => d' = d ∧ Q a) (fun _ d' => d' = d)

theorem sat_performE_still {α : Type} {op : SysOp} {g : SysOp.Reply op → Except String α} {Q : α → Prop}
    (h : DiskOk P d)
    (hpre : (journal P target).pre d op) (hop : ∀ r d', diskStep d op r d' → d' = d ∧ ∀ a, g r = .ok a → Q a) :
    Still (P := P) target (performE op g) d Q := by
  refine satE_performE hpre fun r d' hs => ?_
  obtain ⟨rfl, hq⟩ := hop r d' hs
  refine ⟨journal_refl h, ?_⟩
  cases hg : g r with
  | ok a => exact ⟨rfl, hq a hg⟩
  | error e => rfl

/-- Operations other than sets have no precondition. -/
theorem pre_of_ne {op : SysOp} (h : ∀ name servers, op ≠ .setDnsServers name servers) : (journal P target).pre d op :=
  fun _ _ hop _ => absurd hop (h _ _)

/-- Setting DNS lists on the way back needs no cover. -/
theorem pre_release {op : SysOp} : (journal P none).pre d op := fun _ _ _ ht => by cases ht

theorem sat_lock (h : DiskOk P d) : Still (P := P) target lock d fun _ => True :=
  sat_performE_still h (pre_of_ne (by simp)) fun _ _ hs => ⟨hs, fun _ _ => trivial⟩

theorem sat_backupExists (h : DiskOk P d) :
    Still (P := P) target backupExists d fun present => present = d.backup.isSome :=
  sat_performE_still h (pre_of_ne (by simp)) fun _ _ hs => ⟨hs.2, fun _ ha => by cases ha; exact hs.1⟩

theorem sat_markerExists (h : DiskOk P d) : Still (P := P) target markerExists d fun marker => marker = d.marker :=
  sat_performE_still h (pre_of_ne (by simp)) fun _ _ hs => ⟨hs.2, fun _ ha => by cases ha; exact hs.1⟩

theorem sat_effectiveDnsServers (h : DiskOk P d) : Still (P := P) target effectiveDnsServers d fun _ => True :=
  sat_performE_still h (pre_of_ne (by simp)) fun _ _ hs => ⟨hs, fun _ _ => trivial⟩

theorem sat_listServices (h : DiskOk P d) : Still (P := P) target listServices d List.Nodup :=
  sat_performE_still h (pre_of_ne (by simp)) fun _ _ hs => ⟨hs.1, fun names ha => hs.2 names ha⟩

theorem sat_listAllServices (h : DiskOk P d) : Still (P := P) target listAllServices d fun _ => True :=
  sat_performE_still h (pre_of_ne (by simp)) fun _ _ hs => ⟨hs, fun _ _ => trivial⟩

theorem sat_getDnsServers (h : DiskOk P d) (name : String) :
    Still (P := P) target (getDnsServers name) d fun _ => True :=
  sat_performE_still h (pre_of_ne (by simp)) fun _ _ hs => ⟨hs, fun _ _ => trivial⟩

theorem sat_flushCaches (h : DiskOk P d) : Still (P := P) target flushCaches d fun _ => True :=
  sat_performE_still h (pre_of_ne (by simp)) fun _ _ hs => ⟨hs, fun _ _ => trivial⟩

theorem sat_createSupportDir (h : DiskOk P d) : Still (P := P) target createSupportDir d fun _ => True :=
  sat_performE_still h (pre_of_ne (by simp)) fun _ _ hs => ⟨hs, fun _ _ => trivial⟩

theorem sat_setDnsServers (h : DiskOk P d) {name : String} {servers : List String}
    (hpre : (journal P target).pre d (.setDnsServers name servers)) :
    Still (P := P) target (setDnsServers name servers) d fun _ => True :=
  sat_performE_still h hpre fun _ _ hs => ⟨hs, fun _ _ => trivial⟩

theorem sat_readBackup (h : DiskOk P d) : Still (P := P) target (readBackup P) d (Persisted P d) := by
  refine sat_performE_still h (pre_of_ne (by simp)) ?_
  rintro r d' ⟨rfl, hr⟩
  refine ⟨rfl, fun backup hb => ?_⟩
  cases r with
  | error e => cases hb
  | ok text =>
    exact ⟨text, hr text rfl, mapError_eq_ok.1 hb⟩

/-- Looking at the outcome of an action that leaves the disk alone. -/
theorem sat_attempt {α : Type} {x : Action α} {Q : α → Prop} (hx : Still (P := P) target x d Q) :
    Still (P := P) target (attempt x) d fun _ => True :=
  satE_attempt (hx.mono (fun _ _ h => ⟨h.1, trivial⟩) fun _ _ h => ⟨h, trivial⟩)

/-- One action that leaves the disk alone, then the rest. -/
theorem sat_then {α β : Type} {x : Action α} {f : α → Action β} {Q : α → Prop} {R : β → Disk → Prop}
    {E : String → Disk → Prop} (hx : Still (P := P) target x d Q)
    (hf : ∀ a, Q a → SatE (journal P target) diskStep (f a) d R E) (he : ∀ e, E e d) :
    SatE (journal P target) diskStep (x >>= f) d R E :=
  SatE.seq hx (fun a _ h => by rw [h.1]; exact hf a h.2) fun e _ h => by rw [h]; exact he e

/-- Installing a backup with unique names that extends the one on disk, if there is one. -/
theorem sat_writeBackup (h : DiskOk P d) {backup : Backup} (hn : backup.names.Nodup)
    (hx : ∀ old, Persisted P d old → Extends old backup) :
    SatE (journal P target) diskStep (writeBackup P backup) d
      (fun _ d' => DiskOk P d' ∧ Persisted P d' backup ∧ d'.marker = d.marker) (fun _ _ => True) := by
  refine sat_then (sat_createSupportDir h) (fun _ _ => ?_) fun _ => trivial
  cases ht : P.toml.toString backup with
  | error e => exact satE_throw trivial
  | ok text =>
    have hf := P.toml.fromStr_toString backup text ht
    refine satE_performE (pre_of_ne (by simp)) ?_
    rintro r d' (⟨rfl, rfl⟩ | ⟨⟨e, rfl⟩, rfl⟩)
    · have hnew : Persisted P { d with backup := some text } backup := ⟨text, rfl, hf⟩
      have hok : DiskOk P { d with backup := some text } := by
        refine ⟨fun _ => rfl, fun text' ht' => ?_⟩
        cases ht'
        exact ⟨backup, hf, hn⟩
      refine ⟨⟨hok, fun a b ha hb => ?_⟩, hok, hnew, rfl⟩
      rw [hb.unique hnew]
      exact hx a ha
    · exact ⟨journal_refl h, trivial⟩

theorem sat_createMarker (h : DiskOk P d) (hb : d.backup.isSome) :
    SatE (journal P target) diskStep createMarker d (fun _ d' => DiskOk P d') (fun _ _ => True) := by
  refine satE_performE (pre_of_ne (by simp)) ?_
  rintro r d' (⟨rfl, rfl⟩ | ⟨⟨e, rfl⟩, rfl⟩)
  · have hok : DiskOk P { d with marker := true } := ⟨fun _ => hb, h.unique⟩
    exact ⟨⟨hok, persisted_extends⟩, hok⟩
  · exact ⟨journal_refl h, trivial⟩

theorem sat_removeMarker (h : DiskOk P d) :
    SatE (journal P target) diskStep removeMarker d (fun _ d' => DiskOk P d' ∧ d'.marker = false)
      (fun _ _ => True) := by
  refine satE_performE (pre_of_ne (by simp)) ?_
  rintro r d' (⟨rfl, rfl⟩ | ⟨⟨e, rfl, he⟩, rfl⟩)
  · have hok : DiskOk P { d with marker := false } := ⟨by simp, h.unique⟩
    exact ⟨⟨hok, persisted_extends⟩, hok, rfl⟩
  · refine ⟨journal_refl h, ?_⟩
    by_cases hnf : e.notFound = true
    · simp only [hnf, if_true]
      exact ⟨h, he hnf⟩
    · simp only [hnf, Bool.false_eq_true, if_false]

/-- The backup goes only after the marker is gone. -/
theorem sat_removeBackup {α : Type} (h : DiskOk P d) (hm : d.marker = false)
    (g : Except IoError Unit → Except String α) :
    SatE (journal P target) diskStep (performE .removeBackup g) d (fun _ d' => DiskOk P d') (fun _ _ => True) := by
  refine satE_performE (pre_of_ne (by simp)) ?_
  rintro r d' (⟨rfl, rfl⟩ | ⟨⟨e, rfl⟩, rfl⟩)
  · have hok : DiskOk P { d with backup := none } := ⟨by simp [hm], by simp⟩
    refine ⟨⟨hok, fun a b _ hb => ?_⟩, ?_⟩
    · obtain ⟨text, ht, -⟩ := hb; cases ht
    · split
      · exact hok
      · trivial
  · refine ⟨journal_refl h, ?_⟩
    split
    · exact h
    · trivial

/-! ## take_over -/

theorem sat_snapshotServices (h : DiskOk P d) (server : IpAddr) :
    ∀ (names : List String) (services : List ServiceDns) (fallback : List SocketAddr),
      Still (P := P) target (snapshotServices P server names services fallback) d fun res =>
        res.1.map ServiceDns.name = services.map ServiceDns.name ++ names
  | [], services, fallback => satE_pure ⟨rfl, by simp⟩
  | name :: names, services, fallback => by
    refine sat_then (sat_getDnsServers h name) (fun servers _ => ?_) fun _ => rfl
    split
    · exact satE_throw rfl
    · refine (sat_snapshotServices h server names _ _).mono (fun res d' hr => ⟨hr.1, ?_⟩) fun _ _ he => he
      show res.1.map ServiceDns.name = _
      rw [hr.2]; simp

theorem sat_rollbackLoop (h : DiskOk P d) {server : IpAddr} {backup : Backup} (hb : Persisted P d backup)
    (hs : ∀ hist, backup.takeoverServers = some hist → server ∈ hist) :
    ∀ (names : List String) (ok : Bool), Still (P := P) (some server) (rollbackLoop backup names ok) d fun _ => True
  | [], ok => satE_pure ⟨rfl, trivial⟩
  | name :: names, ok => by
    unfold rollbackLoop
    split
    · exact sat_rollbackLoop h hb hs names ok
    · rename_i service hfind
      have hpre : (journal P (some server)).pre d (.setDnsServers service.name service.servers) := by
        rintro name' server' hop ht
        cases ht
        obtain ⟨rfl, -⟩ := SysOp.setDnsServers.inj hop
        exact ⟨backup, hb, List.mem_map_of_mem (List.mem_of_find?_eq_some hfind), hs⟩
      refine sat_then (sat_attempt (sat_setDnsServers h hpre)) (fun r _ => ?_) fun _ => rfl
      split
      · exact sat_rollbackLoop h hb hs names ok
      · exact sat_rollbackLoop h hb hs names false

theorem sat_rollback (h : DiskOk P d) {server : IpAddr} {backup : Backup} (hb : Persisted P d backup)
    (hs : ∀ hist, backup.takeoverServers = some hist → server ∈ hist) (changed : List String) :
    Still (P := P) (some server) (rollback backup changed) d fun _ => True := by
  refine sat_then (sat_rollbackLoop h hb hs _ _) (fun ok _ => ?_) fun _ => rfl
  refine sat_then (sat_flushCaches h) (fun _ _ => ?_) fun _ => rfl
  exact satE_pure ⟨rfl, trivial⟩

/-- While the services are switched the backup that covers them stays on disk; only a complete rollback
removes it, before there is a marker. -/
theorem sat_switchServices (h : DiskOk P d) (hm : d.marker = false) {server : IpAddr} {backup : Backup}
    (hb : Persisted P d backup) (hs : ∀ hist, backup.takeoverServers = some hist → server ∈ hist) :
    ∀ (services : List ServiceDns) (changed : List String), (∀ service ∈ services, service.name ∈ backup.names) →
      SatE (journal P (some server)) diskStep (switchServices server backup services changed) d (fun _ d' => d' = d)
        (fun _ _ => True)
  | [], _, _ => satE_pure rfl
  | service :: services, changed, hmem => by
    have hpre : (journal P (some server)).pre d (.setDnsServers service.name [server.display]) := by
      rintro name' server' hop ht
      cases ht
      cases hop
      exact ⟨backup, hb, hmem service (List.mem_cons_self ..), hs⟩
    refine sat_then (sat_attempt (sat_setDnsServers h hpre)) (fun r _ => ?_) fun _ => trivial
    split
    · exact sat_switchServices h hm hb hs services _ fun x hx => hmem x (List.mem_cons_of_mem _ hx)
    · refine sat_then (sat_rollback h hb hs changed) (fun ok _ => ?_) fun _ => trivial
      split
      · exact (sat_removeBackup h hm _).seq (fun _ _ _ => satE_throw trivial) fun _ _ _ => trivial
      · exact satE_throw trivial

theorem sat_takeOver (h : DiskOk P d) (server : IpAddr) :
    SatE (journal P (some server)) diskStep (takeOver P server) d (fun _ _ => True) (fun _ _ => True) := by
  refine sat_then (sat_lock h) (fun _ _ => ?_) fun _ => trivial
  refine sat_then (sat_backupExists h) (fun present hpresent => ?_) fun _ => trivial
  split
  · exact satE_throw trivial
  · rename_i habsent
    have hnone : d.backup = none := by
      rw [hpresent] at habsent
      simpa using habsent
    -- no backup, so no marker
    have hm : d.marker = false := by
      by_contra hc
      have := h.marker (by simpa using hc)
      rw [hnone] at this; cases this
    refine sat_then (sat_attempt (sat_effectiveDnsServers h)) (fun effective _ => ?_) fun _ => trivial
    refine sat_then (sat_listServices h) (fun names hnames => ?_) fun _ => trivial
    refine sat_then (sat_snapshotServices h server names [] _) (fun res hres => ?_) fun _ => trivial
    obtain ⟨services, fallback⟩ := res
    simp only [List.map_nil, List.nil_append] at hres
    simp only
    split
    · exact satE_throw trivial
    · have hnew : (takeoverBackup server services fallback).names.Nodup := by
        show (services.map ServiceDns.name).Nodup
        rw [hres]; exact hnames
      refine (sat_writeBackup h hnew ?_).seq (fun _ d1 h1 => ?_) fun _ _ he => he
      · rintro old ⟨text, ht, -⟩
        rw [hnone] at ht; cases ht
      · obtain ⟨hok1, hp1, hm1⟩ := h1
        have hs : ∀ hist, (takeoverBackup server services fallback).takeoverServers = some hist → server ∈ hist := by
          rintro hist hh
          cases hh
          exact List.mem_singleton_self _
        have hswitch := sat_switchServices hok1 (by rw [hm1, hm]) hp1 hs
          (takeoverBackup server services fallback).services [] fun s hs => List.mem_map_of_mem hs
        refine hswitch.seq (fun _ d2 h2 => ?_) fun _ _ _ => trivial
        rw [h2]
        obtain ⟨text, ht, -⟩ := hp1
        refine (sat_createMarker hok1 (by rw [ht]; rfl)).seq (fun _ d3 h3 => ?_) fun _ _ _ => trivial
        exact (sat_flushCaches h3).mono (fun _ _ _ => trivial) fun _ _ _ => trivial

/-! ## release -/

theorem sat_restoreServices (h : DiskOk P d) (current : List String) :
    ∀ (services : List ServiceDns) (errors : List String),
      Still (P := P) none (restoreServices current services errors) d fun _ => True
  | [], errors => satE_pure ⟨rfl, trivial⟩
  | service :: services, errors => by
    unfold restoreServices
    split
    · refine sat_then (sat_attempt (sat_setDnsServers h pre_release)) (fun r _ => ?_) fun _ => rfl
      split
      · exact sat_restoreServices h current services errors
      · exact sat_restoreServices h current services _
    · exact sat_restoreServices h current services errors

theorem sat_verifyServices (h : DiskOk P d) (backup : Backup) :
    ∀ (names errors : List String), Still (P := P) target (verifyServices P backup names errors) d fun _ => True
  | [], errors => satE_pure ⟨rfl, trivial⟩
  | name :: names, errors => by
    refine sat_then (sat_attempt (sat_getDnsServers h name)) (fun r _ => ?_) fun _ => rfl
    split
    · split
      · exact sat_verifyServices h backup names _
      · exact sat_verifyServices h backup names errors
    · exact sat_verifyServices h backup names _

theorem sat_restoreAt (h : DiskOk P d) (hm : d.marker = false) :
    SatE (journal P none) diskStep (restoreAt P) d (fun _ d' => DiskOk P d') (fun _ _ => True) := by
  refine sat_then (sat_readBackup h) (fun backup _ => ?_) fun _ => trivial
  split
  · exact satE_throw trivial
  · refine sat_then (sat_listAllServices h) (fun current _ => ?_) fun _ => trivial
    refine sat_then (sat_restoreServices h current _ _) (fun errors _ => ?_) fun _ => trivial
    refine sat_then (sat_attempt (sat_listAllServices h)) (fun listed _ => ?_) fun _ => trivial
    refine sat_then (Q := fun _ => True) ?_ (fun errors _ => ?_) fun _ => trivial
    · cases listed with
      | ok names => exact sat_verifyServices h backup names errors
      | error err => exact satE_pure ⟨rfl, trivial⟩
    · split
      · exact sat_removeBackup h hm _
      · exact satE_throw trivial

theorem sat_anyLoopbackService (h : DiskOk P d) :
    ∀ names : List String, Still (P := P) target (anyLoopbackService names) d fun _ => True
  | [] => satE_pure ⟨rfl, trivial⟩
  | name :: names => by
    refine sat_then (sat_getDnsServers h name) (fun servers _ => ?_) fun _ => rfl
    split
    · exact satE_pure ⟨rfl, trivial⟩
    · exact sat_anyLoopbackService h names

theorem sat_systemPointsAtLoopback (h : DiskOk P d) : Still (P := P) target systemPointsAtLoopback d fun _ => True := by
  have hloop : Still (P := P) target currentLoopbackDns d fun _ => True :=
    sat_then (sat_effectiveDnsServers h) (fun _ _ => satE_pure ⟨rfl, trivial⟩) fun _ => rfl
  refine sat_then hloop (fun loopback _ => ?_) fun _ => rfl
  split
  · refine sat_then (sat_listAllServices h) (fun names _ => ?_) fun _ => rfl
    exact sat_anyLoopbackService h names
  · exact satE_pure ⟨rfl, trivial⟩

theorem sat_release (h : DiskOk P d) :
    SatE (journal P none) diskStep (release P) d (fun _ _ => True) (fun _ _ => True) := by
  refine sat_then (sat_lock h) (fun _ _ => ?_) fun _ => trivial
  refine sat_then (sat_backupExists h) (fun present _ => ?_) fun _ => trivial
  split
  · refine (sat_removeMarker h).seq (fun _ d1 h1 => ?_) fun _ _ _ => trivial
    refine sat_then (sat_backupExists h1.1) (fun present _ => ?_) fun _ => trivial
    split
    · refine (sat_restoreAt h1.1 h1.2).seq (fun _ d2 h2 => ?_) fun _ _ _ => trivial
      refine sat_then (sat_flushCaches h2) (fun _ _ => satE_pure trivial) fun _ => trivial
    · exact satE_pure trivial
  · refine sat_then (sat_markerExists h) (fun marker _ => ?_) fun _ => trivial
    split
    · refine sat_then (sat_systemPointsAtLoopback h) (fun stranded _ => ?_) fun _ => trivial
      split
      · exact satE_throw trivial
      · exact (sat_removeMarker h).seq (fun _ _ _ => satE_pure trivial) fun _ _ _ => trivial
    · exact satE_pure trivial

/-! ## watchdog_tick -/

theorem sat_newServiceLists (h : DiskOk P d) (known : List String) :
    ∀ (names : List String) (found : List (String × List String)),
      Still (P := P) target (newServiceLists known names found) d fun _ => True
  | [], found => satE_pure ⟨rfl, trivial⟩
  | name :: names, found => by
    unfold newServiceLists
    split
    · exact sat_newServiceLists h known names found
    · refine sat_then (sat_getDnsServers h name) (fun servers _ => ?_) fun _ => rfl
      exact sat_newServiceLists h known names _

/-- Adding services keeps the entries in place and the history, and leaves every snapshot's name in. -/
theorem addNewServiceSnapshots_extends {expected : String} :
    ∀ {snapshots : List (String × List String)} {backup backup' : Backup} {added added' : Bool},
      addNewServiceSnapshots P expected snapshots backup added = .ok (backup', added') →
      Extends backup backup' ∧ backup'.takeoverServers = backup.takeoverServers ∧
        (added' = false → added = false ∧ backup' = backup) ∧ ∀ entry ∈ snapshots, entry.1 ∈ backup'.names
  | [], backup, backup', added, added', h => by
    cases h
    exact ⟨.refl _, rfl, fun ha => ⟨ha, rfl⟩, by simp⟩
  | (name, servers) :: snapshots, backup, backup', added, added', h => by
    simp only [addNewServiceSnapshots] at h
    split at h
    · rename_i hknown
      obtain ⟨hx, ht, hsame, hmem⟩ := addNewServiceSnapshots_extends h
      obtain ⟨service, hs, hname⟩ := List.any_eq_true.1 hknown
      refine ⟨hx, ht, hsame, ?_⟩
      rintro entry (_ | ⟨_, hentry⟩)
      · exact List.mem_map.2 ⟨service, hx.services.subset hs, by simpa using hname⟩
      · exact hmem entry hentry
    · split at h
      · cases h
      · obtain ⟨hx, ht, hsame, hmem⟩ := addNewServiceSnapshots_extends h
        refine ⟨⟨(List.prefix_append _ _).trans hx.services, hx.history⟩, ht, fun ha => ?_, ?_⟩
        · exact absurd (hsame ha).1 (by simp)
        · rintro entry (_ | ⟨_, hentry⟩)
          · exact List.mem_map.2 ⟨⟨name, servers⟩, hx.services.subset (by simp), rfl⟩
          · exact hmem entry hentry

/-- Adding services keeps the names unique. -/
theorem addNewServiceSnapshots_nodup {expected : String} :
    ∀ {snapshots : List (String × List String)} {backup backup' : Backup} {added added' : Bool},
      addNewServiceSnapshots P expected snapshots backup added = .ok (backup', added') → backup.names.Nodup →
      backup'.names.Nodup
  | [], backup, backup', added, added', h, hn => by
    cases h
    exact hn
  | (name, servers) :: snapshots, backup, backup', added, added', h, hn => by
    simp only [addNewServiceSnapshots] at h
    split at h
    · exact addNewServiceSnapshots_nodup h hn
    · rename_i hnew
      split at h
      · cases h
      · apply addNewServiceSnapshots_nodup h
        show ((backup.services ++ [(⟨name, servers⟩ : ServiceDns)]).map ServiceDns.name).Nodup
        rw [List.map_append, List.nodup_append]
        refine ⟨hn, by simp, ?_⟩
        rintro a ha b hb rfl
        simp only [List.map_cons, List.map_nil, List.mem_singleton] at hb
        subst hb
        obtain ⟨service, hs, hname⟩ := List.mem_map.1 ha
        exact hnew (List.any_eq_true.2 ⟨service, hs, by simpa using hname⟩)

/-- The history a tick leaves has the address of the tick, unless it is unknown. -/
theorem recordTakeover_ok (server : IpAddr) (backup : Backup) :
    Extends backup (recordTakeover server backup).1 ∧ (recordTakeover server backup).1.services = backup.services ∧
      (∀ h, (recordTakeover server backup).1.takeoverServers = some h → server ∈ h) ∧
      ((recordTakeover server backup).2 = false → (recordTakeover server backup).1 = backup) := by
  unfold recordTakeover
  cases ht : backup.takeoverServers with
  | none =>
    refine ⟨.refl _, rfl, ?_, fun _ => rfl⟩
    intro h hh
    simp only [ht] at hh
    cases hh
  | some takeovers =>
    simp only
    split
    · rename_i hmem
      refine ⟨.refl _, rfl, fun h hh => ?_, fun _ => rfl⟩
      rw [ht] at hh
      cases hh
      simpa using hmem
    · refine ⟨⟨List.prefix_rfl, fun h hh => ?_⟩, rfl, fun h hh => ?_, fun hf => by cases hf⟩
      · rw [ht] at hh
        cases hh
        exact ⟨_, rfl, List.prefix_append _ _⟩
      · cases hh
        simp

theorem sat_prepareWatchdogBackup (h : DiskOk P d) {backup : Backup} (hb : Persisted P d backup)
    (snapshots : List (String × List String)) (server : IpAddr) :
    SatE (journal P target) diskStep (prepareWatchdogBackup P backup snapshots server) d
      (fun backup' d' => DiskOk P d' ∧ Persisted P d' backup' ∧ ∀ h, backup'.takeoverServers = some h → server ∈ h)
      (fun _ _ => True) := by
  unfold prepareWatchdogBackup
  split
  · exact satE_throw trivial
  · rename_i backup1 added hadd
    obtain ⟨hx1, -, hsame1, -⟩ := addNewServiceSnapshots_extends hadd
    have hn1 := addNewServiceSnapshots_nodup hadd (h.nodup hb)
    obtain ⟨hx2, hserv, hhist, hsame2⟩ := recordTakeover_ok server backup1
    have hn2 : (recordTakeover server backup1).1.names.Nodup := by
      show ((recordTakeover server backup1).1.services.map ServiceDns.name).Nodup
      rw [hserv]; exact hn1
    simp only
    split
    · refine (sat_writeBackup h hn2 ?_).seq (fun _ d1 h1 => satE_pure ⟨h1.1, h1.2.1, hhist⟩) fun _ _ he => he
      intro old hold
      rw [hold.unique hb]
      exact hx1.trans hx2
    · rename_i hunchanged
      simp only [Bool.or_eq_true, not_or, Bool.not_eq_true] at hunchanged
      -- nothing new: what is on disk is what the tick works with
      have heq : (recordTakeover server backup1).1 = backup := by
        rw [hsame2 hunchanged.2, (hsame1 hunchanged.1).2]
      exact satE_pure ⟨h, by rw [heq]; exact hb, hhist⟩

theorem sat_snapshotLoop (h : DiskOk P d) (allServices : List String) :
    ∀ (services : List ServiceDns) (snapshot : List (String × List String)),
      Still (P := P) target (snapshotLoop allServices services snapshot) d fun res =>
        ∀ entry ∈ res, entry ∈ snapshot ∨ entry.1 ∈ services.map ServiceDns.name
  | [], snapshot => satE_pure ⟨rfl, fun _ he => .inl he⟩
  | service :: services, snapshot => by
    unfold snapshotLoop
    split
    · refine sat_then (sat_getDnsServers h service.name) (fun servers _ => ?_) fun _ => rfl
      refine (sat_snapshotLoop h allServices services _).mono (fun res d' hr => ⟨hr.1, fun entry he => ?_⟩)
        fun _ _ he => he
      rcases hr.2 entry he with hmem | hmem
      · rcases List.mem_append.1 hmem with hmem | hmem
        · exact .inl hmem
        · rw [List.mem_singleton.1 hmem]
          exact .inr (List.mem_cons_self ..)
      · exact .inr (List.mem_cons_of_mem _ hmem)
    · refine (sat_snapshotLoop h allServices services _).mono (fun res d' hr => ⟨hr.1, fun entry he => ?_⟩)
        fun _ _ he => he
      exact (hr.2 entry he).imp id fun hmem => List.mem_cons_of_mem _ hmem

theorem sat_serviceDnsSnapshot (h : DiskOk P d) {backup : Backup} (hb : Persisted P d backup) :
    Still (P := P) target (serviceDnsSnapshot P) d fun res => ∀ entry ∈ res, entry.1 ∈ backup.names := by
  refine sat_then (sat_readBackup h) (fun backup' hb' => ?_) fun _ => rfl
  refine sat_then (sat_listAllServices h) (fun allServices _ => ?_) fun _ => rfl
  refine (sat_snapshotLoop h allServices backup'.services []).mono (fun res d' hr => ⟨hr.1, fun entry he => ?_⟩)
    fun _ _ he => he
  rw [hb.unique hb']
  exact (hr.2 entry he).resolve_left List.not_mem_nil

theorem sat_reassertServices (h : DiskOk P d) {server : IpAddr} {backup : Backup} (hb : Persisted P d backup)
    (hs : ∀ hist, backup.takeoverServers = some hist → server ∈ hist) :
    ∀ (names errors : List String), (∀ name ∈ names, name ∈ backup.names) →
      Still (P := P) (some server) (reassertServices server.display names errors) d fun _ => True
  | [], errors, _ => satE_pure ⟨rfl, trivial⟩
  | name :: names, errors, hmem => by
    have hpre : (journal P (some server)).pre d (.setDnsServers name [server.display]) := by
      rintro name' server' hop ht
      cases ht
      cases hop
      exact ⟨backup, hb, hmem name (List.mem_cons_self ..), hs⟩
    have hrest : ∀ x ∈ names, x ∈ backup.names := fun x hx => hmem x (List.mem_cons_of_mem _ hx)
    refine sat_then (sat_attempt (sat_setDnsServers h hpre)) (fun r _ => ?_) fun _ => rfl
    split
    · exact sat_reassertServices h hb hs names errors hrest
    · exact sat_reassertServices h hb hs names _ hrest

theorem sat_watchdogTick (h : DiskOk P d) (server : IpAddr) :
    SatE (journal P (some server)) diskStep (watchdogTick P server) d (fun _ _ => True) (fun _ _ => True) := by
  refine sat_then (sat_lock h) (fun _ _ => ?_) fun _ => trivial
  refine sat_then (sat_backupExists h) (fun hasBackup _ => ?_) fun _ => trivial
  have hmarker : Still (P := P) (some server) (if hasBackup then markerExists else pure false) d fun _ => True := by
    split
    · exact (sat_markerExists h).mono (fun _ _ hr => ⟨hr.1, trivial⟩) fun _ _ he => he
    · exact satE_pure ⟨rfl, trivial⟩
  refine sat_then hmarker (fun active _ => ?_) fun _ => trivial
  split
  · refine sat_then (sat_readBackup h) (fun backup hb => ?_) fun _ => trivial
    refine sat_then (sat_listServices h) (fun names _ => ?_) fun _ => trivial
    refine sat_then (sat_newServiceLists h _ names []) (fun newServices _ => ?_) fun _ => trivial
    refine (sat_prepareWatchdogBackup h hb newServices server).seq (fun backup1 d1 h1 => ?_) fun _ _ he => he
    obtain ⟨hok1, hb1, hs1⟩ := h1
    refine sat_then (sat_serviceDnsSnapshot hok1 hb1) (fun current hcurrent => ?_) fun _ => trivial
    refine sat_then (sat_attempt (sat_effectiveDnsServers hok1)) (fun effective _ => ?_) fun _ => trivial
    split
    · exact satE_pure trivial
    · have hdrifted : ∀ name ∈ servicesNeedingReassert current server.display, name ∈ backup1.names := by
        intro name hname
        obtain ⟨entry, hentry, rfl⟩ := List.mem_map.1 hname
        exact hcurrent entry (List.mem_of_mem_filter hentry)
      refine sat_then (sat_reassertServices hok1 hb1 hs1 _ [] hdrifted) (fun errors _ => ?_) fun _ => trivial
      refine sat_then (sat_flushCaches hok1) (fun _ _ => ?_) fun _ => trivial
      split
      · exact satE_pure trivial
      · exact satE_throw trivial
  · exact satE_pure trivial

end DNSRivet.OsDns
