/-
What DNSRivet must not lose sight of. `Custody` is the two files and the table of network services, each with the
takeover address that DNSRivet last set its list to, as long as nothing else was set since. While a service is
pointed at an address, the backup must be there and record it: that is `CustodyOk`. `keeping` is what an operation
must check for this, and `take_over`, `release` and `watchdog_tick` are shown to respect it, whichever of their steps
fail; `release` succeeds only when no service is pointed at DNSRivet.
-/
import DNSRivet.Net.Literal
import DNSRivet.OsDns.Undo

namespace DNSRivet.OsDns

open DNSRivet.Base DNSRivet.Net Prog

/-! ## The text of an address -/

theorem trim_of_notWhitespace {s : List Char} (h : ∀ c ∈ s, isWhitespace c = false) : trim s = s := by
  have hkeep : ∀ t : List Char, (∀ c ∈ t, isWhitespace c = false) → t.dropWhile isWhitespace = t := by
    intro t ht
    cases t with
    | nil => rfl
    | cons c t => rw [List.dropWhile_cons_of_neg (by simp [ht c (List.mem_cons_self ..)])]
  unfold trim
  rw [hkeep s h, hkeep s.reverse (by simpa using h), List.reverse_reverse]

theorem notWhitespace_of_literalChar {c : Char} (h : LiteralChar c) : isWhitespace c = false := by
  rcases h with hdigit | rfl | rfl
  · obtain ⟨d, hd⟩ := Option.isSome_iff_exists.1 hdigit
    obtain ⟨hd, -⟩ := Option.filter_eq_some_iff.1 hd
    have : (48 ≤ c.toNat ∧ c.toNat ≤ 57) ∨ (97 ≤ c.toNat ∧ c.toNat ≤ 102) ∨ (65 ≤ c.toNat ∧ c.toNat ≤ 70) := by
      split_ifs at hd <;> simp_all
    simp only [isWhitespace, Bool.or_eq_false_iff, Bool.and_eq_false_iff, decide_eq_false_iff_not, beq_eq_false_iff_ne]
    omega
  · decide
  · decide

/-- A written address has only characters of literals. -/
theorem literalChar_display {ip : IpAddr} : ∀ c ∈ ip.display.toList, LiteralChar c := by
  have hparse := parseIpAddr_display ip
  obtain ⟨⟨ip', rest⟩, hread, hrest⟩ := Option.bind_eq_some_iff.1 hparse
  have hempty : rest = [] := by
    by_contra hne
    simp [hne] at hrest
  subst hempty
  have htakes : Takes ip.display.toList [] := by
    unfold readIpAddr at hread
    split at hread
    · rename_i ip4 rest h4
      obtain ⟨-, rfl⟩ := Prod.mk.inj (Option.some.inj hread)
      exact takes_ipv4Addr h4
    · obtain ⟨⟨ip6, rest6⟩, h6, he⟩ := Option.map_eq_some_iff.1 hread
      obtain ⟨-, rfl⟩ := Prod.mk.inj he
      exact takes_ipv6Addr h6
  obtain ⟨taken, htaken, hchars⟩ := htakes
  rw [htaken, List.append_nil]
  exact hchars

/-- A list entry that DNSRivet wrote reads as the address it stands for. -/
theorem parseDnsSocket_display (interfaces : InterfaceTable) (ip : IpAddr) :
    parseDnsSocket interfaces ip.display = .ok (SocketAddr.new ip 53) := by
  have htrim : trim ip.display.toList = ip.display.toList :=
    trim_of_notWhitespace fun c hc => notWhitespace_of_literalChar (literalChar_display c hc)
  unfold parseDnsSocket
  simp only [htrim, String.ofList_toList, parseIpAddr_display]

@[simp] theorem ip_new (ip : IpAddr) (port : Nat) : (SocketAddr.new ip port).ip = ip := by
  cases ip <;> rfl

/-! ## Custody -/

/-- A network service, and the takeover address it was last pointed at if its list was not set since. -/
structure HeldService extends Service where
  pointed : Option IpAddr
deriving DecidableEq, Repr

structure Custody where
  disk : Disk
  table : List HeldService
deriving DecidableEq, Repr

/-- The list is set by an operation with the takeover address `target`. -/
def HeldService.set (target : Option IpAddr) (servers : List String) (service : HeldService) : HeldService :=
  { service with servers := servers, pointed := target.filter fun server => servers = [server.display] }

def setHeld (target : Option IpAddr) (table : List HeldService) (name : String) (servers : List String) :
    List HeldService :=
  table.map fun service => if service.name = name then service.set target servers else service

def Custody.services (m : Custody) : List Service := m.table.map HeldService.toService

/-- What an operation can answer and do: a read returns what was last set, and a failed operation changes nothing. -/
def custodyStep (target : Option IpAddr) (m : Custody) : (op : SysOp) → SysOp.Reply op → Custody → Prop
  | .listServices, r, m' =>
    m' = m ∧ ∀ names, r = .ok names → names = (m.services.filter Service.enabled).map Service.name
  | .listAllServices, r, m' => m' = m ∧ ∀ names, r = .ok names → names = m.services.map Service.name
  | .getDnsServers name, r, m' => m' = m ∧ ∀ servers, r = .ok servers → findServers m.services name = .ok servers
  | .setDnsServers name servers, r, m' =>
    (r = .ok () ∧ m' = { m with table := setHeld target m.table name servers }) ∨ ((∃ e, r = .error e) ∧ m' = m)
  | op, r, m' => ∃ d, diskStep m.disk op r d ∧ m' = { m with disk := d }

variable (P : Platform)

/-- The backup on disk records the address. -/
def Knows (d : Disk) (server : IpAddr) : Prop :=
  ∃ backup history, Persisted P d backup ∧ backup.takeoverServers = some history ∧ server ∈ history

/-- What holds of the files and the services between any two steps. -/
structure CustodyOk (m : Custody) : Prop where
  nodup : (m.services.map Service.name).Nodup
  marker : m.disk.marker = true → m.disk.backup.isSome
  readable : ∀ text, m.disk.backup = some text →
    ∃ backup history, P.toml.fromStr text = .ok backup ∧ backup.takeoverServers = some history
  pointed : ∀ service ∈ m.table, ∀ server, service.pointed = some server →
    service.servers = [server.display] ∧ Knows P m.disk server

/-- What a DNS operation is for. -/
inductive Role
  | takingOver
  | releasing
  | watching
deriving DecidableEq, Repr

/-- What an operation with the takeover address `target` must check before it calls. Only taking over installs a backup
where there is none; the watchdog leaves the marker as it is, and a backup where there is one. -/
def keeping (target : Option IpAddr) (role : Role) : Contract Custody SysOp where
  pre := fun m op =>
    match op with
    | .setDnsServers _ servers => ∀ server, target = some server → servers = [server.display] → Knows P m.disk server
    | .installBackup text =>
      (m.disk.backup = none → role = .takingOver) ∧
        ∃ backup history, P.toml.fromStr text = .ok backup ∧ backup.takeoverServers = some history ∧
          ∀ service ∈ m.table, ∀ server, service.pointed = some server → server ∈ history
    | .removeBackup => role ≠ .watching ∧ m.disk.marker = false ∧ ∀ service ∈ m.table, service.pointed = none
    | .createMarker => role ≠ .watching ∧ m.disk.backup.isSome
    | .removeMarker => role ≠ .watching
    | _ => True
  guar := fun _ _ => True

variable {P} {target : Option IpAddr} {role : Role} {m m' : Custody}

/-- No service is pointed at DNSRivet where there is no backup. -/
theorem CustodyOk.free (h : CustodyOk P m) (hnone : m.disk.backup = none) :
    ∀ service ∈ m.table, service.pointed = none := by
  intro service hs
  cases hp : service.pointed with
  | none => rfl
  | some server =>
    obtain ⟨-, backup, history, ⟨text, ht, -⟩, -⟩ := h.pointed service hs server hp
    rw [hnone] at ht
    cases ht

theorem mem_setHeld {table : List HeldService} {name : String} {servers : List String} {service : HeldService}
    (h : service ∈ setHeld target table name servers) :
    (service.name ≠ name ∧ service ∈ table) ∨
      (service.name = name ∧ service.servers = servers ∧
        service.pointed = target.filter fun server => servers = [server.display]) := by
  obtain ⟨old, hold, rfl⟩ := List.mem_map.1 h
  by_cases hname : old.name = name
  · rw [if_pos hname]
    exact .inr ⟨hname, rfl, rfl⟩
  · rw [if_neg hname]
    exact .inl ⟨hname, hold⟩

theorem setHeld_names (table : List HeldService) (name : String) (servers : List String) :
    ((setHeld target table name servers).map HeldService.toService).map Service.name =
      (table.map HeldService.toService).map Service.name := by
  simp only [setHeld, List.map_map]
  apply List.map_congr_left
  intro service _
  simp only [Function.comp_apply]
  split <;> rfl

/-- Operations that may change the files or a service's list. -/
def Changing : SysOp → Prop
  | .setDnsServers _ _ | .installBackup _ | .removeBackup | .createMarker | .removeMarker => True
  | _ => False

instance : DecidablePred Changing := fun op => by cases op <;> unfold Changing <;> infer_instance

theorem custodyStep_of_not_changing {op : SysOp} {r : SysOp.Reply op} (hop : ¬ Changing op)
    (hs : custodyStep target m op r m') : m' = m := by
  cases op with
  | setDnsServers name servers => exact absurd trivial hop
  | installBackup text => exact absurd trivial hop
  | removeBackup => exact absurd trivial hop
  | createMarker => exact absurd trivial hop
  | removeMarker => exact absurd trivial hop
  | listServices => exact hs.1
  | listAllServices => exact hs.1
  | getDnsServers name => exact hs.1
  | backupExists => obtain ⟨d, ⟨-, rfl⟩, rfl⟩ := hs; rfl
  | markerExists => obtain ⟨d, ⟨-, rfl⟩, rfl⟩ := hs; rfl
  | readBackupFile => obtain ⟨d, ⟨rfl, -⟩, rfl⟩ := hs; rfl
  | lock => obtain ⟨d, rfl, rfl⟩ := hs; rfl
  | createSupportDir => obtain ⟨d, rfl, rfl⟩ := hs; rfl
  | effectiveDnsServers => obtain ⟨d, rfl, rfl⟩ := hs; rfl
  | flushCaches => obtain ⟨d, rfl, rfl⟩ := hs; rfl

/-- Each operation keeps custody, if its check was made. -/
theorem custodyStep_ok {op : SysOp} {r : SysOp.Reply op} (h : CustodyOk P m) (hpre : (keeping P target role).pre m op)
    (hs : custodyStep target m op r m') : CustodyOk P m' := by
  by_cases hop : Changing op
  swap
  · rw [custodyStep_of_not_changing hop hs]
    exact h
  cases op with
  | setDnsServers name servers =>
    rcases hs with ⟨-, rfl⟩ | ⟨-, rfl⟩
    · refine ⟨?_, h.marker, h.readable, ?_⟩
      · show (((setHeld target m.table name servers).map HeldService.toService).map Service.name).Nodup
        rw [setHeld_names]
        exact h.nodup
      · intro service hservice server hp
        rcases mem_setHeld hservice with ⟨-, hold⟩ | ⟨-, hservers, hpointed⟩
        · exact h.pointed service hold server hp
        · rw [hpointed, Option.filter_eq_some_iff] at hp
          have hlist : servers = [server.display] := by simpa using hp.2
          exact ⟨hservers.trans hlist, hpre server hp.1 hlist⟩
    · exact h
  | installBackup text =>
    obtain ⟨d, ⟨-, rfl⟩ | ⟨-, rfl⟩, rfl⟩ := hs
    · obtain ⟨-, backup, history, hf, hh, hcover⟩ := hpre
      refine ⟨h.nodup, fun _ => rfl, ?_, ?_⟩
      · rintro text' ⟨⟩
        exact ⟨backup, history, hf, hh⟩
      · intro service hservice server hp
        exact ⟨(h.pointed service hservice server hp).1, backup, history, ⟨text, rfl, hf⟩, hh,
          hcover service hservice server hp⟩
    · exact h
  | removeBackup =>
    obtain ⟨d, ⟨-, rfl⟩ | ⟨-, rfl⟩, rfl⟩ := hs
    · obtain ⟨-, hmarker, hfree⟩ := hpre
      refine ⟨h.nodup, ?_, by simp, ?_⟩
      · intro hm
        exact absurd (hmarker.symm.trans hm) (by decide)
      · intro service hservice server hp
        rw [hfree service hservice] at hp
        cases hp
    · exact h
  | createMarker =>
    obtain ⟨d, ⟨-, rfl⟩ | ⟨-, rfl⟩, rfl⟩ := hs
    · exact ⟨h.nodup, fun _ => hpre.2, h.readable, h.pointed⟩
    · exact h
  | removeMarker =>
    obtain ⟨d, ⟨-, rfl⟩ | ⟨-, rfl⟩, rfl⟩ := hs
    · exact ⟨h.nodup, by simp, h.readable, h.pointed⟩
    · exact h
  | _ => exact hop.elim

/-- The watchdog leaves the marker as it is, and whether there is a backup. -/
theorem custodyStep_watching {op : SysOp} {r : SysOp.Reply op} (hpre : (keeping P target .watching).pre m op)
    (hs : custodyStep target m op r m') :
    m'.disk.backup.isSome = m.disk.backup.isSome ∧ m'.disk.marker = m.disk.marker := by
  by_cases hop : Changing op
  swap
  · rw [custodyStep_of_not_changing hop hs]
    exact ⟨rfl, rfl⟩
  cases op with
  | setDnsServers name servers =>
    rcases hs with ⟨-, rfl⟩ | ⟨-, rfl⟩
    · exact ⟨rfl, rfl⟩
    · exact ⟨rfl, rfl⟩
  | installBackup text =>
    obtain ⟨d, ⟨-, rfl⟩ | ⟨-, rfl⟩, rfl⟩ := hs
    · refine ⟨?_, rfl⟩
      -- there was one before
      cases hb : m.disk.backup with
      | none => exact absurd (hpre.1 hb) (by decide)
      | some text' => rfl
    · exact ⟨rfl, rfl⟩
  | removeBackup => exact absurd rfl hpre.1
  | createMarker => exact absurd rfl hpre.1
  | removeMarker => exact absurd rfl hpre
  | _ => exact hop.elim

/-- Only taking over makes a backup. -/
theorem custodyStep_releasing {op : SysOp} {r : SysOp.Reply op} (hpre : (keeping P target role).pre m op)
    (hrole : role ≠ .takingOver) (hnone : m.disk.backup = none) (hs : custodyStep target m op r m') :
    m'.disk.backup = none := by
  by_cases hop : Changing op
  swap
  · rw [custodyStep_of_not_changing hop hs]
    exact hnone
  cases op with
  | setDnsServers name servers => rcases hs with ⟨-, rfl⟩ | ⟨-, rfl⟩ <;> exact hnone
  | installBackup text => exact absurd (hpre.1 hnone) hrole
  | removeBackup => obtain ⟨d, ⟨-, rfl⟩ | ⟨-, rfl⟩, rfl⟩ := hs <;> first | rfl | exact hnone
  | createMarker => obtain ⟨d, ⟨-, rfl⟩ | ⟨-, rfl⟩, rfl⟩ := hs <;> exact hnone
  | removeMarker => obtain ⟨d, ⟨-, rfl⟩ | ⟨-, rfl⟩, rfl⟩ := hs <;> exact hnone
  | _ => exact hop.elim

/-! ## Single operations -/

/-- The action makes its checks and ends in `Q` with a value or in `E` with an error. -/
abbrev Keeps (P : Platform) (target : Option IpAddr) (role : Role) {α : Type} (x : Action α) (m : Custody)
    (Q : α → Custody → Prop) (E : String → Custody → Prop) : Prop :=
  SatE (keeping P target role) (custodyStep target) x m Q E

/-- The action only looks. -/
abbrev Sees (P : Platform) (target : Option IpAddr) (role : Role) {α : Type} (x : Action α) (m : Custody)
    (Q : α → Prop) : Prop :=
  Keeps P target role x m (fun a m' => m' = m ∧ Q a) (fun _ m' => m' = m)

section Operations

variable {α β : Type}

theorem keeps_performE {op : SysOp} {g : SysOp.Reply op → Except String α} {Q : α → Custody → Prop}
    {E : String → Custody → Prop} (h : CustodyOk P m) (hpre : (keeping P target role).pre m op)
    (hq : ∀ r m', custodyStep target m op r m' → CustodyOk P m' →
      match g r with | .ok a => Q a m' | .error e => E e m') :
    Keeps P target role (performE op g) m Q E := by
  refine satE_performE hpre fun r m' hs => ⟨trivial, ?_⟩
  have := hq r m' hs (custodyStep_ok h hpre hs)
  cases hg : g r with
  | ok a => rwa [hg] at this
  | error e => rwa [hg] at this

theorem sees_performE {op : SysOp} {g : SysOp.Reply op → Except String α} {Q : α → Prop}
    (hpre : (keeping P target role).pre m op)
    (hop : ∀ r m', custodyStep target m op r m' → m' = m ∧ ∀ a, g r = .ok a → Q a) :
    Sees P target role (performE op g) m Q := by
  refine satE_performE hpre fun r m' hs => ⟨trivial, ?_⟩
  obtain ⟨rfl, hq⟩ := hop r m' hs
  cases hg : g r with
  | ok a => exact ⟨rfl, hq a hg⟩
  | error e => rfl

/-- One action that only looks, then the rest. -/
theorem sees_then {x : Action α} {f : α → Action β} {Q : α → Prop} {R : β → Custody → Prop}
    {E : String → Custody → Prop} (hx : Sees P target role x m Q)
    (hf : ∀ a, Q a → Keeps P target role (f a) m R E) (he : ∀ e, E e m) :
    Keeps P target role (x >>= f) m R E :=
  SatE.seq hx (fun a _ h => by rw [h.1]; exact hf a h.2) fun e _ h => by rw [h]; exact he e

theorem sees_attempt {x : Action α} {Q : α → Prop} (hx : Sees P target role x m Q) :
    Sees P target role (attempt x) m fun r => ∀ a, r = .ok a → Q a :=
  satE_attempt (hx.mono (fun a _ h => ⟨h.1, fun b hb => by cases hb; exact h.2⟩) fun _ _ h =>
    ⟨h, fun _ ha => by cases ha⟩)

theorem sees_lock : Sees P target role lock m fun _ => True := by
  refine sees_performE ?_ ?_
  · trivial
  · rintro r m' ⟨d, rfl, rfl⟩
    exact ⟨rfl, fun _ _ => trivial⟩

theorem sees_backupExists : Sees P target role backupExists m fun present => present = m.disk.backup.isSome := by
  refine sees_performE ?_ ?_
  · trivial
  · rintro r m' ⟨d, ⟨rfl, rfl⟩, rfl⟩
    exact ⟨rfl, fun a ha => by cases ha; rfl⟩

theorem sees_markerExists : Sees P target role markerExists m fun marker => marker = m.disk.marker := by
  refine sees_performE ?_ ?_
  · trivial
  · rintro r m' ⟨d, ⟨rfl, rfl⟩, rfl⟩
    exact ⟨rfl, fun a ha => by cases ha; rfl⟩

theorem sees_effectiveDnsServers : Sees P target role effectiveDnsServers m fun _ => True := by
  refine sees_performE ?_ ?_
  · trivial
  · rintro r m' ⟨d, rfl, rfl⟩
    exact ⟨rfl, fun _ _ => trivial⟩

theorem sees_listServices : Sees P target role listServices m fun _ => True := by
  refine sees_performE ?_ ?_
  · trivial
  · rintro r m' ⟨rfl, -⟩
    exact ⟨rfl, fun _ _ => trivial⟩

theorem sees_listAllServices :
    Sees P target role listAllServices m fun names => names = m.services.map Service.name := by
  refine sees_performE ?_ ?_
  · trivial
  · rintro r m' ⟨rfl, hr⟩
    exact ⟨rfl, fun names hn => hr names hn⟩

theorem sees_getDnsServers (name : String) :
    Sees P target role (getDnsServers name) m fun servers => findServers m.services name = .ok servers := by
  refine sees_performE ?_ ?_
  · trivial
  · rintro r m' ⟨rfl, hr⟩
    exact ⟨rfl, fun servers hs => hr servers hs⟩

/-- Flushing reports no failure. -/
theorem keeps_flushCaches : Keeps P target role flushCaches m (fun _ m' => m' = m) (fun _ _ => False) := by
  refine satE_performE ?_ ?_
  · trivial
  · rintro r m' ⟨d, rfl, rfl⟩
    exact ⟨trivial, rfl⟩

theorem sees_createSupportDir : Sees P target role createSupportDir m fun _ => True := by
  refine sees_performE ?_ ?_
  · trivial
  · rintro r m' ⟨d, rfl, rfl⟩
    exact ⟨rfl, fun _ _ => trivial⟩

theorem sees_readBackup : Sees P target role (readBackup P) m (Persisted P m.disk) := by
  refine sees_performE ?_ ?_
  · trivial
  · rintro r m' ⟨d, ⟨rfl, hr⟩, rfl⟩
    refine ⟨rfl, fun backup hb => ?_⟩
    cases r with
    | error e => cases hb
    | ok text => exact ⟨text, hr text rfl, mapError_eq_ok.1 hb⟩

/-- A set changes the list of the service, or nothing. -/
theorem keeps_setDnsServers (h : CustodyOk P m) {name : String} {servers : List String}
    (hpre : ∀ server, target = some server → servers = [server.display] → Knows P m.disk server) :
    Keeps P target role (attempt (setDnsServers name servers)) m
      (fun r m' => CustodyOk P m' ∧ (r = .ok () ∧ m' = { m with table := setHeld target m.table name servers } ∨
        (∃ e, r = .error e) ∧ m' = m))
      (fun _ _ => False) := by
  refine satE_attempt (keeps_performE h hpre ?_)
  rintro r m' (⟨rfl, rfl⟩ | ⟨⟨e, rfl⟩, rfl⟩) hok
  · exact ⟨hok, .inl ⟨rfl, rfl⟩⟩
  · exact ⟨hok, .inr ⟨⟨e, rfl⟩, rfl⟩⟩

/-- The backup that is written must record every address a service is pointed at. -/
theorem keeps_writeBackup (h : CustodyOk P m) {backup : Backup} {history : List IpAddr}
    (hcreate : m.disk.backup = none → role = .takingOver) (hh : backup.takeoverServers = some history)
    (hcover : ∀ service ∈ m.table, ∀ server, service.pointed = some server → server ∈ history) :
    Keeps P target role (writeBackup P backup) m
      (fun _ m' => CustodyOk P m' ∧ Persisted P m'.disk backup ∧ m'.disk.marker = m.disk.marker ∧ m'.table = m.table)
      (fun _ m' => m' = m) := by
  refine sees_then sees_createSupportDir (fun _ _ => ?_) fun _ => rfl
  cases ht : P.toml.toString backup with
  | error e => exact satE_throw rfl
  | ok text =>
    have hf := P.toml.fromStr_toString backup text ht
    refine keeps_performE h ⟨hcreate, backup, history, hf, hh, hcover⟩ ?_
    rintro r m' ⟨d, ⟨rfl, rfl⟩ | ⟨⟨e, rfl⟩, rfl⟩, rfl⟩ hok
    · exact ⟨hok, ⟨text, rfl, hf⟩, rfl, rfl⟩
    · rfl

theorem keeps_createMarker (h : CustodyOk P m) (hrole : role ≠ .watching) (hb : m.disk.backup.isSome) :
    Keeps P target role createMarker m
      (fun _ m' => CustodyOk P m' ∧ m'.disk = { m.disk with marker := true }) (fun _ m' => m' = m) := by
  refine keeps_performE h ⟨hrole, hb⟩ ?_
  rintro r m' ⟨d, ⟨rfl, rfl⟩ | ⟨⟨e, rfl⟩, rfl⟩, rfl⟩ hok
  · exact ⟨hok, rfl⟩
  · rfl

theorem keeps_removeMarker (h : CustodyOk P m) (hrole : role ≠ .watching) :
    Keeps P target role removeMarker m
      (fun _ m' => CustodyOk P m' ∧ m'.disk = { m.disk with marker := false }) (fun _ m' => m' = m) := by
  refine keeps_performE h hrole ?_
  rintro r m' ⟨d, ⟨rfl, rfl⟩ | ⟨⟨e, rfl, he⟩, rfl⟩, rfl⟩ hok
  · exact ⟨hok, rfl⟩
  · by_cases hnf : e.notFound = true
    · simp only [hnf, if_true]
      refine ⟨hok, ?_⟩
      rw [← he hnf]
    · simp only [hnf, Bool.false_eq_true, if_false]

/-- The backup goes, or nothing happens. -/
theorem keeps_removeBackup (h : CustodyOk P m) (hrole : role ≠ .watching) (hm : m.disk.marker = false)
    (hfree : ∀ service ∈ m.table, service.pointed = none) (g : Except IoError Unit → Except String α) :
    Keeps P target role (performE .removeBackup g) m
      (fun a m' => CustodyOk P m' ∧ m'.disk.marker = false ∧ (m'.disk.backup = none ∨ ∃ e, g (.error e) = .ok a))
      (fun _ m' => CustodyOk P m') := by
  refine keeps_performE h ⟨hrole, hm, hfree⟩ ?_
  rintro r m' ⟨d, ⟨rfl, rfl⟩ | ⟨⟨e, rfl⟩, rfl⟩, rfl⟩ hok
  · cases g (.ok ()) with
    | ok a => exact ⟨hok, hm, .inl rfl⟩
    | error e => exact hok
  · cases hg : g (.error e) with
    | ok a => exact ⟨hok, hm, .inr ⟨e, hg⟩⟩
    | error e' => exact hok

end Operations

/-! ## take_over -/

section TakeOver

variable {server : IpAddr} {backup : Backup}

/-- No service is pointed at DNSRivet. -/
def Custody.Free (m : Custody) : Prop := ∀ service ∈ m.table, service.pointed = none

/-- The snapshot takes no list with the takeover address in it. -/
theorem sees_snapshotServices :
    ∀ (names : List String) (services : List ServiceDns) (fallback : List SocketAddr),
      (∀ saved ∈ services, server.display ∉ saved.servers) →
      Sees P target role (snapshotServices P server names services fallback) m fun res =>
        ∀ saved ∈ res.1, server.display ∉ saved.servers
  | [], services, fallback, hs => satE_pure ⟨rfl, hs⟩
  | name :: names, services, fallback, hs => by
    refine sees_then (sees_getDnsServers name) (fun servers _ => ?_) fun _ => rfl
    split
    · exact satE_throw rfl
    · rename_i hclean
      apply sees_snapshotServices
      exact List.forall_mem_append.2 ⟨hs, List.forall_mem_singleton.2 (by simpa using hclean)⟩

/-- Setting a list without the address of the operation points no service. -/
theorem setHeld_free {servers : List String} {name : String} {names : List String} {table : List HeldService}
    (hclean : server.display ∉ servers) (h : ∀ s ∈ table, s.pointed ≠ none → s.name ∈ name :: names) :
    ∀ s ∈ setHeld (some server) table name servers, s.pointed ≠ none → s.name ∈ names := by
  intro s hs hp
  rcases mem_setHeld hs with ⟨hname, hold⟩ | ⟨-, -, hpointed⟩
  · exact (List.mem_cons.1 (h s hold hp)).resolve_left hname
  · have : servers ≠ [server.display] := by
      rintro rfl
      exact hclean (List.mem_singleton_self _)
    exact absurd (by rw [hpointed]; simp [Option.filter, this]) hp

/-- A rollback in which every set succeeded leaves no service pointed. -/
theorem keeps_rollbackLoop (hclean : ∀ saved ∈ backup.services, server.display ∉ saved.servers) :
    ∀ (names : List String) (ok : Bool) {m : Custody}, CustodyOk P m → Knows P m.disk server →
      (∀ name ∈ names, name ∈ backup.names) → (ok = true → ∀ s ∈ m.table, s.pointed ≠ none → s.name ∈ names) →
      Keeps P (some server) role (rollbackLoop backup names ok) m
        (fun res m' => CustodyOk P m' ∧ m'.disk = m.disk ∧ (res = true → m'.Free))
        (fun _ _ => False)
  | [], ok, m, h, _, _, hpointed => by
    refine satE_pure ⟨h, rfl, fun hok s hs => ?_⟩
    by_contra hp
    exact List.not_mem_nil (hpointed hok s hs hp)
  | name :: names, ok, m, h, hknows, hnames, hpointed => by
    have hrest : ∀ x ∈ names, x ∈ backup.names := fun x hx => hnames x (List.mem_cons_of_mem _ hx)
    unfold rollbackLoop
    split
    · -- every changed service is in the backup
      rename_i hnone
      obtain ⟨saved, hs, hname⟩ := List.mem_map.1 (hnames name (List.mem_cons_self ..))
      exact absurd hname (by simpa using List.find?_eq_none.1 hnone saved hs)
    · rename_i saved hfind
      have hname : saved.name = name := by simpa using List.find?_some hfind
      have hsaved := hclean saved (List.mem_of_find?_eq_some hfind)
      have hpre : ∀ server', some server = some server' → saved.servers =
        [server'.display] → Knows P m.disk server' := by
        rintro server' ⟨⟩ -
        exact hknows
      refine (keeps_setDnsServers h hpre).seq ?_ fun _ _ he => he.elim
      rintro r m1 ⟨hok1, ⟨rfl, rfl⟩ | ⟨⟨e, rfl⟩, rfl⟩⟩
      · apply keeps_rollbackLoop hclean names ok hok1 hknows hrest
        intro hok
        apply setHeld_free hsaved
        rw [hname]
        exact hpointed hok
      · exact keeps_rollbackLoop hclean names false hok1 hknows hrest (by simp)

theorem keeps_rollback (hclean : ∀ saved ∈ backup.services, server.display ∉ saved.servers) (h : CustodyOk P m)
    (hknows : Knows P m.disk server) {changed : List String} (hchanged : ∀ name ∈ changed, name ∈ backup.names)
    (hpointed : ∀ s ∈ m.table, s.pointed ≠ none → s.name ∈ changed) :
    Keeps P (some server) role (rollback backup changed) m
      (fun res m' => CustodyOk P m' ∧ m'.disk = m.disk ∧ (res = true → m'.Free)) (fun _ _ => False) := by
  have hnames : ∀ name ∈ changed.reverse, name ∈ backup.names := fun name hn => hchanged name (by simpa using hn)
  refine SatE.seq (keeps_rollbackLoop hclean changed.reverse true h hknows hnames
    fun _ s hs hp => by simpa using hpointed s hs hp) (fun ok m1 h1 => ?_) fun _ _ he => he
  refine keeps_flushCaches.seq (fun _ m2 h2 => ?_) fun _ _ he => he
  rw [h2]
  exact satE_pure h1

/-- The services are switched while the backup records the address; the backup goes only after a rollback that left
no service pointed. -/
theorem keeps_switchServices (hclean : ∀ saved ∈ backup.services, server.display ∉ saved.servers) :
    ∀ (services : List ServiceDns) (changed : List String) {m : Custody}, CustodyOk P m → m.disk.marker = false →
      Knows P m.disk server → (∀ saved ∈ services, saved ∈ backup.services) → (∀ name ∈ changed, name ∈ backup.names) →
      (∀ s ∈ m.table, s.pointed ≠ none → s.name ∈ changed) →
      Keeps P (some server) .takingOver (switchServices server backup services changed) m
        (fun _ m' => CustodyOk P m' ∧ m'.disk = m.disk) (fun _ m' => CustodyOk P m')
  | [], _, m, h, _, _, _, _, _ => satE_pure ⟨h, rfl⟩
  | saved :: services, changed, m, h, hm, hknows, hservices, hchanged, hpointed => by
    have hsaved : saved.name ∈ backup.names := List.mem_map_of_mem (hservices saved (List.mem_cons_self ..))
    have hrest : ∀ s ∈ services, s ∈ backup.services := fun s hs => hservices s (List.mem_cons_of_mem _ hs)
    have hpre : ∀ server', some server = some server' → [server.display] = [server'.display] →
        Knows P m.disk server' := by
      rintro server' ⟨⟩ -
      exact hknows
    unfold switchServices
    refine (keeps_setDnsServers h hpre).seq ?_ fun _ _ he => he.elim
    rintro r m1 ⟨hok1, ⟨rfl, rfl⟩ | ⟨⟨err, rfl⟩, rfl⟩⟩
    · refine keeps_switchServices hclean services (changed ++ [saved.name]) hok1 hm hknows hrest
        (List.forall_mem_append.2 ⟨hchanged, List.forall_mem_singleton.2 hsaved⟩) fun s hs hp => ?_
      rcases mem_setHeld hs with ⟨-, hold⟩ | ⟨hname, -⟩
      · exact List.mem_append_left _ (hpointed s hold hp)
      · exact List.mem_append_right _ (List.mem_singleton.2 hname)
    · refine (keeps_rollback hclean hok1 hknows hchanged hpointed).seq (fun ok m2 h2 => ?_) fun _ _ he => he.elim
      obtain ⟨hok2, hdisk, hfree⟩ := h2
      split
      · rename_i hcomplete
        refine (keeps_removeBackup hok2 (by decide) (by rw [hdisk]; exact hm) (hfree hcomplete) _).seq
          (fun _ m3 h3 => ?_)
          fun _ _ he => he
        exact satE_throw h3.1
      · exact satE_throw hok2

/-- A take-over that succeeds leaves the backup and the marker. -/
theorem keeps_takeOver (h : CustodyOk P m) (server : IpAddr) :
    Keeps P (some server) .takingOver (takeOver P server) m
      (fun _ m' => CustodyOk P m' ∧ m'.disk.backup.isSome ∧ m'.disk.marker = true) (fun _ m' => CustodyOk P m') := by
  refine sees_then sees_lock (fun _ _ => ?_) fun _ => h
  refine sees_then sees_backupExists (fun present hpresent => ?_) fun _ => h
  subst hpresent
  split
  · exact satE_throw h
  · rename_i habsent
    have hnone : m.disk.backup = none := by simpa using habsent
    have hfree : m.Free := h.free hnone
    have hm : m.disk.marker = false := by
      by_contra hmarker
      exact habsent (h.marker (by simpa using hmarker))
    refine sees_then (sees_attempt sees_effectiveDnsServers) (fun effective _ => ?_) fun _ => h
    refine sees_then sees_listServices (fun names _ => ?_) fun _ => h
    refine sees_then (sees_snapshotServices names [] _ (by simp)) (fun res hclean => ?_) fun _ => h
    obtain ⟨services, fallback⟩ := res
    simp only at hclean ⊢
    split
    · exact satE_throw h
    · have hcover : ∀ s ∈ m.table, ∀ server', s.pointed = some server' → server' ∈ [server] := fun s hs server' hp => by
        rw [hfree s hs] at hp
        cases hp
      refine SatE.seq (keeps_writeBackup h (fun _ => rfl) rfl hcover) (fun _ m1 h1 => ?_) fun _ _ he => he ▸ h
      obtain ⟨hok1, hp1, hm1, ht1⟩ := h1
      have hknows : Knows P m1.disk server := ⟨_, _, hp1, rfl, List.mem_singleton_self _⟩
      have hsaved : ∀ saved ∈ (takeoverBackup server services fallback).services, server.display ∉ saved.servers :=
        hclean
      have hswitch := keeps_switchServices hsaved services [] hok1 (hm1.trans hm) hknows (fun _ hs => hs)
        (by simp) fun s hs hp => by
          rw [ht1] at hs
          exact absurd (hfree s hs) hp
      refine hswitch.seq (fun _ m2 h2 => ?_) fun _ _ he => he
      obtain ⟨hok2, hdisk2⟩ := h2
      have hsome : m2.disk.backup.isSome := by
        obtain ⟨text, ht, -⟩ := hp1
        rw [hdisk2, ht]
        rfl
      refine (keeps_createMarker hok2 (by decide) hsome).seq (fun _ m3 h3 => ?_) fun _ _ he => he ▸ hok2
      obtain ⟨hok3, hdisk3⟩ := h3
      refine keeps_flushCaches.mono (fun _ m4 h4 => ?_) fun _ _ he => he.elim
      rw [h4, hdisk3]
      exact ⟨hok3, hsome, rfl⟩

end TakeOver

/-! ## release -/

section Release

variable {backup : Backup}

theorem keeps_restoreServices (current : List String) :
    ∀ (services : List ServiceDns) (errors : List String) {m : Custody}, CustodyOk P m →
      Keeps P none role (restoreServices current services errors) m
        (fun res m' => CustodyOk P m' ∧ m'.disk = m.disk ∧ (res = [] → errors = [])) (fun _ _ => False)
  | [], errors, m, h => satE_pure ⟨h, rfl, id⟩
  | service :: services, errors, m, h => by
    unfold restoreServices
    split
    · refine (keeps_setDnsServers h (by simp)).seq ?_ fun _ _ he => he.elim
      rintro r m1 ⟨hok1, ⟨rfl, rfl⟩ | ⟨⟨e, rfl⟩, rfl⟩⟩
      · exact keeps_restoreServices current services errors hok1
      · refine (keeps_restoreServices current services _ hok1).mono (fun res m2 h2 => ⟨h2.1, h2.2.1, fun hres => ?_⟩)
          fun _ _ he => he
        exact absurd (h2.2.2 hres) (by simp)
    · exact keeps_restoreServices current services errors h

/-- The verification is silent only about services whose lists do not depend on the takeover. -/
theorem sees_verifyServices (backup : Backup) :
    ∀ names errors : List String,
      Sees P target role (verifyServices P backup names errors) m fun res =>
        res = [] → errors = [] ∧ ∀ name ∈ names, ∃ servers, findServers m.services name = .ok servers ∧
          dnsMayDependOnTakeover P backup name servers = false
  | [], errors => satE_pure ⟨rfl, fun h => ⟨h, by simp⟩⟩
  | name :: names, errors => by
    have hmore : ∀ err, Sees P target role (verifyServices P backup names (errors ++ [err])) m fun res =>
        res = [] → errors = [] ∧ ∀ name' ∈ name :: names, ∃ servers, findServers m.services name' = .ok servers ∧
          dnsMayDependOnTakeover P backup name' servers = false := fun err => by
      refine (sees_verifyServices backup names (errors ++ [err])).mono (fun res _ h => ⟨h.1, fun hres => ?_⟩)
        fun _ _ he => he
      exact absurd (h.2 hres).1 (by simp)
    refine sees_then (sees_attempt (sees_getDnsServers name)) (fun r hr => ?_) fun _ => rfl
    split
    · rename_i servers
      split
      · exact hmore _
      · rename_i hdep
        refine (sees_verifyServices backup names errors).mono (fun res _ h => ⟨h.1, fun hres => ?_⟩) fun _ _ he => he
        obtain ⟨hnil, hall⟩ := h.2 hres
        refine ⟨hnil, ?_⟩
        rintro name' (_ | ⟨_, hname'⟩)
        · exact ⟨servers, hr servers rfl, by simpa using hdep⟩
        · exact hall name' hname'
    · exact hmore _

/-- When every list reads as independent of the takeover, no service is pointed. -/
theorem free_of_verified (h : CustodyOk P m) (hb : Persisted P m.disk backup)
    (hall : ∀ name ∈ m.services.map Service.name, ∃ servers, findServers m.services name = .ok servers ∧
      dnsMayDependOnTakeover P backup name servers = false) : m.Free := by
  intro service hs
  cases hp : service.pointed with
  | none => rfl
  | some server =>
    obtain ⟨hlist, backup', history, hb', hh, hin⟩ := h.pointed service hs server hp
    have hmem : service.toService ∈ m.services := List.mem_map_of_mem hs
    obtain ⟨servers, hfind, hdep⟩ := hall service.name (List.mem_map_of_mem hmem)
    rw [findServers_of_mem h.nodup hmem, hlist] at hfind
    cases hfind
    have hyes : dnsMayDependOnTakeover P backup service.name [server.display] = true := by
      rw [hb.unique hb', dnsMayDepend_iff hh (fun _ => Iff.rfl)]
      exact ⟨_, List.mem_singleton_self _, _, parseDnsSocket_display _ _, by simpa using hin⟩
    rw [hdep] at hyes
    cases hyes

theorem keeps_restoreAt (h : CustodyOk P m) (hm : m.disk.marker = false) :
    Keeps P none .releasing (restoreAt P) m
      (fun _ m' => CustodyOk P m' ∧ m'.disk.marker = false ∧ m'.disk.backup = none) (fun _ m' => CustodyOk P m') := by
  refine sees_then sees_readBackup (fun backup hb => ?_) fun _ => h
  split
  · exact satE_throw h
  · refine sees_then sees_listAllServices (fun current _ => ?_) fun _ => h
    refine (keeps_restoreServices current backup.services [] h).seq (fun errors m1 h1 => ?_) fun _ _ he => he.elim
    obtain ⟨hok1, hdisk1, -⟩ := h1
    refine sees_then (sees_attempt sees_listAllServices) (fun listed hlisted => ?_) fun _ => hok1
    refine sees_then (Q := fun res => res = [] → m1.Free) ?_ (fun errors hfree => ?_) fun _ => hok1
    · cases listed with
      | ok names =>
        refine (sees_verifyServices backup names errors).mono (fun res _ hres => ⟨hres.1, fun hnil => ?_⟩)
          fun _ _ he => he
        refine free_of_verified hok1 (by rw [hdisk1]; exact hb) ?_
        rw [← hlisted names rfl]
        exact (hres.2 hnil).2
      | error err => exact satE_pure ⟨rfl, by simp⟩
    split
    · rename_i hnil
      refine (keeps_removeBackup hok1 (by decide) (by rw [hdisk1]; exact hm) (hfree (by simpa using hnil)) _).mono
        (fun _ m2 h2 => ⟨h2.1, h2.2.1, ?_⟩) fun _ _ he => he
      rcases h2.2.2 with hnone | ⟨e, he⟩
      · exact hnone
      · cases he
    · exact satE_throw hok1

theorem sees_anyLoopbackService :
    ∀ names : List String, Sees P target role (anyLoopbackService names) m fun _ => True
  | [] => satE_pure ⟨rfl, trivial⟩
  | name :: names => by
    refine sees_then (sees_getDnsServers name) (fun servers _ => ?_) fun _ => rfl
    split
    · exact satE_pure ⟨rfl, trivial⟩
    · exact sees_anyLoopbackService names

theorem sees_systemPointsAtLoopback : Sees P target role systemPointsAtLoopback m fun _ => True := by
  have hloop : Sees P target role currentLoopbackDns m fun _ => True :=
    sees_then sees_effectiveDnsServers (fun _ _ => satE_pure ⟨rfl, trivial⟩) fun _ => rfl
  refine sees_then hloop (fun loopback _ => ?_) fun _ => rfl
  split
  · exact sees_then sees_listAllServices (fun names _ => sees_anyLoopbackService names) fun _ => rfl
  · exact satE_pure ⟨rfl, trivial⟩

/-- A release that succeeds leaves neither file, so no service is pointed at DNSRivet. -/
theorem keeps_release (h : CustodyOk P m) :
    Keeps P none .releasing (release P) m
      (fun _ m' => CustodyOk P m' ∧ m'.disk.marker = false ∧ m'.disk.backup = none) (fun _ m' => CustodyOk P m') := by
  refine sees_then sees_lock (fun _ _ => ?_) fun _ => h
  refine sees_then sees_backupExists (fun present hpresent => ?_) fun _ => h
  split
  · refine (keeps_removeMarker h (by decide)).seq (fun _ m1 h1 => ?_) fun _ _ he => he ▸ h
    obtain ⟨hok1, hdisk1⟩ := h1
    have hm1 : m1.disk.marker = false := by rw [hdisk1]
    refine sees_then sees_backupExists (fun present1 hpresent1 => ?_) fun _ => hok1
    split
    · refine (keeps_restoreAt hok1 hm1).seq (fun _ m2 h2 => ?_) fun _ _ he => he
      refine keeps_flushCaches.seq (fun _ m3 h3 => ?_) fun _ _ he => he.elim
      rw [h3]
      exact satE_pure h2
    · rename_i habsent
      exact satE_pure ⟨hok1, hm1, by simpa [hpresent1] using habsent⟩
  · rename_i habsent
    have hnone : m.disk.backup = none := by simpa [hpresent] using habsent
    refine sees_then sees_markerExists (fun marker hmarker => ?_) fun _ => h
    split
    · refine sees_then sees_systemPointsAtLoopback (fun stranded _ => ?_) fun _ => h
      split
      · exact satE_throw h
      · refine (keeps_removeMarker h (by decide)).seq (fun _ m1 h1 => ?_) fun _ _ he => he ▸ h
        exact satE_pure ⟨h1.1, by rw [h1.2], by rw [h1.2]; exact hnone⟩
    · rename_i hno
      exact satE_pure ⟨h, by simpa [hmarker] using hno, hnone⟩

end Release

/-! ## watchdog_tick -/

section Tick

variable {server : IpAddr} {backup : Backup}

theorem sees_newServiceLists (known : List String) :
    ∀ (names : List String) (found : List (String × List String)),
      Sees P target role (newServiceLists known names found) m fun _ => True
  | [], found => satE_pure ⟨rfl, trivial⟩
  | name :: names, found => by
    unfold newServiceLists
    split
    · exact sees_newServiceLists known names found
    · exact sees_then (sees_getDnsServers name) (fun servers _ => sees_newServiceLists known names _) fun _ => rfl

theorem sees_snapshotLoop (allServices : List String) :
    ∀ (services : List ServiceDns) (snapshot : List (String × List String)),
      Sees P target role (snapshotLoop allServices services snapshot) m fun _ => True
  | [], snapshot => satE_pure ⟨rfl, trivial⟩
  | service :: services, snapshot => by
    unfold snapshotLoop
    split
    · exact sees_then (sees_getDnsServers service.name) (fun servers _ => sees_snapshotLoop allServices services _)
        fun _ => rfl
    · exact sees_snapshotLoop allServices services snapshot

theorem sees_serviceDnsSnapshot : Sees P target role (serviceDnsSnapshot P) m fun _ => True :=
  sees_then sees_readBackup (fun backup _ =>
    sees_then sees_listAllServices (fun allServices _ => sees_snapshotLoop allServices backup.services []) fun _ => rfl)
    fun _ => rfl

/-- What the tick works with is on disk, and records its address. -/
theorem keeps_prepareWatchdogBackup (h : CustodyOk P m) (hb : Persisted P m.disk backup)
    (snapshots : List (String × List String)) (server : IpAddr) :
    Keeps P target .watching (prepareWatchdogBackup P backup snapshots server) m
      (fun _ m' => CustodyOk P m' ∧ Knows P m'.disk server) (fun _ m' => CustodyOk P m') := by
  obtain ⟨text, ht, hf⟩ := hb
  obtain ⟨backup', history, hf', hh⟩ := h.readable text ht
  obtain rfl : backup = backup' := Except.ok.inj (hf.symm.trans hf')
  unfold prepareWatchdogBackup
  split
  · exact satE_throw h
  · rename_i backup1 added hadd
    obtain ⟨hx1, -, hsame1, -⟩ := addNewServiceSnapshots_extends hadd
    obtain ⟨hx2, -, hhist, hsame2⟩ := recordTakeover_ok server backup1
    obtain ⟨history2, hh2, hpre2⟩ := (hx1.trans hx2).history history hh
    simp only
    split
    · refine (keeps_writeBackup h (fun hnone => ?_) hh2 fun s hs server' hp => ?_).seq (fun _ m1 h1 => ?_)
        fun _ _ he => he ▸ h
      · rw [ht] at hnone
        cases hnone
      · obtain ⟨-, old, oldHistory, hold, hoh, hin⟩ := h.pointed s hs server' hp
        obtain rfl : backup = old := Persisted.unique ⟨text, ht, hf⟩ hold
        rw [hh] at hoh
        cases hoh
        exact hpre2.subset hin
      · exact satE_pure ⟨h1.1, _, _, h1.2.1, hh2, hhist _ hh2⟩
    · rename_i hunchanged
      simp only [Bool.or_eq_true, not_or, Bool.not_eq_true] at hunchanged
      -- nothing new: what is on disk is what the tick works with
      have heq : (recordTakeover server backup1).1 = backup := by
        rw [hsame2 hunchanged.2, (hsame1 hunchanged.1).2]
      rw [heq] at hh2 hhist ⊢
      exact satE_pure ⟨h, _, _, ⟨text, ht, hf⟩, hh2, hhist _ hh2⟩

theorem keeps_reassertServices :
    ∀ (names errors : List String) {m : Custody}, CustodyOk P m → Knows P m.disk server →
      Keeps P (some server) role (reassertServices server.display names errors) m (fun _ m' => CustodyOk P m')
        (fun _ _ => False)
  | [], errors, m, h, _ => satE_pure h
  | name :: names, errors, m, h, hknows => by
    have hpre : ∀ server', some server = some server' → [server.display] = [server'.display] →
        Knows P m.disk server' := by
      rintro server' ⟨⟩ -
      exact hknows
    refine (keeps_setDnsServers h hpre).seq ?_ fun _ _ he => he.elim
    rintro r m1 ⟨hok1, ⟨rfl, rfl⟩ | ⟨⟨e, rfl⟩, rfl⟩⟩
    · exact keeps_reassertServices names errors hok1 hknows
    · exact keeps_reassertServices names _ hok1 hknows

theorem keeps_watchdogTick (h : CustodyOk P m) (server : IpAddr) :
    Keeps P (some server) .watching (watchdogTick P server) m (fun _ m' => CustodyOk P m')
      (fun _ m' => CustodyOk P m') := by
  refine sees_then sees_lock (fun _ _ => ?_) fun _ => h
  refine sees_then sees_backupExists (fun hasBackup _ => ?_) fun _ => h
  have hmarker : Sees P (some server) .watching (if hasBackup then markerExists else pure false) m fun _ => True := by
    split
    · exact sees_markerExists.mono (fun _ _ hr => ⟨hr.1, trivial⟩) fun _ _ he => he
    · exact satE_pure ⟨rfl, trivial⟩
  refine sees_then hmarker (fun active _ => ?_) fun _ => h
  split
  · refine sees_then sees_readBackup (fun backup hb => ?_) fun _ => h
    refine sees_then sees_listServices (fun names _ => ?_) fun _ => h
    refine sees_then (sees_newServiceLists _ names []) (fun newServices _ => ?_) fun _ => h
    refine (keeps_prepareWatchdogBackup h hb newServices server).seq (fun _ m1 h1 => ?_) fun _ _ he => he
    obtain ⟨hok1, hknows1⟩ := h1
    refine sees_then sees_serviceDnsSnapshot (fun current _ => ?_) fun _ => hok1
    refine sees_then (sees_attempt sees_effectiveDnsServers) (fun effective _ => ?_) fun _ => hok1
    split
    · exact satE_pure hok1
    · refine (keeps_reassertServices _ [] hok1 hknows1).seq (fun errors m2 hok2 => ?_) fun _ _ he => he.elim
      refine keeps_flushCaches.seq (fun _ m3 h3 => ?_) fun _ _ he => he.elim
      rw [h3]
      split
      · exact satE_pure hok2
      · exact satE_throw hok2
  · exact satE_pure h

end Tick

end DNSRivet.OsDns
