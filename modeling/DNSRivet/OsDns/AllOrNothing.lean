/-
`take_over` is all or nothing, whatever fails. `faulty` is a Mac on which any step may also fail,
changing nothing. The switching loop keeps the table equal to the original one with the changed services
switched; from there a rollback in which every set succeeds brings every original list back, and the
backup file goes only after such a rollback.
-/
import DNSRivet.OsDns.Undo

namespace DNSRivet.OsDns

open DNSRivet.Base DNSRivet.Net Prog

/-! ## Faults -/

/-- The answers of an operation that failed. -/
def Failed : (op : SysOp) → SysOp.Reply op → Prop
  | .lock, r => ∃ e, r = .error e
  | .createMarker, r => ∃ e, r = .error e
  | .removeMarker, r => ∃ e, r = .error e
  | .createSupportDir, r => ∃ e, r = .error e
  | .readBackupFile, r => ∃ e, r = .error e
  | .installBackup _, r => ∃ e, r = .error e
  | .removeBackup, r => ∃ e, r = .error e
  | .effectiveDnsServers, r => ∃ e, r = .error e
  | .listServices, r => ∃ e, r = .error e
  | .listAllServices, r => ∃ e, r = .error e
  | .getDnsServers _, r => ∃ e, r = .error e
  | .setDnsServers _ _, r => ∃ e, r = .error e
  -- these report no failure
  | .backupExists, _ => False
  | .markerExists, _ => False
  | .flushCaches, _ => False

/-- Every operation works as on a reliable Mac, or fails and changes nothing. -/
def faulty : Handler World SysOp SysOp.Reply := fun w op r w' => reliable w op = (r, w') ∨ Failed op r ∧ w' = w

/-- Nothing is demanded on the way. -/
def unrestricted : Contract World SysOp := ⟨fun _ _ => True, fun _ _ => True⟩

/-- Whatever fails, the action ends in `Q` with a value or in `E` with an error. -/
abbrev WithFaults {α : Type} (x : Action α) (w : World) (Q : α → World → Prop) (E : String → World → Prop) : Prop :=
  SatE unrestricted faulty x w Q E

/-- Whatever fails, the action leaves the world as it was. -/
abbrev Harmless {α : Type} (x : Action α) (w : World) (Q : α → Prop) : Prop :=
  WithFaults x w (fun a w' => w' = w ∧ Q a) (fun _ w' => w' = w)

/-- The enabled services, as the tools list them. -/
def listed (w : World) : List String := (w.table.filter Service.enabled).map Service.name

/-- The backup has an entry for each enabled service, with the list it has in `w`. -/
structure Saves (backup : Backup) (w : World) : Prop where
  names : backup.names = listed w
  lists : ∀ service ∈ backup.services, findServers w.table service.name = .ok service.servers

/-- What a failed take-over leaves of `w`: no backup and every service's list, or a backup with the lists. -/
def Recoverable (P : Platform) (w w' : World) : Prop :=
  (w'.disk.backup = none ∧ ∀ name, findServers w'.table name = findServers w.table name) ∨
    ∃ backup, Persisted P w'.disk backup ∧ Saves backup w

variable {P : Platform} {w w0 : World} {server : IpAddr} {backup : Backup}

/-! ## Single operations -/

theorem faults_performE {α : Type} {op : SysOp} {g : SysOp.Reply op → Except String α} {Q : α → World → Prop}
    {E : String → World → Prop} (h : ∀ r w', faulty w op r w' → match g r with | .ok a => Q a w' | .error e => E e w') :
    WithFaults (performE op g) w Q E := by
  refine satE_performE trivial fun r w' hs => ⟨trivial, ?_⟩
  have := h r w' hs
  cases hg : g r with
  | ok a => rwa [hg] at this
  | error e => rwa [hg] at this

/-- An operation that changes nothing even when it works. -/
theorem harmless_performE {α : Type} {op : SysOp} {g : SysOp.Reply op → Except String α} {Q : α → Prop}
    (hop : ∀ r w', faulty w op r w' → w' = w ∧ ∀ a, g r = .ok a → Q a) : Harmless (performE op g) w Q := by
  refine faults_performE fun r w' hs => ?_
  obtain ⟨rfl, hq⟩ := hop r w' hs
  cases hg : g r with
  | ok a => exact ⟨rfl, hq a hg⟩
  | error e => rfl

theorem harmless_then {α β : Type} {x : Action α} {f : α → Action β} {Q : α → Prop} {R : β → World → Prop}
    {E : String → World → Prop} (hx : Harmless x w Q) (hf : ∀ a, Q a → WithFaults (f a) w R E) (he : ∀ e, E e w) :
    WithFaults (x >>= f) w R E :=
  SatE.seq hx (fun a _ h => by rw [h.1]; exact hf a h.2) fun e _ h => by rw [h]; exact he e

theorem harmless_lock : Harmless lock w fun _ => True := by
  apply harmless_performE
  rintro r w' (h | ⟨-, rfl⟩)
  · exact ⟨(Prod.mk.inj h).2.symm, fun _ _ => trivial⟩
  · exact ⟨rfl, fun _ _ => trivial⟩

theorem harmless_backupExists : Harmless backupExists w fun present => present = w.disk.backup.isSome := by
  apply harmless_performE
  rintro r w' (h | ⟨hf, -⟩)
  · obtain ⟨rfl, rfl⟩ := Prod.mk.inj h
    exact ⟨rfl, fun a ha => by cases ha; rfl⟩
  · cases hf

theorem harmless_effectiveDnsServers : Harmless (attempt effectiveDnsServers) w fun _ => True := by
  refine satE_attempt (faults_performE ?_)
  rintro r w' (h | ⟨⟨e, rfl⟩, rfl⟩)
  · obtain ⟨rfl, rfl⟩ := Prod.mk.inj h
    cases w.effective with
    | ok servers => exact ⟨rfl, trivial⟩
    | error e => exact ⟨rfl, trivial⟩
  · exact ⟨rfl, trivial⟩

theorem harmless_listServices : Harmless listServices w fun names => names = listed w := by
  apply harmless_performE
  rintro r w' (h | ⟨⟨e, rfl⟩, rfl⟩)
  · obtain ⟨rfl, rfl⟩ := Prod.mk.inj h
    exact ⟨rfl, fun a ha => by cases ha; rfl⟩
  · exact ⟨rfl, fun a ha => by cases ha⟩

theorem harmless_getDnsServers (name : String) :
    Harmless (getDnsServers name) w fun servers => findServers w.table name = .ok servers := by
  apply harmless_performE
  rintro r w' (h | ⟨⟨e, rfl⟩, rfl⟩)
  · obtain ⟨rfl, rfl⟩ := Prod.mk.inj h
    exact ⟨rfl, fun a ha => ha⟩
  · exact ⟨rfl, fun a ha => by cases ha⟩

theorem harmless_createSupportDir : Harmless createSupportDir w fun _ => True := by
  apply harmless_performE
  rintro r w' (h | ⟨-, rfl⟩)
  · exact ⟨(Prod.mk.inj h).2.symm, fun _ _ => trivial⟩
  · exact ⟨rfl, fun _ _ => trivial⟩

/-- Flushing reports no failure. -/
theorem faults_flushCaches : WithFaults flushCaches w (fun _ w' => w' = w) (fun _ _ => False) := by
  apply faults_performE
  rintro r w' (h | ⟨hf, -⟩)
  · exact (Prod.mk.inj h).2.symm
  · cases hf

/-- A set that succeeds found the service, and changed its list only. -/
theorem faults_setDnsServers (name : String) (servers : List String) :
    WithFaults (attempt (setDnsServers name servers)) w
      (fun r w' => (r = .ok () ∧ w' = { w with table := setServers w.table name servers } ∧
        ∃ old, findServers w.table name = .ok old) ∨ (∃ e, r = .error e) ∧ w' = w)
      (fun _ _ => False) := by
  refine satE_attempt (faults_performE ?_)
  rintro r w' (h | ⟨⟨e, rfl⟩, rfl⟩)
  · simp only [reliable] at h
    split at h
    · rename_i service hfound
      obtain ⟨rfl, rfl⟩ := Prod.mk.inj h
      exact .inl ⟨rfl, rfl, service.servers, by unfold findServers; rw [hfound]⟩
    · obtain ⟨rfl, rfl⟩ := Prod.mk.inj h
      exact .inr ⟨⟨_, rfl⟩, rfl⟩
  · exact .inr ⟨⟨e, rfl⟩, rfl⟩

/-- The backup is installed, or nothing happened. -/
theorem faults_writeBackup (backup : Backup) :
    WithFaults (writeBackup P backup) w
      (fun _ w' => ∃ text, P.toml.fromStr text = .ok backup ∧
        w' = { w with disk := { w.disk with backup := some text } })
      (fun _ w' => w' = w) := by
  refine harmless_then harmless_createSupportDir (fun _ _ => ?_) fun _ => rfl
  cases ht : P.toml.toString backup with
  | error e => exact satE_throw rfl
  | ok text =>
    apply faults_performE
    rintro r w' (h | ⟨⟨e, rfl⟩, rfl⟩)
    · obtain ⟨rfl, rfl⟩ := Prod.mk.inj h
      exact ⟨text, P.toml.fromStr_toString backup text ht, rfl⟩
    · rfl

/-- The marker is created, or nothing happened. -/
theorem faults_createMarker :
    WithFaults createMarker w (fun _ w' => w' = { w with disk := { w.disk with marker := true } })
      (fun _ w' => w' = w) := by
  apply faults_performE
  rintro r w' (h | ⟨⟨e, rfl⟩, rfl⟩)
  · obtain ⟨rfl, rfl⟩ := Prod.mk.inj h
    rfl
  · rfl

/-- The backup is gone, or nothing happened; the failure is ignored. -/
theorem faults_removeBackup :
    WithFaults (performE .removeBackup .ok) w
      (fun _ w' => w' = { w with disk := { w.disk with backup := none } } ∨ w' = w) (fun _ _ => False) := by
  apply faults_performE
  rintro r w' (h | ⟨-, rfl⟩)
  · simp only [reliable] at h
    split at h
    · exact .inl (Prod.mk.inj h).2.symm
    · exact .inr (Prod.mk.inj h).2.symm
  · exact .inr rfl

/-! ## The loops -/

/-- The snapshot reads the services one by one. -/
theorem faults_snapshotServices :
    ∀ (names : List String) (services : List ServiceDns) (fallback : List SocketAddr),
      (∀ service ∈ services, findServers w.table service.name = .ok service.servers) →
      Harmless (snapshotServices P server names services fallback) w fun res =>
        res.1.map ServiceDns.name = services.map ServiceDns.name ++ names ∧
          ∀ service ∈ res.1, findServers w.table service.name = .ok service.servers
  | [], services, fallback, hs => satE_pure ⟨rfl, by simp, hs⟩
  | name :: names, services, fallback, hs => by
    refine harmless_then (harmless_getDnsServers name) (fun servers hread => ?_) fun _ => rfl
    split
    · exact satE_throw rfl
    · have hs' : ∀ service ∈ services ++ [⟨name, servers⟩], findServers w.table service.name = .ok service.servers :=
        List.forall_mem_append.2 ⟨hs, List.forall_mem_singleton.2 hread⟩
      refine (faults_snapshotServices names _ _ hs').mono (fun res w' hr => ⟨hr.1, ?_, hr.2.2⟩) fun _ _ he => he
      rw [hr.2.1]
      simp

/-- A rollback in which every set succeeded brings the saved lists back. -/
theorem faults_rollbackLoop (hsaves : Saves backup w0) :
    ∀ (names : List String) (ok : Bool) {w : World}, (∀ name ∈ names, name ∈ backup.names) →
      WithFaults (rollbackLoop backup names ok) w
        (fun res w' => w'.disk = w.disk ∧ (res = true → ok = true ∧ ∀ name, findServers w'.table name =
          if name ∈ names then findServers w0.table name else findServers w.table name))
        (fun _ _ => False)
  | [], ok, w, _ => satE_pure ⟨rfl, fun h => ⟨h, by simp⟩⟩
  | name :: names, ok, w, hnames => by
    have hrest : ∀ x ∈ names, x ∈ backup.names := fun x hx => hnames x (List.mem_cons_of_mem _ hx)
    unfold rollbackLoop
    split
    · -- every changed service is in the backup
      rename_i hnone
      obtain ⟨service, hs, hname⟩ := List.mem_map.1 (hnames name (List.mem_cons_self ..))
      exact absurd hname (by simpa using List.find?_eq_none.1 hnone service hs)
    · rename_i service hfind
      have hname : service.name = name := by simpa using List.find?_some hfind
      have horiginal := hsaves.lists service (List.mem_of_find?_eq_some hfind)
      refine (faults_setDnsServers service.name service.servers).seq ?_ fun _ _ he => he.elim
      rintro r w1 (⟨rfl, rfl, old, hold⟩ | ⟨⟨e, rfl⟩, rfl⟩)
      · refine (faults_rollbackLoop hsaves names ok hrest).mono (fun res w' hr => ⟨hr.1, fun hres => ?_⟩)
          fun _ _ he => he
        obtain ⟨hok, hreads⟩ := hr.2 hres
        refine ⟨hok, fun other => ?_⟩
        rw [hreads, findServers_setServers]
        by_cases hin : other ∈ names
        · simp [hin]
        · by_cases hsame : other = name
          · rw [hsame, ← hname, hold, horiginal]
            simp [Except.map]
          · have : other ≠ service.name := by rw [hname]; exact hsame
            cases findServers w.table other <;> simp [hin, hsame, this, Except.map]
      · refine (faults_rollbackLoop hsaves names false hrest).mono (fun res w' hr => ⟨hr.1, fun hres => ?_⟩)
          fun _ _ he => he
        exact absurd (hr.2 hres).1 (by decide)

/-- After a complete rollback of the changed services the world reads as before the first set. -/
theorem faults_rollback (hsaves : Saves backup w0) {changed : List String} {expected : String}
    (htable : w.table = switchTable expected changed w0.table) (hchanged : ∀ name ∈ changed, name ∈ backup.names) :
    WithFaults (rollback backup changed) w
      (fun res w' => w'.disk = w.disk ∧ (res = true → ∀ name, findServers w'.table name = findServers w0.table name))
      (fun _ _ => False) := by
  refine (faults_rollbackLoop hsaves changed.reverse true fun name hn => hchanged name (by simpa using hn)).seq
    (fun ok w1 h1 => ?_) fun _ _ he => he
  refine faults_flushCaches.seq (fun _ w2 h2 => ?_) fun _ _ he => he
  rw [h2]
  refine satE_pure ⟨h1.1, fun hok name => ?_⟩
  rw [(h1.2 hok).2 name]
  by_cases hin : name ∈ changed
  · rw [if_pos (by simpa using hin)]
  · rw [if_neg (by simpa using hin), htable, findServers_switchTable]
    cases findServers w0.table name <;> simp [hin, Except.map]

/-- Either every remaining service is switched too, or nothing is lost. -/
theorem faults_switchServices (hsaves : Saves backup w0) :
    ∀ (services : List ServiceDns) (changed : List String) {w : World},
      w.table = switchTable server.display changed w0.table → Persisted P w.disk backup →
      (∀ name ∈ changed, name ∈ backup.names) → (∀ service ∈ services, service ∈ backup.services) →
      WithFaults (switchServices server backup services changed) w
        (fun _ w' => w'.disk = w.disk ∧
          w'.table = switchTable server.display (changed ++ services.map ServiceDns.name) w0.table)
        (fun _ w' => Recoverable P w0 w')
  | [], changed, w, htable, _, _, _ => satE_pure ⟨rfl, by rw [htable, List.map_nil, List.append_nil]⟩
  | service :: services, changed, w, htable, hp, hchanged, hservices => by
    have hservice : service.name ∈ backup.names := List.mem_map_of_mem (hservices service (List.mem_cons_self ..))
    have hrest : ∀ s ∈ services, s ∈ backup.services := fun s hs => hservices s (List.mem_cons_of_mem _ hs)
    unfold switchServices
    refine (faults_setDnsServers service.name [server.display]).seq ?_ fun _ _ he => he.elim
    rintro r w1 (⟨rfl, rfl, -⟩ | ⟨⟨err, rfl⟩, rfl⟩)
    · have htable' : setServers w.table service.name [server.display] =
          switchTable server.display (changed ++ [service.name]) w0.table := by
        rw [htable, setServers_switchTable]
      have hchanged' : ∀ name ∈ changed ++ [service.name], name ∈ backup.names :=
        List.forall_mem_append.2 ⟨hchanged, List.forall_mem_singleton.2 hservice⟩
      refine (faults_switchServices hsaves services _
        (w := { w with table := setServers w.table service.name [server.display] }) htable' hp hchanged' hrest).mono
          (fun _ w' h => ?_) fun _ _ he => he
      refine ⟨h.1, ?_⟩
      rw [h.2, List.append_assoc]
      rfl
    · refine (faults_rollback hsaves htable hchanged).seq (fun ok w2 h2 => ?_) fun _ _ he => he.elim
      obtain ⟨hdisk, hreads⟩ := h2
      have hkept : Persisted P w2.disk backup := by rw [Persisted, hdisk]; exact hp
      split
      · rename_i hok
        refine faults_removeBackup.seq (fun _ w3 h3 => satE_throw ?_) fun _ _ he => he.elim
        rcases h3 with rfl | rfl
        · exact .inl ⟨rfl, hreads hok⟩
        · exact .inr ⟨backup, hkept, hsaves⟩
      · exact satE_throw (.inr ⟨backup, hkept, hsaves⟩)

/-! ## take_over -/

/-- A take-over is all or nothing, whichever of its steps and of its rollback fail: with `Ok` every enabled
service lists exactly the address, and the marker and a backup with the original lists exist; with an
error the original lists are in place or in the backup, and nothing happened if there was a backup. -/
theorem takeOver_all_or_nothing (P : Platform) (server : IpAddr) (w : World) :
    WithFaults (takeOver P server) w
      (fun _ w' => (∀ name ∈ listed w, findServers w'.table name = .ok [server.display]) ∧ w'.disk.marker = true ∧
        ∃ backup, Persisted P w'.disk backup ∧ Saves backup w)
      (fun _ w' => if w.disk.backup.isSome then w' = w else Recoverable P w w') := by
  -- a step that fails before the backup is written leaves everything as it was
  have hfail : if w.disk.backup.isSome then w = w else Recoverable P w w := by
    split
    · rfl
    · rename_i hnone
      exact .inl ⟨by simpa using hnone, fun _ => rfl⟩
  refine harmless_then harmless_lock (fun _ _ => ?_) fun _ => hfail
  refine harmless_then harmless_backupExists (fun present hpresent => ?_) fun _ => hfail
  subst hpresent
  split
  · exact satE_throw rfl
  · rename_i habsent
    rw [if_neg habsent] at hfail
    refine harmless_then harmless_effectiveDnsServers (fun effective _ => ?_) fun _ => hfail
    refine harmless_then harmless_listServices (fun names hnames => ?_) fun _ => hfail
    refine harmless_then (faults_snapshotServices names [] _ (by simp)) (fun res hres => ?_) fun _ => hfail
    obtain ⟨services, fallback⟩ := res
    obtain ⟨hserv, hlists⟩ := hres
    simp only
    split
    · exact satE_throw hfail
    · have hsaves : Saves (takeoverBackup server services fallback) w := ⟨by rw [← hnames]; exact hserv, hlists⟩
      refine (faults_writeBackup _).seq (fun _ w1 h1 => ?_) fun _ _ he => he ▸ hfail
      obtain ⟨text, hf, rfl⟩ := h1
      refine (faults_switchServices (P := P) (w := { w with disk := { w.disk with backup := some text } }) hsaves
        services []
        (switchTable_nil _ _).symm ⟨text, rfl, hf⟩ (by simp) fun _ hs => hs).seq (fun _ w2 h2 => ?_) fun _ _ he => he
      obtain ⟨hdisk, htable⟩ := h2
      have hp : Persisted P w2.disk (takeoverBackup server services fallback) := by
        rw [Persisted, hdisk]; exact ⟨text, rfl, hf⟩
      refine faults_createMarker.seq (fun _ w3 h3 => ?_) fun _ _ he => he ▸ .inr ⟨_, hp, hsaves⟩
      refine faults_flushCaches.mono (fun _ w4 h4 => ?_) fun _ _ he => he.elim
      subst h3 h4
      refine ⟨fun name hname => ?_, rfl, _, hp, hsaves⟩
      -- every enabled service was switched
      rw [htable, findServers_switchTable, List.nil_append]
      have hin : name ∈ services.map ServiceDns.name := by
        rw [hserv, hnames]
        exact hname
      obtain ⟨service, hs, rfl⟩ := List.mem_map.1 hin
      rw [hlists service hs]
      simp only [Except.map, if_pos hin]

end DNSRivet.OsDns
