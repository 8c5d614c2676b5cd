/-
Undoing a takeover. `World` is a Mac whose network tools and files work: services with their DNS
lists, the two files, and what `scutil` reports. A run takes over, ticks any number of times while
the user changes services in between, and restores. Its inputs fix the backup: the services with the
lists they had when first seen (`originals`) and every takeover address; restoring succeeds
unless one of those lists already held one of those addresses (`takeover_undone_iff`).
-/
import DNSRivet.OsDns.Journal

namespace DNSRivet.OsDns

open DNSRivet.Base DNSRivet.Net Prog

/-! ## A working Mac -/

structure Service where
  name : String
  enabled : Bool
  servers : List String
deriving DecidableEq, Repr

structure World where
  disk : Disk
  table : List Service
  effective : Except String (List SocketAddr)

def findServers (table : List Service) (name : String) : Except String (List String) :=
  match table.find? fun service => service.name = name with
  | some service => .ok service.servers
  | none => .error (quoted name ++ " is not a recognized network service.")

def setServers (table : List Service) (name : String) (servers : List String) : List Service :=
  table.map fun service => if service.name = name then { service with servers } else service

/-- A service that exists is found. -/
theorem exists_find {table : List Service} {name : String} (h : name ∈ table.map Service.name) :
    ∃ service ∈ table, service.name = name ∧ (table.find? fun service => service.name = name) = some service := by
  obtain ⟨service, hs, rfl⟩ := List.mem_map.1 h
  obtain ⟨found, hf⟩ := Option.isSome_iff_exists.1 (List.find?_isSome.2 ⟨service, hs, by simp⟩ :
    (table.find? fun s => s.name = service.name).isSome)
  exact ⟨found, List.mem_of_find?_eq_some hf, by simpa using List.find?_some hf, hf⟩

/-- A service that exists has a list. -/
theorem exists_findServers {table : List Service} {name : String} (h : name ∈ table.map Service.name) :
    ∃ service ∈ table, service.name = name ∧ findServers table name = .ok service.servers := by
  obtain ⟨service, hs, hname, hf⟩ := exists_find h
  refine ⟨service, hs, hname, ?_⟩
  unfold findServers
  rw [hf]

/-- Every operation on existing services and files succeeds, and reads return what was last set. -/
def reliable (w : World) : (op : SysOp) → SysOp.Reply op × World
  | .lock => (.ok (), w)
  | .backupExists => (w.disk.backup.isSome, w)
  | .markerExists => (w.disk.marker, w)
  | .createMarker => (.ok (), { w with disk := { w.disk with marker := true } })
  | .removeMarker => (.ok (), { w with disk := { w.disk with marker := false } })
  | .createSupportDir => (.ok (), w)
  | .readBackupFile =>
    (match w.disk.backup with | some text => .ok text | none => .error "No such file or directory", w)
  | .installBackup text => (.ok (), { w with disk := { w.disk with backup := some text } })
  | .removeBackup =>
    match w.disk.backup with
    | some _ => (.ok (), { w with disk := { w.disk with backup := none } })
    | none => (.error ⟨true, "No such file or directory"⟩, w)
  | .effectiveDnsServers => (w.effective, w)
  | .listServices => (.ok ((w.table.filter Service.enabled).map Service.name), w)
  | .listAllServices => (.ok (w.table.map Service.name), w)
  | .getDnsServers name => (findServers w.table name, w)
  | .setDnsServers name servers =>
    match w.table.find? fun service => service.name = name with
    | some _ => (.ok (), { w with table := setServers w.table name servers })
    | none => (.error (quoted name ++ " is not a recognized network service."), w)
  | .flushCaches => ((), w)

/-! ## Runs -/

/-- A tick with its address, and what the user and the network made of the system before it. -/
structure TickInput where
  server : IpAddr
  table : List Service
  effective : Except String (List SocketAddr)

variable (P : Platform)

/-- The world after successful ticks, if they all succeed. -/
def runTicks : World → List TickInput → Option World
  | w, [] => some w
  | w, tick :: ticks =>
    match runE reliable (watchdogTick P tick.server) { w with table := tick.table, effective := tick.effective } with
    | (.ok _, w') => runTicks w' ticks
    | (.error _, _) => none

/-- The saved entries once the enabled services of a table have been seen too. -/
def seen (known : List ServiceDns) (table : List Service) : List ServiceDns :=
  known ++ ((table.filter fun service => service.enabled && !(known.map ServiceDns.name).contains service.name).map
    fun service => ⟨service.name, service.servers⟩)

/-- Every service with its list at the take-over or at the tick that first saw it. -/
def originals (table : List Service) (ticks : List TickInput) : List ServiceDns :=
  ticks.foldl (fun known tick => seen known tick.table) (seen [] table)

/-- Some of the lists holds an entry that reads as one of the addresses. -/
def Collides (services : List ServiceDns) (addresses : List IpAddr) : Prop :=
  ∃ service ∈ services, ∃ value ∈ service.servers, ∃ address,
    parseDnsSocket P.interfaces value = .ok address ∧ address.ip ∈ addresses

/-! ## Single operations -/

section Single

variable {P} {w : World}

@[simp] theorem runE_lock : runE reliable lock w = (.ok (), w) := rfl

@[simp] theorem runE_backupExists : runE reliable backupExists w = (.ok w.disk.backup.isSome, w) := rfl

@[simp] theorem runE_markerExists : runE reliable markerExists w = (.ok w.disk.marker, w) := rfl

@[simp] theorem runE_createMarker :
    runE reliable createMarker w = (.ok (), { w with disk := { w.disk with marker := true } }) := rfl

@[simp] theorem runE_flushCaches : runE reliable flushCaches w = (.ok (), w) := rfl

@[simp] theorem runE_listServices :
    runE reliable listServices w = (.ok ((w.table.filter Service.enabled).map Service.name), w) := rfl

@[simp] theorem runE_listAllServices : runE reliable listAllServices w = (.ok (w.table.map Service.name), w) := rfl

@[simp] theorem runE_getDnsServers (name : String) :
    runE reliable (getDnsServers name) w = (findServers w.table name, w) := rfl

theorem runE_readBackup {backup : Backup} (h : Persisted P w.disk backup) :
    runE reliable (readBackup P) w = (.ok backup, w) := by
  obtain ⟨text, ht, hf⟩ := h
  simp only [readBackup, runE_performE, reliable, ht, hf]
  rfl

theorem runE_writeBackup {backup : Backup} {w' : World} (h : runE reliable (writeBackup P backup) w = (.ok (), w')) :
    Persisted P w'.disk backup ∧ w'.disk.marker = w.disk.marker ∧ w'.table = w.table := by
  unfold writeBackup at h
  rw [runE_bind_ok (t := w) (a := ()) _ rfl] at h
  split at h
  · rename_i text ht
    cases h
    exact ⟨⟨text, rfl, P.toml.fromStr_toString _ _ ht⟩, rfl, rfl⟩
  · cases h

theorem runE_setDnsServers (name : String) (servers : List String) :
    (runE reliable (setDnsServers name servers) w).2.disk = w.disk := by
  show (reliable w (.setDnsServers name servers)).2.disk = w.disk
  simp only [reliable]
  split <;> rfl

theorem runE_setDnsServers_ok {name : String} (h : name ∈ w.table.map Service.name) (servers : List String) :
    runE reliable (setDnsServers name servers) w = (.ok (), { w with table := setServers w.table name servers }) := by
  obtain ⟨service, -, -, hf⟩ := exists_find h
  show (id (reliable w (.setDnsServers name servers)).1, (reliable w (.setDnsServers name servers)).2) = _
  simp only [reliable, hf, id]

end Single

/-! ## Actions that leave the disk alone -/

/-- Whatever its outcome, the action leaves both files as they were. -/
def DiskStill {α : Type} (x : Action α) : Prop := ∀ w, (runE reliable x w).2.disk = w.disk

section Still

variable {α β : Type} {x : Action α} {f : α → Action β}

theorem diskStill_pure (a : α) : DiskStill (pure a : Action α) := fun _ => rfl

theorem diskStill_bind (hx : DiskStill x) (hf : ∀ a, DiskStill (f a)) : DiskStill (x >>= f) := by
  intro w
  rw [runE_bind]
  cases hr : (runE reliable x w).1 with
  | ok a => exact (hf a _).trans (hx w)
  | error e => exact hx w

theorem diskStill_attempt (hx : DiskStill x) : DiskStill (attempt x) := fun w => by
  rw [runE_attempt]; exact hx w

theorem diskStill_getDnsServers (name : String) : DiskStill (getDnsServers name) := fun _ => rfl

theorem diskStill_readBackup (P : Platform) : DiskStill (readBackup P) := fun _ => rfl

theorem diskStill_listAllServices : DiskStill listAllServices := fun _ => rfl

theorem diskStill_setDnsServers (name : String) (servers : List String) : DiskStill (setDnsServers name servers) :=
  fun _ => runE_setDnsServers name servers

theorem diskStill_snapshotLoop (allServices : List String) :
    ∀ (services : List ServiceDns) (snapshot : List (String × List String)),
      DiskStill (snapshotLoop allServices services snapshot)
  | [], _ => diskStill_pure _
  | service :: services, snapshot => by
    unfold snapshotLoop
    split
    · exact diskStill_bind (diskStill_getDnsServers _) fun _ => diskStill_snapshotLoop allServices services _
    · exact diskStill_snapshotLoop allServices services snapshot

theorem diskStill_serviceDnsSnapshot (P : Platform) : DiskStill (serviceDnsSnapshot P) :=
  diskStill_bind (diskStill_readBackup P) fun _ =>
    diskStill_bind diskStill_listAllServices fun _ => diskStill_snapshotLoop _ _ _

theorem diskStill_reassertServices (expected : String) :
    ∀ names errors : List String, DiskStill (reassertServices expected names errors)
  | [], _ => diskStill_pure _
  | name :: names, errors => by
    refine diskStill_bind (diskStill_attempt (diskStill_setDnsServers _ _)) fun r => ?_
    split
    · exact diskStill_reassertServices expected names errors
    · exact diskStill_reassertServices expected names _

end Still

/-! ## Tables -/

section Tables

variable {table : List Service}

/-- A service of a table without duplicate names is found under its name. -/
theorem findServers_of_mem (h : (table.map Service.name).Nodup) {service : Service} (hs : service ∈ table) :
    findServers table service.name = .ok service.servers := by
  obtain ⟨found, hfound, hname, hf⟩ := exists_findServers (List.mem_map_of_mem (f := Service.name) hs)
  have hsame : found = service := List.inj_on_of_nodup_map h hfound hs hname
  rw [hf, hsame]

@[simp] theorem setServers_names (table : List Service) (name : String) (servers : List String) :
    (setServers table name servers).map Service.name = table.map Service.name := by
  unfold setServers
  rw [List.map_map]
  refine List.map_congr_left fun service _ => ?_
  simp only [Function.comp]
  split <;> rfl

/-- The table once the services with these names were pointed at one address. -/
def switchTable (expected : String) (switched : List String) (table : List Service) : List Service :=
  table.map fun service => if service.name ∈ switched then { service with servers := [expected] } else service

@[simp] theorem switchTable_nil (expected : String) (table : List Service) : switchTable expected [] table = table := by
  simp [switchTable]

/-- One more service. -/
theorem setServers_switchTable (expected : String) (switched : List String) (table : List Service) (name : String) :
    setServers (switchTable expected switched table) name [expected] =
      switchTable expected (switched ++ [name]) table := by
  unfold setServers switchTable
  rw [List.map_map]
  refine List.map_congr_left fun service _ => ?_
  simp only [Function.comp, List.mem_append, List.mem_singleton]
  by_cases hs : service.name ∈ switched
  · simp only [hs, if_true, true_or]
    split <;> rfl
  · simp only [hs, if_false, false_or]

@[simp] theorem switchTable_names (expected : String) (switched : List String) (table : List Service) :
    (switchTable expected switched table).map Service.name = table.map Service.name := by
  unfold switchTable
  rw [List.map_map]
  refine List.map_congr_left fun service _ => ?_
  simp only [Function.comp]
  split <;> rfl

/-- Reading a table whose lists were changed, name by name. -/
theorem findServers_map {f : Service → Service} {g : String → List String → List String}
    (hname : ∀ service, (f service).name = service.name)
    (hservers : ∀ service, (f service).servers = g service.name service.servers) (table : List Service)
    (name : String) :
    findServers (table.map f) name = (findServers table name).map (g name) := by
  unfold findServers
  have hsame : (fun service : Service => decide (service.name = name)) ∘ f =
      fun service => decide (service.name = name) := by
    funext service
    simp only [Function.comp, hname]
  rw [List.find?_map, hsame]
  cases hf : table.find? fun service => service.name = name with
  | none => rfl
  | some service =>
    have hs : service.name = name := by simpa using List.find?_some hf
    simp only [Option.map_some, Except.map, hservers, hs]

/-- A set is read back, and no other service's list changes. -/
theorem findServers_setServers (table : List Service) (name : String) (servers : List String) (other : String) :
    findServers (setServers table name servers) other =
      (findServers table other).map fun old => if other = name then servers else old := by
  refine findServers_map (g := fun other old => if other = name then servers else old) (fun service => ?_)
    (fun service => ?_) table other
  · split <;> rfl
  · split <;> rfl

/-- A switched service reads as exactly the address, every other as before. -/
theorem findServers_switchTable (expected : String) (switched : List String) (table : List Service) (name : String) :
    findServers (switchTable expected switched table) name =
      (findServers table name).map fun old => if name ∈ switched then [expected] else old := by
  refine findServers_map (g := fun name old => if name ∈ switched then [expected] else old) (fun service => ?_)
    (fun service => ?_) table name
  · split <;> rfl
  · split <;> rfl

/-- The table once every saved list was set. -/
def restoreTable (services : List ServiceDns) (table : List Service) : List Service :=
  services.foldl (fun table service => setServers table service.name service.servers) table

@[simp] theorem restoreTable_names (services : List ServiceDns) (table : List Service) :
    (restoreTable services table).map Service.name = table.map Service.name := by
  induction services generalizing table with
  | nil => rfl
  | cons service services ih => exact (ih _).trans (setServers_names ..)

/-- A service that no saved entry names keeps its list. -/
theorem mem_restoreTable_other {services : List ServiceDns} {s : Service} (hs : s ∈ restoreTable services table)
    (hn : s.name ∉ services.map ServiceDns.name) : s ∈ table := by
  induction services generalizing table with
  | nil => exact hs
  | cons service services ih =>
    simp only [List.map_cons, List.mem_cons, not_or] at hn
    have := ih hs hn.2
    obtain ⟨s0, hs0, he⟩ := List.mem_map.1 this
    split at he
    · rename_i hname
      subst he
      exact absurd hname hn.1
    · rw [← he]; exact hs0

/-- A service that a saved entry names has the saved list. -/
theorem mem_restoreTable {services : List ServiceDns} (h : (services.map ServiceDns.name).Nodup) {s : Service}
    (hs : s ∈ restoreTable services table) (hn : s.name ∈ services.map ServiceDns.name) :
    ⟨s.name, s.servers⟩ ∈ services := by
  induction services generalizing table with
  | nil => cases hn
  | cons service services ih =>
    simp only [List.map_cons, List.nodup_cons] at h
    by_cases hlater : s.name ∈ services.map ServiceDns.name
    · exact List.mem_cons_of_mem _ (ih h.2 hs hlater)
    · have hname : s.name = service.name := by
        simpa [hlater] using hn
      -- no later entry touches it
      obtain ⟨s0, hs0, he⟩ := List.mem_map.1 (mem_restoreTable_other hs hlater)
      split at he
      · subst he
        rename_i h0
        simp only [h0]
        exact List.mem_cons_self ..
      · rename_i h0
        subst he
        exact absurd hname h0

end Tables

/-! ## What a take-over saves -/

section Saves

variable {P} {w w' : World}

def Service.entry (service : Service) : ServiceDns := ⟨service.name, service.servers⟩

/-- The snapshot loop over services of the table reads their lists. -/
theorem runE_snapshotServices {server : IpAddr} (h : (w.table.map Service.name).Nodup) :
    ∀ {ss : List Service} {services : List ServiceDns} {fallback : List SocketAddr}
      {res : List ServiceDns × List SocketAddr},
      (∀ s ∈ ss, s ∈ w.table) →
      runE reliable (snapshotServices P server (ss.map Service.name) services fallback) w = (.ok res, w') →
      w' = w ∧ res.1 = services ++ ss.map Service.entry
  | [], services, fallback, res, _, hr => by
    cases hr
    exact ⟨rfl, by simp⟩
  | s :: ss, services, fallback, res, hmem, hr => by
    simp only [List.map_cons, snapshotServices] at hr
    have hfind := findServers_of_mem h (hmem s (List.mem_cons_self ..))
    rw [runE_bind_ok (t := w) (a := s.servers) _ (by rw [runE_getDnsServers, hfind])] at hr
    split at hr
    · cases hr
    · obtain ⟨hw, hres⟩ := runE_snapshotServices h (fun x hx => hmem x (List.mem_cons_of_mem _ hx)) hr
      refine ⟨hw, ?_⟩
      rw [hres, List.map_cons, List.append_assoc]
      rfl

/-- A switching loop that succeeds removed no backup. -/
theorem runE_switchServices {server : IpAddr} {backup : Backup} :
    ∀ {services : List ServiceDns} {changed : List String} {w w' : World},
      runE reliable (switchServices server backup services changed) w = (.ok (), w') → w'.disk = w.disk
  | [], _, _, _, h => by cases h; rfl
  | service :: services, changed, w, w', h => by
    unfold switchServices at h
    obtain ⟨r, w1, h1, h⟩ := runE_bind_eq_ok h
    have hdisk : w1.disk = w.disk := by
      have := diskStill_attempt (diskStill_setDnsServers service.name [server.display]) w
      rwa [h1] at this
    cases r with
    | ok u => exact (runE_switchServices h).trans hdisk
    | error err =>
      obtain ⟨ok, w2, -, h⟩ := runE_bind_eq_ok h
      split at h
      · obtain ⟨_, w3, -, h⟩ := runE_bind_eq_ok h
        cases h
      · cases h

/-- A successful take-over leaves a marker and a backup with the enabled services' lists and its address. -/
theorem runE_takeOver {server : IpAddr} (hbackup : w.disk.backup = none) (htable : (w.table.map Service.name).Nodup)
    (h : runE reliable (takeOver P server) w = (.ok (), w')) :
    ∃ backup, Persisted P w'.disk backup ∧ backup.version = 2 ∧ backup.services = seen [] w.table ∧
      backup.takeoverServers = some [server] ∧ w'.disk.marker = true := by
  unfold takeOver at h
  rw [runE_bind_ok _ runE_lock, runE_bind_ok _ runE_backupExists, hbackup] at h
  simp only [Option.isSome_none, Bool.false_eq_true, if_false] at h
  rw [runE_bind_ok _ (runE_attempt effectiveDnsServers w)] at h
  rw [runE_bind_ok _ runE_listServices] at h
  obtain ⟨⟨services, fallback⟩, w1, h1, hrest⟩ := runE_bind_eq_ok h
  obtain ⟨rfl, hservices⟩ := runE_snapshotServices htable (fun s hs => List.mem_of_mem_filter hs) h1
  simp only at hrest hservices
  split at hrest
  · cases hrest
  · obtain ⟨_, w2, h2, hrest⟩ := runE_bind_eq_ok hrest
    obtain ⟨hp, -, -⟩ := runE_writeBackup h2
    obtain ⟨_, w3, h3, hrest⟩ := runE_bind_eq_ok hrest
    have hdisk := runE_switchServices h3
    rw [runE_bind_ok _ runE_createMarker] at hrest
    cases hrest
    obtain ⟨text, ht, hf⟩ := hp
    refine ⟨takeoverBackup server services fallback, ⟨text, ?_, hf⟩, rfl, ?_, rfl, rfl⟩
    · show w3.disk.backup = some text
      rw [hdisk, ht]
    · show services = seen [] w1.table
      rw [hservices]
      simp [seen, Service.entry]

end Saves

/-! ## What a tick adds -/

section Adds

variable {P} {w w' : World}

/-- The gets of a tick read the lists of the services it does not know. -/
theorem runE_newServiceLists {known : List String} (h : (w.table.map Service.name).Nodup) :
    ∀ {ss : List Service} (found : List (String × List String)), (∀ s ∈ ss, s ∈ w.table) →
      runE reliable (newServiceLists known (ss.map Service.name) found) w =
        (.ok (found ++ (ss.filter fun s => !known.contains s.name).map fun s => (s.name, s.servers)), w)
  | [], found, _ => by simp [newServiceLists]
  | s :: ss, found, hmem => by
    have hrest : ∀ x ∈ ss, x ∈ w.table := fun x hx => hmem x (List.mem_cons_of_mem _ hx)
    simp only [List.map_cons, newServiceLists]
    split
    · rename_i hknown
      rw [runE_newServiceLists h found hrest, List.filter_cons_of_neg (by rw [hknown]; decide)]
    · rename_i hnew
      have hfind := findServers_of_mem h (hmem s (List.mem_cons_self ..))
      have hnew' : (!known.contains s.name) = true := by simpa using hnew
      rw [runE_bind_ok (t := w) (a := s.servers) _ (by rw [runE_getDnsServers, hfind]),
        runE_newServiceLists h _ hrest,
        List.filter_cons_of_pos (p := fun s : Service => !known.contains s.name) hnew', List.map_cons,
        List.append_assoc]
      rfl

/-- The backup grows by exactly the snapshots when none of their names is known. -/
theorem addNewServiceSnapshots_eq {expected : String} :
    ∀ {snapshots : List (String × List String)} {backup backup' : Backup} {added added' : Bool},
      addNewServiceSnapshots P expected snapshots backup added = .ok (backup', added') →
      (snapshots.map Prod.fst).Nodup → (∀ name ∈ snapshots.map Prod.fst, name ∉ backup.names) →
      backup' = { backup with services := backup.services ++ snapshots.map fun e => ⟨e.1, e.2⟩ }
  | [], backup, backup', added, added', h, _, _ => by
    cases h
    simp
  | (name, servers) :: snapshots, backup, backup', added, added', h, hn, hnew => by
    simp only [List.map_cons, List.nodup_cons] at hn
    have hname : name ∉ backup.names := hnew name (List.mem_cons_self ..)
    simp only [addNewServiceSnapshots] at h
    split at h
    · rename_i hknown
      obtain ⟨service, hs, he⟩ := List.any_eq_true.1 hknown
      exact absurd (List.mem_map.2 ⟨service, hs, by simpa using he⟩) hname
    · split at h
      · cases h
      · rw [addNewServiceSnapshots_eq h hn.2 ?_]
        · simp
        · intro other ho hmem
          simp only [Backup.names, List.map_append, List.map_cons, List.map_nil, List.mem_append,
            List.mem_singleton] at hmem
          rcases hmem with hmem | rfl
          · exact hnew other (List.mem_cons_of_mem _ ho) hmem
          · exact hn.1 ho

/-- What a tick works with is on disk: the new services added, the address recorded. -/
theorem runE_prepareWatchdogBackup {server : IpAddr} {backup backup' : Backup} {snapshots : List (String × List String)}
    (hb : Persisted P w.disk backup)
    (h : runE reliable (prepareWatchdogBackup P backup snapshots server) w = (.ok backup', w')) :
    Persisted P w'.disk backup' ∧ w'.disk.marker = w.disk.marker ∧ w'.table = w.table ∧
      ∃ mid added, addNewServiceSnapshots P server.display snapshots backup false = .ok (mid, added) ∧
        backup' = (recordTakeover server mid).1 := by
  unfold prepareWatchdogBackup at h
  split at h
  · cases h
  · rename_i mid added hadd
    simp only at h
    split at h
    · obtain ⟨_, w1, h1, h⟩ := runE_bind_eq_ok h
      obtain ⟨hp, hm, ht⟩ := runE_writeBackup h1
      cases h
      exact ⟨hp, hm, ht, mid, added, hadd, rfl⟩
    · rename_i hunchanged
      simp only [Bool.or_eq_true, not_or, Bool.not_eq_true] at hunchanged
      cases h
      obtain ⟨-, -, hsame1, -⟩ := addNewServiceSnapshots_extends hadd
      obtain ⟨-, -, -, hsame2⟩ := recordTakeover_ok server mid
      refine ⟨?_, rfl, rfl, mid, added, hadd, rfl⟩
      rw [hsame2 hunchanged.2, (hsame1 hunchanged.1).2]
      exact hb

/-- The backup of a run: version 2, unique names, a known history. -/
structure RunBackup (services : List ServiceDns) (addresses : List IpAddr) (backup : Backup) : Prop where
  version : backup.version = 2
  services : backup.services = services
  history : ∃ h, backup.takeoverServers = some h ∧ ∀ a, a ∈ h ↔ a ∈ addresses
  nodup : backup.names.Nodup

theorem recordTakeover_history {server : IpAddr} {backup : Backup} {h addresses : List IpAddr}
    (hh : backup.takeoverServers = some h) (hmem : ∀ a, a ∈ h ↔ a ∈ addresses) :
    ∃ h', (recordTakeover server backup).1.takeoverServers = some h' ∧ ∀ a, a ∈ h' ↔ a ∈ addresses ++ [server] := by
  simp only [recordTakeover, hh]
  split
  · rename_i hin
    simp only [List.contains_eq_mem, decide_eq_true_eq] at hin
    refine ⟨h, hh, fun a => ?_⟩
    rw [List.mem_append, List.mem_singleton, ← hmem]
    exact ⟨.inl, fun ha => ha.elim id fun he => he ▸ hin⟩
  · refine ⟨h ++ [server], rfl, fun a => ?_⟩
    rw [List.mem_append, List.mem_append, hmem]

/-- A successful tick of a run saves the services it sees for the first time and records its address. -/
theorem runE_watchdogTick {server : IpAddr} {services : List ServiceDns} {addresses : List IpAddr} {backup : Backup}
    {outcome : TickOutcome} (htable : (w.table.map Service.name).Nodup) (hm : w.disk.marker = true)
    (hb : Persisted P w.disk backup) (hrun : RunBackup services addresses backup)
    (h : runE reliable (watchdogTick P server) w = (.ok outcome, w')) :
    w'.disk.marker = true ∧
      ∃ backup', Persisted P w'.disk backup' ∧ RunBackup (seen services w.table) (addresses ++ [server]) backup' := by
  obtain ⟨hv, hs, ⟨hist, hh, hmem⟩, hn⟩ := hrun
  have hsome : w.disk.backup.isSome = true := by obtain ⟨text, ht, -⟩ := hb; rw [ht]; rfl
  unfold watchdogTick at h
  rw [runE_bind_ok _ runE_lock, runE_bind_ok _ runE_backupExists, hsome] at h
  simp only [if_true] at h
  rw [runE_bind_ok _ runE_markerExists, hm] at h
  simp only [if_true] at h
  rw [runE_bind_ok _ (runE_readBackup hb),
    runE_bind_ok _ runE_listServices,
    runE_bind_ok _ (runE_newServiceLists htable [] fun s hs => List.mem_of_mem_filter hs)] at h
  obtain ⟨backup', w1, h1, h⟩ := runE_bind_eq_ok h
  obtain ⟨hp1, hm1, -, mid, added, hadd, rfl⟩ := runE_prepareWatchdogBackup hb h1
  -- nothing after the backup is prepared touches the files
  have hrest : w'.disk = w1.disk := by
    have hstill : DiskStill (serviceDnsSnapshot P >>= fun current =>
        attempt effectiveDnsServers >>= fun effective =>
          if (servicesNeedingReassert current server.display).isEmpty then
            pure (TickOutcome.ofClean (captureRuntimeFallback effective server))
          else
            reassertServices server.display (servicesNeedingReassert current server.display) [] >>= fun errors =>
              flushCaches >>= fun _ =>
                if errors.isEmpty then
                  pure (TickOutcome.ofReasserted (servicesNeedingReassert current server.display)
                    (captureRuntimeFallback effective server))
                else throw ("reassert incomplete: " ++ joinWith "; " errors)) := by
      refine diskStill_bind (diskStill_serviceDnsSnapshot P) fun current => ?_
      refine diskStill_bind (diskStill_attempt fun _ => rfl) fun effective => ?_
      split
      · exact diskStill_pure _
      · refine diskStill_bind (diskStill_reassertServices _ _ _) fun errors => ?_
        refine diskStill_bind (fun _ => rfl) fun _ => ?_
        split
        · exact diskStill_pure _
        · exact fun _ => rfl
    have := hstill w1
    rw [show runE reliable _ w1 = (.ok outcome, w') from h] at this
    exact this
  refine ⟨by rw [hrest, hm1, hm], (recordTakeover server mid).1, by rw [Persisted, hrest]; exact hp1, ?_⟩
  have hsub : ((w.table.filter Service.enabled).map Service.name).Nodup :=
    htable.sublist (List.filter_sublist.map _)
  have hmid := addNewServiceSnapshots_eq hadd ?_ ?_
  · have hserv : mid.services = seen services w.table := by
      rw [hmid]
      simp only [hs, List.nil_append, seen, List.map_map, List.filter_filter]
      congr 1
      refine congrArg _ (congrArg₂ _ ?_ rfl)
      funext s
      exact Bool.and_comm _ _
    obtain ⟨-, ht, -, -⟩ := addNewServiceSnapshots_extends hadd
    have hnames := addNewServiceSnapshots_nodup hadd hn
    obtain ⟨-, hkeep, -, -⟩ := recordTakeover_ok server mid
    have hversion : (recordTakeover server mid).1.version = mid.version := by
      unfold recordTakeover
      split
      · rfl
      · split <;> rfl
    refine ⟨by rw [hversion, hmid]; exact hv, by rw [hkeep, hserv], recordTakeover_history (ht.trans hh) hmem, ?_⟩
    show ((recordTakeover server mid).1.services.map ServiceDns.name).Nodup
    rw [hkeep]; exact hnames
  · simp only [List.nil_append, List.map_map]
    exact hsub.sublist (List.filter_sublist.map _)
  · simp only [List.nil_append, List.map_map]
    intro name hname
    obtain ⟨s, hs', rfl⟩ := List.mem_map.1 hname
    have := (List.mem_filter.1 hs').2
    simpa [Backup.names] using this

end Adds

/-! ## What restoring does -/

section Restores

variable {P} {w : World}

/-- Every saved list is set, without an error, when all saved services exist. -/
theorem runE_restoreServices {current : List String} :
    ∀ (services : List ServiceDns) {w : World} (errors : List String),
      (∀ s ∈ services, s.name ∈ current ∧ s.name ∈ w.table.map Service.name) →
      runE reliable (restoreServices current services errors) w =
        (.ok errors, { w with table := restoreTable services w.table })
  | [], _, _, _ => rfl
  | service :: services, w, errors, h => by
    obtain ⟨hcurrent, hexists⟩ := h service (List.mem_cons_self ..)
    unfold restoreServices
    rw [if_pos (by simpa using hcurrent), runE_bind_ok _ (runE_attempt _ w), runE_setDnsServers_ok hexists]
    simp only
    rw [runE_restoreServices services errors fun s hs => ?_]
    · rfl
    · obtain ⟨h1, h2⟩ := h s (List.mem_cons_of_mem _ hs)
      exact ⟨h1, by rw [setServers_names]; exact h2⟩

/-- Verification adds an error for every service that may still depend on the proxy. -/
theorem runE_verifyServices (backup : Backup) (h : (w.table.map Service.name).Nodup) :
    ∀ (ss : List Service) (errors : List String), (∀ s ∈ ss, s ∈ w.table) →
      ∃ more, runE reliable (verifyServices P backup (ss.map Service.name) errors) w = (.ok (errors ++ more), w) ∧
        (more = [] ↔ ∀ s ∈ ss, dnsMayDependOnTakeover P backup s.name s.servers = false)
  | [], errors, _ => ⟨[], by simp [verifyServices], by simp⟩
  | s :: ss, errors, hmem => by
    have hrest : ∀ x ∈ ss, x ∈ w.table := fun x hx => hmem x (List.mem_cons_of_mem _ hx)
    have hfind := findServers_of_mem h (hmem s (List.mem_cons_self ..))
    simp only [List.map_cons, verifyServices]
    rw [runE_bind_ok _ (runE_attempt _ w), runE_getDnsServers, hfind]
    simp only
    cases hdep : dnsMayDependOnTakeover P backup s.name s.servers with
    | true =>
      obtain ⟨more, hrun, -⟩ := runE_verifyServices backup h ss (errors ++ ["network service " ++ quoted s.name ++
          " still lists DNS that may use DNSRivet: " ++ joinWith ", " s.servers]) hrest
      refine ⟨_, by rw [if_pos rfl, hrun, List.append_assoc], ?_⟩
      constructor
      · intro hnil; cases hnil
      · intro hall
        have := hall s (List.mem_cons_self ..)
        rw [hdep] at this; cases this
    | false =>
      obtain ⟨more, hrun, hiff⟩ := runE_verifyServices backup h ss errors hrest
      refine ⟨more, by rw [if_neg (by decide), hrun], ?_⟩
      rw [hiff]
      constructor
      · intro hall x hx
        rcases List.mem_cons.1 hx with rfl | hx
        · exact hdep
        · exact hall x hx
      · exact fun hall x hx => hall x (List.mem_cons_of_mem _ hx)

/-- With a known history a list depends on the takeover when an entry reads as one of its addresses. -/
theorem dnsMayDepend_iff {backup : Backup} {h addresses : List IpAddr} (hh : backup.takeoverServers = some h)
    (hmem : ∀ a, a ∈ h ↔ a ∈ addresses) (name : String) (servers : List String) :
    dnsMayDependOnTakeover P backup name servers = true ↔
      ∃ value ∈ servers, ∃ address, parseDnsSocket P.interfaces value = .ok address ∧ address.ip ∈ addresses := by
  simp only [dnsMayDependOnTakeover, hh, List.any_eq_true]
  constructor
  · rintro ⟨value, hv, hp⟩
    split at hp
    · rename_i address ha
      exact ⟨value, hv, address, ha, (hmem _).1 (by simpa using hp)⟩
    · cases hp
  · rintro ⟨value, hv, address, ha, hin⟩
    refine ⟨value, hv, ?_⟩
    rw [ha]
    simpa using (hmem _).2 hin

/-- Restoring a backup whose services are exactly those that exist: every list is set, and the backup
goes unless one of the lists collides with the history. -/
theorem runE_restoreAt {services : List ServiceDns} {addresses : List IpAddr} {backup : Backup}
    (hb : Persisted P w.disk backup) (hrun : RunBackup services addresses backup)
    (htable : (w.table.map Service.name).Nodup)
    (hsame : ∀ name, name ∈ w.table.map Service.name ↔ name ∈ services.map ServiceDns.name) :
    (∀ s ∈ (runE reliable (restoreAt P) w).2.table, ⟨s.name, s.servers⟩ ∈ services) ∧
    ((runE reliable (restoreAt P) w).1 = .ok () ∧ (runE reliable (restoreAt P) w).2.disk.backup = none ↔
      ¬ Collides P services addresses) := by
  obtain ⟨hv, hs, ⟨hist, hh, hmem⟩, hn⟩ := hrun
  have hnodup : (services.map ServiceDns.name).Nodup := by rw [← hs]; exact hn
  have hnames : ((restoreTable services w.table).map Service.name).Nodup := by rw [restoreTable_names]; exact htable
  -- every service ends up with its saved list
  have hrestored : ∀ s ∈ restoreTable services w.table, ⟨s.name, s.servers⟩ ∈ services := by
    intro s hmem'
    refine mem_restoreTable hnodup hmem' ((hsame _).1 ?_)
    rw [← restoreTable_names services]
    exact List.mem_map_of_mem hmem'
  have hentry : ∀ e ∈ services, ∃ s ∈ restoreTable services w.table, s.name = e.name ∧ s.servers = e.servers := by
    intro e he
    have hname := (hsame e.name).2 (List.mem_map_of_mem he)
    rw [← restoreTable_names services] at hname
    obtain ⟨s, hs', hsn⟩ := List.mem_map.1 hname
    have hsaved := hrestored s hs'
    have := List.inj_on_of_nodup_map hnodup hsaved he hsn
    exact ⟨s, hs', hsn, congrArg ServiceDns.servers this⟩
  set w1 : World := { w with table := restoreTable services w.table } with hw1
  obtain ⟨more, hverify, hmore⟩ := runE_verifyServices (P := P) (w := w1) backup hnames
    (restoreTable services w.table) [] fun _ hs => hs
  have hclean : more = [] ↔ ¬ Collides P services addresses := by
    rw [hmore]
    constructor
    · rintro hall ⟨e, he, value, hv', address, ha, hin⟩
      obtain ⟨s, hs', hsn, hss⟩ := hentry e he
      have hd : dnsMayDependOnTakeover P backup s.name s.servers = true :=
        (dnsMayDepend_iff hh hmem _ _).2 ⟨value, by rw [hss]; exact hv', address, ha, hin⟩
      rw [hall s hs'] at hd; cases hd
    · intro hfree s hs'
      by_contra hd
      obtain ⟨value, hv', address, ha, hin⟩ := (dnsMayDepend_iff hh hmem s.name s.servers).1 (by simpa using hd)
      exact hfree ⟨_, hrestored s hs', value, hv', address, ha, hin⟩
  have hstart : runE reliable (restoreAt P) w =
      if more.isEmpty then runE reliable (performE .removeBackup fun r => r.mapError fun e =>
        "remove restored DNS backup " ++ backupPath ++ ": " ++ e.text) w1
      else runE reliable (throw ("refusing to stop DNSRivet: " ++ joinWith "; " more ++ " (backup retained at " ++
        backupPath ++
        "); restore the affected services' known correct DNS settings manually, or rename services back to their " ++
        "backed-up names, then retry `dnsrivet stop`. Original DNS for renamed services will not be guessed") :
          Action Unit) w1 := by
    unfold restoreAt
    rw [runE_bind_ok _ (runE_readBackup hb), if_neg (by simp [hv]),
      runE_bind_ok _ runE_listAllServices,
      runE_bind_ok _ (runE_restoreServices backup.services [] ?_)]
    · rw [hs, ← hw1, runE_bind_ok (t := w1) (a := .ok (w1.table.map Service.name)) _ rfl]
      simp only
      rw [runE_bind_ok _ hverify, List.nil_append]
      split <;> rfl
    · intro s hs'
      have := (hsame s.name).2 (by rw [← hs]; exact List.mem_map_of_mem hs')
      exact ⟨this, this⟩
  obtain ⟨text, ht, -⟩ := hb
  have hremove : runE reliable (performE .removeBackup fun r => r.mapError fun e =>
      "remove restored DNS backup " ++ backupPath ++ ": " ++ e.text) w1 =
        (.ok (), { w1 with disk := { w1.disk with backup := none } }) := by
    rw [runE_performE]
    simp only [reliable, hw1, ht]
    rfl
  rw [hstart]
  by_cases hm : more = []
  · rw [hm, List.isEmpty_nil, if_pos rfl, hremove]
    exact ⟨hrestored, fun _ => hclean.1 hm, fun _ => ⟨rfl, rfl⟩⟩
  · have hne : more.isEmpty = false := by simpa using hm
    rw [hne, if_neg (by decide)]
    refine ⟨hrestored, fun hok => ?_, fun hfree => absurd (hclean.2 hfree) hm⟩
    cases hok.1

end Restores

/-! ## Every run -/

/-- Successful ticks leave a backup with the services first seen and the addresses used on the way. -/
theorem runTicks_backup {P : Platform} :
    ∀ {ticks : List TickInput} {w w' : World} {services : List ServiceDns} {addresses : List IpAddr} {backup : Backup},
      (∀ tick ∈ ticks, (tick.table.map Service.name).Nodup) → w.disk.marker = true → Persisted P w.disk backup →
      RunBackup services addresses backup → runTicks P w ticks = some w' →
      ∃ backup', Persisted P w'.disk backup' ∧
        RunBackup (ticks.foldl (fun known tick => seen known tick.table) services)
        (addresses ++ ticks.map TickInput.server) backup'
  | [], w, w', services, addresses, backup, _, _, hb, hrun, h => by
    cases h
    exact ⟨backup, hb, by simpa using hrun⟩
  | tick :: ticks, w, w', services, addresses, backup, htables, hm, hb, hrun, h => by
    unfold runTicks at h
    split at h
    · rename_i outcome w1 h1
      obtain ⟨hm1, backup1, hb1, hrun1⟩ :=
        runE_watchdogTick (w := { w with table := tick.table, effective := tick.effective })
          (htables tick (List.mem_cons_self ..)) hm hb hrun h1
      obtain ⟨backup', hb', hrun'⟩ :=
        runTicks_backup (fun t ht => htables t (List.mem_cons_of_mem _ ht)) hm1 hb1 hrun1 h
      exact ⟨backup', hb', by simpa [List.append_assoc] using hrun'⟩
    · cases h

/-- A takeover can be undone, after any number of successful ticks, exactly when no service's original
list holds an entry that reads as one of the takeover addresses. -/
theorem takeover_undone_iff (P : Platform) (server : IpAddr) (marker : Bool) (table : List Service)
    (effective : Except String (List SocketAddr)) (ticks : List TickInput) (atStop : List Service) (w0 w1 : World)
    (htable : (table.map Service.name).Nodup) (htables : ∀ tick ∈ ticks, (tick.table.map Service.name).Nodup)
    (htake : runE reliable (takeOver P server) ⟨⟨none, marker⟩, table, effective⟩ = (.ok (), w0))
    (hticks : runTicks P w0 ticks = some w1) (hstop : (atStop.map Service.name).Nodup)
    (hsame : ∀ name, name ∈ atStop.map Service.name ↔ name ∈ (originals table ticks).map ServiceDns.name) :
    ((runE reliable (restoreAt P) { w1 with table := atStop }).1 = .ok () ∧
      (∀ s ∈ (runE reliable (restoreAt P) { w1 with table := atStop }).2.table,
        ⟨s.name, s.servers⟩ ∈ originals table ticks) ∧
      (runE reliable (restoreAt P) { w1 with table := atStop }).2.disk.backup = none) ↔
    ¬ Collides P (originals table ticks) (server :: ticks.map TickInput.server) := by
  obtain ⟨backup, hb, hv, hs, hh, hm⟩ := runE_takeOver rfl htable htake
  have hnodup : backup.names.Nodup := by
    show (backup.services.map ServiceDns.name).Nodup
    rw [hs]
    simp only [seen, List.nil_append, List.map_map]
    exact htable.sublist (List.filter_sublist.map _)
  have hrun : RunBackup (seen [] table) [server] backup := ⟨hv, hs, ⟨_, hh, fun _ => Iff.rfl⟩, hnodup⟩
  obtain ⟨backup1, hb1, hrun1⟩ := runTicks_backup htables hm hb hrun hticks
  obtain ⟨hlists, hiff⟩ := runE_restoreAt (w := { w1 with table := atStop }) hb1 hrun1 hstop hsame
  exact ⟨fun h => hiff.1 ⟨h.1, h.2.2⟩, fun h => ⟨(hiff.2 h).1, hlists, (hiff.2 h).2⟩⟩

/-! ## Two takeovers that differ in one spelling -/

/-- A Mac with one service that lists the given servers. -/
def oneService (servers : List String) : List Service := [⟨"Wi-Fi", true, servers⟩]

def loopbackV6 : IpAddr := .v6 Ipv6Addr.localhost

def loopbackV4 : IpAddr := .v4 ⟨127, 0, 0, 1⟩

/-- An encoder that knows the backups below. -/
def spellingToml : Toml :=
  .ofTable [(takeoverBackup loopbackV6 [⟨"Wi-Fi", ["8.8.8.8"]⟩] [.v4 ⟨8, 8, 8, 8⟩ 53],
      "version = 2\nfallback_servers = [\"8.8.8.8\"]\ntakeover_servers = [\"::1\"]\n\n" ++
        "[[services]]\nname = \"Wi-Fi\"\nservers = [\"8.8.8.8\"]\n"),
    (takeoverBackup loopbackV6 [⟨"Wi-Fi", ["0:0:0:0:0:0:0:1"]⟩] [],
      "version = 2\nfallback_servers = []\ntakeover_servers = [\"::1\"]\n\n" ++
        "[[services]]\nname = \"Wi-Fi\"\nservers = [\"0:0:0:0:0:0:0:1\"]\n"),
    (⟨2, [⟨"Wi-Fi", ["8.8.8.8"]⟩, ⟨"Ethernet", ["9.9.9.9"]⟩], ["8.8.8.8"], some [loopbackV6, loopbackV4]⟩,
      "version = 2\nfallback_servers = [\"8.8.8.8\"]\ntakeover_servers = [\"::1\", \"127.0.0.1\"]\n\n" ++
        "[[services]]\nname = \"Wi-Fi\"\nservers = [\"8.8.8.8\"]\n\n" ++
        "[[services]]\nname = \"Ethernet\"\nservers = [\"9.9.9.9\"]\n")]
    (by decide +kernel)

def spellingPlatform : Platform := ⟨spellingToml, fun _ => .error "ENXIO"⟩

/-- The world after taking over such a Mac for a proxy on `::1`. -/
def takenOver (servers : List String) : Except String Unit × World :=
  runE reliable (takeOver spellingPlatform loopbackV6) ⟨⟨none, false⟩, oneService servers, .ok []⟩

/-- The outcome of restoring it. -/
def undone (servers : List String) : Except String Unit × World :=
  runE reliable (restoreAt spellingPlatform) { (takenOver servers).2 with table := oneService ["::1"] }

theorem takenOver_ok {servers : List String} (h : (takenOver servers).1 = .ok ()) :
    runE reliable (takeOver spellingPlatform loopbackV6) ⟨⟨none, false⟩, oneService servers, .ok []⟩ =
      (.ok (), (takenOver servers).2) :=
  Prod.ext h rfl

theorem oneService_names (servers servers' : List String) (name : String) :
    name ∈ (oneService servers').map Service.name ↔ name ∈ (originals (oneService servers) []).map ServiceDns.name :=
  Iff.rfl

/-- The Mac was docked since, and the proxy listens on another address. -/
def dockTick : TickInput := ⟨loopbackV4, oneService ["::1"] ++ [⟨"Ethernet", true, ["9.9.9.9"]⟩], .ok []⟩

/-- Both services as the tick leaves them. -/
def docked : List Service := oneService ["127.0.0.1"] ++ [⟨"Ethernet", true, ["127.0.0.1"]⟩]

theorem dock_originals :
    originals (oneService ["8.8.8.8"]) [dockTick] = [⟨"Wi-Fi", ["8.8.8.8"]⟩, ⟨"Ethernet", ["9.9.9.9"]⟩] := rfl

/-- The resolvers of the two networks collide with no takeover of a loopback address. -/
theorem dock_free :
    ¬ Collides spellingPlatform (originals (oneService ["8.8.8.8"]) [dockTick]) [loopbackV6, loopbackV4] := by
  rintro ⟨service, hs, value, hv, address, ha, hin⟩
  have hwifi : parseDnsSocket spellingPlatform.interfaces "8.8.8.8" = .ok (.v4 ⟨8, 8, 8, 8⟩ 53) := rfl
  have hethernet : parseDnsSocket spellingPlatform.interfaces "9.9.9.9" = .ok (.v4 ⟨9, 9, 9, 9⟩ 53) := rfl
  rw [dock_originals, List.mem_cons, List.mem_singleton] at hs
  rcases hs with rfl | rfl
  · rw [List.mem_singleton.1 hv, hwifi] at ha
    cases ha
    revert hin
    decide
  · rw [List.mem_singleton.1 hv, hethernet] at ha
    cases ha
    revert hin
    decide

/-- A takeover, a tick that sees a new service and points both at the new address, and the restore. -/
theorem takeover_undone_docked : ∃ w, runTicks spellingPlatform (takenOver ["8.8.8.8"]).2 [dockTick] = some w ∧
    (runE reliable (restoreAt spellingPlatform) { w with table := docked }).1 = .ok () ∧
    (∀ s ∈ (runE reliable (restoreAt spellingPlatform) { w with table := docked }).2.table,
      ⟨s.name, s.servers⟩ ∈ originals (oneService ["8.8.8.8"]) [dockTick]) ∧
    (runE reliable (restoreAt spellingPlatform) { w with table := docked }).2.disk.backup = none := by
  have hsome : (runTicks spellingPlatform (takenOver ["8.8.8.8"]).2 [dockTick]).isSome = true := by decide +kernel
  obtain ⟨w, hw⟩ := Option.isSome_iff_exists.1 hsome
  have htables : ∀ tick ∈ [dockTick], (tick.table.map Service.name).Nodup := by
    simp only [List.forall_mem_singleton]
    decide
  have hnames : ∀ name, name ∈ docked.map Service.name ↔
      name ∈ (originals (oneService ["8.8.8.8"]) [dockTick]).map ServiceDns.name := by
    rw [dock_originals]
    exact fun _ => Iff.rfl
  have hundone := takeover_undone_iff spellingPlatform loopbackV6 false (oneService ["8.8.8.8"]) (.ok []) [dockTick]
    docked (takenOver ["8.8.8.8"]).2 w (by decide) htables (takenOver_ok rfl) hw (by decide) hnames
  exact ⟨w, hw, hundone.2 dock_free⟩

/-- A service that lists the proxy's address in another spelling is taken over, and never restored. -/
theorem takeover_not_undone :
    ¬ ∀ (P : Platform) (server : IpAddr) (table : List Service) (effective : Except String (List SocketAddr))
      (atStop : List Service) (w0 : World), server.isLoopback = true → (table.map Service.name).Nodup →
      runE reliable (takeOver P server) ⟨⟨none, false⟩, table, effective⟩ = (.ok (), w0) →
      (atStop.map Service.name).Nodup →
      (∀ name, name ∈ atStop.map Service.name ↔ name ∈ (originals table []).map ServiceDns.name) →
      (runE reliable (restoreAt P) { w0 with table := atStop }).1 = .ok () := by
  intro h
  have hok := h spellingPlatform loopbackV6 (oneService ["0:0:0:0:0:0:0:1"]) (.ok []) (oneService ["::1"]) _ (by decide)
    (by decide) (takenOver_ok rfl) (by decide) (oneService_names _ _)
  have hbad : (match (undone ["0:0:0:0:0:0:0:1"]).1 with | .ok _ => true | .error _ => false) = false := by
    decide +kernel
  rw [show (undone ["0:0:0:0:0:0:0:1"]).1 = .ok () from hok] at hbad
  cases hbad

end DNSRivet.OsDns
