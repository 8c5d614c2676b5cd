/-
The watchdog converges, and the check of `restart` agrees with it. `Settled` is what a successful tick
leaves: the backup on disk knows every enabled service and records the address, and every service it
knows lists exactly that address. A tick establishes it from any backup and any table; from there the
next tick, and `takeover_intact`, only look.
-/
import DNSRivet.OsDns.Undo

namespace DNSRivet.OsDns

open DNSRivet.Base DNSRivet.Net Prog

/-- Operations that change a file or a service. -/
def SysOp.Writes : SysOp → Prop
  | .createMarker | .removeMarker | .createSupportDir | .installBackup _ | .removeBackup | .setDnsServers _ _ => True
  | _ => False

variable {P : Platform} {w w' : World} {server : IpAddr} {backup : Backup}

/-- What a successful tick leaves behind. -/
structure Settled (P : Platform) (server : IpAddr) (w : World) (backup : Backup) : Prop where
  persisted : Persisted P w.disk backup
  marker : w.disk.marker = true
  history : ∀ h, backup.takeoverServers = some h → server ∈ h
  enabled : ∀ s ∈ w.table, s.enabled = true → s.name ∈ backup.names
  listed : ∀ name ∈ backup.names, name ∈ w.table.map Service.name → findServers w.table name = .ok [server.display]

/-! ## What a tick goes through -/

theorem runE_readBackup_ok (h : runE reliable (readBackup P) w = (.ok backup, w')) :
    w' = w ∧ Persisted P w.disk backup := by
  unfold readBackup at h
  rw [runE_performE] at h
  simp only [reliable] at h
  cases hb : w.disk.backup with
  | none => rw [hb] at h; cases h
  | some text =>
    rw [hb] at h
    obtain ⟨hf, rfl⟩ := Prod.mk.inj h
    refine ⟨rfl, text, hb, ?_⟩
    exact mapError_eq_ok.1 hf

/-- The names of the lists that were read: all that are not known. -/
theorem newServiceLists_names {known : List String} :
    ∀ {names : List String} {found res : List (String × List String)},
      runE reliable (newServiceLists known names found) w = (.ok res, w') →
      w' = w ∧ found ⊆ res ∧ ∀ name ∈ names, name ∈ known ∨ name ∈ res.map Prod.fst
  | [], found, res, h => by
    cases h
    exact ⟨rfl, fun _ he => he, by simp⟩
  | name :: names, found, res, h => by
    unfold newServiceLists at h
    split at h
    · rename_i hknown
      obtain ⟨hw, hsub, hmem⟩ := newServiceLists_names h
      refine ⟨hw, hsub, ?_⟩
      rintro other (_ | ⟨_, hother⟩)
      · exact .inl (by simpa using hknown)
      · exact hmem other hother
    · obtain ⟨servers, w1, h1, h⟩ := runE_bind_eq_ok h
      obtain ⟨-, rfl⟩ := Prod.mk.inj h1
      obtain ⟨hw, hsub, hmem⟩ := newServiceLists_names h
      refine ⟨hw, fun e he => hsub (List.mem_append_left _ he), ?_⟩
      rintro other (_ | ⟨_, hother⟩)
      · exact .inr (List.mem_map.2 ⟨_, hsub (List.mem_append_right _ (List.mem_singleton_self _)), rfl⟩)
      · exact hmem other hother

/-- The snapshot holds the lists of exactly the saved services that exist. -/
theorem mem_snapshotLoop {allServices : List String} :
    ∀ {services : List ServiceDns} {snapshot res : List (String × List String)},
      runE reliable (snapshotLoop allServices services snapshot) w = (.ok res, w') →
      w' = w ∧ ∀ name servers, (name, servers) ∈ res ↔ (name, servers) ∈ snapshot ∨
        name ∈ services.map ServiceDns.name ∧ name ∈ allServices ∧ findServers w.table name = .ok servers
  | [], snapshot, res, h => by
    cases h
    exact ⟨rfl, by simp⟩
  | service :: services, snapshot, res, h => by
    unfold snapshotLoop at h
    split at h
    · rename_i hexists
      obtain ⟨found, w1, h1, h⟩ := runE_bind_eq_ok h
      obtain ⟨hfound, rfl⟩ := Prod.mk.inj h1
      obtain ⟨hw, hmem⟩ := mem_snapshotLoop h
      refine ⟨hw, fun name servers => ?_⟩
      rw [hmem, List.mem_append, List.mem_singleton, List.map_cons, List.mem_cons, or_assoc]
      refine or_congr_right ⟨?_, ?_⟩
      · rintro (hentry | ⟨hs, hrest⟩)
        · cases hentry
          exact ⟨.inl rfl, by simpa using hexists, hfound⟩
        · exact ⟨.inr hs, hrest⟩
      · rintro ⟨rfl | hs, hin, hlist⟩
        · have hfound' : findServers w.table service.name = .ok found := hfound
          rw [hfound'] at hlist
          cases hlist
          exact .inl rfl
        · exact .inr ⟨hs, hin, hlist⟩
    · rename_i hgone
      obtain ⟨hw, hmem⟩ := mem_snapshotLoop h
      refine ⟨hw, fun name servers => ?_⟩
      rw [hmem, List.map_cons, List.mem_cons]
      refine or_congr_right ⟨fun h => ⟨.inr h.1, h.2⟩, ?_⟩
      rintro ⟨rfl | hs, hin, hlist⟩
      · exact absurd (by simpa using hin) hgone
      · exact ⟨hs, hin, hlist⟩

/-- Every drifted service that exists is pointed at the address. -/
theorem runE_reassertServices {expected : String} :
    ∀ {names : List String} (switched errors : List String) {table : List Service} {w : World},
      w.table = switchTable expected switched table → (∀ name ∈ names, name ∈ table.map Service.name) →
      runE reliable (reassertServices expected names errors) w =
        (.ok errors, { w with table := switchTable expected (switched ++ names) table })
  | [], switched, errors, table, w, ht, _ => by
    rw [List.append_nil, ← ht]
    rfl
  | name :: names, switched, errors, table, w, ht, hmem => by
    have hname : name ∈ w.table.map Service.name := by
      rw [ht, switchTable_names]
      exact hmem name (List.mem_cons_self ..)
    unfold reassertServices
    rw [runE_bind_ok _ (runE_attempt _ w), runE_setDnsServers_ok hname]
    simp only
    rw [ht, setServers_switchTable, runE_reassertServices (switched ++ [name]) errors rfl fun other ho =>
      hmem other (List.mem_cons_of_mem _ ho), List.append_assoc]
    rfl

theorem mem_drifted {current : List (String × List String)} {expected name : String} :
    name ∈ servicesNeedingReassert current expected ↔ ∃ servers, (name, servers) ∈ current ∧ servers ≠ [expected] := by
  simp [servicesNeedingReassert]

/-- The backup a tick prepared knows the services it knew before, and every one whose list was read. -/
theorem prepared_names {newServices : List (String × List String)} {expected : String} {mid : Backup} {added : Bool}
    (h : addNewServiceSnapshots P expected newServices backup false = .ok (mid, added)) (name : String)
    (hname : name ∈ backup.names ∨ name ∈ newServices.map Prod.fst) : name ∈ (recordTakeover server mid).1.names := by
  obtain ⟨hx, -, -, hmem⟩ := addNewServiceSnapshots_extends h
  show name ∈ (recordTakeover server mid).1.services.map ServiceDns.name
  rw [(recordTakeover_ok server mid).2.1]
  rcases hname with hold | hnew
  · exact (hx.services.map ServiceDns.name).subset hold
  · obtain ⟨entry, hentry, rfl⟩ := List.mem_map.1 hnew
    exact hmem entry hentry

/-- After the snapshot a saved service that exists lists exactly the address, or it drifted; and only
services that exist drift. -/
theorem snapshot_drifted {current : List (String × List String)} (expected : String) (hp : Persisted P w.disk backup)
    (h : runE reliable (serviceDnsSnapshot P) w = (.ok current, w')) :
    w' = w ∧ (∀ name ∈ servicesNeedingReassert current expected, name ∈ w.table.map Service.name) ∧
      ∀ name ∈ backup.names, name ∈ w.table.map Service.name →
        findServers w.table name = .ok [expected] ∨ name ∈ servicesNeedingReassert current expected := by
  unfold serviceDnsSnapshot at h
  rw [runE_bind_ok _ (runE_readBackup hp), runE_bind_ok _ runE_listAllServices] at h
  obtain ⟨hw, hcurrent⟩ := mem_snapshotLoop h
  refine ⟨hw, fun name hname => ?_, fun name hname hexists => ?_⟩
  · obtain ⟨servers, hentry, -⟩ := mem_drifted.1 hname
    exact ((hcurrent name servers).1 hentry).elim (fun hnil => absurd hnil List.not_mem_nil) fun hs => hs.2.1
  · obtain ⟨s, -, -, hf⟩ := exists_findServers hexists
    by_cases hsame : s.servers = [expected]
    · exact .inl (by rw [hf, hsame])
    · exact .inr (mem_drifted.2 ⟨s.servers, (hcurrent name s.servers).2 (.inr ⟨hname, hexists, hf⟩), hsame⟩)

/-- Pointing the drifted services at the address settles the world. -/
theorem Settled.of_switched {drifted : List String} {table : List Service} {disk : Disk}
    {effective : Except String (List SocketAddr)} (hp : Persisted P disk backup) (hm : disk.marker = true)
    (hhist : ∀ h, backup.takeoverServers = some h → server ∈ h)
    (henabled : ∀ s ∈ table, s.enabled = true → s.name ∈ backup.names)
    (hlist : ∀ name ∈ backup.names, name ∈ table.map Service.name →
      findServers table name = .ok [server.display] ∨ name ∈ drifted) :
    Settled P server ⟨disk, switchTable server.display drifted table, effective⟩ backup := by
  refine ⟨hp, hm, hhist, fun s hs he => ?_, fun name hname hexists => ?_⟩
  · obtain ⟨s0, hs0, rfl⟩ := List.mem_map.1 hs
    by_cases hd : s0.name ∈ drifted
    · rw [if_pos hd] at he ⊢
      exact henabled s0 hs0 he
    · rw [if_neg hd] at he ⊢
      exact henabled s0 hs0 he
  · rw [switchTable_names] at hexists
    obtain ⟨s, -, -, hf⟩ := exists_findServers hexists
    show findServers (switchTable server.display drifted table) name = _
    rw [findServers_switchTable]
    rcases hlist name hname hexists with hok | hdrift
    · rw [hok]
      simp [Except.map]
    · rw [hf]
      simp [Except.map, hdrift]

/-- A tick that found both files and succeeded leaves the world settled. -/
theorem tick_settles {outcome : TickOutcome} (h : runE reliable (watchdogTick P server) w = (.ok outcome, w'))
    (hactive : outcome ≠ .notActive) : ∃ backup, Settled P server w' backup := by
  unfold watchdogTick at h
  rw [runE_bind_ok _ runE_lock, runE_bind_ok _ runE_backupExists] at h
  replace h := runE_bind_eq_ok h
  obtain ⟨active, w0, h0, h⟩ := h
  have hmarker : w0 = w ∧ (active = true → w.disk.marker = true) := by
    cases hb : w.disk.backup.isSome with
    | true =>
      rw [hb] at h0
      cases h0
      exact ⟨rfl, id⟩
    | false =>
      rw [hb] at h0
      cases h0
      exact ⟨rfl, fun hf => by cases hf⟩
  obtain ⟨rfl, hm⟩ := hmarker
  split at h
  · rename_i hon
    replace h := runE_bind_eq_ok h
    obtain ⟨backup, w1, h1, h⟩ := h
    obtain ⟨rfl, hb⟩ := runE_readBackup_ok h1
    rw [runE_bind_ok _ runE_listServices] at h
    replace h := runE_bind_eq_ok h
    obtain ⟨newServices, w2, h2, h⟩ := h
    obtain ⟨rfl, -, hnew⟩ := newServiceLists_names h2
    replace h := runE_bind_eq_ok h
    obtain ⟨backup', w3, h3, h⟩ := h
    obtain ⟨hp, hmk, htable, mid, added, hadd, rfl⟩ := runE_prepareWatchdogBackup hb h3
    obtain ⟨-, -, hhist, -⟩ := recordTakeover_ok server mid
    rw [hm hon] at hmk
    -- the enabled services are in the backup that is now on disk
    have henabled : ∀ s ∈ w3.table, s.enabled = true → s.name ∈ (recordTakeover server mid).1.names := by
      intro s hs he
      rw [htable] at hs
      exact prepared_names hadd s.name (hnew s.name (List.mem_map_of_mem (List.mem_filter.2 ⟨hs, he⟩)))
    replace h := runE_bind_eq_ok h
    obtain ⟨current, w4, h4, h⟩ := h
    obtain ⟨rfl, hexist, hlist⟩ := snapshot_drifted server.display hp h4
    rw [runE_bind_ok (t := w4) (a := w4.effective) _ (by rw [runE_attempt]; rfl)] at h
    split at h
    · rename_i hnone
      cases h
      have hsettled : Settled P server ⟨w'.disk, switchTable server.display
        (servicesNeedingReassert current server.display)
          w'.table, w'.effective⟩ _ := .of_switched hp hmk hhist henabled hlist
      rw [List.isEmpty_iff.1 hnone, switchTable_nil] at hsettled
      exact ⟨_, hsettled⟩
    · rw [runE_bind_ok _ (runE_reassertServices [] [] (switchTable_nil _ _).symm hexist),
        runE_bind_ok _ runE_flushCaches] at h
      cases h
      exact ⟨_, Settled.of_switched hp hmk hhist henabled hlist⟩
  · cases h
    exact absurd rfl hactive

/-! ## What a settled world shows -/

/-- Ends with `a` and neither changes the world nor tries to write a file or a service. -/
abbrev Looks {α : Type} (x : Action α) (a : α) (w : World) : Prop := Observes reliable SysOp.Writes x a w

theorem looks_readBackup (h : Persisted P w.disk backup) : Looks (readBackup P) backup w :=
  observes_performE (by simp [SysOp.Writes]) rfl (congrArg Prod.fst (runE_readBackup h))

theorem looks_listServices : Looks listServices ((w.table.filter Service.enabled).map Service.name) w :=
  observes_performE (by simp [SysOp.Writes]) rfl rfl

theorem looks_listAllServices : Looks listAllServices (w.table.map Service.name) w :=
  observes_performE (by simp [SysOp.Writes]) rfl rfl

theorem looks_getDnsServers {name : String} {servers : List String} (h : findServers w.table name = .ok servers) :
    Looks (getDnsServers name) servers w :=
  observes_performE (by simp [SysOp.Writes]) rfl h

theorem newServiceLists_known {known : List String} :
    ∀ {names : List String} (found : List (String × List String)), (∀ name ∈ names, name ∈ known) →
      newServiceLists known names found = pure found
  | [], _, _ => rfl
  | name :: names, found, h => by
    unfold newServiceLists
    rw [if_pos (by simpa using h name (List.mem_cons_self ..)),
      newServiceLists_known found fun other ho => h other (List.mem_cons_of_mem _ ho)]

/-- Without new services and with the address recorded there is nothing to persist. -/
theorem prepareWatchdogBackup_nil (h : ∀ hist, backup.takeoverServers = some hist → server ∈ hist) :
    prepareWatchdogBackup P backup [] server = pure backup := by
  have hrecord : recordTakeover server backup = (backup, false) := by
    unfold recordTakeover
    cases ht : backup.takeoverServers with
    | none => rfl
    | some takeovers =>
      simp only
      rw [if_pos (by simpa using h takeovers ht)]
  unfold prepareWatchdogBackup
  simp only [addNewServiceSnapshots, hrecord, Bool.or_self, Bool.false_eq_true, if_false]

theorem looks_snapshotLoop {allServices : List String} {expected : String} :
    ∀ {services : List ServiceDns} {snapshot : List (String × List String)},
      (∀ service ∈ services, service.name ∈ allServices → findServers w.table service.name = .ok [expected]) →
      (∀ entry ∈ snapshot, entry.2 = [expected]) →
      ∃ res, Looks (snapshotLoop allServices services snapshot) res w ∧ ∀ entry ∈ res, entry.2 = [expected]
  | [], snapshot, _, hs => ⟨snapshot, observes_pure _ _, hs⟩
  | service :: services, snapshot, h, hs => by
    have hrest := fun s hmem => h s (List.mem_cons_of_mem service hmem)
    unfold snapshotLoop
    split
    · rename_i hexists
      have hget := h service (List.mem_cons_self ..) (by simpa using hexists)
      have hs' : ∀ entry ∈ snapshot ++ [(service.name, [expected])], entry.2 = [expected] :=
        List.forall_mem_append.2 ⟨hs, List.forall_mem_singleton.2 rfl⟩
      obtain ⟨res, hlooks, hres⟩ := looks_snapshotLoop hrest hs'
      exact ⟨res, (looks_getDnsServers hget).bind hlooks, hres⟩
    · exact looks_snapshotLoop hrest hs

/-- From a settled world the next tick is clean and only looks. -/
theorem Settled.tick (h : Settled P server w backup) :
    Looks (watchdogTick P server) (.ofClean (captureRuntimeFallback w.effective server)) w := by
  have hsome : w.disk.backup.isSome = true := by
    obtain ⟨text, ht, -⟩ := h.persisted
    rw [ht]; rfl
  have henabled : ∀ name ∈ (w.table.filter Service.enabled).map Service.name,
      name ∈ backup.services.map ServiceDns.name := by
    intro name hname
    obtain ⟨s, hs, rfl⟩ := List.mem_map.1 hname
    obtain ⟨hs, he⟩ := List.mem_filter.1 hs
    exact h.enabled s hs he
  have hlist : ∀ service ∈ backup.services, service.name ∈ w.table.map Service.name →
      findServers w.table service.name = .ok [server.display] :=
    fun service hs hexists => h.listed service.name (List.mem_map_of_mem hs) hexists
  obtain ⟨current, hcurrent, hall⟩ := looks_snapshotLoop hlist (List.forall_mem_nil _)
  have hclean : (servicesNeedingReassert current server.display).isEmpty = true := by
    rw [List.isEmpty_iff, List.eq_nil_iff_forall_not_mem]
    intro name hname
    obtain ⟨servers, hentry, hne⟩ := mem_drifted.1 hname
    exact hne (hall _ hentry)
  unfold watchdogTick
  refine .bind (a := ()) (observes_performE (by simp [SysOp.Writes]) rfl rfl) ?_
  refine .bind (a := true) (observes_performE (by simp [SysOp.Writes]) rfl (by simp [reliable, hsome])) ?_
  refine .bind (a := true) (observes_performE (by simp [SysOp.Writes]) rfl (by simp [reliable, h.marker])) ?_
  apply Observes.bind (looks_readBackup h.persisted)
  apply Observes.bind looks_listServices
  rw [newServiceLists_known [] henabled]
  apply Observes.bind (observes_pure [] w)
  rw [prepareWatchdogBackup_nil h.history]
  apply Observes.bind (observes_pure backup w)
  refine .bind (.bind (looks_readBackup h.persisted) (.bind looks_listAllServices hcurrent)) ?_
  refine .bind (observes_attempt_performE (by simp [SysOp.Writes]) rfl) ?_
  rw [if_pos hclean]
  exact observes_pure _ w

/-- The loop of the restart check passes every service, and counts those in the backup. -/
theorem looks_intactLoop {expected : String} {enabled : List String} (hlist : ∀ name ∈ backup.names,
      name ∈ w.table.map Service.name → findServers w.table name = .ok [expected])
    (hquiet : ∀ name ∉ backup.names, ∀ servers, findServers w.table name = .ok servers →
      enabled.contains name = false ∧ dnsMayDependOnTakeover P backup name servers = false) :
    ∀ {names : List String} (checked : Bool), (∀ name ∈ names, name ∈ w.table.map Service.name) →
      Looks (intactLoop P backup expected enabled getDnsServers names checked)
        (checked || names.any fun name => backup.services.any fun service => service.name = name) w
  | [], checked, _ => by
    rw [List.any_nil, Bool.or_false]
    exact observes_pure checked w
  | name :: names, checked, hnames => by
    have hrest : ∀ x ∈ names, x ∈ w.table.map Service.name := fun x hx => hnames x (List.mem_cons_of_mem _ hx)
    have hexists := hnames name (List.mem_cons_self ..)
    have hiff : (backup.services.any fun service => service.name = name) = true ↔ name ∈ backup.names := by
      simp [Backup.names]
    unfold intactLoop
    by_cases hknown : name ∈ backup.names
    · refine .bind (looks_getDnsServers (hlist name hknown hexists)) ?_
      simp only [hiff.2 hknown, Bool.true_or, if_true, ne_eq, not_true_eq_false, if_false]
      have := looks_intactLoop hlist hquiet true hrest
      simpa [hiff.2 hknown] using this
    · obtain ⟨s, -, -, hf⟩ := exists_findServers hexists
      obtain ⟨henabled, hdep⟩ := hquiet name hknown s.servers hf
      have hunknown : (backup.services.any fun service => service.name = name) = false := by
        rw [Bool.eq_false_iff]
        exact fun ht => hknown (hiff.1 ht)
      refine .bind (looks_getDnsServers hf) ?_
      simp only [hunknown, henabled, hdep, Bool.or_self, Bool.false_eq_true, if_false]
      have := looks_intactLoop hlist hquiet checked hrest
      simpa [hunknown] using this

/-- From a settled world the restart check passes, provided it has a saved service to check and no disabled
one outside the backup may depend on the takeover. -/
theorem Settled.intact (h : Settled P server w backup) (hsome : ∃ s ∈ w.table, s.name ∈ backup.names)
    (hdisabled : ∀ s ∈ w.table, s.enabled = false → s.name ∉ backup.names →
      dnsMayDependOnTakeover P backup s.name s.servers = false) : Looks (takeoverIntact P server) true w := by
  have hquiet : ∀ name ∉ backup.names, ∀ servers, findServers w.table name = .ok servers →
      ((w.table.filter Service.enabled).map Service.name).contains name = false ∧
        dnsMayDependOnTakeover P backup name servers = false := by
    intro name hname servers hf
    have hoff : ∀ s ∈ w.table, s.name = name → s.enabled = false := by
      rintro s hs rfl
      by_contra he
      exact hname (h.enabled s hs (by simpa using he))
    constructor
    · rw [Bool.eq_false_iff]
      intro hin
      obtain ⟨s, hs, hsn⟩ := List.mem_map.1 (List.contains_iff_mem.1 hin)
      obtain ⟨hs, he⟩ := List.mem_filter.1 hs
      rw [hoff s hs hsn] at he; cases he
    · have hexists : name ∈ w.table.map Service.name := by
        unfold findServers at hf
        split at hf
        · rename_i s hs
          exact List.mem_map.2 ⟨s, List.mem_of_find?_eq_some hs, by simpa using List.find?_some hs⟩
        · cases hf
      obtain ⟨s, hs, hsn, hfs⟩ := exists_findServers hexists
      rw [hf] at hfs
      cases hfs
      subst hsn
      exact hdisabled s hs (hoff s hs rfl) hname
  have hloop := looks_intactLoop h.listed hquiet false fun _ (hn : _ ∈ w.table.map Service.name) => hn
  have hchecked : (false || (w.table.map Service.name).any fun name =>
      backup.services.any fun service => service.name = name) = true := by
    obtain ⟨s, hs, hname⟩ := hsome
    obtain ⟨service, hservice, hsn⟩ := List.mem_map.1 hname
    rw [Bool.false_or, List.any_eq_true]
    refine ⟨s.name, List.mem_map_of_mem hs, List.any_eq_true.2 ⟨service, hservice, ?_⟩⟩
    simpa using hsn
  rw [hchecked] at hloop
  exact .bind (looks_readBackup h.persisted) (.bind looks_listServices (.bind looks_listAllServices hloop))

/-- What `scutil` reports plays no part. -/
theorem Settled.withEffective (h : Settled P server w backup) (effective : Except String (List SocketAddr)) :
    Settled P server { w with effective } backup := ⟨h.persisted, h.marker, h.history, h.enabled, h.listed⟩

/-! ## Convergence -/

/-- After a tick that was clean or reasserted, whatever backup and table it found, the next one with the
same address is clean and only looks, and so does the restart check, which passes: unless no service is
in the stored backup, or a disabled one outside it may depend on the takeover. -/
theorem watchdog_converges (P : Platform) (server : IpAddr) (w w' : World) (outcome : TickOutcome)
    (h : runE reliable (watchdogTick P server) w = (.ok outcome, w')) (hactive : outcome ≠ .notActive) :
    ∃ backup, Persisted P w'.disk backup ∧
      ∀ effective : Except String (List SocketAddr),
        Looks (watchdogTick P server) (.ofClean (captureRuntimeFallback effective server)) { w' with effective } ∧
        ((∃ s ∈ w'.table, s.name ∈ backup.names) →
          (∀ s ∈ w'.table, s.enabled = false → s.name ∉ backup.names →
            dnsMayDependOnTakeover P backup s.name s.servers = false) →
          Looks (takeoverIntact P server) true { w' with effective }) := by
  obtain ⟨backup, hsettled⟩ := tick_settles h hactive
  refine ⟨backup, hsettled.persisted, fun effective => ⟨?_, fun hsome hdisabled => ?_⟩⟩
  · exact (hsettled.withEffective effective).tick
  · exact (hsettled.withEffective effective).intact hsome hdisabled

/-- A backup that knows one of two enabled services, and the one a tick makes of it. -/
def firstBackup : Backup := ⟨2, [⟨"Wi-Fi", ["8.8.8.8"]⟩], [], some [.v4 ⟨127, 0, 0, 1⟩]⟩

def grownBackup : Backup := { firstBackup with services := firstBackup.services ++ [⟨"Ethernet", ["9.9.9.9"]⟩] }

def growingPlatform : Platform :=
  ⟨.ofTable [(firstBackup, "services = 1"), (grownBackup, "services = 2")] (by decide), fun _ => .error "ENXIO"⟩

/-- Wi-Fi drifted, Ethernet is new, and a disabled service has a resolver of its own. -/
def driftedWorld : World :=
  ⟨⟨some "services = 1", true⟩, [⟨"Wi-Fi", true, ["8.8.8.8"]⟩, ⟨"Ethernet", true, ["9.9.9.9"]⟩,
    ⟨"Bridge", false, ["1.1.1.1"]⟩],
    .ok []⟩

def driftedTick : Except String TickOutcome × World :=
  runE reliable (watchdogTick growingPlatform (.v4 ⟨127, 0, 0, 1⟩)) driftedWorld

theorem driftedTick_ok : driftedTick = (.ok (.reasserted ["Wi-Fi", "Ethernet"] []
    (some "macOS exposed no non-loopback global DNS server while the takeover was active")),
      ⟨⟨some "services = 2", true⟩, [⟨"Wi-Fi", true, ["127.0.0.1"]⟩, ⟨"Ethernet", true, ["127.0.0.1"]⟩,
        ⟨"Bridge", false, ["1.1.1.1"]⟩],
        .ok []⟩) := by
  rfl

theorem watchdog_converges_grown :
    Looks (watchdogTick growingPlatform (.v4 ⟨127, 0, 0, 1⟩)) (.clean (some [.v4 ⟨9, 9, 9, 9⟩ 53]) none)
      { driftedTick.2 with effective := .ok [.v4 ⟨9, 9, 9, 9⟩ 53] } ∧
    Looks (takeoverIntact growingPlatform (.v4 ⟨127, 0, 0, 1⟩)) true
      { driftedTick.2 with effective := .ok [.v4 ⟨9, 9, 9, 9⟩ 53] } := by
  obtain ⟨backup, hp, hnext⟩ := watchdog_converges growingPlatform (.v4 ⟨127, 0, 0, 1⟩) driftedWorld _ _ driftedTick_ok
    (by simp)
  have hgrown : Persisted growingPlatform ⟨some "services = 2", true⟩ grownBackup := ⟨"services = 2", rfl, by rfl⟩
  rw [hp.unique hgrown] at hnext
  obtain ⟨htick, hintact⟩ := hnext (.ok [.v4 ⟨9, 9, 9, 9⟩ 53])
  rw [driftedTick_ok]
  refine ⟨htick, hintact ⟨⟨"Wi-Fi", true, ["127.0.0.1"]⟩, by simp, by decide⟩ ?_⟩
  intro s hs he hn
  simp only [List.mem_cons, List.not_mem_nil, or_false] at hs
  rcases hs with rfl | rfl | rfl
  · cases he
  · cases he
  · decide +kernel

end DNSRivet.OsDns
