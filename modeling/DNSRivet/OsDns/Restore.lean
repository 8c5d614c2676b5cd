/-
`restore_at` discards the backup only when that is safe, whatever the list, get and set operations answer. The
record of its calls is exact: a restoration that succeeds read the backup, listed the services, set the saved list of
each backed-up service it found, listed the services again, read the list of each of these, and then removed the
file; one that fails left the file alone.
-/
import DNSRivet.OsDns.Journal

namespace DNSRivet.OsDns

open DNSRivet.Base DNSRivet.Net Prog

/-- Elements of two lists in a relation have partners. -/
theorem forall₂_partners {α β : Type} {R : α → β → Prop} {as : List α} {bs : List β} (h : List.Forall₂ R as bs) :
    (∀ a ∈ as, ∃ b ∈ bs, R a b) ∧ ∀ b ∈ bs, ∃ a ∈ as, R a b := by
  induction h with
  | nil => simp
  | cons hr _ ih =>
    constructor
    · rintro a (_ | ⟨_, ha⟩)
      · exact ⟨_, List.mem_cons_self, hr⟩
      · obtain ⟨b, hb, hr⟩ := ih.1 a ha
        exact ⟨b, List.mem_cons_of_mem _ hb, hr⟩
    · rintro b (_ | ⟨_, hb⟩)
      · exact ⟨_, List.mem_cons_self, hr⟩
      · obtain ⟨a, ha, hr⟩ := ih.2 b hb
        exact ⟨a, List.mem_cons_of_mem _ ha, hr⟩

/-- A call of the system and its answer. -/
abbrev SysCall := Exchange SysOp SysOp.Reply

/-- The sets of the backed-up services that a listing has, all successful. -/
def restoringSets (backup : Backup) (names : List String) : List SysCall :=
  (backup.services.filter fun service => names.contains service.name).map fun service =>
    ⟨.setDnsServers service.name service.servers, .ok ()⟩

variable (P : Platform)

/-- The call read the service's list, which does not depend on the takeover. -/
def ReadsIndependent (backup : Backup) (name : String) (call : SysCall) : Prop :=
  ∃ servers, call = ⟨.getDnsServers name, .ok servers⟩ ∧ dnsMayDependOnTakeover P backup name servers = false

/-- The calls of a restoration that discards the backup, which `first` and `second` were listed by. -/
def DiscardingCalls (backup : Backup) (text : String) (first second : List String) (log : List SysCall) : Prop :=
  ∃ gets, List.Forall₂ (ReadsIndependent P backup) second gets ∧
    log = [⟨.readBackupFile, .ok text⟩, ⟨.listAllServices, .ok first⟩] ++ restoringSets backup first ++
      [⟨.listAllServices, .ok second⟩] ++ gets ++ [⟨.removeBackup, .ok ()⟩]

/-- Why the backup may go: every saved list of a service of the first listing was set, every service of the second
one was read, and no list read depends on the takeover. -/
structure SafeToDiscard (backup : Backup) (first second : List String) (log : List SysCall) : Prop where
  restored : ∀ service ∈ backup.services, service.name ∈ first →
    ⟨.setDnsServers service.name service.servers, .ok ()⟩ ∈ log
  verified : ∀ name ∈ second, ∃ servers, ⟨.getDnsServers name, .ok servers⟩ ∈ log
  independent : ∀ name servers, ⟨.getDnsServers name, .ok servers⟩ ∈ log →
    dnsMayDependOnTakeover P backup name servers = false

/-- Whatever the operations answer, started with the calls `s.2` made, the action ends in `Q` or in `E`. -/
abbrev Recorded {α : Type} (x : Action α) (s : Disk × List SysCall) (Q : α → Disk × List SysCall → Prop)
    (E : String → Disk × List SysCall → Prop) : Prop :=
  SatE (.free _ SysOp) (recorded diskStep) x s Q E

variable {P} {d : Disk} {log : List SysCall} {backup : Backup}

/-! ## The loops -/

/-- The loop over the backed-up services: no errors means that every set succeeded. -/
theorem recorded_restoreServices (current : List String) : ∀ (services : List ServiceDns) (errors : List String)
    (log : List SysCall),
    Recorded (restoreServices current services errors) (d, log)
      (fun errors' s => ∃ sets, s = (d, log ++ sets) ∧ (errors' = [] → errors = [] ∧
        sets = (services.filter fun service => current.contains service.name).map fun service =>
          ⟨.setDnsServers service.name service.servers, .ok ()⟩)) fun _ _ => False
  | [], errors, log => satE_pure ⟨[], by simp, fun h => ⟨h, rfl⟩⟩
  | service :: services, errors, log => by
    rw [restoreServices]
    by_cases hc : current.contains service.name
    · rw [if_pos hc]
      apply satE_bind
      apply satE_attempt
      apply satE_recorded
      intro r d' hd
      rw [show d' = d from hd]
      cases r with
      | ok u =>
        refine (recorded_restoreServices current services errors _).mono ?_ fun _ _ h => h
        rintro errors' s ⟨sets, rfl, hsets⟩
        refine ⟨⟨.setDnsServers service.name service.servers, .ok u⟩ :: sets, by simp, fun h => ⟨(hsets h).1, ?_⟩⟩
        rw [List.filter_cons, if_pos hc, List.map_cons, (hsets h).2]
      | error e =>
        refine (recorded_restoreServices current services (errors ++ [e]) _).mono ?_ fun _ _ h => h
        rintro errors' s ⟨sets, rfl, hsets⟩
        exact ⟨⟨.setDnsServers service.name service.servers, .error e⟩ :: sets, by simp,
          fun h => absurd (hsets h).1 (by simp)⟩
    · rw [if_neg hc]
      simp only [List.filter_cons, if_neg hc]
      exact recorded_restoreServices current services errors log

/-- The loop over the second listing: no errors means that every list was read and is independent. -/
theorem recorded_verifyServices (backup : Backup) : ∀ (names : List String) (errors : List String)
    (log : List SysCall),
    Recorded (verifyServices P backup names errors) (d, log)
      (fun errors' s => ∃ gets, s = (d, log ++ gets) ∧
        (errors' = [] → errors = [] ∧ List.Forall₂ (ReadsIndependent P backup) names gets)) fun _ _ => False
  | [], errors, log => satE_pure ⟨[], by simp, fun h => ⟨h, .nil⟩⟩
  | name :: names, errors, log => by
    rw [verifyServices]
    apply satE_bind
    apply satE_attempt
    apply satE_recorded
    intro r d' hd
    rw [show d' = d from hd]
    cases r with
    | ok servers =>
      show Recorded (if dnsMayDependOnTakeover P backup name servers = true then _ else _) _ _ _
      by_cases hdep : dnsMayDependOnTakeover P backup name servers = true
      · rw [if_pos hdep]
        refine (recorded_verifyServices backup names _ _).mono ?_ fun _ _ h => h
        rintro errors' s ⟨gets, rfl, hgets⟩
        exact ⟨⟨.getDnsServers name, .ok servers⟩ :: gets, by simp, fun h => absurd (hgets h).1 (by simp)⟩
      · rw [if_neg hdep]
        refine (recorded_verifyServices backup names _ _).mono ?_ fun _ _ h => h
        rintro errors' s ⟨gets, rfl, hgets⟩
        exact ⟨⟨.getDnsServers name, .ok servers⟩ :: gets, by simp,
          fun h => ⟨(hgets h).1, .cons ⟨servers, rfl, by simpa using hdep⟩ (hgets h).2⟩⟩
    | error e =>
      refine (recorded_verifyServices backup names (errors ++ [e]) _).mono ?_ fun _ _ h => h
      rintro errors' s ⟨gets, rfl, hgets⟩
      exact ⟨⟨.getDnsServers name, .error e⟩ :: gets, by simp, fun h => absurd (hgets h).1 (by simp)⟩

/-! ## The operation -/

theorem recorded_readBackup (d : Disk) (log : List SysCall) :
    Recorded (readBackup P) (d, log)
      (fun backup s => ∃ text, d.backup = some text ∧ P.toml.fromStr text = .ok backup ∧
        s = (d, log ++ [⟨.readBackupFile, .ok text⟩])) fun _ s => s.1 = d := by
  apply satE_recorded
  rintro r d' ⟨hd, htext⟩
  rw [hd]
  cases r with
  | error e => rfl
  | ok text =>
    dsimp only
    cases hfrom : P.toml.fromStr text with
    | error e => rfl
    | ok backup => exact ⟨text, htext text rfl, hfrom, rfl⟩

theorem recorded_listAllServices (d : Disk) (log : List SysCall) :
    Recorded listAllServices (d, log) (fun names s => s = (d, log ++ [⟨.listAllServices, .ok names⟩]))
      fun e s => s = (d, log ++ [⟨.listAllServices, .error e⟩]) := by
  apply satE_recorded
  intro r d' hd
  rw [show d' = d from hd]
  cases r with
  | ok names => rfl
  | error e => rfl

theorem recorded_attempt_listAllServices (d : Disk) (log : List SysCall) :
    Recorded (attempt listAllServices) (d, log) (fun listed s => s = (d, log ++ [⟨.listAllServices, listed⟩]))
      fun _ _ => False :=
  satE_attempt ((recorded_listAllServices d log).mono (fun _ _ h => h) fun _ _ h => h)

/-- Verification by the outcome of the second listing: no errors means that everything succeeded. -/
theorem recorded_verification (backup : Backup) (listed : Except String (List String)) (errors : List String) (d : Disk)
    (log : List SysCall) :
    Recorded
      (match listed with
        | .ok names => verifyServices P backup names errors
        | .error err => pure (errors ++ [err]))
      (d, log)
      (fun errors' s => s.1 = d ∧ (errors' = [] → errors = [] ∧ ∃ second gets, listed = .ok second ∧
        List.Forall₂ (ReadsIndependent P backup) second gets ∧ s.2 = log ++ gets)) fun _ _ => False := by
  cases listed with
  | error err => exact satE_pure ⟨rfl, fun h => absurd h (by simp)⟩
  | ok names =>
    refine (recorded_verifyServices backup names errors _).mono ?_ fun _ _ h => h
    rintro errors' s ⟨gets, rfl, hgets⟩
    exact ⟨rfl, fun h => ⟨(hgets h).1, names, gets, rfl, (hgets h).2, rfl⟩⟩

/-- A restoration made exactly the calls of `DiscardingCalls` with the backup of the file, or left the file alone. -/
theorem recorded_restoreAt (d : Disk) :
    Recorded (restoreAt P) (d, [])
      (fun _ s => ∃ backup text first second, d.backup = some text ∧ P.toml.fromStr text = .ok backup ∧
        DiscardingCalls P backup text first second s.2)
      fun _ s => s.1.backup = d.backup := by
  apply (recorded_readBackup d []).seq ?_ fun _ _ hd => congrArg Disk.backup hd
  rintro backup s ⟨text, htext, hfrom, rfl⟩
  by_cases hv : backup.version ≠ 1 ∧ backup.version ≠ 2
  · rw [if_pos hv]
    exact satE_throw rfl
  rw [if_neg hv]
  apply (recorded_listAllServices d _).seq ?_ fun _ _ hs => by rw [hs]
  rintro first s rfl
  apply (recorded_restoreServices first backup.services [] _).seq ?_ fun _ _ h => h.elim
  rintro errors s ⟨sets, rfl, hsets⟩
  apply (recorded_attempt_listAllServices d _).seq ?_ fun _ _ h => h.elim
  rintro listed s rfl
  apply (recorded_verification backup listed errors d _).seq ?_ fun _ _ h => h.elim
  rintro errors' ⟨d', log⟩ ⟨rfl, hgets⟩
  cases errors' with
  | cons e errors' => exact satE_throw rfl
  | nil =>
    obtain ⟨rfl, second, gets, rfl, hreads, rfl⟩ := hgets rfl
    obtain ⟨-, rfl⟩ := hsets rfl
    apply satE_recorded
    rintro r d' (⟨rfl, rfl⟩ | ⟨⟨e, rfl⟩, rfl⟩)
    · exact ⟨backup, text, first, second, htext, hfrom, gets, hreads, rfl⟩
    · rfl

/-- The calls of a restoration that discards the backup are enough to do so. -/
theorem DiscardingCalls.safe {text : String} {first second : List String}
    (h : DiscardingCalls P backup text first second log) : SafeToDiscard P backup first second log := by
  obtain ⟨gets, hreads, rfl⟩ := h
  constructor
  · intro service hs hfirst
    have hset : ⟨.setDnsServers service.name service.servers, .ok ()⟩ ∈ restoringSets backup first :=
      List.mem_map.2 ⟨service, List.mem_filter.2 ⟨hs, by simpa using hfirst⟩, rfl⟩
    simp [hset]
  · intro name hname
    obtain ⟨call, hcall, servers, rfl, -⟩ := (forall₂_partners hreads).1 name hname
    exact ⟨servers, by simp [hcall]⟩
  · intro name servers hmem
    have hget : ⟨.getDnsServers name, .ok servers⟩ ∈ gets := by
      simpa [restoringSets] using hmem
    obtain ⟨name', -, servers', heq, hind⟩ := (forall₂_partners hreads).2 _ hget
    cases heq
    exact hind

/-- Recovery data is discarded only when that is safe: a restoration that succeeds had set the saved list of every
backed-up service of the first listing, read every service of the second one, and seen no list that may depend on the
takeover; one that fails left the backup as it was. -/
theorem restoreAt_discards_safely (d : Disk) :
    Recorded (restoreAt P) (d, [])
      (fun _ s => ∃ backup text first second, d.backup = some text ∧ P.toml.fromStr text = .ok backup ∧
        DiscardingCalls P backup text first second s.2 ∧ SafeToDiscard P backup first second s.2)
      fun _ s => s.1.backup = d.backup := by
  apply (recorded_restoreAt d).mono ?_ fun _ _ h => h
  rintro _ s ⟨backup, text, first, second, htext, hfrom, hcalls⟩
  exact ⟨backup, text, first, second, htext, hfrom, hcalls, hcalls.safe⟩

end DNSRivet.OsDns
