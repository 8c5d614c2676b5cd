/-
The commands, one by one. Each is shown to check before every call, while any other processes run, and to leave what
it should if it succeeds: `start` a daemon that runs and a complete takeover, `stop` and `uninstall` neither, `restart`
a daemon that was started with what is installed. `RolledBack` is what a replacement of the configuration leaves that
did not work out.
-/
import DNSRivet.Service.Steps

namespace DNSRivet.Service

open DNSRivet.Base DNSRivet.Net Prog Discipline
open DNSRivet.OsDns (IoError Custody CustodyOk supportDir)

variable {S : ServicePlatform} {ι : Type} [DecidableEq ι] {i : ι} {s t u : Machine ι} {α β : Type}

/-! ## Changes of the job -/

variable (S) in
/-- The process set the job to `j`, and what was kept since. -/
def After (i : ι) (s : Machine ι) (j : Job) (t : Machine ι) : Prop := Holds S i t ∧ Kept { s with job := j } t

theorem safe_effect (h : Holds S i s) (command : Launchctl) (f : Job → Job) (action : String)
    (hpre : servicePre S.dns i s (.launchctl command))
    (hstep : ∀ r j, launchctlStep s.job command r j → effect f s.job r j) :
    SafeOn S i (performE (.launchctl command) fun o => checked o action) s (fun _ t => After S i s (f s.job) t)
      fun _ t => ∃ j, (j = f s.job ∨ j = s.job) ∧ After S i s j t := by
  refine h.job hpre ?_ ?_
  · exact fun _ _ hs => hs
  · intro r j t hj ht hk
    cases hr : checked r action with
    | error e => exact ⟨j, effect_or (hstep r j hj), ht, hk⟩
    | ok =>
      obtain ⟨o, rfl, ho⟩ := checked_ok hr
      rcases hstep _ j hj with rfl | ⟨hfailed, -⟩
      · exact ⟨ht, hk⟩
      · rw [hfailed o rfl] at ho
        cases ho

theorem safe_setEnabled (h : Holds S i s) (enabled : Bool) (hb : enabled = false → s.hasBackup = false) :
    SafeOn S i (setEnabled enabled) s (fun _ t => After S i s (s.job.setEnabled enabled) t)
      fun _ t => ∃ j, After S i s j t := by
  refine (safe_effect h (.setEnabled enabled) (Job.setEnabled enabled) _ ?_ fun _ _ hs => hs).mono
    (fun _ _ ht => ht) fun _ _ ht => ht.imp fun _ hj => hj.2
  cases enabled with
  | true => exact h.lifecycle
  | false => exact ⟨h.lifecycle, hb rfl⟩

theorem safe_bootstrap (h : Holds S i s) :
    SafeOn S i bootstrap s (fun _ t => After S i s s.job.bootstrap t) fun _ t => ∃ j, After S i s j t :=
  (safe_effect h .bootstrap Job.bootstrap _ h.lifecycle fun _ _ hs => hs).mono (fun _ _ ht => ht) fun _ _ ht =>
    ht.imp fun _ hj => hj.2

theorem safe_kickstart (h : Holds S i s) :
    SafeOn S i kickstart s (fun _ t => After S i s s.job.start t) fun _ t => Holds S i t ∧ Kept s t := by
  refine (safe_effect h .kickstart Job.start _ h.lifecycle fun _ _ hs => hs).mono (fun _ _ ht => ht) ?_
  rintro e t ⟨j, hj, ht, hk⟩
  refine ⟨ht, ?_, hk.backup, hk.marker⟩
  rcases hj with rfl | rfl
  · rcases hk.job with e | e
    · exact .inr e
    · exact .inr e
  · exact hk.job

/-- What stays when the job is stopped. -/
structure Stopped (S : ServicePlatform) (i : ι) (s t : Machine ι) : Prop where
  holds : Holds S i t
  backup : t.hasBackup = false
  loaded : t.job.loaded = false
  enabled : t.job.enabled = s.job.enabled
  plist : t.job.plist = s.job.plist
  config : t.job.config = s.job.config

theorem safe_bootout (h : Holds S i s) (hb : s.hasBackup = false) :
    SafeOn S i bootout s (fun _ t => Stopped S i s t) fun _ t => ∃ j, After S i s j t := by
  refine SatE.seq h.safe_isLoaded (fun loaded t ht => ?_) fun _ t ht => ⟨s.job, ht⟩
  obtain ⟨ht, hk, rfl⟩ := ht
  have hbt : t.hasBackup = false := hk.backup.trans hb
  split
  · have hout : SafeOn S i (performE (.launchctl .bootout) fun o => checked o "stop launchd service") t
        (fun _ u => After S i t t.job.bootout u) fun _ u => ∃ j, (j = t.job.bootout ∨ j = t.job) ∧ After S i t j u :=
      safe_effect ht .bootout Job.bootout _ ⟨ht.lifecycle, hbt⟩ fun _ _ hs => hs
    refine hout.seq (fun _ u hu => ?_) fun _ u hu => ?_
    · obtain ⟨hu, hku⟩ := hu
      exact satE_pure ⟨hu, hku.backup.trans hbt, hku.loaded, hku.enabled.trans hk.enabled, hku.plist.trans hk.plist,
        hku.config.trans hk.config⟩
    · obtain ⟨j, -, hu, hku⟩ := hu
      exact ⟨j, hu, hku.job, hku.backup.trans hk.backup, hku.marker.trans hk.marker⟩
  · rename_i hno
    refine satE_pure ⟨ht, hbt, ?_, hk.enabled, hk.plist, hk.config⟩
    rw [hk.loaded]
    simpa using hno

theorem safe_installs (h : Holds S i s) (op : ServiceOp) (f : Job → Job) (g : op.Reply → Except String Unit)
    (hpre : servicePre S.dns i s op)
    (hop : ∀ r t, serviceStep i s op r t → ∃ j, fileStep s.job op r j ∧ t = { s with job := j })
    (hstep : ∀ r j, fileStep s.job op r j → match g r with | .ok _ => j = f s.job | .error _ => j = s.job) :
    SafeOn S i (performE op g) s (fun _ t => After S i s (f s.job) t) fun _ t => Holds S i t ∧ Kept s t := by
  refine h.job hpre hop ?_
  intro r j t hj ht hk
  have := hstep r j hj
  cases hg : g r with
  | ok =>
    rw [hg] at this
    rw [this] at hk
    exact ⟨ht, hk⟩
  | error e =>
    rw [hg] at this
    rw [this] at hk
    exact ⟨ht, hk⟩

theorem orFail_installs {f : Job → Job} {j j' : Job} {r : Except String Unit} (context : String)
    (h : installs f j r j') :
    match orFail context r with
    | .ok _ => j' = f j
    | .error _ => j' = j := by
  rcases h with ⟨rfl, rfl⟩ | ⟨⟨e, rfl⟩, rfl⟩
  · rfl
  · rfl

theorem ignoreNotFound_removes {present : Bool} {f : Job → Job} {j j' : Job} {r : Except IoError Unit}
    (context : String)
    (hf : present = false → f j = j) (h : removes present f j r j') :
    match ignoreNotFound context r with
    | .ok _ => j' = f j
    | .error _ => j' = j := by
  rcases h with ⟨rfl, rfl⟩ | ⟨⟨e, rfl, he⟩, rfl⟩
  · rfl
  · by_cases hnf : e.notFound = true
    · simpa [ignoreNotFound, hnf] using (hf (he hnf)).symm
    · simp [ignoreNotFound, hnf]

theorem safe_writePlist (h : Holds S i s) (binary config : FilePath) :
    SafeOn S i (writePlist binary config) s (fun _ t => After S i s (s.job.setPlist true) t)
      fun _ t => Holds S i t ∧ Kept s t := by
  unfold writePlist
  split
  · exact satE_throw ⟨h, Kept.refl s⟩
  · refine safe_installs h (.installPlist _) (Job.setPlist true) _ h.lifecycle ?_ ?_
    · exact fun _ _ hs => hs
    · exact fun _ _ hs => orFail_installs _ hs

theorem safe_removePlist (h : Holds S i s) (hb : s.hasBackup = false) :
    SafeOn S i removePlist s (fun _ t => After S i s (s.job.setPlist false) t) fun _ t => Holds S i t ∧ Kept s t := by
  refine safe_installs h .removePlist (Job.setPlist false) _ ⟨h.lifecycle, hb⟩ ?_ ?_
  · exact fun _ _ hs => hs
  · intro r j hs
    exact ignoreNotFound_removes _ (fun hno => by rw [Job.setPlist, ← hno]) hs

theorem safe_removeInstalledBinary (h : Holds S i s) (hb : s.hasBackup = false) :
    SafeOn S i removeInstalledBinary s (fun _ t => After S i s (s.job.setBinary false) t)
      fun _ t => Holds S i t ∧ Kept s t := by
  refine safe_installs h .removeBinary (Job.setBinary false) _ ⟨h.lifecycle, hb⟩ ?_ ?_
  · exact fun _ _ hs => hs
  · intro r j hs
    exact ignoreNotFound_removes _ (fun hno => by rw [Job.setBinary, ← hno]) hs

theorem looks_createSupportDir : LooksOn S i createSupportDir := looks_op trivial

/-- The message of a configuration that could not be written. -/
def InstallFailed (e : String) : Prop :=
  ∃ err, e = "create support directory " ++ supportDir.display ++ ": " ++ err ∨
    e = "install config " ++ configPath.display ++ ": " ++ err

theorem orFail_error {α : Type} {message e : String} {r : Except String α} (h : orFail message r = .error e) :
    ∃ err, e = message ++ ": " ++ err := by
  cases r with
  | ok a => cases h
  | error err => exact ⟨err, (Except.error.inj h).symm⟩

variable (S) in
/-- The configuration `bytes` is installed; the takeover, and whether the daemon is loaded, are as they were. -/
structure Installed (i : ι) (s : Machine ι) (bytes : ByteArray) (t : Machine ι) : Prop where
  holds : Holds S i t
  backup : t.hasBackup = s.hasBackup
  marker : t.marker = s.marker
  loaded : t.job.loaded = s.job.loaded
  config : t.job.config = some bytes

omit [DecidableEq ι] in
theorem Installed.kept {bytes : ByteArray} (h : Installed S i s bytes t) (hu : Holds S i u) (hk : Kept t u) :
    Installed S i s bytes u :=
  ⟨hu, hk.backup.trans h.backup, hk.marker.trans h.marker, hk.loaded.trans h.loaded, hk.config.trans h.config⟩

omit [DecidableEq ι] in
theorem Installed.of_kept {bytes : ByteArray} (hk : Kept s t) (h : Installed S i t bytes u) :
    Installed S i s bytes u :=
  ⟨h.holds, h.backup.trans hk.backup, h.marker.trans hk.marker, h.loaded.trans hk.loaded, h.config⟩

omit [DecidableEq ι] in
theorem Installed.again {bytes bytes' : ByteArray} (h : Installed S i s bytes t) (h' : Installed S i t bytes' u) :
    Installed S i s bytes' u :=
  ⟨h'.holds, h'.backup.trans h.backup, h'.marker.trans h.marker, h'.loaded.trans h.loaded, h'.config⟩

theorem safe_writeConfig (h : Holds S i s) (bytes : ByteArray) :
    SafeOn S i (writeConfig bytes) s (fun _ t => Installed S i s bytes t)
      fun e t => Holds S i t ∧ Kept s t ∧ InstallFailed e := by
  have hdir : SafeOn S i createSupportDir s (fun _ t => Holds S i t ∧ Kept s t)
      fun e t => Holds S i t ∧ Kept s t ∧ InstallFailed e := by
    refine h.job ?_ ?_ ?_
    · trivial
    · exact fun _ _ hs => hs
    · rintro r j t rfl ht hk
      cases hr : orFail ("create support directory " ++ supportDir.display) r with
      | ok => exact ⟨ht, hk⟩
      | error e =>
        obtain ⟨err, rfl⟩ := orFail_error hr
        exact ⟨ht, hk, err, .inl rfl⟩
  refine hdir.seq (fun _ t ht => ?_) fun _ _ he => he
  obtain ⟨ht, hk⟩ := ht
  refine Holds.job ht ?_ ?_ ?_
  · exact ht.lifecycle
  · exact fun _ _ hs => hs
  · intro r j u hj hu hku
    have hor := orFail_installs ("install config " ++ configPath.display) hj
    cases hr : orFail ("install config " ++ configPath.display) r with
    | ok =>
      rw [hr] at hor
      rw [hor] at hku
      exact ⟨hu, hku.backup.trans hk.backup, hku.marker.trans hk.marker, hku.loaded.trans hk.loaded, hku.config⟩
    | error e =>
      obtain ⟨err, rfl⟩ := orFail_error hr
      rw [hr] at hor
      rw [hor] at hku
      exact ⟨hu, hk.trans hku, err, .inr rfl⟩

theorem safe_installBinary (h : Holds S i s) (source : FilePath) :
    SafeOn S i (installBinary source) s
      (fun _ t => Holds S i t ∧ t.hasBackup = s.hasBackup ∧ t.job.binary = true ∧ t.job.config = s.job.config ∧
        t.job.loaded = s.job.loaded)
      fun _ t => Holds S i t ∧ Kept s t := by
  refine h.next looks_createSupportDir (fun _ t ht hk => ?_) fun _ _ ht hk => ⟨ht, hk⟩
  have hopen : LooksOn S i (performE (.openExecutable source) (orFail ("read executable " ++ source.display))) :=
    looks_op trivial
  refine ht.next hopen (fun _ u hu hk' => ?_) fun _ _ hu hk' => ⟨hu, hk.trans hk'⟩
  have hinstall : SafeOn S i (performE (.installBinary source) (orFail ("install executable " ++ binaryPath.display))) u
      (fun _ v => After S i u (u.job.setBinary true) v) fun _ v => Holds S i v ∧ Kept u v := by
    refine safe_installs hu (.installBinary source) (Job.setBinary true) _ hu.lifecycle ?_ ?_
    · exact fun _ _ hs => hs
    · exact fun _ _ hs => orFail_installs _ hs
  have hsu := hk.trans hk'
  refine hinstall.mono (fun _ v hv => ?_) fun _ v hv => ⟨hv.1, hsu.trans hv.2⟩
  exact ⟨hv.1, hv.2.backup.trans hsu.backup, hv.2.binary, hv.2.config.trans hsu.config, hv.2.loaded.trans hsu.loaded⟩

/-! ## start -/

theorem safe_requireNotTakenOver (h : Holds S i s) :
    SafeOn S i requireNotTakenOver s (fun _ t => Holds S i t ∧ Kept s t ∧ t.hasBackup = false)
      fun _ t => Holds S i t ∧ Kept s t := by
  have hstate : SafeOn S i takeoverState s
      (fun state t => Holds S i t ∧ Kept s t ∧ (state = .notTakenOver → s.hasBackup = false))
      fun _ _ => False := by
    refine SatE.seq h.safe_backupExists (fun present t ht => ?_) fun _ _ he => he
    obtain ⟨ht, hk, rfl⟩ := ht
    have hmarker : SafeOn S i (dnsAction none OsDns.markerExists) t (fun _ u => Holds S i u ∧ Kept t u)
        fun _ _ => False := by
      have hpre : servicePre S.dns i t (.dns none .markerExists) := servicePre_neutral ⟨id, by decide⟩
      refine Discipline.safeE_performE ht.ok hpre ?_
      rintro r u v ⟨m, ⟨d, ⟨rfl, rfl⟩, rfl⟩, rfl⟩ hrely _
      exact ht.relies hrely
    refine hmarker.seq (fun marker u hu => ?_) fun _ _ he => he
    refine satE_pure ⟨hu.1, hk.trans hu.2, fun hstate => ?_⟩
    cases hb : s.hasBackup with
    | false => rfl
    | true =>
      rw [hb] at hstate
      cases marker <;> cases hstate
  refine hstate.seq (fun state t ht => ?_) fun _ _ he => he.elim
  obtain ⟨ht, hk, hnone⟩ := ht
  cases state with
  | notTakenOver => exact satE_pure ⟨ht, hk, hk.backup.trans (hnone rfl)⟩
  | _ => exact satE_throw ⟨ht, hk⟩

theorem safe_installConfig (h : Holds S i s) (explicit : Option FilePath) (generated : Option String) :
    SafeOn S i (installConfig S explicit generated) s
      (fun _ t => Holds S i t ∧ t.hasBackup = s.hasBackup ∧ t.job.config.isSome) fun _ _ => True := by
  have hwrite : ∀ (t : Machine ι) (bytes : ByteArray), Holds S i t → Kept s t →
      SafeOn S i (writeConfig bytes) t
        (fun _ u => Holds S i u ∧ u.hasBackup = s.hasBackup ∧ u.job.config.isSome) fun _ _ => True := by
    intro t bytes ht hk
    refine (safe_writeConfig ht bytes).mono (fun _ u hu => ?_) fun _ _ _ => trivial
    exact ⟨hu.holds, hu.backup.trans hk.backup, by rw [hu.config]; rfl⟩
  refine h.next (looks_configBytes explicit generated) (fun bytes t ht hk => ?_) fun _ _ _ _ => trivial
  cases bytes with
  | some bytes => exact hwrite t bytes ht hk
  | none =>
    have hpresent : SafeOn S i (performE (.isFile configPath) Except.ok) t
        (fun present u => Holds S i u ∧ Kept t u ∧ present = t.job.config.isSome) fun _ _ => False := by
      refine ht.job ?_ ?_ ?_
      · trivial
      · exact fun _ _ hs => hs
      · rintro r j u ⟨hr, rfl⟩ hu hku
        exact ⟨hu, hku, hr rfl⟩
    refine hpresent.seq (fun present u hu => ?_) fun _ _ he => he.elim
    obtain ⟨hu, hku, rfl⟩ := hu
    have hsu := hk.trans hku
    split
    · rename_i hsome
      exact satE_pure ⟨hu, hsu.backup, by rw [hku.config]; exact hsome⟩
    · have hlocal : LooksOn S i (performE (.isFile localConfig) Except.ok) := looks_op trivial
      refine hu.next hlocal (fun isLocal v hv hkv => ?_) fun _ _ _ _ => trivial
      have hsv := hsu.trans hkv
      split
      · have hread : LooksOn S i (performE (.readBytes localConfig) (orFail ("read config " ++ localConfig.display))) :=
          looks_op trivial
        refine hv.next hread (fun bytes w hw hkw => ?_) fun _ _ _ _ => trivial
        refine hw.next (looks_result _) (fun text x hx hkx => ?_) fun _ _ _ _ => trivial
        refine hx.next (looks_result _) (fun _ y hy hky => ?_) fun _ _ _ _ => trivial
        exact hwrite y bytes hy (((hsv.trans hkw).trans hkx).trans hky)
      · exact satE_throw trivial

/-- Everything that launchd needs is there, and there is no backup. -/
structure Prepared (S : ServicePlatform) (i : ι) (s : Machine ι) : Prop where
  holds : Holds S i s
  backup : s.hasBackup = false
  plist : s.job.plist = true
  binary : s.job.binary = true
  config : s.job.config.isSome

theorem safe_prepareStart (h : Holds S i s) (hb : s.hasBackup = false) (explicit : Option FilePath)
    (generated : Option String) :
    SafeOn S i (prepareStart S explicit generated) s (fun _ t => Prepared S i t) fun _ _ => True := by
  refine SatE.seq (safe_installConfig h explicit generated) (fun _ t ht => ?_) fun _ _ _ => trivial
  obtain ⟨ht, hbt, hct⟩ := ht
  refine ht.next (looks_loadConfig configPath) (fun loaded t1 h1 k1 => ?_) fun _ _ _ _ => trivial
  refine h1.next (looks_result _) (fun dnsIp t2 h2 k2 => ?_) fun _ _ _ _ => trivial
  refine h2.next (looks_preflightListeners _) (fun _ t3 h3 k3 => ?_) fun _ _ _ _ => trivial
  refine h3.next looks_currentBinary (fun current t4 h4 k4 => ?_) fun _ _ _ _ => trivial
  have k : Kept t t4 := ((k1.trans k2).trans k3).trans k4
  refine SatE.seq (safe_installBinary h4 current) (fun _ u hu => ?_) fun _ _ _ => trivial
  obtain ⟨hu, hbu, hbin, hcu, -⟩ := hu
  have hpid : LooksOn S i (performE .processId Except.ok) := looks_op trivial
  refine hu.next hpid (fun pid u1 h5 k5 => ?_) fun _ _ _ _ => trivial
  refine h5.next (looks_linkAction _) (fun _ u2 h6 k6 => ?_) fun _ _ _ _ => trivial
  refine SatE.seq (safe_writePlist h6 binaryPath configPath) (fun _ v hv => ?_) fun _ _ _ => trivial
  obtain ⟨hv, hkv⟩ := hv
  have hclose : LooksOn S i (performE .closeListeners Except.ok) := looks_op trivial
  refine hv.next hclose (fun _ w hw kw => ?_) fun _ _ _ _ => trivial
  have k' := k5.trans k6
  have hconfig : w.job.config = t.job.config := by
    rw [kw.config, hkv.config, show t.job.config = u2.job.config by rw [k'.config, hcu, k.config]]
    rfl
  refine satE_pure ⟨hw, ?_, ?_, ?_, by rw [hconfig]; exact hct⟩
  · rw [kw.backup, hkv.backup]
    exact (k'.backup.trans hbu).trans ((k.backup.trans hbt).trans hb)
  · rw [kw.plist, hkv.plist]
    rfl
  · rw [kw.binary, hkv.binary]
    exact k'.binary.trans hbin

variable (S) in
/-- The daemon runs what is installed. -/
structure Running (i : ι) (s : Machine ι) : Prop where
  holds : Holds S i s
  ready : s.job.Ready
  running : s.job.running = s.job.config

omit [DecidableEq ι] in
theorem Running.kept {m : Custody} (h : Running S i s) (ht : Holds S i t) (hk : Kept { s with custody := m } t) :
    Running S i t :=
  ⟨ht, hk.ready h.ready, hk.running h.running⟩

theorem safe_launchService (h : Prepared S i s) :
    SafeOn S i launchService s (fun _ t => Running S i t ∧ t.hasBackup = false) fun _ _ => True := by
  refine SatE.seq (safe_setEnabled h.holds true fun hno => by cases hno) (fun _ t ht => ?_) fun _ _ _ => trivial
  obtain ⟨ht, hkt⟩ := ht
  have hbt : t.hasBackup = false := hkt.backup.trans h.backup
  have hboot := satE_attempt (R := fun r u => (r = .ok () → After S i t t.job.bootstrap u) ∧ ∃ j, After S i t j u)
    (E := fun _ _ => False)
    ((safe_bootstrap ht).mono (fun _ _ hu => ⟨fun _ => hu, _, hu⟩) fun _ _ hu => ⟨(fun hno => nomatch hno), hu⟩)
  refine SatE.seq hboot (fun outcome u hu => ?_) fun _ _ he => he.elim
  obtain ⟨hok, j, hu, hku⟩ := hu
  have hbu : u.hasBackup = false := hku.backup.trans hbt
  cases outcome with
  | ok =>
    obtain ⟨-, hk⟩ := hok rfl
    refine satE_pure ⟨⟨hu, ⟨hk.loaded, ?_, ?_, ?_, ?_⟩, hk.running rfl⟩, hbu⟩
    · exact hk.enabled.trans hkt.enabled
    · exact hk.plist.trans (hkt.plist.trans h.plist)
    · exact hk.binary.trans (hkt.binary.trans h.binary)
    · rw [hk.config]
      show t.job.config.isSome = true
      rw [hkt.config]
      exact h.config
  | error err =>
    have hremove := satE_attempt (R := fun _ _ => True) (E := fun _ _ => True)
      ((safe_removePlist hu hbu).mono (fun _ _ _ => trivial) fun _ _ _ => trivial)
    exact SatE.seq hremove (fun _ _ _ => satE_throw trivial) fun _ _ _ => trivial

/-- The daemon is stopped and the property list removed only where there is no backup. -/
theorem safe_cleanupFailedStart (h : Holds S i s) (hb : s.hasBackup = false) (failure : String) :
    SafeOn S i (cleanupFailedStart failure bootout removePlist) s (fun _ _ => True) fun _ _ => True := by
  have hstop := satE_attempt (R := fun _ t => Holds S i t ∧ t.hasBackup = false) (E := fun _ _ => True)
    ((safe_bootout h hb).mono (fun _ t ht => ⟨ht.holds, ht.backup⟩) fun _ t ht => by
      obtain ⟨j, ht, hk⟩ := ht
      exact ⟨ht, hk.backup.trans hb⟩)
  refine SatE.seq hstop (fun outcome t ht => ?_) fun _ _ _ => trivial
  cases outcome with
  | error err => exact satE_pure trivial
  | ok stopped =>
    have hremove := satE_attempt (R := fun _ _ => True) (E := fun _ _ => True)
      ((safe_removePlist ht.1 ht.2).mono (fun _ _ _ => trivial) fun _ _ _ => trivial)
    refine SatE.seq hremove (fun removed _ _ => ?_) fun _ _ _ => trivial
    cases removed <;> exact satE_pure trivial

/-- The takeover is complete, or it is undone, or the daemon goes on running. -/
theorem safe_takeOverDns (h : Running S i s) (dnsIp : IpAddr) :
    SafeOn S i (takeOverDns S dnsIp) s (fun _ t => Running S i t ∧ t.hasBackup = true ∧ t.marker = true)
      fun _ _ => True := by
  have hsection := h.holds.safe_dnsSection (fun _ => h.ready) fun m hm => OsDns.keeps_takeOver hm dnsIp
  have hattempt := satE_attempt (R := fun r t => Running S i t ∧ (r = .ok () → t.hasBackup = true ∧ t.marker = true))
    (E := fun _ _ => False) (hsection.mono (fun _ t ht => ?_) fun _ t ht => ?_)
  · refine SatE.seq hattempt (fun outcome t ht => ?_) fun _ _ he => he.elim
    obtain ⟨hrun, hdone⟩ := ht
    cases outcome with
    | ok => exact satE_pure ⟨hrun, hdone rfl⟩
    | error err =>
      refine SatE.seq hrun.holds.safe_backupExists (fun present u hu => ?_) fun _ _ he => he.elim
      obtain ⟨hu, hk, rfl⟩ := hu
      split
      · exact satE_throw trivial
      · rename_i hno
        have hbu : u.hasBackup = false := by
          rw [hk.backup]
          simpa using hno
        exact SatE.seq (safe_cleanupFailedStart hu hbu _) (fun _ _ _ => satE_throw trivial) fun _ _ _ => trivial
  · obtain ⟨m, ⟨-, hb, hm⟩, ht, hk⟩ := ht
    exact ⟨h.kept ht hk, fun _ => ⟨hk.backup.trans hb, hk.marker.trans hm⟩⟩
  · obtain ⟨m, -, ht, hk⟩ := ht
    exact ⟨h.kept ht hk, fun hno => by cases hno⟩

variable (S) in
/-- A command begins with the lifecycle lock. -/
theorem safe_locked {rest : Unit → ServiceAction α} {Q : α → Machine ι → Prop} (hok : MachineOk S.dns s)
    (hidle : s.lifecycle ≠ some i ∧ s.dns ≠ some i)
      (hrest : ∀ t, Holds S i t → SafeOn S i (rest ()) t Q fun _ _ => True) :
    SafeOn S i (requireRoot >>= fun _ => lockLifecycle >>= rest) s Q fun _ _ => True := by
  have hroot : LooksOn S i requireRoot := by
    refine Looks.bind (looks_op trivial) fun root => ?_
    split
    · exact looks_pure ()
    · exact looks_throw _
  refine hroot.next hok (fun _ t ht hr => ?_) fun _ _ _ _ => trivial
  have hdns : t.dns ≠ some i := fun hd => hidle.2 (hr.dns.2 hd)
  have hlock : SafeOn S i lockLifecycle t (fun _ u => Holds S i u) fun _ _ => True := by
    refine Discipline.safeE_performE ht trivial ?_
    rintro r u v ⟨holder, hholder, rfl⟩ hrely hv
    rcases hholder with ⟨rfl, -, rfl⟩ | ⟨⟨e, rfl⟩, rfl⟩
    · exact ⟨hv, hrely.lifecycle.1 rfl, fun hd => hdns (hrely.dns.2 hd)⟩
    · trivial
  exact hlock.seq (fun _ u hu => hrest u hu) fun _ _ _ => trivial

theorem safe_start (hok : MachineOk S.dns s) (hidle : s.lifecycle ≠ some i ∧ s.dns ≠ some i)
    (explicit : Option FilePath) (generated : Option String) :
    SafeOn S i (start S explicit generated) s (fun _ t => Running S i t ∧ t.hasBackup = true ∧ t.marker = true)
      fun _ _ => True := by
  refine safe_locked S hok hidle fun t ht => ?_
  refine ht.next looks_isLoaded (fun loaded t1 h1 _ => ?_) fun _ _ _ _ => trivial
  split
  · exact satE_throw trivial
  · refine SatE.seq (safe_requireNotTakenOver h1) (fun _ t2 h2 => ?_) fun _ _ _ => trivial
    refine SatE.seq (safe_prepareStart h2.1 h2.2.2 explicit generated) (fun dnsIp t3 h3 => ?_) fun _ _ _ => trivial
    refine SatE.seq (safe_launchService h3) (fun _ t4 h4 => ?_) fun _ _ _ => trivial
    refine h4.1.holds.next (looks_waitForDns _ 15000).attempt (fun outcome t5 h5 k5 => ?_) fun _ _ _ _ => trivial
    cases outcome with
    | error err =>
      exact SatE.seq (safe_cleanupFailedStart h5 (k5.backup.trans h4.2) _) (fun _ _ _ => satE_throw trivial)
        fun _ _ _ => trivial
    | ok =>
      exact SatE.seq (safe_takeOverDns (h4.1.kept h5 k5) dnsIp) (fun _ _ h6 => satE_pure h6) fun _ _ _ => trivial

/-! ## stop and uninstall -/

variable (S) in
/-- DNSRivet lets go: no daemon now or after a reboot, no backup, and no service pointed at it. -/
structure Released (i : ι) (s : Machine ι) : Prop where
  holds : Holds S i s
  backup : s.hasBackup = false
  loaded : s.job.loaded = false
  rests : s.job.plist = true → s.job.enabled = false

theorem safe_release (h : Holds S i s) :
    SafeOn S i (dnsSection none (OsDns.release S.dns)) s (fun _ t => Holds S i t ∧ t.hasBackup = false)
      fun _ _ => True := by
  refine (h.safe_dnsSection (fun hno => by cases hno) fun m hm => OsDns.keeps_release hm).mono ?_ fun _ _ _ => trivial
  rintro _ t ⟨m, ⟨-, -, hb⟩, ht, hk⟩
  refine ⟨ht, hk.backup.trans ?_⟩
  show m.disk.backup.isSome = false
  rw [hb]
  rfl

theorem safe_stopService (h : Holds S i s) (hb : s.hasBackup = false) :
    SafeOn S i stopService s (fun _ t => Released S i t) fun _ _ => True := by
  have hmanaged : SafeOn S i isManaged s
      (fun managed t => Holds S i t ∧ Kept s t ∧ (s.job.plist = true → managed = true)) fun _ _ => True := by
    refine SatE.seq h.safe_isInstalled (fun installed t ht => ?_) fun _ _ he => he.elim
    obtain ⟨ht, hk, rfl⟩ := ht
    split
    · exact satE_pure ⟨ht, hk, fun _ => rfl⟩
    · rename_i hno
      refine (ht.looks looks_isLoaded).mono (fun _ u hu => ?_) fun _ _ _ => trivial
      exact ⟨hu.1, hk.trans hu.2, fun hyes => absurd hyes hno⟩
  refine SatE.seq hmanaged (fun managed t ht => ?_) fun _ _ _ => trivial
  obtain ⟨ht, hk, hplist⟩ := ht
  have hbt : t.hasBackup = false := hk.backup.trans hb
  have hdisable : SafeOn S i (if managed then setEnabled false else pure ()) t
      (fun _ u => Holds S i u ∧ u.hasBackup = false ∧ (u.job.plist = true → u.job.enabled = false)) fun _ _ =>
        True := by
    split
    · refine (safe_setEnabled ht false fun _ => hbt).mono (fun _ u hu => ?_) fun _ _ _ => trivial
      exact ⟨hu.1, hu.2.backup.trans hbt, fun _ => hu.2.enabled⟩
    · rename_i hno
      refine satE_pure ⟨ht, hbt, fun hyes => ?_⟩
      rw [hk.plist] at hyes
      exact absurd (hplist hyes) hno
  refine SatE.seq hdisable (fun _ u hu => ?_) fun _ _ _ => trivial
  obtain ⟨hu, hbu, hrests⟩ := hu
  refine SatE.seq (safe_bootout hu hbu) (fun stopped v hv => ?_) fun _ _ _ => trivial
  refine satE_pure ⟨hv.holds, hv.backup, hv.loaded, fun hyes => ?_⟩
  rw [hv.enabled]
  exact hrests (by rw [← hv.plist]; exact hyes)

theorem safe_stop (hok : MachineOk S.dns s) (hidle : s.lifecycle ≠ some i ∧ s.dns ≠ some i) :
    SafeOn S i (stop S) s (fun _ t => Released S i t) fun _ _ => True := by
  refine safe_locked S hok hidle fun t ht => ?_
  refine SatE.seq (safe_release ht) (fun _ u hu => ?_) fun _ _ _ => trivial
  exact SatE.seq (safe_stopService hu.1 hu.2) (fun _ v hv => satE_pure hv) fun _ _ _ => trivial

theorem safe_uninstall (hok : MachineOk S.dns s) (hidle : s.lifecycle ≠ some i ∧ s.dns ≠ some i) :
    SafeOn S i (uninstall S) s
      (fun _ t => Released S i t ∧ t.job.plist = false ∧ t.job.binary = false) fun _ _ => True := by
  refine safe_locked S hok hidle fun t ht => ?_
  refine SatE.seq (safe_release ht) (fun _ t1 h1 => ?_) fun _ _ _ => trivial
  refine SatE.seq (safe_stopService h1.1 h1.2) (fun res t2 h2 => ?_) fun _ _ _ => trivial
  obtain ⟨managed, stopped⟩ := res
  refine SatE.seq (safe_removePlist h2.holds h2.backup) (fun _ t3 h3 => ?_) fun _ _ _ => trivial
  obtain ⟨h3, k3⟩ := h3
  refine h3.next (looks_linkAction _) (fun _ t4 h4 k4 => ?_) fun _ _ _ _ => trivial
  have hb4 : t4.hasBackup = false := k4.backup.trans (k3.backup.trans h2.backup)
  refine SatE.seq (safe_removeInstalledBinary h4 hb4) (fun _ t5 h5 => ?_) fun _ _ _ => trivial
  obtain ⟨h5, k5⟩ := h5
  have hplist : t5.job.plist = false := k5.plist.trans (k4.plist.trans k3.plist)
  have hloaded : t5.job.loaded = false := k5.loaded.trans (k4.loaded.trans (k3.loaded.trans h2.loaded))
  have hb5 : t5.hasBackup = false := k5.backup.trans hb4
  have hclear : SafeOn S i (if managed then setEnabled true else pure ()) t5
      (fun _ u => Released S i u ∧ u.job.plist = false ∧ u.job.binary = false) fun _ _ => True := by
    split
    · refine (safe_setEnabled h5 true fun hno => by cases hno).mono (fun _ u hu => ?_) fun _ _ _ => trivial
      obtain ⟨hu, ku⟩ := hu
      have hplist' : u.job.plist = false := ku.plist.trans hplist
      refine ⟨⟨hu, ku.backup.trans hb5, ku.loaded.trans hloaded, fun hyes => ?_⟩, hplist', ku.binary.trans k5.binary⟩
      rw [hplist'] at hyes
      cases hyes
    · refine satE_pure ⟨⟨h5, hb5, hloaded, fun hyes => ?_⟩, hplist, k5.binary⟩
      rw [hplist] at hyes
      cases hyes
  exact SatE.seq hclear (fun _ u hu => satE_pure hu) fun _ _ _ => trivial

/-! ## restart -/

variable (S) in
/-- The daemon was started with the configuration `bytes`, which is installed. -/
structure Runs (i : ι) (s : Machine ι) (bytes : ByteArray) (t : Machine ι) : Prop extends Installed S i s bytes t where
  running : t.job.running = some bytes

omit [DecidableEq ι] in
theorem Runs.kept {bytes : ByteArray} (h : Runs S i s bytes t) (hu : Holds S i u) (hk : Kept t u) :
    Runs S i s bytes u := by
  have hinstalled := h.toInstalled.kept hu hk
  refine ⟨hinstalled, ?_⟩
  rw [hk.running (h.running.trans h.config.symm), hinstalled.config]

theorem looks_verifyTakeover (verify : Bool) : LooksOn S i (verifyTakeover S verify) := by
  unfold verifyTakeover
  split
  · refine Looks.bind looks_installedProbeAddress fun addr => ?_
    refine Looks.bind (looks_waitForReassertion addr.ip 15000) fun intact => ?_
    split
    · exact looks_pure ()
    · exact looks_throw _
  · exact looks_pure ()

/-- A reload and its check, on a configuration that is installed: what they leave if they succeed, and if not. -/
theorem safe_reload {bytes : ByteArray} (h : Installed S i s bytes t) (verify : Bool) :
    SafeOn S i (attempt (do reloadService S; verifyTakeover S verify)) t
      (fun r u => Installed S i s bytes u ∧ (r = .ok () → Runs S i s bytes u)) fun _ _ => False := by
  refine satE_attempt ?_
  have hreload : SafeOn S i (reloadService S) t (fun _ u => Runs S i s bytes u)
      fun _ u => Installed S i s bytes u := by
    refine SatE.seq (safe_kickstart h.holds) (fun _ u hu => ?_) fun e u hu => h.kept hu.1 hu.2
    obtain ⟨hu, hk⟩ := hu
    have hconfig : u.job.config = some bytes := hk.config.trans h.config
    have hruns : Runs S i s bytes u :=
      ⟨⟨hu, hk.backup.trans h.backup, hk.marker.trans h.marker, hk.loaded.trans h.loaded, hconfig⟩,
        (hk.running rfl).trans hconfig⟩
    refine hu.next looks_installedProbeAddress (fun addr v hv kv => ?_) fun _ v hv kv => hruns.toInstalled.kept hv kv
    have hv' := hruns.kept hv kv
    exact (hv.looks (looks_waitForDns addr 15000)).mono (fun _ w hw => hv'.kept hw.1 hw.2)
      fun _ w hw => hv'.toInstalled.kept hw.1 hw.2
  refine hreload.seq (fun _ u hu => ?_) fun _ u hu => ⟨hu, fun hno => by cases hno⟩
  refine (hu.holds.looks (looks_verifyTakeover verify)).mono (fun _ v hv => ?_) fun _ v hv => ?_
  · have := hu.kept hv.1 hv.2
    exact ⟨this.toInstalled, fun _ => this⟩
  · exact ⟨hu.toInstalled.kept hv.1 hv.2, fun hno => by cases hno⟩

/-- What a replacement of the configuration that failed leaves: the previous one, unless that could not be written
back. -/
inductive RolledBack (S : ServicePlatform) (i : ι) (s : Machine ι) (previous replacement : ByteArray) :
    String → Machine ι → Prop
  | refused {e : String} {t : Machine ι} (ht : Holds S i t) (hk : Kept s t) (he : InstallFailed e) :
    RolledBack S i s previous replacement e t
  | restored {err : String} {t : Machine ι} (ht : Runs S i s previous t) :
    RolledBack S i s previous replacement
      ("new configuration failed: " ++ err ++ "; previous configuration restored and restarted") t
  | stuck {err rollbackErr : String} {t : Machine ι} (ht : Installed S i s previous t) :
    RolledBack S i s previous replacement ("new configuration failed: " ++ err ++
      "; previous configuration was restored but its restart failed: " ++ rollbackErr) t
  | lost {e : String} {t : Machine ι} (ht : Installed S i s replacement t) (he : InstallFailed e) :
    RolledBack S i s previous replacement e t

/-- Replacing the configuration, while the other processes run and launchd may start the daemon again. -/
theorem safe_restartConfigTransaction (h : Holds S i s) (previous replacement : ByteArray)
    (verify : Bool) :
    SafeOn S i (restartConfigTransaction previous replacement writeConfig (reloadService S) (verifyTakeover S verify)) s
      (fun _ t => Runs S i s replacement t) (RolledBack S i s previous replacement) := by
  refine SatE.seq (safe_writeConfig h replacement) (fun _ t ht => ?_) fun e t ht => .refused ht.1 ht.2.1 ht.2.2
  refine SatE.seq (safe_reload ht verify) (fun outcome u hu => ?_) fun _ _ he => he.elim
  obtain ⟨hu, hruns⟩ := hu
  cases outcome with
  | ok => exact satE_pure (hruns rfl)
  | error err =>
    refine SatE.seq (safe_writeConfig hu.holds previous) (fun _ v hv => ?_) fun e v hv => ?_
    · refine SatE.seq (safe_reload (hu.again hv) verify) (fun outcome w hw => ?_) fun _ _ he => he.elim
      obtain ⟨hw, hruns⟩ := hw
      cases outcome with
      | ok => exact satE_throw (.restored (hruns rfl))
      | error rollbackErr => exact satE_throw (.stuck hw)
    · obtain ⟨hv, hk, he⟩ := hv
      exact .lost (hu.kept hv hk) he

omit [DecidableEq ι] in
theorem RolledBack.of_kept {previous replacement : ByteArray} {e : String} (hk : Kept s t)
    (h : RolledBack S i t previous replacement e u) : RolledBack S i s previous replacement e u := by
  cases h with
  | refused ht hk' he => exact .refused ht (hk.trans hk') he
  | restored ht => exact .restored ⟨ht.toInstalled.of_kept hk, ht.running⟩
  | stuck ht => exact .stuck (ht.of_kept hk)
  | lost ht he => exact .lost (ht.of_kept hk) he

/-- A restart with a new configuration leaves it installed and running, or the one that was installed before. -/
theorem safe_restartWithConfig (h : Holds S i s) (replacement : ByteArray) :
    SafeOn S i (restartWithConfig S replacement) s (fun _ t => Runs S i s replacement t)
      fun e t => (Holds S i t ∧ Kept s t) ∨
        ∃ previous, s.job.config = some previous ∧ RolledBack S i s previous replacement e t := by
  have hread : SafeOn S i
      (performE (.readBytes configPath) (orFail ("read installed config " ++ configPath.display))) s
      (fun previous t => Holds S i t ∧ Kept s t ∧ s.job.config = some previous) fun _ t => Holds S i t ∧ Kept s t := by
    refine h.job ?_ ?_ ?_
    · trivial
    · exact fun _ _ hs => hs
    · rintro r j t ⟨hr, rfl⟩ ht hk
      cases r with
      | ok bytes => exact ⟨ht, hk, hr rfl bytes rfl⟩
      | error e => exact ⟨ht, hk⟩
  refine hread.seq (fun previous t ht => ?_) fun _ t ht => .inl ht
  obtain ⟨ht, hk, hprevious⟩ := ht
  refine ht.next ?_ (fun verify u hu hku => ?_) fun _ u hu hku => .inl ⟨hu, hk.trans hku⟩
  · refine Looks.bind looks_takeoverState fun state => ?_
    cases state with
    | active => exact looks_pure true
    | notTakenOver => exact looks_pure false
    | _ => exact looks_throw _
  have hsu := hk.trans hku
  exact (safe_restartConfigTransaction hu previous replacement verify).mono
    (fun _ v hv => ⟨hv.toInstalled.of_kept hsu, hv.running⟩) fun e v hv => .inr ⟨previous, hprevious, hv.of_kept hsu⟩

/-- The replacement is the configuration the command line asked for. -/
theorem safe_configBytes (h : Holds S i s) (explicit : Option FilePath) (generated : Option String) :
    SafeOn S i (configBytes S explicit generated) s
      (fun bytes t => Holds S i t ∧ Kept s t ∧ ∀ text, generated = some text → bytes = some text.toUTF8)
      fun _ _ => True := by
  cases generated with
  | none =>
    refine (h.looks (looks_configBytes explicit none)).mono (fun _ t ht => ⟨ht.1, ht.2, ?_⟩) fun _ _ _ => trivial
    rintro text ⟨⟩
  | some text =>
    cases explicit with
    | some path => exact satE_throw trivial
    | none =>
      refine h.next (looks_result _) (fun _ t ht hk => ?_) fun _ _ _ _ => trivial
      refine satE_pure ⟨ht, hk, ?_⟩
      rintro text' ⟨⟩
      rfl

/-- The address comes from a configuration that is installed. -/
theorem safe_installedProbeAddress (h : Holds S i s) :
    SafeOn S i (installedProbeAddress S) s (fun _ t => Holds S i t ∧ Kept s t ∧ s.job.config.isSome) fun _ _ =>
      True := by
  have hread : SafeOn S i (performE (.readText configPath) (orFail configPath.display)) s
      (fun _ t => Holds S i t ∧ Kept s t ∧ s.job.config.isSome) fun _ _ => True := by
    refine h.job ?_ ?_ ?_
    · trivial
    · exact fun _ _ hs => hs
    · rintro r j t ⟨hr, rfl⟩ ht hk
      cases r with
      | ok text => exact ⟨ht, hk, by rw [hr rfl text rfl]; rfl⟩
      | error e => trivial
  have hload : SafeOn S i (loadConfig S configPath) s (fun _ t => Holds S i t ∧ Kept s t ∧ s.job.config.isSome)
      fun _ _ => True := by
    refine hread.seq (fun text t ht => ?_) fun _ _ _ => trivial
    refine (ht.1.looks (looks_result _)).mono (fun _ u hu => ?_) fun _ _ _ => trivial
    exact ⟨hu.1, ht.2.1.trans hu.2, ht.2.2⟩
  refine hload.seq (fun loaded t ht => ?_) fun _ _ _ => trivial
  refine ht.1.next (looks_result _) (fun ip u hu hk => ?_) fun _ _ _ _ => trivial
  exact satE_pure ⟨hu, ht.2.1.trans hk, ht.2.2⟩

variable (S) in
/-- The daemon is loaded, and was started with the configuration that is installed. -/
structure Restarted (i : ι) (s : Machine ι) (bytes : ByteArray) : Prop where
  holds : Holds S i s
  loaded : s.job.loaded = true
  config : s.job.config = some bytes
  running : s.job.running = some bytes

omit [DecidableEq ι] in
theorem Restarted.kept {bytes : ByteArray} (h : Restarted S i s bytes) (ht : Holds S i t) (hk : Kept s t) :
    Restarted S i t bytes := by
  have hconfig := hk.config.trans h.config
  exact ⟨ht, hk.loaded.trans h.loaded, hconfig, (hk.running (h.running.trans h.config.symm)).trans hconfig⟩

theorem safe_refreshInstalledBinary (h : Holds S i s) :
    SafeOn S i refreshInstalledBinary s (fun _ t => Holds S i t ∧ t.job.loaded = s.job.loaded) fun _ _ => True := by
  refine h.next looks_currentBinary (fun current t ht hk => ?_) fun _ _ _ _ => trivial
  have hcanonical : LooksOn S i (performE .canonicalBinary Except.ok) := looks_op trivial
  refine ht.next hcanonical (fun canonical u hu hk' => ?_) fun _ _ _ _ => trivial
  have hsu := hk.trans hk'
  have hinstall : ∀ installed : FilePath, SafeOn S i
      (if current ≠ installed then installBinary current else pure ()) u
      (fun _ v => Holds S i v ∧ v.job.loaded = s.job.loaded) fun _ _ => True := by
    intro installed
    split
    · refine (safe_installBinary hu current).mono (fun _ v hv => ?_) fun _ _ _ => trivial
      obtain ⟨hv, -, -, -, hloaded⟩ := hv
      exact ⟨hv, hloaded.trans hsu.loaded⟩
    · exact satE_pure ⟨hu, hsu.loaded⟩
  cases canonical with
  | ok path => exact hinstall path
  | error e => exact hinstall binaryPath

theorem safe_restartAsInstalled (h : Holds S i s) (hloaded : s.job.loaded = true) :
    SafeOn S i (restartAsInstalled S) s (fun _ t => ∃ bytes, Restarted S i t bytes) fun _ _ => True := by
  refine SatE.seq (safe_kickstart h) (fun _ t1 h1 => ?_) fun _ _ _ => trivial
  obtain ⟨h1, k1⟩ := h1
  have hrun : t1.job.running = t1.job.config := k1.running rfl
  refine SatE.seq (safe_installedProbeAddress h1) (fun addr t2 h2 => ?_) fun _ _ _ => trivial
  obtain ⟨h2, k2, hsome⟩ := h2
  obtain ⟨bytes, hbytes⟩ := Option.isSome_iff_exists.1 hsome
  have hstarted : Restarted S i t1 bytes := ⟨h1, k1.loaded.trans hloaded, hbytes, hrun.trans hbytes⟩
  refine h2.next (looks_waitForDns addr 15000) (fun _ t3 h3 k3 => ?_) fun _ _ _ _ => trivial
  refine h3.next looks_takeoverState (fun state t4 h4 k4 => ?_) fun _ _ _ _ => trivial
  have hend := ((hstarted.kept h2 k2).kept h3 k3).kept h4 k4
  cases state with
  | active =>
    refine h4.next (looks_waitForReassertion addr.ip 15000) (fun _ u hu ku => ?_) fun _ _ _ _ => trivial
    exact satE_pure ⟨bytes, hend.kept hu ku⟩
  | _ => exact satE_pure ⟨bytes, hend⟩

theorem safe_restart (hok : MachineOk S.dns s) (hidle : s.lifecycle ≠ some i ∧ s.dns ≠ some i)
    (explicit : Option FilePath) (generated : Option String) :
    SafeOn S i (restart S explicit generated) s
      (fun _ t => ∃ bytes, Restarted S i t bytes ∧ ∀ text, generated = some text → bytes = text.toUTF8)
      fun _ _ => True := by
  refine safe_locked S hok hidle fun t ht => ?_
  refine SatE.seq ht.safe_isLoaded (fun loaded t1 h1 => ?_) fun _ _ _ => trivial
  obtain ⟨h1, k1, rfl⟩ := h1
  split
  · exact satE_throw trivial
  rename_i hyes
  have hloaded : t1.job.loaded = true := by
    rw [k1.loaded]
    simpa using hyes
  refine SatE.seq (safe_refreshInstalledBinary h1) (fun _ t2 h2 => ?_) fun _ _ _ => trivial
  obtain ⟨h2, hloaded2⟩ := h2
  refine SatE.seq (safe_configBytes h2 explicit generated) (fun bytes t3 h3 => ?_) fun _ _ _ => trivial
  obtain ⟨h3, k3, hbytes⟩ := h3
  have hloaded3 : t3.job.loaded = true := k3.loaded.trans (hloaded2.trans hloaded)
  cases bytes with
  | some replacement =>
    refine (safe_restartWithConfig h3 replacement).mono (fun _ u hu => ?_) fun _ _ _ => trivial
    exact ⟨replacement, ⟨hu.holds, hu.loaded.trans hloaded3, hu.config, hu.running⟩, fun text htext =>
      Option.some.inj (hbytes text htext)⟩
  | none =>
    refine (safe_restartAsInstalled h3 hloaded3).mono (fun _ u hu => ?_) fun _ _ _ => trivial
    obtain ⟨bytes, hu⟩ := hu
    exact ⟨bytes, hu, fun text htext => by cases hbytes text htext⟩

end DNSRivet.Service
