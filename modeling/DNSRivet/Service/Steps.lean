/-
What the parts of the commands do while other processes run. Most parts only look: the state moves as the others move
it. `Holds` is what a process with the lifecycle lock has, and `Kept` what then stays from one state to another;
`safe_dnsSection` brings a DNS operation, which holds the DNS lock, from `Custody` to the machine.
-/
import DNSRivet.Service.Machine

namespace DNSRivet.Service

open DNSRivet.Base DNSRivet.Net Prog Discipline
open DNSRivet.OsDns (SysOp IoError Custody CustodyOk custodyStep keeping Keeps Role Changing)

variable {S : ServicePlatform} {ι : Type} [DecidableEq ι] {i : ι} {s t u : Machine ι} {α β : Type}

/-! ## Parts that only look -/

/-- Operations that change nothing the machine keeps. -/
def Neutral : ServiceOp → Prop
  | .lockLifecycle | .unlockDns | .installPlist _ | .removePlist | .installConfig _ | .installBinary
      _ | .removeBinary =>
    False
  | .launchctl command => command = .print
  | .dns _ op => ¬ Changing op ∧ op ≠ .lock
  | _ => True

omit [DecidableEq ι] in
theorem servicePre_neutral {P : OsDns.Platform} {op : ServiceOp} (h : Neutral op) : servicePre P i s op := by
  cases op with
  | launchctl command =>
    obtain rfl : command = .print := h
    trivial
  | dns target op =>
    refine ⟨.watching, ?_, fun hop => absurd hop h.1, fun hno => absurd rfl hno, fun hno => by cases hno⟩
    cases op with
    | setDnsServers name servers => exact absurd trivial h.1
    | installBackup text => exact absurd trivial h.1
    | removeBackup => exact absurd trivial h.1
    | createMarker => exact absurd trivial h.1
    | removeMarker => exact absurd trivial h.1
    | _ => trivial
  | _ => trivial

theorem serviceStep_neutral {op : ServiceOp} {r : op.Reply} (h : Neutral op) (hs : serviceStep i s op r t) : t = s := by
  cases op with
  | launchctl command =>
    obtain rfl : command = .print := h
    obtain ⟨j, ⟨rfl, -⟩, rfl⟩ := hs
    rfl
  | dns target op =>
    cases op with
    | lock => exact absurd rfl h.2
    | _ =>
      obtain ⟨m, hm, rfl⟩ := hs
      rw [OsDns.custodyStep_of_not_changing h.1 hm]
  | lockLifecycle => exact h.elim
  | unlockDns => exact h.elim
  | installPlist text => exact h.elim
  | removePlist => exact h.elim
  | installConfig bytes => exact h.elim
  | installBinary source => exact h.elim
  | removeBinary => exact h.elim
  | plistIsFile => obtain ⟨j, ⟨-, rfl⟩, rfl⟩ := hs; rfl
  | isFile path => obtain ⟨j, ⟨-, rfl⟩, rfl⟩ := hs; rfl
  | readBytes path => obtain ⟨j, ⟨-, rfl⟩, rfl⟩ := hs; rfl
  | readText path => obtain ⟨j, ⟨-, rfl⟩, rfl⟩ := hs; rfl
  | _ => obtain ⟨j, rfl, rfl⟩ := hs; rfl

variable (S) in
/-- The part only looks. -/
abbrev LooksOn (i : ι) (x : ServiceAction α) : Prop := (watched S ι).Looks i x

variable (S) in
/-- The part of process `i` checks before each call, and ends in `Q` or in `E`. -/
abbrev SafeOn (i : ι) (x : ServiceAction α) (s : Machine ι) (Q : α → Machine ι → Prop) (E : String → Machine ι → Prop) :
    Prop :=
  (watched S ι).SafeE i x s Q E

theorem looks_op {op : ServiceOp} {g : op.Reply → Except String α} (h : Neutral op) : LooksOn S i (performE op g) :=
  looks_performE (fun _ => servicePre_neutral h) fun _ _ _ hs => serviceStep_neutral h hs

theorem looks_result (r : Except String α) : LooksOn S i (result r) := by
  cases r with
  | ok a => exact looks_pure a
  | error e => exact looks_throw e

/-- An action on the files of the command link. -/
theorem looks_linkAction (action : FsAction α) : LooksOn S i (linkAction action) := by
  intro s hinv
  have hall : Sat (Contract.free Unit FsOp) (fun _ _ _ _ => True) action.run () fun _ _ => True := by
    induction action.run with
    | ret a => trivial
    | call op k ih => exact ⟨trivial, fun r s' _ => ⟨trivial, ih r⟩⟩
  refine Sat.mono (Sat.embed (fun t => (watched S ι).inv t ∧ (watched S ι).rely i s t) (fun _ => ())
    (fun t op _ _ => trivial) ?_ ⟨hinv, Relies.refl i s⟩ hall) ?_
  · rintro t op r t' ⟨ht, hst⟩ - ⟨u, ⟨j, rfl, rfl⟩, hrely⟩
    exact ⟨trivial, ⟨hrely.ok ht, hst.trans hrely⟩, trivial⟩
  · rintro (e | a) t ⟨⟨-, hst⟩, -⟩
    · exact hst
    · exact hst

/-! ### Reading the DNS settings -/

/-- The action only looks at the settings and at the files of the takeover. -/
abbrev Reads (x : OsDns.Action α) : Prop :=
  SatE (⟨fun _ op => ¬ Changing op ∧ op ≠ .lock, fun _ _ => True⟩ : Contract Unit SysOp) (fun _ _ _ _ => True) x ()
    (fun _ _ => True) fun _ _ => True

theorem reads_op {op : SysOp} {g : op.Reply → Except String α} (h : ¬ Changing op ∧ op ≠ .lock) :
    Reads (performE op g) := by
  refine satE_performE h fun r _ _ => ⟨trivial, ?_⟩
  cases g r <;> trivial

theorem Reads.bind {x : OsDns.Action α} {f : α → OsDns.Action β} (hx : Reads x) (hf : ∀ a, Reads (f a)) :
    Reads (x >>= f) :=
  SatE.seq hx (fun a _ _ => hf a) fun _ _ h => h

theorem reads_pure (a : α) : Reads (pure a : OsDns.Action α) := satE_pure trivial

theorem reads_backupExists : Reads OsDns.backupExists := reads_op ⟨id, by decide⟩

theorem reads_markerExists : Reads OsDns.markerExists := reads_op ⟨id, by decide⟩

theorem reads_currentLoopbackDns : Reads OsDns.currentLoopbackDns :=
  Reads.bind (reads_op ⟨id, by decide⟩) fun _ => reads_pure _

theorem reads_intactLoop (P : OsDns.Platform) (backup : OsDns.Backup) (expected : String) (enabled : List String) :
    ∀ (names : List String) (checked : Bool),
      Reads (OsDns.intactLoop P backup expected enabled OsDns.getDnsServers names checked)
  | [], checked => reads_pure checked
  | name :: names, checked => by
    refine Reads.bind (reads_op ⟨id, by simp⟩) fun servers => ?_
    simp only
    split
    · split
      · exact reads_pure false
      · exact reads_intactLoop P backup expected enabled names true
    · exact reads_intactLoop P backup expected enabled names checked

theorem reads_takeoverIntact (P : OsDns.Platform) (server : IpAddr) : Reads (OsDns.takeoverIntact P server) := by
  refine Reads.bind (reads_op ⟨id, by decide⟩) fun backup => ?_
  refine Reads.bind (reads_op ⟨id, by decide⟩) fun enabled => ?_
  exact Reads.bind (reads_op ⟨id, by decide⟩) fun names => reads_intactLoop P backup _ enabled names false

theorem looks_dnsAction {x : OsDns.Action α} (target : Option IpAddr) (hx : Reads x) :
    LooksOn S i (dnsAction target x) := by
  intro s hinv
  refine Sat.mono (Sat.embed (fun t => (watched S ι).inv t ∧ (watched S ι).rely i s t) (fun _ => ())
    ?_ ?_ ⟨hinv, Relies.refl i s⟩ hx) ?_
  · intro t op _ hop
    have hneutral : Neutral (.dns target op) := hop
    exact servicePre_neutral hneutral
  · rintro t op r t' ⟨ht, hst⟩ hop ⟨u, hu, hrely⟩
    have hneutral : Neutral (.dns target op) := hop
    have : u = t := serviceStep_neutral hneutral hu
    subst this
    exact ⟨trivial, ⟨hrely.ok ht, hst.trans hrely⟩, trivial⟩
  · rintro (e | a) t ⟨⟨-, hst⟩, -⟩
    · exact hst
    · exact hst

/-! ### The parts -/

theorem looks_isLoaded : LooksOn S i isLoaded := looks_op (by rfl)

theorem looks_isInstalled : LooksOn S i isInstalled := looks_op trivial

theorem looks_takeoverState : LooksOn S i takeoverState :=
  Looks.bind (looks_dnsAction none reads_backupExists) fun _ =>
    Looks.bind (looks_dnsAction none reads_markerExists) fun _ => looks_pure _

theorem looks_loadConfig (path : FilePath) : LooksOn S i (loadConfig S path) :=
  Looks.bind (looks_op trivial) fun _ => looks_result _

theorem looks_configBytes (explicit : Option FilePath) (generated : Option String) :
    LooksOn S i (configBytes S explicit generated) := by
  unfold configBytes
  split
  · exact looks_throw _
  · refine Looks.bind (looks_op trivial) fun present => ?_
    split
    · exact looks_throw _
    · refine Looks.bind (looks_op trivial) fun _ => ?_
      refine Looks.bind (looks_result _) fun _ => ?_
      exact Looks.bind (looks_result _) fun _ => looks_pure _
  · exact Looks.bind (looks_result _) fun _ => looks_pure _
  · exact looks_pure _

theorem looks_preflightListeners : ∀ listeners : List SocketAddr, LooksOn S i (preflightListeners listeners)
  | [] => looks_pure ()
  | _ :: addresses =>
    Looks.bind (looks_op trivial) fun _ =>
      Looks.bind (looks_op trivial) fun _ => looks_preflightListeners addresses

theorem looks_currentBinary : LooksOn S i currentBinary := looks_op trivial

theorem looks_installedProbeAddress : LooksOn S i (installedProbeAddress S) :=
  Looks.bind (looks_loadConfig configPath) fun _ =>
    Looks.bind (looks_result _) fun _ => looks_pure _

theorem looks_dnsProbe (addr : SocketAddr) (timeoutMs : Nat) : LooksOn S i (dnsProbe addr timeoutMs) := by
  refine Looks.bind (looks_op trivial) fun nanos => ?_
  refine Looks.bind (looks_op trivial) fun response => ?_
  split
  · exact looks_pure ()
  · exact looks_throw _

theorem looks_waitLoop (addr : SocketAddr) (deadline : Nat) :
    ∀ (fuel : Nat) (lastError : String), LooksOn S i (waitLoop addr deadline fuel lastError)
  | 0, lastError => looks_throw lastError
  | fuel + 1, lastError => by
    refine Looks.bind (looks_op trivial) fun time => ?_
    split
    · refine Looks.bind (looks_dnsProbe addr 1000).attempt fun outcome => ?_
      cases outcome with
      | ok => exact looks_pure ()
      | error err =>
        exact Looks.bind (looks_op trivial) fun _ => looks_waitLoop addr deadline fuel err
    · exact looks_throw lastError

theorem looks_waitForDns (addr : SocketAddr) (timeoutMs : Nat) : LooksOn S i (waitForDns addr timeoutMs) :=
  Looks.bind (looks_op trivial) fun _ => looks_waitLoop addr _ _ _

theorem looks_reassertionLoop (server : IpAddr) (deadline : Nat) :
    ∀ fuel : Nat, LooksOn S i (reassertionLoop S server deadline fuel)
  | 0 => looks_pure false
  | fuel + 1 => by
    have hagain : LooksOn S i (do
        let time ← now
        if deadline ≤ time then pure false
        else
          sleep 500
          reassertionLoop S server deadline fuel) := by
      refine Looks.bind (looks_op trivial) fun time => ?_
      split
      · exact looks_pure false
      · exact Looks.bind (looks_op trivial) fun _ => looks_reassertionLoop server deadline fuel
    refine Looks.bind (looks_dnsAction _ (reads_takeoverIntact S.dns server)).attempt fun outcome => ?_
    split
    · exact looks_pure true
    · exact hagain

theorem looks_waitForReassertion (server : IpAddr) (timeoutMs : Nat) :
    LooksOn S i (waitForReassertion S server timeoutMs) :=
  Looks.bind (looks_op trivial) fun _ => looks_reassertionLoop server _ _

theorem looks_takeoverStatusLine : LooksOn S i (takeoverStatusLine S) := by
  refine Looks.bind looks_takeoverState fun state => ?_
  cases state with
  | active =>
    refine Looks.bind looks_installedProbeAddress.attempt fun outcome => ?_
    cases outcome with
    | error err => exact looks_pure _
    | ok addr =>
      refine Looks.bind (looks_dnsAction _ (reads_takeoverIntact S.dns addr.ip)).attempt fun intact => ?_
      split <;> exact looks_pure _
  | _ => exact looks_pure _

theorem looks_probeAll : ∀ (addresses : List SocketAddr) (failures : List String),
    LooksOn S i (probeAll addresses failures)
  | [], failures => looks_pure _
  | addr :: addresses, failures => by
    refine Looks.bind (looks_waitForDns addr 2000).attempt fun outcome => ?_
    cases outcome with
    | ok => exact looks_pure _
    | error err => exact looks_probeAll addresses _

theorem looks_probeStatus (addresses : List SocketAddr) (takeover : String) :
    LooksOn S i (probeStatus addresses takeover) := by
  refine Looks.bind (looks_probeAll addresses []) fun outcome => ?_
  cases outcome <;> exact looks_pure _

/-- Asking for the status changes nothing. -/
theorem looks_status : LooksOn S i (status S) := by
  refine Looks.bind looks_takeoverStatusLine fun takeover => ?_
  refine Looks.bind looks_isLoaded fun loaded => ?_
  split
  · exact Looks.bind looks_isInstalled fun _ => looks_pure _
  · refine Looks.bind looks_installedProbeAddress.attempt fun outcome => ?_
    cases outcome with
    | ok addr => exact looks_probeStatus [addr] takeover
    | error err =>
      refine Looks.bind (looks_dnsAction none reads_currentLoopbackDns) fun addresses => ?_
      split
      · exact looks_pure _
      · exact looks_probeStatus addresses takeover

/-! ## Holding the lifecycle lock -/

variable (S) in
/-- The process holds the lifecycle lock, and no DNS operation of its own runs. -/
structure Holds (i : ι) (s : Machine ι) : Prop where
  ok : MachineOk S.dns s
  lifecycle : s.lifecycle = some i
  dns : s.dns ≠ some i

/-- What stays while the lifecycle lock is held: only the daemon may have been started again. -/
structure Kept (s t : Machine ι) : Prop where
  job : t.job = s.job ∨ t.job = s.job.start
  backup : t.hasBackup = s.hasBackup
  marker : t.marker = s.marker

namespace Kept

omit [DecidableEq ι]

theorem refl (s : Machine ι) : Kept s s := ⟨.inl rfl, rfl, rfl⟩

theorem trans (h : Kept s t) (h' : Kept t u) : Kept s u := by
  refine ⟨?_, h'.backup.trans h.backup, h'.marker.trans h.marker⟩
  rcases h.job with e | e <;> rcases h'.job with e' | e' <;> rw [e'] <;> simp [e, Job.start]

theorem loaded (h : Kept s t) : t.job.loaded = s.job.loaded := by
  rcases h.job with e | e <;> simp [e, Job.start]

theorem enabled (h : Kept s t) : t.job.enabled = s.job.enabled := by
  rcases h.job with e | e <;> simp [e, Job.start]

theorem plist (h : Kept s t) : t.job.plist = s.job.plist := by
  rcases h.job with e | e <;> simp [e, Job.start]

theorem binary (h : Kept s t) : t.job.binary = s.job.binary := by
  rcases h.job with e | e <;> simp [e, Job.start]

theorem config (h : Kept s t) : t.job.config = s.job.config := by
  rcases h.job with e | e <;> simp [e, Job.start]

/-- A daemon that runs what is installed goes on to. -/
theorem running (h : Kept s t) (hrun : s.job.running = s.job.config) : t.job.running = t.job.config := by
  rcases h.job with e | e <;> rw [e]
  · exact hrun
  · rfl

theorem ready (h : Kept s t) (hready : s.job.Ready) : t.job.Ready := by
  rcases h.job with e | e <;> rw [e]
  · exact hready
  · exact hready.start

end Kept

omit [DecidableEq ι] in
theorem Holds.relies (h : Holds S i s) (hr : Relies S.dns i s t) : Holds S i t ∧ Kept s t := by
  refine ⟨⟨hr.ok h.ok, hr.lifecycle.1 h.lifecycle, fun hd => h.dns (hr.dns.2 hd)⟩, ?_⟩
  exact ⟨hr.job h.lifecycle, (hr.backup h.lifecycle).1, (hr.backup h.lifecycle).2⟩

/-- A part that only looks, and the rest. -/
theorem Holds.next (h : Holds S i s) {x : ServiceAction α} {f : α → ServiceAction β} (hx : LooksOn S i x)
    {Q : β → Machine ι → Prop} {E : String → Machine ι → Prop}
    (hf : ∀ a t, Holds S i t → Kept s t → SafeOn S i (f a) t Q E) (he : ∀ e t, Holds S i t → Kept s t → E e t) :
    SafeOn S i (x >>= f) s Q E :=
  hx.next h.ok (fun a t _ hr => hf a t (h.relies hr).1 (h.relies hr).2) fun e t _ hr =>
    he e t (h.relies hr).1 (h.relies hr).2

theorem Holds.looks (h : Holds S i s) {x : ServiceAction α} (hx : LooksOn S i x) :
    SafeOn S i x s (fun _ t => Holds S i t ∧ Kept s t) fun _ t => Holds S i t ∧ Kept s t :=
  (hx s h.ok).mono (fun _ _ hr => h.relies hr) fun _ _ hr => h.relies hr

/-- A call about the job: where it leaves the job, and what the others do then. -/
theorem Holds.job (h : Holds S i s) {op : ServiceOp} {g : op.Reply → Except String α}
    (hpre : servicePre S.dns i s op)
    (hop : ∀ r t, serviceStep i s op r t → ∃ j, fileStep s.job op r j ∧ t = { s with job := j })
    {Q : α → Machine ι → Prop} {E : String → Machine ι → Prop}
    (hq : ∀ r j t, fileStep s.job op r j → Holds S i t → Kept { s with job := j } t →
      match g r with
      | .ok a => Q a t
      | .error e => E e t) :
    SafeOn S i (performE op g) s Q E := by
  refine Discipline.safeE_performE h.ok hpre fun r u t hstep hrely _ => ?_
  have hok := (serviceStep_ok h.ok hpre hstep).1
  obtain ⟨j, hj, rfl⟩ := hop r u hstep
  have hheld : Holds S i { s with job := j } := ⟨hok, h.lifecycle, h.dns⟩
  have := hq r j t hj (hheld.relies hrely).1 (hheld.relies hrely).2
  cases hg : g r with
  | ok a => rwa [hg] at this
  | error e => rwa [hg] at this

/-- `isLoaded` tells whether the job is loaded. -/
theorem Holds.safe_isLoaded (h : Holds S i s) :
    SafeOn S i isLoaded s (fun loaded t => Holds S i t ∧ Kept s t ∧ loaded = s.job.loaded)
      fun _ t => Holds S i t ∧ Kept s t := by
  refine h.job ?_ ?_ ?_
  · trivial
  · exact fun _ _ hs => hs
  · rintro r j t ⟨rfl, hr⟩ ht hk
    cases r with
    | error e => exact ⟨ht, hk⟩
    | ok o => exact ⟨ht, hk, hr o rfl⟩

theorem Holds.safe_isInstalled (h : Holds S i s) :
    SafeOn S i isInstalled s (fun installed t => Holds S i t ∧ Kept s t ∧ installed = s.job.plist)
      fun _ _ => False := by
  refine h.job ?_ ?_ ?_
  · trivial
  · exact fun _ _ hs => hs
  · rintro r j t ⟨rfl, rfl⟩ ht hk
    exact ⟨ht, hk, rfl⟩

theorem Holds.safe_backupExists (h : Holds S i s) :
    SafeOn S i backupExists s (fun present t => Holds S i t ∧ Kept s t ∧ present = s.hasBackup)
      fun _ _ => False := by
  have hpre : servicePre S.dns i s (.dns none .backupExists) := servicePre_neutral ⟨id, by decide⟩
  refine Discipline.safeE_performE h.ok hpre ?_
  rintro r u t ⟨m, ⟨d, ⟨rfl, rfl⟩, rfl⟩, rfl⟩ hrely _
  exact ⟨(h.relies hrely).1, (h.relies hrely).2, rfl⟩

/-! ## DNS operations -/

/-- What a process with the DNS lock keeps of the job, if it also holds the lifecycle lock. -/
structure Within (s t : Machine ι) (i : ι) : Prop where
  lifecycle : s.lifecycle = some i ↔ t.lifecycle = some i
  job : s.lifecycle = some i → t.job = s.job ∨ t.job = s.job.start

omit [DecidableEq ι] in
theorem Within.ready (h : Within s t i) (hl : s.lifecycle = some i) (hready : s.job.Ready) : t.job.Ready := by
  rcases h.job hl with e | e <;> rw [e]
  · exact hready
  · exact hready.start

omit [DecidableEq ι] in
theorem Within.relies {P : OsDns.Platform} (h : Within s t i) (hr : Relies P i t u) : Within s u i := by
  refine ⟨h.lifecycle.trans hr.lifecycle, fun hl => ?_⟩
  rcases h.job hl with e | e <;> rcases hr.job (h.lifecycle.1 hl) with e' | e' <;> rw [e'] <;> simp [e, Job.start]

/-- One operation of a process with the DNS lock, on the settings. -/
theorem serviceStep_dns {target : Option IpAddr} {op : SysOp} {r : op.Reply} (hd : s.dns = some i)
    (hs : serviceStep i s (.dns target op) r t) :
    ∃ m, custodyStep target s.custody op r m ∧ t = { s with custody := m } := by
  cases op with
  | lock =>
    -- a lock it holds already is not taken twice
    obtain ⟨holder, ⟨-, hfree, -⟩ | ⟨-, rfl⟩, rfl⟩ := hs
    · rw [hd] at hfree
      cases hfree
    · exact ⟨s.custody, ⟨s.custody.disk, rfl, rfl⟩, rfl⟩
  | _ => exact hs

/-- A DNS operation in a process: what it keeps of the custody, from wherever it gets the DNS lock. -/
theorem safe_dnsSection {role : Role} {target : Option IpAddr} {body : Unit → OsDns.Action α}
    {Q : α → Custody → Prop} {E : String → Custody → Prop} (hok : MachineOk S.dns s)
    (hrole : role ≠ .watching → s.lifecycle = some i) (hready : role = .takingOver → s.job.Ready)
    (hkeeps : ∀ m, CustodyOk S.dns m → Keeps S.dns target role (OsDns.lock >>= body) m Q E) :
    SafeOn S i (dnsSection target (OsDns.lock >>= body)) s
      (fun a t => ∃ u, MachineOk S.dns u ∧ Q a u.custody ∧ Within s u i ∧
        Relies S.dns i { u with dns := dropped i u.dns } t)
      fun e t => ∃ u, MachineOk S.dns u ∧ E e u.custody ∧ Within s u i ∧
        Relies S.dns i { u with dns := dropped i u.dns } t := by
  have hlocked : SafeOn S i (dnsAction target (OsDns.lock >>= body)) s
      (fun a u => MachineOk S.dns u ∧ Within s u i ∧ Q a u.custody)
      fun e u => MachineOk S.dns u ∧ Within s u i ∧ E e u.custody := by
    have hneutral : ∀ t : Machine ι, servicePre S.dns i t (.dns target .lock) := fun t =>
      ⟨.watching, trivial, fun hop => hop.elim, fun hno => absurd rfl hno, fun hno => by cases hno⟩
    constructor
    · exact hneutral s
    · rintro r u ⟨t, hlock, hrely⟩
      refine ⟨trivial, ?_⟩
      have ht := serviceStep_ok hok (hneutral s) hlock
      obtain ⟨holder, hholder, rfl⟩ := hlock
      have hwithin : Within s { s with dns := holder } i := ⟨Iff.rfl, fun _ => .inl rfl⟩
      have hu := hrely.ok ht.1
      have hbody := (hkeeps u.custody hu.custody).2 r u.custody ⟨u.custody.disk, rfl, rfl⟩
      rcases hholder with ⟨rfl, -, rfl⟩ | ⟨⟨e, rfl⟩, rfl⟩
      · have hdns : u.dns = some i := hrely.dns.1 rfl
        refine Sat.mono (Sat.embed (fun u => MachineOk S.dns u ∧ Within s u i ∧ u.dns = some i)
          Machine.custody ?_ ?_ ⟨hu, hwithin.relies hrely, hdns⟩ hbody.2) ?_
        · rintro v op ⟨-, hv, hd⟩ hop
          exact ⟨role, hop, fun _ => hd, fun hr => hv.lifecycle.1 (hrole hr), fun hr =>
            hv.ready (hrole (by rw [hr]; decide)) (hready hr)⟩
        · rintro v op r v' ⟨hv, hw, hd⟩ hop ⟨w, hstep, hr⟩
          have hpre : servicePre S.dns i v (.dns target op) := ⟨role, hop, fun _ => hd,
            fun hr => hw.lifecycle.1 (hrole hr), fun hr => hw.ready (hrole (by rw [hr]; decide)) (hready hr)⟩
          have hnext := (serviceStep_ok hv hpre hstep).1
          obtain ⟨m, hm, rfl⟩ := serviceStep_dns hd hstep
          have hw' : Within s { v with custody := m } i := ⟨hw.lifecycle, hw.job⟩
          refine ⟨trivial, ⟨hr.ok hnext, hw'.relies hr, hr.dns.1 hd⟩, ?_⟩
          rw [hr.custody hd]
          exact hm
        · rintro (e | a) v ⟨⟨hv, hw, -⟩, hq⟩
          · exact ⟨hv, hw, hq⟩
          · exact ⟨hv, hw, hq⟩
      · exact ⟨hu, hwithin.relies hrely, hbody.2⟩
  have hunlock : ∀ (v : Machine ι), MachineOk S.dns v → ∀ (r : Except String α),
      SafeOn S i (do performE .unlockDns Except.ok; result r) v
        (fun a t => r = .ok a ∧ Relies S.dns i { v with dns := dropped i v.dns } t)
        fun e t => r = .error e ∧ Relies S.dns i { v with dns := dropped i v.dns } t := by
    intro v hv r
    refine SatE.seq (Discipline.safeE_performE (Q := fun _ t => Relies S.dns i { v with dns := dropped i v.dns } t)
      (E := fun _ _ => False) hv trivial ?_) (fun _ t ht => ?_) fun _ _ he => he.elim
    · rintro _ _ t rfl hrely _
      exact hrely
    · cases r with
      | ok a => exact satE_pure ⟨rfl, ht⟩
      | error e => exact satE_throw ⟨rfl, ht⟩
  refine SatE.seq (satE_attempt (R := fun r u => MachineOk S.dns u ∧ Within s u i ∧
    match r with
    | .ok a => Q a u.custody
    | .error e => E e u.custody) hlocked) (fun r u hu => ?_) fun _ _ he => he
  obtain ⟨hok', hwithin, hr⟩ := hu
  refine (hunlock u hok' r).mono ?_ ?_
  · rintro a t ⟨rfl, hrely⟩
    exact ⟨u, hok', hr, hwithin, hrely⟩
  · rintro e t ⟨rfl, hrely⟩
    exact ⟨u, hok', hr, hwithin, hrely⟩

/-- For a process with the lifecycle lock. -/
theorem Holds.safe_dnsSection {role : Role} {target : Option IpAddr} {body : Unit → OsDns.Action α}
    {Q : α → Custody → Prop} {E : String → Custody → Prop} (h : Holds S i s)
    (hready : role = .takingOver → s.job.Ready)
    (hkeeps : ∀ m, CustodyOk S.dns m → Keeps S.dns target role (OsDns.lock >>= body) m Q E) :
    SafeOn S i (dnsSection target (OsDns.lock >>= body)) s
      (fun a t => ∃ m, Q a m ∧ Holds S i t ∧ Kept { s with custody := m } t)
      fun e t => ∃ m, E e m ∧ Holds S i t ∧ Kept { s with custody := m } t := by
  have hafter : ∀ u t : Machine ι, MachineOk S.dns u → Within s u i →
      Relies S.dns i { u with dns := dropped i u.dns } t → Holds S i t ∧ Kept { s with custody := u.custody } t := by
    intro u t hu hw hr
    have hheld : Holds S i { u with dns := dropped i u.dns } :=
      ⟨⟨hu.custody, hu.ready⟩, hw.lifecycle.1 h.lifecycle, dropped_self i _⟩
    have hw' : Within s { u with dns := dropped i u.dns } i := ⟨hw.lifecycle, hw.job⟩
    obtain ⟨ht, hk⟩ := hheld.relies hr
    exact ⟨ht, (hw'.relies hr).job h.lifecycle, hk.backup, hk.marker⟩
  refine (Service.safe_dnsSection h.ok (fun _ => h.lifecycle) hready hkeeps).mono ?_ ?_
  · rintro a t ⟨u, hu, hq, hw, hr⟩
    exact ⟨u.custody, hq, hafter u t hu hw hr⟩
  · rintro e t ⟨u, hu, he, hw, hr⟩
    exact ⟨u.custody, he, hafter u t hu hw hr⟩

end DNSRivet.Service
