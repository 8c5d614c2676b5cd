/-
`atomic_file::write`: any number of calls that replace one file at once. A call makes a temporary file under a name
of its own, fills it, renames it to the destination, and on the way out removes whatever has the temporary name. Names
are unique when the file is made, not later: a name that was renamed away is free again before it is removed. Where
no call takes a name in between, every state has the old file or one call's complete one (`publishes_complete`).
-/
import DNSRivet.Base.Bytes
import DNSRivet.Base.System

namespace DNSRivet.AtomicFile

open DNSRivet.Base

/-! ## The directory -/

structure Inode where
  content : Bytes
  mode : Nat
deriving DecidableEq, Repr

/-- The directory of the destination: the file under each name, and the files made so far. -/
structure Directory where
  entries : String → Option Nat
  inodes : Nat → Inode
  fresh : Nat
  used : ∀ name n, entries name = some n → n < fresh

namespace Directory

/-- An exclusive create, of a name that is free. -/
def create (d : Directory) (path : String) : Directory where
  entries := Function.update d.entries path (some d.fresh)
  inodes := Function.update d.inodes d.fresh ⟨[], 0o600⟩
  fresh := d.fresh + 1
  used := by
    intro name n h
    by_cases hn : name = path
    · rw [hn, Function.update_self] at h
      cases h
      exact Nat.lt_succ_self _
    · rw [Function.update_of_ne hn] at h
      exact Nat.lt_succ_of_lt (d.used name n h)

/-- A write or a mode change through an open file. -/
def setInode (d : Directory) (n : Nat) (inode : Inode) : Directory :=
  { d with inodes := Function.update d.inodes n inode }

def remove (d : Directory) (path : String) : Directory where
  entries := Function.update d.entries path none
  inodes := d.inodes
  fresh := d.fresh
  used := by
    intro name n h
    by_cases hn : name = path
    · rw [hn, Function.update_self] at h
      cases h
    · rw [Function.update_of_ne hn] at h
      exact d.used name n h

/-- A rename by path, of a file that is there. -/
def rename (d : Directory) (path destination : String) (n : Nat) (h : d.entries path = some n) : Directory where
  entries :=
    if path = destination then d.entries
    else Function.update (Function.update d.entries path none) destination (some n)
  inodes := d.inodes
  fresh := d.fresh
  used := by
    intro name m hm
    split at hm
    · exact d.used name m hm
    · by_cases hd : name = destination
      · rw [hd, Function.update_self] at hm
        cases hm
        exact d.used path n h
      · rw [Function.update_of_ne hd] at hm
        exact (d.remove path).used name m hm

end Directory

/-! ## Calls -/

inductive WriteError
  /-- All names were taken. -/
  | exhausted
  | notFound
  | other
deriving DecidableEq, Repr

/-- Where a call is, and what is open. -/
inductive Phase
  | creating (attempt : Nat)
  /-- In `contents`, with what it has yet to write. -/
  | writing (path : String) (inode : Nat) (rest : Bytes)
  | syncing (path : String) (inode : Nat)
  | publishing (path : String) (inode : Nat)
  /-- With its result, about to drop the temporary file. -/
  | dropping (path : String) (inode : Nat) (result : Except WriteError Unit)
  | returned (inode : Option Nat) (result : Except WriteError Unit)

/-- After a name that is taken the next one is tried, up to the sixteenth. -/
def Phase.nextName (attempt : Nat) : Phase :=
  if attempt + 1 < 16 then .creating (attempt + 1) else .returned none (.error .exhausted)

structure Call where
  /-- The clock reading. -/
  nonce : Nat
  payload : Bytes
  mode : Nat
  phase : Phase

/-- The name of a temporary file in the directory of the destination. -/
def temporaryName (pid nonce attempt : Nat) : String :=
  ".dnsrivet-" ++ toString pid ++ "-" ++ toString nonce ++ "-" ++ toString attempt ++ ".tmp"

structure State where
  directory : Directory
  calls : Nat → Option Call

def State.setCall (s : State) (i : Nat) (call : Call) : State :=
  { s with calls := Function.update s.calls i (some call) }

inductive Event
  | call (i : Nat)
  | create (i : Nat)
  /-- The create fails, and not because the name is taken. -/
  | refuse (i : Nat)
  | write (i : Nat) (count : Nat)
  | setMode (i : Nat)
  | sync (i : Nat)
  | rename (i : Nat)
  /-- A step between the create and the rename fails. -/
  | fail (i : Nat)
  | remove (i : Nat)
  /-- The removal fails, which is ignored. -/
  | keep (i : Nat)

/-- The open file of a call that has not renamed it. -/
def Phase.opened : Phase → Option (String × Nat)
  | .writing path inode _ => some (path, inode)
  | .syncing path inode => some (path, inode)
  | .publishing path inode => some (path, inode)
  | _ => none

/-- One step of one call in the process `pid`. -/
inductive Moves (pid : Nat) (destination : String) (s : State) : Event → State → Prop
  | call {i nonce mode : Nat} {payload : Bytes} : s.calls i = none →
    Moves pid destination s (.call i) (s.setCall i ⟨nonce, payload, mode, .creating 0⟩)
  | create {i attempt : Nat} {c : Call} : s.calls i = some c → c.phase = .creating attempt →
    s.directory.entries (temporaryName pid c.nonce attempt) = none →
    Moves pid destination s (.create i)
      ({ s with directory := s.directory.create (temporaryName pid c.nonce attempt) }.setCall i
        { c with phase := .writing (temporaryName pid c.nonce attempt) s.directory.fresh c.payload })
  | taken {i attempt n : Nat} {c : Call} : s.calls i = some c → c.phase = .creating attempt →
    s.directory.entries (temporaryName pid c.nonce attempt) = some n →
    Moves pid destination s (.create i) (s.setCall i { c with phase := .nextName attempt })
  | refuse {i attempt : Nat} {c : Call} : s.calls i = some c → c.phase = .creating attempt →
    Moves pid destination s (.refuse i) (s.setCall i { c with phase := .returned none (.error .other) })
  | write {i inode count : Nat} {c : Call} {path : String} {rest : Bytes} : s.calls i = some c →
    c.phase = .writing path inode rest →
    Moves pid destination s (.write i count)
      ({ s with directory := s.directory.setInode inode { s.directory.inodes inode with
          content := (s.directory.inodes inode).content ++ rest.take count } }.setCall i
        { c with phase := .writing path inode (rest.drop count) })
  | setMode {i inode : Nat} {c : Call} {path : String} : s.calls i = some c → c.phase = .writing path inode [] →
    Moves pid destination s (.setMode i)
      ({ s with directory := s.directory.setInode inode { s.directory.inodes inode with mode := c.mode } }.setCall i
        { c with phase := .syncing path inode })
  | sync {i inode : Nat} {c : Call} {path : String} : s.calls i = some c → c.phase = .syncing path inode →
    Moves pid destination s (.sync i) (s.setCall i { c with phase := .publishing path inode })
  | rename {i inode n : Nat} {c : Call} {path : String} (hpath : s.directory.entries path = some n) :
    s.calls i = some c → c.phase = .publishing path inode →
    Moves pid destination s (.rename i)
      ({ s with directory := s.directory.rename path destination n hpath }.setCall i
        { c with phase := .dropping path inode (.ok ()) })
  /-- There is nothing to rename. -/
  | missing {i inode : Nat} {c : Call} {path : String} : s.directory.entries path = none → s.calls i = some c →
    c.phase = .publishing path inode →
    Moves pid destination s (.rename i) (s.setCall i { c with phase := .dropping path inode (.error .notFound) })
  | fail {i inode : Nat} {c : Call} {path : String} : s.calls i = some c → c.phase.opened = some (path, inode) →
    Moves pid destination s (.fail i) (s.setCall i { c with phase := .dropping path inode (.error .other) })
  | remove {i inode : Nat} {c : Call} {path : String} {result : Except WriteError Unit} : s.calls i = some c →
    c.phase = .dropping path inode result →
    Moves pid destination s (.remove i) ({ s with directory := s.directory.remove path }.setCall i
      { c with phase := .returned (some inode) result })
  | keep {i inode : Nat} {c : Call} {path : String} {result : Except WriteError Unit} : s.calls i = some c →
    c.phase = .dropping path inode result →
    Moves pid destination s (.keep i) (s.setCall i { c with phase := .returned (some inode) result })

/-- Any number of calls, in any order of their steps, from a directory as it is. -/
def writers (pid : Nat) (destination : String) (start : Directory) : System State Event where
  init := fun s => s = ⟨start, fun _ => none⟩
  step := Moves pid destination

/-! ## What callers rely on -/

def Phase.result : Phase → Option (Except WriteError Unit)
  | .dropping _ _ result => some result
  | .returned _ result => some result
  | _ => none

/-- The file a call made, if it made one. -/
def Phase.inode : Phase → Option Nat
  | .creating _ => none
  | .writing _ inode _ => some inode
  | .syncing _ inode => some inode
  | .publishing _ inode => some inode
  | .dropping _ inode _ => some inode
  | .returned inode _ => inode

/-- The destination is the file it was, which has not changed. -/
def Unchanged (destination : String) (start d : Directory) : Prop :=
  d.entries destination = start.entries destination ∧
    ∀ n, start.entries destination = some n → d.inodes n = start.inodes n

/-- The destination is the file of the call, complete, which the call has renamed. -/
def PublishedBy (destination : String) (s : State) (i : Nat) : Prop :=
  ∃ c n, s.calls i = some c ∧ c.phase.inode = some n ∧ c.phase.result = some (.ok ()) ∧
    s.directory.entries destination = some n ∧ s.directory.inodes n = ⟨c.payload, c.mode⟩

/-- The destination has its old content or the complete content of exactly one call. -/
def Intact (destination : String) (start : Directory) (s : State) : Prop :=
  Unchanged destination start s.directory ∨ ∃! i, PublishedBy destination s i

/-- No call fails because its temporary file is gone. -/
def NoneLost (s : State) : Prop := ∀ i c, s.calls i = some c → c.phase.result ≠ some (.error .notFound)

/-- A create is clear when its name is neither the destination nor one that a call has renamed away and is yet to
remove. -/
def Clear (pid : Nat) (destination : String) (s : State) : Event → Prop
  | .create i => ∀ c attempt, s.calls i = some c → c.phase = .creating attempt →
    temporaryName pid c.nonce attempt ≠ destination ∧
      ∀ j c' inode, s.calls j = some c' → c'.phase ≠ .dropping (temporaryName pid c.nonce attempt) inode (.ok ())
  | _ => True

/-! ## The invariant -/

/-- The name is not the destination, and has the file. -/
def Holds (destination : String) (d : Directory) (path : String) (inode : Nat) : Prop :=
  path ≠ destination ∧ d.entries path = some inode

/-- What a call has made of its file. -/
def PhaseOk (destination : String) (d : Directory) (payload : Bytes) (mode : Nat) : Phase → Prop
  | .creating _ => True
  | .writing path inode rest => Holds destination d path inode ∧ (d.inodes inode).content ++ rest = payload
  | .syncing path inode => Holds destination d path inode ∧ d.inodes inode = ⟨payload, mode⟩
  | .publishing path inode => Holds destination d path inode ∧ d.inodes inode = ⟨payload, mode⟩
  | .dropping path inode (.ok ()) => path ≠ destination ∧ d.entries path = none ∧ d.inodes inode = ⟨payload, mode⟩
  | .dropping path inode (.error err) => Holds destination d path inode ∧ err ≠ .notFound
  | .returned inode (.ok ()) => ∀ n, inode = some n → d.inodes n = ⟨payload, mode⟩
  | .returned _ (.error err) => err ≠ .notFound

/-- The name a call has or had. -/
def Phase.path : Phase → Option String
  | .writing path _ _ => some path
  | .syncing path _ => some path
  | .publishing path _ => some path
  | .dropping path _ _ => some path
  | _ => none

structure WritersOk (destination : String) (start : Directory) (s : State) : Prop where
  calls : ∀ i c, s.calls i = some c → PhaseOk destination s.directory c.payload c.mode c.phase
  fresh : start.fresh ≤ s.directory.fresh
  inodes : ∀ i c n, s.calls i = some c → c.phase.inode = some n → start.fresh ≤ n ∧ n < s.directory.fresh
  /-- Calls do not share a file. -/
  own : ∀ i j c c' n, s.calls i = some c → s.calls j = some c' → c.phase.inode = some n →
    c'.phase.inode = some n → i = j
  old : ∀ n < start.fresh, s.directory.inodes n = start.inodes n
  destination : s.directory.entries destination = start.entries destination ∨ ∃ i, PublishedBy destination s i

variable {pid : Nat} {destination : String} {start d d' : Directory} {s s' : State} {c : Call} {i : Nat}
  {payload : Bytes} {mode : Nat}

/-- A phase is fine wherever its name and its file are the same. -/
theorem PhaseOk.congr {phase : Phase} (h : PhaseOk destination d payload mode phase)
    (hentries : ∀ path, phase.path = some path → path ≠ destination → d'.entries path = d.entries path)
    (hinodes : ∀ n, phase.inode = some n → d'.inodes n = d.inodes n) : PhaseOk destination d' payload mode phase := by
  have hholds : ∀ path inode, phase.path = some path → Holds destination d path inode →
      Holds destination d' path inode := by
    intro path inode hpath hh
    exact ⟨hh.1, (hentries path hpath hh.1).trans hh.2⟩
  cases phase with
  | creating attempt => trivial
  | writing path inode rest => exact ⟨hholds path inode rfl h.1, by rw [hinodes inode rfl]; exact h.2⟩
  | syncing path inode => exact ⟨hholds path inode rfl h.1, by rw [hinodes inode rfl]; exact h.2⟩
  | publishing path inode => exact ⟨hholds path inode rfl h.1, by rw [hinodes inode rfl]; exact h.2⟩
  | dropping path inode result =>
    cases result with
    | ok u =>
      obtain ⟨hne, hnone, hinode⟩ := h
      exact ⟨hne, (hentries path rfl hne).trans hnone, (hinodes inode rfl).trans hinode⟩
    | error err => exact ⟨hholds path inode rfl h.1, h.2⟩
  | returned inode result =>
    cases result with
    | ok u => exact fun n hn => (hinodes n hn).trans (h n hn)
    | error err => exact h

/-- The names of calls other than `i`. -/
def OtherName (s : State) (i : Nat) (path : String) : Prop :=
  ∃ j c, j ≠ i ∧ s.calls j = some c ∧ c.phase.path = some path

/-- A step of call `i`, which changes at most its own file and no other call's name. -/
structure Advances (destination : String) (s : State) (i : Nat) (d' : Directory) (c' : Call) : Prop where
  phase : PhaseOk destination d' c'.payload c'.mode c'.phase
  fresh : s.directory.fresh ≤ d'.fresh
  /-- The file is the one it had, or a new one. -/
  inode : ∀ n, c'.phase.inode = some n →
    (∃ c, s.calls i = some c ∧ c.phase.inode = some n) ∨ n = s.directory.fresh ∧ n < d'.fresh
  kept : ∀ n, c'.phase.inode ≠ some n → d'.inodes n = s.directory.inodes n
  names : ∀ path, OtherName s i path → path ≠ destination → d'.entries path = s.directory.entries path
  destination : d'.entries destination = s.directory.entries destination ∨
    PublishedBy destination ⟨d', Function.update s.calls i (some c')⟩ i
  /-- What is published stays. -/
  result : ∀ c, s.calls i = some c → c.phase.result = some (.ok ()) → c'.phase.result = some (.ok ()) ∧
    c'.phase.inode = c.phase.inode ∧ c'.payload = c.payload ∧ c'.mode = c.mode ∧ d'.inodes = s.directory.inodes

/-- The file of another call is not the one `i` has after its step. -/
theorem Advances.inode_ne {c' c : Call} {j n : Nat} (ha : Advances destination s i d' c')
    (h : WritersOk destination start s) (hj : s.calls j = some c) (hji : j ≠ i) (hn : c.phase.inode = some n) :
    c'.phase.inode ≠ some n := by
  intro hn'
  rcases ha.inode n hn' with ⟨c0, hc0, hn0⟩ | ⟨rfl, -⟩
  · exact hji (h.own j i c c0 n hj hc0 hn hn0)
  · exact absurd (h.inodes j c _ hj hn).2 (Nat.lt_irrefl _)

theorem WritersOk.advance {c' : Call} (h : WritersOk destination start s) (ha : Advances destination s i d' c') :
    WritersOk destination start ⟨d', Function.update s.calls i (some c')⟩ := by
  have hcalls : ∀ j c, Function.update s.calls i (some c') j = some c →
      j = i ∧ c = c' ∨ j ≠ i ∧ s.calls j = some c := by
    intro j c hj
    by_cases hji : j = i
    · rw [hji, Function.update_self] at hj
      exact .inl ⟨hji, (Option.some.inj hj).symm⟩
    · rw [Function.update_of_ne hji] at hj
      exact .inr ⟨hji, hj⟩
  have hbound : ∀ n, c'.phase.inode = some n → start.fresh ≤ n ∧ n < d'.fresh := by
    intro n hn
    rcases ha.inode n hn with ⟨c0, hc0, hn0⟩ | ⟨rfl, hlt⟩
    · exact ⟨(h.inodes i c0 n hc0 hn0).1, (h.inodes i c0 n hc0 hn0).2.trans_le ha.fresh⟩
    · exact ⟨h.fresh, hlt⟩
  constructor
  · intro j c hj
    rcases hcalls j c hj with ⟨-, rfl⟩ | ⟨hji, hj⟩
    · exact ha.phase
    · apply (h.calls j c hj).congr
      · exact fun path hpath hne => ha.names path ⟨j, c, hji, hj, hpath⟩ hne
      · exact fun n hn => ha.kept n (ha.inode_ne h hj hji hn)
  · exact h.fresh.trans ha.fresh
  · intro j c n hj hn
    rcases hcalls j c hj with ⟨-, rfl⟩ | ⟨hji, hj⟩
    · exact hbound n hn
    · exact ⟨(h.inodes j c n hj hn).1, (h.inodes j c n hj hn).2.trans_le ha.fresh⟩
  · intro j k cj ck n hj hk hnj hnk
    rcases hcalls j cj hj with ⟨hji, hcj⟩ | ⟨hji, hj'⟩
    · rcases hcalls k ck hk with ⟨hki, -⟩ | ⟨hki, hk'⟩
      · exact hji.trans hki.symm
      · exact absurd (hcj ▸ hnj) (ha.inode_ne h hk' hki hnk)
    · rcases hcalls k ck hk with ⟨-, hck⟩ | ⟨hki, hk'⟩
      · exact absurd (hck ▸ hnk) (ha.inode_ne h hj' hji hnj)
      · exact h.own j k cj ck n hj' hk' hnj hnk
  · intro n hn
    rw [← h.old n hn]
    apply ha.kept
    exact fun hn' => absurd (hbound n hn').1 (Nat.not_le_of_lt hn)
  · rcases ha.destination with hsame | hpub
    · show d'.entries destination = _ ∨ _
      rw [hsame]
      refine h.destination.imp_right fun ⟨j, c, n, hj, hn, hres, hentry, hinode⟩ => ⟨j, ?_⟩
      by_cases hji : j = i
      · subst hji
        obtain ⟨h1, h2, h3, h4, h5⟩ := ha.result c hj hres
        exact ⟨c', n, Function.update_self .., h2.trans hn, h1, hsame.trans hentry, by rw [h5, hinode, h3, h4]⟩
      · refine ⟨c, n, (Function.update_of_ne hji _ _).trans hj, hn, hres, hsame.trans hentry, ?_⟩
        exact (ha.kept n (ha.inode_ne h hj hji hn)).trans hinode
    · exact .inr ⟨i, hpub⟩

/-! ## Single steps -/

/-- A name is free once its file is renamed away, and until then it has the call's own file. -/
theorem PhaseOk.name {phase : Phase} {path : String} (h : PhaseOk destination d payload mode phase)
    (hpath : phase.path = some path) : path ≠ destination ∧
      ((∃ inode, phase = .dropping path inode (.ok ())) ∧ d.entries path = none ∨
        ∃ inode, phase.inode = some inode ∧ d.entries path = some inode) := by
  cases phase with
  | creating attempt => cases hpath
  | writing path' inode rest =>
    cases hpath
    exact ⟨h.1.1, .inr ⟨inode, rfl, h.1.2⟩⟩
  | syncing path' inode =>
    cases hpath
    exact ⟨h.1.1, .inr ⟨inode, rfl, h.1.2⟩⟩
  | publishing path' inode =>
    cases hpath
    exact ⟨h.1.1, .inr ⟨inode, rfl, h.1.2⟩⟩
  | dropping path' inode result =>
    cases hpath
    cases result with
    | ok u => exact ⟨h.1, .inl ⟨⟨inode, rfl⟩, h.2.1⟩⟩
    | error err => exact ⟨h.1.1, .inr ⟨inode, rfl, h.1.2⟩⟩
  | returned inode result => cases hpath

theorem PhaseOk.opened {phase : Phase} {path : String} {inode : Nat} (h : PhaseOk destination d payload mode phase)
    (ho : phase.opened = some (path, inode)) :
    Holds destination d path inode ∧ phase.inode = some inode ∧ phase.result = none := by
  cases phase with
  | creating attempt => cases ho
  | writing path' inode' rest =>
    cases ho
    exact ⟨h.1, rfl, rfl⟩
  | syncing path' inode' =>
    cases ho
    exact ⟨h.1, rfl, rfl⟩
  | publishing path' inode' =>
    cases ho
    exact ⟨h.1, rfl, rfl⟩
  | dropping path' inode' result => cases ho
  | returned inode' result => cases ho

/-- No other call has the name of a call's file. -/
theorem WritersOk.name_ne {path path' : String} {inode : Nat} (h : WritersOk destination start s)
    (hc : s.calls i = some c) (hinode : c.phase.inode = some inode) (hentry : s.directory.entries path = some inode)
    (hother : OtherName s i path') : path' ≠ path := by
  obtain ⟨j, cj, hji, hj, hpath⟩ := hother
  rintro rfl
  rcases ((h.calls j cj hj).name hpath).2 with ⟨-, hnone⟩ | ⟨inode', hinode', hentry'⟩
  · rw [hentry] at hnone
    cases hnone
  · rw [hentry] at hentry'
    cases hentry'
    exact hji (h.own j i cj c inode hj hc hinode' hinode)

/-- A step that leaves the directory alone. -/
theorem Advances.of_same {c' : Call} (hphase : PhaseOk destination s.directory c'.payload c'.mode c'.phase)
    (hinode : ∀ n, c'.phase.inode = some n → ∃ c, s.calls i = some c ∧ c.phase.inode = some n)
    (hresult : ∀ c, s.calls i = some c → c.phase.result = some (.ok ()) → c'.phase.result = some (.ok ()) ∧
      c'.phase.inode = c.phase.inode ∧ c'.payload = c.payload ∧ c'.mode = c.mode) :
    Advances destination s i s.directory c' where
  phase := hphase
  fresh := Nat.le_refl _
  inode := fun n hn => .inl (hinode n hn)
  kept := fun _ _ => rfl
  names := fun _ _ _ => rfl
  destination := .inl rfl
  result := fun c hc hok => by
    obtain ⟨h1, h2, h3, h4⟩ := hresult c hc hok
    exact ⟨h1, h2, h3, h4, rfl⟩

/-- A call without a result has published nothing that could be lost. -/
theorem no_result {P : Call → Prop} (hc : s.calls i = some c) (hnone : c.phase.result = none) :
    ∀ c0, s.calls i = some c0 → c0.phase.result = some (.ok ()) → P c0 := by
  intro c0 hc0 hok
  rw [hc] at hc0
  cases hc0
  rw [hnone] at hok
  cases hok

theorem advances_create {attempt : Nat} (h : WritersOk destination start s) (hc : s.calls i = some c)
    (hphase : c.phase = .creating attempt) (hfree : s.directory.entries (temporaryName pid c.nonce attempt) = none)
    (hclear : Clear pid destination s (.create i)) :
    Advances destination s i (s.directory.create (temporaryName pid c.nonce attempt))
      { c with phase := .writing (temporaryName pid c.nonce attempt) s.directory.fresh c.payload } := by
  obtain ⟨hne, hpending⟩ := hclear c attempt hc hphase
  generalize temporaryName pid c.nonce attempt = path at *
  constructor
  · refine ⟨⟨hne, Function.update_self ..⟩, ?_⟩
    have hnew : (s.directory.create path).inodes s.directory.fresh = ⟨[], 0o600⟩ := Function.update_self ..
    rw [hnew]
    rfl
  · exact Nat.le_succ _
  · intro n hn
    cases hn
    exact .inr ⟨rfl, Nat.lt_succ_self _⟩
  · intro n hn
    exact Function.update_of_ne (fun heq => hn (congrArg some heq.symm)) _ _
  · rintro path' ⟨j, cj, -, hj, hpath⟩ -
    apply Function.update_of_ne
    rintro rfl
    rcases ((h.calls j cj hj).name hpath).2 with ⟨⟨inode, hdrop⟩, -⟩ | ⟨inode, -, hentry⟩
    · exact hpending j cj inode hj hdrop
    · rw [hfree] at hentry
      cases hentry
  · exact .inl (Function.update_of_ne hne.symm _ _)
  · exact no_result hc (by rw [hphase]; rfl)

/-- A change of a call's own file. -/
theorem advances_setInode {inode : Nat} {file : Inode} {phase : Phase} (hc : s.calls i = some c)
    (hmine : c.phase.inode = some inode) (hnone : c.phase.result = none) (hinode : phase.inode = some inode)
    (hphase : PhaseOk destination (s.directory.setInode inode file) c.payload c.mode phase) :
    Advances destination s i (s.directory.setInode inode file) { c with phase := phase } where
  phase := hphase
  fresh := Nat.le_refl _
  inode := fun _ hn => .inl ⟨c, hc, hmine.trans (hinode.symm.trans hn)⟩
  kept := fun _ hn => Function.update_of_ne (fun heq => hn (hinode.trans (congrArg some heq.symm))) _ _
  names := fun _ _ _ => rfl
  destination := .inl rfl
  result := no_result hc hnone

theorem advances_rename {n inode : Nat} {path : String} (h : WritersOk destination start s) (hc : s.calls i = some c)
    (hphase : c.phase = .publishing path inode) (hpath : s.directory.entries path = some n) :
    Advances destination s i (s.directory.rename path destination n hpath)
      { c with phase := .dropping path inode (.ok ()) } := by
  have hok := h.calls i c hc
  rw [hphase] at hok
  obtain ⟨⟨hne, hentry⟩, hinode⟩ := hok
  rw [hpath] at hentry
  cases hentry
  have hmine : c.phase.inode = some n := by rw [hphase]; rfl
  have hentries : (s.directory.rename path destination n hpath).entries =
      Function.update (Function.update s.directory.entries path none) destination (some n) := if_neg hne
  constructor
  · refine ⟨hne, ?_, hinode⟩
    rw [hentries, Function.update_of_ne hne, Function.update_self]
  · exact Nat.le_refl _
  · intro m hm
    exact .inl ⟨c, hc, hmine.trans hm⟩
  · exact fun _ _ => rfl
  · intro path' hother hne'
    rw [hentries, Function.update_of_ne hne', Function.update_of_ne (h.name_ne hc hmine hpath hother)]
  · refine .inr ⟨_, n, Function.update_self .., rfl, rfl, ?_, hinode⟩
    rw [hentries, Function.update_self]
  · exact no_result hc (by rw [hphase]; rfl)

theorem advances_remove {inode : Nat} {path : String} {result : Except WriteError Unit}
    (h : WritersOk destination start s) (hc : s.calls i = some c) (hphase : c.phase = .dropping path inode result) :
    Advances destination s i (s.directory.remove path) { c with phase := .returned (some inode) result } := by
  have hok := h.calls i c hc
  have hmine : c.phase.inode = some inode := by rw [hphase]; rfl
  have hpath : c.phase.path = some path := by rw [hphase]; rfl
  obtain ⟨hne, hentry⟩ := hok.name hpath
  rw [hphase] at hok
  constructor
  · cases result with
    | ok u => exact fun n hn => by cases hn; exact hok.2.2
    | error err => exact hok.2
  · exact Nat.le_refl _
  · intro n hn
    exact .inl ⟨c, hc, hmine.trans hn⟩
  · exact fun _ _ => rfl
  · intro path' hother hne'
    show Function.update s.directory.entries path none path' = _
    rcases hentry with ⟨-, hnone⟩ | ⟨inode', hinode', hentry⟩
    · rw [← hnone, Function.update_eq_self]
    · exact Function.update_of_ne (h.name_ne hc hinode' hentry hother) _ _
  · exact .inl (Function.update_of_ne hne.symm _ _)
  · intro c0 hc0 hres
    rw [hc] at hc0
    cases hc0
    refine ⟨?_, hmine.symm, rfl, rfl, rfl⟩
    rw [hphase] at hres
    exact hres

theorem setInode_inodes (d : Directory) (n : Nat) (file : Inode) : (d.setInode n file).inodes n = file :=
  Function.update_self ..

/-- Every clear step keeps the invariant. -/
theorem WritersOk.step {e : Event} (h : WritersOk destination start s) (hm : Moves pid destination s e s')
    (hclear : Clear pid destination s e) : WritersOk destination start s' := by
  cases hm with
  | call hnew =>
    refine h.advance (Advances.of_same ?_ (fun n hn => (by cases hn)) fun c hc => ?_)
    · exact trivial
    · rw [hnew] at hc
      cases hc
  | create hc hphase hfree => exact h.advance (advances_create h hc hphase hfree hclear)
  | @taken i attempt n c hc hphase _ =>
    have hnext : (Phase.nextName attempt).inode = none := by
      unfold Phase.nextName
      split <;> rfl
    apply h.advance (Advances.of_same _ _ (no_result hc (by rw [hphase]; rfl)))
    · show PhaseOk _ _ _ _ (Phase.nextName attempt)
      unfold Phase.nextName
      split
      · trivial
      · exact (by decide : WriteError.exhausted ≠ .notFound)
    · intro n hn
      exact absurd (hnext.symm.trans hn) (by simp)
  | @refuse i attempt c hc hphase =>
    apply h.advance (Advances.of_same _ (fun n hn => (by cases hn)) (no_result hc (by rw [hphase]; rfl)))
    exact (by decide : WriteError.other ≠ .notFound)
  | @write i inode count c path rest hc hphase =>
    have hok := h.calls i c hc
    rw [hphase] at hok
    apply h.advance (advances_setInode hc (by rw [hphase]; rfl) (by rw [hphase]; rfl) rfl _)
    refine ⟨hok.1, ?_⟩
    rw [setInode_inodes, List.append_assoc, List.take_append_drop]
    exact hok.2
  | @setMode i inode c path hc hphase =>
    have hok := h.calls i c hc
    rw [hphase] at hok
    apply h.advance (advances_setInode hc (by rw [hphase]; rfl) (by rw [hphase]; rfl) rfl _)
    refine ⟨hok.1, ?_⟩
    rw [setInode_inodes, ← hok.2, List.append_nil]
  | @sync i inode c path hc hphase =>
    have hok := h.calls i c hc
    rw [hphase] at hok
    apply h.advance (Advances.of_same hok _ (no_result hc (by rw [hphase]; rfl)))
    exact fun n hn => ⟨c, hc, by rw [hphase]; exact hn⟩
  | rename hpath hc hphase => exact h.advance (advances_rename h hc hphase hpath)
  | @missing i inode c path hnone hc hphase =>
    have hok := h.calls i c hc
    rw [hphase] at hok
    rw [hok.1.2] at hnone
    cases hnone
  | @fail i inode c path hc hopen =>
    obtain ⟨hholds, hinode, hnone⟩ := (h.calls i c hc).opened hopen
    refine h.advance (Advances.of_same ?_ (fun n hn => ⟨c, hc, hinode.trans hn⟩) (no_result hc hnone))
    exact ⟨hholds, by decide⟩
  | remove hc hphase => exact h.advance (advances_remove h hc hphase)
  | @keep i inode c path result hc hphase =>
    have hok := h.calls i c hc
    rw [hphase] at hok
    have hmine : c.phase.inode = some inode := by rw [hphase]; rfl
    apply h.advance (Advances.of_same _ _ _)
    · cases result with
      | ok u => exact fun n hn => by cases hn; exact hok.2.2
      | error err => exact hok.2
    · exact fun n hn => ⟨c, hc, hmine.trans hn⟩
    · intro c0 hc0 hres
      rw [hc] at hc0
      cases hc0
      rw [hphase] at hres
      exact ⟨hres, hmine.symm, rfl, rfl⟩

/-! ## Complete files only -/

/-- A call that has failed with `notFound` would break the invariant. -/
theorem PhaseOk.not_lost {phase : Phase} (h : PhaseOk destination d payload mode phase) :
    phase.result ≠ some (.error .notFound) := by
  intro hres
  cases phase with
  | dropping path inode result =>
    cases hres
    exact h.2 rfl
  | returned inode result =>
    cases hres
    exact h rfl
  | _ => cases hres

theorem WritersOk.intact (h : WritersOk destination start s) : Intact destination start s := by
  rcases h.destination with hsame | ⟨i, hpub⟩
  · refine .inl ⟨hsame, fun n hn => h.old n (start.used destination n hn)⟩
  · refine .inr ⟨i, hpub, fun j hj => ?_⟩
    obtain ⟨c, n, hc, hn, -, hentry, -⟩ := hpub
    obtain ⟨c', n', hc', hn', -, hentry', -⟩ := hj
    rw [hentry] at hentry'
    cases hentry'
    exact h.own j i c' c n hc' hc hn' hn

/-- Where every create is clear, the destination is at every moment the old file or the complete file of exactly one of
the calls, and no call fails because its temporary file is gone. -/
theorem publishes_complete {es : List Event}
    (h : Run ((writers pid destination start).restrict (Clear pid destination)) es s) :
    Intact destination start s ∧ NoneLost s := by
  have hok : WritersOk destination start s := by
    apply Run.invariant_state (I := WritersOk destination start) _ _ h
    · rintro s rfl
      exact ⟨fun i c hc => (by cases hc), Nat.le_refl _, fun i c n hc => (by cases hc),
        fun i j c c' n hc => (by cases hc), fun n _ => rfl, .inl rfl⟩
    · intro s e s' hi hs
      exact hi.step hs.1 hs.2
  exact ⟨hok.intact, fun i c hc => (hok.calls i c hc).not_lost⟩

/-- A create whose name is no destination and pending with no call is clear. -/
theorem clear_create {attempt : Nat} {c : Call} (hc : s.calls i = some c) (hphase : c.phase = .creating attempt)
    (hname : temporaryName pid c.nonce attempt ≠ destination)
    (hfree : ∀ j c' inode, s.calls j = some c' →
      c'.phase ≠ .dropping (temporaryName pid c.nonce attempt) inode (.ok ())) :
    Clear pid destination s (.create i) := by
  intro c' attempt' hc' hphase'
  rw [hc] at hc'
  cases hc'
  rw [hphase] at hphase'
  cases hphase'
  exact ⟨hname, hfree⟩

theorem two_calls {c0 c1 : Call} {path : String} (h0 : s.calls 0 = some c0) (h1 : s.calls 1 = some c1)
    (hmore : ∀ j, s.calls (j + 2) = none) (hp0 : ∀ inode, c0.phase ≠ .dropping path inode (.ok ()))
    (hp1 : ∀ inode, c1.phase ≠ .dropping path inode (.ok ())) :
    ∀ j c inode, s.calls j = some c → c.phase ≠ .dropping path inode (.ok ()) := by
  intro j c inode hc
  match j with
  | 0 => rw [h0] at hc; cases hc; exact hp0 inode
  | 1 => rw [h1] at hc; cases hc; exact hp1 inode
  | j + 2 => rw [hmore] at hc; cases hc

/-- A directory with the destination `config` in it. -/
def oldDirectory : Directory where
  entries := Function.update (fun _ => none) "config" (some 0)
  inodes := fun _ => ⟨[1], 0o600⟩
  fresh := 1
  used := by
    intro name n h
    by_cases hn : name = "config"
    · rw [hn, Function.update_self] at h
      cases h
      decide
    · rw [Function.update_of_ne hn] at h
      cases h

/-- Two calls that overlap and read the same nanosecond: the second finds the first's name taken, takes the next one
and publishes last. -/
theorem publishes_complete_overlap : ∃ s, Run ((writers 7 "config" oldDirectory).restrict (Clear 7 "config"))
    [.call 0, .call 1, .create 0, .create 1, .create 1, .write 0 1, .write 1 1, .setMode 1, .setMode 0, .sync 0,
      .sync 1, .rename 0, .rename 1, .remove 0, .remove 1] s ∧
    s.directory.entries "config" = some 2 ∧ Intact "config" oldDirectory s ∧ NoneLost s := by
  have h0 : Run ((writers 7 "config" oldDirectory).restrict (Clear 7 "config")) [] ⟨oldDirectory, fun _ => none⟩ :=
    .start rfl
  have h1 := h0.snoc ⟨@Moves.call 7 "config" _ 0 0 0o600 [2] rfl, trivial⟩
  have h2 := h1.snoc ⟨@Moves.call 7 "config" _ 1 0 0o600 [3] rfl, trivial⟩
  have h3 := h2.snoc ⟨@Moves.create 7 "config" _ 0 0 _ rfl rfl (by decide +kernel),
    clear_create rfl rfl (by decide +kernel) (two_calls rfl rfl (fun _ => rfl) nofun nofun)⟩
  have h4 := h3.snoc ⟨@Moves.taken 7 "config" _ 1 0 1 _ rfl rfl (by decide +kernel),
    clear_create rfl rfl (by decide +kernel) (two_calls rfl rfl (fun _ => rfl) nofun nofun)⟩
  have h5 := h4.snoc ⟨@Moves.create 7 "config" _ 1 1 _ rfl rfl (by decide +kernel),
    clear_create rfl rfl (by decide +kernel) (two_calls rfl rfl (fun _ => rfl) nofun nofun)⟩
  have h6 := h5.snoc ⟨@Moves.write 7 "config" _ 0 _ 1 _ _ _ rfl rfl, trivial⟩
  have h7 := h6.snoc ⟨@Moves.write 7 "config" _ 1 _ 1 _ _ _ rfl rfl, trivial⟩
  have h8 := h7.snoc ⟨@Moves.setMode 7 "config" _ 1 _ _ _ rfl rfl, trivial⟩
  have h9 := h8.snoc ⟨@Moves.setMode 7 "config" _ 0 _ _ _ rfl rfl, trivial⟩
  have h10 := h9.snoc ⟨@Moves.sync 7 "config" _ 0 _ _ _ rfl rfl, trivial⟩
  have h11 := h10.snoc ⟨@Moves.sync 7 "config" _ 1 _ _ _ rfl rfl, trivial⟩
  have h12 := h11.snoc ⟨@Moves.rename 7 "config" _ 0 _ 1 _ _ (by decide +kernel) rfl rfl, trivial⟩
  have h13 := h12.snoc ⟨@Moves.rename 7 "config" _ 1 _ 2 _ _ (by decide +kernel) rfl rfl, trivial⟩
  have h14 := h13.snoc ⟨@Moves.remove 7 "config" _ 0 _ _ _ _ rfl rfl, trivial⟩
  have h15 := h14.snoc ⟨@Moves.remove 7 "config" _ 1 _ _ _ _ rfl rfl, trivial⟩
  exact ⟨_, h15, by decide +kernel, publishes_complete h15⟩

/-- A call whose create is not clear loses its file as soon as the other call cleans up. -/
theorem pending_cleanup_loses {j attempt inode : Nat} {c c' : Call} (hc : s.calls i = some c)
    (hphase : c.phase = .creating attempt) (hfree : s.directory.entries (temporaryName pid c.nonce attempt) = none)
    (hj : s.calls j = some c') (hpending : c'.phase = .dropping (temporaryName pid c.nonce attempt) inode (.ok ())) :
    ∃ s1 s2 c2, Moves pid destination s (.create i) s1 ∧ Moves pid destination s1 (.remove j) s2 ∧
      s2.calls i = some c2 ∧ c2.phase.opened = some (temporaryName pid c.nonce attempt, s.directory.fresh) ∧
      s2.directory.entries (temporaryName pid c.nonce attempt) = none := by
  have hji : j ≠ i := by
    rintro rfl
    rw [hc] at hj
    cases hj
    rw [hphase] at hpending
    cases hpending
  have hj' := (Function.update_of_ne hji (some { c with
    phase := .writing (temporaryName pid c.nonce attempt) s.directory.fresh c.payload }) s.calls).trans hj
  refine ⟨_, _, { c with phase := .writing (temporaryName pid c.nonce attempt) s.directory.fresh c.payload },
    .create hc hphase hfree, .remove hj' hpending, ?_, rfl, Function.update_self ..⟩
  exact (Function.update_of_ne hji.symm _ _).trans (Function.update_self ..)

/-- Three calls read the same nanosecond. The second creates its file between the first's rename and its removal and
loses it: its rename fails, or, if the third has taken the name by then, publishes a file that is still empty. -/
theorem same_nanosecond :
    (∃ es s, Run (writers 7 "config" oldDirectory) es s ∧ ¬ NoneLost s) ∧
      ∃ es s, Run (writers 7 "config" oldDirectory) es s ∧ ¬ Intact "config" oldDirectory s := by
  have h0 : Run (writers 7 "config" oldDirectory) [] ⟨oldDirectory, fun _ => none⟩ := .start rfl
  have h1 := h0.snoc (@Moves.call 7 "config" _ 0 0 0o600 [2] rfl)
  have h2 := h1.snoc (@Moves.call 7 "config" _ 1 0 0o600 [3] rfl)
  have h3 := h2.snoc (@Moves.call 7 "config" _ 2 0 0o600 [4] rfl)
  have h4 := h3.snoc (@Moves.create 7 "config" _ 0 0 _ rfl rfl (by decide +kernel))
  have h5 := h4.snoc (@Moves.write 7 "config" _ 0 _ 1 _ _ _ rfl rfl)
  have h6 := h5.snoc (@Moves.setMode 7 "config" _ 0 _ _ _ rfl rfl)
  have h7 := h6.snoc (@Moves.sync 7 "config" _ 0 _ _ _ rfl rfl)
  have h8 := h7.snoc (@Moves.rename 7 "config" _ 0 _ 1 _ _ (by decide +kernel) rfl rfl)
  have h9 := h8.snoc (@Moves.create 7 "config" _ 1 0 _ rfl rfl (by decide +kernel))
  have h10 := h9.snoc (@Moves.remove 7 "config" _ 0 _ _ _ _ rfl rfl)
  have h11 := h10.snoc (@Moves.write 7 "config" _ 1 _ 1 _ _ _ rfl rfl)
  have h12 := h11.snoc (@Moves.setMode 7 "config" _ 1 _ _ _ rfl rfl)
  have h13 := h12.snoc (@Moves.sync 7 "config" _ 1 _ _ _ rfl rfl)
  constructor
  · have h14 := h13.snoc (@Moves.missing 7 "config" _ 1 _ _ _ (by decide +kernel) rfl rfl)
    exact ⟨_, _, h14, fun h => h 1 _ rfl rfl⟩
  · have h14 := h13.snoc (@Moves.create 7 "config" _ 2 0 _ rfl rfl (by decide +kernel))
    have h15 := h14.snoc (@Moves.rename 7 "config" _ 1 _ 3 _ _ (by decide +kernel) rfl rfl)
    obtain ⟨s, hrun, hentry, h0, h1, h2, hmore⟩ : ∃ s, Run (writers 7 "config" oldDirectory) _ s ∧
        s.directory.entries "config" = some 3 ∧ (s.calls 0).map (·.phase.inode) = some (some 1) ∧
        (s.calls 1).map (·.phase.inode) = some (some 2) ∧ (s.calls 2).map (·.phase.result) = some none ∧
        ∀ i, s.calls (i + 3) = none := ⟨_, h15, by decide +kernel, rfl, rfl, rfl, fun _ => rfl⟩
    refine ⟨_, s, hrun, ?_⟩
    rintro (⟨hsame, -⟩ | ⟨i, ⟨c, n, hc, hn, hres, hentry', -⟩, -⟩)
    · rw [hentry] at hsame
      exact absurd hsame (by decide +kernel)
    · rw [hentry] at hentry'
      cases hentry'
      match i, hc with
      | 0, hc => simp [hc, hn] at h0
      | 1, hc => simp [hc, hn] at h1
      | 2, hc => simp [hc, hres] at h2
      | i + 3, hc => simp [hmore] at hc

end DNSRivet.AtomicFile
