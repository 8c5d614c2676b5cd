/-
The command link: `install_command_at` and `remove_command_at` of `service/mod.rs`. Both look at what is at the
command's path and act only on nothing or on a link to the installed binary; anything else belongs to someone else.
The file system maps paths to what is there; how it resolves links is a parameter. `linking` is what each step of the
two may do to it, so the ownership holds wherever they stop.
-/
import DNSRivet.Base.FilePath
import DNSRivet.Base.System
import DNSRivet.OsDns.Backup

namespace DNSRivet.Service

open DNSRivet.Base Prog
open DNSRivet.OsDns (IoError supportDir)

/-! ## File operations -/

inductive FsOp
  | createDirAll (path : FilePath)
  | symlinkMetadata (path : FilePath)
  | readLink (path : FilePath)
  | canonicalize (path : FilePath)
  | removeFile (path : FilePath)
  | symlink (target link : FilePath)
  | rename (source destination : FilePath)
deriving DecidableEq, Repr

/-- What an operation answers; of the metadata, whether the path is a symbolic link. -/
abbrev FsOp.Reply : FsOp → Type
  | .createDirAll _ => Except String Unit
  | .symlinkMetadata _ => Except IoError Bool
  | .readLink _ => Except String FilePath
  | .canonicalize _ => Except String FilePath
  | .removeFile _ => Except IoError Unit
  | .symlink _ _ => Except String Unit
  | .rename _ _ => Except String Unit

abbrev FsAction := ExceptT String (Prog FsOp FsOp.Reply)

/-- An operation whose error is put behind a message. -/
def orFail {α : Type} (message : String) (r : Except String α) : Except String α := r.mapError (message ++ ": " ++ ·)

/-- The outcome of removing a file that need not exist. -/
def ignoreNotFound (message : String) : Except IoError Unit → Except String Unit
  | .ok () => .ok ()
  | .error err => if err.notFound then .ok () else .error (message ++ ": " ++ err.text)

def pathsResolveToSameFile (left right : FilePath) : FsAction Bool := do
  let left ← attempt (performE (.canonicalize left) id)
  let right ← attempt (performE (.canonicalize right) id)
  match left, right with
  | .ok left, .ok right => pure (left = right)
  | _, _ => pure false

/-- The name under which the new link is prepared. -/
def temporaryLink (parent : FilePath) (pid : Nat) : FilePath :=
    parent.join (".dnsrivet-link-" ++ toString pid ++ ".tmp")

/-- The end of `install_command_at`: the link is prepared under the temporary name and moved in place. -/
def replaceCommand (pid : Nat) (parent command binary : FilePath) : FsAction Unit := do
  let temporary := temporaryLink parent pid
  performE (.removeFile temporary) (ignoreNotFound "remove stale command link")
  performE (.symlink binary temporary) (orFail ("create command link " ++ temporary.display))
  performE (.rename temporary command) (orFail ("install command link " ++ command.display))

def installCommandAt (pid : Nat) (command binary invokingBinary : FilePath) : FsAction Unit :=
  match command.parent with
  | none => throw ("command path " ++ command.display ++ " has no parent")
  | some parent => do
    performE (.createDirAll parent) (orFail ("create command directory " ++ parent.display))
    match ← performE (.symlinkMetadata command) Except.ok with
    | .ok true =>
      let target ← performE (.readLink command) (orFail ("read command link " ++ command.display))
      if target ≠ binary then
        -- Homebrew owns its prefix link
        let same ← pathsResolveToSameFile command invokingBinary
        if same then pure ()
        else throw ("refusing to replace command link " ++ command.display ++ " -> " ++ target.display)
      else replaceCommand pid parent command binary
    | .ok false =>
      let same ← pathsResolveToSameFile command invokingBinary
      if same then pure () else throw ("refusing to replace existing command path " ++ command.display)
    | .error err =>
      if err.notFound then replaceCommand pid parent command binary
      else throw ("inspect command path " ++ command.display ++ ": " ++ err.text)

/-- The warnings about a path that is left untouched are left out. -/
def removeCommandAt (command binary : FilePath) : FsAction Unit := do
  match ← performE (.symlinkMetadata command) Except.ok with
  | .ok true =>
    let target ← performE (.readLink command) (orFail ("read command link " ++ command.display))
    if target = binary then
      performE (.removeFile command) fun r => r.mapError fun err =>
        "remove command link " ++ command.display ++ ": " ++ err.text
    else pure ()
  | .ok false => pure ()
  | .error err =>
    if err.notFound then pure () else throw ("inspect command path " ++ command.display ++ ": " ++ err.text)

/-! ## A file system -/

inductive Node
  | file
  | directory
  | link (target : FilePath)
deriving DecidableEq, Repr

abbrev Fs := FilePath → Option Node

/-- What an operation can answer and do; one that fails changes nothing, but for directories that were created on the
way. `resolve` is what `realpath` finds. -/
def fsStep (resolve : Fs → FilePath → Option FilePath) (fs : Fs) : (op : FsOp) → FsOp.Reply op → Fs → Prop
  | .createDirAll path, _, fs' =>
    ∀ p, fs' p = fs p ∨ (fs p = none ∧ fs' p = some .directory ∧ p.Above path)
  | .symlinkMetadata path, r, fs' =>
    fs' = fs ∧ (∀ b, r = .ok b → ∃ node, fs path = some node ∧ (b = true ↔ ∃ target, node = .link target)) ∧
      ∀ e, r = .error e → e.notFound = true → fs path = none
  | .readLink path, r, fs' => fs' = fs ∧ ∀ target, r = .ok target → fs path = some (.link target)
  | .canonicalize path, r, fs' => fs' = fs ∧ ∀ p, r = .ok p → resolve fs path = some p
  | .removeFile path, r, fs' => (r = .ok () ∧ fs' = Function.update fs path none) ∨ ((∃ e, r = .error e) ∧ fs' = fs)
  | .symlink target link, r, fs' =>
    (r = .ok () ∧ fs link = none ∧ fs' = Function.update fs link (some (.link target))) ∨
      ((∃ e, r = .error e) ∧ fs' = fs)
  | .rename source destination, r, fs' =>
    (r = .ok () ∧ fs' = Function.update (Function.update fs destination (fs source)) source none) ∨
      ((∃ e, r = .error e) ∧ fs' = fs)

section Ownership

variable (command binary temporary : FilePath)

/-- Nothing is at the command's path, or DNSRivet's own link. -/
def Ours (fs : Fs) : Prop := fs command = none ∨ fs command = some (.link binary)

/-- What each step may do: missing directories are created, the temporary name is DNSRivet's, and the command's path
changes only from nothing or DNSRivet's link to nothing or DNSRivet's link. -/
def linking : Contract Fs FsOp where
  pre := fun _ _ => True
  guar := fun fs fs' => ∀ p, p ≠ temporary →
    fs' p = fs p ∨ (fs p = none ∧ fs' p = some .directory ∧ p ≠ command) ∨
      (p = command ∧ Ours command binary fs ∧ Ours command binary fs')

variable {command binary temporary} {resolve : Fs → FilePath → Option FilePath} {fs : Fs}

abbrev Links (resolve : Fs → FilePath → Option FilePath) (command binary temporary : FilePath) {α : Type}
    (x : FsAction α) (fs : Fs) (Q : α → Fs → Prop) (E : Fs → Prop) : Prop :=
  SatE (linking command binary temporary) (fsStep resolve) x fs Q fun _ fs' => E fs'

theorem linking_refl : (linking command binary temporary).guar fs fs := fun _ _ => .inl rfl

/-- Whether two paths resolve to the same file changes nothing. -/
theorem links_pathsResolve (left right : FilePath) :
    Links resolve command binary temporary (pathsResolveToSameFile left right) fs
      (fun same fs' => fs' = fs ∧ (same = true → ∃ p, resolve fs left = some p ∧ resolve fs right = some p))
      (fun _ => False) := by
  have hone : ∀ path, Links resolve command binary temporary (attempt (performE (.canonicalize path) id)) fs
      (fun r fs' => fs' = fs ∧ ∀ p, r = .ok p → resolve fs path = some p) (fun _ => False) := by
    intro path
    refine satE_attempt (satE_performE trivial ?_)
    rintro r fs' ⟨rfl, hr⟩
    refine ⟨linking_refl, ?_⟩
    cases r with
    | ok p => exact ⟨rfl, fun q hq => by cases hq; exact hr p rfl⟩
    | error e => exact ⟨rfl, fun q hq => by cases hq⟩
  refine (hone left).seq ?_ fun _ _ he => he
  rintro l fs1 ⟨rfl, hl⟩
  refine (hone right).seq ?_ fun _ _ he => he
  rintro r fs2 ⟨rfl, hr⟩
  cases l with
  | error e => exact satE_pure ⟨rfl, by simp⟩
  | ok l =>
    cases r with
    | error e => exact satE_pure ⟨rfl, by simp⟩
    | ok r =>
      refine satE_pure ⟨rfl, fun hsame => ⟨l, hl l rfl, ?_⟩⟩
      rw [hr r rfl, of_decide_eq_true hsame]

/-- The command's path holds the same before and after a move of the temporary name only. -/
theorem update_temporary (hne : command ≠ temporary) (node : Option Node) :
    Function.update fs temporary node command = fs command := Function.update_of_ne hne _ _

/-- A link is put where nothing or DNSRivet's link is. -/
theorem links_replaceCommand {pid : Nat} {parent : FilePath} (hne : command ≠ temporaryLink parent pid)
    (hours : Ours command binary fs) :
    Links resolve command binary (temporaryLink parent pid) (replaceCommand pid parent command binary) fs
      (fun _ fs' => fs' command = some (.link binary)) (fun fs' => fs' command = fs command) := by
  have hguar : ∀ {fs1 : Fs} (node : Option Node),
      (linking command binary (temporaryLink parent pid)).guar fs1
        (Function.update fs1 (temporaryLink parent pid) node) :=
    fun node p hp => .inl (Function.update_of_ne hp _ _)
  have hremove : Links resolve command binary (temporaryLink parent pid)
      (performE (.removeFile (temporaryLink parent pid)) (ignoreNotFound "remove stale command link")) fs
      (fun _ fs' => fs' command = fs command) (fun fs' => fs' command = fs command) := by
    refine satE_performE trivial ?_
    rintro r fs' (⟨rfl, rfl⟩ | ⟨⟨e, rfl⟩, rfl⟩)
    · exact ⟨hguar none, update_temporary hne none⟩
    · refine ⟨linking_refl, ?_⟩
      unfold ignoreNotFound
      by_cases hnf : e.notFound = true
      · simp only [hnf, if_true]
      · simp only [hnf, Bool.false_eq_true, if_false]
  refine hremove.seq (fun _ fs1 h1 => ?_) fun _ _ he => he
  have hlink : Links resolve command binary (temporaryLink parent pid)
      (performE (.symlink binary (temporaryLink parent pid))
        (orFail ("create command link " ++ (temporaryLink parent pid).display))) fs1
      (fun _ fs' => fs' command = fs command ∧ fs' (temporaryLink parent pid) = some (.link binary))
      (fun fs' => fs' command = fs command) := by
    refine satE_performE trivial ?_
    rintro r fs' (⟨rfl, -, rfl⟩ | ⟨⟨e, rfl⟩, rfl⟩)
    · exact ⟨hguar _, (update_temporary hne _).trans h1, Function.update_self ..⟩
    · exact ⟨linking_refl, h1⟩
  refine hlink.seq (fun _ fs2 h2 => ?_) fun _ _ he => he
  obtain ⟨hsame, hprepared⟩ := h2
  refine satE_performE trivial ?_
  rintro r fs' (⟨rfl, rfl⟩ | ⟨⟨e, rfl⟩, rfl⟩)
  · have hnew : Function.update (Function.update fs2 command (fs2 (temporaryLink parent pid)))
      (temporaryLink parent pid) none
        command = some (.link binary) := by
      rw [Function.update_of_ne hne, Function.update_self, hprepared]
    refine ⟨fun p hp => ?_, hnew⟩
    by_cases hcommand : p = command
    · refine .inr (.inr ⟨hcommand, ?_, .inr hnew⟩)
      rw [Ours, hsame]
      exact hours
    · exact .inl (by rw [Function.update_of_ne hp, Function.update_of_ne hcommand])
  · exact ⟨linking_refl, hsame⟩

/-- A metadata lookup that tells what is at the command's path. -/
theorem links_symlinkMetadata :
    Links resolve command binary temporary (performE (.symlinkMetadata command) Except.ok) fs
      (fun r fs' => fs' = fs ∧ (∀ b, r = .ok b → ∃ node, fs command = some node ∧
        (b = true ↔ ∃ target, node = .link target)) ∧
        ∀ e, r = .error e → e.notFound = true → fs command = none)
      (fun _ => False) :=
  satE_performE trivial fun _ _ hs => ⟨by rw [hs.1]; exact linking_refl, hs⟩

theorem links_readLink (message : String) :
    Links resolve command binary temporary (performE (.readLink command) (orFail message)) fs
      (fun target fs' => fs' = fs ∧ fs command = some (.link target)) (fun fs' => fs' = fs) := by
  refine satE_performE trivial ?_
  rintro r fs' ⟨rfl, hr⟩
  cases r with
  | ok target => exact ⟨linking_refl, rfl, hr target rfl⟩
  | error e => exact ⟨linking_refl, rfl⟩

/-- When the command is someone else's and resolves to the program that runs, it is left alone. -/
theorem links_leaveAlone (invoking : FilePath) (message : String) :
    Links resolve command binary temporary
      (pathsResolveToSameFile command invoking >>= fun same => if same then pure () else throw message) fs
      (fun _ fs' => fs' = fs ∧ ∃ p, resolve fs command = some p ∧ resolve fs invoking = some p)
        (fun fs' => fs' = fs) := by
  refine (links_pathsResolve command invoking).seq ?_ fun _ _ he => he.elim
  rintro same fs' ⟨rfl, hsame⟩
  split
  · rename_i h
    exact satE_pure ⟨rfl, hsame h⟩
  · exact satE_throw rfl

/-- Installing the command takes only a path that is free or DNSRivet's, at every step and however it ends.
With `Ok` the
command is DNSRivet's link, or was left alone and resolves to the program that ran; with an error it is unchanged. -/
theorem installCommandAt_owned {parent invoking : FilePath} (pid : Nat) (hparent : command.parent = some parent)
    (hne : command ≠ temporaryLink parent pid) :
    Links resolve command binary (temporaryLink parent pid) (installCommandAt pid command binary invoking) fs
      (fun _ fs' => fs' command = some (.link binary) ∨
        (fs' command = fs command ∧ ∃ p, resolve fs' command = some p ∧ resolve fs' invoking = some p))
      (fun fs' => fs' command = fs command) := by
  unfold installCommandAt
  rw [hparent]
  have hdirs : Links resolve command binary (temporaryLink parent pid)
      (performE (.createDirAll parent) (orFail ("create command directory " ++ parent.display))) fs
      (fun _ fs' => fs' command = fs command) (fun fs' => fs' command = fs command) := by
    refine satE_performE trivial ?_
    intro r fs' hs
    have habove : ∀ p, p.Above parent → p ≠ command := by
      rintro p hp rfl
      exact FilePath.not_above_parent hparent hp
    have hcommand : fs' command = fs command := by
      rcases hs command with hsame | ⟨-, -, hp⟩
      · exact hsame
      · exact absurd rfl (habove _ hp)
    refine ⟨fun p _ => ?_, ?_⟩
    · rcases hs p with hsame | ⟨hnone, hdir, hp⟩
      · exact .inl hsame
      · exact .inr (.inl ⟨hnone, hdir, habove p hp⟩)
    · cases r <;> exact hcommand
  refine hdirs.seq (fun _ fs1 h1 => ?_) fun _ _ he => he
  refine links_symlinkMetadata.seq ?_ fun _ _ he => he.elim
  rintro r fs2 ⟨rfl, hmeta, hmissing⟩
  -- someone else's command is left alone
  have hleave : ∀ message, Links resolve command binary (temporaryLink parent pid)
      (pathsResolveToSameFile command invoking >>= fun same => if same then pure () else throw message) fs2
      (fun _ fs' => fs' command = some (.link binary) ∨
        (fs' command = fs command ∧ ∃ p, resolve fs' command = some p ∧ resolve fs' invoking = some p))
      (fun fs' => fs' command = fs command) := by
    intro message
    refine (links_leaveAlone invoking message).mono ?_ ?_
    · rintro _ fs' ⟨rfl, hsame⟩
      exact .inr ⟨h1, hsame⟩
    · rintro _ fs' rfl
      exact h1
  have hreplace : Ours command binary fs2 → Links resolve command binary (temporaryLink parent pid)
      (replaceCommand pid parent command binary) fs2
      (fun _ fs' => fs' command = some (.link binary) ∨
        (fs' command = fs command ∧ ∃ p, resolve fs' command = some p ∧ resolve fs' invoking = some p))
      (fun fs' => fs' command = fs command) := fun hours =>
    (links_replaceCommand hne hours).mono (fun _ _ h => .inl h) fun _ _ h => h.trans h1
  split
  · refine (links_readLink _).seq ?_ fun _ _ he => he ▸ h1
    rintro target fs3 ⟨rfl, htarget⟩
    split
    · exact hleave _
    · rename_i hbinary
      refine hreplace (.inr ?_)
      rw [htarget, not_not.1 hbinary]
  · exact hleave _
  · rename_i err
    split
    · rename_i hnf
      exact hreplace (.inl (hmissing err rfl hnf))
    · exact satE_throw h1

/-- Removing the command removes DNSRivet's link and nothing else, at every step; with `Ok` the link is not there any
more, and someone else's command is untouched. -/
theorem removeCommandAt_owned :
    Links resolve command binary temporary (removeCommandAt command binary) fs
      (fun _ fs' => fs' command ≠ some (.link binary) ∧ (fs command ≠ some (.link binary) → fs' = fs))
      (fun fs' => fs' = fs) := by
  refine links_symlinkMetadata.seq ?_ fun _ _ he => he.elim
  rintro r fs1 ⟨rfl, hmeta, hmissing⟩
  split
  · refine (links_readLink _).seq ?_ fun _ _ he => he
    rintro target fs2 ⟨rfl, htarget⟩
    split
    · rename_i hbinary
      subst hbinary
      refine satE_performE trivial ?_
      rintro r fs' (⟨rfl, rfl⟩ | ⟨⟨e, rfl⟩, rfl⟩)
      · refine ⟨fun p hp => ?_, ?_, fun hother => absurd htarget hother⟩
        · by_cases hcommand : p = command
          · exact .inr (.inr ⟨hcommand, .inr htarget, .inl (Function.update_self ..)⟩)
          · exact .inl (Function.update_of_ne hcommand _ _)
        · rw [Function.update_self]
          simp
      · exact ⟨linking_refl, rfl⟩
    · rename_i hother
      refine satE_pure ⟨?_, fun _ => rfl⟩
      rw [htarget]
      simpa using hother
  · refine satE_pure ⟨fun hlink => ?_, fun _ => rfl⟩
    obtain ⟨node, hnode, hiff⟩ := hmeta false rfl
    rw [hlink] at hnode
    cases hnode
    exact absurd (hiff.2 ⟨binary, rfl⟩) (by decide)
  · rename_i err
    split
    · rename_i hnf
      refine satE_pure ⟨?_, fun _ => rfl⟩
      rw [hmissing err rfl hnf]
      simp
    · exact satE_throw rfl

end Ownership

/-! ## The installed command -/

def binaryPath : FilePath := supportDir.join "dnsrivet"
def commandPath : FilePath := ⟨true, ["usr", "local", "bin", "dnsrivet"]⟩
def commandDir : FilePath := ⟨true, ["usr", "local", "bin"]⟩

def installCommand (pid : Nat) (invokingBinary : FilePath) : FsAction Unit :=
  installCommandAt pid commandPath binaryPath invokingBinary

def removeCommand : FsAction Unit := removeCommandAt commandPath binaryPath

/-- The command's name is not that of a temporary link. -/
theorem commandPath_ne_temporary (pid : Nat) : commandPath ≠ temporaryLink commandDir pid := by
  intro h
  have hlast : "dnsrivet" = ".dnsrivet-link-" ++ toString pid ++ ".tmp" := by
    have := congrArg (fun p => p.components.getLast?) h
    simpa [commandPath, temporaryLink, FilePath.join, commandDir] using this
  have hhead := congrArg (fun s => s.toList.head?) hlast
  simp at hhead

/-- What runs, for a process with its number. -/
inductive LinkTask
  | install (invokingBinary : FilePath)
  | remove
deriving DecidableEq, Repr

def LinkTask.program (pid : Nat) : LinkTask → Prog FsOp FsOp.Reply (Except String Unit)
  | .install invokingBinary => (installCommand pid invokingBinary).run
  | .remove => removeCommand.run

/-- What a task that succeeded leaves. -/
def LinkTask.Done (resolve : Fs → FilePath → Option FilePath) (fs : Fs) : LinkTask → Prop
  | .install invokingBinary =>
    fs commandPath = some (.link binaryPath) ∨
      ∃ p, resolve fs commandPath = some p ∧ resolve fs invokingBinary = some p
  | .remove => fs commandPath ≠ some (.link binaryPath)

structure Linker where
  fs : Fs
  running : Option (Nat × LinkTask × Prog FsOp FsOp.Reply (Except String Unit))

inductive LinkEvent
  | start (pid : Nat) (task : LinkTask)
  | step
  /-- The task ended or its process died. -/
  | gone
  /-- Another program changed the file system. -/
  | foreign

/-- Tasks run one at a time, under the lifecycle lock; between them the file system may change in any way. -/
def linkers (resolve : Fs → FilePath → Option FilePath) : System Linker LinkEvent where
  init := fun c => c.running = none
  step := fun c e c' =>
    match e with
    | .start pid task => c.running = none ∧ c' = ⟨c.fs, some (pid, task, task.program pid)⟩
    | .step => ∃ pid task op k r fs', c.running = some (pid, task, .call op k) ∧ fsStep resolve c.fs op r fs' ∧
        c' = ⟨fs', some (pid, task, k r)⟩
    | .gone => c' = ⟨c.fs, none⟩
    | .foreign => c.running = none ∧ ∃ fs', c' = ⟨fs', none⟩

variable {resolve : Fs → FilePath → Option FilePath}

theorem sat_linkTask (pid : Nat) (task : LinkTask) (fs : Fs) :
    (task.program pid).Sat (linking commandPath binaryPath (temporaryLink commandDir pid)) (fsStep resolve) fs
      fun r fs' => r = .ok () → task.Done resolve fs' := by
  cases task with
  | install invokingBinary =>
    have hparent : commandPath.parent = some commandDir := rfl
    refine Sat.mono (installCommandAt_owned pid hparent (commandPath_ne_temporary pid)) ?_
    rintro (_ | _) fs' h hr
    · cases hr
    · exact h.imp id fun hleft => hleft.2
  | remove =>
    refine Sat.mono removeCommandAt_owned ?_
    rintro (_ | _) fs' h hr
    · cases hr
    · exact h.1

/-- What is left of the running task respects the ownership. -/
def LinkerOk (resolve : Fs → FilePath → Option FilePath) (c : Linker) : Prop :=
  ∀ pid task p, c.running = some (pid, task, p) →
    p.Sat (linking commandPath binaryPath (temporaryLink commandDir pid)) (fsStep resolve) c.fs
      fun r fs' => r = .ok () → task.Done resolve fs'

theorem linkers_step {c c' : Linker} {e : LinkEvent} (h : LinkerOk resolve c) (hs : (linkers resolve).step c e c') :
    LinkerOk resolve c' := by
  cases e with
  | start pid task =>
    obtain ⟨-, rfl⟩ := hs
    rintro _ _ _ ⟨⟩
    exact sat_linkTask pid task c.fs
  | step =>
    obtain ⟨pid, task, op, k, r, fs', hrun, hop, rfl⟩ := hs
    rintro _ _ _ ⟨⟩
    exact ((h _ _ _ hrun).2 r fs' hop).2
  | gone =>
    cases hs
    rintro _ _ _ ⟨⟩
  | foreign =>
    obtain ⟨-, fs', rfl⟩ := hs
    rintro _ _ _ ⟨⟩

/-- The command link in any run. A step of DNSRivet changes the command's path only from nothing or its own link to
nothing or its own link, and beside it only creates missing directories and moves its temporary name, wherever an
installation or a removal stops. An installation that succeeds leaves its link, or a command that resolves to the
program that ran; a removal that succeeds leaves no link of DNSRivet's. -/
theorem command_link_owned {es : List LinkEvent} {c : Linker} (h : Run (linkers resolve) es c) :
    (∀ pid task op k r fs', c.running = some (pid, task, .call op k) → fsStep resolve c.fs op r fs' →
      ∀ p, p ≠ temporaryLink commandDir pid →
        fs' p = c.fs p ∨ (c.fs p = none ∧ fs' p = some .directory ∧ p ≠ commandPath) ∨
          (p = commandPath ∧ Ours commandPath binaryPath c.fs ∧ Ours commandPath binaryPath fs')) ∧
    ∀ pid task, c.running = some (pid, task, .ret (.ok ())) → task.Done resolve c.fs := by
  have hok : LinkerOk resolve c := by
    refine h.invariant_state (I := LinkerOk resolve) ?_ fun _ _ _ hc hs => linkers_step hc hs
    intro c hc pid task p hp
    rw [hc] at hp
    cases hp
  constructor
  · intro pid task op k r fs' hrun hop
    exact ((hok _ _ _ hrun).2 r fs' hop).1
  · intro pid task hrun
    exact hok _ _ _ hrun rfl

/-! ## A first installation -/

/-- A system with the command's directory and nothing in it. -/
def freshFs : Fs := fun p => if p = commandDir then some .directory else none

def preparedFs : Fs := Function.update freshFs (temporaryLink commandDir 7) (some (.link binaryPath))

def linkedFs : Fs :=
  Function.update (Function.update preparedFs commandPath (preparedFs (temporaryLink commandDir 7)))
    (temporaryLink commandDir 7) none

/-- One more answer in a run. -/
theorem linkers_answer {es : List LinkEvent} {fs fs' : Fs} {pid : Nat} {task : LinkTask} {op : FsOp}
    {k : FsOp.Reply op → Prog FsOp FsOp.Reply (Except String Unit)}
    (h : Run (linkers resolve) es ⟨fs, some (pid, task, .call op k)⟩) (r : FsOp.Reply op)
      (hr : fsStep resolve fs op r fs') :
    Run (linkers resolve) (es ++ [.step]) ⟨fs', some (pid, task, k r)⟩ :=
  h.snoc ⟨pid, task, op, k, r, fs', rfl, hr, rfl⟩

/-- The installation of process 7 on a fresh system. -/
theorem run_freshInstall (invoking : FilePath) :
    ∃ es, Run (linkers fun _ _ => none) es ⟨linkedFs, some (7, .install invoking, .ret (.ok ()))⟩ := by
  have hstart : (linkers fun _ _ => none).step ⟨freshFs, none⟩ (.start 7 (.install invoking))
      ⟨freshFs, some (7, .install invoking, LinkTask.program 7 (.install invoking))⟩ := ⟨rfl, rfl⟩
  have h0 : Run (linkers fun _ _ => none) [] ⟨freshFs, none⟩ := .start rfl
  have h1 := linkers_answer (h0.snoc hstart) (.ok ()) fun p => .inl rfl
  have h2 := linkers_answer h1 (.error ⟨true, "No such file or directory"⟩)
    ⟨rfl, (fun _ hb => nomatch hb), fun _ _ _ => rfl⟩
  have h3 := linkers_answer h2 (.error ⟨true, "No such file or directory"⟩) (.inr ⟨⟨_, rfl⟩, rfl⟩)
  have h4 := linkers_answer h3 (.ok ()) (.inl ⟨rfl, rfl, rfl⟩)
  have h5 := linkers_answer h4 (.ok ()) (.inl ⟨rfl, rfl⟩)
  exact ⟨_, h5⟩

theorem command_link_owned_fresh : linkedFs commandPath = some (.link binaryPath) := by
  obtain ⟨es, h⟩ := run_freshInstall binaryPath
  rcases (command_link_owned h).2 7 (.install binaryPath) rfl with hlink | ⟨p, hp, -⟩
  · exact hlink
  · cases hp

end DNSRivet.Service
