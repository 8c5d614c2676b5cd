/-
`Manager::forward` as a program over what all its callers share: the attempt budget, the fallback list and the two
fallback flags. What happens between two awaits is one piece, and at an await other tasks may do anything to what is
shared. A single upstream is tried without `forward_hedged`; the two ways come to the same (`fast_path_eq_hedged`).
-/
import DNSRivet.Base.Program
import DNSRivet.Upstream.Hedge

namespace DNSRivet.Upstream.Caller

open DNSRivet.Base DNSRivet.Net Prog

/-! ## What callers share -/

structure Shared where
  /-- Free permits of the attempt budget. -/
  permits : Nat
  systemFallback : List SocketAddr
  fallbackActive : Bool
  fallbackFailed : Bool
deriving DecidableEq, Repr

/-- What a task of the join set comes to, or the hedge timer before it. -/
inductive Joined
  | finished (index : Nat) (result : Except String Bytes)
  | aborted
  | hedge
deriving DecidableEq

inductive ManagerOp
  | tryAcquire
  | release
  | systemFallback
  | swapActive (value : Bool)
  | swapFailed (value : Bool)
  | now
  /-- The rest are awaits, or start and end tasks. -/
  | run (entry : Entry) (query : Bytes) (clientTcp : Bool)
  | runUntilHedge (entry : Entry) (query : Bytes) (clientTcp : Bool) (hedgeAt : Nat)
  | spawn (index : Nat)
  | joinNext (hedgeAt : Option Nat)
  | abort (index : Nat)
  | detachAll
  | legacyQuery (server : SocketAddr) (query : Bytes) (clientTcp : Bool)

abbrev ManagerOp.Reply : ManagerOp → Type
  | .tryAcquire => Bool
  | .release => Unit
  | .systemFallback => List SocketAddr
  | .swapActive _ => Bool
  | .swapFailed _ => Bool
  | .now => Nat
  | .run _ _ _ => Except String Bytes
  | .runUntilHedge _ _ _ _ => Option (Except String Bytes)
  | .spawn _ => Unit
  | .joinNext _ => Joined
  | .abort _ => Unit
  | .detachAll => Unit
  -- nothing within the two seconds a server gets
  | .legacyQuery _ _ _ => Option (Except String Bytes)

abbrev Forwarding := Prog ManagerOp ManagerOp.Reply

def tryAcquire : Forwarding Bool := perform ManagerOp.tryAcquire

/-- A permit is dropped. -/
def release : Forwarding Unit := perform ManagerOp.release

/-- A copy of the list; its lock is given back before any await. -/
def readSystemFallback : Forwarding (List SocketAddr) := perform ManagerOp.systemFallback

def swapActive (value : Bool) : Forwarding Bool := perform (ManagerOp.swapActive value)

def swapFailed (value : Bool) : Forwarding Bool := perform (ManagerOp.swapFailed value)

def now : Forwarding Nat := perform ManagerOp.now

def spawn (index : Nat) : Forwarding Unit := perform (ManagerOp.spawn index)

def joinNext (hedgeAt : Option Nat) : Forwarding Joined := perform (ManagerOp.joinNext hedgeAt)

def abort (index : Nat) : Forwarding Unit := perform (ManagerOp.abort index)

def detachAll : Forwarding Unit := perform ManagerOp.detachAll

variable (query : Bytes) (clientTcp : Bool)

def run (entry : Entry) : Forwarding (Except String Bytes) := perform (ManagerOp.run entry query clientTcp)

def runUntilHedge (entry : Entry) (hedgeAt : Nat) : Forwarding (Option (Except String Bytes)) :=
  perform (ManagerOp.runUntilHedge entry query clientTcp hedgeAt)

def legacyQuery (server : SocketAddr) : Forwarding (Option (Except String Bytes)) :=
  perform (ManagerOp.legacyQuery server query clientTcp)

/-! ## The caller -/

/-- `configured_answer`; the flags are swapped when there is an answer. -/
def configuredAnswer (result : Except String Bytes) : Forwarding (Option Bytes) :=
  match Upstream.configuredAnswer query result with
  | none => pure none
  | some response => do
    let _ ← swapActive false
    let _ ← swapFailed false
    pure (some response)

/-- The loop of `forward_to_system` over its snapshot of the servers. -/
def trySystem : List SocketAddr → Forwarding (Option Bytes)
  | [] => do
    let _ ← swapFailed true
    pure none
  | server :: servers => do
    match ← legacyQuery query clientTcp server with
    | some (.ok response) =>
      if rcode response = servfail then trySystem servers
      else do
        let _ ← swapFailed false
        pure (some response)
    | some (.error _) => trySystem servers
    | none => trySystem servers

def forwardToSystem : Forwarding (Option Bytes) := do
  if ← tryAcquire then
    let servers ← readSystemFallback
    let response ← (if servers.isEmpty then do
        let _ ← swapFailed true
        pure none
      else do
        let _ ← swapActive true
        trySystem query clientTcp servers)
    release
    pure response
  else pure none

/-- The attempt that the caller runs itself, holding its permit, up to the hedge timer if that is set. -/
def inlineAttempt (entry : Entry) :
    Option Nat → Forwarding (Option (Except String Bytes))
  | none => do
    let result ← run query clientTcp entry
    release
    pure (some result)
  | some hedgeAt => do
    match ← runUntilHedge query clientTcp entry hedgeAt with
    | some result => do
      release
      pure (some result)
    | none => pure none

/-- Abort the legacy attempts. -/
def abortAll : List Nat → Forwarding Unit
  | [] => pure ()
  | index :: indices => do
    abort index
    abortAll indices

/-- The loop of `forward_hedged`, `attempts` being the tasks of the join set. It may go on for ever, so it is given
the number of turns it may take. -/
def hedgedLoop (entries : List Entry) :
    Nat → Nat → List Nat → Nat → Option Nat → Forwarding (Option (Option Bytes))
  | 0, _, _, _, _ => pure none
  | turns + 1, attempts, legacyAttempts, next, hedgeAt => do
    let due ← (match hedgeAt with
      | none => pure false
      | some hedgeAt => do
        let now ← Caller.now
        pure (decide (hedgeAt ≤ now)))
    if attempts = 0 ∨ due = true then
      match entries[next]? with
      | none =>
        if attempts = 0 then pure (some none)
        else hedgedLoop entries turns attempts legacyAttempts next none
      | some entry => do
        if ← tryAcquire then
          let racer := entries[next + 1]?
          let hedgeAt ← (if 0 < entry.timeoutMs ∧ (racer.any fun racer => 0 < racer.timeoutMs) = true then do
              let now ← Caller.now
              pure (some (now + hedgeDelay))
            else pure none)
          let completed ← (if attempts = 0 then inlineAttempt query clientTcp entry hedgeAt else pure none)
          match completed with
          | some result => do
            match ← configuredAnswer query result with
            | some response => pure (some (some response))
            | none => hedgedLoop entries turns attempts legacyAttempts (next + 1) hedgeAt
          | none => do
            spawn next
            let legacyAttempts := if entry.backend.isLegacy then legacyAttempts ++ [next] else legacyAttempts
            hedgedLoop entries turns (attempts + 1) legacyAttempts (next + 1) hedgeAt
        else if attempts = 0 then pure (some none)
        else hedgedLoop entries turns attempts legacyAttempts next none
    else do
      match ← joinNext hedgeAt with
      | .finished _ result => do
        match ← configuredAnswer query result with
        | some response => do
          abortAll legacyAttempts
          detachAll
          pure (some (some response))
        | none => hedgedLoop entries turns (attempts - 1) legacyAttempts next hedgeAt
      | .aborted => hedgedLoop entries turns (attempts - 1) legacyAttempts next hedgeAt
      | .hedge => hedgedLoop entries turns attempts legacyAttempts next hedgeAt

def forwardHedged (entries : List Entry) (turns : Nat) :
    Forwarding (Option (Option Bytes)) :=
  hedgedLoop query clientTcp entries turns 0 [] 0 none

/-- The end of `forward`: without an answer, the system servers. -/
def orSystem : Option Bytes → Forwarding (Option Bytes)
  | some response => pure (some response)
  | none => forwardToSystem query clientTcp

/-- `forward` by the general loop. -/
def forwardByHedged (entries : List Entry) (turns : Nat) :
    Forwarding (Option (Option Bytes)) := do
  match ← forwardHedged query clientTcp entries turns with
  | some response => do
    let answer ← orSystem query clientTcp response
    pure (some answer)
  | none => pure none

/-- `forward` with one upstream: without a permit it returns at once. -/
def forwardSingle (entry : Entry) : Forwarding (Option Bytes) := do
  if ← tryAcquire then
    let result ← run query clientTcp entry
    let response ← configuredAnswer query result
    release
    orSystem query clientTcp response
  else pure none

def forward (entries : List Entry) (turns : Nat) :
    Forwarding (Option (Option Bytes)) :=
  match entries with
  | [entry] => do
    let answer ← forwardSingle query clientTcp entry
    pure (some answer)
  | _ => forwardByHedged query clientTcp entries turns

/-! ## Execution -/

/-- How awaits resolve: the `n`-th one, from what is shared when it is reached, with what the others have made of
that when it is over. Starting and ending tasks counts as well. -/
abbrev Environment := Nat → Shared → (op : ManagerOp) → op.Reply × Shared

/-- What is shared, and the number of awaits so far. -/
structure State where
  shared : Shared
  awaits : Nat

def handle (env : Environment) (s : State) (op : ManagerOp) : op.Reply × State :=
  match op with
  | .tryAcquire =>
    if 0 < s.shared.permits then (true, { s with shared := { s.shared with permits := s.shared.permits - 1 } })
    else (false, s)
  | .release => ((), { s with shared := { s.shared with permits := s.shared.permits + 1 } })
  | .systemFallback => (s.shared.systemFallback, s)
  | .swapActive value => (s.shared.fallbackActive, { s with shared := { s.shared with fallbackActive := value } })
  | .swapFailed value => (s.shared.fallbackFailed, { s with shared := { s.shared with fallbackFailed := value } })
  | .now => ((env s.awaits s.shared .now).1, s)
  | op => ((env s.awaits s.shared op).1, ⟨(env s.awaits s.shared op).2, s.awaits + 1⟩)

variable {query : Bytes} {clientTcp : Bool} {env : Environment} {s : State} {entry : Entry} {turns : Nat}

/-- What is left after one permit is taken. -/
def State.acquired (s : State) : State := { s with shared := { s.shared with permits := s.shared.permits - 1 } }

def State.released (s : State) : State := { s with shared := { s.shared with permits := s.shared.permits + 1 } }

/-- The flags after an answer of a configured upstream. -/
def State.recovered (s : State) : State :=
  { s with shared := { s.shared with fallbackActive := false, fallbackFailed := false } }

theorem run_tryAcquire (h : 0 < s.shared.permits) : tryAcquire.run (handle env) s = (true, s.acquired) := by
  show handle env s .tryAcquire = _
  unfold handle
  rw [if_pos h]
  rfl

theorem run_tryAcquire_none (h : ¬ 0 < s.shared.permits) : tryAcquire.run (handle env) s = (false, s) := by
  show handle env s .tryAcquire = _
  unfold handle
  rw [if_neg h]

theorem run_release : release.run (handle env) s = ((), s.released) := rfl

/-- `configured_answer` swaps the flags exactly when there is an answer. -/
theorem run_configuredAnswer (result : Except String Bytes) :
    (configuredAnswer query result).run (handle env) s =
      (Upstream.configuredAnswer query result,
        if (Upstream.configuredAnswer query result).isSome then s.recovered else s) := by
  unfold configuredAnswer
  cases Upstream.configuredAnswer query result with
  | none => rfl
  | some response => rfl

/-- Without a permit the system servers are not asked. -/
theorem run_forwardToSystem_none (h : ¬ 0 < s.shared.permits) :
    (forwardToSystem query clientTcp).run (handle env) s = (none, s) := by
  unfold forwardToSystem
  rw [run_bind, run_tryAcquire_none h]
  rfl

/-! ## The two ways -/

/-- The general loop at its only upstream. -/
theorem run_hedgedLoop_first (h : 0 < s.shared.permits) :
    (hedgedLoop query clientTcp [entry] (turns + 1) 0 [] 0 none).run (handle env) s =
      (do
        let result ← run query clientTcp entry
        release
        match ← configuredAnswer query result with
        | some response => pure (some (some response))
        | none => hedgedLoop query clientTcp [entry] turns 0 [] 1 none).run (handle env) s.acquired := by
  -- there is no one to race
  have hracer : ¬ (0 < entry.timeoutMs ∧ ([entry][0 + 1]?.any fun racer => 0 < racer.timeoutMs) = true) := by simp
  rw [hedgedLoop]
  simp only [pure_eq, ret_bind, true_or, if_true, List.getElem?_cons_zero, run_bind, run_tryAcquire h, if_neg hracer,
    run_ret, inlineAttempt]

/-- The general loop without a permit for its only upstream. -/
theorem run_hedgedLoop_noPermit (h : ¬ 0 < s.shared.permits) :
    (hedgedLoop query clientTcp [entry] (turns + 1) 0 [] 0 none).run (handle env) s = (some none, s) := by
  rw [hedgedLoop]
  simp only [pure_eq, ret_bind, true_or, if_true, List.getElem?_cons_zero, run_bind, run_tryAcquire_none h]
  rfl

/-- The general loop when its only upstream gave no answer. -/
theorem run_hedgedLoop_last :
    (hedgedLoop query clientTcp [entry] (turns + 1) 0 [] 1 none).run (handle env) s = (some none, s) := by
  rfl

/-- For a single upstream the fast path is the general loop: whatever its attempt comes to, whatever is free of the
budget and whatever the system servers answer, both return, with the same result, and leave the flags, the free permits
and all else that is shared the same. -/
theorem fast_path_eq_hedged (env : Environment) (entry : Entry) (query : Bytes) (clientTcp : Bool) (turns : Nat)
    (s : State) :
    ∃ answer s', (forward query clientTcp [entry] (turns + 2)).run (handle env) s = (some answer, s') ∧
      (forwardByHedged query clientTcp [entry] (turns + 2)).run (handle env) s = (some answer, s') := by
  refine ⟨((forwardSingle query clientTcp entry).run (handle env) s).1,
    ((forwardSingle query clientTcp entry).run (handle env) s).2, ?_, ?_⟩
  · unfold forward
    rw [run_bind]
    rfl
  unfold forwardByHedged forwardHedged forwardSingle
  by_cases h : 0 < s.shared.permits
  · simp only [pure_eq, run_bind, run_tryAcquire h, run_hedgedLoop_first h, run_configuredAnswer, run_release,
      if_true]
    generalize (run query clientTcp entry).run (handle env) s.acquired = attempted
    obtain ⟨result, s'⟩ := attempted
    cases Upstream.configuredAnswer query result with
    | none =>
      -- both are left with the system servers and the same state
      simp only [Option.isSome_none, Bool.false_eq_true, if_false, run_hedgedLoop_last, run_bind, run_ret]
    | some response => rfl
  · -- the loop goes on to the system servers, which need a permit as well
    simp only [pure_eq, run_bind, run_ret, run_tryAcquire_none h, run_hedgedLoop_noPermit h, orSystem,
      run_forwardToSystem_none h, Bool.false_eq_true, if_false]

end DNSRivet.Upstream.Caller
