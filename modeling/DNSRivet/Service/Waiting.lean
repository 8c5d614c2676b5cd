/-
The two waits run on a fuel. Under a clock that a sleep moves on by what it asked for, a wait with its fuel is the wait
with any larger fuel, so it ends by its deadline and not by the fuel; and a wait for DNS is over at most one probe and
one pause after its deadline.
-/
import DNSRivet.Service.Runs

namespace DNSRivet.Service

open DNSRivet.Base DNSRivet.Net Prog

variable {σ : Type} {h : σ → (op : ServiceOp) → op.Reply × σ} {clock : σ → Nat}

/-- An environment with a clock: reading it takes no time, a sleep takes at least what it asks for, and nothing turns
the clock back. -/
structure Clocked (h : σ → (op : ServiceOp) → op.Reply × σ) (clock : σ → Nat) : Prop where
  reading : ∀ s, (h s .now).1 = clock s
  now : ∀ s, clock (h s .now).2 = clock s
  sleep : ∀ s ms, clock s + ms ≤ clock (h s (.sleep ms)).2
  forward : ∀ s op, clock s ≤ clock (h s op).2

/-- Sleeps end when they should, and the probe gives up when its timeout is over. -/
structure Prompt (h : σ → (op : ServiceOp) → op.Reply × σ) (clock : σ → Nat) : Prop extends Clocked h clock where
  wakes : ∀ s ms, clock (h s (.sleep ms)).2 ≤ clock s + ms
  nanos : ∀ s, clock (h s .subsecNanos).2 = clock s
  gives_up : ∀ s addr query timeoutMs, clock (h s (.exchange addr query timeoutMs)).2 ≤ clock s + timeoutMs

theorem runE_now (hc : Clocked h clock) (s : σ) : runE h now s = (.ok (clock s), (h s .now).2) := by
  show (Except.ok (h s .now).1, (h s .now).2) = _
  rw [hc.reading]

theorem runE_forward (hc : Clocked h clock) {α : Type} (x : ServiceAction α) (s : σ) : clock s ≤ clock
    (runE h x s).2 := by
  unfold runE
  induction x.run generalizing s with
  | ret r => exact Nat.le_refl _
  | call op k ih => exact Nat.le_trans (hc.forward s op) (ih _ _)

/-! ## Waiting for DNS -/

/-- One round of the wait. -/
theorem runE_waitLoop (hc : Clocked h clock) (addr : SocketAddr) (deadline fuel : Nat) (lastError : String) (s : σ) :
    runE h (waitLoop addr deadline (fuel + 1) lastError) s =
      if clock s < deadline then
        match runE h (dnsProbe addr 1000) (h s .now).2 with
        | (.ok (), t) => (.ok (), t)
        | (.error err, t) => runE h (waitLoop addr deadline fuel err) (h t (.sleep 200)).2
      else (.error lastError, (h s .now).2) := by
  rw [waitLoop, runE_bind, runE_now hc]
  simp only
  split
  · rw [runE_bind, runE_attempt]
    simp only
    rcases runE h (dnsProbe addr 1000) (h s .now).2 with ⟨_ | _, t⟩
    · rfl
    · rfl
  · rfl

theorem waitLoop_fuel (hc : Clocked h clock) (addr : SocketAddr) (deadline extra : Nat) :
    ∀ (fuel : Nat) (lastError : String) (s : σ), deadline ≤ clock s + 200 * fuel →
      runE h (waitLoop addr deadline (fuel + 1 + extra) lastError) s =
        runE h (waitLoop addr deadline (fuel + 1) lastError) s
  | 0, lastError, s, hfuel => by
    rw [Nat.add_right_comm, runE_waitLoop hc, runE_waitLoop hc, if_neg (by omega), if_neg (by omega)]
  | fuel + 1, lastError, s, hfuel => by
    rw [Nat.add_right_comm, runE_waitLoop hc, runE_waitLoop hc]
    split
    · have hprobe := runE_forward hc (dnsProbe addr 1000) (h s .now).2
      rcases hr : runE h (dnsProbe addr 1000) (h s .now).2 with ⟨_ | _, t⟩
      · have hlater : clock s ≤ clock t := by rwa [hr, hc.now] at hprobe
        have hsleep := hc.sleep t 200
        have henough : deadline ≤ clock (h t (.sleep 200)).2 + 200 * fuel := by omega
        exact waitLoop_fuel hc addr deadline extra fuel _ _ henough
      · rfl
    · rfl

theorem dnsProbe_gives_up (hp : Prompt h clock) (addr : SocketAddr) (timeoutMs : Nat) (s : σ) :
    clock (runE h (dnsProbe addr timeoutMs) s).2 ≤ clock s + timeoutMs := by
  unfold dnsProbe
  rw [runE_bind, runE_performE]
  simp only
  rw [runE_bind, runE_performE]
  have hgives := hp.gives_up (h s .subsecNanos).2 addr (probeQuery (UInt16.ofNat (h s .subsecNanos).1)) timeoutMs
  rw [hp.nanos] at hgives
  simp only [id]
  split
  · split
    · exact hgives
    · exact hgives
  · exact hgives

theorem waitLoop_over (hp : Prompt h clock) (addr : SocketAddr) (deadline : Nat) :
    ∀ (fuel : Nat) (lastError : String) (s : σ), clock s ≤ deadline + 1200 →
      clock (runE h (waitLoop addr deadline fuel lastError) s).2 ≤ deadline + 1200
  | 0, lastError, s, hs => hs
  | fuel + 1, lastError, s, hs => by
    rw [runE_waitLoop hp.toClocked]
    split
    · have hprobe := dnsProbe_gives_up hp addr 1000 (h s .now).2
      rw [hp.now] at hprobe
      rcases hr : runE h (dnsProbe addr 1000) (h s .now).2 with ⟨_ | _, t⟩
      · have hlater : clock t ≤ clock s + 1000 := by rwa [hr] at hprobe
        have hwakes := hp.wakes t 200
        have hover : clock (h t (.sleep 200)).2 ≤ deadline + 1200 := by omega
        exact waitLoop_over hp addr deadline fuel _ _ hover
      · have hlater : clock t ≤ clock s + 1000 := by rwa [hr] at hprobe
        show clock t ≤ _
        omega
    · rw [hp.now]
      exact hs

/-! ## Waiting for the reassertion -/

variable {S : ServicePlatform}

theorem runE_reassertionLoop (hc : Clocked h clock) (server : IpAddr) (deadline fuel : Nat) (s : σ) :
    runE h (reassertionLoop S server deadline (fuel + 1)) s =
      match runE h (dnsAction (some server) (OsDns.takeoverIntact S.dns server)) s with
      | (.ok true, t) => (.ok true, t)
      | (_, t) =>
        if deadline ≤ clock t then (.ok false, (h t .now).2)
        else runE h (reassertionLoop S server deadline fuel) (h (h t .now).2 (.sleep 500)).2 := by
  have hagain : ∀ t, runE h (do
      let time ← now
      if deadline ≤ time then pure false
      else
        sleep 500
        reassertionLoop S server deadline fuel) t =
      if deadline ≤ clock t then (.ok false, (h t .now).2)
      else runE h (reassertionLoop S server deadline fuel) (h (h t .now).2 (.sleep 500)).2 := by
    intro t
    rw [runE_bind, runE_now hc]
    simp only
    split
    · rfl
    · rfl
  rw [reassertionLoop, runE_bind, runE_attempt]
  rcases runE h (dnsAction (some server) (OsDns.takeoverIntact S.dns server)) s with ⟨e | (_ | _), t⟩
  · exact hagain t
  · exact hagain t
  · rfl

theorem reassertionLoop_fuel (hc : Clocked h clock) (server : IpAddr) (deadline extra : Nat) :
    ∀ (fuel : Nat) (s : σ), deadline ≤ clock s + 500 * fuel →
      runE h (reassertionLoop S server deadline (fuel + 1 + extra)) s =
        runE h (reassertionLoop S server deadline (fuel + 1)) s := by
  intro fuel
  induction fuel with
  | zero =>
    intro s hfuel
    rw [Nat.add_right_comm, runE_reassertionLoop hc, runE_reassertionLoop hc]
    have hforward := runE_forward hc (dnsAction (some server) (OsDns.takeoverIntact S.dns server)) s
    rcases hr : runE h (dnsAction (some server) (OsDns.takeoverIntact S.dns server)) s with ⟨r, t⟩
    rw [hr] at hforward
    have hover : deadline ≤ clock t := by
      simp only at hforward
      omega
    rcases r with e | (_ | _) <;> simp [hover]
  | succ fuel ih =>
    intro s hfuel
    rw [Nat.add_right_comm, runE_reassertionLoop hc, runE_reassertionLoop hc]
    have hforward := runE_forward hc (dnsAction (some server) (OsDns.takeoverIntact S.dns server)) s
    rcases hr : runE h (dnsAction (some server) (OsDns.takeoverIntact S.dns server)) s with ⟨r, t⟩
    rw [hr] at hforward
    have hrest : runE h (reassertionLoop S server deadline (fuel + 1 + extra)) (h (h t .now).2 (.sleep 500)).2 =
        runE h (reassertionLoop S server deadline (fuel + 1)) (h (h t .now).2 (.sleep 500)).2 := by
      apply ih
      have hsleep := hc.sleep (h t .now).2 500
      rw [hc.now] at hsleep
      simp only at hforward
      omega
    rcases r with e | (_ | _) <;> simp [hrest]

/-- The waits end by their deadlines: with the fuel they are given they do what they do with any larger one, and a wait
for DNS is over one probe and one pause after its deadline at the latest. -/
theorem waits_end (hp : Prompt h clock) (S : ServicePlatform) (addr : SocketAddr) (server : IpAddr) (timeoutMs : Nat)
    (s : σ) :
    (∀ fuel, timeoutMs / 200 + 2 ≤ fuel →
      runE h (waitForDns addr timeoutMs) s =
        runE h (waitLoop addr (clock s + timeoutMs) fuel "no response") (h s .now).2) ∧
      clock (runE h (waitForDns addr timeoutMs) s).2 ≤ clock s + timeoutMs + 1200 ∧
      ∀ fuel, timeoutMs / 500 + 2 ≤ fuel →
        runE h (waitForReassertion S server timeoutMs) s =
          runE h (reassertionLoop S server (clock s + timeoutMs) fuel) (h s .now).2 := by
  have hc := hp.toClocked
  have hnow := hc.now s
  refine ⟨fun fuel hfuel => ?_, ?_, fun fuel hfuel => ?_⟩
  · obtain ⟨extra, rfl⟩ := Nat.exists_eq_add_of_le hfuel
    rw [waitForDns, runE_bind, runE_now hc]
    have henough : clock s + timeoutMs ≤ clock (h s .now).2 + 200 * (timeoutMs / 200 + 1) := by omega
    exact (waitLoop_fuel hc addr _ extra _ _ _ henough).symm
  · rw [waitForDns, runE_bind, runE_now hc]
    have hover : clock (h s .now).2 ≤ clock s + timeoutMs + 1200 := by omega
    exact waitLoop_over hp addr _ _ _ _ hover
  · obtain ⟨extra, rfl⟩ := Nat.exists_eq_add_of_le hfuel
    rw [waitForReassertion, runE_bind, runE_now hc]
    have henough : clock s + timeoutMs ≤ clock (h s .now).2 + 500 * (timeoutMs / 500 + 1) := by omega
    exact (reassertionLoop_fuel hc server _ extra _ _ henough).symm

/-- A machine on which nothing answers a query; its state is the time. -/
def silent (time : Nat) : (op : ServiceOp) → op.Reply × Nat
  | .now => (time, time)
  | .sleep ms => ((), time + ms)
  | .exchange _ _ timeoutMs => (.error "Resource temporarily unavailable (os error 35)", time + timeoutMs)
  | op => ((smooth 7 wifiMachine op).1, time)

theorem prompt_silent : Prompt silent id where
  reading := fun _ => rfl
  now := fun _ => rfl
  sleep := fun _ _ => Nat.le_refl _
  forward := by
    intro s op
    cases op with
    | sleep ms => exact Nat.le_add_right s ms
    | exchange addr query timeoutMs => exact Nat.le_add_right s timeoutMs
    | _ => exact Nat.le_refl s
  wakes := fun _ _ => Nat.le_refl _
  nanos := fun _ => rfl
  gives_up := fun _ _ _ _ => Nat.le_refl _

theorem waits_end_silent :
    (runE silent (waitForDns (.v4 ⟨127, 0, 0, 1⟩ 53) 2000) 100).2 ≤ 3300 :=
  (waits_end prompt_silent wifiService (.v4 ⟨127, 0, 0, 1⟩ 53) (.v4 ⟨127, 0, 0, 1⟩) 2000 100).2.1

end DNSRivet.Service
