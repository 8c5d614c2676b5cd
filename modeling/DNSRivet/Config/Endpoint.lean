/-
The endpoint of an upstream: `split_scheme` and `split_host_port`. The second guesses the form of its text from
a bracket in front and the number of colons, so it takes more than the forms it is documented for.
-/
import DNSRivet.Base.Text
import DNSRivet.Net.Literal

namespace DNSRivet.Config

open DNSRivet.Base DNSRivet.Net

/-! ## The parsers -/

def splitScheme (endpoint : List Char) : Option (List Char) × List Char :=
  match splitOnceText "://".toList endpoint with
  | some (scheme, rest) => (some scheme, rest)
  | none => (none, endpoint)

/-- `str::parse::<u16>`. -/
def parsePort (s : List Char) : Option Nat := parseUnsigned 65535 s

/-- `host`, `host:port`, `[v6]`, `[v6]:port`, bare `v6` (no port). -/
def splitHostPort (s : List Char) (defaultPort : Nat) : Option (List Char × Nat) :=
  match s with
  | [] => none
  | '[' :: rest =>
    match splitOnce ']' rest with
    | none => none
    | some (host, ':' :: port) => (parsePort port).map fun p => (host, p)
    | some (host, []) => some (host, defaultPort)
    | some _ => none
  | s =>
    -- a bare IPv6 literal without brackets
    if 1 < s.count ':' then some (s, defaultPort)
    else
      match splitOnce ':' s with
      | some (host, port) => (parsePort port).map fun p => (host, p)
      | none => some (s, defaultPort)

/-! ## The documented forms -/

def IsHost (host : List Char) : Prop := host ≠ [] ∧ ':' ∉ host ∧ host.head? ≠ some '['

/-- A port in decimal digits. -/
structure IsPort (ds : List Char) (port : Nat) : Prop where
  ne_nil : ds ≠ []
  digits : ∀ c ∈ ds, (toDigit 10 c).isSome = true
  value : digitsValue 10 ds = port
  le : port ≤ 65535

/-- A text with the host and the port that are written in it. -/
inductive Endpoint (defaultPort : Nat) : List Char → List Char → Nat → Prop
  | host {host : List Char} (h : IsHost host) : Endpoint defaultPort host host defaultPort
  | hostPort {host ds : List Char} {port : Nat} (h : IsHost host) (hport : IsPort ds port) :
      Endpoint defaultPort (host ++ ':' :: ds) host port
  | bracketed {host : List Char} (h : IsIpv6 host) : Endpoint defaultPort ('[' :: (host ++ [']'])) host defaultPort
  | bracketedPort {host ds : List Char} {port : Nat} (h : IsIpv6 host) (hport : IsPort ds port) :
      Endpoint defaultPort ('[' :: (host ++ ']' :: ':' :: ds)) host port
  | bare {host : List Char} (h : IsIpv6 host) : Endpoint defaultPort host host defaultPort

/-- What the grammar has for a host: an IPv6 literal, or a text that is not empty, has no colon and does not start
with a bracket. -/
def Usable (host : List Char) : Prop := IsHost host ∨ IsIpv6 host

/-! ## The texts that are taken -/

inductive Taken (defaultPort : Nat) : List Char → List Char → Nat → Prop
  | plain {host : List Char} (hne : host ≠ []) (hcolon : ':' ∉ host) (hhead : host.head? ≠ some '[') :
      Taken defaultPort host host defaultPort
  | plainPort {host ds : List Char} {port : Nat} (hcolon : ':' ∉ host) (hhead : host.head? ≠ some '[')
      (hport : parsePort ds = some port) : Taken defaultPort (host ++ ':' :: ds) host port
  | bracketed {host : List Char} (hin : ']' ∉ host) : Taken defaultPort ('[' :: (host ++ [']'])) host defaultPort
  | bracketedPort {host ds : List Char} {port : Nat} (hin : ']' ∉ host) (hport : parsePort ds = some port) :
      Taken defaultPort ('[' :: (host ++ ']' :: ':' :: ds)) host port
  | bare {host : List Char} (hhead : host.head? ≠ some '[') (hcolons : 2 ≤ host.count ':') :
      Taken defaultPort host host defaultPort

/-- There is nothing in front of the port, or what stands between the brackets or around the colons is not as it
should be. -/
inductive Hostless (Good : List Char → Prop) : List Char → Prop
  | empty {ds : List Char} {port : Nat} (hport : parsePort ds = some port) : Hostless Good (':' :: ds)
  | bracketed {host : List Char} (hin : ']' ∉ host) (h : ¬Good host) : Hostless Good ('[' :: (host ++ [']']))
  | bracketedPort {host ds : List Char} {port : Nat} (hin : ']' ∉ host) (h : ¬Good host)
      (hport : parsePort ds = some port) : Hostless Good ('[' :: (host ++ ']' :: ':' :: ds))
  | bare {host : List Char} (hhead : host.head? ≠ some '[') (hcolons : 2 ≤ host.count ':') (h : ¬Good host) :
      Hostless Good host

/-- The port has a sign. -/
inductive Signed : List Char → Prop
  | hostPort {host ds : List Char} {port : Nat} (h : IsHost host) (hport : IsPort ds port) :
      Signed (host ++ ':' :: '+' :: ds)
  | bracketedPort {host ds : List Char} {port : Nat} (h : IsIpv6 host) (hport : IsPort ds port) :
      Signed ('[' :: (host ++ ']' :: ':' :: '+' :: ds))

variable {s host ds tail : List Char} {port defaultPort : Nat}

/-! ## Ports -/

theorem IsPort.parsePort (h : IsPort ds port) : parsePort ds = some port :=
  parseUnsigned_eq_some_iff.2 ⟨ds, .inl rfl, h.ne_nil, h.digits, h.value, h.le⟩

theorem IsPort.parsePort_signed (h : IsPort ds port) : Config.parsePort ('+' :: ds) = some port :=
  parseUnsigned_eq_some_iff.2 ⟨ds, .inr rfl, h.ne_nil, h.digits, h.value, h.le⟩

/-- A port is digits, or digits behind a plus sign. -/
theorem isPort_of_parsePort (h : parsePort s = some port) : IsPort s port ∨ ∃ ds, s = '+' :: ds ∧ IsPort ds port := by
  obtain ⟨ds, hs, hne, hdigits, hvalue, hle⟩ := parseUnsigned_eq_some_iff.1 h
  have hport : IsPort ds port := ⟨hne, hdigits, hvalue, hle⟩
  rcases hs with rfl | rfl
  · exact .inl hport
  · exact .inr ⟨ds, rfl, hport⟩

theorem IsPort.notMem (h : IsPort ds port) {c : Char} (hc : toDigit 10 c = none) : c ∉ ds := by
  intro hmem
  have := h.digits c hmem
  rw [hc] at this
  cases this

theorem not_isPort_signed : ¬IsPort ('+' :: ds) port := fun h => h.notMem (by decide) (List.mem_cons_self ..)

theorem colon_notMem_of_parsePort (h : parsePort s = some port) : ':' ∉ s := by
  rcases isPort_of_parsePort h with hport | ⟨ds, rfl, hport⟩
  · exact hport.notMem (by decide)
  · rw [List.mem_cons, not_or]
    exact ⟨by decide, hport.notMem (by decide)⟩

/-! ## What each form is split into -/

theorem splitHostPort_bracket (htail : ']' ∉ host) :
    splitHostPort ('[' :: (host ++ ']' :: tail)) defaultPort =
      match tail with
      | ':' :: port => (parsePort port).map fun p => (host, p)
      | [] => some (host, defaultPort)
      | _ => none := by
  simp only [splitHostPort, splitOnce_append htail]
  cases tail with
  | nil => rfl
  | cons c tail =>
    by_cases hc : c = ':'
    · subst hc; rfl
    · simp [hc]

/-- A text without a bracket in front. -/
theorem splitHostPort_plain (hne : s ≠ []) (hhead : s.head? ≠ some '[') :
    splitHostPort s defaultPort =
      if 1 < s.count ':' then some (s, defaultPort)
      else
        match splitOnce ':' s with
        | some (host, port) => (parsePort port).map fun p => (host, p)
        | none => some (s, defaultPort) := by
  cases s with
  | nil => exact absurd rfl hne
  | cons c s =>
    have hc : c ≠ '[' := fun h => hhead (by rw [h]; rfl)
    simp [splitHostPort, hc]

theorem head?_append_colon (hhead : host.head? ≠ some '[') : (host ++ ':' :: tail).head? ≠ some '[' := by
  cases host with
  | nil => exact fun h => absurd h (by simp)
  | cons c host => exact hhead

/-- Which texts are split, and into what. -/
theorem splitHostPort_eq_some_iff :
    splitHostPort s defaultPort = some (host, port) ↔ Taken defaultPort s host port := by
  constructor
  · intro h
    by_cases hne : s = []
    · subst hne
      cases h
    by_cases hhead : s.head? = some '['
    · obtain ⟨rest, rfl⟩ := List.head?_eq_some_iff.1 hhead
      cases hsplit : splitOnce ']' rest with
      | none => simp only [splitHostPort, hsplit] at h; cases h
      | some p =>
        obtain ⟨inner, tail⟩ := p
        obtain ⟨rfl, hin⟩ := splitOnce_eq_some_iff.1 hsplit
        rw [splitHostPort_bracket hin] at h
        split at h
        · obtain ⟨port, hport, he⟩ := Option.map_eq_some_iff.1 h
          cases he
          exact .bracketedPort hin hport
        · cases h
          exact .bracketed hin
        · cases h
    · rw [splitHostPort_plain hne hhead] at h
      split_ifs at h with hcolons
      · cases h
        exact .bare hhead hcolons
      · cases hsplit : splitOnce ':' s with
        | none =>
          rw [hsplit] at h
          cases h
          exact .plain hne (splitOnce_eq_none_iff.1 hsplit) hhead
        | some p =>
          obtain ⟨before, after⟩ := p
          obtain ⟨rfl, hcolon⟩ := splitOnce_eq_some_iff.1 hsplit
          rw [hsplit] at h
          obtain ⟨port, hport, he⟩ := Option.map_eq_some_iff.1 h
          cases he
          refine .plainPort hcolon (fun hb => hhead ?_) hport
          obtain ⟨t, rfl⟩ := List.head?_eq_some_iff.1 hb
          rfl
  · intro h
    cases h with
    | plain hne hcolon hhead =>
      rw [splitHostPort_plain hne hhead, List.count_eq_zero_of_not_mem hcolon, if_neg (by decide),
        splitOnce_eq_none_iff.2 hcolon]
    | plainPort hcolon hhead hport =>
      rw [splitHostPort_plain (by simp) (head?_append_colon hhead), List.count_append,
        List.count_eq_zero_of_not_mem hcolon, List.count_cons_self,
        List.count_eq_zero_of_not_mem (colon_notMem_of_parsePort hport), if_neg (by decide), splitOnce_append hcolon]
      simp only [hport, Option.map_some]
    | bracketed hin => rw [splitHostPort_bracket hin]
    | bracketedPort hin hport => simp only [splitHostPort_bracket hin, hport, Option.map_some]
    | bare hhead hcolons =>
      have hne : s ≠ [] := by
        rintro rfl
        simp at hcolons
      have hcolons : 1 < s.count ':' := hcolons
      rw [splitHostPort_plain hne hhead, if_pos hcolons]

/-! ## The documented forms among them -/

theorem IsIpv6.bracket_notMem (h : IsIpv6 host) {c : Char} (hc : c = '[' ∨ c = ']' ∨ c = '+') : c ∉ host := by
  intro hmem
  have hl := h.literalChar c hmem
  rcases hc with rfl | rfl | rfl
  all_goals
    rcases hl with hd | he | he
    · exact absurd hd (by decide)
    · exact absurd he (by decide)
    · exact absurd he (by decide)

theorem Endpoint.taken (h : Endpoint defaultPort s host port) : Taken defaultPort s host port := by
  cases h with
  | host h => exact .plain h.1 h.2.1 h.2.2
  | hostPort h hport => exact .plainPort h.2.1 h.2.2 hport.parsePort
  | bracketed h => exact .bracketed (IsIpv6.bracket_notMem h (.inr (.inl rfl)))
  | bracketedPort h hport => exact .bracketedPort (IsIpv6.bracket_notMem h (.inr (.inl rfl))) hport.parsePort
  | bare h =>
    refine .bare (fun hhead => ?_) h.colons
    exact IsIpv6.bracket_notMem h (.inl rfl) (List.mem_of_mem_head? hhead)

theorem Endpoint.usable (h : Endpoint defaultPort s host port) : Usable host := by
  cases h with
  | host h => exact .inl h
  | hostPort h hport => exact .inl h
  | bracketed h => exact .inr h
  | bracketedPort h hport => exact .inr h
  | bare h => exact .inr h

theorem not_usable_nil : ¬Usable [] := by
  rintro (h | h)
  · exact h.1 rfl
  · exact absurd h.colons (by decide)

theorem IsIpv6.not_isHost (h : IsIpv6 host) : ¬IsHost host := fun hhost =>
  hhost.2.1 (List.count_pos_iff.1 (lt_of_lt_of_le (by decide) h.colons))

/-- A text that is taken is in a documented form unless it has no host or a sign. -/
theorem Taken.endpoint (h : Taken defaultPort s host port) (hhost : ¬Hostless IsIpv6 s) (hsign : ¬Signed s) :
    Endpoint defaultPort s host port := by
  cases h with
  | plain hne hcolon hhead => exact .host ⟨hne, hcolon, hhead⟩
  | plainPort hcolon hhead hport =>
    have hne : host ≠ [] := by
      rintro rfl
      exact hhost (.empty hport)
    rcases isPort_of_parsePort hport with hds | ⟨ds, rfl, hds⟩
    · exact .hostPort ⟨hne, hcolon, hhead⟩ hds
    · exact absurd (.hostPort ⟨hne, hcolon, hhead⟩ hds) hsign
  | bracketed hin => exact .bracketed (not_not.1 fun h => hhost (.bracketed hin h))
  | bracketedPort hin hport =>
    have hv6 : IsIpv6 host := not_not.1 fun h => hhost (.bracketedPort hin h hport)
    rcases isPort_of_parsePort hport with hds | ⟨ds, rfl, hds⟩
    · exact .bracketedPort hv6 hds
    · exact absurd (.bracketedPort hv6 hds) hsign
  | bare hhead hcolons => exact .bare (not_not.1 fun h => hhost (.bare hhead hcolons h))

/-- The host of a text without a good one. -/
theorem Hostless.taken {Good : List Char → Prop} (h : Hostless Good s) (defaultPort : Nat) :
    ∃ host port, Taken defaultPort s host port ∧
      (host = [] ∨ ¬Good host ∧ (s.head? = some '[' ∨ ':' ∈ host)) := by
  cases h with
  | empty hport => exact ⟨[], _, @Taken.plainPort defaultPort [] _ _ (by simp) (by simp) hport, .inl rfl⟩
  | bracketed hin h => exact ⟨_, _, .bracketed hin, .inr ⟨h, .inl rfl⟩⟩
  | bracketedPort hin h hport => exact ⟨_, _, .bracketedPort hin hport, .inr ⟨h, .inl rfl⟩⟩
  | bare hhead hcolons h =>
    exact ⟨_, _, .bare hhead hcolons, .inr ⟨h, .inr (List.count_pos_iff.1 (lt_of_lt_of_le (by decide) hcolons))⟩⟩

/-- A text is split in one way. -/
theorem Taken.unique {host' : List Char} {port' : Nat} (h : Taken defaultPort s host port)
    (h' : Taken defaultPort s host' port') : host = host' ∧ port = port' := by
  have he := (splitHostPort_eq_some_iff.2 h).symm.trans (splitHostPort_eq_some_iff.2 h')
  simpa using he

theorem Endpoint.isIpv6_of_bracket (h : Endpoint defaultPort s host port)
    (hhead : s.head? = some '[') : IsIpv6 host := by
  cases h with
  | host h => exact absurd hhead h.2.2
  | hostPort h hport => exact absurd hhead (head?_append_colon h.2.2)
  | bracketed h => exact h
  | bracketedPort h hport => exact h
  | bare h => exact h

/-- A documented form has a host. -/
theorem Endpoint.not_hostless (h : Endpoint defaultPort s host port) : ¬Hostless IsIpv6 s := by
  intro hhost
  obtain ⟨host', port', htaken, hbad⟩ := hhost.taken defaultPort
  obtain ⟨rfl, rfl⟩ := h.taken.unique htaken
  rcases hbad with rfl | ⟨hv6, hhead | hcolon⟩
  · exact not_usable_nil h.usable
  · exact hv6 (h.isIpv6_of_bracket hhead)
  · exact hv6 (h.usable.resolve_left fun hhost => hhost.2.1 hcolon)

theorem Endpoint.not_signed (h : Endpoint defaultPort s host port) : ¬Signed s := by
  intro hsign
  cases hsign with
  | hostPort hhost hport =>
    obtain ⟨rfl, rfl⟩ := h.taken.unique (.plainPort hhost.2.1 hhost.2.2 hport.parsePort_signed)
    generalize ht : host ++ ':' :: '+' :: _ = t at h
    cases h with
    | host => exact absurd ht (by simp)
    | hostPort _ hds =>
      obtain ⟨-, hds'⟩ := List.cons.inj (List.append_cancel_left ht)
      exact not_isPort_signed (hds' ▸ hds)
    | bracketed h => exact IsIpv6.not_isHost h hhost
    | bracketedPort h => exact IsIpv6.not_isHost h hhost
    | bare h => exact IsIpv6.not_isHost h hhost
  | bracketedPort hv6 hport =>
    have hin := IsIpv6.bracket_notMem hv6 (.inr (.inl rfl))
    obtain ⟨rfl, rfl⟩ := h.taken.unique (.bracketedPort hin hport.parsePort_signed)
    generalize ht : '[' :: (host ++ ']' :: ':' :: '+' :: _) = t at h
    cases h with
    | host h => exact IsIpv6.not_isHost hv6 h
    | hostPort h => exact IsIpv6.not_isHost hv6 h
    | bracketed => exact absurd ht (by simp)
    | bracketedPort _ hds =>
      obtain ⟨-, hds'⟩ := List.cons.inj (List.cons.inj (List.append_cancel_left (List.cons.inj ht).2)).2
      exact not_isPort_signed (hds' ▸ hds)
    | bare => exact IsIpv6.bracket_notMem hv6 (.inl rfl) (by rw [← ht]; exact List.mem_cons_self ..)

/-- The function takes the documented forms, and takes them for what they say, exactly on the texts that have a
host and an unsigned port. -/
theorem splitHostPort_grammar :
    (∀ host port, splitHostPort s defaultPort = some (host, port) ↔ Endpoint defaultPort s host port) ↔
      ¬Hostless IsIpv6 s ∧ ¬Signed s := by
  simp only [splitHostPort_eq_some_iff]
  constructor
  · intro h
    refine ⟨fun hhost => ?_, fun hsign => ?_⟩
    · obtain ⟨host, port, htaken, -⟩ := hhost.taken defaultPort
      exact ((h host port).1 htaken).not_hostless hhost
    · obtain ⟨host, port, htaken⟩ : ∃ host port, Taken defaultPort s host port := by
        cases hsign with
        | hostPort hhost hport => exact ⟨_, _, .plainPort hhost.2.1 hhost.2.2 hport.parsePort_signed⟩
        | bracketedPort hv6 hport =>
          exact ⟨_, _, .bracketedPort (IsIpv6.bracket_notMem hv6 (.inr (.inl rfl))) hport.parsePort_signed⟩
      exact ((h host port).1 htaken).not_signed hsign
  · rintro ⟨hhost, hsign⟩ host port
    exact ⟨fun h => h.endpoint hhost hsign, Endpoint.taken⟩

/-- The host of a text that is taken. -/
theorem Taken.usable_iff (h : Taken defaultPort s host port) : Usable host ↔ ¬Hostless Usable s := by
  constructor
  · intro huse hhost
    obtain ⟨host', port', htaken, hbad⟩ := hhost.taken defaultPort
    obtain ⟨rfl, rfl⟩ := h.unique htaken
    rcases hbad with rfl | ⟨hbad, -⟩
    · exact not_usable_nil huse
    · exact hbad huse
  · intro hhost
    cases h with
    | plain hne hcolon hhead => exact .inl ⟨hne, hcolon, hhead⟩
    | plainPort hcolon hhead hport =>
      refine .inl ⟨?_, hcolon, hhead⟩
      rintro rfl
      exact hhost (.empty hport)
    | bracketed hin => exact not_not.1 fun h => hhost (.bracketed hin h)
    | bracketedPort hin hport => exact not_not.1 fun h => hhost (.bracketedPort hin h hport)
    | bare hhead hcolons => exact not_not.1 fun h => hhost (.bare hhead hcolons h)

end DNSRivet.Config
