/-
`Manager::forward`: one query through the configured upstreams and then the system fallback. Each
attempt validates the reply it passes on, but the ID is restored afterwards; the answer still answers
the question unless the reply spells its question's name through the two bytes of its ID
(`forward_answers`).
-/
import DNSRivet.Upstream.Failover
import DNSRivet.Wire.Spelling

namespace DNSRivet.Upstream

open DNSRivet.Base DNSRivet.Wire DNSRivet.Net

/-- The upstreams in configuration order, and the fallback list as it is when the query needs it. -/
structure Manager where
  entries : List Entry
  systemFallback : List SocketAddr

/-- An answer, and the reply it was made from. -/
structure Forwarded where
  reply : Bytes
  response : Bytes
deriving DecidableEq, Repr

/-- The loop of `forward_to_system`, `dialed` of the servers dialed so far; each exchange comes with the
milliseconds it takes. -/
def trySystem (query : Bytes) (clientTcp : Bool) (dial : Nat → SocketAddr → Legacy.Exchange × Nat) :
    List SocketAddr → Nat → Option Bytes
  | [], _ => none
  | server :: servers, dialed =>
    let (exchange, millis) := dial dialed server
    match (Legacy.query query clientTcp exchange).run with
    | some (.ok response) =>
      if 2000 < millis ∨ rcode response = servfail then trySystem query clientTcp dial servers (dialed + 1)
      else some response
    | _ => trySystem query clientTcp dial servers (dialed + 1)

/-- What the configured upstreams come to: a single one is tried in place, several are hedged. -/
inductive Configured (m : Manager) (query : Bytes) (clientTcp : Bool) : Option Taken → Prop
  | single {entry : Entry} {net : Network} {result : Except String Bytes} : m.entries = [entry] →
    (entry.run query clientTcp net).run = some result → Configured m query clientTcp (answerFrom query 0 result)
  | hedged {es : List (Nat × HedgeEvent)} {s : Hedged} {answer : Option Taken} : m.entries.length ≠ 1 →
    Run (forwardHedged m.entries query) es s →
    (∀ i r, Finished es i r →
      ∃ entry net, m.entries[i]? = some entry ∧ (entry.run query clientTcp net).run = some r) →
    s.phase = .returned answer → Configured m query clientTcp answer

/-- What `forward` comes to. Without a permit for its only upstream it does not try the fallback. -/
inductive Forwards (m : Manager) (query : Bytes) (clientTcp : Bool) : Option Forwarded → Prop
  | noPermit {entry : Entry} : m.entries = [entry] → Forwards m query clientTcp none
  | configured {taken : Taken} : Configured m query clientTcp (some taken) →
    Forwards m query clientTcp (some ⟨taken.reply, taken.response⟩)
  | noFallbackPermit : Configured m query clientTcp none → Forwards m query clientTcp none
  | fallback {dial : Nat → SocketAddr → Legacy.Exchange × Nat} : Configured m query clientTcp none →
    Forwards m query clientTcp ((trySystem query clientTcp dial m.systemFallback 0).map fun r => ⟨r, r⟩)

variable {m : Manager} {q r : Bytes} {clientTcp : Bool}

/-! ## Restoring the ID -/

theorem byteAt_congr {message message' : Bytes} {i : Nat} (h : message[i]? = message'[i]?) :
    byteAt message i = byteAt message' i := by
  unfold byteAt
  rw [List.getD_eq_getElem?_getD, List.getD_eq_getElem?_getD, h]

theorem ident_setId (h : headerLen ≤ r.length) (id : UInt8 × UInt8) : ident (setId r id) = id := by
  obtain ⟨h0, h1⟩ : (setId r id)[0]? = some id.1 ∧ (setId r id)[1]? = some id.2 := setId_ident h
  unfold ident byteAt
  rw [List.getD_eq_getElem?_getD, List.getD_eq_getElem?_getD, h0, h1]
  rfl

/-- A genuine reply already carries the ID. -/
theorem genuine_setId (h : Legacy.Genuine q r) : setId r (ident q) = r := by
  obtain ⟨hq, hr, -⟩ := (validateResponse_ok_iff q r).1 h.valid
  have h12 : headerLen = 12 := rfl
  have hbyte : ∀ i, i < 2 → r[i]? = some (byteAt q i) := by
    intro i hi
    rw [← List.getElem?_take_of_lt (j := 2) hi, h.ident, List.getElem?_take_of_lt hi, byteAt,
      List.getD_eq_getElem?_getD, List.getElem?_eq_getElem (by omega), Option.getD_some]
  apply List.ext_getElem?
  intro i
  by_cases hi : 2 ≤ i
  · exact setId_other hr hi
  · obtain rfl | rfl : i = 0 ∨ i = 1 := by omega
    · rw [(setId_ident hr).1, hbyte 0 (by omega)]; rfl
    · rw [(setId_ident hr).2, hbyte 1 (by omega)]; rfl

/-- An accepted reply under another ID is accepted exactly when, for a single-question query, its
question's name still reads the same. -/
theorem validateResponse_setId (h : validateResponse q r = .ok ()) (id : UInt8 × UInt8) :
    validateResponse q (setId r id) = .ok () ↔
      (readU16 q 4 = some 1 → questionName (setId r id) = questionName r) := by
  obtain ⟨-, hl, -, -, hqd, hquestion⟩ := (validateResponse_ok_iff q r).1 h
  have h2 : byteAt (setId r id) 2 = byteAt r 2 := byteAt_congr (setId_other hl (by omega))
  have h4 : readU16 (setId r id) 4 = readU16 r 4 :=
    readU16_congr (setId_other hl (by omega)) (setId_other hl (by omega))
  rw [validateResponse_edit h (by rw [setId_length hl]; exact hl) (by rw [h2]) h4, hqd]
  refine forall_congr' fun hone => ?_
  obtain ⟨hsome, heq⟩ := hquestion hone
  obtain ⟨⟨folded, fields⟩, hqr⟩ := Option.isSome_iff_exists.1 (heq ▸ hsome)
  obtain ⟨ls, e, hn, hs, -⟩ := question_some hqr
  exact question_edit hn hs fun i h1 _ => (setId_agree id hl).byte i (by unfold headerLen at h1; omega)

/-! ## Answers -/

/-- The reply behind an answer was accepted, and is passed on under the query's ID. -/
structure Answers (q : Bytes) (answer : Forwarded) : Prop where
  valid : validateResponse q answer.reply = .ok ()
  rcode : rcode answer.reply ≠ servfail
  response : answer.response = setId answer.reply (ident q)

theorem trySystem_some {dial : Nat → SocketAddr → Legacy.Exchange × Nat} :
    ∀ {servers : List SocketAddr} {dialed : Nat}, trySystem q clientTcp dial servers dialed = some r →
      Legacy.Genuine q r ∧ rcode r ≠ servfail
  | [], _, h => by cases h
  | server :: servers, dialed, h => by
    unfold trySystem at h
    simp only at h
    split at h
    · rename_i hquery
      split at h
      · exact trySystem_some h
      · rename_i hgood
        cases h
        exact ⟨Legacy.query_ok hquery, fun hrcode => hgood (.inr hrcode)⟩
    · exact trySystem_some h

theorem answerFrom_answers {entry : Entry} {net : Network} {index : Nat} {result : Except String Bytes} {taken : Taken}
    (hrun : (entry.run q clientTcp net).run = some result) (h : answerFrom q index result = some taken) :
    Answers q ⟨taken.reply, taken.response⟩ := by
  obtain ⟨-, rfl, hrcode, hresponse⟩ := answerFrom_some h
  exact ⟨(Entry.run_ok hrun).1, hrcode, hresponse⟩

theorem Configured.answers {answer : Option Taken} (h : Configured m q clientTcp answer) :
    ∀ taken, answer = some taken → Answers q ⟨taken.reply, taken.response⟩ := by
  intro taken htaken
  cases h with
  | single _ hrun => exact answerFrom_answers hrun htaken
  | hedged _ hrun hreal hphase =>
    subst htaken
    obtain ⟨-, hfin, hans⟩ := (hedgedHistory hrun).answered taken hphase
    obtain ⟨entry, net, -, hresult⟩ := hreal _ _ hfin
    exact answerFrom_answers hresult hans

theorem Forwards.answers {out : Option Forwarded} (h : Forwards m q clientTcp out) :
    ∀ answer, out = some answer → Answers q answer := by
  intro answer hout
  cases h with
  | noPermit _ => cases hout
  | configured hconf =>
    cases hout
    exact hconf.answers _ rfl
  | noFallbackPermit _ => cases hout
  | fallback _ =>
    obtain ⟨r, hr, rfl⟩ := Option.map_eq_some_iff.1 hout
    obtain ⟨hgen, hrcode⟩ := trySystem_some hr
    exact ⟨hgen.valid, hrcode, (genuine_setId hgen).symm⟩

/-- Whatever the upstreams and the fallback servers do, an answer carries the query's ID and is no
SERVFAIL. `validate_response` accepts it if, for a single-question query, the ID bytes of the reply that spell
its question's name are the query's too, letters up to ASCII case; and it accepts no other answer, but one
whose question is sent elsewhere by the query's ID. -/
theorem forward_answers {answer : Forwarded} (h : Forwards m q clientTcp (some answer)) :
    ident answer.response = ident q ∧ rcode answer.response ≠ servfail ∧
    ((readU16 q 4 = some 1 → KeepsSpelling (idBytes (ident q)) answer.reply) →
      validateResponse q answer.response = .ok ()) ∧
    (validateResponse q answer.response = .ok () → readU16 q 4 = some 1 →
      KeepsSpelling (idBytes (ident q)) answer.reply ∨ RedirectsSpelling (idBytes (ident q)) answer.reply) := by
  obtain ⟨hvalid, hrcode, hresponse⟩ := h.answers _ rfl
  obtain ⟨-, hl, -, -, -, hquestion⟩ := (validateResponse_ok_iff q answer.reply).1 hvalid
  have hedit := setId_edited hl (ident q)
  have hname : readU16 q 4 = some 1 → (questionName answer.reply).isSome := fun hone =>
    questionName_isSome ((hquestion hone).2 ▸ (hquestion hone).1)
  rw [hresponse]
  refine ⟨ident_setId hl _, ?_, fun hkeeps => ?_, fun haccepted hone => ?_⟩
  · unfold Upstream.rcode at hrcode ⊢
    rwa [byteAt_congr (setId_other hl (by omega))]
  · refine (validateResponse_setId hvalid _).2 fun hone => ?_
    exact questionName_edited (hname hone) hedit (uses_lt (hname hone)) (hkeeps hone)
  · have hsame := (validateResponse_setId hvalid _).1 haccepted hone
    exact (keepsSpelling_of_questionName (hname hone) hedit hsame).imp_left And.right

/-- One encrypted upstream without a deadline. -/
def doqOnly : Manager := ⟨[⟨"doq", 0, .encrypted⟩], []⟩

/-- A network in which the channel gives `reply` at once. -/
def replying (reply : Bytes) : Network where
  fromVec := fun _ => .ok ⟨.query, .query, 1, 0, 0, 0, false⟩
  resolve := fun _ _ => .pending
  dial := fun _ _ => ⟨⟨.ok (), .ok (), fun _ => .ok (), []⟩, ⟨.ok (), fun _ => .ok (), [], none⟩⟩
  channel := fun _ _ => pure reply
  now := 0
  millis := 0

theorem doqOnly_forwards {reply : Bytes} (h : validateResponse raceQuery reply = .ok ())
    (hrcode : rcode reply ≠ servfail) :
    Forwards doqOnly raceQuery false (some ⟨reply, setId reply (ident raceQuery)⟩) := by
  have hrun : (Entry.run ⟨"doq", 0, .encrypted⟩ raceQuery false (replying reply)).run = some (.ok reply) := by
    show (checked raceQuery reply "rejected response: ").run = _
    unfold checked
    rw [h]
    rfl
  have hanswer : answerFrom raceQuery 0 (.ok reply) = some ⟨0, reply, setId reply (ident raceQuery)⟩ := by
    simp only [answerFrom, configuredAnswer, if_neg hrcode, Option.map_some]
  have hconf : Configured doqOnly raceQuery false (answerFrom raceQuery 0 (.ok reply)) := .single rfl hrun
  rw [hanswer] at hconf
  exact .configured hconf

theorem forward_answers_plain : ident (setId raceReply (1, 2)) = (1, 2) ∧ rcode (setId raceReply (1, 2)) ≠ servfail ∧
    validateResponse raceQuery (setId raceReply (1, 2)) = .ok () := by
  have h : Forwards doqOnly raceQuery false (some ⟨raceReply, setId raceReply (1, 2)⟩) :=
    doqOnly_forwards (by decide) (by decide)
  obtain ⟨hid, hrcode, hvalid, -⟩ := forward_answers h
  exact ⟨hid, hrcode, hvalid fun _ => by decide +kernel⟩

/-- A reply under ID 0 whose question names the root by a pointer to the first ID byte. -/
def idPointer : Bytes := [0, 0, 0x81, 0x80, 0, 1, 0, 0, 0, 0, 0, 0, 0xc0, 0, 0, 1, 0, 1]

/-- Accepted as it came, it is handed on with a question name that no longer reads. -/
theorem forward_not_validated : Forwards doqOnly raceQuery false (some ⟨idPointer, setId idPointer (1, 2)⟩) ∧
    validateResponse raceQuery (setId idPointer (1, 2)) = .error .questionMismatch :=
  ⟨doqOnly_forwards (by decide) (by decide), by decide⟩

end DNSRivet.Upstream
