/-
`quick_toml`: a configuration from the command line. Listeners and upstreams are written to maps under the text of
their index and come back through `load_text`, so their order has to survive keys that sort "10" before "2", and
each of them being taken apart into fields. The fields of a listener have no place for a scope.
-/
import DNSRivet.Base.Bytes
import DNSRivet.Base.Program
import DNSRivet.Config.Load

namespace DNSRivet.Config

open DNSRivet.Base DNSRivet.Net
open DNSRivet.OsDns (quoted)

/-! ## The generated configuration -/

/-- The entry for a `--listen` address. -/
def rawListener (value : String) : Except String RawListener :=
  match parseSocketAddr value with
  | some addr => .ok ⟨addr.ip.display, UInt16.ofNat addr.port⟩
  | none => .error ("invalid --listen address " ++ quoted value ++ "; expected IP:PORT")

/-- The type and the endpoint of an `--upstream`. -/
def splitSpec (spec : String) : Except String (String × String) :=
  match splitOnce '=' spec.toList with
  | some (kind, endpoint) =>
    if kind ≠ [] ∧ endpoint ≠ [] then .ok (String.ofList kind, String.ofList endpoint)
    else .error ("invalid --upstream " ++ quoted spec ++ "; expected TYPE=ENDPOINT")
  | none =>
    if spec ≠ "" then .ok ("", spec)
    else .error ("invalid --upstream " ++ quoted spec ++ "; expected TYPE=ENDPOINT")

def rawUpstream (timeoutMs : Option UInt64) (index : Nat) (spec : String) : Except String RawUpstream := do
  let (kind, endpoint) ← splitSpec spec
  return {
    name := "upstream." ++ toString index
    kind := kind
    endpoint := endpoint
    bootstrapIp := ""
    timeout := some (timeoutMs.getD defaultTimeoutMs)
    ipStack := "both" }

/-- The loop over the listeners or the upstreams, with the index of the next one: each is inserted under the text of
its index. -/
def insertNumbered {α : Type} (entry : Nat → String → Except String α) :
    Nat → List String → List (String × α) → Except String (List (String × α))
  | _, [], map => .ok map
  | index, value :: values, map => do
    let a ← entry index value
    insertNumbered entry (index + 1) values (insertEntry (toString index) a map)

def listenAddresses (listeners : List String) : List String :=
  if listeners.isEmpty then ["127.0.0.1:53"] else listeners

def insertListeners (listeners : List String) : Except String (List (String × RawListener)) :=
  insertNumbered (fun _ value => rawListener value) 0 (listenAddresses listeners) []

def insertUpstreams (timeoutMs : Option UInt64) (upstreams : List String) :
    Except String (List (String × RawUpstream)) :=
  insertNumbered (rawUpstream timeoutMs) 0 upstreams []

/-- Render the quick CLI surface to canonical TOML, then validate that TOML through the same parser used for
hand-written configuration files. -/
def quickToml (toml : Toml) (listeners upstreams : Slice String) (timeoutMs cacheSize : Option UInt64)
    (noCache : Bool) : Except String String := do
  if upstreams.list.isEmpty then throw "quick configuration requires at least one upstream"
  let listener ← insertListeners listeners.list
  let upstream ← insertUpstreams timeoutMs upstreams.list
  let service := { RawService.default with cacheEnable := !noCache, cacheSize := cacheSize.getD 4096 }
  let text ← (toml.toStringPretty ⟨service, listener, upstream⟩).mapError ("serialize quick configuration: " ++ ·)
  let _ ← loadText toml text
  return text

/-! ## What the command line says -/

/-- A spec is `TYPE=ENDPOINT`, split at the first equals sign, or an endpoint alone. -/
inductive SpecFields : String → String → String → Prop
  | typed {kind endpoint : List Char} (hkind : kind ≠ []) (heq : '=' ∉ kind) (hendpoint : endpoint ≠ []) :
      SpecFields (String.ofList (kind ++ '=' :: endpoint)) (String.ofList kind) (String.ofList endpoint)
  | bare {endpoint : String} (hne : endpoint ≠ "") (heq : '=' ∉ endpoint.toList) : SpecFields endpoint "" endpoint

/-- What `parse_upstream` gives for the spec at an index. -/
def SpecUpstream (timeoutMs : Option UInt64) (spec : String × Nat) (upstream : Upstream) : Prop :=
  ∃ kind endpoint warnings, SpecFields spec.1 kind endpoint ∧
    parseUpstream (toString spec.2) {
      name := "upstream." ++ toString spec.2
      kind := kind
      endpoint := endpoint
      bootstrapIp := ""
      timeout := some (timeoutMs.getD defaultTimeoutMs)
      ipStack := "both" } [] = .ok (upstream, warnings)

/-- The loaded configuration is the one that the command line asked for. -/
structure RoundTrips (listeners upstreams : List String) (timeoutMs cacheSize : Option UInt64) (noCache : Bool)
    (config : Config) : Prop where
  listeners_eq : listeners ≠ [] → listeners.map parseSocketAddr = config.listeners.map some
  listeners_nil : listeners = [] → config.listeners = [.v4 ⟨127, 0, 0, 1⟩ 53]
  upstreams_eq : List.Forall₂ (SpecUpstream timeoutMs) upstreams.zipIdx config.upstreams
  timeout_eq : ∀ upstream ∈ config.upstreams, upstream.timeoutMs = timeoutMs.getD defaultTimeoutMs
  cacheSize_eq : 0 < cacheSize.getD 4096 → config.service.cacheSize = cacheSize.getD 4096
  cacheEnable_eq : 0 < cacheSize.getD 4096 → config.service.cacheEnable = !noCache

/-! ## Inserting by number -/

/-- The map holds the entries of the list under their indices. -/
theorem insertNumbered_ok {α : Type} {entry : Nat → String → Except String α} :
    ∀ {values : List String} {index : Nat} {map map' : List (String × α)},
      insertNumbered entry index values map = .ok map' → (∀ e ∈ map, ∃ j < index, e.1 = toString j) →
      index + values.length ≤ u64Max →
        ∃ as, List.Forall₂ (fun v a => entry v.2 v.1 = .ok a) (values.zipIdx index) as ∧
          map'.Perm (map ++ numbered index as)
  | [], index, map, map', h, _, _ => by
    cases h
    exact ⟨[], List.Forall₂.nil, by rw [numbered, List.append_nil]⟩
  | value :: values, index, map, map', h, hmap, hlen => by
    simp only [List.length_cons] at hlen
    obtain ⟨a, ha, h⟩ := bind_eq_ok.1 h
    have hnew : (insertEntry (toString index) a map).Perm ((toString index, a) :: map) := by
      apply insertEntry_perm
      intro e he
      obtain ⟨j, hj, hej⟩ := hmap e he
      rw [hej]
      exact toString_ne (by omega) (by omega) (by omega)
    have hmap' : ∀ e ∈ insertEntry (toString index) a map, ∃ j < index + 1, e.1 = toString j := by
      intro e he
      rcases List.mem_cons.1 (hnew.mem_iff.1 he) with rfl | he
      · exact ⟨index, by omega, rfl⟩
      · obtain ⟨j, hj, hej⟩ := hmap e he
        exact ⟨j, by omega, hej⟩
    obtain ⟨as, has, hperm⟩ := insertNumbered_ok h hmap' (by omega)
    refine ⟨a :: as, List.Forall₂.cons ha has, hperm.trans ?_⟩
    exact (hnew.append_right _).trans List.perm_middle.symm

/-- What was inserted by number is read in that order. -/
theorem sortedNumeric_insertNumbered {α : Type} {entry : Nat → String → Except String α} {values : List String}
    {map : List (String × α)} (h : insertNumbered entry 0 values [] = .ok map) (hlen : values.length ≤ isizeMax) :
    ∃ as, List.Forall₂ (fun v a => entry v.2 v.1 = .ok a) values.zipIdx as ∧ sortedNumeric map = numbered 0 as := by
  have hmax : isizeMax ≤ u64Max := by decide
  obtain ⟨as, has, hperm⟩ := insertNumbered_ok h (by simp) (by omega)
  refine ⟨as, has, sortedNumeric_numbered hperm ?_⟩
  rw [← has.length_eq, List.length_zipIdx]
  omega

/-! ## Listeners -/

/-- A listener address without its scope. -/
def Listens (value : String) (listener : SocketAddr) : Prop :=
  ∃ addr, parseSocketAddr value = some addr ∧ listener = SocketAddr.new addr.ip addr.port

theorem listens_of_parseListener {value key : String} {raw : RawListener} {listener : SocketAddr}
    (hraw : rawListener value = .ok raw) (h : parseListener key raw = .ok listener) : Listens value listener := by
  unfold rawListener at hraw
  split at hraw
  · rename_i addr haddr
    cases hraw
    have hport := (parseSocketAddr_ok haddr).1
    rw [parseListener, parseIpAddr_display] at h
    cases h
    refine ⟨addr, haddr, ?_⟩
    rw [UInt16.toNat_ofNat_of_lt' (Nat.lt_succ_of_le hport)]
  · cases hraw

theorem listens_of_mapM {values : List String} {index : Nat} {raws : List RawListener} {listeners : List SocketAddr}
    (hraws : List.Forall₂ (fun v a => rawListener v.1 = .ok a) (values.zipIdx index) raws)
    (h : ((numbered index raws).mapM fun e => parseListener e.1 e.2) = .ok listeners) :
    List.Forall₂ Listens values listeners := by
  induction values generalizing index raws listeners with
  | nil =>
    cases hraws
    cases h
    exact List.Forall₂.nil
  | cons value values ih =>
    cases hraws with
    | cons hraw hraws =>
      rw [numbered, List.mapM_cons] at h
      obtain ⟨listener, hlistener, h⟩ := bind_eq_ok.1 h
      obtain ⟨listeners, hlisteners, h⟩ := bind_eq_ok.1 h
      cases h
      exact List.Forall₂.cons (listens_of_parseListener hraw hlistener) (ih hraws hlisteners)

/-- The addresses are those on the command line exactly when these have no scope. -/
theorem listens_eq_iff {values : List String} {listeners : List SocketAddr}
    (h : List.Forall₂ Listens values listeners) :
    values.map parseSocketAddr = listeners.map some ↔
      ∀ value ∈ values, ∀ addr, parseSocketAddr value = some addr → addr.scopeId = 0 := by
  induction h with
  | nil => simp
  | @cons value listener values listeners hl _ ih =>
    obtain ⟨addr, haddr, rfl⟩ := hl
    have hscope := (parseSocketAddr_ok haddr).2
    simp only [List.map_cons, List.cons.injEq, List.forall_mem_cons, haddr, Option.some.injEq, ih, forall_eq']
    rw [← hscope, eq_comm]

/-! ## Upstreams -/

theorem specFields_of_splitSpec {spec kind endpoint : String} (h : splitSpec spec = .ok (kind, endpoint)) :
    SpecFields spec kind endpoint := by
  unfold splitSpec at h
  cases hsplit : splitOnce '=' spec.toList with
  | none =>
    rw [hsplit] at h
    dsimp only at h
    split_ifs at h with hne
    cases h
    exact .bare hne (splitOnce_eq_none_iff.1 hsplit)
  | some p =>
    obtain ⟨before, after⟩ := p
    obtain ⟨htext, heq⟩ := splitOnce_eq_some_iff.1 hsplit
    rw [hsplit] at h
    dsimp only at h
    split_ifs at h with hne
    cases h
    rw [← String.ofList_toList (s := spec), htext]
    exact .typed hne.1 heq hne.2

theorem specUpstream_of_parseUpstreams {timeoutMs : Option UInt64} {specs : List String} {index : Nat}
    {raws : List RawUpstream} {upstreams : List Upstream} {warnings warnings' : List String}
    (hraws : List.Forall₂ (fun v a => rawUpstream timeoutMs v.2 v.1 = .ok a) (specs.zipIdx index) raws)
    (h : parseUpstreams (numbered index raws) warnings = .ok (upstreams, warnings')) :
    List.Forall₂ (SpecUpstream timeoutMs) (specs.zipIdx index) upstreams := by
  induction specs generalizing index raws upstreams warnings with
  | nil =>
    cases hraws
    cases h
    exact List.Forall₂.nil
  | cons spec specs ih =>
    cases hraws with
    | cons hraw hraws =>
      simp only [numbered, parseUpstreams, bind_eq_ok, Prod.exists] at h
      obtain ⟨upstream, warnings₁, hupstream, upstreams, warnings₂, hupstreams, h⟩ := h
      cases h
      simp only [rawUpstream, bind_eq_ok, Prod.exists] at hraw
      obtain ⟨kind, endpoint, hsplit, hraw⟩ := hraw
      cases hraw
      obtain ⟨warnings, hupstream⟩ := parseUpstream_any hupstream []
      exact List.Forall₂.cons ⟨kind, endpoint, warnings, specFields_of_splitSpec hsplit, hupstream⟩
        (ih hraws hupstreams)

theorem SpecUpstream.timeoutMs_eq {timeoutMs : Option UInt64} {spec : String × Nat} {upstream : Upstream}
    (h : SpecUpstream timeoutMs spec upstream) : upstream.timeoutMs = timeoutMs.getD defaultTimeoutMs := by
  obtain ⟨kind, endpoint, warnings, -, h⟩ := h
  exact (parseUpstream_ok h).2

theorem timeout_of_specUpstream {timeoutMs : Option UInt64} {specs : List (String × Nat)} {upstreams : List Upstream}
    (h : List.Forall₂ (SpecUpstream timeoutMs) specs upstreams) :
    ∀ upstream ∈ upstreams, upstream.timeoutMs = timeoutMs.getD defaultTimeoutMs := by
  induction h with
  | nil => simp
  | cons hspec _ ih => exact List.forall_mem_cons.2 ⟨hspec.timeoutMs_eq, ih⟩

/-! ## The loaded configuration -/

theorem parseService_ok {raw : RawService} {service : Service} {warnings warnings' : List String}
    (h : parseService raw warnings = .ok (service, warnings')) (hpos : 0 < raw.cacheSize) :
    service.cacheSize = raw.cacheSize ∧ service.cacheEnable = raw.cacheEnable := by
  simp only [parseService, bind_eq_ok, Prod.exists] at h
  obtain ⟨logLevel, warnings₁, -, h⟩ := h
  cases h
  have hmax : max raw.cacheSize 1 = raw.cacheSize := by
    have hpos : 0 < raw.cacheSize.toNat := UInt64.lt_iff_toNat_lt.1 hpos
    change (if raw.cacheSize ≤ 1 then 1 else raw.cacheSize) = raw.cacheSize
    split_ifs with hle
    · have hle : raw.cacheSize.toNat ≤ 1 := UInt64.le_iff_toNat_le.1 hle
      exact UInt64.toNat_inj.1 (show 1 = raw.cacheSize.toNat by omega)
    · rfl
  refine ⟨hmax, ?_⟩
  simp only [decide_eq_true hpos, Bool.and_true]

/-- The parts of a configuration that was loaded from a written table. -/
theorem loadText_ok {toml : Toml} {text : String} {raw : RawConfig} {loaded : Loaded}
    (hparse : toml.parse text = .ok raw.toTable) (h : loadText toml text = .ok loaded) :
    (∃ warnings warnings', parseService raw.service warnings = .ok (loaded.config.service, warnings')) ∧
    (∃ listeners, ((sortedNumeric raw.listener).mapM fun e => parseListener e.1 e.2) = .ok listeners ∧
      loaded.config.listeners = if listeners.isEmpty then [SocketAddr.v4 ⟨127, 0, 0, 1⟩ 53] else listeners) ∧
    ∃ warnings warnings', parseUpstreams (sortedNumeric raw.upstream) warnings =
      .ok (loaded.config.upstreams, warnings') := by
  simp only [loadText, hparse, bind_eq_ok, Prog.mapError_eq_ok, Except.ok.injEq, exists_eq_left', readConfig_toTable,
    Prod.exists] at h
  obtain ⟨service, warnings₁, hservice, listeners, hlisteners, upstreams, warnings₂, hupstreams, h⟩ := h
  by_cases hempty : upstreams.isEmpty = true
  · rw [if_pos hempty] at h
    cases h
  · rw [if_neg hempty] at h
    cases h
    exact ⟨⟨_, _, hservice⟩, ⟨listeners, hlisteners, rfl⟩, _, _, hupstreams⟩

/-- What quick configuration checks and does before it returns a text. -/
theorem quickToml_ok {toml : Toml} {listeners upstreams : Slice String} {timeoutMs cacheSize : Option UInt64}
    {noCache : Bool} {text : String} (h : quickToml toml listeners upstreams timeoutMs cacheSize noCache = .ok text) :
    ∃ (raw : RawConfig) (loaded : Loaded), insertListeners listeners.list = .ok raw.listener ∧
      insertUpstreams timeoutMs upstreams.list = .ok raw.upstream ∧
      raw.service = { RawService.default with cacheEnable := !noCache, cacheSize := cacheSize.getD 4096 } ∧
      toml.parse text = .ok raw.toTable ∧ loadText toml text = .ok loaded := by
  unfold quickToml at h
  by_cases hempty : upstreams.list.isEmpty = true
  · rw [if_pos hempty] at h
    cases h
  · rw [if_neg hempty] at h
    simp only [bind_eq_ok, Prog.mapError_eq_ok] at h
    obtain ⟨listener, hlistener, upstream, hupstream, text, hprint, loaded, hload, h⟩ := h
    cases h
    exact ⟨_, loaded, hlistener, hupstream, rfl, toml.parse_toStringPretty _ _ hprint, hload⟩

theorem listenAddresses_ne_nil (listeners : List String) : listenAddresses listeners ≠ [] := by
  unfold listenAddresses
  split_ifs with h
  · simp
  · simpa using h

theorem listenAddresses_length_le (listeners : Slice String) : (listenAddresses listeners.list).length ≤ isizeMax := by
  unfold listenAddresses
  split_ifs
  · decide
  · exact listeners.length_le

/-- What is loaded from the text of a quick configuration. -/
theorem loaded_of_quickToml {toml : Toml} {listeners upstreams : Slice String} {timeoutMs cacheSize : Option UInt64}
    {noCache : Bool} {text : String} (h : quickToml toml listeners upstreams timeoutMs cacheSize noCache = .ok text) :
    ∃ loaded, loadText toml text = .ok loaded ∧
      List.Forall₂ Listens (listenAddresses listeners.list) loaded.config.listeners ∧
      List.Forall₂ (SpecUpstream timeoutMs) upstreams.list.zipIdx loaded.config.upstreams ∧
      (0 < cacheSize.getD 4096 → loaded.config.service.cacheSize = cacheSize.getD 4096 ∧
        loaded.config.service.cacheEnable = !noCache) := by
  obtain ⟨raw, loaded, hlistener, hupstream, hservice, hparse, hload⟩ := quickToml_ok h
  obtain ⟨⟨_, _, hloadService⟩, ⟨ls, hls, hloadListeners⟩, _, _, hloadUpstreams⟩ := loadText_ok hparse hload
  obtain ⟨rawListeners, hrawListeners, hsortListeners⟩ :=
    sortedNumeric_insertNumbered hlistener (listenAddresses_length_le listeners)
  obtain ⟨rawUpstreams, hrawUpstreams, hsortUpstreams⟩ := sortedNumeric_insertNumbered hupstream upstreams.length_le
  rw [hsortListeners] at hls
  rw [hsortUpstreams] at hloadUpstreams
  have hlistens := listens_of_mapM hrawListeners hls
  have hne : ls ≠ [] := by
    rintro rfl
    exact listenAddresses_ne_nil listeners.list (List.forall₂_nil_right_iff.1 hlistens)
  rw [if_neg (by simpa using hne)] at hloadListeners
  rw [hservice] at hloadService
  exact ⟨loaded, hload, hloadListeners ▸ hlistens, specUpstream_of_parseUpstreams hrawUpstreams hloadUpstreams,
    parseService_ok hloadService⟩

/-- A quick configuration is loaded as the command line asked for, exactly when no listener address has a scope. -/
theorem quickToml_roundTrips (toml : Toml) (listeners upstreams : Slice String) (timeoutMs cacheSize : Option UInt64)
    (noCache : Bool) (text : String)
    (h : quickToml toml listeners upstreams timeoutMs cacheSize noCache = .ok text) :
    (∃ loaded, loadText toml text = .ok loaded ∧
      RoundTrips listeners.list upstreams.list timeoutMs cacheSize noCache loaded.config) ↔
    ∀ value ∈ listeners.list, ∀ addr, parseSocketAddr value = some addr → addr.scopeId = 0 := by
  obtain ⟨loaded, hload, hlistens, hspecs, hservice⟩ := loaded_of_quickToml h
  constructor
  · rintro ⟨loaded', hload', hround⟩ value hvalue
    obtain rfl : loaded = loaded' := Except.ok.inj (hload.symm.trans hload')
    have hne : listeners.list ≠ [] := List.ne_nil_of_mem hvalue
    rw [listenAddresses, if_neg (by simpa using hne)] at hlistens
    exact (listens_eq_iff hlistens).1 (hround.listeners_eq hne) value hvalue
  · intro hscope
    refine ⟨loaded, hload, {
      listeners_eq := fun hne => ?_
      listeners_nil := fun hnil => ?_
      upstreams_eq := hspecs
      timeout_eq := timeout_of_specUpstream hspecs
      cacheSize_eq := fun hpos => (hservice hpos).1
      cacheEnable_eq := fun hpos => (hservice hpos).2 }⟩
    · rw [listenAddresses, if_neg (by simpa using hne)] at hlistens
      exact (listens_eq_iff hlistens).2 hscope
    · rw [hnil] at hlistens
      change List.Forall₂ Listens ["127.0.0.1:53"] _ at hlistens
      generalize loaded.config.listeners = ls at hlistens ⊢
      have hlocal : parseSocketAddr "127.0.0.1:53" = some (.v4 ⟨127, 0, 0, 1⟩ 53) := by decide +kernel
      cases hlistens with
      | cons hl hls =>
        cases hls
        obtain ⟨addr, haddr, rfl⟩ := hl
        rw [hlocal] at haddr
        cases haddr
        rfl

/-- A crate that writes one configuration. -/
def onlyToml (raw : RawConfig) (text : String) : Toml where
  parse := fun t => if t = text then .ok raw.toTable else .error "key with no value, expected ="
  toStringPretty := fun r => if r = raw then .ok text else .error "out-of-range value for u64 type"
  coerce := fun _ _ _ => .error "invalid type"
  parse_toStringPretty := by
    intro r t h
    split_ifs at h with hr
    cases h
    rw [if_pos rfl, hr]

def profileRaw : RawConfig :=
  ⟨⟨"info", "", true, 128⟩, [("0", ⟨"127.0.0.1", 5354⟩)],
    [("0", ⟨"upstream.0", "doh3", "https://resolver.example/profile", "", some 750, "both"⟩),
      ("1", ⟨"upstream.1", "dot", "resolver-backup.example", "", some 750, "both"⟩)]⟩

def profileText : String := String.intercalate "\n"
  ["[service]", "log_level = \"info\"", "log_path = \"\"", "cache_enable = true", "cache_size = 128", "",
    "[listener.0]", "ip = \"127.0.0.1\"", "port = 5354", "",
    "[upstream.0]", "name = \"upstream.0\"", "type = \"doh3\"", "endpoint = \"https://resolver.example/profile\"",
    "bootstrap_ip = \"\"", "timeout = 750", "ip_stack = \"both\"", "",
    "[upstream.1]", "name = \"upstream.1\"", "type = \"dot\"", "endpoint = \"resolver-backup.example\"",
    "bootstrap_ip = \"\"", "timeout = 750", "ip_stack = \"both\"", ""]

theorem quickToml_roundTrips_profile :
    ∃ loaded, loadText (onlyToml profileRaw profileText) profileText = .ok loaded ∧
      RoundTrips ["127.0.0.1:5354"] ["doh3=https://resolver.example/profile", "dot=resolver-backup.example"] (some 750)
        (some 128) false loaded.config := by
  have hlocal : parseSocketAddr "127.0.0.1:5354" = some (.v4 ⟨127, 0, 0, 1⟩ 5354) := by decide +kernel
  refine (quickToml_roundTrips (onlyToml profileRaw profileText) ⟨["127.0.0.1:5354"], by decide⟩
    ⟨["doh3=https://resolver.example/profile", "dot=resolver-backup.example"], by decide⟩ (some 750) (some 128) false
    profileText (by decide +kernel)).2 fun value hvalue addr haddr => ?_
  rw [List.mem_singleton.1 hvalue, hlocal] at haddr
  cases haddr
  rfl

def linkLocalRaw : RawConfig :=
  ⟨RawService.default, [("0", ⟨"fe80::1", 53⟩)],
    [("0", ⟨"upstream.0", "", "9.9.9.9", "", some 5000, "both"⟩)]⟩

def linkLocalText : String := String.intercalate "\n"
  ["[service]", "log_level = \"info\"", "log_path = \"\"", "cache_enable = true", "cache_size = 4096", "",
    "[listener.0]", "ip = \"fe80::1\"", "port = 53", "",
    "[upstream.0]", "name = \"upstream.0\"", "type = \"\"", "endpoint = \"9.9.9.9\"", "bootstrap_ip = \"\"",
    "timeout = 5000", "ip_stack = \"both\"", ""]

/-- The scope of a link-local listener is lost: the text has no field for it. -/
theorem quickToml_loses_scope :
    quickToml (onlyToml linkLocalRaw linkLocalText) ⟨["[fe80::1%7]:53"], by decide⟩ ⟨["9.9.9.9"], by decide⟩ none none
        false = .ok linkLocalText ∧
      ¬∃ loaded, loadText (onlyToml linkLocalRaw linkLocalText) linkLocalText = .ok loaded ∧
        RoundTrips ["[fe80::1%7]:53"] ["9.9.9.9"] none none false loaded.config := by
  refine ⟨by decide +kernel, ?_⟩
  rintro ⟨loaded, hload, hround⟩
  have hlisteners : (loadText (onlyToml linkLocalRaw linkLocalText) linkLocalText).map (·.config.listeners) =
      .ok [.v6 ⟨[0xfe80, 0, 0, 0, 0, 0, 0, 1], rfl⟩ 53 0 0] := by decide +kernel
  have hasked : parseSocketAddr "[fe80::1%7]:53" = some (.v6 ⟨[0xfe80, 0, 0, 0, 0, 0, 0, 1], rfl⟩ 53 0 7) := by
    decide +kernel
  have heq := hround.listeners_eq (by simp)
  rw [hload] at hlisteners
  have hlisteners : loaded.config.listeners = _ := Except.ok.inj hlisteners
  rw [hlisteners, List.map_singleton, hasked] at heq
  exact absurd heq (by decide)

end DNSRivet.Config
