/-
`load_text`: from the text of a configuration file to the checked configuration. The TOML crate parses the text to
a table; the derived `Deserialize` reads the fields of a table, each missing one as its default. The crate is a
parameter, with what it makes of a value of another type than the field's.
-/
import DNSRivet.Base.Sort
import DNSRivet.Config.Upstream

namespace DNSRivet.Config

open DNSRivet.Base DNSRivet.Net
open DNSRivet.OsDns (quoted)
open DNSRivet.Upstream.Bootstrap (lowercase)

/-! ## The raw layer -/

structure RawService where
  logLevel : String
  logPath : String
  cacheEnable : Bool
  cacheSize : UInt64
deriving DecidableEq, Repr

def RawService.default : RawService := ⟨"info", "", true, 4096⟩

structure RawListener where
  ip : String
  port : UInt16
deriving DecidableEq, Repr

def RawListener.default : RawListener := ⟨"127.0.0.1", 53⟩

def RawUpstream.default : RawUpstream := ⟨"", "", "", "", none, ""⟩

/-- The sections of a file; those of a kind are a map in the order of their keys. -/
structure RawConfig where
  service : RawService
  listener : List (String × RawListener)
  upstream : List (String × RawUpstream)
deriving DecidableEq, Repr

/-! ## Tables -/

/-- A TOML value. Dates, numbers with a fraction and arrays are kept as they are written. -/
inductive Value
  | string (s : String)
  | integer (n : Int)
  | boolean (b : Bool)
  | table (entries : List (String × Value))
  | other (text : String)

/-- A table, in the order of its keys. -/
abbrev Table := List (String × Value)

def Value.asTable : Value → Option Table
  | table entries => some entries
  | _ => none

def Value.asString : Value → Option String
  | string s => some s
  | _ => none

def Value.asBool : Value → Option Bool
  | boolean b => some b
  | _ => none

def Value.asU16 : Value → Option UInt16
  | integer n => if 0 ≤ n ∧ n < 65536 then some (UInt16.ofNat n.toNat) else none
  | _ => none

def Value.asU64 : Value → Option UInt64
  | integer n => if 0 ≤ n ∧ n < 18446744073709551616 then some (UInt64.ofNat n.toNat) else none
  | _ => none

/-! ## Serialization -/

def RawService.toTable (service : RawService) : Table :=
  [("cache_enable", .boolean service.cacheEnable), ("cache_size", .integer service.cacheSize.toNat),
    ("log_level", .string service.logLevel), ("log_path", .string service.logPath)]

def RawListener.toTable (listener : RawListener) : Table :=
  [("ip", .string listener.ip), ("port", .integer listener.port.toNat)]

/-- An omitted timeout has no entry. -/
def RawUpstream.toTable (upstream : RawUpstream) : Table :=
  [("bootstrap_ip", .string upstream.bootstrapIp), ("endpoint", .string upstream.endpoint),
    ("ip_stack", .string upstream.ipStack), ("name", .string upstream.name)] ++
    (upstream.timeout.map fun timeout => ("timeout", Value.integer timeout.toNat)).toList ++
    [("type", .string upstream.kind)]

def tableOfMap {α : Type} (toTable : α → Table) (map : List (String × α)) : Table :=
  map.map fun e => (e.1, .table (toTable e.2))

def RawConfig.toTable (raw : RawConfig) : Table :=
  [("listener", .table (tableOfMap RawListener.toTable raw.listener)), ("service", .table raw.service.toTable),
    ("upstream", .table (tableOfMap RawUpstream.toTable raw.upstream))]

/-- The TOML crate: the text of a table, the table of a text, and what it makes of a value that a field of type `α`
has at a path and that is not of the field's own type. It reads back the table it wrote. -/
structure Toml where
  parse : String → Except String Table
  toStringPretty : RawConfig → Except String String
  coerce : (α : Type) → List String → Value → Except String α
  parse_toStringPretty : ∀ raw text, toStringPretty raw = .ok text → parse text = .ok raw.toTable

/-! ## Deserialization -/

section Deserialize

variable (toml : Toml)

/-- A field with a default. -/
def readField {α : Type} (read : Value → Option α) (default : α) (path : List String) (table : Table) (key : String) :
    Except String α :=
  match table.lookup key with
  | none => .ok default
  | some value =>
    match read value with
    | some a => .ok a
    | none => toml.coerce α (path ++ [key]) value

def readService (path : List String) (table : Table) : Except String RawService := do
  let cacheEnable ← readField toml Value.asBool RawService.default.cacheEnable path table "cache_enable"
  let cacheSize ← readField toml Value.asU64 RawService.default.cacheSize path table "cache_size"
  let logLevel ← readField toml Value.asString RawService.default.logLevel path table "log_level"
  let logPath ← readField toml Value.asString RawService.default.logPath path table "log_path"
  return ⟨logLevel, logPath, cacheEnable, cacheSize⟩

def readListener (path : List String) (table : Table) : Except String RawListener := do
  let ip ← readField toml Value.asString RawListener.default.ip path table "ip"
  let port ← readField toml Value.asU16 RawListener.default.port path table "port"
  return ⟨ip, port⟩

def readUpstream (path : List String) (table : Table) : Except String RawUpstream := do
  let bootstrapIp ← readField toml Value.asString RawUpstream.default.bootstrapIp path table "bootstrap_ip"
  let endpoint ← readField toml Value.asString RawUpstream.default.endpoint path table "endpoint"
  let ipStack ← readField toml Value.asString RawUpstream.default.ipStack path table "ip_stack"
  let name ← readField toml Value.asString RawUpstream.default.name path table "name"
  let timeout ← readField toml (fun v => v.asU64.map some) RawUpstream.default.timeout path table "timeout"
  let kind ← readField toml Value.asString RawUpstream.default.kind path table "type"
  return ⟨name, kind, endpoint, bootstrapIp, timeout, ipStack⟩

/-- A structure in the place of a field. -/
def readTable {α : Type} (read : List String → Table → Except String α) (path : List String) : Value → Except String α
  | .table table => read path table
  | value => toml.coerce α path value

/-- The sections of one kind. -/
def readMap {α : Type} (read : List String → Table → Except String α) (table : Table) (key : String) :
    Except String (List (String × α)) :=
  match table.lookup key with
  | none => .ok []
  | some (.table entries) => entries.mapM fun e => (readTable toml read [key, e.1] e.2).map fun a => (e.1, a)
  | some value => toml.coerce _ [key] value

def readServiceSection (table : Table) : Except String RawService :=
  match table.lookup "service" with
  | none => .ok RawService.default
  | some value => readTable toml (readService toml) ["service"] value

/-- `table.try_into::<RawConfig>()`. -/
def readConfig (table : Table) : Except String RawConfig := do
  let listener ← readMap toml (readListener toml) table "listener"
  let service ← readServiceSection toml table
  let upstream ← readMap toml (readUpstream toml) table "upstream"
  return ⟨service, listener, upstream⟩

end Deserialize

/-! ## Unknown sections and fields -/

/-- Warnings for the keys that are not allowed. -/
def unknownKeys (allowed : List String) (warning : String → String) (table : Table) : List String :=
  (table.filter fun e => !allowed.contains e.1).map fun e => warning e.1

def unknownFields (table : Table) (kind : String) (allowed : List String) : List String :=
  (((table.lookup kind).bind Value.asTable).getD []).flatMap fun e =>
    unknownKeys allowed (fun field => "[" ++ kind ++ "." ++ e.1 ++ "] field " ++ quoted field ++
      " is not supported and was ignored") (e.2.asTable.getD [])

/-- Unknown or intentionally unsupported config sections and fields: warn instead of silently swallowing them. -/
def scanUnknown (root : Table) : List String :=
  unknownKeys ["service", "listener", "upstream"]
      (fun key => "section [" ++ key ++ "] is not supported and was ignored") root ++
    unknownKeys ["log_level", "log_path", "cache_enable", "cache_size"]
      (fun field => "[service] field " ++ quoted field ++ " is not supported and was ignored")
      (((root.lookup "service").bind Value.asTable).getD []) ++
    unknownFields root "listener" ["ip", "port"] ++
    unknownFields root "upstream" ["name", "type", "endpoint", "bootstrap_ip", "timeout", "ip_stack"]

/-! ## The validated layer -/

inductive LevelFilter
  | error
  | warn
  | info
  | debug
  | trace
deriving DecidableEq, Repr

structure Service where
  logLevel : LevelFilter
  logPath : Option String
  cacheEnable : Bool
  cacheSize : UInt64
deriving DecidableEq, Repr

set_option linter.dupNamespace false in
structure Config where
  service : Service
  listeners : List SocketAddr
  upstreams : List Upstream
deriving DecidableEq, Repr

structure Loaded where
  config : Config
  /-- Deferred to the caller so they can be emitted once the logger is up. -/
  warnings : List String
deriving DecidableEq, Repr

def u64Max : Nat := 18446744073709551615

/-- The place of a key: its number, or the last one, and then its text. -/
def numericKey {α : Type} (e : String × α) : Nat ×ₗ String :=
  toLex ((parseUnsigned u64Max e.1.toList).getD u64Max, e.1)

/-- "0", "1", "10" should order numerically, not lexically. -/
def sortedNumeric {α : Type} (map : List (String × α)) : List (String × α) := sortByKey numericKey map

def parseLogLevel (logLevel : String) (warnings : List String) : Except String (LevelFilter × List String) :=
  match lowercase logLevel with
  | "" => .ok (.info, warnings)
  | "info" => .ok (.info, warnings)
  | "trace" => .ok (.trace, warnings)
  | "debug" => .ok (.debug, warnings)
  | "warn" => .ok (.warn, warnings)
  | "warning" => .ok (.warn, warnings)
  | "error" => .ok (.error, warnings)
  | "fatal" => .ok (.error, warnings ++ ["[service] log_level \"fatal\" treated as \"error\""])
  | other => .error ("[service] invalid log_level: " ++ quoted other)

def parseService (raw : RawService) (warnings : List String) : Except String (Service × List String) := do
  let (logLevel, warnings) ← parseLogLevel raw.logLevel warnings
  let warnings := if raw.cacheEnable && raw.cacheSize == 0 then
      warnings ++ ["[service] cache_size must be positive; cache disabled"]
    else warnings
  return ({
    logLevel := logLevel
    logPath := if raw.logPath = "" then none else some raw.logPath
    cacheEnable := raw.cacheEnable && decide (0 < raw.cacheSize)
    cacheSize := max raw.cacheSize 1 }, warnings)

def parseListener (key : String) (listener : RawListener) : Except String SocketAddr :=
  match parseIpAddr listener.ip with
  | some ip => .ok (SocketAddr.new ip listener.port.toNat)
  | none => .error ("[listener." ++ key ++ "] invalid ip: " ++ quoted listener.ip)

def parseUpstreams : List (String × RawUpstream) → List String → Except String (List Upstream × List String)
  | [], warnings => .ok ([], warnings)
  | (key, raw) :: entries, warnings => do
    let (upstream, warnings) ← parseUpstream key raw warnings
    let (upstreams, warnings) ← parseUpstreams entries warnings
    return (upstream :: upstreams, warnings)

def loadText (toml : Toml) (text : String) : Except String Loaded := do
  let table ← (toml.parse text).mapError ("TOML parse error: " ++ ·)
  let raw ← (readConfig toml table).mapError ("invalid config: " ++ ·)
  let (service, warnings) ← parseService raw.service (scanUnknown table)
  let listeners ← (sortedNumeric raw.listener).mapM fun e => parseListener e.1 e.2
  let listeners := if listeners.isEmpty then [SocketAddr.v4 ⟨127, 0, 0, 1⟩ 53] else listeners
  let (upstreams, warnings) ← parseUpstreams (sortedNumeric raw.upstream) warnings
  if upstreams.isEmpty then throw "at least one [upstream.N] section is required"
  return ⟨⟨service, listeners, upstreams⟩, warnings⟩

/-! ## Tables that were written -/

variable {toml : Toml}

theorem readField_some {α : Type} {read : Value → Option α} {default a : α} {path : List String} {table : Table}
    {key : String} {value : Value} (hlookup : table.lookup key = some value) (hread : read value = some a) :
    readField toml read default path table key = .ok a := by
  simp only [readField, hlookup, hread]

theorem asU16_toNat (n : UInt16) : (Value.integer n.toNat).asU16 = some n := by
  have hn : n.toNat < 65536 := n.toNat_lt
  rw [Value.asU16, if_pos (by omega)]
  simp

theorem asU64_toNat (n : UInt64) : (Value.integer n.toNat).asU64 = some n := by
  have hn : n.toNat < 18446744073709551616 := n.toNat_lt
  rw [Value.asU64, if_pos (by omega)]
  simp

theorem readService_toTable (path : List String) (service : RawService) :
    readService toml path service.toTable = .ok service := by
  unfold readService
  rw [readField_some (by rfl) (by rfl), readField_some (by rfl) (asU64_toNat _), readField_some (by rfl) (by rfl),
    readField_some (by rfl) (by rfl)]
  rfl

theorem readListener_toTable (path : List String) (listener : RawListener) :
    readListener toml path listener.toTable = .ok listener := by
  unfold readListener
  rw [readField_some (by rfl) (by rfl), readField_some (by rfl) (asU16_toNat _)]
  rfl

theorem readUpstream_toTable (path : List String) (upstream : RawUpstream) :
    readUpstream toml path upstream.toTable = .ok upstream := by
  have htimeout : readField toml (fun v => v.asU64.map some) RawUpstream.default.timeout path upstream.toTable
      "timeout" = .ok upstream.timeout := by
    cases ht : upstream.timeout with
    | none =>
      have hlookup : upstream.toTable.lookup "timeout" = none := by rw [RawUpstream.toTable, ht]; rfl
      simp only [readField, hlookup]
      rfl
    | some timeout =>
      have hlookup : upstream.toTable.lookup "timeout" = some (.integer timeout.toNat) := by
        rw [RawUpstream.toTable, ht]; rfl
      exact readField_some hlookup (by rw [asU64_toNat]; rfl)
  have hkind : upstream.toTable.lookup "type" = some (.string upstream.kind) := by
    rw [RawUpstream.toTable]
    cases upstream.timeout <;> rfl
  unfold readUpstream
  rw [readField_some (by rfl) (by rfl), readField_some (by rfl) (by rfl), readField_some (by rfl) (by rfl),
    readField_some (by rfl) (by rfl), htimeout, readField_some hkind (by rfl)]
  rfl

theorem readTable_table {α : Type} (read : List String → Table → Except String α) (path : List String) (table : Table) :
    readTable toml read path (.table table) = read path table := rfl

theorem mapM_readTable {α : Type} {read : List String → Table → Except String α} {toTable : α → Table} {key : String}
    (hread : ∀ path a, read path (toTable a) = .ok a) (map : List (String × α)) :
    (tableOfMap toTable map).mapM (fun e => (readTable toml read [key, e.1] e.2).map fun a => (e.1, a)) = .ok map := by
  induction map with
  | nil => rfl
  | cons e map ih =>
    simp only [tableOfMap, List.map_cons, List.mapM_cons] at ih ⊢
    rw [ih]
    simp only [readTable_table, hread]
    rfl

theorem readMap_tableOfMap {α : Type} {read : List String → Table → Except String α} {toTable : α → Table}
    {key : String} {table : Table} {map : List (String × α)} (hread : ∀ path a, read path (toTable a) = .ok a)
    (hlookup : table.lookup key = some (.table (tableOfMap toTable map))) : readMap toml read table key = .ok map := by
  simp only [readMap, hlookup]
  exact mapM_readTable hread map

/-- A table that was written is read back. -/
theorem readConfig_toTable (raw : RawConfig) : readConfig toml raw.toTable = .ok raw := by
  have hservice : readServiceSection toml raw.toTable = .ok raw.service := by
    have hlookup : raw.toTable.lookup "service" = some (.table raw.service.toTable) := by rfl
    rw [readServiceSection, hlookup]
    exact (readTable_table _ _ _).trans (readService_toTable ["service"] raw.service)
  have hlistener : readMap toml (readListener toml) raw.toTable "listener" = .ok raw.listener :=
    readMap_tableOfMap readListener_toTable (by rfl)
  have hupstream : readMap toml (readUpstream toml) raw.toTable "upstream" = .ok raw.upstream :=
    readMap_tableOfMap readUpstream_toTable (by rfl)
  unfold readConfig
  rw [hlistener, hservice, hupstream]
  rfl

/-! ## The numbered entries of a map -/

/-- The entries of a list under the keys `index`, `index + 1`, and so on. -/
def numbered {α : Type} : Nat → List α → List (String × α)
  | _, [] => []
  | index, a :: as => (toString index, a) :: numbered (index + 1) as

theorem mem_numbered {α : Type} {e : String × α} :
    ∀ {as : List α} {index : Nat}, e ∈ numbered index as → ∃ j, index ≤ j ∧ j < index + as.length ∧ e.1 = toString j
  | a :: as, index, h => by
    rcases List.mem_cons.1 h with rfl | h
    · exact ⟨index, le_rfl, by simp, rfl⟩
    · obtain ⟨j, hle, hlt, he⟩ := mem_numbered h
      exact ⟨j, by omega, by simp only [List.length_cons]; omega, he⟩

theorem parseUnsigned_toString {n : Nat} (h : n ≤ u64Max) : parseUnsigned u64Max (toString n).toList = some n := by
  have hn := numeral_toDigits n
  exact parseUnsigned_eq_some_iff.2 ⟨_, .inl Nat.toList_repr, hn.ne_nil, hn.digits, hn.value, h⟩

theorem toString_ne {n m : Nat} (hn : n ≤ u64Max) (hm : m ≤ u64Max) (h : n ≠ m) : toString n ≠ toString m := by
  intro he
  have hp := parseUnsigned_toString hn
  rw [he, parseUnsigned_toString hm] at hp
  exact h (Option.some.inj hp).symm

theorem numericKey_numbered {α : Type} {e : String × α} {n : Nat} (h : n ≤ u64Max) (he : e.1 = toString n) :
    numericKey e = toLex (n, e.1) := by
  rw [numericKey, he, parseUnsigned_toString h, Option.getD_some]

theorem numbered_pairwise {α : Type} :
    ∀ {as : List α} {index : Nat}, index + as.length ≤ u64Max →
      (numbered index as).Pairwise fun e e' => numericKey e < numericKey e'
  | [], _, _ => List.Pairwise.nil
  | a :: as, index, h => by
    simp only [List.length_cons] at h
    refine List.Pairwise.cons (fun e he => ?_) (numbered_pairwise (by omega))
    obtain ⟨j, hle, hlt, hj⟩ := mem_numbered he
    rw [numericKey_numbered (by omega) rfl, numericKey_numbered (by omega) hj]
    exact Prod.Lex.toLex_lt_toLex.2 (.inl (by simp only; omega))

/-- Numbered entries come out in numeric order, whatever order the map has its keys in. -/
theorem sortedNumeric_numbered {α : Type} {as : List α} {map : List (String × α)} (hp : map.Perm (numbered 0 as))
    (hlen : as.length ≤ u64Max) : sortedNumeric map = numbered 0 as :=
  sortByKey_eq hp.symm (numbered_pairwise (by omega))

end DNSRivet.Config
