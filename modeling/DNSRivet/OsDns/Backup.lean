/-
What `osdns/macos.rs` rests on: the text of a DNS server entry, the restore backup, and the
operations on the system. The TOML encoder is a third-party crate and `if_nametoindex` a system
table; both are parameters, the first with the law that reading undoes writing. The operations
run a system tool or touch one file; the functions here give their errors the code's words.
-/
import DNSRivet.Base.FilePath
import DNSRivet.Base.Program
import DNSRivet.Net.Literal
import DNSRivet.OsDns.Fallback

namespace DNSRivet.OsDns

open DNSRivet.Base DNSRivet.Net

/-! ## Strings -/

/-- Unicode white space. -/
def isWhitespace (c : Char) : Bool :=
  let n := c.toNat
  (9 ≤ n && n ≤ 13) || n == 0x20 || n == 0x85 || n == 0xa0 || n == 0x1680 ||
    (0x2000 ≤ n && n ≤ 0x200a) || n == 0x2028 ||
    n == 0x2029 || n == 0x202f || n == 0x205f || n == 0x3000

/-- `str::trim`. -/
def trim (s : List Char) : List Char := ((s.dropWhile isWhitespace).reverse.dropWhile isWhitespace).reverse

/-- `rsplit_once`: the parts around the last `sep`. -/
def rsplitOnce (sep : Char) (s : List Char) : Option (List Char × List Char) :=
  let after := s.reverse.takeWhile (· ≠ sep)
  match s.reverse.dropWhile (· ≠ sep) with
  | _ :: before => some (before.reverse, after.reverse)
  | [] => none

/-- A character in `{:?}` of a string (every character beyond ASCII counts as printable). -/
def escapeDebug (c : Char) : List Char :=
  if c = '"' then ['\\', '"']
  else if c = '\\' then ['\\', '\\']
  else if c = '\n' then ['\\', 'n']
  else if c = '\r' then ['\\', 'r']
  else if c = '\t' then ['\\', 't']
  else if c.toNat = 0 then ['\\', '0']
  else if c.toNat < 32 ∨ c.toNat = 127 then ['\\', 'u', '\x7b'] ++ digits 16 c.toNat ++ ['\x7d']
  else [c]

/-- `{:?}` of a string. -/
def quoted (s : String) : String := String.ofList ('"' :: (s.toList.map escapeDebug).flatten ++ ['"'])

/-- `join`. -/
def joinWith (sep : String) (parts : List String) : String := sep.intercalate parts

/-! ## Server entries -/

/-- `str::parse::<u32>`. -/
def parseU32 (s : List Char) : Option Nat := parseUnsigned 4294967295 s

/-- `if_nametoindex`. -/
abbrev InterfaceTable := String → Except String Nat

def parseDnsSocket (interfaces : InterfaceTable) (value : String) : Except String SocketAddr :=
  let value := trim value.toList
  match parseIpAddr (String.ofList value) with
  | some ip => .ok (SocketAddr.new ip 53)
  | none =>
    match rsplitOnce '%' value with
    | none => .error ("invalid DNS server address " ++ quoted (String.ofList value))
    | some (address, scope) =>
      match parseIpv6Addr (String.ofList address) with
      | none =>
        .error ("invalid IPv6 DNS server address " ++ quoted (String.ofList value) ++ ": invalid IPv6 address syntax")
      | some ip =>
        match parseU32 scope with
        | some scopeId => .ok (.v6 ip 53 0 scopeId)
        | none =>
          match interfaces (String.ofList scope) with
          | .ok scopeId => .ok (.v6 ip 53 0 scopeId)
          | .error err => .error ("unknown IPv6 DNS interface " ++ quoted (String.ofList scope) ++ ": " ++ err)

def serializeDnsSocket : SocketAddr → String
  | .v4 ip _ => (IpAddr.v4 ip).display
  | .v6 ip _ _ scopeId =>
    if scopeId ≠ 0 then String.ofList (ip.chars ++ '%' :: digits 10 scopeId) else (IpAddr.v6 ip).display

/-- The socket addresses among the entries of a list, `filter_map(parse_dns_socket.ok())`. -/
def parsedSockets (interfaces : InterfaceTable) (servers : List String) : List SocketAddr :=
  servers.filterMap fun value => (parseDnsSocket interfaces value).toOption

/-! ## The backup -/

@[ext] structure ServiceDns where
  name : String
  servers : List String
deriving DecidableEq, Repr

@[ext] structure Backup where
  version : Nat
  services : List ServiceDns
  fallbackServers : List String
  /-- All addresses used since takeover. `none` means legacy history is unknown. -/
  takeoverServers : Option (List IpAddr)
deriving DecidableEq, Repr

/-- The TOML crate on backups: what was written is read back. -/
structure Toml where
  toString : Backup → Except String String
  fromStr : String → Except String Backup
  fromStr_toString : ∀ backup text, toString backup = .ok text → fromStr text = .ok backup

/-- The encoder that knows some backups by their texts. -/
def Toml.ofTable (table : List (Backup × String)) (h : (table.map Prod.snd).Nodup) : Toml where
  toString := fun backup => match table.find? (fun e => e.1 = backup) with
    | some e => .ok e.2
    | none => .error "unsupported backup"
  fromStr := fun text => match table.find? (fun e => e.2 = text) with
    | some e => .ok e.1
    | none => .error "expected a backup"
  fromStr_toString := by
    intro backup text ht
    cases hf : table.find? (fun e => e.1 = backup) with
    | none => rw [hf] at ht; cases ht
    | some e =>
      rw [hf] at ht
      cases ht
      have he : e.1 = backup := by simpa using List.find?_some hf
      have hmem := List.mem_of_find?_eq_some hf
      obtain ⟨e', he'⟩ : ∃ e', table.find? (fun x => x.2 = e.2) = some e' :=
        Option.isSome_iff_exists.1 (List.find?_isSome.2 ⟨e, hmem, by simp⟩)
      have htext : e'.2 = e.2 := by simpa using List.find?_some he'
      have hsame : e' = e := List.inj_on_of_nodup_map h (List.mem_of_find?_eq_some he') hmem htext
      simp only [he', hsame, he]

/-- What the code depends on outside the repository. -/
structure Platform where
  toml : Toml
  interfaces : InterfaceTable

/-! ## System operations -/

/-- A failed file operation. -/
structure IoError where
  notFound : Bool
  text : String
deriving DecidableEq, Repr

inductive SysOp
  | lock
  | backupExists
  | markerExists
  | createMarker
  | removeMarker
  | createSupportDir
  | readBackupFile
  | installBackup (text : String)
  | removeBackup
  | effectiveDnsServers
  | listServices
  | listAllServices
  | getDnsServers (service : String)
  | setDnsServers (service : String) (servers : List String)
  | flushCaches
deriving DecidableEq, Repr

/-- What an operation answers. The lists come parsed from the tools' output. -/
abbrev SysOp.Reply : SysOp → Type
  | .lock => Except String Unit
  | .backupExists => Bool
  | .markerExists => Bool
  | .createMarker => Except String Unit
  | .removeMarker => Except IoError Unit
  | .createSupportDir => Except String Unit
  | .readBackupFile => Except String String
  | .installBackup _ => Except String Unit
  | .removeBackup => Except IoError Unit
  | .effectiveDnsServers => Except String (List SocketAddr)
  | .listServices => Except String (List String)
  | .listAllServices => Except String (List String)
  | .getDnsServers _ => Except String (List String)
  | .setDnsServers _ _ => Except String Unit
  | .flushCaches => Unit

/-- A program over the system that can fail with a message. -/
abbrev Action := ExceptT String (Prog SysOp SysOp.Reply)

def supportDir : FilePath := ⟨true, ["Library", "Application Support", "DNSRivet"]⟩
def backupPath : String := "/Library/Application Support/DNSRivet/dns-backup.toml"
def markerPath : String := "/Library/Application Support/DNSRivet/takeover-active"

def lock : Action Unit := Prog.performE .lock id

def backupExists : Action Bool := Prog.performE .backupExists .ok

def markerExists : Action Bool := Prog.performE .markerExists .ok

def createMarker : Action Unit :=
  Prog.performE .createMarker fun r => r.mapError fun e => "create takeover marker " ++ markerPath ++ ": " ++ e

def removeMarker : Action Unit :=
  Prog.performE .removeMarker fun
    | .ok () => .ok ()
    | .error err =>
      if err.notFound then .ok () else .error ("remove takeover marker " ++ markerPath ++ ": " ++ err.text)

def readBackup (P : Platform) : Action Backup :=
  Prog.performE .readBackupFile fun
    | .ok text => (P.toml.fromStr text).mapError fun e => "parse DNS backup " ++ backupPath ++ ": " ++ e
    | .error e => .error ("read DNS backup " ++ backupPath ++ ": " ++ e)

def installBackup (text : String) : Action Unit :=
  Prog.performE (.installBackup text) fun r => r.mapError fun e => "install DNS backup " ++ backupPath ++ ": " ++ e

def createSupportDir : Action Unit :=
  Prog.performE .createSupportDir fun r => r.mapError fun e => "create support directory " ++ supportDir.display ++
    ": " ++ e

def writeBackup (P : Platform) (backup : Backup) : Action Unit := do
  createSupportDir
  match P.toml.toString backup with
  | .ok text => installBackup text
  | .error e => throw ("serialize DNS backup: " ++ e)

def effectiveDnsServers : Action (List SocketAddr) := Prog.performE .effectiveDnsServers id

def listServices : Action (List String) := Prog.performE .listServices id

def listAllServices : Action (List String) := Prog.performE .listAllServices id

def getDnsServers (service : String) : Action (List String) := Prog.performE (.getDnsServers service) id

def setDnsServers (service : String) (servers : List String) : Action Unit :=
  Prog.performE (.setDnsServers service servers) id

def flushCaches : Action Unit := Prog.performE .flushCaches .ok

end DNSRivet.OsDns
