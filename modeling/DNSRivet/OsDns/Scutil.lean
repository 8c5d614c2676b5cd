/-
`parse_scutil_global_dns`: the global resolvers in the output of `scutil --dns`. The parser reads line by line with
a list of pending addresses and two flags. Its meaning is said on the text cut into blocks: the lines between two
boundaries, each in the section of the last title above it.
-/
import DNSRivet.Base.Text
import DNSRivet.OsDns.Backup

namespace DNSRivet.OsDns

open DNSRivet.Base DNSRivet.Net

abbrev Line := List Char

/-! ## Text -/

/-- The pieces between the line feeds. -/
def splitLines : List Char → List Line
  | [] => [[]]
  | c :: text =>
    match splitLines text with
    | line :: lines => if c = '\n' then [] :: line :: lines else (c :: line) :: lines
    | [] => [[c]]

/-- `str::lines`: a line feed ends a line, with a carriage return before it; what follows the last one is a line unless
it is empty. -/
def strLines (text : List Char) : List Line :=
  let ended := (splitLines text).dropLast.map fun line => if line.getLast? = some '\r' then line.dropLast else line
  match (splitLines text).getLast? with
  | some (c :: line) => ended ++ [c :: line]
  | _ => ended

/-! ## Kinds of lines -/

def globalTitle : Line := "DNS configuration".toList

def isScopedTitle (line : Line) : Bool := "DNS configuration (".toList.isPrefixOf line

def isResolver (line : Line) : Bool := "resolver #".toList.isPrefixOf line

def isDomain (line : Line) : Bool := "domain".toList.isPrefixOf line

/-- What a nameserver line gives, not yet trimmed. -/
def nameserverValue (line : Line) : Option (List Char) :=
  if "nameserver[".toList.isPrefixOf line then (splitOnce ':' line).map Prod.snd else none

/-! ## The parser -/

/-- The variables of the loop. -/
structure Scutil where
  servers : List SocketAddr
  pending : List SocketAddr
  domainScoped : Bool
  inGlobal : Bool

def Scutil.start : Scutil := ⟨[], [], false, false⟩

def Scutil.commit (s : Scutil) : Scutil :=
  { s with
    servers := if s.domainScoped then s.servers else s.servers ++ s.pending
    pending := []
    domainScoped := false }

variable (interfaces : InterfaceTable)

def parseNameserver (value : List Char) : Except String SocketAddr :=
  parseDnsSocket interfaces (String.ofList (trim value))

/-- One trimmed line. -/
def Scutil.line (s : Scutil) (line : Line) : Except String Scutil :=
  if line = globalTitle then .ok { s.commit with inGlobal := true }
  else if isScopedTitle line then .ok { s.commit with inGlobal := false }
  else if !s.inGlobal then .ok s
  else if isResolver line then .ok s.commit
  else if isDomain line then .ok { s with domainScoped := true }
  else
    match nameserverValue line with
    | some value => do
      let address ← parseNameserver interfaces value
      .ok { s with pending := s.pending ++ [address] }
    | none => .ok s

def scutilLines (text : String) : List Line := (strLines text.toList).map trim

def parseScutilGlobalDns (text : String) : Except String (List SocketAddr) := do
  let s ← (scutilLines text).foldlM (Scutil.line interfaces) .start
  .ok s.commit.servers

/-! ## Blocks -/

/-- A section title or the first line of a resolver. -/
def isBoundary (line : Line) : Bool := line = globalTitle || isScopedTitle line || isResolver line

/-- The lines before the first boundary, and every boundary with the lines up to the next one. -/
def cut : List Line → List Line × List (Line × List Line)
  | [] => ([], [])
  | line :: lines =>
    if isBoundary line then ([], (line, (cut lines).1) :: (cut lines).2) else (line :: (cut lines).1, (cut lines).2)

/-- The parts are the maximal runs of lines between boundaries, in order. -/
structure IsCut (lines preamble : List Line) (parts : List (Line × List Line)) : Prop where
  lines : lines = preamble ++ parts.flatMap fun part => part.1 :: part.2
  preamble : ∀ line ∈ preamble, isBoundary line = false
  boundaries : ∀ part ∈ parts, isBoundary part.1 = true
  bodies : ∀ part ∈ parts, ∀ line ∈ part.2, isBoundary line = false

/-- Whether the last title among the boundaries is the global one. -/
def inGlobalSection (boundaries : List Line) : Bool :=
  (boundaries.filter fun line => !isResolver line).getLast? = some globalTitle

/-- The blocks of the global sections, after the given boundaries. -/
def globalBlocks : List Line → List (Line × List Line) → List (List Line)
  | _, [] => []
  | boundaries, part :: parts =>
    (if inGlobalSection (boundaries ++ [part.1]) then [part.2] else []) ++ globalBlocks (boundaries ++ [part.1]) parts

/-- The addresses of a block's nameservers, unless it is for one domain. -/
def blockServers (block : List Line) : List SocketAddr :=
  if block.any isDomain then []
  else (block.filterMap nameserverValue).filterMap fun value => (parseNameserver interfaces value).toOption

/-- The same, where every value must be an address. -/
def readBlock (block : List Line) : Except String (List SocketAddr) := do
  let addresses ← (block.filterMap nameserverValue).mapM (parseNameserver interfaces)
  pure (if block.any isDomain then [] else addresses)

/-! ## The text and its cut -/

theorem cut_boundary {line : Line} (hb : isBoundary line = true) (lines : List Line) :
    cut (line :: lines) = ([], (line, (cut lines).1) :: (cut lines).2) := by
  rw [cut, if_pos hb]

theorem cut_line {line : Line} (hb : isBoundary line = false) (lines : List Line) :
    cut (line :: lines) = (line :: (cut lines).1, (cut lines).2) := by
  rw [cut, if_neg (by simp [hb])]

theorem cut_isCut (lines : List Line) : IsCut lines (cut lines).1 (cut lines).2 := by
  induction lines with
  | nil => exact ⟨rfl, by simp [cut], by simp [cut], by simp [cut]⟩
  | cons line lines ih =>
    by_cases hb : isBoundary line = true
    · rw [cut_boundary hb]
      refine ⟨?_, by simp, ?_, ?_⟩
      · simpa using ih.lines
      · exact List.forall_mem_cons.2 ⟨hb, ih.boundaries⟩
      · exact List.forall_mem_cons.2 ⟨ih.preamble, ih.bodies⟩
    · have hb : isBoundary line = false := by simpa using hb
      rw [cut_line hb]
      refine ⟨?_, ?_, ih.boundaries, ih.bodies⟩
      · simpa using ih.lines
      · exact List.forall_mem_cons.2 ⟨hb, ih.preamble⟩

/-- There is one way to cut a text. -/
theorem IsCut.unique {lines preamble : List Line} {parts : List (Line × List Line)} (h : IsCut lines preamble parts) :
    cut lines = (preamble, parts) := by
  obtain ⟨rfl, hpre, hbound, hbody⟩ := h
  have hrun : ∀ (run : List Line) (rest : List Line), (∀ line ∈ run, isBoundary line = false) →
      cut (run ++ rest) = (run ++ (cut rest).1, (cut rest).2) := by
    intro run rest hrun
    induction run with
    | nil => rfl
    | cons line run ih =>
      obtain ⟨hline, hrun⟩ := List.forall_mem_cons.1 hrun
      rw [List.cons_append, cut_line hline, ih hrun]
      rfl
  rw [hrun preamble _ hpre]
  induction parts with
  | nil => simp [cut]
  | cons part parts ih =>
    obtain ⟨hline, hbound⟩ := List.forall_mem_cons.1 hbound
    obtain ⟨hrest, hbody⟩ := List.forall_mem_cons.1 hbody
    have htail := ih hbound hbody
    rw [List.flatMap_cons, List.cons_append, cut_boundary hline, hrun part.2 _ hrest]
    obtain ⟨h1, h2⟩ := Prod.mk.inj htail
    rw [List.append_right_eq_self] at h1
    rw [h1, h2]
    simp

/-- Texts that begin with different characters. -/
theorem isPrefixOf_head {p q : List Char} {line : Line} (h : p.isPrefixOf line = true) (hp : p ≠ [])
    (hne : p.head? ≠ q.head?) (hq : q ≠ []) : q.isPrefixOf line = false := by
  cases p with
  | nil => exact absurd rfl hp
  | cons a p =>
    cases q with
    | nil => exact absurd rfl hq
    | cons b q =>
      cases line with
      | nil => cases h
      | cons c line =>
        simp only [List.isPrefixOf, Bool.and_eq_true, beq_iff_eq] at h
        obtain ⟨rfl, -⟩ := h
        have hab : b ≠ a := fun hba => hne (by rw [hba]; rfl)
        simp [List.isPrefixOf, hab]

theorem nameserverValue_of_isDomain {line : Line} (h : isDomain line = true) : nameserverValue line = none := by
  unfold nameserverValue
  rw [if_neg]
  rw [isPrefixOf_head h (by decide) (by decide) (by decide)]
  simp

theorem isResolver_globalTitle : isResolver globalTitle = false := by decide

theorem isResolver_of_isScopedTitle {line : Line} (h : isScopedTitle line = true) : isResolver line = false :=
  isPrefixOf_head h (by decide) (by decide) (by decide)

/-- Which section the lines after a boundary are in. -/
theorem inGlobalSection_snoc (boundaries : List Line) {line : Line} (h : isBoundary line = true) :
    inGlobalSection (boundaries ++ [line]) =
      if line = globalTitle then true else if isScopedTitle line then false else inGlobalSection boundaries := by
  unfold inGlobalSection
  rw [List.filter_append]
  by_cases ht : line = globalTitle
  · rw [if_pos ht, ht]
    simp [isResolver_globalTitle]
  · rw [if_neg ht]
    by_cases hs : isScopedTitle line = true
    · rw [if_pos hs]
      simp [isResolver_of_isScopedTitle hs, ht]
    · rw [if_neg hs]
      have hr : isResolver line = true := by simpa [isBoundary, ht, hs] using h
      simp [hr]

/-! ## The parser reads the blocks -/

/-- The part of the text that the pending addresses go on in. -/
def currentBlock (boundaries : List Line) (lines : List Line) : List Line :=
  if inGlobalSection boundaries then (cut lines).1 else []

/-- What the rest of the text adds: the rest of the current block, and the blocks of the global sections after it. -/
def readRest (s : Scutil) (boundaries : List Line) (lines : List Line) : Except String (List SocketAddr) := do
  let addresses ← ((currentBlock boundaries lines).filterMap nameserverValue).mapM (parseNameserver interfaces)
  let lists ← (globalBlocks boundaries (cut lines).2).mapM (readBlock interfaces)
  pure ((if s.domainScoped || (currentBlock boundaries lines).any isDomain then s.servers
    else s.servers ++ (s.pending ++ addresses)) ++ lists.flatten)

variable {interfaces} {s : Scutil} {boundaries : List Line} {line : Line} {lines : List Line}

theorem readRest_nil (s : Scutil) (boundaries : List Line) :
    readRest interfaces s boundaries [] = .ok s.commit.servers := by
  have hc : currentBlock boundaries [] = [] := ite_self _
  unfold readRest
  rw [hc]
  simp [cut, globalBlocks, Scutil.commit]
  rfl

/-- A boundary closes the block. -/
theorem readRest_boundary (s : Scutil) (boundaries lines : List Line) (hb : isBoundary line = true) :
    readRest interfaces s boundaries (line :: lines) = readRest interfaces s.commit (boundaries ++ [line]) lines := by
  have hcur : currentBlock boundaries (line :: lines) = [] := by
    unfold currentBlock
    rw [cut_boundary hb]
    exact ite_self _
  unfold readRest
  rw [hcur, cut_boundary hb, globalBlocks]
  unfold currentBlock
  by_cases hg : inGlobalSection (boundaries ++ [line]) = true
  · rw [if_pos hg, if_pos hg]
    simp only [List.filterMap_nil, List.mapM_nil, List.singleton_append, List.mapM_cons, readBlock, bind_assoc,
      pure_bind, List.any_nil, Bool.or_false, List.append_nil, Scutil.commit, Bool.false_or, List.nil_append,
      List.flatten_cons]
    congr 1
    funext addresses
    congr 1
    funext lists
    cases (cut lines).1.any isDomain <;> simp
  · rw [if_neg hg, if_neg hg]
    simp only [List.filterMap_nil, List.mapM_nil, pure_bind, List.any_nil, Bool.or_false, List.append_nil,
      Scutil.commit, List.nil_append]
    rfl

/-- A line that is in no global section. -/
theorem readRest_skip (s : Scutil) (boundaries lines : List Line) (hb : isBoundary line = false)
    (hg : inGlobalSection boundaries = false) :
    readRest interfaces s boundaries (line :: lines) = readRest interfaces s boundaries lines := by
  unfold readRest currentBlock
  rw [hg, cut_line hb]
  rfl

/-- A line of a block in a global section. -/
theorem readRest_body (s : Scutil) (boundaries lines : List Line) (hb : isBoundary line = false)
    (hg : inGlobalSection boundaries = true) :
    readRest interfaces s boundaries (line :: lines) = (do
      let addresses ← (nameserverValue line).toList.mapM (parseNameserver interfaces)
      readRest interfaces { s with pending := s.pending ++ addresses, domainScoped := s.domainScoped || isDomain line }
        boundaries lines) := by
  have hvalues : (line :: (cut lines).1).filterMap nameserverValue =
      (nameserverValue line).toList ++ (cut lines).1.filterMap nameserverValue := by
    cases h : nameserverValue line <;> simp [h]
  unfold readRest currentBlock
  rw [hg, cut_line hb]
  simp only [if_true, hvalues, List.mapM_append, bind_assoc, pure_bind, List.any_cons, Bool.or_assoc, List.append_assoc]

/-- Outside the global sections nothing is added to what is pending. -/
theorem readRest_commit (s : Scutil) (boundaries lines : List Line) (hg : inGlobalSection boundaries = false) :
    readRest interfaces s.commit boundaries lines = readRest interfaces s boundaries lines := by
  unfold readRest currentBlock
  rw [hg]
  simp [Scutil.commit]

/-- A boundary, and then the rest of the text. -/
theorem line_boundary (interfaces : InterfaceTable) {s : Scutil} (boundaries lines : List Line)
    (hs : s.inGlobal = inGlobalSection boundaries) (hb : isBoundary line = true) :
    ∃ s', s.line interfaces line = .ok s' ∧ s'.inGlobal = inGlobalSection (boundaries ++ [line]) ∧
      readRest interfaces s boundaries (line :: lines) = readRest interfaces s' (boundaries ++ [line]) lines := by
  rw [readRest_boundary s boundaries lines hb]
  have hsec := inGlobalSection_snoc boundaries hb
  unfold Scutil.line
  by_cases ht : line = globalTitle
  · rw [if_pos ht] at hsec ⊢
    exact ⟨_, rfl, hsec.symm, rfl⟩
  by_cases hscoped : isScopedTitle line = true
  · rw [if_neg ht, if_pos hscoped] at hsec ⊢
    exact ⟨_, rfl, hsec.symm, rfl⟩
  rw [if_neg ht, if_neg hscoped] at hsec ⊢
  have hr : isResolver line = true := by simpa [isBoundary, ht, hscoped] using hb
  cases hg : s.inGlobal with
  | false =>
    rw [← hs, hg] at hsec
    exact ⟨s, rfl, by rw [hg, hsec], readRest_commit s _ lines hsec⟩
  | true =>
    rw [if_neg (by simp), if_pos hr]
    exact ⟨s.commit, rfl, by rw [hsec, ← hs]; rfl, rfl⟩

/-- Another line, and then the rest of the text. -/
theorem line_other (interfaces : InterfaceTable) {s : Scutil} (boundaries lines : List Line)
    (hs : s.inGlobal = inGlobalSection boundaries) (hb : isBoundary line = false) :
    readRest interfaces s boundaries (line :: lines) = (do
        let s' ← s.line interfaces line
        readRest interfaces s' boundaries lines) ∧
      ∀ s', s.line interfaces line = .ok s' → s'.inGlobal = s.inGlobal := by
  obtain ⟨ht, hscoped, hr⟩ : line ≠ globalTitle ∧ ¬ isScopedTitle line ∧ ¬ isResolver line := by
    simpa [isBoundary, and_assoc] using hb
  unfold Scutil.line
  rw [if_neg ht, if_neg hscoped]
  cases hg : s.inGlobal with
  | false =>
    rw [hg] at hs
    exact ⟨readRest_skip s boundaries lines hb hs.symm, fun s' h => by cases h; exact hg⟩
  | true =>
    rw [hg] at hs
    rw [readRest_body s boundaries lines hb hs.symm, if_neg (by simp), if_neg hr]
    by_cases hd : isDomain line = true
    · rw [if_pos hd, nameserverValue_of_isDomain hd, hd, Bool.or_true, Option.toList_none, List.mapM_nil, pure_bind,
        List.append_nil]
      exact ⟨rfl, fun s' h => by cases h; rfl⟩
    · rw [if_neg hd, Bool.eq_false_of_not_eq_true hd, Bool.or_false]
      cases nameserverValue line with
      | none =>
        rw [Option.toList_none, List.mapM_nil, pure_bind, List.append_nil]
        exact ⟨rfl, fun s' h => by cases h; exact hg⟩
      | some value =>
        dsimp only
        rw [Option.toList_some, List.mapM_cons, List.mapM_nil, bind_assoc, bind_assoc]
        generalize parseNameserver interfaces value = parsed
        cases parsed with
        | error err => exact ⟨rfl, fun s' h => by cases h⟩
        | ok address => exact ⟨rfl, fun s' h => by cases h; rfl⟩

/-- The loop reads the blocks of the global sections. -/
theorem foldlM_line (s : Scutil) (boundaries lines : List Line) (hs : s.inGlobal = inGlobalSection boundaries) :
    (do
      let s' ← lines.foldlM (Scutil.line interfaces) s
      .ok s'.commit.servers) = readRest interfaces s boundaries lines := by
  induction lines generalizing s boundaries with
  | nil => exact (readRest_nil s boundaries).symm
  | cons line lines ih =>
    rw [List.foldlM_cons, bind_assoc]
    cases hb : isBoundary line with
    | true =>
      obtain ⟨s', hline, hnext, heq⟩ := line_boundary interfaces boundaries lines hs hb
      rw [heq, hline]
      exact ih s' _ hnext
    | false =>
      obtain ⟨heq, hnext⟩ := line_other interfaces boundaries lines hs hb
      rw [heq]
      cases hline : s.line interfaces line with
      | error err => rfl
      | ok s' => exact ih s' boundaries ((hnext s' hline).trans hs)

theorem parseScutilGlobalDns_eq (interfaces : InterfaceTable) (text : String) :
    parseScutilGlobalDns interfaces text = (do
      let lists ← (globalBlocks [] (cut (scutilLines text)).2).mapM (readBlock interfaces)
      .ok lists.flatten) := by
  unfold parseScutilGlobalDns
  rw [foldlM_line Scutil.start [] _ rfl]
  unfold readRest
  rw [show currentBlock [] (scutilLines text) = [] from rfl]
  simp [Scutil.start]
  rfl

/-! ## Readable texts -/

theorem mapM_eq_ok {α β ε : Type} {f : α → Except ε β} {xs : List α} (h : ∀ x ∈ xs, ∃ y, f x = .ok y) :
    xs.mapM f = .ok (xs.filterMap fun x => (f x).toOption) := by
  induction xs with
  | nil => rfl
  | cons x xs ih =>
    obtain ⟨⟨y, hy⟩, hxs⟩ := List.forall_mem_cons.1 h
    rw [List.mapM_cons, hy, ih hxs, List.filterMap_cons, hy]
    rfl

/-- Every nameserver line of the block has an address. -/
def Readable (interfaces : InterfaceTable) (block : List Line) : Prop :=
  ∀ value ∈ block.filterMap nameserverValue, ∃ address, parseNameserver interfaces value = .ok address

theorem readBlock_readable {block : List Line} (h : Readable interfaces block) :
    readBlock interfaces block = .ok (blockServers interfaces block) := by
  unfold readBlock blockServers
  rw [mapM_eq_ok h]
  rfl

/-- Only global resolvers are parsed: the blocks are the maximal runs of lines between boundaries, and where every
nameserver of a global section is readable, the result is the addresses, in order, of the blocks of the sections titled
exactly `DNS configuration` that have no domain line. -/
theorem parseScutilGlobalDns_global (interfaces : InterfaceTable) (text : String)
    (h : ∀ block ∈ globalBlocks [] (cut (scutilLines text)).2, Readable interfaces block) :
    IsCut (scutilLines text) (cut (scutilLines text)).1 (cut (scutilLines text)).2 ∧
      parseScutilGlobalDns interfaces text =
        .ok ((globalBlocks [] (cut (scutilLines text)).2).flatMap (blockServers interfaces)) := by
  refine ⟨cut_isCut _, ?_⟩
  have hread : (globalBlocks [] (cut (scutilLines text)).2).mapM (readBlock interfaces) =
      .ok ((globalBlocks [] (cut (scutilLines text)).2).map (blockServers interfaces)) := by
    rw [mapM_eq_ok fun block hblock => ⟨_, readBlock_readable (h block hblock)⟩, ← List.filterMap_eq_map]
    congr 1
    apply List.filterMap_congr
    intro block hblock
    rw [readBlock_readable (h block hblock)]
    rfl
  rw [parseScutilGlobalDns_eq, hread, List.flatMap_def]
  rfl

/-- A resolver for every name, one for a domain, and one of a scoped section. -/
def scutilText : String := "DNS configuration\n\nresolver #1\n  nameserver[0] : 10.0.0.1\n\nresolver #2\n" ++
  "  nameserver[0] : 10.0.0.2\n  domain   : corp\n\nDNS configuration (for scoped queries)\n\nresolver #1\n" ++
  "  nameserver[0] : 10.0.0.3\n"

theorem parseScutilGlobalDns_scutilText :
    IsCut (scutilLines scutilText) (cut (scutilLines scutilText)).1 (cut (scutilLines scutilText)).2 ∧
      parseScutilGlobalDns (fun _ => .error "no interface") scutilText =
        .ok ((globalBlocks [] (cut (scutilLines scutilText)).2).flatMap
          (blockServers fun _ => .error "no interface")) := by
  apply parseScutilGlobalDns_global
  have hblocks : (globalBlocks [] (cut (scutilLines scutilText)).2).map (·.filterMap nameserverValue) =
      [[], [" 10.0.0.1".toList], [" 10.0.0.2".toList]] := by decide +kernel
  have hread : ∀ values ∈ [[], [" 10.0.0.1".toList], [" 10.0.0.2".toList]], ∀ value ∈ values,
      (parseNameserver (fun _ => .error "no interface") value).toOption.isSome := by decide +kernel
  rw [← hblocks] at hread
  intro block hblock value hvalue
  have := hread _ (List.mem_map_of_mem hblock) value hvalue
  cases hp : parseNameserver (fun _ => .error "no interface") value with
  | ok address => exact ⟨address, rfl⟩
  | error err =>
    rw [hp] at this
    cases this

end DNSRivet.OsDns
