/-
`service/launchd.rs`: what `launchctl` is asked and how its answers are read, and the property list that tells launchd
how to run the daemon. The paths in it are escaped in five passes, one for each character. That is escaping character
by character (`xmlEscape_eq`), so no path adds markup to the list or leaves an ampersand bare, and the list determines
its two paths (`plist_keeps_paths`).
-/
import DNSRivet.Base.FilePath
import DNSRivet.OsDns.Backup

namespace DNSRivet.Service

open DNSRivet.Base
open DNSRivet.OsDns (trim supportDir)

def label : String := "io.github.wenliangcao.dnsrivet"
def plistPath : String := "/Library/LaunchDaemons/io.github.wenliangcao.dnsrivet.plist"

/-! ## launchctl -/

/-- The commands given to `/bin/launchctl`. -/
inductive Launchctl
  | print
  | bootstrap
  | bootout
  | kickstart
  | setEnabled (enabled : Bool)
deriving DecidableEq, Repr

def Launchctl.args : Launchctl → List String
  | .print => ["print", "system/" ++ label]
  | .bootstrap => ["bootstrap", "system", plistPath]
  | .bootout => ["bootout", "system/" ++ label]
  | .kickstart => ["kickstart", "-k", "system/" ++ label]
  | .setEnabled enabled => [if enabled then "enable" else "disable", "system/" ++ label]

/-- How a command that could be run ended, its output as text. -/
structure Output where
  success : Bool
  stdout : String
  stderr : String
deriving DecidableEq, Repr

/-- `str::trim` of a string. -/
def trimText (s : String) : String := String.ofList (trim s.toList)

def checked (output : Except String Output) (action : String) : Except String Unit :=
  match output with
  | .error e => .error (action ++ ": " ++ e)
  | .ok output =>
    if output.success then .ok ()
    else
      let detail := if output.stderr.isEmpty then output.stdout else output.stderr
      .error (action ++ ": " ++ trimText detail)

def loadedFromOutput (output : Except String Output) : Except String Bool :=
  match output with
  | .ok output => .ok output.success
  | .error err => .error ("query launchd service " ++ label ++ ": " ++ err)

theorem checked_ok {output : Except String Output} {action : String} (h : checked output action = .ok ()) :
    ∃ o, output = .ok o ∧ o.success = true := by
  cases output with
  | error e => cases h
  | ok o =>
    refine ⟨o, rfl, ?_⟩
    by_contra hno
    simp [checked, hno] at h

/-! ## Escaping -/

/-- `str::replace` of a character. -/
def replaceChar (c : Char) (text : String) (s : List Char) : List Char :=
  s.flatMap fun x => if x = c then text.toList else [x]

/-- The ampersand goes first: the later replacements write ampersands of their own. -/
def xmlEscape (value : List Char) : List Char :=
  replaceChar '\'' "&apos;" (replaceChar '"' "&quot;" (replaceChar '>' "&gt;" (replaceChar '<' "&lt;"
    (replaceChar '&' "&amp;" value))))

/-! ## The property list -/

def plistHead : String :=
  "<?xml version=\"1.0\" encoding=\"UTF-8\"?>\n" ++
  "<!DOCTYPE plist PUBLIC \"-//Apple//DTD PLIST 1.0//EN\" \"http://www.apple.com/DTDs/PropertyList-1.0.dtd\">\n" ++
  "<plist version=\"1.0\">\n<dict>\n    <key>Label</key>\n    <string>" ++ label ++ "</string>\n" ++
  "    <key>ProgramArguments</key>\n    <array>\n        <string>"

def plistMiddle : String :=
  "</string>\n        <string>run</string>\n        <string>--config</string>\n        <string>"

def plistTail : String :=
  "</string>\n    </array>\n    <key>WorkingDirectory</key>\n" ++
  "    <string>" ++ supportDir.display ++ "</string>\n    <key>RunAtLoad</key>\n    <true/>\n" ++
  "    <key>KeepAlive</key>\n    <true/>\n    <key>StandardOutPath</key>\n" ++
  "    <string>/var/log/dnsrivet.log</string>\n    <key>StandardErrorPath</key>\n" ++
  "    <string>/var/log/dnsrivet.log</string>\n</dict>\n</plist>\n"

def renderPlist (binary config : FilePath) : String :=
  String.ofList (plistHead.toList ++ xmlEscape binary.display.toList ++ plistMiddle.toList ++
    xmlEscape config.display.toList ++ plistTail.toList)

/-! ## One pass -/

/-- What stands for one character. -/
def escapeChar (c : Char) : List Char :=
  if c = '&' then "&amp;".toList
  else if c = '<' then "&lt;".toList
  else if c = '>' then "&gt;".toList
  else if c = '"' then "&quot;".toList
  else if c = '\'' then "&apos;".toList
  else [c]

theorem replaceChar_append (c : Char) (text : String) (s t : List Char) :
    replaceChar c text (s ++ t) = replaceChar c text s ++ replaceChar c text t := List.flatMap_append

theorem replaceChar_ne {c x : Char} (h : x ≠ c) (text : String) : replaceChar c text [x] = [x] := by
  simp [replaceChar, h]

/-- The passes escape the characters one by one. -/
theorem xmlEscape_eq (value : List Char) : xmlEscape value = value.flatMap escapeChar := by
  induction value with
  | nil => rfl
  | cons c value ih =>
    have hsplit : xmlEscape (c :: value) = xmlEscape [c] ++ xmlEscape value := by
      rw [← List.singleton_append]
      simp only [xmlEscape, replaceChar_append]
    have hone : xmlEscape [c] = escapeChar c := by
      unfold escapeChar
      split_ifs with h₁ h₂ h₃ h₄ h₅
      · subst h₁; decide
      · subst h₂; decide
      · subst h₃; decide
      · subst h₄; decide
      · subst h₅; decide
      · simp only [xmlEscape, replaceChar_ne h₁, replaceChar_ne h₂, replaceChar_ne h₃, replaceChar_ne h₄,
          replaceChar_ne h₅]
    rw [hsplit, hone, ih, List.flatMap_cons]

/-- A character that markup is made of, or that ends an attribute. -/
def isMarkup (c : Char) : Bool := c == '<' || c == '>' || c == '"' || c == '\''

/-- The escaped text has nothing of markup in it. -/
theorem xmlEscape_plain {value : List Char} : ∀ c ∈ xmlEscape value, isMarkup c = false := by
  rw [xmlEscape_eq]
  intro c hc
  obtain ⟨x, -, hc⟩ := List.mem_flatMap.1 hc
  have hall : (escapeChar x).all (fun c => !isMarkup c) = true := by
    unfold escapeChar
    split_ifs with h₁ h₂ h₃ h₄ h₅
    · decide
    · decide
    · decide
    · decide
    · decide
    · simp [isMarkup, h₂, h₃, h₄, h₅]
  simpa using List.all_eq_true.1 hall c hc

/-! ## References -/

/-- The predefined entities. -/
def entityNames : List String := ["amp", "lt", "gt", "quot", "apos"]

/-- Every ampersand of the text starts a reference to a predefined entity. -/
def Referenced (text : List Char) : Prop :=
  ∀ rest, '&' :: rest <:+ text → ∃ name ∈ entityNames, (name ++ ";").toList <+: rest

theorem notMem_ofList {c : Char} {s : String} {cs : List Char} (hs : s = String.ofList cs) (h : c ∉ cs) :
    c ∉ s.toList := by
  rw [hs, String.toList_ofList]
  exact h

/-- The fixed text refers to nothing. -/
theorem fixed_noReference : '&' ∉ plistHead.toList ∧ '&' ∉ plistMiddle.toList ∧ '&' ∉ plistTail.toList := by
  have hdir : supportDir.display = "/Library/Application Support/DNSRivet" := by decide +kernel
  refine ⟨?_, notMem_ofList rfl (by decide +kernel), ?_⟩
  · unfold plistHead
    simp only [String.toList_append, List.mem_append, not_or]
    and_intros
    all_goals exact notMem_ofList rfl (by decide +kernel)
  · unfold plistTail
    rw [hdir]
    simp only [String.toList_append, List.mem_append, not_or]
    and_intros
    all_goals exact notMem_ofList rfl (by decide +kernel)

theorem referenced_plain {text rest : List Char} (hplain : '&' ∉ text) (h : Referenced rest) :
    Referenced (text ++ rest) := by
  induction text with
  | nil => exact h
  | cons c text ih =>
    intro rest' hsuffix
    simp only [List.mem_cons, not_or] at hplain
    rcases List.suffix_cons_iff.1 hsuffix with heq | hsuffix
    · exact absurd (List.cons.inj heq).1 hplain.1
    · exact ih hplain.2 rest' hsuffix

theorem referenced_entity {name : String} {rest : List Char} (hname : name ∈ entityNames) (h : Referenced rest) :
    Referenced ('&' :: ((name ++ ";").toList ++ rest)) := by
  have hplain : '&' ∉ (name ++ ";").toList := by
    revert name
    decide
  intro rest' hsuffix
  rcases List.suffix_cons_iff.1 hsuffix with heq | hsuffix
  · rw [(List.cons.inj heq).2]
    exact ⟨name, hname, List.prefix_append ..⟩
  · exact referenced_plain hplain h rest' hsuffix

theorem referenced_escapeChar {rest : List Char} (c : Char) (h : Referenced rest) :
    Referenced (escapeChar c ++ rest) := by
  unfold escapeChar
  split_ifs with h₁ h₂ h₃ h₄ h₅
  · exact referenced_entity (show "amp" ∈ entityNames by decide) h
  · exact referenced_entity (show "lt" ∈ entityNames by decide) h
  · exact referenced_entity (show "gt" ∈ entityNames by decide) h
  · exact referenced_entity (show "quot" ∈ entityNames by decide) h
  · exact referenced_entity (show "apos" ∈ entityNames by decide) h
  · exact referenced_plain (by simpa using Ne.symm h₁) h

theorem referenced_xmlEscape {rest : List Char} (value : List Char) (h : Referenced rest) :
    Referenced (xmlEscape value ++ rest) := by
  rw [xmlEscape_eq]
  induction value with
  | nil => exact h
  | cons c value ih =>
    rw [List.flatMap_cons, List.append_assoc]
    exact referenced_escapeChar c ih

/-! ## What the list says -/

theorem escapeChar_ne_nil (c : Char) : escapeChar c ≠ [] := by
  unfold escapeChar
  split_ifs <;> exact List.cons_ne_nil _ _

/-- No character's text starts another's. -/
theorem escapeChar_append_inj {c c' : Char} {s s' : List Char} (h : escapeChar c ++ s = escapeChar c' ++ s') :
    c = c' ∧ s = s' := by
  unfold escapeChar at h
  split_ifs at h <;> simp_all
  -- what is left starts with an ampersand on one side only
  all_goals exact absurd h.1.symm ‹_›

/-- Escaping loses nothing. -/
theorem xmlEscape_inj {value value' : List Char} (h : xmlEscape value = xmlEscape value') : value = value' := by
  rw [xmlEscape_eq, xmlEscape_eq] at h
  induction value generalizing value' with
  | nil =>
    cases value' with
    | nil => rfl
    | cons c' value' => exact absurd (List.append_eq_nil_iff.1 h.symm).1 (escapeChar_ne_nil c')
  | cons c value ih =>
    cases value' with
    | nil => exact absurd (List.append_eq_nil_iff.1 h).1 (escapeChar_ne_nil c)
    | cons c' value' =>
      obtain ⟨rfl, hrest⟩ := escapeChar_append_inj h
      rw [ih hrest]

theorem lt_notMem_xmlEscape (value : List Char) : '<' ∉ xmlEscape value :=
  fun h => absurd (xmlEscape_plain _ h) (by decide)

/-- Where the next tag starts, the text before it is over. -/
theorem append_tag_inj {s s' t t' : List Char} (hs : '<' ∉ s) (hs' : '<' ∉ s') (h : s ++ '<' :: t = s' ++ '<' :: t') :
    s = s' ∧ t = t' := by
  induction s generalizing s' with
  | nil =>
    cases s' with
    | nil => exact ⟨rfl, (List.cons.inj h).2⟩
    | cons c s' => exact absurd (List.cons.inj h).1 (List.ne_of_not_mem_cons hs')
  | cons c s ih =>
    cases s' with
    | nil => exact absurd (List.cons.inj h).1.symm (List.ne_of_not_mem_cons hs)
    | cons c' s' =>
      obtain ⟨rfl, hrest⟩ := List.cons.inj h
      obtain ⟨rfl, ht⟩ := ih (List.not_mem_of_not_mem_cons hs) (List.not_mem_of_not_mem_cons hs') hrest
      exact ⟨rfl, ht⟩

/-- Of texts that alternate, a test that the inserted ones fail keeps what it keeps of the others. -/
theorem filter_inserted {p : Char → Bool} {a b c x y : List Char} (hx : x.filter p = []) (hy : y.filter p = []) :
    (a ++ (x ++ (b ++ (y ++ c)))).filter p = (a ++ b ++ c).filter p := by
  simp only [List.filter_append, hx, hy, List.nil_append, List.append_assoc]

theorem renderPlist_toList (binary config : FilePath) :
    (renderPlist binary config).toList = plistHead.toList ++ (xmlEscape binary.display.toList ++
      (plistMiddle.toList ++ (xmlEscape config.display.toList ++ plistTail.toList))) := by
  unfold renderPlist
  simp only [String.toList_ofList, List.append_assoc]

theorem plistMiddle_tag : ∃ rest, plistMiddle.toList = '<' :: rest := ⟨_, String.toList_ofList⟩

theorem plistTail_tag : ∃ rest, plistTail.toList = '<' :: rest := by
  unfold plistTail
  simp only [String.toList_append, List.append_assoc]
  exact ⟨_, congrArg (· ++ _) String.toList_ofList⟩

theorem renderPlist_inj {binary binary' config config' : FilePath}
    (h : renderPlist binary config = renderPlist binary' config') :
    binary.display = binary'.display ∧ config.display = config'.display := by
  obtain ⟨middle, hmiddle⟩ := plistMiddle_tag
  obtain ⟨tail, htail⟩ := plistTail_tag
  have htext := congrArg String.toList h
  rw [renderPlist_toList, renderPlist_toList, hmiddle, htail, List.append_cancel_left_eq] at htext
  obtain ⟨hbinary, hrest⟩ := append_tag_inj (lt_notMem_xmlEscape _) (lt_notMem_xmlEscape _) htext
  obtain ⟨hconfig, -⟩ := append_tag_inj (lt_notMem_xmlEscape _) (lt_notMem_xmlEscape _)
    (List.append_cancel_left hrest)
  exact ⟨String.toList_inj.1 (xmlEscape_inj hbinary), String.toList_inj.1 (xmlEscape_inj hconfig)⟩

/-- Whatever characters the two paths have, they stand in the list escaped character by character; the markup of the
list is that of the text around them; every ampersand in it starts a reference to a predefined entity; and no other
two paths have the same list. -/
theorem plist_keeps_paths (binary config : FilePath) :
    (renderPlist binary config).toList = plistHead.toList ++ (binary.display.toList.flatMap escapeChar ++
      (plistMiddle.toList ++ (config.display.toList.flatMap escapeChar ++ plistTail.toList))) ∧
    (renderPlist binary config).toList.filter isMarkup =
      (plistHead ++ plistMiddle ++ plistTail).toList.filter isMarkup ∧
    Referenced (renderPlist binary config).toList ∧
    ∀ binary' config', renderPlist binary' config' = renderPlist binary config →
      binary'.display = binary.display ∧ config'.display = config.display := by
  have hplain : ∀ value, (xmlEscape value).filter isMarkup = [] := fun value =>
    List.filter_eq_nil_iff.2 fun c hc => by rw [xmlEscape_plain c hc]; decide
  refine ⟨?_, ?_, ?_, fun _ _ => renderPlist_inj⟩
  · rw [renderPlist_toList, xmlEscape_eq, xmlEscape_eq]
  · rw [renderPlist_toList, String.toList_append, String.toList_append]
    exact filter_inserted (hplain _) (hplain _)
  · obtain ⟨hhead, hmiddle, htail⟩ := fixed_noReference
    have hend : Referenced [] := fun rest h => by cases List.suffix_nil.1 h
    rw [renderPlist_toList, ← List.append_nil plistTail.toList]
    exact referenced_plain hhead (referenced_xmlEscape _ (referenced_plain hmiddle
      (referenced_xmlEscape _ (referenced_plain htail hend))))

end DNSRivet.Service
