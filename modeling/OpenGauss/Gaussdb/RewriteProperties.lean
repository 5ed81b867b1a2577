import OpenGauss.Gaussdb.ConfigProperties
import OpenGauss.Gaussdb.Rewrite

/-! Rewriting the text of a configuration file is putting the sentinel into what
is read from it, for files with one setting in each line. -/

set_option autoImplicit false

namespace OpenGauss.Gaussdb

open Driver Lib.Text

/-! ### Lines -/

/-- A line that neither splitting nor trimming changes. -/
structure Clean (line : Text) : Prop where
  oneLine : '\n' ∉ line
  starts : ∃ char, line.head? = some char ∧ isWhitespace char = false
  ends : ∃ char, line.getLast? = some char ∧ isWhitespace char = false

theorem Clean.trim_eq {line : Text} (clean : Clean line) : trim line = line := by
  obtain ⟨first, starts, visible⟩ := clean.starts
  obtain ⟨last, ends, shown⟩ := clean.ends
  exact trim_ends starts visible ends shown

theorem Clean.unreturned {line : Text} (clean : Clean line) : stripCarriageReturn line = line := by
  obtain ⟨last, ends, shown⟩ := clean.ends
  refine if_neg fun returned => ?_
  rw [ends] at returned
  cases returned
  exact absurd shown (by decide)

def terminated (texts : List Text) : Text := texts.flatMap fun line => line ++ ['\n']

theorem terminated_append (first second : List Text) :
    terminated (first ++ second) = terminated first ++ terminated second :=
  List.flatMap_append

theorem terminated_cons (line : Text) (texts : List Text) :
    terminated (line :: texts) = line ++ ['\n'] ++ terminated texts :=
  List.flatMap_cons

theorem splitOn_terminated {texts : List Text} (clean : ∀ line ∈ texts, Clean line) :
    (terminated texts).splitOn '\n' = texts ++ [[]] := by
  induction texts with
  | nil => rfl
  | cons line texts ih =>
      have own := (clean line List.mem_cons_self).oneLine
      have others := ih fun later member => clean later (List.mem_cons_of_mem line member)
      rw [terminated_cons, List.append_assoc, List.singleton_append,
        List.splitOn_append_cons_self_of_not_mem own, List.cons_append]
      exact congrArg (line :: ·) others

theorem lines_terminated {texts : List Text} (clean : ∀ line ∈ texts, Clean line) :
    lines (terminated texts) = texts := by
  have kept : texts.map stripCarriageReturn = texts :=
    (List.map_congr_left fun line member => (clean line member).unreturned).trans (List.map_id _)
  rw [lines, splitOn_terminated clean]
  simp only [List.dropLast_concat, List.getLast?_concat, kept]
  exact List.append_nil texts

/-! ### One line -/

/-- A line that opens no section. -/
structure Setting (line : Text) : Prop where
  clean : Clean line
  inside : line.head? ≠ some '['

section Lines

variable {hasSections : Bool} {name : Text} {state : Rewriting}

theorem line_copy {line : Text} (setting : Setting line)
    (quiet : state.replaced = true ∨ hasSections = true ∧ state.inTargetSection = false ∨
      "password".toList.isPrefixOf line = false) :
    Rewriting.line hasSections name state line =
      { state with newContent := state.newContent ++ line ++ ['\n'] } := by
  simp only [Rewriting.line, setting.clean.trim_eq, if_neg setting.inside]
  refine if_neg ?_
  obtain done | ⟨sections, outside⟩ | other := quiet
  · rw [done]
    simp
  · rw [sections, outside]
    simp
  · rw [other]
    simp

theorem foldl_copy {texts : List Text} (settings : ∀ line ∈ texts, Setting line)
    (quiet : state.replaced = true ∨ hasSections = true ∧ state.inTargetSection = false ∨
      ∀ line ∈ texts, "password".toList.isPrefixOf line = false) :
    texts.foldl (Rewriting.line hasSections name) state =
      { state with newContent := state.newContent ++ terminated texts } := by
  induction texts generalizing state with
  | nil => rw [terminated, List.flatMap_nil, List.append_nil, List.foldl_nil]
  | cons line texts ih =>
      have own : state.replaced = true ∨ hasSections = true ∧ state.inTargetSection = false ∨
          "password".toList.isPrefixOf line = false :=
        quiet.imp_right fun quiet => quiet.imp_right fun quiet => quiet line List.mem_cons_self
      have others := quiet.imp_right fun quiet => quiet.imp_right fun quiet =>
        fun later member => quiet later (List.mem_cons_of_mem line member)
      rw [List.foldl_cons, line_copy (settings line List.mem_cons_self) own]
      refine (@ih { state with newContent := state.newContent ++ line ++ ['\n'] }
        (fun later member => settings later (List.mem_cons_of_mem line member)) others).trans ?_
      rw [terminated_cons, ← List.append_assoc, ← List.append_assoc]

/-- The line that is put in the place of the password. -/
def sentinelLine : Text := "password = \"keyring\"".toList

theorem line_password {value : Text} (setting : Setting ("password = ".toList ++ value))
    (waiting : state.replaced = false)
    (target : hasSections = true → state.inTargetSection = true) :
    Rewriting.line hasSections name state ("password = ".toList ++ value) =
      { newContent := state.newContent ++ sentinelLine ++ ['\n']
        replaced := true
        inTargetSection := state.inTargetSection } := by
  have open_ : (if hasSections = true then state.inTargetSection else !state.replaced) = true := by
    split
    · next sections => exact target sections
    · rw [waiting]; rfl
  simp only [Rewriting.line, setting.clean.trim_eq, if_neg setting.inside]
  rw [if_pos]
  · rfl
  · rw [open_, waiting]
    rfl

theorem line_header {line : Text} (clean : Clean line) (header : line.head? = some '[')
    (apart : "password".toList.isPrefixOf line = false) :
    Rewriting.line hasSections name state line =
      { newContent := state.newContent ++ line ++ ['\n']
        replaced := state.replaced
        inTargetSection := decide (line = "[connections.".toList ++ name ++ "]".toList ∨
          line = "[connections.\"".toList ++ name ++ "\"]".toList) } := by
  simp only [Rewriting.line, clean.trim_eq, if_pos header]
  refine if_neg fun replaced => ?_
  rw [apart, Bool.and_false, Bool.false_and] at replaced
  cases replaced

end Lines

/-! ### The settings of a connection -/

/-- A value as it is written: within its line, and with nothing to trim. -/
structure Written (value : Text) : Prop where
  oneLine : '\n' ∉ value
  ends : ∃ char, value.getLast? = some char ∧ isWhitespace char = false

/-- How strings are written. -/
structure Literal (literal : Text → Text) : Prop where
  written (value : Text) : Written (literal value)
  sentinel : literal keyringSentinel = "\"keyring\"".toList

def setting (key : String) (value : Option Text) : List Text :=
  value.toList.map fun value => key.toList ++ (" = ".toList ++ value)

/-- The settings in front of the password. -/
def settingsBefore (literal : Text → Text) (conn : NamedConnection) : List Text :=
  setting "url" (conn.url.map literal) ++ setting "host" (conn.host.map literal) ++
    setting "port" (conn.port.map decimal) ++ setting "user" (conn.user.map literal)

/-- The settings behind the password. -/
def settingsAfter (literal : Text → Text) (conn : NamedConnection) : List Text :=
  setting "dbname" (conn.dbname.map literal) ++ setting "sslmode" (conn.sslmode.map literal)

def settings (literal : Text → Text) (conn : NamedConnection) : List Text :=
  settingsBefore literal conn ++ setting "password" (conn.password.map literal) ++
    settingsAfter literal conn

theorem decimal_written (number : UInt16) : Written (decimal number) := by
  have plain := decimal_plain number
  constructor
  · intro inside
    exact absurd (plain.plain _ inside).1 (by decide)
  · exact ⟨_, List.getLast?_eq_some_getLast plain.nonempty,
      (plain.plain _ (List.getLast_mem plain.nonempty)).1⟩

theorem setting_line {key : String} {value : Option Text} (keyed : '\n' ∉ key.toList)
    (starts : ∃ char, (key.toList ++ " = ".toList).head? = some char ∧
      isWhitespace char = false ∧ char ≠ '[')
    (written : ∀ text ∈ value, Written text) : ∀ line ∈ setting key value, Setting line := by
  intro line member
  obtain ⟨text, inside, rfl⟩ := List.mem_map.mp member
  obtain ⟨oneLine, last, ends, shown⟩ := written text (Option.mem_toList.mp inside)
  obtain ⟨first, begins, visible, unopened⟩ := starts
  have head : (key.toList ++ (" = ".toList ++ text)).head? = some first := by
    rw [← List.append_assoc, List.head?_append, begins, Option.some_or]
  refine ⟨⟨?_, ⟨first, head, visible⟩, ⟨last, ?_, shown⟩⟩, ?_⟩
  · rw [List.mem_append, List.mem_append]
    rintro (inKey | inSign | inText)
    · exact keyed inKey
    · exact absurd inSign (by decide)
    · exact oneLine inText
  · rw [List.getLast?_append, List.getLast?_append, ends, Option.some_or, Option.some_or]
  · rw [head]
    exact fun opened => unopened (Option.some.inj opened)

theorem setting_apart {key : String} {value : Option Text}
    (apart : ∀ rest, "password".toList.isPrefixOf (key.toList ++ rest) = false) :
    ∀ line ∈ setting key value, "password".toList.isPrefixOf line = false := by
  intro line member
  obtain ⟨text, -, rfl⟩ := List.mem_map.mp member
  exact apart _

section Literals

variable {literal : Text → Text} (literals : Literal literal)
include literals

theorem literal_written {value : Option Text} : ∀ text ∈ value.map literal, Written text := by
  intro text member
  obtain ⟨inner, -, rfl⟩ := Option.map_eq_some_iff.mp member
  exact literals.written inner

theorem settingsBefore_lines (conn : NamedConnection) :
    ∀ line ∈ settingsBefore literal conn, Setting line ∧
      "password".toList.isPrefixOf line = false := by
  have port : ∀ text ∈ conn.port.map decimal, Written text := by
    intro text member
    obtain ⟨number, -, rfl⟩ := Option.map_eq_some_iff.mp member
    exact decimal_written number
  intro line member
  simp only [settingsBefore, List.mem_append] at member
  obtain ((url | host) | number) | user := member
  · exact ⟨setting_line (by decide) ⟨'u', by decide⟩ (literal_written literals) line url,
      setting_apart (fun _ => rfl) line url⟩
  · exact ⟨setting_line (by decide) ⟨'h', by decide⟩ (literal_written literals) line host,
      setting_apart (fun _ => rfl) line host⟩
  · exact ⟨setting_line (by decide) ⟨'p', by decide⟩ port line number,
      setting_apart (fun _ => rfl) line number⟩
  · exact ⟨setting_line (by decide) ⟨'u', by decide⟩ (literal_written literals) line user,
      setting_apart (fun _ => rfl) line user⟩

theorem settingsAfter_lines (conn : NamedConnection) :
    ∀ line ∈ settingsAfter literal conn, Setting line ∧
      "password".toList.isPrefixOf line = false := by
  intro line member
  rw [settingsAfter, List.mem_append] at member
  obtain dbname | sslmode := member
  · exact ⟨setting_line (by decide) ⟨'d', by decide⟩ (literal_written literals) line dbname,
      setting_apart (fun _ => rfl) line dbname⟩
  · exact ⟨setting_line (by decide) ⟨'s', by decide⟩ (literal_written literals) line sslmode,
      setting_apart (fun _ => rfl) line sslmode⟩

theorem password_lines (conn : NamedConnection) :
    ∀ line ∈ setting "password" (conn.password.map literal), Setting line :=
  setting_line (by decide) ⟨'p', by decide⟩ (literal_written literals)

theorem settings_lines (conn : NamedConnection) : ∀ line ∈ settings literal conn, Setting line := by
  intro line member
  rw [settings, List.mem_append, List.mem_append] at member
  obtain (before | password) | after := member
  · exact (settingsBefore_lines literals conn line before).1
  · exact password_lines literals conn line password
  · exact (settingsAfter_lines literals conn line after).1

theorem settings_withSentinel (conn : NamedConnection) :
    settings literal conn.withSentinel = settingsBefore literal conn ++
      (conn.password.map fun _ => sentinelLine).toList ++ settingsAfter literal conn := by
  have line : setting "password" (conn.withSentinel.password.map literal) =
      (conn.password.map fun _ => sentinelLine).toList := by
    cases held : conn.password with
    | none => rw [NamedConnection.withSentinel, held]; rfl
    | some password =>
        rw [NamedConnection.withSentinel, held, Option.map_some, Option.map_some, literals.sentinel]
        rfl
  rw [settings, line]
  rfl

/-- The settings of the connection whose password is put away. -/
theorem foldl_settings {hasSections : Bool} {name : Text} {state : Rewriting}
    (waiting : state.replaced = false)
    (target : hasSections = true → state.inTargetSection = true) (conn : NamedConnection) :
    (settings literal conn).foldl (Rewriting.line hasSections name) state =
      { newContent := state.newContent ++ terminated (settings literal conn.withSentinel)
        replaced := conn.password.isSome
        inTargetSection := state.inTargetSection } := by
  have before := settingsBefore_lines literals conn
  have after := settingsAfter_lines literals conn
  rw [settings_withSentinel literals, settings, List.foldl_append, List.foldl_append,
    foldl_copy (fun line member => (before line member).1)
      (.inr (.inr fun line member => (before line member).2))]
  cases held : conn.password with
  | none =>
      refine (foldl_copy (fun line member => (after line member).1)
        (.inr (.inr fun line member => (after line member).2))).trans ?_
      simp [terminated_append, waiting, setting]
  | some password =>
      have line := password_lines literals conn _ (by rw [held]; exact List.mem_singleton_self _)
      have put := @line_password hasSections name
        { state with newContent := state.newContent ++ terminated (settingsBefore literal conn) }
        (literal password) line waiting target
      refine (congrArg ((settingsAfter literal conn).foldl _) put).trans ?_
      refine (foldl_copy (fun line member => (after line member).1) (.inl rfl)).trans ?_
      simp [terminated]

end Literals

/-! ### The file -/

def header (name : Text) : Text := '[' :: ("connections.".toList ++ name ++ "]".toList)

theorem header_eq (name : Text) : header name = "[connections.".toList ++ name ++ "]".toList := by
  have opening : "[connections.".toList = '[' :: "connections.".toList := by decide
  rw [opening]
  rfl

def sections (literal : Text → Text) (connections : List (Text × NamedConnection)) : List Text :=
  connections.flatMap fun (name, conn) => header name :: settings literal conn

/-- The connection that the settings outside the sections make. -/
def flatConnection (config : MultiConfig) : NamedConnection where
  name := "default".toList
  url := config.url
  host := config.host
  port := config.port
  user := config.user
  password := config.password
  dbname := config.dbname
  sslmode := config.sslmode

def document (literal : Text → Text) (config : MultiConfig) : List Text :=
  setting "default_connection" (config.defaultConnection.map literal) ++
    settings literal (flatConnection config) ++ sections literal config.connections

theorem MultiConfig.names_nodup (config : MultiConfig) :
    (config.connections.map Prod.fst).Nodup := by
  refine config.sorted.imp ?_
  rintro first second before rfl
  exact List.lt_irrefl first before

/-- A configuration file with one setting in each line. -/
def render (literal : Text → Text) (config : MultiConfig) : Text :=
  terminated (document literal config)

/-- A name that stands in a header without quotes. -/
def Bare (name : Text) : Prop := '\n' ∉ name ∧ '"' ∉ name

theorem header_clean {name : Text} (bare : Bare name) : Clean (header name) := by
  refine ⟨?_, ⟨'[', rfl, by decide⟩, ⟨']', ?_, by decide⟩⟩
  · rw [header_eq, List.mem_append, List.mem_append]
    rintro ((inStart | inName) | inEnd)
    · exact absurd inStart (by decide)
    · exact bare.1 inName
    · exact absurd inEnd (by decide)
  · rw [header_eq, List.getLast?_append]
    rfl

theorem header_target {own name : Text} (bare : Bare own) :
    (header own = "[connections.".toList ++ name ++ "]".toList ∨
      header own = "[connections.\"".toList ++ name ++ "\"]".toList) ↔ own = name := by
  constructor
  · rintro (same | quoted)
    · rw [header_eq] at same
      exact List.append_cancel_left (List.append_cancel_right same)
    · have marked : '"' ∈ header own := by
        rw [quoted]
        exact List.mem_append_left _ (List.mem_append_left _ (by decide))
      rw [header_eq, List.mem_append, List.mem_append] at marked
      obtain (inStart | inName) | inEnd := marked
      · exact absurd inStart (by decide)
      · exact absurd inName bare.2
      · exact absurd inEnd (by decide)
  · rintro rfl
    exact .inl (header_eq own)

/-- The sections of a file that is rewritten for a name. -/
def withSentinelAt (name : Text) (connections : List (Text × NamedConnection)) :
    List (Text × NamedConnection) :=
  connections.map fun (own, conn) => (own, if own = name then conn.withSentinel else conn)

theorem foldl_sections {literal : Text → Text} (literals : Literal literal) {name : Text}
    {connections : List (Text × NamedConnection)}
    (bare : ∀ entry ∈ connections, Bare entry.1) (distinct : (connections.map Prod.fst).Nodup)
    {state : Rewriting} (waiting : state.replaced = false ∨ name ∉ connections.map Prod.fst) :
    ((sections literal connections).foldl (Rewriting.line true name) state).newContent =
      state.newContent ++ terminated (sections literal (withSentinelAt name connections)) := by
  induction connections generalizing state with
  | nil => exact (List.append_nil _).symm
  | cons entry connections ih =>
      obtain ⟨own, conn⟩ := entry
      have ownBare := bare (own, conn) List.mem_cons_self
      have clean := header_clean ownBare
      have opened := @line_header true name state _ clean rfl rfl
      simp only [header_target ownBare] at opened
      have others := fun entry member => bare entry (List.mem_cons_of_mem (own, conn) member)
      obtain ⟨apart, rest⟩ := List.nodup_cons.mp distinct
      rw [sections, List.flatMap_cons, List.foldl_append, List.foldl_cons, opened]
      by_cases same : own = name
      · obtain rfl := same
        have open_ : state.replaced = false :=
          waiting.resolve_right fun outside => outside List.mem_cons_self
        have put := @foldl_settings _ literals true own
          { newContent := state.newContent ++ header own ++ ['\n']
            replaced := state.replaced
            inTargetSection := decide (own = own) } open_ (fun _ => decide_eq_true rfl) conn
        refine (congrArg (fun state => Rewriting.newContent
          ((sections literal connections).foldl (Rewriting.line true own) state)) put).trans ?_
        refine (ih others rest (.inr apart)).trans ?_
        simp [sections, withSentinelAt, terminated_cons, terminated_append]
      · have outside : decide (own = name) = false := decide_eq_false same
        have copied := @foldl_copy true name
          { newContent := state.newContent ++ header own ++ ['\n']
            replaced := state.replaced
            inTargetSection := decide (own = name) } _ (settings_lines literals conn)
          (.inr (.inl ⟨rfl, outside⟩))
        refine (congrArg (fun state => Rewriting.newContent
          ((sections literal connections).foldl (Rewriting.line true name) state)) copied).trans ?_
        refine (ih others rest ?_).trans ?_
        · exact waiting.imp_right fun absent member => absent (List.mem_cons_of_mem own member)
        · simp [sections, withSentinelAt, terminated_cons, terminated_append, same]

/-- A text that ends with a line break after a line ends with only one. -/
theorem not_doubled {texts : List Text} (clean : ∀ line ∈ texts, Clean line) :
    "\n\n".toList.isSuffixOf (terminated texts) = false := by
  refine Bool.eq_false_iff.mpr fun doubled => ?_
  obtain ⟨front, same⟩ := List.isSuffixOf_iff_suffix.mp doubled
  obtain rfl | ⟨texts, line, rfl⟩ := List.eq_nil_or_concat' texts
  · exact absurd (List.append_eq_nil_iff.mp same).2 (by decide)
  · have whole : (front ++ ['\n']) ++ ['\n'] = (terminated texts ++ line) ++ ['\n'] := by
      rw [List.append_assoc]
      refine same.trans ?_
      simp [terminated]
    obtain ⟨char, ends, visible⟩ := (clean line (by simp)).ends
    have ending := congrArg List.getLast? (List.append_cancel_right whole)
    rw [List.getLast?_append, List.getLast?_append, ends] at ending
    cases ending
    exact absurd visible (by decide)

theorem contains_append (before pattern after : Text) :
    contains pattern (before ++ (pattern ++ after)) = true := by
  induction before with
  | nil =>
      cases pattern with
      | nil => cases after <;> rfl
      | cons char pattern =>
          have found : (char :: pattern).isPrefixOf (char :: (pattern ++ after)) = true :=
            List.isPrefixOf_iff_prefix.mpr (List.prefix_append (char :: pattern) after)
          rw [contains, List.nil_append, List.cons_append, textBefore?, if_pos found]
          rfl
  | cons char before ih =>
      rw [contains, List.cons_append, textBefore?]
      split
      · rfl
      · rw [Option.isSome_map]
        exact ih

theorem bare_rewrite {config : MultiConfig} (bare : ∀ entry ∈ config.connections, Bare entry.1) (name : Text) :
    ∀ entry ∈ (config.rewritePasswordToSentinel name).connections, Bare entry.1 := by
  rw [MultiConfig.rewritePasswordToSentinel]
  split
  · exact bare
  · intro entry member
    obtain ⟨original, inside, rfl⟩ := List.mem_map.mp member
    exact bare original inside

section Documents

variable {literal : Text → Text} (literals : Literal literal) {config : MultiConfig}
include literals

theorem top_lines (config : MultiConfig) :
    ∀ line ∈ setting "default_connection" (config.defaultConnection.map literal) ++
      settings literal (flatConnection config), Setting line := by
  intro line member
  obtain default | flat := List.mem_append.mp member
  · exact setting_line (by decide) ⟨'d', by decide⟩ (literal_written literals) line default
  · exact settings_lines literals _ line flat

theorem document_lines (bare : ∀ entry ∈ config.connections, Bare entry.1) :
    ∀ line ∈ document literal config, Clean line := by
  intro line member
  obtain top | member := List.mem_append.mp member
  · exact (top_lines literals config line top).clean
  · obtain ⟨⟨own, conn⟩, inside, member⟩ := List.mem_flatMap.mp member
    obtain rfl | member := List.mem_cons.mp member
    · exact header_clean (bare (own, conn) inside)
    · exact (settings_lines literals conn line member).clean

omit literals in
theorem document_flat (none : config.connections = []) (name : Text) :
    document literal (config.rewritePasswordToSentinel name) =
      setting "default_connection" (config.defaultConnection.map literal) ++
        settings literal (flatConnection config).withSentinel := by
  rw [MultiConfig.rewritePasswordToSentinel, if_pos (List.isEmpty_iff.mpr none), document]
  simp only [none, sections, List.flatMap_nil, List.append_nil]
  rfl

omit literals in
theorem document_sections (some : config.connections ≠ []) (name : Text) :
    document literal (config.rewritePasswordToSentinel name) =
      setting "default_connection" (config.defaultConnection.map literal) ++
        settings literal (flatConnection config) ++
        sections literal (withSentinelAt name config.connections) := by
  rw [MultiConfig.rewritePasswordToSentinel, if_neg (mt List.isEmpty_iff.mp some)]
  rfl

theorem foldl_flat (none : config.connections = []) (name : Text) :
    ((document literal config).foldl (Rewriting.line false name)
      { newContent := [], replaced := false, inTargetSection := false }).newContent =
      render literal (config.rewritePasswordToSentinel name) := by
  have default : ∀ line ∈ setting "default_connection" (config.defaultConnection.map literal),
      Setting line := fun line member =>
    top_lines literals config line (List.mem_append_left _ member)
  rw [render, document_flat none, document, none, sections, List.flatMap_nil, List.append_nil,
    List.foldl_append, foldl_copy default (.inr (.inr (setting_apart fun _ => rfl)))]
  have put := @foldl_settings _ literals false name
    { newContent := [] ++ terminated
        (setting "default_connection" (config.defaultConnection.map literal))
      replaced := false
      inTargetSection := false } rfl (fun sections => absurd sections Bool.false_ne_true)
    (flatConnection config)
  refine (congrArg Rewriting.newContent put).trans ?_
  rw [List.nil_append, terminated_append]

theorem foldl_document (some : config.connections ≠ [])
    (bare : ∀ entry ∈ config.connections, Bare entry.1) (name : Text) :
    ((document literal config).foldl (Rewriting.line true name)
      { newContent := [], replaced := false, inTargetSection := false }).newContent =
      render literal (config.rewritePasswordToSentinel name) := by
  rw [render, document_sections some, document, List.foldl_append,
    foldl_copy (top_lines literals config) (.inr (.inl ⟨rfl, rfl⟩))]
  refine (foldl_sections literals bare config.names_nodup (.inl rfl)).trans ?_
  rw [List.nil_append, ← terminated_append]

omit literals in
theorem contains_sections (some : config.connections ≠ []) :
    contains "[connections.".toList (render literal config) = true := by
  obtain ⟨⟨own, conn⟩, connections, same⟩ := List.exists_cons_of_ne_nil some
  have shown : ∃ before after, render literal config =
      before ++ ("[connections.".toList ++ after) := by
    refine ⟨terminated (setting "default_connection" (config.defaultConnection.map literal) ++
      settings literal (flatConnection config)), own ++ "]".toList ++ ['\n'] ++
      terminated (settings literal conn ++ sections literal connections), ?_⟩
    rw [render, document, same, terminated_append, sections, List.flatMap_cons, List.cons_append,
      terminated_cons, header_eq]
    simp only [List.append_assoc]
    rfl
  obtain ⟨before, after, written⟩ := shown
  rw [written]
  exact contains_append before _ after

/-- Rewriting a file as it is written. Outside sections the file must not hold
the text that opens one. -/
theorem rewrite_render (bare : ∀ entry ∈ config.connections, Bare entry.1)
    (flat : config.connections = [] →
      contains "[connections.".toList (render literal config) = false) (name : Text) :
    rewritePasswordToSentinelContent (render literal config) name =
      render literal (config.rewritePasswordToSentinel name) := by
  have read := lines_terminated (document_lines literals bare)
  have content : ((lines (render literal config)).foldl
      (Rewriting.line (contains "[connections.".toList (render literal config)) name)
      { newContent := [], replaced := false, inTargetSection := false }).newContent =
      render literal (config.rewritePasswordToSentinel name) := by
    rw [render, read, ← render]
    by_cases none : config.connections = []
    · rw [flat none]
      exact foldl_flat literals none name
    · rw [contains_sections none]
      exact foldl_document literals none bare name
  have single := not_doubled (document_lines literals (bare_rewrite bare name))
  rw [rewritePasswordToSentinelContent]
  simp only [content]
  rw [← render] at single
  rw [single, Bool.and_false]
  rfl

end Documents

end OpenGauss.Gaussdb
