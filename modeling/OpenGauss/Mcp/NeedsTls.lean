import OpenGauss.Gaussdb.SslmodeProperties
import OpenGauss.Gaussdb.ConfigProperties

/-! Whether a connection is opened with TLS (`gaussdb-mcp`, `connection.rs`), and
when the driver decides alike. -/

set_option autoImplicit false

namespace OpenGauss.Mcp

open Driver Gaussdb Lib Lib.Text

def tlsModes : List Text := ["require".toList, "verify-ca".toList, "verify-full".toList]

/-- `needs_tls`. -/
def needsTls (url : Text) : Bool :=
  (splitWhitespace url).any fun part =>
    match stripPrefix? "sslmode=".toList part with
    | some value => tlsModes.contains value
    | none => false

/-- One of the words between the blanks of a string asks for TLS. -/
def AsksForTls (url : Text) : Prop :=
  ∃ mode ∈ tlsModes, "sslmode=".toList ++ mode ∈ splitWhitespace url

section Driver

variable (percentDecode : UrlParser.PercentDecode)

/-- TLS is used exactly where the driver insists on it, and only for a string that
the driver accepts. -/
def UsesTlsAsDriver (url : Text) : Prop :=
  (∀ config, Config.fromStr percentDecode url = .ok config →
    (needsTls url = true ↔ config.sslMode = .require)) ∧
  (needsTls url = true → ∃ config, Config.fromStr percentDecode url = .ok config)

/-- The words of a string tell of its last `sslmode` parameter. -/
structure WordsTell (url : Text) : Prop where
  last {values : List Text} (asks : AsksFor percentDecode url values) :
    AsksForTls url ↔ values.getLast? = some "require".toList
  accepted (asksForTls : AsksForTls url) : ∃ values, AsksFor percentDecode url values

end Driver

theorem needsTls_iff {url : Text} : needsTls url = true ↔ AsksForTls url := by
  rw [needsTls, List.any_eq_true]
  constructor
  · intro found
    obtain ⟨word, member, asks⟩ := found
    split at asks
    · rename_i value stripped
      rw [stripPrefix?_some] at stripped
      rw [List.contains_iff_mem] at asks
      exact ⟨value, asks, stripped ▸ member⟩
    · cases asks
  · intro asks
    obtain ⟨mode, known, member⟩ := asks
    refine ⟨_, member, ?_⟩
    rw [stripPrefix?_append]
    exact List.contains_iff_mem.mpr known

theorem sslModeOf?_require {value : Text} :
    sslModeOf? value = some .require ↔ value = "require".toList := by
  constructor
  · intro word
    have known : String.ofList value ∈ ["disable", "prefer", "require"] := by
      have asks : ({ sslmode := some value } : NamedConnection).AsksFor .require := word
      exact word_of_asksFor asks value rfl
    simp only [List.mem_cons, List.not_mem_nil, or_false] at known
    rcases known with same | same | same
    · rw [sslModeOf?, same] at word
      cases word
    · rw [sslModeOf?, same] at word
      cases word
    · rw [← same, String.toList_ofList]
  · intro same
    rw [same]
    rfl

/-- The driver insists on TLS exactly if the last mode of a string is `require`. -/
theorem sslMode_require {percentDecode : UrlParser.PercentDecode} {url : Text} {config : Config}
    {values : List Text} (accepted : Config.fromStr percentDecode url = .ok config)
    (asks : AsksFor percentDecode url values) :
    config.sslMode = .require ↔ values.getLast? = some "require".toList := by
  have settles := sslMode_last accepted asks
  rw [Settles] at settles
  cases final : values.getLast? with
  | none =>
      rw [final] at settles
      have unset : config.sslMode = .prefer := settles
      rw [unset]
      constructor
      · intro same
        cases same
      · intro same
        cases same
  | some value =>
      rw [final] at settles
      change sslModeOf? value = some config.sslMode at settles
      rw [Option.some.injEq, ← sslModeOf?_require, settles, Option.some.injEq]

/-! ### Connection strings of plain fields -/

theorem splitWhitespace_render {pairs : List (Text × Text)}
    (keys : ∀ pair ∈ pairs, Parser.PlainKey pair.1)
    (values : ∀ pair ∈ pairs, Parser.PlainValue pair.2) :
    splitWhitespace (Parser.render pairs) = pairs.map fun pair => pair.1 ++ '=' :: pair.2 := by
  have apart : ∀ pair ∈ pairs, ∀ char ∈ pair.1 ++ '=' :: pair.2, isWhitespace char = false := by
    intro pair member char inside
    rw [List.mem_append, List.mem_cons] at inside
    rcases inside with inKey | rfl | inValue
    · have ordinary := ((keys pair member).ordinary char inKey).1
      rw [Parser.ordinary, Bool.and_eq_true, Bool.and_eq_true, Bool.not_eq_true'] at ordinary
      exact ordinary.1.1
    · decide
    · exact ((values pair member).plain char inValue).1
  induction pairs with
  | nil => rfl
  | cons pair pairs ih =>
      obtain ⟨firstApart, apart⟩ := List.forall_mem_cons.mp apart
      have later := ih (List.forall_mem_cons.mp keys).2 (List.forall_mem_cons.mp values).2 apart
      have shown : (pair.1 ++ '=' :: pair.2).isEmpty = false := by
        cases pair.1 <;> rfl
      rw [splitWhitespace] at later ⊢
      rw [Parser.render] at later ⊢
      cases pairs with
      | nil =>
          rw [List.map_singleton, List.intercalate_singleton,
            List.splitOnP_eq_singleton firstApart, List.filter_cons_of_pos (by rw [shown]; rfl)]
          rfl
      | cons next pairs =>
          rw [List.map_cons, List.map_cons, List.intercalate_cons_cons, List.append_assoc,
            List.singleton_append,
            List.splitOnP_append_cons_of_forall_mem firstApart ' ' (by decide),
            List.filter_cons_of_pos (by rw [shown]; rfl)]
          exact congrArg _ later

theorem asksForTls_parameters {conn : NamedConnection} {pair : Text × Text}
    (member : pair ∈ conn.parameters) {mode : Text}
    (same : "sslmode=".toList ++ mode = pair.1 ++ '=' :: pair.2) : conn.sslmode = some mode := by
  have other {key : String} (starts : key.toList.head?.any (· != 's') = true)
      (own : pair.1 = key.toList) : conn.sslmode = some mode := by
    rw [own] at same
    cases letters : key.toList with
    | nil =>
        rw [letters] at starts
        cases starts
    | cons char rest =>
        rw [letters] at starts same
        have first : 's' = char := (List.cons.inj same).1
        subst first
        cases starts
  simp only [NamedConnection.parameters, List.mem_append] at member
  rcases member with ((((host | port) | user) | password) | dbname) | sslmode
  · exact other (by decide) (field_key host)
  · exact other (by decide) (field_key port)
  · exact other (by decide) (field_key user)
  · exact other (by decide) (field_key password)
  · exact other (by decide) (field_key dbname)
  · obtain ⟨value, given, rfl⟩ := List.mem_map.mp sslmode
    obtain rfl : mode = value := @List.append_cancel_left _ "sslmode=".toList _ _ same
    exact Option.mem_toList.mp given

/-- A connection of plain fields asks for TLS in its mode only. -/
theorem asksForTls_plain {conn : NamedConnection} (plain : conn.Plain) :
    AsksForTls (Parser.render conn.parameters) ↔ conn.sslmode = some "require".toList := by
  rw [AsksForTls, splitWhitespace_render (parameters_plainKey conn) (parameters_plainValue plain)]
  constructor
  · intro asks
    obtain ⟨mode, known, member⟩ := asks
    obtain ⟨pair, inParameters, same⟩ := List.mem_map.mp member
    have given := asksForTls_parameters inParameters same.symm
    have word := plain.sslmode mode given
    simp only [tlsModes, List.mem_cons, List.not_mem_nil, or_false] at known
    rcases known with rfl | rfl | rfl
    · exact given
    · exact absurd word (by decide)
    · exact absurd word (by decide)
  · intro given
    refine ⟨_, List.mem_cons_self, List.mem_map.mpr ⟨("sslmode".toList, "require".toList), ?_, rfl⟩⟩
    rw [NamedConnection.parameters, given]
    exact List.mem_append_right _ (List.mem_singleton_self _)

/-- So it is opened as the driver has it. -/
theorem usesTlsAsDriver_plain (percentDecode : UrlParser.PercentDecode) {conn : NamedConnection}
    (plain : conn.Plain) (given : conn.host.isSome || conn.user.isSome) :
    UsesTlsAsDriver percentDecode (Parser.render conn.parameters) := by
  obtain ⟨-, sslMode, asks, read⟩ := (roundTrips_render percentDecode given).mpr plain
  constructor
  · intro config accepted
    obtain rfl := Except.ok.inj (read.symm.trans accepted)
    rw [needsTls_iff, asksForTls_plain plain]
    change _ ↔ sslMode = .require
    rw [NamedConnection.AsksFor] at asks
    cases mode : conn.sslmode with
    | none =>
        rw [mode] at asks
        have unset : sslMode = .prefer := asks
        rw [unset]
        decide
    | some text =>
        rw [mode] at asks
        change sslModeOf? text = some sslMode at asks
        rw [Option.some.injEq, ← sslModeOf?_require, asks, Option.some.injEq]
  · intro _
    exact ⟨_, read⟩

/-! ### All connection strings -/

theorem usesTlsAsDriver_iff (percentDecode : UrlParser.PercentDecode) (url : Text) :
    UsesTlsAsDriver percentDecode url ↔ WordsTell percentDecode url := by
  constructor
  · intro uses
    obtain ⟨same, accepts⟩ := uses
    constructor
    · intro values asks
      obtain ⟨config, accepted, -⟩ := asks.fromStr
      rw [← needsTls_iff, same config accepted]
      exact sslMode_require accepted asks
    · intro asksForTls
      obtain ⟨config, accepted⟩ := accepts (needsTls_iff.mpr asksForTls)
      exact asksFor_of_fromStr accepted
  · intro tell
    constructor
    · intro config accepted
      obtain ⟨values, asks⟩ := asksFor_of_fromStr accepted
      rw [needsTls_iff, tell.last asks]
      exact (sslMode_require accepted asks).symm
    · intro needs
      obtain ⟨values, asks⟩ := tell.accepted (needsTls_iff.mp needs)
      obtain ⟨config, accepted, -⟩ := asks.fromStr
      exact ⟨config, accepted⟩

/-- The query of a URL is no word, and the driver knows none of the modes that
verify the certificate. -/
theorem not_usesTlsAsDriver :
    ¬UsesTlsAsDriver PercentEncoding.decode "postgres://app@db/prod?sslmode=require".toList ∧
      ¬UsesTlsAsDriver PercentEncoding.decode "host=db sslmode=verify-full".toList := by
  constructor
  · intro uses
    have mode : (Config.fromStr PercentEncoding.decode
        "postgres://app@db/prod?sslmode=require".toList).map Config.sslMode = .ok .require := by
      decide +kernel
    cases accepted : Config.fromStr PercentEncoding.decode
        "postgres://app@db/prod?sslmode=require".toList with
    | error error =>
        rw [accepted] at mode
        cases mode
    | ok config =>
        rw [accepted] at mode
        have needs := (uses.1 config accepted).mpr (Except.ok.inj mode)
        exact absurd needs (by decide +kernel)
  · intro uses
    obtain ⟨config, accepted⟩ := uses.2 (by decide +kernel)
    have refused : (Config.fromStr PercentEncoding.decode
        "host=db sslmode=verify-full".toList).toOption = none := by decide +kernel
    rw [accepted] at refused
    cases refused

end OpenGauss.Mcp
