import OpenGauss.Driver.ConfigProperties
import OpenGauss.Gaussdb.Config

/-! When the driver reads a named connection back from its connection string. -/

set_option autoImplicit false

namespace OpenGauss.Gaussdb

open Driver Lib Lib.Text

/-- A parameter of the connection string, when its field is given. -/
def field (key : String) (value : Option Text) : List (Text × Text) :=
  value.toList.map fun value => (key.toList, value)

namespace NamedConnection

/-- What the connection string is to carry, in its order. -/
def parameters (conn : NamedConnection) : List (Text × Text) :=
  field "host" conn.host ++ field "port" (conn.port.map decimal) ++ field "user" conn.user ++
    field "password" conn.password ++ field "dbname" conn.dbname ++ field "sslmode" conn.sslmode

/-- The configuration with the fields of a connection and no other parameter. -/
def config (conn : NamedConnection) (sslMode : Driver.SslMode) : Config where
  host := (conn.host.map fun host => (host.splitOn ',').map Config.hostOf).getD []
  port := conn.port.toList.map UInt16.toNat
  user := conn.user
  password := conn.password.map Utf8.encode
  dbname := conn.dbname
  sslMode

/-- The mode a connection asks for, by default the driver's. -/
def AsksFor (conn : NamedConnection) (sslMode : Driver.SslMode) : Prop :=
  match conn.sslmode with
  | none => sslMode = .prefer
  | some text => Config.sslModeWords.lookup (String.ofList text) = some sslMode

/-- The driver reads the fields of a connection out of a connection string:
the same parameters, and so the configuration with them. -/
def RoundTrips (percentDecode : UrlParser.PercentDecode) (conn : NamedConnection) (dsn : Text) :
    Prop :=
  Parser.parameters dsn = .ok conn.parameters ∧
    ∃ sslMode, conn.AsksFor sslMode ∧
      Config.fromStr percentDecode dsn = .ok (conn.config sslMode)

/-- Every text of the connection stands for itself without quotes, and its
mode, if it has one, is one of the driver's. -/
structure Plain (conn : NamedConnection) : Prop where
  values : ∀ value ∈ conn.host.toList ++ conn.user.toList ++ conn.password.toList ++
    conn.dbname.toList, Parser.PlainValue value
  sslmode : ∀ text ∈ conn.sslmode, String.ofList text ∈ ["disable", "prefer", "require"]

instance (conn : NamedConnection) : Decidable conn.Plain :=
  decidable_of_iff ((∀ value ∈ conn.host.toList ++ conn.user.toList ++ conn.password.toList ++
      conn.dbname.toList, Parser.PlainValue value) ∧
      ∀ text ∈ conn.sslmode, String.ofList text ∈ ["disable", "prefer", "require"])
    ⟨fun plain => ⟨plain.1, plain.2⟩, fun plain => ⟨plain.1, plain.2⟩⟩

end NamedConnection

theorem part_field (key : String) (value : Option Text) :
    part key value = (field key value).map fun pair => pair.1 ++ '=' :: pair.2 := by
  cases value <;> rfl

theorem field_key {key : String} {value : Option Text} {pair : Text × Text}
    (member : pair ∈ field key value) : pair.1 = key.toList := by
  obtain ⟨value, _, rfl⟩ := List.mem_map.mp member
  rfl

theorem parameters_plainKey (conn : NamedConnection) :
    ∀ pair ∈ conn.parameters, Parser.PlainKey pair.1 := by
  intro pair member
  simp only [NamedConnection.parameters, List.mem_append] at member
  rcases member with ((((host | port) | user) | password) | dbname) | sslmode
  · exact field_key host ▸ ⟨by decide, by decide⟩
  · exact field_key port ▸ ⟨by decide, by decide⟩
  · exact field_key user ▸ ⟨by decide, by decide⟩
  · exact field_key password ▸ ⟨by decide, by decide⟩
  · exact field_key dbname ▸ ⟨by decide, by decide⟩
  · exact field_key sslmode ▸ ⟨by decide, by decide⟩

theorem decimal_toDigits (number : UInt16) : decimal number = Nat.toDigits 10 number.toNat :=
  Nat.toList_repr

theorem decimal_plain (number : UInt16) : Parser.PlainValue (decimal number) := by
  have digit (char : Char) (member : char ∈ decimal number) : 48 ≤ char.toNat ∧ char.toNat ≤ 57 := by
    rw [decimal_toDigits] at member
    have isDigit := Nat.isDigit_of_mem_toDigits (by decide) (by decide) member
    rw [Char.isDigit, Bool.and_eq_true, decide_eq_true_eq, decide_eq_true_eq] at isDigit
    exact isDigit
  refine ⟨decimal_toDigits number ▸ Nat.toDigits_ne_nil, ?_, ?_⟩
  · intro quoted
    exact absurd (digit '\'' (List.mem_of_head? quoted)).1 (by decide)
  · intro char member
    obtain ⟨least, most⟩ := digit char member
    refine ⟨?_, ?_⟩
    · simp only [isWhitespace, Bool.or_eq_false_iff, Bool.and_eq_false_iff, decide_eq_false_iff_not,
        beq_eq_false_iff_ne]
      omega
    · rintro rfl
      exact absurd most (by decide)

/-- The string that both ways of resolving a connection build. -/
theorem parts_render (conn : NamedConnection) :
    [' '].intercalate (part "host" conn.host ++ part "port" (conn.port.map decimal) ++
      part "user" conn.user ++ part "password" conn.password ++ part "dbname" conn.dbname ++
      part "sslmode" conn.sslmode) = Parser.render conn.parameters := by
  simp only [part_field, ← List.map_append, Parser.render, NamedConnection.parameters]

section Applying

variable (config : Config)

theorem apply_host (host : Option Text) : Parser.applyAll config (field "host" host) =
    .ok { config with
      host := config.host ++ (host.map fun host => (host.splitOn ',').map Config.hostOf).getD [] } := by
  cases host with
  | none => simp [field, Parser.applyAll, pure, Except.pure]
  | some host => exact (Parser.applyAll_singleton ..).trans (Config.param_host config host)

theorem apply_port (port : Option UInt16) : Parser.applyAll config (field "port" (port.map decimal)) =
    .ok { config with port := config.port ++ port.toList.map UInt16.toNat } := by
  cases port with
  | none => simp [field, Parser.applyAll, pure, Except.pure]
  | some port =>
      refine (Parser.applyAll_singleton ..).trans ?_
      rw [decimal_toDigits]
      exact Config.param_port config port.toNat_lt

theorem apply_user (user : Option Text) : Parser.applyAll config (field "user" user) =
    .ok { config with user := user.or config.user } := by
  cases user with
  | none => rfl
  | some user => exact Parser.applyAll_singleton ..

theorem apply_password (password : Option Text) :
    Parser.applyAll config (field "password" password) =
      .ok { config with password := (password.map Utf8.encode).or config.password } := by
  cases password with
  | none => rfl
  | some password => exact Parser.applyAll_singleton ..

theorem apply_dbname (dbname : Option Text) : Parser.applyAll config (field "dbname" dbname) =
    .ok { config with dbname := dbname.or config.dbname } := by
  cases dbname with
  | none => rfl
  | some dbname => exact Parser.applyAll_singleton ..

end Applying

theorem applyAll_parameters {conn : NamedConnection} {sslMode : Driver.SslMode}
    (asks : conn.AsksFor sslMode) :
    Parser.applyAll .new conn.parameters = .ok (conn.config sslMode) := by
  simp only [NamedConnection.parameters, Parser.applyAll_append, apply_host, apply_port, apply_user,
    apply_password, apply_dbname, Except.bind, Config.new, Option.or_none, List.nil_append]
  rw [NamedConnection.AsksFor] at asks
  cases mode : conn.sslmode with
  | none =>
      rw [mode] at asks
      subst asks
      rfl
  | some text =>
      rw [mode] at asks
      have word : Config.word "sslmode" Config.sslModeWords text = .ok sslMode := by
        rw [Config.word]
        dsimp only at asks
        rw [asks]
      refine (Parser.applyAll_singleton ..).trans ?_
      rw [Config.param_sslmode, word]
      rfl

theorem removeUrlPrefix_render {conn : NamedConnection}
    (given : conn.host.isSome || conn.user.isSome) :
    UrlParser.removeUrlPrefix (Parser.render conn.parameters) = none := by
  have noUrl {key : String} {pairs : List (Text × Text)} {value : Text}
      (apart : ∀ rest, UrlParser.removeUrlPrefix (key.toList ++ rest) = none) :
      UrlParser.removeUrlPrefix (Parser.render ((key.toList, value) :: pairs)) = none := by
    rw [Parser.render_cons]
    exact apart _
  rw [NamedConnection.parameters]
  match host : conn.host, port : conn.port, user : conn.user with
  | some _, _, _ => exact noUrl fun _ => rfl
  | none, some _, _ => exact noUrl fun _ => rfl
  | none, none, some _ => exact noUrl fun _ => rfl
  | none, none, none => simp [host, user] at given

theorem asksFor_word {conn : NamedConnection} (plain : conn.Plain) :
    ∃ sslMode, conn.AsksFor sslMode := by
  cases mode : conn.sslmode with
  | none => exact ⟨.prefer, by rw [NamedConnection.AsksFor, mode]⟩
  | some text =>
      have word := plain.sslmode text mode
      simp only [List.mem_cons, List.not_mem_nil, or_false] at word
      simp only [NamedConnection.AsksFor, mode]
      rcases word with same | same | same <;> rw [same]
      · exact ⟨.disable, rfl⟩
      · exact ⟨.prefer, rfl⟩
      · exact ⟨.require, rfl⟩

theorem word_of_asksFor {conn : NamedConnection} {sslMode : Driver.SslMode}
    (asks : conn.AsksFor sslMode) :
    ∀ text ∈ conn.sslmode, String.ofList text ∈ ["disable", "prefer", "require"] := by
  intro text mode
  rw [NamedConnection.AsksFor, mode] at asks
  by_contra other
  simp only [List.mem_cons, List.not_mem_nil, or_false, not_or] at other
  obtain ⟨notDisable, notPrefer, notRequire⟩ := other
  simp [Config.sslModeWords, List.lookup_cons, beq_eq_false_iff_ne.mpr notDisable,
    beq_eq_false_iff_ne.mpr notPrefer, beq_eq_false_iff_ne.mpr notRequire] at asks

theorem plain_word {text : Text}
    (word : String.ofList text ∈ ["disable", "prefer", "require"]) : Parser.PlainValue text := by
  have known (word : String) (same : String.ofList text = word)
      (plain : Parser.PlainValue word.toList) : Parser.PlainValue text := by
    rwa [← same, String.toList_ofList] at plain
  simp only [List.mem_cons, List.not_mem_nil, or_false] at word
  rcases word with same | same | same
  · exact known _ same ⟨by decide, by decide, by decide⟩
  · exact known _ same ⟨by decide, by decide, by decide⟩
  · exact known _ same ⟨by decide, by decide, by decide⟩

theorem field_plain {key : String} {value : Option Text} :
    (∀ pair ∈ field key value, Parser.PlainValue pair.2) ↔
      ∀ text ∈ value, Parser.PlainValue text := by
  cases value <;> simp [field]

theorem parameters_plainValue {conn : NamedConnection} (plain : conn.Plain) :
    ∀ pair ∈ conn.parameters, Parser.PlainValue pair.2 := by
  simp only [NamedConnection.parameters, List.forall_mem_append, field_plain]
  have text := plain.values
  simp only [List.forall_mem_append, Option.mem_toList] at text
  obtain ⟨⟨⟨host, user⟩, password⟩, dbname⟩ := text
  refine ⟨⟨⟨⟨⟨host, ?_⟩, user⟩, password⟩, dbname⟩, ?_⟩
  · rintro _ member
    obtain ⟨port, -, rfl⟩ := Option.map_eq_some_iff.mp member
    exact decimal_plain port
  · exact fun text member => plain_word (plain.sslmode text member)

theorem roundTrips_render (percentDecode : UrlParser.PercentDecode) {conn : NamedConnection}
    (given : conn.host.isSome || conn.user.isSome) :
    conn.RoundTrips percentDecode (Parser.render conn.parameters) ↔ conn.Plain := by
  have keys := parameters_plainKey conn
  constructor
  · rintro ⟨read, sslMode, asks, -⟩
    have values := Parser.plain_of_parametersFrom keys read
    refine ⟨fun value member => ?_, word_of_asksFor asks⟩
    simp only [List.mem_append, Option.mem_toList] at member
    simp only [NamedConnection.parameters, List.forall_mem_append, field_plain] at values
    obtain ⟨⟨⟨⟨⟨host, port⟩, user⟩, password⟩, dbname⟩, sslmode⟩ := values
    rcases member with ((inHost | inUser) | inPassword) | inDbname
    · exact host value inHost
    · exact user value inUser
    · exact password value inPassword
    · exact dbname value inDbname
  · intro plain
    have values := parameters_plainValue plain
    have enough := Nat.lt_succ_of_le (Parser.length_render conn.parameters)
    have read : Parser.parameters (Parser.render conn.parameters) = .ok conn.parameters :=
      Parser.parametersFrom_render keys values enough
    obtain ⟨sslMode, asks⟩ := asksFor_word plain
    refine ⟨read, sslMode, asks, ?_⟩
    rw [Config.fromStr, UrlParser.parse, removeUrlPrefix_render given]
    exact (Parser.parse_of_parameters read).trans (applyAll_parameters asks)

end OpenGauss.Gaussdb
