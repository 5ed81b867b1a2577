import OpenGauss.Driver.ConfigSslmode
import OpenGauss.Gaussdb.Sslmode
import OpenGauss.Lib.PercentEncoding

/-! When the search for `sslmode=` in a connection string finds the mode that
the driver's parser sets. -/

set_option autoImplicit false

namespace OpenGauss.Gaussdb

open Driver Lib Lib.Text

/-- The mode of the driver, as one of the modes of the search. -/
def modeOf : Driver.SslMode → SslMode
  | .disable => .disable
  | .prefer => .prefer
  | .require => .require

/-- The text behind the first of some pieces that starts with `sslmode=`. -/
def First (pieces : List Text) (value : Text) : Prop :=
  ∃ before after, pieces = before ++ ("sslmode=".toList ++ value) :: after ∧
    ∀ piece ∈ before, ¬"sslmode=".toList <+: piece

/-- The text that the search sees: in a piece of the query, between the first
and the second question mark of the string, or else in a word of the string. -/
inductive Shows (dsn : Text) : Text → Prop where
  | query {query value : Text} (between : (dsn.splitOn '?')[1]? = some query)
      (first : First (query.splitOn '&') value) : Shows dsn value
  | word {value : Text} (hidden : ∀ query, (dsn.splitOn '?')[1]? = some query →
        ∀ piece ∈ query.splitOn '&', ¬"sslmode=".toList <+: piece)
      (first : First (splitWhitespace dsn) value) : Shows dsn value

/-- The mode of the text that the search sees; `disable` if it sees none. -/
def Finds (dsn : Text) (mode : SslMode) : Prop :=
  (∃ value, Shows dsn value ∧ sslmodeFromValue (some value) = mode) ∨
    (∀ value, ¬Shows dsn value) ∧ mode = .disable

/-! ### What the search finds -/

theorem stripPrefix?_some {start text rest : Text} :
    stripPrefix? start text = some rest ↔ text = start ++ rest := by
  constructor
  · intro stripped
    rw [stripPrefix?] at stripped
    split at stripped
    · next found =>
        obtain ⟨behind, rfl⟩ := List.isPrefixOf_iff_prefix.mp found
        rw [List.drop_left] at stripped
        rw [Option.some.inj stripped]
    · cases stripped
  · rintro rfl
    exact stripPrefix?_append start rest

theorem stripPrefix?_eq_none {start text : Text} :
    stripPrefix? start text = none ↔ ¬start <+: text := by
  rw [stripPrefix?, ite_eq_right_iff]
  simp only [reduceCtorEq, imp_false, List.isPrefixOf_iff_prefix]

theorem firstSslmode_some {pieces : List Text} {value : Text} :
    firstSslmode pieces = some value ↔ First pieces value := by
  rw [firstSslmode, List.findSome?_eq_some_iff]
  constructor
  · rintro ⟨before, piece, after, same, found, others⟩
    rw [stripPrefix?_some] at found
    exact ⟨before, after, found ▸ same, fun other member => stripPrefix?_eq_none.mp (others other member)⟩
  · rintro ⟨before, after, same, others⟩
    exact ⟨before, _, after, same, stripPrefix?_append _ value,
      fun other member => stripPrefix?_eq_none.mpr (others other member)⟩

theorem firstSslmode_none {pieces : List Text} :
    firstSslmode pieces = none ↔ ∀ piece ∈ pieces, ¬"sslmode=".toList <+: piece := by
  rw [firstSslmode, List.findSome?_eq_none_iff]
  exact forall₂_congr fun piece _ => stripPrefix?_eq_none

/-- The text that the search sees. -/
def visible? (dsn : Text) : Option Text :=
  ((dsn.splitOn '?')[1]?.bind fun query => firstSslmode (query.splitOn '&')).or
    (firstSslmode (splitWhitespace dsn))

theorem visible?_some {dsn value : Text} : visible? dsn = some value ↔ Shows dsn value := by
  rw [visible?, Option.or_eq_some_iff, Option.bind_eq_some_iff, Option.bind_eq_none_iff]
  constructor
  · rintro (⟨query, between, first⟩ | ⟨hidden, first⟩)
    · exact .query between (firstSslmode_some.mp first)
    · exact .word (fun query between => firstSslmode_none.mp (hidden query between))
        (firstSslmode_some.mp first)
  · intro shows
    cases shows with
    | query between first => exact .inl ⟨_, between, firstSslmode_some.mpr first⟩
    | word hidden first =>
        exact .inr ⟨fun query between => firstSslmode_none.mpr (hidden query between),
          firstSslmode_some.mpr first⟩

theorem sslmodeFromUrl_visible (dsn : Text) : sslmodeFromUrl dsn =
    (visible? dsn).elim .disable fun value => sslmodeFromValue (some value) := by
  rw [sslmodeFromUrl, visible?]
  cases (dsn.splitOn '?')[1]?.bind fun query => firstSslmode (query.splitOn '&') with
  | some value => rfl
  | none => cases firstSslmode (splitWhitespace dsn) <;> rfl

theorem sslmodeFromUrl_iff {dsn : Text} {mode : SslMode} :
    sslmodeFromUrl dsn = mode ↔ Finds dsn mode := by
  rw [sslmodeFromUrl_visible, Finds]
  simp only [← visible?_some]
  cases visible? dsn with
  | none => simp [eq_comm]
  | some value => simp

/-! ### The search and the driver -/

section Driver

variable (percentDecode : UrlParser.PercentDecode)

/-- Where the driver accepts a string that gives a mode, the search finds that
mode; and the driver accepts each string in which the search finds that the
certificate is to be verified. -/
def Agrees (dsn : Text) : Prop :=
  (∀ config values, Config.fromStr percentDecode dsn = .ok config →
    AsksFor percentDecode dsn values → values ≠ [] →
      sslmodeFromUrl dsn = modeOf config.sslMode) ∧
    (sslmodeFromUrl dsn = .verifyCa ∨ sslmodeFromUrl dsn = .verifyFull →
      ∃ config, Config.fromStr percentDecode dsn = .ok config)

/-- The text that the search sees has the mode of the last `sslmode` parameter;
and it is `verify-ca` or `verify-full` only where the parameters are all right,
so that it stands within the value of another one. -/
structure ShowsLast (dsn : Text) : Prop where
  last {values : List Text} {value : Text} {mode : Driver.SslMode}
    (asks : AsksFor percentDecode dsn values) (final : values.getLast? = some value)
    (word : sslModeOf? value = some mode) : Finds dsn (modeOf mode)
  verifies {value : Text} (shows : Shows dsn value)
    (verify : sslmodeFromValue (some value) = .verifyCa ∨
      sslmodeFromValue (some value) = .verifyFull) : ∃ values, AsksFor percentDecode dsn values

variable {percentDecode}

/-- The last of the modes that a string gives is the one that the driver sets. -/
theorem sslMode_last {dsn : Text} {config : Config} {values : List Text}
    (accepted : Config.fromStr percentDecode dsn = .ok config)
    (asks : AsksFor percentDecode dsn values) : Settles values .prefer config.sslMode := by
  obtain ⟨other, same, settles⟩ := asks.fromStr
  rw [accepted] at same
  exact Except.ok.inj same ▸ settles

end Driver

theorem sslmodeFromUrl_agrees_iff (percentDecode : UrlParser.PercentDecode) (dsn : Text) :
    Agrees percentDecode dsn ↔ ShowsLast percentDecode dsn := by
  constructor
  · rintro ⟨same, verified⟩
    constructor
    · intro values value mode asks final word
      obtain ⟨config, accepted, settles⟩ := asks.fromStr
      have given : values ≠ [] := by
        rintro rfl
        cases final
      rw [Settles, final] at settles
      have modes := Option.some.inj (word.symm.trans settles)
      rw [← sslmodeFromUrl_iff, modes]
      exact same config values accepted asks given
    · intro value shows verify
      have found : sslmodeFromUrl dsn = sslmodeFromValue (some value) :=
        sslmodeFromUrl_iff.mpr (.inl ⟨value, shows, rfl⟩)
      obtain ⟨config, accepted⟩ := verified (by rwa [found])
      exact asksFor_of_fromStr accepted
  · intro right
    constructor
    · intro config values accepted asks given
      have settles := sslMode_last accepted asks
      have final := List.getLast?_eq_some_getLast given
      rw [Settles, final] at settles
      exact sslmodeFromUrl_iff.mpr (right.last asks final settles)
    · intro verify
      obtain ⟨value, shows, same⟩ | ⟨-, disabled⟩ := sslmodeFromUrl_iff.mp (Eq.refl (sslmodeFromUrl dsn))
      · obtain ⟨values, asks⟩ := right.verifies shows (by rwa [same])
        obtain ⟨config, accepted, -⟩ := asks.fromStr
        exact ⟨config, accepted⟩
      · rw [disabled] at verify
        cases verify <;> contradiction

/-- With blanks around the equals sign the search sees nothing and TLS is off;
and the driver knows none of the modes that verify the certificate. -/
theorem not_agrees_blanks :
    ¬Agrees PercentEncoding.decode "host=h sslmode = require".toList ∧
      ¬Agrees PercentEncoding.decode "host=h sslmode=verify-full".toList := by
  constructor
  · rintro ⟨same, -⟩
    have accepted : (Config.fromStr PercentEncoding.decode "host=h sslmode = require".toList).map
        Config.sslMode = .ok .require := by decide +kernel
    cases parsed : Config.fromStr PercentEncoding.decode "host=h sslmode = require".toList with
    | error error =>
        rw [parsed] at accepted
        cases accepted
    | ok config =>
        rw [parsed] at accepted
        have mode : config.sslMode = .require := Except.ok.inj accepted
        obtain ⟨values, asks⟩ := asksFor_of_fromStr parsed
        have given : values ≠ [] := by
          rintro rfl
          exact absurd (mode.symm.trans (sslMode_last parsed asks)) (by decide)
        have found := same config values parsed asks given
        rw [mode] at found
        exact absurd found (by decide +kernel)
  · rintro ⟨-, verified⟩
    obtain ⟨config, accepted⟩ := verified (.inr (by decide +kernel))
    have refused : (Config.fromStr PercentEncoding.decode
        "host=h sslmode=verify-full".toList).toOption = none := by decide +kernel
    rw [accepted] at refused
    cases refused

end OpenGauss.Gaussdb
