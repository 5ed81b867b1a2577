import OpenGauss.Driver.ConfigSslmode

/-! The password of a connection string, in both of its forms. -/

set_option autoImplicit false

namespace OpenGauss.Driver

open Protocol Lib Lib.Text

/-- The values of the `password` parameters. -/
def passwords (pairs : List (Text × Text)) : List Text :=
  pairs.filterMap fun pair => if pair.1 = "password".toList then some pair.2 else none

/-- The last of some passwords, or else the one before them. -/
def lastPassword (values : List Text) (start : Option Bytes) : Option Bytes :=
  (values.getLast?.map Utf8.encode).or start

@[simp] theorem lastPassword_nil (start : Option Bytes) : lastPassword [] start = start := rfl

theorem lastPassword_cons (value : Text) (values : List Text) (start : Option Bytes) :
    lastPassword (value :: values) start = lastPassword values (some (Utf8.encode value)) := by
  rw [lastPassword, lastPassword, List.getLast?_cons]
  cases values.getLast? <;> rfl

theorem applyAll_password {pairs : List (Text × Text)} {config final : Config}
    (applied : Parser.applyAll config pairs = .ok final) :
    final.password = lastPassword (passwords pairs) config.password := by
  induction pairs generalizing config with
  | nil =>
      cases applied
      rfl
  | cons pair pairs ih =>
      obtain ⟨key, value⟩ := pair
      rw [Parser.applyAll_cons] at applied
      cases stepped : config.param key value with
      | error error =>
          rw [stepped] at applied
          cases applied
      | ok next =>
          rw [stepped] at applied
          rw [ih applied]
          by_cases own : key = "password".toList
          · subst own
            have first : passwords (("password".toList, value) :: pairs) =
                value :: passwords pairs := List.filterMap_cons_some (if_pos rfl)
            cases stepped
            rw [first, lastPassword_cons]
          · have first : passwords ((key, value) :: pairs) = passwords pairs :=
              List.filterMap_cons_none (if_neg own)
            rw [first, (param_keeps stepped).2 own]

namespace UrlParser

variable (percentDecode : PercentDecode)

/-- The values of the `password` parameters of a query. -/
def queryPasswords (pairs : List (Text × Text)) : List Text :=
  pairs.filterMap fun pair =>
    if pair.1 = "password".toList then (decode percentDecode pair.2).toOption else none

/-- The password between the first colon of the credentials and their at sign. -/
def credentialsPassword (body : Text) : Option Bytes :=
  ((splitAtFirst (· == '@') body).bind fun parts => (splitTwo ':' parts.1).2).map
    fun password => percentDecode (Utf8.encode password)

variable {percentDecode}

theorem applyQuery_password {pairs : List (Text × Text)} {config final : Config}
    (applied : pairs.foldlM (applyQuery percentDecode) config = .ok final) :
    final.password = lastPassword (queryPasswords percentDecode pairs) config.password := by
  induction pairs generalizing config with
  | nil =>
      cases applied
      rfl
  | cons pair pairs ih =>
      obtain ⟨key, rawValue⟩ := pair
      rw [List.foldlM_cons] at applied
      cases stepped : applyQuery percentDecode config (key, rawValue) with
      | error error =>
          rw [stepped] at applied
          cases applied
      | ok next =>
          rw [stepped] at applied
          rw [ih applied]
          by_cases own : key = "password".toList
          · subst own
            have apart : "password".toList ≠ "host".toList := by decide
            replace stepped := (if_neg apart).symm.trans stepped
            cases decoded : decode percentDecode rawValue with
            | error error =>
                rw [decoded] at stepped
                cases stepped
            | ok value =>
                rw [decoded] at stepped
                cases stepped
                have first : queryPasswords percentDecode (("password".toList, rawValue) :: pairs) =
                    value :: queryPasswords percentDecode pairs :=
                  List.filterMap_cons_some ((if_pos rfl).trans (congrArg Except.toOption decoded))
                rw [first, lastPassword_cons]
          · have first : queryPasswords percentDecode ((key, rawValue) :: pairs) =
                queryPasswords percentDecode pairs := List.filterMap_cons_none (if_neg own)
            rw [first]
            congr 1
            rw [applyQuery] at stepped
            split at stepped
            · exact hostParam_keeps Config.apart_password stepped
            · cases decoded : decode percentDecode rawValue with
              | error error =>
                  rw [decoded] at stepped
                  cases stepped
              | ok value =>
                  rw [decoded] at stepped
                  exact (param_keeps stepped).2 own

theorem parseCredentials_password {body rest : Text} {config : Config}
    (read : parseCredentials percentDecode body .new = .ok (rest, config)) :
    config.password = credentialsPassword percentDecode body := by
  rw [parseCredentials] at read
  rw [credentialsPassword]
  cases found : splitAtFirst (· == '@') body with
  | none =>
      rw [found] at read
      cases read
      rfl
  | some parts =>
      rw [found] at read
      obtain ⟨creds, behind⟩ := parts
      dsimp only at read
      cases decoded : decode percentDecode (splitTwo ':' creds).1 with
      | error error =>
          rw [decoded] at read
          cases read
      | ok user =>
          rw [decoded] at read
          rw [Option.bind_some]
          cases password : (splitTwo ':' creds).2 with
          | none =>
              rw [password] at read
              cases read
              rfl
          | some password =>
              rw [password] at read
              cases read
              rfl

end UrlParser

open UrlParser in
/-- A connection string that is accepted, with the password that stands in it:
the last `password` parameter, or else the one of a URL's credentials. -/
inductive GivesPassword (percentDecode : PercentDecode) (s : Text) : Option Bytes → Prop where
  | settings {pairs : List (Text × Text)} {stop : Text} {config : Config}
      (noUrl : removeUrlPrefix s = none) (items : Items Parser.Setting s pairs stop)
      (stops : Parser.Stops stop) (applied : Parser.applyAll .new pairs = .ok config) :
      GivesPassword percentDecode s (lastPassword (passwords pairs) none)
  | url {body : Text} {pairs : List (Text × Text)} {config : Config}
      (isUrl : removeUrlPrefix s = some body)
      (stages : UrlStages percentDecode body pairs config) :
      GivesPassword percentDecode s
        (lastPassword (queryPasswords percentDecode pairs) (credentialsPassword percentDecode body))

/-- The driver's password is the one that stands in the string. -/
theorem givesPassword_iff {percentDecode : UrlParser.PercentDecode} {s : Text}
    {password : Option Bytes} :
    GivesPassword percentDecode s password ↔
      ∃ config, Config.fromStr percentDecode s = .ok config ∧ config.password = password := by
  have ofStages {body : Text} {pairs : List (Text × Text)} {config : Config}
      (stages : UrlStages percentDecode body pairs config) : config.password =
        lastPassword (UrlParser.queryPasswords percentDecode pairs)
          (UrlParser.credentialsPassword percentDecode body) := by
    obtain ⟨credentials, host, path, query, applied⟩ := stages
    rw [UrlParser.applyQuery_password applied,
      UrlParser.parsePath_keeps Config.apart_password path,
      UrlParser.parseHost_keeps Config.apart_password host,
      UrlParser.parseCredentials_password credentials]
  constructor
  · intro gives
    cases gives with
    | @settings pairs stop config noUrl items stops applied =>
        exact ⟨config, (fromStr_settings_iff noUrl).mpr ⟨pairs, stop, items, stops, applied⟩,
          applyAll_password applied⟩
    | @url body pairs config isUrl stages =>
        exact ⟨config, (fromStr_url_iff isUrl).mpr ⟨pairs, stages⟩, ofStages stages⟩
  · intro accepted
    obtain ⟨config, accepted, rfl⟩ := accepted
    cases isUrl : UrlParser.removeUrlPrefix s with
    | none =>
        obtain ⟨pairs, stop, items, stops, applied⟩ := (fromStr_settings_iff isUrl).mp accepted
        rw [applyAll_password applied]
        exact .settings isUrl items stops applied
    | some body =>
        obtain ⟨pairs, stages⟩ := (fromStr_url_iff isUrl).mp accepted
        rw [ofStages stages]
        exact .url isUrl stages

end OpenGauss.Driver
