import OpenGauss.Driver.ConfigFrames

/-! The `sslmode` parameters of a connection string, in both of its forms, and
the mode that the parser makes of them. -/

set_option autoImplicit false

namespace OpenGauss.Driver

open Lib Lib.Text

/-- The mode that a word stands for. -/
def sslModeOf? (value : Text) : Option SslMode := Config.sslModeWords.lookup (String.ofList value)

/-- The last of some values sets the mode; without one it stays. -/
def Settles (values : List Text) (start final : SslMode) : Prop :=
  match values.getLast? with
  | none => final = start
  | some value => sslModeOf? value = some final

theorem Settles.cons {value : Text} {values : List Text} {start next final : SslMode}
    (sets : sslModeOf? value = some next) (settles : Settles values next final) :
    Settles (value :: values) start final := by
  rw [Settles] at settles ⊢
  rw [List.getLast?_cons]
  cases last : values.getLast? with
  | none =>
      rw [last] at settles
      exact settles ▸ sets
  | some other =>
      rw [last] at settles
      exact settles

section Frames

variable {config next : Config}

theorem param_sslMode {value : Text} (applied : config.param "sslmode".toList value = .ok next) :
    sslModeOf? value = some next.sslMode := by
  rw [Config.param_sslmode, Config.word] at applied
  rw [sslModeOf?]
  cases found : Config.sslModeWords.lookup (String.ofList value) with
  | none =>
      rw [found] at applied
      cases applied
  | some mode =>
      rw [found] at applied
      cases applied
      rfl

end Frames

/-! ### The parameters of a key-value string -/

/-- The values of the `sslmode` parameters. -/
def sslmodes (pairs : List (Text × Text)) : List Text :=
  pairs.filterMap fun (key, value) => if key = "sslmode".toList then some value else none

theorem applyAll_sslMode {pairs : List (Text × Text)} {config final : Config}
    (applied : Parser.applyAll config pairs = .ok final) :
    Settles (sslmodes pairs) config.sslMode final.sslMode := by
  induction pairs generalizing config with
  | nil =>
      cases applied
      rfl
  | cons pair pairs ih =>
      obtain ⟨key, value⟩ := pair
      rw [Parser.applyAll_cons] at applied
      cases stepped : config.param key value with
      | error error =>
          rw [stepped] at applied
          cases applied
      | ok next =>
          rw [stepped] at applied
          have later := ih applied
          by_cases own : key = "sslmode".toList
          · subst own
            have first : sslmodes (("sslmode".toList, value) :: pairs) = value :: sslmodes pairs :=
              List.filterMap_cons_some (if_pos rfl)
            rw [first]
            exact later.cons (param_sslMode stepped)
          · have first : sslmodes ((key, value) :: pairs) = sslmodes pairs :=
              List.filterMap_cons_none (if_neg own)
            rw [first, ← (param_keeps stepped).1 own]
            exact later

/-! ### The parameters of a URL -/

namespace UrlParser

variable (percentDecode : PercentDecode)

/-- A parameter at the front of a query: its key, and its value as it is written. -/
inductive QuerySetting : Text → Text × Text → Text → Prop where
  | mk {rawKey rawValue behind key later : Text} (inKey : '=' ∉ rawKey) (inValue : '&' ∉ rawValue)
      (decoded : decode percentDecode rawKey = .ok key)
      (ends : behind = [] ∧ later = [] ∨ behind = '&' :: later) :
      QuerySetting (rawKey ++ '=' :: (rawValue ++ behind)) (key, rawValue) later

/-- What one query parameter does to a configuration. -/
def applyQuery (config : Config) (pair : Text × Text) : Except Error Config :=
  if pair.1 = "host".toList then hostParam percentDecode config pair.2
  else do
    let value ← decode percentDecode pair.2
    config.param pair.1 value

/-- The values of the `sslmode` parameters of a query. -/
def querySslmodes (pairs : List (Text × Text)) : List Text :=
  pairs.filterMap fun (key, rawValue) =>
    if key = "sslmode".toList then (decode percentDecode rawValue).toOption else none

variable {percentDecode}

theorem QuerySetting.shorter {s later : Text} {pair : Text × Text}
    (setting : QuerySetting percentDecode s pair later) : later.length < s.length := by
  obtain ⟨inKey, inValue, decoded, ends⟩ := setting
  obtain ⟨rfl, rfl⟩ | rfl := ends <;> (simp only [List.length_append, List.length_cons]; omega)

theorem apart_of_notMem {separator : Char} {text : Text} (outside : separator ∉ text) :
    ∀ char ∈ text, (char == separator) = false :=
  fun _ member => beq_eq_false_iff_ne.mpr fun same => outside (same ▸ member)

theorem notMem_of_apart {separator : Char} {text : Text}
    (apart : ∀ char ∈ text, (char == separator) = false) : separator ∉ text :=
  fun member => absurd (apart separator member) (by simp)

theorem queryParam_written {rawKey rawValue behind later : Text} (inKey : '=' ∉ rawKey)
    (inValue : '&' ∉ rawValue) (ends : behind = [] ∧ later = [] ∨ behind = '&' :: later)
    (config : Config) :
    queryParam percentDecode (rawKey ++ '=' :: (rawValue ++ behind)) config =
      (decode percentDecode rawKey).bind fun key =>
        (applyQuery percentDecode config (key, rawValue)).map fun config => (later, config) := by
  have applied (key : Text) : (if key = "host".toList then do
        let config ← hostParam percentDecode config rawValue
        pure (later, config)
      else do
        let value ← decode percentDecode rawValue
        let config ← config.param key value
        pure (later, config)) =
      (applyQuery percentDecode config (key, rawValue)).map fun config => (later, config) := by
    rw [applyQuery]
    split
    · change (hostParam percentDecode config rawValue).bind _ = _
      cases hostParam percentDecode config rawValue <;> rfl
    · change (decode percentDecode rawValue).bind _ =
        Except.map _ ((decode percentDecode rawValue).bind _)
      cases decode percentDecode rawValue with
      | error error => rfl
      | ok value =>
          change (config.param key value).bind _ = Except.map _ (config.param key value)
          cases config.param key value <;> rfl
  rw [queryParam, splitAtFirst_append (apart_of_notMem inKey) (beq_self_eq_true '=')]
  change (decode percentDecode rawKey).bind _ = _
  refine congrArg _ (funext fun key => ?_)
  rw [List.drop_one, List.tail_cons]
  obtain ⟨rfl, rfl⟩ | rfl := ends
  · rw [List.append_nil, splitAtFirst_none (apart_of_notMem inValue)]
    exact applied key
  · rw [splitAtFirst_append (apart_of_notMem inValue) (beq_self_eq_true '&')]
    exact applied key

theorem queryParam_iff {s later : Text} {config next : Config} :
    queryParam percentDecode s config = .ok (later, next) ↔
      ∃ pair, QuerySetting percentDecode s pair later ∧
        applyQuery percentDecode config pair = .ok next := by
  constructor
  · intro read
    obtain inside | ⟨rawKey, stop, rest, rfl, inKey, stops⟩ := first_end (· == '=') s
    · rw [queryParam, splitAtFirst_none inside] at read
      cases read
    obtain rfl := beq_iff_eq.mp stops
    obtain ⟨rawValue, behind, final, rfl, inValue, ends⟩ : ∃ rawValue behind final,
        rest = rawValue ++ behind ∧ '&' ∉ rawValue ∧
          (behind = [] ∧ final = [] ∨ behind = '&' :: final) := by
      obtain inside | ⟨rawValue, stop, final, rfl, inValue, stops⟩ := first_end (· == '&') rest
      · exact ⟨rest, [], [], (List.append_nil rest).symm, notMem_of_apart inside, .inl ⟨rfl, rfl⟩⟩
      · obtain rfl := beq_iff_eq.mp stops
        exact ⟨rawValue, '&' :: final, final, rfl, notMem_of_apart inValue, .inr rfl⟩
    rw [queryParam_written (notMem_of_apart inKey) inValue ends] at read
    cases decoded : decode percentDecode rawKey with
    | error error =>
        rw [decoded] at read
        cases read
    | ok key =>
        rw [decoded] at read
        cases applied : applyQuery percentDecode config (key, rawValue) with
        | error error =>
            change Except.map _ (applyQuery percentDecode config (key, rawValue)) = _ at read
            rw [applied] at read
            cases read
        | ok result =>
            change Except.map _ (applyQuery percentDecode config (key, rawValue)) = _ at read
            rw [applied] at read
            cases read
            exact ⟨(key, rawValue), ⟨notMem_of_apart inKey, inValue, decoded, ends⟩, applied⟩
  · rintro ⟨pair, ⟨inKey, inValue, decoded, ends⟩, applied⟩
    rw [queryParam_written inKey inValue ends, decoded]
    change Except.map _ (applyQuery percentDecode config _) = _
    rw [applied]
    rfl

theorem queryParams_iff {fuel : Nat} {s : Text} (enough : s.length < fuel) {config final : Config} :
    queryParams percentDecode fuel s config = .ok final ↔
      ∃ pairs, Items (QuerySetting percentDecode) s pairs [] ∧
        pairs.foldlM (applyQuery percentDecode) config = .ok final := by
  induction fuel generalizing s config with
  | zero => exact absurd enough (Nat.not_lt_zero _)
  | succ fuel ih =>
      rw [queryParams]
      by_cases ended : s = []
      · subst ended
        rw [if_pos rfl]
        constructor
        · intro done
          exact ⟨[], .done [], done⟩
        · rintro ⟨pairs, items, applied⟩
          cases items with
          | done => exact applied
          | next setting => exact absurd setting.shorter (Nat.not_lt_zero _)
      · rw [if_neg ended]
        constructor
        · intro read
          cases taken : queryParam percentDecode s config with
          | error error =>
              rw [taken] at read
              cases read
          | ok result =>
              rw [taken] at read
              obtain ⟨pair, setting, applied⟩ := queryParam_iff.mp taken
              have shorter := Nat.lt_of_lt_of_le setting.shorter (Nat.le_of_lt_succ enough)
              obtain ⟨pairs, items, all⟩ := (ih shorter).mp read
              refine ⟨pair :: pairs, .next setting items, ?_⟩
              rw [List.foldlM_cons, applied]
              exact all
        · rintro ⟨pairs, items, applied⟩
          cases items with
          | done => exact absurd rfl ended
          | @next _ later _ pair others setting rest =>
              rw [List.foldlM_cons] at applied
              cases stepped : applyQuery percentDecode config pair with
              | error error =>
                  rw [stepped] at applied
                  cases applied
              | ok next =>
                  rw [stepped] at applied
                  have shorter := Nat.lt_of_lt_of_le setting.shorter (Nat.le_of_lt_succ enough)
                  rw [queryParam_iff.mpr ⟨pair, setting, stepped⟩]
                  exact (ih shorter).mpr ⟨others, rest, applied⟩

/-! ### What the stages of a URL set -/

theorem applyQuery_given {rawValue : Text} {config next : Config}
    (applied : applyQuery percentDecode config ("sslmode".toList, rawValue) = .ok next) :
    ∃ value, decode percentDecode rawValue = .ok value ∧ sslModeOf? value = some next.sslMode := by
  have apart : "sslmode".toList ≠ "host".toList := by decide
  replace applied := (if_neg apart).symm.trans applied
  cases decoded : decode percentDecode rawValue with
  | error error =>
      rw [decoded] at applied
      cases applied
  | ok value =>
      rw [decoded] at applied
      exact ⟨value, rfl, param_sslMode applied⟩

theorem applyQuery_other {key rawValue : Text} (other : key ≠ "sslmode".toList)
    {config next : Config} (applied : applyQuery percentDecode config (key, rawValue) = .ok next) :
    next.sslMode = config.sslMode := by
  rw [applyQuery] at applied
  split at applied
  · exact hostParam_keeps Config.apart_sslMode applied
  · cases decoded : decode percentDecode rawValue with
    | error error =>
        rw [decoded] at applied
        cases applied
    | ok value =>
        rw [decoded] at applied
        exact (param_keeps applied).1 other

theorem applyQuery_sslMode {pairs : List (Text × Text)} {config final : Config}
    (applied : pairs.foldlM (applyQuery percentDecode) config = .ok final) :
    Settles (querySslmodes percentDecode pairs) config.sslMode final.sslMode := by
  induction pairs generalizing config with
  | nil =>
      cases applied
      rfl
  | cons pair pairs ih =>
      obtain ⟨key, rawValue⟩ := pair
      rw [List.foldlM_cons] at applied
      cases stepped : applyQuery percentDecode config (key, rawValue) with
      | error error =>
          rw [stepped] at applied
          cases applied
      | ok next =>
          rw [stepped] at applied
          have later := ih applied
          by_cases own : key = "sslmode".toList
          · subst own
            obtain ⟨value, decoded, sets⟩ := applyQuery_given stepped
            have first : querySslmodes percentDecode (("sslmode".toList, rawValue) :: pairs) =
                value :: querySslmodes percentDecode pairs :=
              List.filterMap_cons_some
                ((if_pos rfl).trans (congrArg Except.toOption decoded))
            rw [first]
            exact later.cons sets
          · have first : querySslmodes percentDecode ((key, rawValue) :: pairs) =
                querySslmodes percentDecode pairs := List.filterMap_cons_none (if_neg own)
            rw [first, ← applyQuery_other own stepped]
            exact later

theorem parseCredentials_sslMode {s rest : Text} {config next : Config}
    (read : parseCredentials percentDecode s config = .ok (rest, next)) :
    next.sslMode = config.sslMode := by
  rw [parseCredentials] at read
  split at read
  · cases read
    rfl
  · next creds later _ =>
      dsimp only at read
      cases decoded : decode percentDecode (splitTwo ':' creds).1 with
      | error error =>
          rw [decoded] at read
          cases read
      | ok user =>
          rw [decoded] at read
          cases password : (splitTwo ':' creds).2 with
          | none =>
              rw [password] at read
              cases read
              rfl
          | some password' =>
              rw [password] at read
              cases read
              rfl

/-- The query behind the path of a URL, if there is one. -/
inductive QueryText (percentDecode : PercentDecode) : Text → List (Text × Text) → Prop where
  | none {text : Text} (absent : text.head? ≠ some '?') : QueryText percentDecode text []
  | some {rest : Text} {pairs : List (Text × Text)}
      (items : Items (QuerySetting percentDecode) rest pairs []) :
      QueryText percentDecode ('?' :: rest) pairs

theorem parseParams_iff {s : Text} {config final : Config} :
    parseParams percentDecode s config = .ok final ↔
      ∃ pairs, QueryText percentDecode s pairs ∧
        pairs.foldlM (applyQuery percentDecode) config = .ok final := by
  by_cases query : s.head? = some '?'
  · obtain ⟨rest, rfl⟩ := List.head?_eq_some_iff.mp query
    rw [parseParams, queryParams_iff (Nat.lt_succ_self _)]
    constructor
    · rintro ⟨pairs, items, applied⟩
      exact ⟨pairs, .some items, applied⟩
    · rintro ⟨pairs, text, applied⟩
      cases text with
      | none absent => exact absurd rfl absent
      | some items => exact ⟨pairs, items, applied⟩
  · have done : parseParams percentDecode s config = .ok config := by
      rw [parseParams.eq_def]
      split
      · exact absurd rfl query
      · rfl
    rw [done]
    constructor
    · intro same
      exact ⟨[], .none query, same⟩
    · rintro ⟨pairs, text, applied⟩
      cases text with
      | none => exact applied
      | some items => exact absurd rfl query

end UrlParser

/-! ### Connection strings -/

open UrlParser in
/-- A connection string that is accepted, with the values of its `sslmode`
parameters in their order. -/
inductive AsksFor (percentDecode : PercentDecode) (s : Text) : List Text → Prop where
  | settings {pairs : List (Text × Text)} {stop : Text} {config : Config}
      (noUrl : removeUrlPrefix s = none) (items : Items Parser.Setting s pairs stop)
      (stops : Parser.Stops stop) (applied : Parser.applyAll .new pairs = .ok config) :
      AsksFor percentDecode s (sslmodes pairs)
  | url {body afterCredentials afterHost afterPath : Text} {first second third final : Config}
      {pairs : List (Text × Text)} (isUrl : removeUrlPrefix s = some body)
      (credentials : parseCredentials percentDecode body .new = .ok (afterCredentials, first))
      (host : parseHost percentDecode afterCredentials first = .ok (afterHost, second))
      (path : parsePath percentDecode afterHost second = .ok (afterPath, third))
      (query : QueryText percentDecode afterPath pairs)
      (applied : pairs.foldlM (applyQuery percentDecode) third = .ok final) :
      AsksFor percentDecode s (querySslmodes percentDecode pairs)

open UrlParser in
/-- The stages in which a URL is read. -/
inductive UrlStages (percentDecode : PercentDecode) (body : Text) (pairs : List (Text × Text))
    (final : Config) : Prop where
  | mk {afterCredentials afterHost afterPath : Text} {first second third : Config}
      (credentials : parseCredentials percentDecode body .new = .ok (afterCredentials, first))
      (host : parseHost percentDecode afterCredentials first = .ok (afterHost, second))
      (path : parsePath percentDecode afterHost second = .ok (afterPath, third))
      (query : QueryText percentDecode afterPath pairs)
      (applied : pairs.foldlM (applyQuery percentDecode) third = .ok final) :
      UrlStages percentDecode body pairs final

section Accepted

variable {percentDecode : UrlParser.PercentDecode} {s body : Text} {config : Config}

theorem fromStr_settings_iff (noUrl : UrlParser.removeUrlPrefix s = none) :
    Config.fromStr percentDecode s = .ok config ↔ ∃ pairs stop,
      Items Parser.Setting s pairs stop ∧ Parser.Stops stop ∧
        Parser.applyAll .new pairs = .ok config := by
  rw [Config.fromStr, UrlParser.parse, noUrl]
  exact Parser.parse_iff

theorem fromStr_url_iff (isUrl : UrlParser.removeUrlPrefix s = some body) :
    Config.fromStr percentDecode s = .ok config ↔
      ∃ pairs, UrlStages percentDecode body pairs config := by
  constructor
  · intro accepted
    rw [Config.fromStr, UrlParser.parse, isUrl] at accepted
    simp only [bind, Except.bind] at accepted
    cases credentials : UrlParser.parseCredentials percentDecode body .new with
    | error error => simp [credentials] at accepted
    | ok taken =>
        obtain ⟨afterCredentials, first⟩ := taken
        simp only [credentials] at accepted
        cases host : UrlParser.parseHost percentDecode afterCredentials first with
        | error error => simp [host] at accepted
        | ok taken =>
            obtain ⟨afterHost, second⟩ := taken
            simp only [host] at accepted
            cases path : UrlParser.parsePath percentDecode afterHost second with
            | error error => simp [path] at accepted
            | ok taken =>
                obtain ⟨afterPath, third⟩ := taken
                simp only [path] at accepted
                cases params : UrlParser.parseParams percentDecode afterPath third with
                | error error => simp [params] at accepted
                | ok final =>
                    rw [params] at accepted
                    cases accepted
                    obtain ⟨pairs, query, applied⟩ := UrlParser.parseParams_iff.mp params
                    exact ⟨pairs, .mk credentials host path query applied⟩
  · intro stages
    obtain ⟨pairs, stages⟩ := stages
    obtain ⟨credentials, host, path, query, applied⟩ := stages
    have read := UrlParser.parseParams_iff.mpr ⟨pairs, query, applied⟩
    have parsed : UrlParser.parse percentDecode s = .ok (some config) := by
      rw [UrlParser.parse, isUrl]
      simp only [bind, Except.bind, credentials, host, path, read]
      rfl
    rw [Config.fromStr, parsed]

end Accepted

/-- What is accepted asks for some modes, and the last of them is set. -/
theorem AsksFor.fromStr {percentDecode : UrlParser.PercentDecode} {s : Text} {values : List Text}
    (asks : AsksFor percentDecode s values) :
    ∃ config, Config.fromStr percentDecode s = .ok config ∧ Settles values .prefer config.sslMode := by
  cases asks with
  | @settings pairs stop config noUrl items stops applied =>
      exact ⟨config, (fromStr_settings_iff noUrl).mpr ⟨pairs, stop, items, stops, applied⟩,
        applyAll_sslMode applied⟩
  | @url body afterCredentials afterHost afterPath first second third final pairs isUrl credentials
      host path query applied =>
      refine ⟨final, (fromStr_url_iff isUrl).mpr ⟨pairs, .mk credentials host path query applied⟩, ?_⟩
      have mode : third.sslMode = .prefer :=
        (UrlParser.parsePath_keeps Config.apart_sslMode path).trans
          ((UrlParser.parseHost_keeps Config.apart_sslMode host).trans
            (UrlParser.parseCredentials_sslMode credentials))
      exact mode ▸ UrlParser.applyQuery_sslMode applied

theorem asksFor_of_fromStr {percentDecode : UrlParser.PercentDecode} {s : Text} {config : Config}
    (accepted : Config.fromStr percentDecode s = .ok config) :
    ∃ values, AsksFor percentDecode s values := by
  cases isUrl : UrlParser.removeUrlPrefix s with
  | none =>
      obtain ⟨pairs, stop, items, stops, applied⟩ := (fromStr_settings_iff isUrl).mp accepted
      exact ⟨_, .settings isUrl items stops applied⟩
  | some body =>
      obtain ⟨pairs, stages⟩ := (fromStr_url_iff isUrl).mp accepted
      obtain ⟨credentials, host, path, query, applied⟩ := stages
      exact ⟨_, .url isUrl credentials host path query applied⟩

end OpenGauss.Driver
