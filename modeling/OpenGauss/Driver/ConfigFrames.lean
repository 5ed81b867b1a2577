import OpenGauss.Driver.ConfigStrings

/-! What a parameter, and what the stages of a URL, leave of a configuration as
it was. -/

set_option autoImplicit false

namespace OpenGauss.Driver

open Protocol Lib Lib.Text

section Frames

variable {Value : Type} {project : Config → Value} {config next : Config}

/-- A part of the configuration that is apart from the server and the database. -/
structure Config.Apart (project : Config → Value) : Prop where
  dbname (config : Config) (dbname : Option Text) : project { config with dbname } = project config
  host (config : Config) (host : List Host) : project { config with host } = project config
  hostaddr (config : Config) (hostaddr : List IpAddr) :
    project { config with hostaddr } = project config
  port (config : Config) (port : List Nat) : project { config with port } = project config

theorem Config.apart_sslMode : Config.Apart Config.sslMode :=
  ⟨fun _ _ => rfl, fun _ _ => rfl, fun _ _ => rfl, fun _ _ => rfl⟩

theorem Config.apart_password : Config.Apart Config.password :=
  ⟨fun _ _ => rfl, fun _ _ => rfl, fun _ _ => rfl, fun _ _ => rfl⟩

/-- A fold of steps that keep a part of the configuration keeps it. -/
theorem foldlM_keeps {Item : Type} {one : Config → Item → Except Error Config}
    (keeps : ∀ config item next, one config item = .ok next → project next = project config)
    {items : List Item} (applied : items.foldlM one config = .ok next) :
    project next = project config := by
  induction items generalizing config with
  | nil =>
      cases applied
      rfl
  | cons item items ih =>
      rw [List.foldlM_cons] at applied
      cases stepped : one config item with
      | error error =>
          rw [stepped] at applied
          cases applied
      | ok middle =>
          rw [stepped] at applied
          exact (ih applied).trans (keeps config item middle stepped)

theorem addHost_keeps (apart : Config.Apart project) (config : Config) (host : Text) :
    project (config.addHost host) = project config := by
  rw [Config.addHost]
  split
  · exact apart.host config _
  · exact apart.host config _

theorem foldl_addHost_keeps (apart : Config.Apart project) (hosts : List Text) (config : Config) :
    project (hosts.foldl Config.addHost config) = project config := by
  induction hosts generalizing config with
  | nil => rfl
  | cons host hosts ih =>
      rw [List.foldl_cons, ih]
      exact addHost_keeps apart config host

theorem addHostaddr_keeps (apart : Config.Apart project) (config : Config) (hostaddr : Text)
    (next : Config) (applied : config.addHostaddr hostaddr = .ok next) :
    project next = project config := by
  rw [Config.addHostaddr] at applied
  split at applied
  · cases applied
    exact apart.hostaddr config _
  · cases applied

theorem addPort_keeps (apart : Config.Apart project) (config : Config) (port : Text)
    (next : Config) (applied : config.addPort port = .ok next) :
    project next = project config := by
  rw [Config.addPort] at applied
  split at applied
  · cases applied
    exact apart.port config _
  · split at applied
    · cases applied
      exact apart.port config _
    · cases applied

theorem storePositive_keeps {option : String} {value : Text} {store : Nat → Config}
    (applied : Config.storePositive option value config store = .ok next)
    (keeps : ∀ seconds, project (store seconds) = project config) :
    project next = project config := by
  rw [Config.storePositive] at applied
  cases parsed : Config.parseI64 option value with
  | error error =>
      rw [parsed] at applied
      cases applied
  | ok seconds =>
      rw [parsed] at applied
      obtain rfl := Except.ok.inj applied
      split
      · exact keeps _
      · rfl

theorem word_keeps {Word : Type} {option : String} {words : List (String × Word)} {value : Text}
    {store : Word → Config}
    (applied : (Config.word option words value >>= fun found => pure (store found)) = .ok next)
    (keeps : ∀ found, project (store found) = project config) :
    project next = project config := by
  cases found : Config.word option words value with
  | error error =>
      rw [found] at applied
      cases applied
  | ok value =>
      rw [found] at applied
      cases applied
      exact keeps value

theorem number_keeps {option : String} {bound : Nat} {value : Text} {store : Nat → Config}
    (applied : (match Numeral.parseUnsigned bound value with
      | some number => .ok (store number)
      | none => .error (Config.invalidValue option)) = (.ok next : Except Error Config))
    (keeps : ∀ number, project (store number) = project config) :
    project next = project config := by
  split at applied
  · cases applied
    exact keeps _
  · cases applied

def Config.modeAndPassword (config : Config) : SslMode × Option Bytes :=
  (config.sslMode, config.password)

/-- Only its own parameter changes the mode, and only its own the password. -/
theorem param_keeps {key value : Text} (applied : config.param key value = .ok next) :
    (key ≠ "sslmode".toList → next.sslMode = config.sslMode) ∧
      (key ≠ "password".toList → next.password = config.password) := by
  have server : Config.Apart Config.modeAndPassword :=
    ⟨fun _ _ => rfl, fun _ _ => rfl, fun _ _ => rfl, fun _ _ => rfl⟩
  have both (same : next.modeAndPassword = config.modeAndPassword) :
      (key ≠ "sslmode".toList → next.sslMode = config.sslMode) ∧
        (key ≠ "password".toList → next.password = config.password) :=
    ⟨fun _ => (Prod.mk.inj same).1, fun _ => (Prod.mk.inj same).2⟩
  unfold Config.param at applied
  split at applied
  case h_2 same =>
    cases applied
    have own := congrArg String.toList same
    rw [String.toList_ofList] at own
    exact ⟨fun _ => rfl, fun other => absurd own other⟩
  case h_6 same =>
    have own := congrArg String.toList same
    rw [String.toList_ofList] at own
    exact ⟨fun other => absurd own other, fun _ => word_keeps applied fun _ => rfl⟩
  case h_8 =>
    cases applied
    exact both (foldl_addHost_keeps server _ config)
  case h_9 => exact both (foldlM_keeps (addHostaddr_keeps server) applied)
  case h_10 => exact both (foldlM_keeps (addPort_keeps server) applied)
  case h_11 | h_12 | h_14 | h_15 => exact both (storePositive_keeps applied fun _ => rfl)
  case h_13 | h_16 => exact both (number_keeps applied fun _ => rfl)
  case h_7 | h_17 | h_18 | h_19 | h_20 => exact both (word_keeps applied fun _ => rfl)
  case h_21 => cases applied
  all_goals
    cases applied
    exact both rfl

end Frames

namespace UrlParser

variable {Value : Type} {project : Config → Value} {percentDecode : PercentDecode}

theorem hostParam_keeps (apart : Config.Apart project) {s : Text} {config next : Config}
    (applied : hostParam percentDecode config s = .ok next) : project next = project config := by
  rw [hostParam] at applied
  split at applied
  · cases applied
    exact apart.host config _
  · split at applied
    · cases applied
      exact addHost_keeps apart config _
    · cases applied

theorem parseHostChunk_keeps (apart : Config.Apart project) (config : Config) (chunk : Text)
    (next : Config) (read : parseHostChunk percentDecode config chunk = .ok next) :
    project next = project config := by
  rw [parseHostChunk] at read
  cases split : hostPort chunk with
  | error error =>
      rw [split] at read
      cases read
  | ok parts =>
      obtain ⟨host, port⟩ := parts
      rw [split] at read
      change (hostParam percentDecode config host).bind _ = _ at read
      cases hosted : hostParam percentDecode config host with
      | error error =>
          rw [hosted] at read
          cases read
      | ok middle =>
          rw [hosted] at read
          change (decode percentDecode (port.getD "5432".toList)).bind _ = _ at read
          cases decoded : decode percentDecode (port.getD "5432".toList) with
          | error error =>
              rw [decoded] at read
              cases read
          | ok value =>
              rw [decoded] at read
              change (value.splitOn ',').foldlM Config.addPort middle = _ at read
              exact (foldlM_keeps (addPort_keeps apart) read).trans (hostParam_keeps apart hosted)

theorem parseHost_keeps (apart : Config.Apart project) {s rest : Text} {config next : Config}
    (read : parseHost percentDecode s config = .ok (rest, next)) :
    project next = project config := by
  rw [parseHost] at read
  dsimp only at read
  split at read
  · cases read
    rfl
  · next host =>
      cases applied : (((splitAtFirst (fun char => char == '/' || char == '?') s).getD (s, [])).1.splitOn
          ',').foldlM (parseHostChunk percentDecode) config with
      | error error =>
          rw [applied] at read
          cases read
      | ok middle =>
          rw [applied] at read
          cases read
          exact foldlM_keeps (parseHostChunk_keeps apart) applied

theorem parsePath_keeps (apart : Config.Apart project) {s rest : Text} {config next : Config}
    (read : parsePath percentDecode s config = .ok (rest, next)) :
    project next = project config := by
  rw [parsePath.eq_def] at read
  split at read
  · next path =>
      dsimp only at read
      split at read
      · cases read
        rfl
      · cases decoded : decode percentDecode ((splitAtFirst (· == '?') path).getD (path, [])).1 with
        | error error =>
            rw [decoded] at read
            cases read
        | ok dbname =>
            rw [decoded] at read
            cases read
            exact apart.dbname config _
  · cases read
    rfl

end UrlParser

end OpenGauss.Driver
