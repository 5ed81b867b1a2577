import OpenGauss.Driver.Error
import OpenGauss.Lib.IpAddr
import OpenGauss.Lib.Text
import OpenGauss.Lib.Utf8

/-! Connection configuration (`tokio-opengauss`, `config.rs`): the parameters,
and the two parsers of connection strings. A string is its list of characters;
a parser is at the characters it has not read yet. -/

set_option autoImplicit false

namespace OpenGauss.Driver

open Protocol Lib

abbrev Text := List Char

inductive TargetSessionAttrs where
  | any
  | readWrite
  | readOnly
  deriving DecidableEq, Repr

inductive SslMode where
  | disable
  | prefer
  | require
  deriving DecidableEq, Repr

inductive SslNegotiation where
  | postgres
  | direct
  deriving DecidableEq, Repr

inductive ChannelBinding where
  | disable
  | prefer
  | require
  deriving DecidableEq, Repr

inductive LoadBalanceHosts where
  | disable
  | random
  deriving DecidableEq, Repr

inductive Host where
  | tcp (name : Text)
  | unix (path : Bytes)
  deriving DecidableEq, Repr

/-- Times in seconds. -/
structure KeepaliveConfig where
  idle : Nat
  interval : Option Nat
  retries : Option Nat
  deriving DecidableEq, Repr

/-- The defaults are those of `Config::new`. -/
structure Config where
  user : Option Text := none
  password : Option Bytes := none
  dbname : Option Text := none
  options : Option Text := none
  applicationName : Option Text := none
  sslMode : SslMode := .prefer
  sslNegotiation : SslNegotiation := .postgres
  host : List Host := []
  hostaddr : List IpAddr := []
  port : List Nat := []
  connectTimeout : Option Nat := none
  tcpUserTimeout : Option Nat := none
  keepalives : Bool := true
  keepaliveConfig : KeepaliveConfig := ⟨2 * 60 * 60, none, none⟩
  targetSessionAttrs : TargetSessionAttrs := .any
  channelBinding : ChannelBinding := .prefer
  loadBalanceHosts : LoadBalanceHosts := .disable
  opengaussCompat : Bool := false
  deriving DecidableEq, Repr

namespace Config

def new : Config := {}

def invalidValue (option : String) : Error :=
  .configParse ("invalid value for option `" ++ option ++ "`")

def unknownOption (option : Text) : Error :=
  .configParse ("unknown option `" ++ String.ofList option ++ "`")

/-- `Config::host`. -/
def addHost (config : Config) (host : Text) : Config :=
  if host.head? = some '/' then { config with host := config.host ++ [.unix (Utf8.encode host)] }
  else { config with host := config.host ++ [.tcp host] }

def addHostaddr (config : Config) (hostaddr : Text) : Except Error Config :=
  match IpAddr.parse hostaddr with
  | some addr => .ok { config with hostaddr := config.hostaddr ++ [addr] }
  | none => .error (invalidValue "hostaddr")

def addPort (config : Config) (port : Text) : Except Error Config :=
  if port = [] then .ok { config with port := config.port ++ [5432] }
  else
    match Numeral.parseUnsigned (2 ^ 16) port with
    | some port => .ok { config with port := config.port ++ [port] }
    | none => .error (invalidValue "port")

/-- `value.parse::<i64>()`, with the error of the option. -/
def parseI64 (option : String) (value : Text) : Except Error Int :=
  match Numeral.parseSigned (2 ^ 63) value with
  | some number => .ok number
  | none => .error (invalidValue option)

/-- A number of seconds, where only a positive one is stored. -/
def storePositive (option : String) (value : Text) (config : Config) (store : Nat → Config) :
    Except Error Config := do
  let seconds ← parseI64 option value
  return if 0 < seconds then store seconds.toNat else config

/-- An option whose values are words. -/
def word {Value : Type} (option : String) (words : List (String × Value)) (value : Text) :
    Except Error Value :=
  match words.lookup (String.ofList value) with
  | some value => .ok value
  | none => .error (invalidValue option)

def sslModeWords : List (String × SslMode) :=
  [("disable", .disable), ("prefer", .prefer), ("require", .require)]

def param (config : Config) (key value : Text) : Except Error Config :=
  match String.ofList key with
  | "user" => .ok { config with user := some value }
  | "password" => .ok { config with password := some (Utf8.encode value) }
  | "dbname" => .ok { config with dbname := some value }
  | "options" => .ok { config with options := some value }
  | "application_name" => .ok { config with applicationName := some value }
  | "sslmode" => do
      let sslMode ← word "sslmode" sslModeWords value
      return { config with sslMode }
  | "sslnegotiation" => do
      let sslNegotiation ← word "sslnegotiation"
        [("postgres", .postgres), ("direct", .direct)] value
      return { config with sslNegotiation }
  | "host" => .ok ((value.splitOn ',').foldl addHost config)
  | "hostaddr" => (value.splitOn ',').foldlM addHostaddr config
  | "port" => (value.splitOn ',').foldlM addPort config
  | "connect_timeout" => storePositive "connect_timeout" value config
      fun seconds => { config with connectTimeout := some seconds }
  | "tcp_user_timeout" => storePositive "tcp_user_timeout" value config
      fun seconds => { config with tcpUserTimeout := some seconds }
  | "keepalives" =>
      match Numeral.parseUnsigned (2 ^ 64) value with
      | some number => .ok { config with keepalives := number != 0 }
      | none => .error (invalidValue "keepalives")
  | "keepalives_idle" => storePositive "keepalives_idle" value config
      fun idle => { config with keepaliveConfig := { config.keepaliveConfig with idle } }
  | "keepalives_interval" => storePositive "keepalives_interval" value config
      fun seconds => { config with
        keepaliveConfig := { config.keepaliveConfig with interval := some seconds } }
  | "keepalives_retries" =>
      match Numeral.parseUnsigned (2 ^ 32) value with
      | some number => .ok { config with
          keepaliveConfig := { config.keepaliveConfig with retries := some number } }
      | none => .error (invalidValue "keepalives_retries")
  | "target_session_attrs" => do
      let targetSessionAttrs ← word "target_session_attrs"
        [("any", .any), ("read-write", .readWrite), ("read-only", .readOnly)] value
      return { config with targetSessionAttrs }
  | "channel_binding" => do
      let channelBinding ← word "channel_binding"
        [("disable", .disable), ("prefer", .prefer), ("require", .require)] value
      return { config with channelBinding }
  | "load_balance_hosts" => do
      let loadBalanceHosts ← word "load_balance_hosts"
        [("disable", .disable), ("random", .random)] value
      return { config with loadBalanceHosts }
  | "opengauss_compat" => do
      let opengaussCompat ← word "opengauss_compat"
        [("true", true), ("1", true), ("on", true), ("false", false), ("0", false),
          ("off", false)] value
      return { config with opengaussCompat }
  | _ => .error (unknownOption key)

end Config

/-! ### Key-value strings -/

namespace Parser

open Lib.Text

def eof : Error := .configParse "unexpected EOF"

def skipWs (rest : Text) : Text := rest.dropWhile isWhitespace

/-- `eat`, in the string `s`, whose length tells the byte an error is at. -/
def eat (s : Text) (target : Char) (rest : Text) : Except Error Text :=
  match rest with
  | char :: rest' =>
      if char = target then .ok rest'
      else .error (.configParse ("unexpected character at byte " ++
        toString (utf8Length s - utf8Length rest) ++ ": expected `" ++ target.toString ++
        "` but got `" ++ char.toString ++ "`"))
  | [] => .error eof

def isKeywordChar (char : Char) : Bool := !isWhitespace char && char != '='

def keyword (rest : Text) : Option (Text × Text) :=
  match rest.takeWhile isKeywordChar with
  | [] => none
  | keyword => some (keyword, rest.dropWhile isKeywordChar)

/-- The loop of `simple_value`. -/
def simpleChars : Text → Text × Text
  | [] => ([], [])
  | char :: rest =>
      if isWhitespace char then ([], char :: rest)
      else if char = '\\' then
        match rest with
        | [] => ([], [])
        | escaped :: rest => (escaped :: (simpleChars rest).1, (simpleChars rest).2)
      else (char :: (simpleChars rest).1, (simpleChars rest).2)

def simpleValue (rest : Text) : Except Error (Text × Text) :=
  match simpleChars rest with
  | ([], _) => .error eof
  | (value, rest) => .ok (value, rest)

/-- The loop of `quoted_value`, which stops at the closing quote. -/
def quotedChars : Text → Option (Text × Text)
  | [] => none
  | char :: rest =>
      if char = '\'' then some ([], char :: rest)
      else if char = '\\' then
        match rest with
        | [] => none
        | escaped :: rest => (quotedChars rest).map fun (value, rest) => (escaped :: value, rest)
      else (quotedChars rest).map fun (value, rest) => (char :: value, rest)

def quotedValue (rest : Text) : Except Error (Text × Text) :=
  match quotedChars rest with
  | some (value, rest) => .ok (value, rest)
  | none => .error (.configParse "unterminated quoted connection parameter value")

def value (s rest : Text) : Except Error (Text × Text) :=
  match rest with
  | '\'' :: rest => do
      let (value, rest) ← quotedValue rest
      let rest ← eat s '\'' rest
      return (value, rest)
  | _ => simpleValue rest

/-- `parameter`: a keyword, its value, and the text after them. -/
def parameter (s rest : Text) : Except Error (Option ((Text × Text) × Text)) :=
  match keyword (skipWs rest) with
  | none => .ok none
  | some (keyword, rest) => do
      let rest ← eat s '=' (skipWs rest)
      let (value, rest) ← value s (skipWs rest)
      return some ((keyword, value), rest)

/-- The `while let` loop of `parse`; every parameter takes a character or more. -/
def parseFrom (s : Text) : Nat → Text → Config → Except Error Config
  | 0, _, config => .ok config
  | fuel + 1, rest, config =>
      match parameter s rest with
      | .error error => .error error
      | .ok none => .ok config
      | .ok (some ((key, value), rest)) =>
          match config.param key value with
          | .error error => .error error
          | .ok config => parseFrom s fuel rest config

def parse (s : Text) : Except Error Config := parseFrom s (s.length + 1) s .new

end Parser

/-! ### URLs -/

namespace UrlParser

open Lib.Text

/-- `percent_decode` of the `percent_encoding` package. -/
abbrev PercentDecode := Bytes → Bytes

def removeUrlPrefix (s : Text) : Option Text :=
  match stripPrefix? "postgres://".toList s with
  | some stripped => some stripped
  | none => stripPrefix? "postgresql://".toList s

variable (percentDecode : PercentDecode)

def decode (s : Text) : Except Error Text :=
  match Utf8.decode? (percentDecode (Utf8.encode s)) with
  | some text => .ok text
  | none => .error (.configParse "invalid utf-8")

def hostParam (config : Config) (s : Text) : Except Error Config :=
  let decoded := percentDecode (Utf8.encode s)
  if decoded.head? = some 47 then
    .ok { config with host := config.host ++ [.unix decoded] }
  else
    match Utf8.decode? decoded with
    | some host => .ok (config.addHost host)
    | none => .error (.configParse "invalid utf-8")

def parseCredentials (s : Text) (config : Config) : Except Error (Text × Config) :=
  match splitAtFirst (· == '@') s with
  | none => .ok (s, config)
  | some (creds, rest) => do
      let (user, password) := splitTwo ':' creds
      let user ← decode percentDecode user
      let config := { config with user := some user }
      match password with
      | some password =>
          return (rest.drop 1,
            { config with password := some (percentDecode (Utf8.encode password)) })
      | none => return (rest.drop 1, config)

/-- The host and the port of one element of the host list. -/
def hostPort (chunk : Text) : Except Error (Text × Option Text) :=
  match chunk with
  | '[' :: rest =>
      match splitAtFirst (· == ']') rest with
      | none => .error (Config.invalidValue "host")
      | some (host, rest) =>
          match rest.drop 1 with
          | [] => .ok (host, none)
          | ':' :: port => .ok (host, some port)
          | _ => .error (Config.invalidValue "host")
  | _ => .ok (splitTwo ':' chunk)

def parseHostChunk (config : Config) (chunk : Text) : Except Error Config := do
  let (host, port) ← hostPort chunk
  let config ← hostParam percentDecode config host
  let port ← decode percentDecode (port.getD "5432".toList)
  config.param "port".toList port

def parseHost (s : Text) (config : Config) : Except Error (Text × Config) :=
  let (host, rest) := (splitAtFirst (fun char => char == '/' || char == '?') s).getD (s, [])
  if host = [] then .ok (rest, config)
  else do
    let config ← (host.splitOn ',').foldlM (parseHostChunk percentDecode) config
    return (rest, config)

def parsePath (s : Text) (config : Config) : Except Error (Text × Config) :=
  match s with
  | '/' :: s => do
      let (dbname, rest) := (splitAtFirst (· == '?') s).getD (s, [])
      if dbname = [] then return (rest, config)
      else
        let dbname ← decode percentDecode dbname
        return (rest, { config with dbname := some dbname })
  | _ => .ok (s, config)

/-- One query parameter, and the text after it. -/
def queryParam (s : Text) (config : Config) : Except Error (Text × Config) :=
  match splitAtFirst (· == '=') s with
  | none => .error (.configParse "unterminated parameter")
  | some (key, rest) => do
      let key ← decode percentDecode key
      let (value, rest) := match splitAtFirst (· == '&') (rest.drop 1) with
        | some (value, rest) => (value, rest.drop 1)
        | none => (rest.drop 1, [])
      if key = "host".toList then
        let config ← hostParam percentDecode config value
        return (rest, config)
      else
        let value ← decode percentDecode value
        let config ← config.param key value
        return (rest, config)

/-- The loop of `parse_params`; every parameter takes a character or more. -/
def queryParams : Nat → Text → Config → Except Error Config
  | 0, _, config => .ok config
  | fuel + 1, s, config =>
      if s = [] then .ok config
      else
        match queryParam percentDecode s config with
        | .error error => .error error
        | .ok (rest, config) => queryParams fuel rest config

def parseParams (s : Text) (config : Config) : Except Error Config :=
  match s with
  | '?' :: s => queryParams percentDecode (s.length + 1) s config
  | _ => .ok config

def parse (s : Text) : Except Error (Option Config) :=
  match removeUrlPrefix s with
  | none => .ok none
  | some s => do
      let (s, config) ← parseCredentials percentDecode s .new
      let (s, config) ← parseHost percentDecode s config
      let (s, config) ← parsePath percentDecode s config
      let config ← parseParams percentDecode s config
      return some config

end UrlParser

/-- `Config::from_str`. -/
def Config.fromStr (percentDecode : UrlParser.PercentDecode) (s : Text) : Except Error Config :=
  match UrlParser.parse percentDecode s with
  | .error error => .error error
  | .ok (some config) => .ok config
  | .ok none => Parser.parse s

end OpenGauss.Driver
