import OpenGauss.Driver.ConfigPassword
import OpenGauss.Lib.Masking

/-! The connection string of a target in logs and errors (`gaussdb-mcp`,
`server.rs`), and where the driver finds a password in a string. -/

set_option autoImplicit false

namespace OpenGauss.Mcp

open Driver Lib Lib.Text

/-- A part of the string, with its number. -/
def redactPart (part : Text) (index : Nat) : Text :=
  if index = 0 then part
  else
    match splitAtFirst (· == ' ') part with
    | some (_, rest) => "****".toList ++ rest
    | none => "****".toList

/-- `redact_url`. -/
def redactUrl (url : Text) : Text :=
  "password=".toList.intercalate ((pieces "password=".toList url).zipIdx.map fun indexed =>
    redactPart indexed.1 indexed.2)

section Driver

variable (percentDecode : UrlParser.PercentDecode)

open UrlParser in
/-- The text before a place where the driver reads a password, its characters as
they are written there, and the text after them. -/
inductive PasswordText : Text → Text → Text → Prop where
  | setting {read blanks around behind value password after : Text} {pairs : List (Text × Text)}
      (noUrl : removeUrlPrefix (read ++ (blanks ++ ("password".toList ++
        (around ++ '=' :: (behind ++ (value ++ after)))))) = none)
      (earlier : Items Parser.Setting (read ++ (blanks ++ ("password".toList ++
          (around ++ '=' :: (behind ++ (value ++ after)))))) pairs
        (blanks ++ ("password".toList ++ (around ++ '=' :: (behind ++ (value ++ after))))))
      (blank : Parser.Blank (blanks ++ around)) (behindBlank : Parser.Blank behind)
      (valueText : Parser.ValueText (value ++ after) password after) :
      PasswordText (read ++ (blanks ++ ("password".toList ++ (around ++ '=' :: behind)))) value
        after
  | credentials {scheme user value rest : Text}
      (isUrl : removeUrlPrefix (scheme ++ (user ++ ':' :: (value ++ '@' :: rest))) =
        some (user ++ ':' :: (value ++ '@' :: rest)))
      (noColon : ':' ∉ user) (noAt : '@' ∉ user ++ value) :
      PasswordText (scheme ++ (user ++ [':'])) value ('@' :: rest)
  | query {scheme body front read rawKey value after afterCredentials afterHost : Text}
      {first second third : Config} {pairs : List (Text × Text)}
      (isUrl : removeUrlPrefix (scheme ++ body) = some body)
      (split : body = front ++ '?' :: (read ++ (rawKey ++ '=' :: (value ++ after))))
      (credentials : parseCredentials percentDecode body .new = .ok (afterCredentials, first))
      (host : parseHost percentDecode afterCredentials first = .ok (afterHost, second))
      (path : parsePath percentDecode afterHost second =
        .ok ('?' :: (read ++ (rawKey ++ '=' :: (value ++ after))), third))
      (earlier : Items (QuerySetting percentDecode) (read ++ (rawKey ++ '=' :: (value ++ after)))
        pairs (rawKey ++ '=' :: (value ++ after)))
      (inKey : '=' ∉ rawKey) (inValue : '&' ∉ value)
      (decoded : decode percentDecode rawKey = .ok "password".toList)
      (ends : ∀ char ∈ after.head?, char = '&') :
      PasswordText (scheme ++ (front ++ '?' :: (read ++ (rawKey ++ ['='])))) value after

/-- Two strings that differ only in the characters of their password, and so do
their configurations. -/
structure DifferInPassword (before first second after : Text) : Prop where
  reads : PasswordText percentDecode before first after
  readsOther : PasswordText percentDecode before second after
  configs : ∃ config other,
    Config.fromStr percentDecode (before ++ (first ++ after)) = .ok config ∧
    Config.fromStr percentDecode (before ++ (second ++ after)) = .ok other ∧
    { other with password := config.password } = config

end Driver

end OpenGauss.Mcp
