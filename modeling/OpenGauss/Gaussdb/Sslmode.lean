import OpenGauss.Gaussdb.Config

/-! The mode of a connection string or of a setting (`gaussdb`, `config.rs`). -/

set_option autoImplicit false

namespace OpenGauss.Gaussdb

open Driver Lib.Text

/-- `str::split_whitespace`. -/
def splitWhitespace (text : Text) : List Text :=
  (text.splitOnP isWhitespace).filter fun word => !word.isEmpty

/-- `to_lowercase` on the letters of the modes. No character outside ASCII has
one of these letters as its lower case. -/
def toLowercase (text : Text) : Text := text.map Char.toLower

def sslmodeFromValue (val : Option Text) : SslMode :=
  match val.map fun value => String.ofList (toLowercase (trim value)) with
  | some "disable" => .disable
  | some "prefer" => .prefer
  | some "require" => .require
  | some "verify-ca" => .verifyCa
  | some "verify_ca" => .verifyCa
  | some "verify-full" => .verifyFull
  | some "verify_full" => .verifyFull
  | _ => .disable

/-- The text behind `sslmode=`, of the first piece that starts so. -/
def firstSslmode (pieces : List Text) : Option Text :=
  pieces.findSome? (stripPrefix? "sslmode=".toList)

def sslmodeFromUrl (dsn : Text) : SslMode :=
  match (dsn.splitOn '?')[1]?.bind fun query => firstSslmode (query.splitOn '&') with
  | some value => sslmodeFromValue (some value)
  | none =>
      match firstSslmode (splitWhitespace dsn) with
      | some value => sslmodeFromValue (some value)
      | none => .disable

end OpenGauss.Gaussdb
