import OpenGauss.Driver.Config

/-! Named connections (`gaussdb`, `config.rs`) and the connection strings made
from them. -/

set_option autoImplicit false

namespace OpenGauss.Gaussdb

open Driver Lib.Text

inductive SslMode where
  | disable
  | prefer
  | require
  | verifyCa
  | verifyFull
  deriving DecidableEq, Repr

def keyringSentinel : Text := "keyring".toList

structure NamedConnection where
  name : Text := []
  url : Option Text := none
  host : Option Text := none
  port : Option UInt16 := none
  user : Option Text := none
  password : Option Text := none
  dbname : Option Text := none
  sslmode : Option Text := none
  deriving DecidableEq, Repr

/-- `format!("{}={}", key, value)` for a field that is given. -/
def part (key : String) (value : Option Text) : List Text :=
  match value with
  | some value => [key.toList ++ '=' :: value]
  | none => []

/-- The `Display` of a number. -/
def decimal (number : UInt16) : Text := (toString number.toNat).toList

namespace NamedConnection

def keyringUsername (conn : NamedConnection) : Text :=
  match conn.user, conn.host, conn.dbname with
  | some user, some host, some dbname => user ++ '@' :: host ++ '/' :: dbname
  | some user, some host, none => user ++ '@' :: host
  | some user, none, _ => user
  | none, _, _ => "default".toList

def toConnectionUrl (conn : NamedConnection) : Option Text :=
  match conn.url with
  | some url => some url
  | none =>
      if conn.host.isNone && conn.user.isNone then none
      else
        let parts := part "host" conn.host ++ part "port" (conn.port.map decimal) ++
          part "user" conn.user ++ part "password" conn.password ++ part "dbname" conn.dbname ++
          part "sslmode" conn.sslmode
        some ([' '].intercalate parts)

end NamedConnection

end OpenGauss.Gaussdb
