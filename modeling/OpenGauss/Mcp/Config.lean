import OpenGauss.Gaussdb.Config

/-! Connections that are resolved when they are used (`gaussdb-mcp`, `config.rs`). -/

set_option autoImplicit false

namespace OpenGauss.Mcp

open Driver Gaussdb

/-- The resolver that `build_lazy_resolver` gives a pending entry, with the
keyring's answer for a user name; `none` where it resolves at once or fails. -/
def lazyResolver (readKeyringPassword : Text → Except Text Text) (conn : NamedConnection) :
    Option (Except Text Text) :=
  let keyringUser := conn.keyringUsername
  let isSentinel := conn.password = some keyringSentinel
  let isPlaintext := conn.password.any fun password => password ≠ keyringSentinel
  if isPlaintext || conn.url.isSome then none
  else if conn.host.isNone && conn.user.isNone then none
  else
    some do
      let password ← if isSentinel then some <$> readKeyringPassword keyringUser else pure none
      let parts := part "host" conn.host ++ part "port" (conn.port.map decimal) ++
        part "user" conn.user ++ part "password" password ++ part "dbname" conn.dbname ++
        part "sslmode" conn.sslmode
      return [' '].intercalate parts

end OpenGauss.Mcp
