import OpenGauss.Gaussdb.ConfigProperties
import OpenGauss.Mcp.Config

/-! The connection strings of named connections, from both ways of building them. -/

set_option autoImplicit false

namespace OpenGauss.Mcp

open Driver Gaussdb

/-- A connection with the password that a resolver has read for it. -/
def withKeyringPassword (conn : NamedConnection) (password : Text) : NamedConnection :=
  { conn with password := conn.password.map fun _ => password }

theorem toConnectionUrl_render {conn : NamedConnection} {dsn : Text} (noUrl : conn.url = none)
    (built : conn.toConnectionUrl = some dsn) :
    (conn.host.isSome || conn.user.isSome) ∧ dsn = Parser.render conn.parameters := by
  rw [NamedConnection.toConnectionUrl, noUrl] at built
  dsimp only at built
  split at built
  · cases built
  · rename_i given
    rw [parts_render, Option.some.injEq] at built
    refine ⟨?_, built.symm⟩
    cases host : conn.host <;> cases user : conn.user <;> simp_all

theorem lazyResolver_render {conn : NamedConnection} {password dsn : Text}
    (built : lazyResolver (fun _ => .ok password) conn = some (.ok dsn)) :
    (conn.host.isSome || conn.user.isSome) ∧
      dsn = Parser.render (withKeyringPassword conn password).parameters := by
  rw [lazyResolver] at built
  dsimp only at built
  split at built
  · cases built
  rename_i lazy
  split at built
  · cases built
  rename_i given
  have parts := parts_render (withKeyringPassword conn password)
  refine ⟨by cases host : conn.host <;> cases user : conn.user <;> simp_all, ?_⟩
  rw [← parts, withKeyringPassword]
  dsimp only
  cases stored : conn.password with
  | none =>
      rw [stored] at built
      exact (Except.ok.inj (Option.some.inj built)).symm
  | some sentinel =>
      have isSentinel : sentinel = keyringSentinel := by
        by_contra other
        simp [stored, other] at lazy
      rw [stored, isSentinel] at built
      exact (Except.ok.inj (Option.some.inj built)).symm

/-- Either connection string is read back as its connection exactly when the
connection is plain. -/
theorem connectionStrings_roundTrip_iff (percentDecode : UrlParser.PercentDecode)
    (conn : NamedConnection) (noUrl : conn.url = none) :
    (∀ dsn, conn.toConnectionUrl = some dsn →
      (conn.RoundTrips percentDecode dsn ↔ conn.Plain)) ∧
    ∀ password dsn, lazyResolver (fun _ => .ok password) conn = some (.ok dsn) →
      ((withKeyringPassword conn password).RoundTrips percentDecode dsn ↔
        (withKeyringPassword conn password).Plain) := by
  refine ⟨fun dsn built => ?_, fun password dsn built => ?_⟩
  · obtain ⟨given, rfl⟩ := toConnectionUrl_render noUrl built
    exact roundTrips_render percentDecode given
  · obtain ⟨given, rfl⟩ := lazyResolver_render built
    exact roundTrips_render percentDecode given

/-- A connection whose password is a harmless one, there and in the keyring. -/
private def plainConnection : NamedConnection :=
  { name := "main".toList, host := some "db.local".toList, port := some 5432,
    user := some "app".toList, password := some keyringSentinel, dbname := some "orders".toList,
    sslmode := some "require".toList }

theorem connectionStrings_roundTrip_iff_plain :
    (∃ dsn, plainConnection.toConnectionUrl = some dsn ∧ plainConnection.RoundTrips id dsn) ∧
      ∃ dsn, lazyResolver (fun _ => .ok "p=w'd".toList) plainConnection = some (.ok dsn) ∧
        (withKeyringPassword plainConnection "p=w'd".toList).RoundTrips id dsn := by
  obtain ⟨eager, resolved⟩ := connectionStrings_roundTrip_iff id plainConnection rfl
  exact ⟨⟨_, rfl, (eager _ rfl).mpr (by decide)⟩, ⟨_, rfl, (resolved _ _ rfl).mpr (by decide)⟩⟩

/-- The password ends at its blank, and turns TLS off. -/
private def leaking : NamedConnection :=
  { host := some "db.local".toList, user := some "app".toList,
    password := some "secret sslmode=disable".toList }

theorem not_roundTrips_leaking :
    ¬ ∀ (conn : NamedConnection) (dsn : Text), conn.url = none → conn.toConnectionUrl = some dsn →
      conn.RoundTrips id dsn := by
  intro roundTrips
  have leaks := roundTrips leaking (Parser.render leaking.parameters) rfl
    (congrArg some (parts_render leaking))
  exact absurd ((roundTrips_render id (by decide)).mp leaks) (by decide)

end OpenGauss.Mcp
