import OpenGauss.Gaussdb.MultiConfig
import OpenGauss.Lib.Toml

/-! Reading a configuration from a document, as `serde` derives it for
`MultiConfig` and `NamedConnection` (`gaussdb`, `config.rs`). Keys that are not
known are passed over. -/

set_option autoImplicit false

namespace OpenGauss.Gaussdb

open Driver Lib.Toml

/-- What stands at a path: a table, too, where only something below it is listed. -/
def itemAt (items : Flat Scalar) (path : Path) : Option (Item Scalar) :=
  match items.lookup path with
  | some item => some item
  | none => if items.any fun item => path.isPrefixOf item.1 then some .table else none

/-- `Option<String>`. -/
def stringAt (items : Flat Scalar) (path : Path) : Option (Option Text) :=
  match itemAt items path with
  | none => some none
  | some (.scalar (.string value)) => some (some value)
  | some _ => none

/-- `Option<u16>`. -/
def portAt (items : Flat Scalar) (path : Path) : Option (Option UInt16) :=
  match itemAt items path with
  | none => some none
  | some (.scalar (.integer value)) =>
      if 0 ≤ value ∧ value < 2 ^ 16 then some (some (UInt16.ofNat value.toNat)) else none
  | some _ => none

def keyBelow (path : Path) (name : String) : Path := path ++ [.key name.toList]

/-- `NamedConnection`, whose name is not read. -/
def connectionAt (items : Flat Scalar) (path : Path) : Option TimedConnection := do
  let url ← stringAt items (keyBelow path "url")
  let host ← stringAt items (keyBelow path "host")
  let port ← portAt items (keyBelow path "port")
  let user ← stringAt items (keyBelow path "user")
  let password ← stringAt items (keyBelow path "password")
  let dbname ← stringAt items (keyBelow path "dbname")
  let sslmode ← stringAt items (keyBelow path "sslmode")
  let statementTimeout ← stringAt items (keyBelow path "statement_timeout")
  let connectionMaxLifetime ← stringAt items (keyBelow path "connection_max_lifetime")
  let timeoutAction ← stringAt items (keyBelow path "timeout_action")
  return { url, host, port, user, password, dbname, sslmode, statementTimeout,
           connectionMaxLifetime, timeoutAction }

def isTable (item : Option (Item Scalar)) : Bool :=
  match item with
  | some .table => true
  | _ => false

/-- A value of the table `connections`. -/
def sectionAt (items : Flat Scalar) (name : Text) : Option TimedConnection :=
  if isTable (itemAt items (keyBelow [] "connections" ++ [.key name])) then
    connectionAt items (keyBelow [] "connections" ++ [.key name])
  else none

/-- A name in its place among others, once. -/
def insertName (name : Text) : List Text → List Text
  | [] => [name]
  | other :: names =>
      if name < other then name :: other :: names
      else if name = other then other :: names
      else other :: insertName name names

/-- The key of a path below `connections`. -/
def nameOf (path : Path) : Option Text :=
  match path with
  | .key first :: .key name :: _ => if first = "connections".toList then some name else none
  | _ => none

def connectionNames (items : Flat Scalar) : List Text :=
  (items.filterMap fun item => nameOf item.1).foldr insertName []

theorem mem_insertName {name other : Text} {names : List Text} :
    other ∈ insertName name names ↔ other = name ∨ other ∈ names := by
  induction names with
  | nil => simp [insertName]
  | cons first names ih =>
      rw [insertName]
      split
      · exact List.mem_cons
      · split
        · rename_i same
          subst same
          simp
        · rw [List.mem_cons, ih, List.mem_cons]
          exact or_left_comm

theorem insertName_sorted {name : Text} {names : List Text} (sorted : names.Pairwise (· < ·)) :
    (insertName name names).Pairwise (· < ·) := by
  induction names with
  | nil => exact List.pairwise_singleton _ _
  | cons first names ih =>
      obtain ⟨above, rest⟩ := List.pairwise_cons.mp sorted
      rw [insertName]
      split
      · rename_i before
        refine List.pairwise_cons.mpr ⟨fun other member => ?_, sorted⟩
        rcases List.mem_cons.mp member with rfl | member
        · exact before
        · exact List.lt_trans before (above other member)
      · split
        · exact sorted
        · rename_i notBefore different
          refine List.pairwise_cons.mpr ⟨fun other member => ?_, ih rest⟩
          rcases mem_insertName.mp member with rfl | member
          · rcases List.le_iff_lt_or_eq.mp (List.not_lt.mp notBefore) with before | same
            · exact before
            · exact absurd same.symm different
          · exact above other member

theorem connectionNames_sorted (items : Flat Scalar) :
    (connectionNames items).Pairwise (· < ·) := by
  rw [connectionNames]
  induction items.filterMap fun item => nameOf item.1 with
  | nil => exact .nil
  | cons name names ih => exact insertName_sorted ih

/-- `MultiConfig`. -/
def deserialize (items : Flat Scalar) : Option TimedMultiConfig := do
  let flat ← connectionAt items []
  let defaultConnection ← stringAt items (keyBelow [] "default_connection")
  let connections := itemAt items (keyBelow [] "connections")
  guard (connections = none ∨ isTable connections)
  guard (∀ name ∈ connectionNames items, (sectionAt items name).isSome)
  return { flat
           defaultConnection
           connections := (connectionNames items).map fun name =>
             (name, (sectionAt items name).getD {})
           sorted := by
             rw [List.map_map]
             exact (List.map_id _).symm ▸ connectionNames_sorted items }

end OpenGauss.Gaussdb
