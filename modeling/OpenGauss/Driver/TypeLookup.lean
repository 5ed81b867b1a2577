import OpenGauss.Lib.Routines
import OpenGauss.Types.Builtins
import Mathlib.Data.List.Sort

/-! Looking a type up (`tokio-opengauss`, `prepare.rs` and `client.rs`): `get_type` asks the
catalog, through statements whose own preparation looks types up. -/

set_option autoImplicit false

namespace OpenGauss.Driver.TypeLookup

open Lib OpenGauss.Types

/-! ### The catalog -/

/-- A row of `pg_type`. -/
structure TypeRow where
  oid : UInt32
  typname : String
  typtype : Int8
  typelem : UInt32
  typbasetype : UInt32
  typnamespace : UInt32
  typrelid : UInt32
  deriving DecidableEq

/-- A row of `pg_namespace`. -/
structure SchemaRow where
  oid : UInt32
  nspname : String
  deriving DecidableEq

/-- A row of `pg_range`. -/
structure RangeRow where
  rngtypid : UInt32
  rngsubtype : UInt32
  deriving DecidableEq

/-- A row of `pg_enum`. -/
structure EnumRow where
  oid : UInt32
  enumtypid : UInt32
  enumlabel : String
  enumsortorder : Rat
  deriving DecidableEq

/-- A row of `pg_attribute`. -/
structure AttributeRow where
  attrelid : UInt32
  attname : String
  atttypid : UInt32
  attnum : Int
  attisdropped : Bool
  deriving DecidableEq

/-- The catalog of a server. Older ones have no `pg_range`, or no `enumsortorder`. -/
structure Tables where
  types : List TypeRow
  schemas : List SchemaRow
  ranges : List RangeRow
  enums : List EnumRow
  attributes : List AttributeRow
  rangeTable : Bool
  sortOrder : Bool

/-- The queries of `prepare.rs`, without the text. -/
inductive Query where
  | typeinfo
  | typeinfoFallback
  | enum
  | enumFallback
  | composite
  deriving DecidableEq

/-- The errors that a lookup tells apart; `outOfFuel` is none of the code. -/
inductive Error where
  | unexpectedMessage
  | undefinedTable
  | undefinedColumn
  | outOfFuel
  deriving DecidableEq

/-- A row that `TYPEINFO_QUERY` or its fallback answers. -/
structure TypeInfo where
  typname : String
  typtype : Int8
  typelem : UInt32
  rngsubtype : Option UInt32
  typbasetype : UInt32
  nspname : String
  typrelid : UInt32
  deriving DecidableEq

namespace Tables

variable (tables : Tables)

/-- The types of the parameters and columns of a query, as the server describes them. -/
def describe : Query → Except Error (List UInt32 × List UInt32)
  | .typeinfo =>
      if tables.rangeTable then .ok ([26], [19, 18, 26, 26, 26, 19, 26])
      else .error .undefinedTable
  | .typeinfoFallback => .ok ([26], [19, 18, 26, 26, 26, 19, 26])
  | .enum => if tables.sortOrder then .ok ([26], [19]) else .error .undefinedColumn
  | .enumFallback => .ok ([26], [19])
  | .composite => .ok ([26], [19, 26])

/-- The left join with `pg_range`. -/
def rngsubtypes (query : Query) (oid : UInt32) : List (Option UInt32) :=
  let joined := tables.ranges.filter fun range => range.rngtypid == oid
  if query = .typeinfo ∧ joined ≠ [] then joined.map fun range => some range.rngsubtype
  else [none]

/-- What `TYPEINFO_QUERY` or its fallback answers. -/
def typeinfo (query : Query) (oid : UInt32) : List TypeInfo :=
  (tables.types.filter fun t => t.oid == oid).flatMap fun t =>
    (tables.schemas.filter fun n => n.oid == t.typnamespace).flatMap fun n =>
      (tables.rngsubtypes query t.oid).map fun rngsubtype =>
        { typname := t.typname
          typtype := t.typtype
          typelem := t.typelem
          rngsubtype
          typbasetype := t.typbasetype
          nspname := n.nspname
          typrelid := t.typrelid }

/-- The key of `ORDER BY` in `TYPEINFO_ENUM_QUERY` or its fallback. -/
def enumKey (query : Query) (row : EnumRow) : Rat :=
  if query = .enum then row.enumsortorder else row.oid.toNat

def enumRows (query : Query) (oid : UInt32) : List EnumRow :=
  (tables.enums.filter fun row => row.enumtypid == oid).insertionSort
    fun first second => enumKey query first ≤ enumKey query second

/-- What `TYPEINFO_COMPOSITE_QUERY` answers. -/
def columnRows (oid : UInt32) : List AttributeRow :=
  (tables.attributes.filter fun row => row.attrelid == oid && !row.attisdropped && 0 < row.attnum)
    |>.insertionSort fun first second => first.attnum ≤ second.attnum

end Tables

/-! ### The client -/

structure Statement where
  id : Nat
  query : Query
  params : List PgType
  columns : List PgType

/-- `CachedTypeInfo`, with the counter of statement names beside it. -/
structure Client where
  nextId : Nat
  typeinfo : Option Statement
  typeinfoComposite : Option Statement
  typeinfoEnum : Option Statement
  types : List (UInt32 × PgType)

namespace Client

def new (nextId : Nat) : Client := ⟨nextId, none, none, none, []⟩

def type_ (client : Client) (oid : UInt32) : Option PgType := client.types.lookup oid

def setType (client : Client) (oid : UInt32) (type_ : PgType) : Client :=
  { client with types := (oid, type_) :: client.types }

def clearTypeCache (client : Client) : Client := { client with types := [] }

end Client

abbrev Lookup (Value : Type) := Routine Client Error Value

section

variable (tables : Tables) (getTypeRec : UInt32 → Lookup PgType)

/-- The loops of `prepare`. -/
def getTypes : List UInt32 → Lookup (List PgType)
  | [] => return []
  | oid :: oids => do
      let type_ ← getTypeRec oid
      let types ← getTypes oids
      return type_ :: types

/-- `NEXT_ID.fetch_add(1)`. -/
def fetchId : Lookup Nat := do
  let client ← get
  modify fun client => { client with nextId := client.nextId + 1 }
  return client.nextId

def prepare (query : Query) : Lookup Statement := do
  let id ← fetchId
  let (parameters, columns) ← liftM (tables.describe query)
  let params ← getTypes getTypeRec parameters
  let columns ← getTypes getTypeRec columns
  return { id, query, params, columns }

/-- `prepare_rec`, with another query where the server does not know something. -/
def prepareOr (query fallback : Query) (unknown : Error) : Lookup Statement :=
  tryCatch (prepare tables getTypeRec query) fun error =>
    if error = unknown then prepare tables getTypeRec fallback else throw error

/-- The statement that the client has, or the one that it then prepares and keeps. -/
def cachedStatement (cached : Client → Option Statement) (store : Statement → Client → Client)
    (prepared : Lookup Statement) : Lookup Statement := do
  match cached (← get) with
  | some stmt => return stmt
  | none =>
      let stmt ← prepared
      modify (store stmt)
      return stmt

def typeinfoStatement : Lookup Statement :=
  cachedStatement Client.typeinfo (fun stmt client => { client with typeinfo := some stmt })
    (prepareOr tables getTypeRec .typeinfo .typeinfoFallback .undefinedTable)

def typeinfoEnumStatement : Lookup Statement :=
  cachedStatement Client.typeinfoEnum (fun stmt client => { client with typeinfoEnum := some stmt })
    (prepareOr tables getTypeRec .enum .enumFallback .undefinedColumn)

def typeinfoCompositeStatement : Lookup Statement :=
  cachedStatement Client.typeinfoComposite
    (fun stmt client => { client with typeinfoComposite := some stmt })
    (prepare tables getTypeRec .composite)

def getEnumVariants (oid : UInt32) : Lookup (List String) := do
  let stmt ← typeinfoEnumStatement tables getTypeRec
  return (tables.enumRows stmt.query oid).map EnumRow.enumlabel

/-- The loop of `get_composite_fields`. -/
def getFields : List AttributeRow → Lookup (List (PgField PgType))
  | [] => return []
  | row :: rows => do
      let type_ ← getTypeRec row.atttypid
      let fields ← getFields rows
      return ⟨row.attname, type_⟩ :: fields

def getCompositeFields (oid : UInt32) : Lookup (List (PgField PgType)) := do
  let _stmt ← typeinfoCompositeStatement tables getTypeRec
  getFields getTypeRec (tables.columnRows oid)

/-- The kind of a row, in the order in which `get_type` looks at its columns: `b'e'` and
`b'p'` first. -/
def getKind (oid : UInt32) (row : TypeInfo) : Lookup (Kind PgType) :=
  if row.typtype = 101 then do
    let variants ← getEnumVariants tables getTypeRec oid
    return .enum variants
  else if row.typtype = 112 then return .pseudo
  else if row.typbasetype ≠ 0 then do
    let type_ ← getTypeRec row.typbasetype
    return .domain type_
  else if row.typelem ≠ 0 then do
    let type_ ← getTypeRec row.typelem
    return .array type_
  else if row.typrelid ≠ 0 then do
    let fields ← getCompositeFields tables getTypeRec row.typrelid
    return .composite fields
  else
    match row.rngsubtype with
    | some rngsubtype => do
        let type_ ← getTypeRec rngsubtype
        return .range type_
    | none => return .simple

/-- The part of `get_type` that asks the server. -/
def askType (oid : UInt32) : Lookup PgType := do
  let stmt ← typeinfoStatement tables getTypeRec
  match tables.typeinfo stmt.query oid with
  | [] => throw .unexpectedMessage
  | row :: _ =>
      let kind ← getKind tables getTypeRec oid row
      let type_ := PgType.new row.typname oid kind row.nspname
      modify fun client => client.setType oid type_
      return type_

/-- The body of `get_type`. -/
def getTypeOnce (oid : UInt32) : Lookup PgType :=
  match fromOid oid with
  | some type_ => return type_
  | none => do
      match (← get).type_ oid with
      | some type_ => return type_
      | none => askType tables getTypeRec oid

end

/-- `get_type`, which calls itself as deep as the fuel goes. -/
def getType (tables : Tables) : Nat → UInt32 → Lookup PgType
  | 0, _ => throw .outOfFuel
  | fuel + 1, oid => getTypeOnce tables (getType tables fuel) oid

end OpenGauss.Driver.TypeLookup
