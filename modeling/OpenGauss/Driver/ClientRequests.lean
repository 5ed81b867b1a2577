import OpenGauss.Driver.WriteSide

/-! What a client writes for its requests (`tokio-opengauss`: `client.rs`,
`query.rs`, `prepare.rs`, `bind.rs`, `simple_query.rs`, and the drops of
statements and portals), all of it through one buffer. -/

set_option autoImplicit false

namespace OpenGauss.Driver

open Lib Protocol FrontendBuffer

/-- A `BorrowToSql`. It appends the value to the buffer, and nothing for a null,
as the trait demands. -/
structure ToSql (Ty : Type) where
  encodeFormat : Ty → Int16
  toSqlChecked : Ty → Put BoxError IsNull
  extending : ∀ ty, Builder.Extends (toSqlChecked ty)
  nullEmpty : ∀ ty buf after, Builder.Ok (toSqlChecked ty) buf .yes after → after = buf

/-- `Type::oid`. -/
class HasOid (Ty : Type) where
  oid : Ty → UInt32

export HasOid (oid)

/-- A name that the driver counts up: `format!("{start}{id}")`. -/
def numberedName (start : Char) (id : UInt64) : Str := start :: Nat.toDigits 10 id.toNat

/-- A statement, unnamed or with the number of its name. -/
structure Statement (Ty : Type) where
  id : Option UInt64
  params : List Ty

def Statement.name {Ty : Type} (statement : Statement Ty) : Str :=
  match statement.id with
  | none => []
  | some id => numberedName 's' id

structure Portal where
  id : UInt64

def Portal.name (portal : Portal) : Str := numberedName 'p' portal.id

/-- The errors of `Error` that only encoding has, besides the others. -/
inductive EncodeError where
  | driver (cause : Error)
  | toSql (cause : BoxError) (idx : Nat)
  | parameters (real expected : Nat)
  deriving DecidableEq

section

variable {Ty : Type}

/-- `map_err` on a builder. -/
def mapIo (convert : IoError → Error) (build : Put IoError Unit) : Put EncodeError Unit :=
  Builder.mapError (fun error => .driver (convert error)) build

/-- `unwrap` on a builder, and the builders that do so themselves. -/
def unwrapped (build : Put IoError Unit) : Put EncodeError Unit := mapIo (fun _ => .unreachable) build

/-- `buf.split().freeze()`. -/
def split : Put EncodeError Bytes := do
  let buf ← get
  set ([] : Bytes)
  return buf

/-- The closure that `encode_bind_raw` gives to `bind`. -/
def paramSerializer : Serializer Unit (ToSql Ty × Ty) IsNull BoxError := fun _ param => do
  return (← param.1.toSqlChecked param.2, ())

/-- `error_idx` after the closure has been called for the parameters: the index
of the one that failed. -/
def errorIdx : List (ToSql Ty × Ty) → Nat → Bytes → Nat
  | [], _, _ => 0
  | param :: params, idx, buf =>
      match (paramSerializer () param).execute (buf ++ be32 0) with
      | (.error _, _) => idx
      | (.ok _, _) =>
          match (writeNullable (paramSerializer () param)).execute buf with
          | (.error _, _) => 0
          | (.ok _, buf) => errorIdx params (idx + 1) buf

/-- What `bind` writes before the values. -/
def beforeValues (portal statement : Str) (formats : List Int16) : Put IoError Unit := do
  putU8 66
  putSlice [0, 0, 0, 0]
  writeCstr (asBytes portal)
  writeCstr (asBytes statement)
  writeCounted formats (plain putI16) ()
  putSlice [0, 0]

/-- The conversion of the errors of `bind`. -/
def bindError (idx : Nat) : BindError → EncodeError
  | .conversion error => .toSql error idx
  | .serialization error => .driver (.encode error)

def encodeBindRaw (statementName : Str) (params : List (ToSql Ty × Ty)) (portal : Str) :
    Put EncodeError Unit := do
  let buf ← get
  let paramFormats := params.map fun param => param.1.encodeFormat param.2
  let idx := errorIdx params 0 ((beforeValues portal statementName paramFormats).execute buf).2
  Builder.mapError (bindError idx)
    (FrontendBuffer.bind portal statementName paramFormats params paramSerializer () [1])

def encodeBind (statement : Statement Ty) (params : List (ToSql Ty)) (portal : Str) :
    Put EncodeError Unit :=
  if params.length ≠ statement.params.length then
    throw (.parameters params.length statement.params.length)
  else encodeBindRaw statement.name (params.zip statement.params) portal

/-- `query::encode`. -/
def encodeQuery (statement : Statement Ty) (params : List (ToSql Ty)) : Put EncodeError Bytes := do
  encodeBind statement params []
  mapIo .encode (FrontendBuffer.execute [] 0)
  unwrapped sync
  split

/-- The closure of `query_portal`. -/
def encodePortal (portal : Portal) (maxRows : Int32) : Put EncodeError Bytes := do
  mapIo .encode (FrontendBuffer.execute portal.name maxRows)
  unwrapped sync
  split

/-- `simple_query::encode`. -/
def encodeSimple (query : Str) : Put EncodeError Bytes := do
  mapIo .encode (FrontendBuffer.query query)
  split

/-- The closure of `bind::bind`. -/
def encodePortalBind (statement : Statement Ty) (params : List (ToSql Ty)) (name : Str) :
    Put EncodeError Bytes := do
  encodeBind statement params name
  unwrapped sync
  split

/-- The closure in the drop of a statement (`b'S'`) or of a portal (`b'P'`). -/
def encodeClose (variant : UInt8) (name : Str) : Put EncodeError Bytes := do
  unwrapped (FrontendBuffer.close variant name)
  unwrapped sync
  split

variable [HasOid Ty]

/-- The closure of `query_typed` and of `execute_typed`. -/
def encodeTyped (query : Str) (params : List (ToSql Ty × Ty)) : Put EncodeError Bytes := do
  mapIo .parse (FrontendBuffer.parse [] query (params.map fun param => oid param.2))
  encodeBindRaw [] params []
  mapIo .encode (FrontendBuffer.describe 83 [])
  mapIo .encode (FrontendBuffer.execute [] 0)
  unwrapped sync
  split

/-- `prepare::encode`. -/
def encodePrepare (name query : Str) (types : List Ty) : Put EncodeError Bytes := do
  mapIo .encode (FrontendBuffer.parse name query (types.map oid))
  mapIo .encode (FrontendBuffer.describe 83 name)
  unwrapped sync
  split

end

/-- The requests of a client that it encodes with its buffer. An unnamed
statement is not closed. -/
inductive ClientRequest (Ty : Type) where
  | query (statement : Statement Ty) (params : List (ToSql Ty))
  | execute (statement : Statement Ty) (params : List (ToSql Ty))
  | queryTyped (query : Str) (params : List (ToSql Ty × Ty))
  | executeTyped (query : Str) (params : List (ToSql Ty × Ty))
  | queryPortal (portal : Portal) (maxRows : Int32)
  | prepare (id : UInt64) (query : Str) (types : List Ty)
  | simpleQuery (query : Str)
  | batchExecute (query : Str)
  | bind (id : UInt64) (statement : Statement Ty) (params : List (ToSql Ty))
  | closeStatement (id : UInt64)
  | closePortal (portal : Portal)

section

variable {Ty : Type} [HasOid Ty]

/-- What a request does with the buffer. -/
def ClientRequest.encode : ClientRequest Ty → Put EncodeError Bytes
  | .query statement params | .execute statement params => encodeQuery statement params
  | .queryTyped text params | .executeTyped text params => encodeTyped text params
  | .queryPortal portal maxRows => encodePortal portal maxRows
  | .prepare id text types => encodePrepare (numberedName 's' id) text types
  | .simpleQuery text | .batchExecute text => encodeSimple text
  | .bind id statement params => encodePortalBind statement params (numberedName 'p' id)
  | .closeStatement id => encodeClose 83 (numberedName 's' id)
  | .closePortal portal => encodeClose 80 portal.name

end

/-- `InnerClient`: the sending half of the request channel, and the buffer. -/
structure InnerClient where
  sender : List (Connection.Request RequestMessages) := []
  /-- The connection is gone. -/
  closed : Bool := false
  buffer : Bytes := []

namespace InnerClient

/-- `with_buf`. -/
def withBuf {Answer : Type} (self : InnerClient) (f : Bytes → Answer × Bytes) :
    Answer × InnerClient :=
  let (answer, _) := f self.buffer
  -- whatever the closure leaves is cleared
  (answer, { self with buffer := [] })

def send (self : InnerClient) (messages : RequestMessages) : Except Error Unit × InnerClient :=
  if self.closed then (.error .closed, self)
  else (.ok (), { self with sender := self.sender ++ [⟨messages, self.sender.length⟩] })

end InnerClient

/-! ### Clones of one client -/

namespace ClientRequests

/-- The client, what its handles have encoded and not sent yet, and what they
have sent. -/
structure System (Ty : Type) where
  client : InnerClient := {}
  encoded : List (ClientRequest Ty × Bytes) := []
  sent : List (ClientRequest Ty × Bytes) := []

inductive Event (Ty : Type) where
  /-- A handle encodes a request, with the buffer to itself. -/
  | encode (request : ClientRequest Ty)
  /-- A handle sends what it has encoded. -/
  | send (index : Nat)
  | connectionGone

variable {Ty : Type} [HasOid Ty]

def step (system : System Ty) : Event Ty → Option (System Ty)
  | .encode request =>
      let (answer, client) := system.client.withBuf request.encode.execute
      match answer with
      | .error _ => some { system with client }
      | .ok buf => some { system with client, encoded := system.encoded ++ [(request, buf)] }
  | .send index =>
      match system.encoded[index]? with
      | none => none
      | some (request, buf) =>
          let (answer, client) := system.client.send (.single (.raw buf))
          some { system with
            client
            encoded := system.encoded.eraseIdx index
            sent := match answer with
              | .ok () => system.sent ++ [(request, buf)]
              | .error _ => system.sent }
  | .connectionGone => some { system with client := { system.client with closed := true } }

end ClientRequests

end OpenGauss.Driver
