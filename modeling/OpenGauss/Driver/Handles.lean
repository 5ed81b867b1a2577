import OpenGauss.Driver.ClientRequests
import OpenGauss.Lib.Lifecycle

/-! The handles of a client (`tokio-opengauss`: `statement.rs`, `portal.rs`, `prepare.rs`, `bind.rs`,
`query.rs`): reference counts, and the requests that the last one of them sends when it is dropped. -/

set_option autoImplicit false

namespace OpenGauss.Driver.Handles

open Lib Protocol FrontendBuffer

/-- Who owns a statement: a handle or a future of the client, or a portal, from `bind` on. -/
inductive Holder where
  | handle
  | portal (id : UInt64)
  deriving DecidableEq

/-- The shared part of a statement or of a portal, with its owners. -/
structure Handle (Label : Type) where
  /-- The request that makes it has been sent and is not answered yet. -/
  awaiting : Bool := false
  created : Bool := false
  owners : List (Owner Label) := []

/-- A client among threads, each of which can be between encoding and sending a request. -/
structure System (Ty : Type) where
  /-- How often the counters of the names have been used. -/
  statementIds : Nat := 0
  portalIds : Nat := 0
  unsent : Nat → Option (ClientRequest Ty) := fun _ => none
  sent : List (ClientRequest Ty) := []
  statements : UInt64 → Handle Holder := fun _ => {}
  portals : UInt64 → Handle Unit := fun _ => {}
  statementOf : UInt64 → Option UInt64 := fun _ => none
  /-- The `InnerClient` is gone. -/
  clientGone : Bool := false
  connectionGone : Bool := false

inductive Event (Ty : Type) where
  | prepare (thread : Nat) (query : Str) (types : List Ty)
  /-- The answer to `prepare`, or its future is dropped. -/
  | prepared (id : UInt64) (ok : Bool)
  | query (thread : Nat) (id : UInt64) (types : List Ty) (params : List (ToSql Ty))
  | execute (thread : Nat) (id : UInt64) (types : List Ty) (params : List (ToSql Ty))
  | bind (thread : Nat) (id : UInt64) (types : List Ty) (params : List (ToSql Ty))
  /-- The answer to `bind`, or its future is dropped. -/
  | bound (id : UInt64) (ok : Bool)
  | queryPortal (thread : Nat) (portal : Portal) (maxRows : Int32)
  | simpleQuery (thread : Nat) (query : Str)
  | batchExecute (thread : Nat) (query : Str)
  | queryTyped (thread : Nat) (query : Str) (params : List (ToSql Ty × Ty))
  | executeTyped (thread : Nat) (query : Str) (params : List (ToSql Ty × Ty))
  /-- A thread sends what it has encoded. -/
  | send (thread : Nat)
  | cloneStatement (id : UInt64)
  | clonePortal (id : UInt64)
  | dropStatement (thread : Nat) (id : UInt64)
  | dropPortal (thread : Nat) (id : UInt64)
  | clientGone
  | connectionGone
  /-- Another client takes a name. -/
  | otherStatement
  | otherPortal

section

variable {Ty : Type} (system : System Ty)

def System.pend (thread : Nat) (request : ClientRequest Ty) : System Ty :=
  { system with unsent := Function.update system.unsent thread (some request) }

/-- `NEXT_ID.fetch_add` of `prepare.rs`. -/
def System.nextStatement : System Ty := { system with statementIds := system.statementIds + 1 }

/-- `NEXT_ID.fetch_add` of `bind.rs`. -/
def System.nextPortal : System Ty := { system with portalIds := system.portalIds + 1 }

/-- The request of a thread is in the queue, unless the connection is gone. -/
def System.sentOff (thread : Nat) (request : ClientRequest Ty) : System Ty :=
  { system with
    unsent := Function.update system.unsent thread none
    sent := if system.connectionGone then system.sent else system.sent ++ [request] }

def System.setStatement (id : UInt64) (handle : Handle Holder) : System Ty :=
  { system with statements := Function.update system.statements id handle }

def System.setPortal (id : UInt64) (handle : Handle Unit) : System Ty :=
  { system with portals := Function.update system.portals id handle }

def Handle.own {Label : Type} (self : Handle Label) (owners : List (Owner Label)) : Handle Label :=
  { self with owners }

/-- An owner of a statement in the place of another. -/
def System.passStatement (id : UInt64) (before after : Owner Holder) : System Ty :=
  let handle := system.statements id
  system.setStatement id (handle.own (after :: handle.owners.erase before))

def System.passPortal (id : UInt64) (before after : Owner Unit) : System Ty :=
  let handle := system.portals id
  system.setPortal id (handle.own (after :: handle.owners.erase before))

/-- A portal lets its statement go, which its thread drops next. -/
def System.letGo (id : UInt64) : System Ty :=
  match system.statementOf id with
  | none => system
  | some statement => system.passStatement statement (.other (.portal id)) (.other .handle)

/-- The thread that has used a statement passes it on. -/
def System.used (thread : Nat) (statement : Statement Ty) (after : Holder) : System Ty :=
  match statement.id with
  | none => system
  | some id => system.passStatement id (.thread thread) (.other after)

/-- The portal has been asked for and keeps the statement. -/
def System.asked (id : UInt64) (statement : Statement Ty) : System Ty :=
  { system.setPortal id { system.portals id with awaiting := true } with
    statementOf := Function.update system.statementOf id statement.id }

/-- What sending a request does with the handles, besides the queue. -/
def System.afterSend (thread : Nat) : ClientRequest Ty → System Ty
  | .prepare id _ _ =>
      if system.connectionGone then system
      else system.setStatement id { system.statements id with awaiting := true }
  | .query statement _ | .execute statement _ => system.used thread statement .handle
  | .bind id statement _ =>
      if system.connectionGone then system.used thread statement .handle
      else (system.used thread statement (.portal id)).asked id statement
  -- a borrowed portal counts as one more handle, which its thread drops
  | .queryPortal portal _ => system.passPortal portal.id (.thread thread) (.other ())
  | .closePortal portal => system.letGo portal.id
  | .closeStatement _ | .simpleQuery _ | .batchExecute _ | .queryTyped _ _ | .executeTyped _ _ =>
      system

/-- A thread may begin a request. -/
def System.free (thread : Nat) : Bool := !system.clientGone && (system.unsent thread).isNone

variable [HasOid Ty]

/-- The closure of the request succeeds, in the empty buffer that it finds. -/
def encodes (request : ClientRequest Ty) : Bool :=
  match (request.encode.execute []).1 with
  | .ok _ => true
  | .error _ => false

/-- A request that owns the statement until it has been sent. -/
def System.useStatement (thread : Nat) (id : UInt64) (request : ClientRequest Ty) : System Ty :=
  let handle := system.statements id
  (system.setStatement id (handle.own (.thread thread :: handle.owners))).pend thread request

def System.usePortal (thread : Nat) (id : UInt64) (request : ClientRequest Ty) : System Ty :=
  let handle := system.portals id
  (system.setPortal id (handle.own (.thread thread :: handle.owners))).pend thread request

/-- A request without handles. -/
def System.plain (thread : Nat) (request : ClientRequest Ty) : Option (System Ty) :=
  if system.free thread then
    some (if encodes request then system.pend thread request else system)
  else none

def step (system : System Ty) : Event Ty → Option (System Ty)
  | .prepare thread query types =>
      if system.free thread then
        let request := .prepare (UInt64.ofNat system.statementIds) query types
        let system := system.nextStatement
        some (if encodes request then system.pend thread request else system)
      else none
  | .prepared id ok =>
      let handle := system.statements id
      if handle.awaiting then
        some (system.setStatement id (if ok then
            { awaiting := false, created := true, owners := [.other .handle] }
          else { handle with awaiting := false }))
      else none
  | .query thread id types params =>
      let request := .query ⟨some id, types⟩ params
      if system.free thread && !(system.statements id).owners.isEmpty then
        some (if encodes request then system.useStatement thread id request else system)
      else none
  | .execute thread id types params =>
      let request := .execute ⟨some id, types⟩ params
      if system.free thread && !(system.statements id).owners.isEmpty then
        some (if encodes request then system.useStatement thread id request else system)
      else none
  | .bind thread id types params =>
      if system.free thread && !(system.statements id).owners.isEmpty then
        let request := .bind (UInt64.ofNat system.portalIds) ⟨some id, types⟩ params
        let system := system.nextPortal
        some (if encodes request then system.useStatement thread id request else system)
      else none
  | .bound id ok =>
      let handle := system.portals id
      if handle.awaiting then
        some (if ok then
          system.setPortal id { awaiting := false, created := true, owners := [.other ()] }
          else (system.setPortal id { handle with awaiting := false }).letGo id)
      else none
  | .queryPortal thread portal maxRows =>
      let request := .queryPortal portal maxRows
      if system.free thread && !(system.portals portal.id).owners.isEmpty then
        some (if encodes request then system.usePortal thread portal.id request else system)
      else none
  | .simpleQuery thread query => system.plain thread (.simpleQuery query)
  | .batchExecute thread query => system.plain thread (.batchExecute query)
  | .queryTyped thread query params => system.plain thread (.queryTyped query params)
  | .executeTyped thread query params => system.plain thread (.executeTyped query params)
  | .send thread =>
      match system.unsent thread with
      | none => none
      | some request => some ((system.sentOff thread request).afterSend thread request)
  | .cloneStatement id =>
      let handle := system.statements id
      if handle.owners.isEmpty then none
      else some (system.setStatement id (handle.own (.other .handle :: handle.owners)))
  | .clonePortal id =>
      let handle := system.portals id
      if handle.owners.isEmpty then none
      else some (system.setPortal id (handle.own (.other () :: handle.owners)))
  | .dropStatement thread id =>
      let handle := system.statements id
      let owners := handle.owners.erase (.other .handle)
      if !handle.owners.contains (.other .handle) || (system.unsent thread).isSome then none
      else
        let dropped := system.setStatement id (handle.own owners)
        -- the upgrade fails once the client is gone
        some (if !owners.isEmpty || system.clientGone then dropped
          else dropped.pend thread (.closeStatement id))
  | .dropPortal thread id =>
      let handle := system.portals id
      let owners := handle.owners.erase (.other ())
      if !handle.owners.contains (.other ()) || (system.unsent thread).isSome then none
      else
        let dropped := system.setPortal id (handle.own owners)
        some (if !owners.isEmpty then dropped
          else if system.clientGone then dropped.letGo id
          else dropped.pend thread (.closePortal ⟨id⟩))
  | .clientGone => some { system with clientGone := true }
  | .connectionGone => some { system with connectionGone := true }
  | .otherStatement => some system.nextStatement
  | .otherPortal => some system.nextPortal

end

end OpenGauss.Driver.Handles
