import OpenGauss.Driver.ClientRequests
import OpenGauss.Lib.Execution
import OpenGauss.Protocol.FrontendDecoding

/-! What the handles of a client send are the messages of their own requests,
however their calls interleave and whichever of them fail. -/

set_option autoImplicit false

namespace OpenGauss.Driver.ClientRequests

open Lib Protocol FrontendBuffer

/-! ### The messages that bytes consist of -/

/-- A message as a server takes it off the wire: its tag and its body. -/
def message : WireReader (UInt8 × Bytes) := do
  let tag ← byteWord
  let size ← word32
  if size < 4 then Reader.lift none else return (tag, ← Reader.take (size - 4))

def messages (bytes : Bytes) : Option (List (UInt8 × Bytes)) := Reader.all message bytes

def messageWire (message : UInt8 × Bytes) : Bytes :=
  message.1 :: (be32 (message.2.length + 4) ++ message.2)

theorem reads_message {sent : UInt8 × Bytes} (small : sent.2.length + 4 < 2 ^ 31) :
    Reader.Reads message (messageWire sent) sent := by
  obtain ⟨tag, content⟩ := sent
  have first : Reader.Reads byteWord [tag] tag :=
    (Reader.reads_take [tag]).answer fun bytes => bytes.headD 0
  have size := reads_word32 (show content.length + 4 < 2 ^ 32 by dsimp only at small; omega)
  have taken := (Reader.reads_take content).answer fun content => (tag, content)
  refine first.bind (size.bind ?_)
  rw [if_neg (by omega), Nat.add_sub_cancel]
  exact taken

theorem messages_wire {list : List (UInt8 × Bytes)}
    (small : ∀ sent ∈ list, sent.2.length + 4 < 2 ^ 31) :
    messages (list.flatMap messageWire) = some list := by
  have read := Reader.reads_all (fun sent member => reads_message (small sent member))
    fun _ _ impossible => (by cases impossible)
  rwa [List.map_id'] at read

/-! ### The messages of a request -/

section

variable {Ty : Type}

/-- The messages of the calls, made on a buffer that begins as it is. -/
def Own : List Call → Bytes → List (UInt8 × Bytes) → Prop
  | [], _, list => list = []
  | call :: calls, buf, list => ∃ values tag rest,
      call.Values buf values ∧ call.tag = some tag ∧ FrameFits (call.fields values) ∧
        list = (tag, body (call.fields values)) :: rest ∧
        Own calls (buf ++ frame call.tag (call.fields values)) rest

theorem Own.small {calls : List Call} {buf : Bytes} {list : List (UInt8 × Bytes)}
    (own : Own calls buf list) : ∀ sent ∈ list, sent.2.length + 4 < 2 ^ 31 := by
  induction calls generalizing buf list with
  | nil =>
      intro sent member
      rw [own] at member
      cases member
  | cons call calls ih =>
      obtain ⟨values, tag, rest, _, _, fits, rfl, own⟩ := own
      exact List.forall_mem_cons.mpr ⟨fits.2, ih own⟩

theorem Own.tags {calls : List Call} {buf : Bytes} {list : List (UInt8 × Bytes)}
    (own : Own calls buf list) : list.map (fun sent => some sent.1) = calls.map Call.tag := by
  induction calls generalizing buf list with
  | nil =>
      rw [own]
      rfl
  | cons call calls ih =>
      obtain ⟨values, tag, rest, _, tagged, _, rfl, own⟩ := own
      rw [List.map_cons, List.map_cons, tagged, ih own]

/-- The builder writes the messages of the calls behind what is in the buffer,
and takes everything out of it. -/
def Encodes (build : Put EncodeError Bytes) (calls : List Call) : Prop :=
  ∀ buf bytes after, Builder.Ok build buf bytes after ↔
    ∃ list, Own calls buf list ∧ bytes = buf ++ list.flatMap messageWire ∧ after = []

/-- The builder succeeds as the call does. -/
def Calls (build : Put EncodeError Unit) (call : Call) : Prop :=
  ∀ buf done after, Builder.Ok build buf done after ↔ Builder.Ok call.put buf done after

theorem encodes_split : Encodes split [] := by
  intro buf bytes after
  change ((Except.ok buf, ([] : Bytes)) = (Except.ok bytes, after)) ↔ _
  constructor
  · intro same
    cases same
    exact ⟨[], rfl, (List.append_nil _).symm, rfl⟩
  · intro found
    obtain ⟨list, nothing, rfl, rfl⟩ := found
    rw [show list = [] from nothing, List.flatMap_nil, List.append_nil]

theorem Encodes.cons {first : Put EncodeError Unit} {rest : Put EncodeError Bytes} {call : Call}
    {calls : List Call} (begins : Calls first call) (sends : call.Sends)
    (tagged : ∃ tag, call.tag = some tag) (goesOn : Encodes rest calls) :
    Encodes (do first; rest) (call :: calls) := by
  obtain ⟨tag, tagged⟩ := tagged
  intro buf bytes after
  have wire (values : List (Option Bytes)) :
      frame call.tag (call.fields values) = messageWire (tag, body (call.fields values)) := by
    rw [frame, tagged]
    rfl
  simp only [Builder.ok_bind, begins _ _ _, sends.ok, goesOn _ _ _]
  constructor
  · intro ran
    obtain ⟨_, _, ⟨values, written, fits, rfl⟩, list, own, rfl, rfl⟩ := ran
    refine ⟨_, ⟨values, tag, list, written, tagged, fits, rfl, own⟩, ?_, rfl⟩
    rw [List.flatMap_cons, wire, List.append_assoc]
  · intro found
    obtain ⟨_, ⟨values, tag', rest, written, tagged', fits, rfl, own⟩, rfl, rfl⟩ := found
    rw [tagged] at tagged'
    cases tagged'
    refine ⟨(), _, ⟨values, written, fits, rfl⟩, rest, own, ?_, rfl⟩
    rw [List.flatMap_cons, wire, List.append_assoc]

theorem calls_mapIo {convert : IoError → Error} {build : Put IoError Unit} {call : Call}
    (same : call.put = fromIoResult build) : Calls (mapIo convert build) call := by
  intro buf done after
  rw [same, mapIo, fromIoResult, Builder.ok_mapError, Builder.ok_mapError]

/-- The `bind` of a request. -/
def bindCall (portal statement : Str) (params : List (ToSql Ty × Ty)) : Call :=
  .bind portal statement (params.map fun param => param.1.encodeFormat param.2) params
    paramSerializer () [1]

theorem appendOnly_paramSerializer : AppendOnly (@paramSerializer Ty) where
  extending _ param :=
    Builder.extends_bind (param.1.extending param.2) fun _ => Builder.extends_pure _
  nullEmpty _ param buf final after ran := by
    obtain ⟨isNull, between, wrote, answered⟩ := Builder.ok_bind.mp ran
    obtain ⟨same, rfl⟩ := Builder.ok_pure.mp answered
    cases same
    exact param.1.nullEmpty param.2 _ _ wrote

theorem calls_encodeBindRaw (statementName : Str) (params : List (ToSql Ty × Ty)) (portal : Str) :
    Calls (encodeBindRaw statementName params portal) (bindCall portal statementName params) := by
  intro buf done after
  rw [encodeBindRaw, Builder.ok_bind]
  simp only [Builder.ok_get, Builder.ok_mapError]
  constructor
  · intro ran
    obtain ⟨_, _, ⟨rfl, rfl⟩, wrote⟩ := ran
    exact wrote
  · intro wrote
    exact ⟨buf, buf, ⟨rfl, rfl⟩, wrote⟩

/-! ### Names that the driver counts up -/

theorem numberedName_ascii {start : Char} (ascii : 0 < start.toNat ∧ start.toNat ≤ 127) (id : UInt64) :
    ∀ char ∈ numberedName start id, 0 < char.toNat ∧ char.toNat ≤ 127 := by
  intro char member
  cases member with
  | head => exact ascii
  | tail _ member =>
      have digit := Nat.isDigit_of_mem_toDigits (by decide) (by decide) member
      rw [Char.isDigit, Bool.and_eq_true, decide_eq_true_eq, decide_eq_true_eq] at digit
      have low : (48 : Nat) ≤ char.toNat := digit.1
      have high : char.toNat ≤ 57 := digit.2
      omega

theorem numberedName_bytes {start : Char} (ascii : 0 < start.toNat ∧ start.toNat ≤ 127) (id : UInt64) :
    0 ∉ asBytes (numberedName start id) ∧ (asBytes (numberedName start id)).length ≤ 21 := by
  have chars := numberedName_ascii ascii id
  have encoded := Utf8.encode_ascii fun char member => (chars char member).2
  rw [asBytes, encoded]
  constructor
  · intro member
    obtain ⟨char, inside, zero⟩ := List.mem_map.mp member
    obtain ⟨low, high⟩ := chars char inside
    have byte := congrArg UInt8.toNat zero
    rw [UInt8.toNat_ofNat', Nat.mod_eq_of_lt (by omega)] at byte
    exact Nat.ne_of_gt low byte
  · have small : id.toNat < 10 ^ 20 := Nat.lt_trans id.toNat_lt (by decide)
    have digits := (Nat.length_toDigits_le_iff (by decide) (by decide)).mpr small
    rw [List.length_map, numberedName, List.length_cons]
    exact Nat.succ_le_succ digits

/-- Closing what the driver has named never fails. -/
theorem close_ok {start : Char} (ascii : 0 < start.toNat ∧ start.toNat ≤ 127) (id : UInt64)
    (variant : UInt8) (buf : Bytes) :
    (((Call.close variant (numberedName start id)).put).execute buf).1 = .ok () := by
  obtain ⟨plain, short⟩ := numberedName_bytes ascii id
  have fits : FrameFits ((Call.close variant (numberedName start id)).fields []) := by
    refine ⟨List.forall_mem_cons.mpr ⟨trivial, List.forall_mem_singleton.mpr plain⟩, ?_⟩
    simp only [Call.fields, body, List.flatMap_cons, List.flatMap_nil, Field.wire, List.length_append,
      List.length_cons, List.length_nil]
    omega
  have ran := ((call_sends (.close variant (numberedName start id)) trivial).ok buf () _).mpr
    ⟨[], rfl, fits, rfl⟩
  exact congrArg Prod.fst ran

/-! ### Unwrapping -/

/-- The builder never runs into an `unwrap` of an error. -/
def Safe {Value : Type} (build : Put EncodeError Value) : Prop :=
  ∀ buf, (build.execute buf).1 ≠ .error (.driver .unreachable)

theorem Safe.bind {Value Next : Type} {first : Put EncodeError Value}
    {next : Value → Put EncodeError Next} (begins : Safe first) (goesOn : ∀ value, Safe (next value)) :
    Safe (first >>= next) := by
  intro buf
  have safe := begins buf
  cases ran : first.execute buf with
  | mk outcome between =>
      rw [ran] at safe
      cases outcome with
      | error error =>
          rw [Builder.execute_bind_error ran]
          exact fun same => safe (congrArg Except.error (Except.error.inj same))
      | ok value =>
          rw [Builder.execute_bind_ok ran]
          exact goesOn value between

theorem execute_mapError {Other Value : Type} (convert : Other → EncodeError) (build : Put Other Value)
    (buf : Bytes) :
    ((Builder.mapError convert build).execute buf).1 = (build.execute buf).1.mapError convert := rfl

theorem safe_mapError {Other Value : Type} {convert : Other → EncodeError} (build : Put Other Value)
    (other : ∀ error, convert error ≠ .driver .unreachable) : Safe (Builder.mapError convert build) := by
  intro buf same
  rw [execute_mapError] at same
  cases ran : (build.execute buf).1 with
  | error error =>
      rw [ran] at same
      exact other error (Except.error.inj same)
  | ok value =>
      rw [ran] at same
      cases same

theorem safe_unwrapped {build : Put IoError Unit} {call : Call} (same : call.put = fromIoResult build)
    (ok : ∀ buf, (call.put.execute buf).1 = .ok ()) : Safe (unwrapped build) := by
  intro buf failed
  have ran : Builder.Ok call.put buf () (call.put.execute buf).2 := Prod.ext (ok buf) rfl
  have calls : Calls (unwrapped build) call := calls_mapIo same
  have fine := (calls buf () _).mpr ran
  have answered : ((unwrapped build).execute buf).1 = .ok () := congrArg Prod.fst fine
  rw [answered] at failed
  cases failed

theorem safe_sync : Safe (unwrapped sync) :=
  safe_unwrapped rfl fun buf => @unwrapped_ok .sync trivial buf

theorem safe_split : Safe split := fun _ impossible => by cases impossible

theorem safe_end : Safe (do unwrapped sync; split) := safe_sync.bind fun _ => safe_split

theorem safe_encodeBindRaw (statementName : Str) (params : List (ToSql Ty × Ty)) (portal : Str) :
    Safe (encodeBindRaw statementName params portal) := by
  refine Safe.bind (fun _ impossible => by cases impossible) fun buf => safe_mapError _ ?_
  intro error
  cases error with
  | conversion error => exact fun impossible => (by cases impossible)
  | serialization error => exact fun impossible => (by cases impossible)

theorem safe_encodeBind (statement : Statement Ty) (params : List (ToSql Ty)) (portal : Str) :
    Safe (encodeBind statement params portal) := by
  unfold encodeBind
  by_cases counts : params.length ≠ statement.params.length
  · rw [if_pos counts]
    exact fun _ impossible => by cases impossible
  · rw [if_neg counts]
    exact safe_encodeBindRaw _ _ _

theorem safe_encode_io (build : Put IoError Unit) : Safe (mapIo .encode build) :=
  safe_mapError _ fun _ impossible => by cases impossible

theorem safe_close {start : Char} (ascii : 0 < start.toNat ∧ start.toNat ≤ 127) (id : UInt64)
    (variant : UInt8) : Safe (encodeClose variant (numberedName start id)) :=
  (safe_unwrapped rfl (close_ok ascii id variant)).bind fun _ => safe_end

theorem encodeBind_counts {statement : Statement Ty} {params : List (ToSql Ty)}
    (counts : params.length = statement.params.length) (portal : Str) :
    encodeBind statement params portal =
      encodeBindRaw statement.name (params.zip statement.params) portal :=
  if_neg fun apart => apart counts

theorem encodes_end : Encodes (do unwrapped sync; split) [.sync] :=
  encodes_split.cons (calls_mapIo rfl) (call_sends .sync trivial) ⟨_, rfl⟩

theorem Encodes.first {rest : Put EncodeError Bytes} {calls : List Call} (goesOn : Encodes rest calls)
    (convert : IoError → Error) {build : Put IoError Unit} {call : Call}
    (same : call.put = fromIoResult build) (appending : call.AppendOnly)
    (tagged : ∃ tag, call.tag = some tag) :
    Encodes (do mapIo convert build; rest) (call :: calls) :=
  goesOn.cons (calls_mapIo same) (call_sends call appending) tagged

theorem Encodes.bindFirst {rest : Put EncodeError Bytes} {calls : List Call} (goesOn : Encodes rest calls)
    (statementName : Str) (params : List (ToSql Ty × Ty)) (portal : Str) :
    Encodes (do encodeBindRaw statementName params portal; rest)
      (bindCall portal statementName params :: calls) :=
  goesOn.cons (calls_encodeBindRaw _ _ _)
    (call_sends (bindCall portal statementName params) appendOnly_paramSerializer) ⟨_, rfl⟩

variable [HasOid Ty]

/-- No encoding of a request panics. -/
theorem safe_encode (request : ClientRequest Ty) : Safe request.encode := by
  have ended : ∀ build : Put IoError Unit, Safe (do mapIo .encode build; unwrapped sync; split) :=
    fun build => (safe_encode_io build).bind fun _ => safe_end
  cases request with
  | query statement params | execute statement params =>
      exact (safe_encodeBind statement params []).bind fun _ => ended _
  | queryTyped text params | executeTyped text params =>
      have parsed : Safe (mapIo .parse
          (FrontendBuffer.parse [] text (params.map fun param => oid param.2))) :=
        safe_mapError _ fun _ impossible => by cases impossible
      exact parsed.bind fun _ => (safe_encodeBindRaw [] params []).bind fun _ =>
        (safe_encode_io _).bind fun _ => ended _
  | queryPortal portal maxRows => exact ended _
  | prepare id text types => exact (safe_encode_io _).bind fun _ => ended _
  | simpleQuery text | batchExecute text => exact (safe_encode_io _).bind fun _ => safe_split
  | bind id statement params => exact (safe_encodeBind statement params _).bind fun _ => safe_end
  | closeStatement id => exact safe_close (by decide) id 83
  | closePortal portal => exact safe_close (by decide) portal.id 80

/-! ### What a request sends -/

/-- The messages that a request is made of. -/
def requestCalls : ClientRequest Ty → List Call
  | .query statement params | .execute statement params =>
      [bindCall [] statement.name (params.zip statement.params), .execute [] 0, .sync]
  | .queryTyped text params | .executeTyped text params =>
      [.parse [] text (params.map fun param => oid param.2), bindCall [] [] params, .describe 83 [],
        .execute [] 0, .sync]
  | .queryPortal portal maxRows => [.execute portal.name maxRows, .sync]
  | .prepare id text types =>
      [.parse (numberedName 's' id) text (types.map oid), .describe 83 (numberedName 's' id), .sync]
  | .simpleQuery text | .batchExecute text => [.query text]
  | .bind id statement params =>
      [bindCall (numberedName 'p' id) statement.name (params.zip statement.params), .sync]
  | .closeStatement id => [.close 83 (numberedName 's' id), .sync]
  | .closePortal portal => [.close 80 portal.name, .sync]

/-- There is a parameter for each that the statement has. -/
def CountsAgree : ClientRequest Ty → Prop
  | .query statement params | .execute statement params | .bind _ statement params =>
      params.length = statement.params.length
  | _ => True

/-- A request whose parameters agree with its statement writes its messages, and
fails when they do not fit. -/
theorem encode_encodes (request : ClientRequest Ty) (counts : CountsAgree request) :
    Encodes request.encode (requestCalls request) := by
  have executed (portal : Str) (maxRows : Int32) :
      Encodes (do mapIo .encode (FrontendBuffer.execute portal maxRows); unwrapped sync; split)
        [.execute portal maxRows, .sync] :=
    encodes_end.first .encode rfl trivial ⟨_, rfl⟩
  have closed (variant : UInt8) (name : Str) :
      Encodes (encodeClose variant name) [.close variant name, .sync] :=
    encodes_end.first (fun _ => .unreachable) rfl trivial ⟨_, rfl⟩
  cases request with
  | query statement params | execute statement params =>
      change Encodes (do encodeBind statement params []; _) _
      rw [encodeBind_counts counts]
      exact (executed [] 0).bindFirst _ _ _
  | queryTyped text params | executeTyped text params =>
      have described : Encodes (do
            mapIo .encode (FrontendBuffer.describe 83 [])
            mapIo .encode (FrontendBuffer.execute [] 0)
            unwrapped sync
            split) [.describe 83 [], .execute [] 0, .sync] :=
        (executed [] 0).first .encode rfl trivial ⟨_, rfl⟩
      exact (described.bindFirst [] params []).first .parse rfl trivial ⟨_, rfl⟩
  | queryPortal portal maxRows => exact executed portal.name maxRows
  | prepare id text types =>
      have described : Encodes (do
            mapIo .encode (FrontendBuffer.describe 83 (numberedName 's' id))
            unwrapped sync
            split) [.describe 83 (numberedName 's' id), .sync] :=
        encodes_end.first .encode rfl trivial ⟨_, rfl⟩
      exact described.first .encode rfl trivial ⟨_, rfl⟩
  | simpleQuery text | batchExecute text =>
      exact encodes_split.first .encode rfl trivial ⟨_, rfl⟩
  | bind id statement params =>
      change Encodes (do encodeBind statement params (numberedName 'p' id); _) _
      rw [encodeBind_counts counts]
      exact encodes_end.bindFirst _ _ _
  | closeStatement id => exact closed 83 (numberedName 's' id)
  | closePortal portal => exact closed 80 portal.name

theorem counts_of_ok {request : ClientRequest Ty} {buf bytes after : Bytes}
    (ran : Builder.Ok request.encode buf bytes after) : CountsAgree request := by
  have refused {statement : Statement Ty} {params : List (ToSql Ty)} {portal : Str}
      {rest : Put EncodeError Bytes}
      (ran : Builder.Ok (do encodeBind statement params portal; rest) buf bytes after) :
      params.length = statement.params.length := by
    apply Classical.byContradiction
    intro apart
    obtain ⟨_, _, bound, _⟩ := Builder.ok_bind.mp ran
    have failed : encodeBind statement params portal =
        throw (.parameters params.length statement.params.length) := if_pos apart
    rw [failed] at bound
    have impossible := congrArg Prod.fst bound
    cases impossible
  cases request with
  | query statement params | execute statement params | bind _ statement params => exact refused ran
  | _ => trivial

/-- One `Sync`, at the end, or one `Query` alone. -/
theorem requestCalls_end (request : ClientRequest Ty) :
    (∃ own, (requestCalls request).map Call.tag = own ++ [some 83] ∧ some 83 ∉ own) ∨
      (requestCalls request).map Call.tag = [some 81] := by
  cases request with
  | query statement params | execute statement params => exact .inl ⟨[some 66, some 69], rfl, by decide⟩
  | queryTyped text params | executeTyped text params =>
      exact .inl ⟨[some 80, some 66, some 68, some 69], rfl, by decide⟩
  | queryPortal portal maxRows => exact .inl ⟨[some 69], rfl, by decide⟩
  | prepare id text types => exact .inl ⟨[some 80, some 68], rfl, by decide⟩
  | simpleQuery text | batchExecute text => exact .inr rfl
  | bind id statement params => exact .inl ⟨[some 66], rfl, by decide⟩
  | closeStatement id => exact .inl ⟨[some 67], rfl, by decide⟩
  | closePortal portal => exact .inl ⟨[some 67], rfl, by decide⟩

/-- The messages end with the only `Sync` among them, or are one `Query`. -/
def OneEnd (list : List (UInt8 × Bytes)) : Prop :=
  (∃ own last, list = own ++ [last] ∧ last.1 = 83 ∧ ∀ sent ∈ own, sent.1 ≠ 83) ∨
    ∃ query, list = [query] ∧ query.1 = 81

theorem Own.oneEnd {request : ClientRequest Ty} {buf : Bytes} {list : List (UInt8 × Bytes)}
    (own : Own (requestCalls request) buf list) : OneEnd list := by
  have tags := own.tags
  rcases requestCalls_end request with ⟨before, ends, none⟩ | only
  · rw [ends] at tags
    obtain ⟨first, last, rfl, front, back⟩ := List.map_eq_append_iff.mp tags
    obtain ⟨sync, rfl, tagged⟩ := List.map_eq_singleton_iff.mp back
    refine .inl ⟨first, sync, rfl, Option.some.inj tagged, ?_⟩
    intro sent member same
    apply none
    rw [← front, ← same]
    exact List.mem_map.mpr ⟨sent, member, rfl⟩
  · rw [only] at tags
    obtain ⟨query, rfl, tagged⟩ := List.map_eq_singleton_iff.mp tags
    exact .inr ⟨query, rfl, Option.some.inj tagged⟩

/-- The bytes are the messages of the request, and no others. -/
structure Sends (request : ClientRequest Ty) (bytes : Bytes) : Prop where
  counts : CountsAgree request
  whole : ∃ list, messages bytes = some list ∧ Own (requestCalls request) [] list ∧ OneEnd list

theorem encode_sends {request : ClientRequest Ty} {bytes after : Bytes}
    (ran : Builder.Ok request.encode [] bytes after) : Sends request bytes := by
  have counts := counts_of_ok ran
  obtain ⟨list, own, rfl, _⟩ := (encode_encodes request counts _ _ _).mp ran
  exact ⟨counts, list, messages_wire own.small, own, own.oneEnd⟩

/-! ### Every run -/

structure Invariant (system : System Ty) : Prop where
  buffer : system.client.buffer = []
  encoded : ∀ entry ∈ system.encoded, Sends entry.1 entry.2
  sent : ∀ entry ∈ system.sent, Sends entry.1 entry.2
  queued : system.client.sender.map Connection.Request.messages =
    system.sent.map fun entry => .single (.raw entry.2)

theorem start_invariant : Invariant ({} : System Ty) where
  buffer := rfl
  encoded := fun _ member => absurd member List.not_mem_nil
  sent := fun _ member => absurd member List.not_mem_nil
  queued := rfl

theorem step_invariant (system : System Ty) (event : Event Ty) (next : System Ty)
    (holds : Invariant system) (stepped : step system event = some next) : Invariant next := by
  cases event with
  | encode request =>
      simp only [step, InnerClient.withBuf, holds.buffer] at stepped
      cases ran : request.encode.execute [] with
      | mk answer after =>
          rw [ran] at stepped
          cases answer with
          | error error =>
              cases stepped
              exact { holds with buffer := rfl }
          | ok bytes =>
              cases stepped
              refine { holds with buffer := rfl, encoded := fun entry member => ?_ }
              rcases List.mem_append.mp member with before | last
              · exact holds.encoded entry before
              · rw [List.mem_singleton.mp last]
                exact encode_sends ran
  | send index =>
      simp only [step] at stepped
      cases found : system.encoded[index]? with
      | none =>
          rw [found] at stepped
          cases stepped
      | some entry =>
          rw [found] at stepped
          have whole := holds.encoded entry (List.mem_of_getElem? found)
          have others : ∀ entry ∈ system.encoded.eraseIdx index, Sends entry.1 entry.2 :=
            fun entry member => holds.encoded entry (List.mem_of_mem_eraseIdx member)
          dsimp only [InnerClient.send] at stepped
          cases gone : system.client.closed with
          | true =>
              rw [gone] at stepped
              cases stepped
              exact { holds with encoded := others }
          | false =>
              rw [gone] at stepped
              cases stepped
              refine { buffer := holds.buffer, encoded := others, sent := ?_, queued := ?_ }
              · intro entry member
                rcases List.mem_append.mp member with before | last
                · exact holds.sent entry before
                · rw [List.mem_singleton.mp last]
                  exact whole
              · have added (request : Connection.Request RequestMessages) :
                    (system.client.sender ++ [request]).map Connection.Request.messages =
                      (system.sent.map fun entry => .single (.raw entry.2)) ++ [request.messages] := by
                  rw [List.map_append, holds.queued]
                  rfl
                refine (added _).trans ?_
                change _ = (system.sent ++ [entry]).map _
                rw [List.map_append]
                rfl
  | connectionGone =>
      cases stepped
      exact { holds with }

/-- What holds of the handles of a client at any time. -/
structure Disciplined (system : System Ty) : Prop where
  buffer : system.client.buffer = []
  /-- Only whole requests are in the queue, each with its own messages. -/
  queued : system.client.sender.map Connection.Request.messages =
    system.sent.map fun entry => .single (.raw entry.2)
  whole : ∀ entry ∈ system.sent, Sends entry.1 entry.2
  /-- An encoding that fails does not panic and leaves everything as it was. -/
  failed : ∀ (request : ClientRequest Ty) error,
    (request.encode.execute system.client.buffer).1 = .error error →
      error ≠ .driver .unreachable ∧ step system (.encode request) = some system

/-- In every run, whichever encodings fail, the handles send whole requests. -/
theorem execute_disciplined {events : List (Event Ty)} {final : System Ty}
    (run : Execution.execute step {} events = some final) : Disciplined final := by
  have holds := Execution.invariant step step_invariant run start_invariant
  refine { buffer := holds.buffer, queued := holds.queued, whole := holds.sent, failed := ?_ }
  intro request error refused
  constructor
  · intro panic
    rw [panic] at refused
    exact safe_encode request _ refused
  · obtain ⟨⟨sender, closed, buffer⟩, encoded, sent⟩ := final
    cases holds.buffer
    simp only [step, InnerClient.withBuf]
    dsimp only at refused
    rw [refused]

/-- A value that is always written as these bytes. -/
def ofBytes (bytes : Bytes) : ToSql Ty where
  encodeFormat _ := 1
  toSqlChecked _ := do
    putSlice bytes
    return .no
  extending _ := Builder.extends_bind (Builder.extends_append bytes) fun _ => Builder.extends_pure _
  nullEmpty _ buf after ran := by
    obtain ⟨_, _, _, answered⟩ := Builder.ok_bind.mp ran
    cases (Builder.ok_pure.mp answered).1

end

/-- A query with a parameter too many, one that fails behind the parameter it has
written, and one that is sent. -/
def failingEvents : List (Event UInt32) :=
  let statement : Statement UInt32 := ⟨some 0, [25]⟩
  [.encode (.query statement [ofBytes [1], ofBytes [2]]),
    .encode (.queryTyped ['\u0000'] [(ofBytes [1], 25)]),
    .encode (.query statement [ofBytes [7]]), .encode (.simpleQuery ['x']), .send 1, .send 0]

theorem execute_disciplined_failing :
    ∃ final, Execution.execute (@step UInt32 ⟨id⟩) {} failingEvents = some final ∧
      final.client.sender.length = 2 ∧ @Disciplined UInt32 ⟨id⟩ final := by
  refine ⟨_, rfl, ?_, @execute_disciplined UInt32 ⟨id⟩ failingEvents _ rfl⟩
  decide +kernel

end OpenGauss.Driver.ClientRequests
