import Mathlib.Algebra.Group.Int.Defs
import Mathlib.Algebra.GroupWithZero.Nat
import Mathlib.Data.List.Basic

/-! Backend message framing and parsing (`opengauss-protocol`,
`message/backend.rs`). A buffer is the list of its unread bytes; a parser that
takes `&mut BytesMut` returns the bytes left behind next to its result. -/

set_option autoImplicit false

namespace OpenGauss.Protocol

abbrev Bytes := List UInt8

inductive ErrorKind where
  | invalidInput
  | invalidData
  | unexpectedEof
  | other
  deriving DecidableEq, Repr

/-- `std::io::Error` as the protocol crate builds it. -/
structure IoError where
  kind : ErrorKind
  message : String
  deriving DecidableEq, Repr

def unexpectedEof : IoError := ⟨.unexpectedEof, "unexpected EOF"⟩

/-- What `Read::read_exact` answers when the buffer runs out. -/
def fillWholeBuffer : IoError := ⟨.unexpectedEof, "failed to fill whole buffer"⟩

/-- Big-endian value of a byte string. -/
def beNat (bytes : Bytes) : Nat :=
  bytes.foldl (fun acc byte => acc * 256 + byte.toNat) 0

/-- Reading a 32-bit word as `i32`. -/
def asI32 (word : Nat) : Int :=
  if word < 2 ^ 31 then word else word - 2 ^ 32

/-- Four big-endian bytes of a length or a count. -/
def be32 (value : Nat) : Bytes :=
  [UInt8.ofNat (value / 2 ^ 24), UInt8.ofNat (value / 2 ^ 16),
    UInt8.ofNat (value / 2 ^ 8), UInt8.ofNat value]

namespace Backend

@[match_pattern] abbrev parseCompleteTag : UInt8 := 49
@[match_pattern] abbrev bindCompleteTag : UInt8 := 50
@[match_pattern] abbrev closeCompleteTag : UInt8 := 51
@[match_pattern] abbrev notificationResponseTag : UInt8 := 65
@[match_pattern] abbrev copyDoneTag : UInt8 := 99
@[match_pattern] abbrev commandCompleteTag : UInt8 := 67
@[match_pattern] abbrev copyDataTag : UInt8 := 100
@[match_pattern] abbrev dataRowTag : UInt8 := 68
@[match_pattern] abbrev errorResponseTag : UInt8 := 69
@[match_pattern] abbrev copyInResponseTag : UInt8 := 71
@[match_pattern] abbrev copyOutResponseTag : UInt8 := 72
@[match_pattern] abbrev emptyQueryResponseTag : UInt8 := 73
@[match_pattern] abbrev backendKeyDataTag : UInt8 := 75
@[match_pattern] abbrev noDataTag : UInt8 := 110
@[match_pattern] abbrev noticeResponseTag : UInt8 := 78
@[match_pattern] abbrev authenticationTag : UInt8 := 82
@[match_pattern] abbrev portalSuspendedTag : UInt8 := 115
@[match_pattern] abbrev parameterStatusTag : UInt8 := 83
@[match_pattern] abbrev parameterDescriptionTag : UInt8 := 116
@[match_pattern] abbrev rowDescriptionTag : UInt8 := 84
@[match_pattern] abbrev readyForQueryTag : UInt8 := 90
@[match_pattern] abbrev negotiateProtocolVersionTag : UInt8 := 118

/-- How the authentication codes 10, 11 and 13 are dispatched. -/
inductive AuthMode where
  | standard
  | openGauss
  deriving DecidableEq, Repr

@[match_pattern] abbrev plainPassword : Int := 0
@[match_pattern] abbrev md5Password : Int := 1
@[match_pattern] abbrev sha256Password : Int := 2

structure Header where
  tag : UInt8
  len : Int
  deriving DecidableEq, Repr

/-- `Header::parse`: the length is read as `i32`. -/
def Header.parse (buf : Bytes) : Except IoError (Option Header) :=
  match buf with
  | tag :: b₀ :: b₁ :: b₂ :: b₃ :: _ =>
      let len := asI32 (beNat [b₀, b₁, b₂, b₃])
      if len < 4 then
        .error ⟨.invalidData, "invalid message length: header length < 4"⟩
      else
        .ok (some ⟨tag, len⟩)
  | _ => .ok none

structure AuthenticationSha256PasswordBody where
  passwordStoredMethod : Int
  random64code : Option Bytes
  token : Option Bytes
  serverIteration : Option Int
  md5Salt : Option Bytes
  deriving DecidableEq, Repr

structure AuthenticationMd5Sha256PasswordBody where
  salt : Bytes
  md5Salt : Bytes
  deriving DecidableEq, Repr

structure AuthenticationSm3PasswordBody where
  passwordStoredMethod : Int
  random64code : Bytes
  token : Bytes
  serverIteration : Int
  deriving DecidableEq, Repr

structure NotificationResponseBody where
  processId : Int
  channel : Bytes
  message : Bytes
  deriving DecidableEq, Repr

structure CopyResponseBody where
  format : UInt8
  len : Nat
  storage : Bytes
  deriving DecidableEq, Repr

/-- A counted body: `DataRow`, `ParameterDescription` and `RowDescription`. -/
structure CountedBody where
  storage : Bytes
  len : Nat
  deriving DecidableEq, Repr

structure BackendKeyDataBody where
  processId : Int
  secretKey : Int
  deriving DecidableEq, Repr

structure ParameterStatusBody where
  name : Bytes
  value : Bytes
  deriving DecidableEq, Repr

inductive Message where
  | authenticationCleartextPassword
  | authenticationGss
  | authenticationKerberosV5
  | authenticationMd5Password (salt : Bytes)
  | authenticationOk
  | authenticationScmCredential
  | authenticationSspi
  | authenticationGssContinue (data : Bytes)
  | authenticationSasl (mechanisms : Bytes)
  | authenticationSaslContinue (data : Bytes)
  | authenticationSaslFinal (data : Bytes)
  | authenticationSha256Password (body : AuthenticationSha256PasswordBody)
  | authenticationMd5Sha256Password (body : AuthenticationMd5Sha256PasswordBody)
  | authenticationSm3Password (body : AuthenticationSm3PasswordBody)
  | backendKeyData (body : BackendKeyDataBody)
  | bindComplete
  | closeComplete
  | commandComplete (tag : Bytes)
  | copyData (storage : Bytes)
  | copyDone
  | copyInResponse (body : CopyResponseBody)
  | copyOutResponse (body : CopyResponseBody)
  | dataRow (body : CountedBody)
  | emptyQueryResponse
  | errorResponse (storage : Bytes)
  | noData
  | noticeResponse (storage : Bytes)
  | notificationResponse (body : NotificationResponseBody)
  | parameterDescription (body : CountedBody)
  | parameterStatus (body : ParameterStatusBody)
  | parseComplete
  | portalSuspended
  | readyForQuery (status : UInt8)
  | rowDescription (body : CountedBody)
  | negotiateProtocolVersion
  deriving DecidableEq, Repr

/-! The reading methods of `Buffer`. The state is the unread slice. -/

abbrev BufferM := StateT Bytes (Except IoError)

namespace Buffer

def readExact (count : Nat) : BufferM Bytes := fun buf =>
  if buf.length < count then .error fillWholeBuffer
  else .ok (buf.take count, buf.drop count)

def readU8 : BufferM UInt8 := fun buf =>
  match buf with
  | [] => .error fillWholeBuffer
  | byte :: rest => .ok (byte, rest)

def readU16 : BufferM Nat := do
  return beNat (← readExact 2)

def readI32 : BufferM Int := do
  return asI32 (beNat (← readExact 4))

def readCstr : BufferM Bytes := fun buf =>
  if buf.contains 0 then
    .ok (buf.takeWhile (· ≠ 0), (buf.dropWhile (· ≠ 0)).drop 1)
  else
    .error unexpectedEof

def readAll : BufferM Bytes := fun buf => .ok (buf, [])

/-- `for _ in 0..count { read_cstr()? }`. -/
def skipCstrs : Nat → BufferM Unit
  | 0 => pure ()
  | count + 1 => do
      let _ ← readCstr
      skipCstrs count

def fail {α : Type} (message : String) : BufferM α := fun _ =>
  .error ⟨.invalidInput, message⟩

end Buffer

open Buffer

/-- Authentication code 10 in openGauss mode. -/
def parseSha256Password : BufferM Message := do
  let passwordStoredMethod ← readI32
  match passwordStoredMethod with
  | sha256Password | plainPassword =>
      let random64code ← readExact 64
      let token ← readExact 8
      let serverIteration ← readI32
      return .authenticationSha256Password {
        passwordStoredMethod
        random64code := some random64code
        token := some token
        serverIteration := some serverIteration
        md5Salt := none
      }
  | md5Password =>
      let md5Salt ← readExact 4
      return .authenticationSha256Password {
        passwordStoredMethod
        random64code := none
        token := none
        serverIteration := none
        md5Salt := some md5Salt
      }
  | other =>
      fail ("unknown password stored method `" ++ toString other ++ "`")

/-- The body of an `R` message, by authentication code. -/
def parseAuthentication (mode : AuthMode) : BufferM Message := do
  match ← readI32 with
  | 0 => return .authenticationOk
  | 2 => return .authenticationKerberosV5
  | 3 => return .authenticationCleartextPassword
  | 5 => return .authenticationMd5Password (← readExact 4)
  | 6 => return .authenticationScmCredential
  | 7 => return .authenticationGss
  | 8 => return .authenticationGssContinue (← readAll)
  | 9 => return .authenticationSspi
  | 10 =>
      if mode = .openGauss then parseSha256Password
      else return .authenticationSasl (← readAll)
  | 11 =>
      if mode = .openGauss then
        let salt ← readExact 64
        let md5Salt ← readExact 4
        return .authenticationMd5Sha256Password { salt, md5Salt }
      else return .authenticationSaslContinue (← readAll)
  | 12 => return .authenticationSaslFinal (← readAll)
  | 13 =>
      if mode = .openGauss then
        let passwordStoredMethod ← readI32
        let random64code ← readExact 64
        let token ← readExact 8
        let serverIteration ← readI32
        return .authenticationSm3Password {
          passwordStoredMethod, random64code, token, serverIteration }
      else fail "unknown authentication tag `13`"
  | tag => fail ("unknown authentication tag `" ++ toString tag ++ "`")

/-- The `match tag` of `Message::parse_with_mode`, on the bytes after the header. -/
def parseMessage (mode : AuthMode) (tag : UInt8) : BufferM Message :=
  match tag with
  | parseCompleteTag => return .parseComplete
  | bindCompleteTag => return .bindComplete
  | closeCompleteTag => return .closeComplete
  | notificationResponseTag => do
      let processId ← readI32
      let channel ← readCstr
      let message ← readCstr
      return .notificationResponse { processId, channel, message }
  | copyDoneTag => return .copyDone
  | commandCompleteTag => do return .commandComplete (← readCstr)
  | copyDataTag => do return .copyData (← readAll)
  | dataRowTag => do
      let len ← readU16
      let storage ← readAll
      return .dataRow { storage, len }
  | errorResponseTag => do return .errorResponse (← readAll)
  | copyInResponseTag => do
      let format ← readU8
      let len ← readU16
      let storage ← readAll
      return .copyInResponse { format, len, storage }
  | copyOutResponseTag => do
      let format ← readU8
      let len ← readU16
      let storage ← readAll
      return .copyOutResponse { format, len, storage }
  | emptyQueryResponseTag => return .emptyQueryResponse
  | backendKeyDataTag => do
      let processId ← readI32
      let secretKey ← readI32
      let _ ← readAll
      return .backendKeyData { processId, secretKey }
  | noDataTag => return .noData
  | noticeResponseTag => do return .noticeResponse (← readAll)
  | authenticationTag => parseAuthentication mode
  | portalSuspendedTag => return .portalSuspended
  | parameterStatusTag => do
      let name ← readCstr
      let value ← readCstr
      return .parameterStatus { name, value }
  | parameterDescriptionTag => do
      let len ← readU16
      let storage ← readAll
      return .parameterDescription { storage, len }
  | rowDescriptionTag => do
      let len ← readU16
      let storage ← readAll
      return .rowDescription { storage, len }
  | readyForQueryTag => do return .readyForQuery (← readU8)
  | negotiateProtocolVersionTag => do
      let _newestMinor ← readI32
      let unrecognizedCount ← readI32
      skipCstrs unrecognizedCount.toNat
      return .negotiateProtocolVersion
  | tag => fail ("unknown message tag `" ++ toString tag.toNat ++ "`")

/-- One frame cut out of the buffer: its body must be read to the end. -/
def parseFrame (mode : AuthMode) (tag : UInt8) (body : Bytes) : Except IoError Message :=
  match parseMessage mode tag body with
  | .error error => .error error
  | .ok (message, []) => .ok message
  | .ok (_, _ :: _) =>
      .error ⟨.invalidInput, "invalid message length: expected buffer to be empty"⟩

/-- `Message::parse_with_mode`. An error in the body has already cut the frame
off the buffer; an incomplete frame leaves the buffer alone. -/
def Message.parseWithMode (mode : AuthMode) (buf : Bytes) :
    Except IoError (Option Message) × Bytes :=
  match buf with
  | tag :: b₀ :: b₁ :: b₂ :: b₃ :: rest =>
      let len := beNat [b₀, b₁, b₂, b₃]
      if len < 4 then
        (.error ⟨.invalidInput, "invalid message length: parsing u32"⟩, buf)
      else
        let totalLen := len + 1
        if buf.length < totalLen then
          (.ok none, buf)
        else
          ((parseFrame mode tag (rest.take (totalLen - 5))).map some,
            rest.drop (totalLen - 5))
  | _ => (.ok none, buf)

end Backend

end OpenGauss.Protocol
