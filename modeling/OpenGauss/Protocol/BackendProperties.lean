import OpenGauss.Protocol.Backend
import OpenGauss.Lib.Framing

/-! Framing laws of backend messages: what one well-formed frame parses to,
and that a part of a frame is left in the buffer. -/

set_option autoImplicit false

namespace OpenGauss.Protocol

@[simp] theorem be32_length (value : Nat) : (be32 value).length = 4 := rfl

theorem beNat_be32 (value : Nat) (fits : value < 2 ^ 32) : beNat (be32 value) = value := by
  simp only [beNat, be32, List.foldl_cons, List.foldl_nil, UInt8.toNat_ofNat']
  omega

theorem asI32_of_lt (word : Nat) (fits : word < 2 ^ 31) : asI32 word = word := by
  rw [asI32, if_pos fits]

namespace Backend

/-- A well-framed backend message: its length field is below `2 ^ 31` and its
body is one that the parser accepts in `mode`. -/
structure Frame (mode : AuthMode) where
  tag : UInt8
  body : Bytes
  message : Message
  fits : body.length + 4 < 2 ^ 31
  accepted : parseFrame mode tag body = .ok message

/-- The wire form of a frame; the length field counts itself and the body. -/
def Frame.bytes {mode : AuthMode} (frame : Frame mode) : Bytes :=
  frame.tag :: be32 (frame.body.length + 4) ++ frame.body

variable {mode : AuthMode}

@[simp] theorem Frame.length_bytes (frame : Frame mode) :
    frame.bytes.length = frame.body.length + 5 := by
  simp only [Frame.bytes, be32, List.cons_append, List.nil_append, List.length_cons]

theorem Frame.bytes_ne_nil (frame : Frame mode) : frame.bytes ≠ [] := by
  simp [Frame.bytes]

theorem Frame.header_append (frame : Frame mode) (rest : Bytes) :
    Header.parse (frame.bytes ++ rest) =
      .ok (some ⟨frame.tag, ((frame.body.length + 4 : Nat) : Int)⟩) := by
  have fits := frame.fits
  have value := beNat_be32 (frame.body.length + 4) (by omega)
  simp only [be32] at value
  simp only [Frame.bytes, be32, List.cons_append, List.nil_append, Header.parse, value,
    asI32_of_lt _ fits]
  rw [if_neg (by omega)]

theorem Frame.parse_append (frame : Frame mode) (rest : Bytes) :
    Message.parseWithMode mode (frame.bytes ++ rest) = (.ok (some frame.message), rest) := by
  have fits := frame.fits
  have value := beNat_be32 (frame.body.length + 4) (by omega)
  simp only [be32] at value
  simp only [Frame.bytes, be32, List.cons_append, List.nil_append, Message.parseWithMode, value,
    List.length_cons, List.length_append]
  rw [if_neg (by omega), if_neg (by omega)]
  have bodyLength : frame.body.length + 4 + 1 - 5 = frame.body.length := by omega
  simp [bodyLength, frame.accepted, Except.map]

/-- A proper prefix of a frame shows either no header or a header that asks
for more bytes than there are. -/
theorem Frame.header_partial (frame : Frame mode) (tail : Bytes)
    (arrived : tail <+: frame.bytes) (short : tail.length < frame.bytes.length) :
    Header.parse tail = .ok none ∨
      ∃ header, Header.parse tail = .ok (some header) ∧ tail.length < header.len.toNat + 1 := by
  obtain ⟨missing, whole⟩ := arrived
  match tail with
  | [] | [_] | [_, _] | [_, _, _] | [_, _, _, _] => exact .inl rfl
  | tag :: b₀ :: b₁ :: b₂ :: b₃ :: rest =>
      right
      have fits := frame.fits
      have value := beNat_be32 (frame.body.length + 4) (by omega)
      simp only [Frame.bytes, be32, List.cons_append, List.nil_append, List.cons.injEq] at whole
      obtain ⟨rfl, rfl, rfl, rfl, rfl, -⟩ := whole
      simp only [be32] at value
      refine ⟨⟨frame.tag, ((frame.body.length + 4 : Nat) : Int)⟩, ?_, ?_⟩
      · simp only [Header.parse, value, asI32_of_lt _ fits]
        rw [if_neg (by omega)]
      · rw [Frame.length_bytes] at short
        simp only [Int.toNat_natCast]
        omega

theorem parse_nil (mode : AuthMode) : Message.parseWithMode mode [] = (.ok none, []) := rfl

/-! ### Any buffer -/

/-- The length field of a buffer that has one. -/
def lengthField (buf : Bytes) : Option Nat :=
  match buf with
  | _ :: b₀ :: b₁ :: b₂ :: b₃ :: _ => some (beNat [b₀, b₁, b₂, b₃])
  | _ => none

/-- Too short for a header, or for the frame that its header announces. -/
def Incomplete (buf : Bytes) : Prop :=
  buf.length < 5 ∨ ∃ len, lengthField buf = some len ∧ 4 ≤ len ∧ buf.length < 1 + len

/-- A frame of which all bytes are there. -/
def Complete (buf : Bytes) (len : Nat) : Prop :=
  lengthField buf = some len ∧ 4 ≤ len ∧ 1 + len ≤ buf.length

/-- The body of the frame in front of a buffer. -/
def frameBody (buf : Bytes) (len : Nat) : Bytes := (buf.take (1 + len)).drop 5

/-- The authentication code of an `R` frame. -/
def authenticationCode (buf : Bytes) : Option Int := do
  let len ← lengthField buf
  if buf.head? = some authenticationTag ∧ 4 ≤ (frameBody buf len).length then
    some (asI32 (beNat ((frameBody buf len).take 4)))
  else none

/-- The authentication codes that openGauss gives another meaning. -/
def redefinedCodes : List Int := [10, 11, 13]

theorem lengthField_none {buf : Bytes} (short : buf.length < 5) : lengthField buf = none := by
  match buf with
  | [] | [_] | [_, _] | [_, _, _] | [_, _, _, _] => rfl
  | _ :: _ :: _ :: _ :: _ :: _ => simp only [List.length_cons] at short; omega

theorem lengthField_some {buf : Bytes} (long : 5 ≤ buf.length) :
    ∃ tag b₀ b₁ b₂ b₃ rest, buf = tag :: b₀ :: b₁ :: b₂ :: b₃ :: rest ∧
      lengthField buf = some (beNat [b₀, b₁, b₂, b₃]) := by
  match buf with
  | [] | [_] | [_, _] | [_, _, _] | [_, _, _, _] => simp only [List.length_cons, List.length_nil] at long; omega
  | tag :: b₀ :: b₁ :: b₂ :: b₃ :: rest => exact ⟨tag, b₀, b₁, b₂, b₃, rest, rfl, rfl⟩

/-- The three kinds of buffer that `parse_with_mode` tells apart. -/
inductive Framed (buf : Bytes) : Prop where
  | incomplete (short : Incomplete buf)
  | invalid (len : Nat) (field : lengthField buf = some len) (small : len < 4)
  | complete (len : Nat) (whole : Complete buf len)

theorem framed (buf : Bytes) : Framed buf := by
  by_cases long : 5 ≤ buf.length
  · obtain ⟨tag, b₀, b₁, b₂, b₃, rest, same, field⟩ := lengthField_some long
    by_cases small : beNat [b₀, b₁, b₂, b₃] < 4
    · exact .invalid _ field small
    · by_cases whole : 1 + beNat [b₀, b₁, b₂, b₃] ≤ buf.length
      · exact .complete _ ⟨field, by omega, whole⟩
      · exact .incomplete (.inr ⟨_, field, by omega, by omega⟩)
  · exact .incomplete (.inl (by omega))

theorem parseWithMode_of_incomplete (mode : AuthMode) {buf : Bytes} (short : Incomplete buf) :
    Message.parseWithMode mode buf = (.ok none, buf) := by
  match buf with
  | [] | [_] | [_, _] | [_, _, _] | [_, _, _, _] => rfl
  | tag :: b₀ :: b₁ :: b₂ :: b₃ :: rest =>
      obtain short | ⟨len, field, large, short⟩ := short
      · simp only [List.length_cons] at short
        omega
      · obtain rfl := Option.some.inj field
        rw [Message.parseWithMode]
        exact (if_neg (by omega)).trans (if_pos (by omega))

theorem parseWithMode_of_invalid (mode : AuthMode) {buf : Bytes} {len : Nat}
    (field : lengthField buf = some len) (small : len < 4) :
    Message.parseWithMode mode buf =
      (.error ⟨.invalidInput, "invalid message length: parsing u32"⟩, buf) := by
  match buf with
  | [] | [_] | [_, _] | [_, _, _] | [_, _, _, _] => cases field
  | tag :: b₀ :: b₁ :: b₂ :: b₃ :: rest =>
      obtain rfl := Option.some.inj field
      exact if_pos small

/-- On a frame the parser answers by the frame's body alone. -/
theorem parseWithMode_of_complete (mode : AuthMode) {buf : Bytes} {len : Nat} (whole : Complete buf len) :
    Message.parseWithMode mode buf =
      ((parseFrame mode (buf.headD 0) (frameBody buf len)).map some, buf.drop (1 + len)) := by
  obtain ⟨field, large, whole⟩ := whole
  match buf with
  | [] | [_] | [_, _] | [_, _, _] | [_, _, _, _] => cases field
  | tag :: b₀ :: b₁ :: b₂ :: b₃ :: rest =>
      have announced : beNat [b₀, b₁, b₂, b₃] = len := Option.some.inj field
      obtain ⟨body, size⟩ := Nat.exists_eq_add_of_le large
      have five : 1 + (4 + body) = body + 1 + 1 + 1 + 1 + 1 := by omega
      have behind : 4 + body + 1 - 5 = body := by omega
      rw [Message.parseWithMode, announced]
      refine (if_neg (by omega)).trans ((if_neg (by omega)).trans ?_)
      rw [frameBody, size, five, behind]
      rfl

/-- What `Header::parse` answers. -/
theorem header_parse (buf : Bytes) (small : ∀ len ∈ lengthField buf, len < 2 ^ 31) :
    (Header.parse buf = .ok none ↔ buf.length < 5) ∧
      ∀ header, Header.parse buf = .ok (some header) ↔
        ∃ len, lengthField buf = some len ∧ 4 ≤ len ∧ header = ⟨buf.headD 0, (len : Int)⟩ := by
  by_cases long : 5 ≤ buf.length
  · obtain ⟨tag, b₀, b₁, b₂, b₃, rest, rfl, field⟩ := lengthField_some long
    have value := asI32_of_lt _ (small _ field)
    rw [Header.parse, value, field]
    by_cases invalid : beNat [b₀, b₁, b₂, b₃] < 4
    · rw [if_pos (by omega)]
      simp
      omega
    · rw [if_neg (by omega)]
      refine ⟨by simp, fun header => ?_⟩
      constructor
      · intro same
        obtain rfl := Option.some.inj (Except.ok.inj same)
        exact ⟨_, rfl, by omega, rfl⟩
      · rintro ⟨len, same, -, rfl⟩
        obtain rfl := Option.some.inj same
        rfl
  · have short := Nat.lt_of_not_le long
    have noField := lengthField_none short
    have none : Header.parse buf = .ok none := by
      match buf with
      | [] | [_] | [_, _] | [_, _, _] | [_, _, _, _] => rfl
      | _ :: _ :: _ :: _ :: _ :: _ => simp only [List.length_cons] at short; omega
    rw [none, noField]
    simp [short]

theorem parseMessage_modes {tag : UInt8} (other : tag ≠ authenticationTag) (body : Bytes) :
    parseMessage .standard tag body = parseMessage .openGauss tag body := by
  unfold parseMessage
  split <;> first | rfl | exact absurd rfl other

theorem parseAuthentication_modes {body : Bytes}
    (known : ∀ code ∈ redefinedCodes, ¬(4 ≤ body.length ∧ asI32 (beNat (body.take 4)) = code)) :
    parseAuthentication .standard body = parseAuthentication .openGauss body := by
  by_cases short : body.length < 4
  · have stopped : Buffer.readI32 body = .error fillWholeBuffer := by
      simp only [Buffer.readI32, Buffer.readExact, bind, StateT.bind, Except.bind, if_pos short]
    simp only [parseAuthentication, bind, StateT.bind, stopped, Except.bind]
  · have read : Buffer.readI32 body = .ok (asI32 (beNat (body.take 4)), body.drop 4) := by
      simp only [Buffer.readI32, Buffer.readExact, bind, StateT.bind, Except.bind, if_neg short]
      rfl
    have other : ∀ code ∈ redefinedCodes, asI32 (beNat (body.take 4)) ≠ code :=
      fun code redefined same => known code redefined ⟨by omega, same⟩
    have sasl := other 10 (by decide)
    have saslContinue := other 11 (by decide)
    have sm3 := other 13 (by decide)
    simp only [parseAuthentication, bind, StateT.bind, read, Except.bind]
    generalize asI32 (beNat (body.take 4)) = code at *
    split <;> first | rfl | exact absurd rfl sasl | exact absurd rfl saslContinue | exact absurd rfl sm3

theorem incomplete_not_complete {buf : Bytes} {len : Nat} (whole : Complete buf len) : ¬Incomplete buf := by
  obtain ⟨field, large, whole⟩ := whole
  rintro (short | ⟨announced, same, -, short⟩)
  · omega
  · obtain rfl := Option.some.inj (field.symm.trans same)
    omega

theorem incomplete_not_invalid {buf : Bytes} {len : Nat} (field : lengthField buf = some len)
    (small : len < 4) : ¬Incomplete buf := by
  rintro (short | ⟨announced, same, large, -⟩)
  · rw [lengthField_none short] at field
    cases field
  · obtain rfl := Option.some.inj (field.symm.trans same)
    omega

theorem parseWithMode_none (mode : AuthMode) (buf : Bytes) :
    (Message.parseWithMode mode buf).1 = .ok none ↔ Incomplete buf := by
  cases framed buf with
  | incomplete short => simp [parseWithMode_of_incomplete mode short, short]
  | invalid len field small =>
      simp [parseWithMode_of_invalid mode field small, incomplete_not_invalid field small]
  | complete len whole =>
      rw [parseWithMode_of_complete mode whole]
      simp only [incomplete_not_complete whole, iff_false]
      cases parseFrame mode (buf.headD 0) (frameBody buf len) <;> nofun

theorem take_append {buf : Bytes} {len : Nat} (whole : 1 + len ≤ buf.length) (rest : Bytes) :
    (buf.take (1 + len) ++ rest).take (1 + len) = buf.take (1 + len) ∧
      (buf.take (1 + len) ++ rest).drop (1 + len) = rest := by
  have length : (buf.take (1 + len)).length = 1 + len := by rw [List.length_take]; omega
  exact ⟨List.take_left' length, List.drop_left' length⟩

/-- The bytes behind a frame can be replaced by any others. -/
theorem complete_append {buf : Bytes} {len : Nat} (whole : Complete buf len) (rest : Bytes) :
    Complete (buf.take (1 + len) ++ rest) len := by
  obtain ⟨field, large, whole⟩ := whole
  have long : 5 ≤ buf.length := by omega
  obtain ⟨tag, b₀, b₁, b₂, b₃, tail, rfl, same⟩ := lengthField_some long
  refine ⟨?_, large, by simp only [List.length_append, List.length_take]; omega⟩
  obtain ⟨body, rfl⟩ := Nat.exists_eq_add_of_le large
  have five : 1 + (4 + body) = body + 1 + 1 + 1 + 1 + 1 := by omega
  rw [five]
  exact same.symm.trans field

theorem headD_append {buf : Bytes} {len : Nat} (whole : Complete buf len) (rest : Bytes) :
    (buf.take (1 + len) ++ rest).headD 0 = buf.headD 0 := by
  match buf with
  | [] => cases whole.1
  | tag :: _ => rw [Nat.add_comm]; rfl

theorem parseWithMode_append (mode : AuthMode) {buf : Bytes} {len : Nat} (whole : Complete buf len)
    (rest : Bytes) :
    Message.parseWithMode mode (buf.take (1 + len) ++ rest) = ((Message.parseWithMode mode buf).1, rest) := by
  obtain ⟨front, behind⟩ := take_append whole.2.2 rest
  rw [parseWithMode_of_complete mode (complete_append whole rest), parseWithMode_of_complete mode whole,
    headD_append whole, frameBody, front, behind, frameBody]

/-- Both modes answer alike on a frame of any other authentication code. -/
theorem parseFrame_modes {buf : Bytes} {len : Nat} (complete : Complete buf len)
    (known : ∀ code ∈ authenticationCode buf, code ∉ redefinedCodes) :
    parseFrame .standard (buf.headD 0) (frameBody buf len) =
      parseFrame .openGauss (buf.headD 0) (frameBody buf len) := by
  obtain ⟨field, large, whole⟩ := complete
  have long : 5 ≤ buf.length := by omega
  obtain ⟨tag, b₀, b₁, b₂, b₃, tail, same, -⟩ := lengthField_some long
  have head : buf.head? = some (buf.headD 0) := by rw [same]; rfl
  have agree : parseMessage .standard (buf.headD 0) (frameBody buf len) =
      parseMessage .openGauss (buf.headD 0) (frameBody buf len) := by
    by_cases authentication : buf.headD 0 = authenticationTag
    · rw [authentication] at head ⊢
      refine parseAuthentication_modes fun code redefined read => known code ?_ redefined
      rw [authenticationCode, field]
      exact (if_pos ⟨head, read.1⟩).trans (congrArg some read.2)
    · exact parseMessage_modes authentication _
  rw [parseFrame, agree, parseFrame]

/-- Every buffer whose length field fits `i32`: an incomplete frame is left
alone, a complete one is cut off and answered by its own bytes, and the modes
part only at the redefined authentication codes. -/
theorem parseWithMode_incremental (buf : Bytes) (small : ∀ len ∈ lengthField buf, len < 2 ^ 31) :
    (∀ mode,
      ((Message.parseWithMode mode buf).1 = .ok none ↔ Incomplete buf) ∧
      (Incomplete buf → (Message.parseWithMode mode buf).2 = buf) ∧
      (∀ message, (Message.parseWithMode mode buf).1 = .ok (some message) →
        ∃ len, Complete buf len ∧ (Message.parseWithMode mode buf).2 = buf.drop (1 + len)) ∧
      (∀ len rest, Complete buf len →
        Message.parseWithMode mode (buf.take (1 + len) ++ rest) =
          ((Message.parseWithMode mode buf).1, rest))) ∧
    (Header.parse buf = .ok none ↔ buf.length < 5) ∧
    (∀ header, Header.parse buf = .ok (some header) ↔
      ∃ len, lengthField buf = some len ∧ 4 ≤ len ∧ header = ⟨buf.headD 0, (len : Int)⟩) ∧
    ((∀ code ∈ authenticationCode buf, code ∉ redefinedCodes) →
      Message.parseWithMode .standard buf = Message.parseWithMode .openGauss buf) := by
  obtain ⟨noHeader, header⟩ := header_parse buf small
  refine ⟨fun mode => ⟨parseWithMode_none mode buf, fun short => ?_, fun message accepted => ?_,
    fun len rest whole => parseWithMode_append mode whole rest⟩, noHeader, header, fun known => ?_⟩
  · rw [parseWithMode_of_incomplete mode short]
  · cases framed buf with
    | incomplete short => rw [parseWithMode_of_incomplete mode short] at accepted; cases accepted
    | invalid len field small =>
        rw [parseWithMode_of_invalid mode field small] at accepted
        cases accepted
    | complete len whole => exact ⟨len, whole, by rw [parseWithMode_of_complete mode whole]⟩
  · cases framed buf with
    | incomplete short =>
        rw [parseWithMode_of_incomplete .standard short, parseWithMode_of_incomplete .openGauss short]
    | invalid len field small =>
        rw [parseWithMode_of_invalid .standard field small, parseWithMode_of_invalid .openGauss field small]
    | complete len whole =>
        rw [parseWithMode_of_complete .standard whole, parseWithMode_of_complete .openGauss whole,
          parseFrame_modes whole known]

theorem parseWithMode_incremental_ready :
    (Message.parseWithMode .openGauss [90, 0, 0, 0, 5, 73, 90]).2 = [90] ∧
      Message.parseWithMode .standard [90, 0, 0, 0, 5, 73, 90] =
        (.ok (some (.readyForQuery 73)), [90]) := by
  have small : ∀ len ∈ lengthField [90, 0, 0, 0, 5, 73, 90], len < 2 ^ 31 := by
    intro len field
    obtain rfl := Option.some.inj field
    decide
  obtain ⟨frames, -, -, modes⟩ := parseWithMode_incremental [90, 0, 0, 0, 5, 73, 90] small
  have plain : authenticationCode [90, 0, 0, 0, 5, 73, 90] = none := by decide +kernel
  have agree := modes fun code read => by rw [plain] at read; cases read
  have accepted : (Message.parseWithMode .openGauss [90, 0, 0, 0, 5, 73, 90]).1 =
      .ok (some (.readyForQuery 73)) := by decide +kernel
  obtain ⟨len, whole, rest⟩ := (frames .openGauss).2.2.1 (.readyForQuery 73) accepted
  obtain rfl := Option.some.inj whole.1
  exact ⟨rest, agree.trans (Prod.ext accepted rest)⟩

end Backend

end OpenGauss.Protocol
