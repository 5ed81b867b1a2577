import OpenGauss.Protocol.FrontendBufferProperties
import OpenGauss.Protocol.Frontend
import OpenGauss.Lib.Grammar

/-! What the server reads: `Bind` and `Parse` messages by the protocol grammar,
and that it reads what the calls were given. -/

set_option autoImplicit false

namespace OpenGauss.Protocol.FrontendBuffer

open Lib

/-! ### The grammar -/

abbrev WireReader (Value : Type) := Reader UInt8 Value

def byteWord : WireReader UInt8 := do
  let bytes ← Reader.take 1
  return bytes.headD 0

def word16 : WireReader Nat := do
  return beNat (← Reader.take 2)

def word32 : WireReader Nat := do
  return beNat (← Reader.take 4)

def str : WireReader Str := do
  let bytes ← Reader.through 0
  Reader.lift (Utf8.decode? bytes)

def format : WireReader Int16 := do
  return (UInt16.ofNat (← word16)).toInt16

def oid : WireReader UInt32 := do
  return UInt32.ofNat (← word32)

def counted {Value : Type} (item : WireReader Value) : WireReader (List Value) := do
  Reader.times item (← word16)

/-- A value behind its length; a length of `-1` is the null. -/
def parameter : WireReader (Option Bytes) := do
  let size ← word32
  if size = 4294967295 then return none
  else return some (← Reader.take size)

structure BindMessage where
  portal : Str
  statement : Str
  formats : List Int16
  values : List (Option Bytes)
  resultFormats : List Int16
  deriving DecidableEq

structure ParseMessage where
  name : Str
  query : Str
  paramTypes : List UInt32
  deriving DecidableEq

def bindBody : WireReader BindMessage := do
  let portal ← str
  let statement ← str
  let formats ← counted format
  let values ← counted parameter
  let resultFormats ← counted format
  return { portal, statement, formats, values, resultFormats }

def parseBody : WireReader ParseMessage := do
  let name ← str
  let query ← str
  let paramTypes ← counted oid
  return { name, query, paramTypes }

/-- A message of one tag, whose length field counts itself and the body. -/
def decodeMessage {Value : Type} (tag : UInt8) (body : WireReader Value) (message : Bytes) : Option Value := do
  let (found, rest) ← byteWord message
  let (size, content) ← word32 rest
  if found = tag ∧ size = content.length + 4 then Reader.whole body content else none

def decodeBind : Bytes → Option BindMessage := decodeMessage 66 bindBody

def decodeParse : Bytes → Option ParseMessage := decodeMessage 80 parseBody

/-! ### Reading what was written -/

theorem beNat_be16 (value : Nat) (fits : value < 2 ^ 16) : beNat (be16 value) = value := by
  simp only [beNat, be16, List.foldl_cons, List.foldl_nil, UInt8.toNat_ofNat']
  omega

theorem reads_word16 {value : Nat} (fits : value < 2 ^ 16) : Reader.Reads word16 (be16 value) value := by
  have read := (Reader.reads_take (be16 value)).answer beNat
  rwa [beNat_be16 value fits] at read

theorem reads_word32 {value : Nat} (fits : value < 2 ^ 32) : Reader.Reads word32 (be32 value) value := by
  have read := (Reader.reads_take (be32 value)).answer beNat
  rwa [beNat_be32 value fits] at read

theorem reads_str {s : Str} (plain : 0 ∉ asBytes s) : Reader.Reads str (asBytes s ++ [0]) s := by
  have read : Reader.Reads str (asBytes s ++ [0] ++ []) s :=
    (Reader.reads_through plain).bind (Reader.reads_lift (Utf8.decode?_encode s))
  rwa [List.append_nil] at read

theorem reads_format (value : Int16) : Reader.Reads format (formatWire value) value := by
  have read := (reads_word16 value.toUInt16.toNat_lt).answer fun word => (UInt16.ofNat word).toInt16
  rwa [UInt16.ofNat_toNat] at read

theorem reads_oid (value : UInt32) : Reader.Reads oid (oidWire value) value := by
  have read := (reads_word32 value.toNat_lt).answer UInt32.ofNat
  rwa [UInt32.ofNat_toNat] at read

theorem reads_parameter {value : Option Bytes} (fits : FitsI32 value) :
    Reader.Reads parameter (nullable value) value := by
  cases value with
  | none =>
    have null : Reader.Reads parameter (be32 4294967295 ++ []) none :=
      (reads_word32 (by decide)).bind (Reader.reads_pure none)
    exact null
  | some bytes =>
    have small : bytes.length < 2 ^ 31 := fits bytes rfl
    refine (reads_word32 (by omega)).bind ?_
    rw [if_neg (by omega)]
    exact (Reader.reads_take bytes).answer some

theorem reads_counted {Value Item : Type} {item : WireReader Value} {wire : Item → Bytes} {value : Item → Value}
    {items : List Item} (fits : items.length < 2 ^ 16)
    (reads : ∀ entry ∈ items, Reader.Reads item (wire entry) (value entry)) :
    Reader.Reads (counted item) (be16 items.length ++ items.flatMap wire) (items.map value) :=
  (reads_word16 fits).bind (Reader.reads_times reads)

theorem decodeMessage_frame {Value : Type} {reader : WireReader Value} {fields : List Field} {value : Value}
    (tag : UInt8) (small : (body fields).length + 4 < 2 ^ 31) (reads : Reader.Reads reader (body fields) value) :
    decodeMessage tag reader (frame (some tag) fields) = some value := by
  have size := reads_word32 (show (body fields).length + 4 < 2 ^ 32 by omega) (body fields)
  have first : byteWord (frame (some tag) fields) =
      some (tag, be32 ((body fields).length + 4) ++ body fields) := by
    have read := (Reader.reads_take [tag]).answer fun bytes => bytes.headD 0
    have split : frame (some tag) fields = [tag] ++ (be32 ((body fields).length + 4) ++ body fields) := by
      simp [frame]
    rw [split]
    exact read _
  rw [decodeMessage, first]
  simp only [Option.bind_eq_bind, Option.bind_some, size, true_and, if_true]
  exact reads.whole_eq

theorem reads_countedField {Item : Type} {item : WireReader Item} {wire : Item → Bytes} {items : List Item}
    (fits : (Field.counted (items.map wire)).Fits) (reads : ∀ entry, Reader.Reads item (wire entry) entry) :
    Reader.Reads (counted item) (Field.counted (items.map wire)).wire items := by
  have small : items.length < 2 ^ 16 := by simpa [Field.Fits] using fits
  have list : Reader.Reads (counted item) (be16 items.length ++ items.flatMap wire) (items.map id) :=
    reads_counted small fun entry _ => reads entry
  rw [List.map_id] at list
  rw [Field.wire, List.length_map, ← List.flatMap_def]
  exact list

theorem reads_nullables {values : List (Option Bytes)} (fits : (Field.nullables values).Fits) :
    Reader.Reads (counted parameter) (Field.nullables values).wire values := by
  have list : Reader.Reads (counted parameter) (be16 values.length ++ values.flatMap nullable) (values.map id) :=
    reads_counted fits.1 fun value member => reads_parameter (fits.2 value member)
  rwa [List.map_id] at list

theorem reads_bindBody {portal statement : Str} {formats : List Int16} {values : List (Option Bytes)}
    {resultFormats : List Int16}
    (fits : ∀ field ∈ bindHead portal statement formats ++
      [.nullables values, .counted (resultFormats.map formatWire)], field.Fits) :
    Reader.Reads bindBody (body (bindHead portal statement formats ++
        [.nullables values, .counted (resultFormats.map formatWire)]))
      ⟨portal, statement, formats, values, resultFormats⟩ := by
  simp only [bindHead, List.cons_append, List.nil_append, List.forall_mem_cons] at fits
  obtain ⟨portalFits, statementFits, formatsFit, valuesFit, resultsFit, -⟩ := fits
  refine (reads_str portalFits).bind ?_
  refine (reads_str statementFits).bind ?_
  refine (reads_countedField formatsFit reads_format).bind ?_
  refine (reads_nullables valuesFit).bind ?_
  refine (reads_countedField resultsFit reads_format).bind ?_
  exact Reader.reads_pure _

theorem reads_parseBody {name query : Str} {paramTypes : List UInt32}
    (fits : ∀ field ∈ ([.cstr (asBytes name), .cstr (asBytes query), .counted (paramTypes.map oidWire)] :
      List Field), field.Fits) :
    Reader.Reads parseBody
      (body [.cstr (asBytes name), .cstr (asBytes query), .counted (paramTypes.map oidWire)])
      ⟨name, query, paramTypes⟩ := by
  simp only [List.forall_mem_cons] at fits
  obtain ⟨nameFits, queryFits, typesFit, -⟩ := fits
  refine (reads_str nameFits).bind ?_
  refine (reads_str queryFits).bind ?_
  refine (reads_countedField typesFit reads_oid).bind ?_
  exact Reader.reads_pure _

/-! ### Sequences of calls -/

/-- What the server makes of a `Bind` or a `Parse` is what the call was given. -/
def Call.Decodes (call : Call) (values : List (Option Bytes)) (message : Bytes) : Prop :=
  match call with
  | .bind portal statement formats _ _ _ resultFormats =>
      decodeBind message = some { portal, statement, formats, values, resultFormats }
  | .parse name text paramTypes => decodeParse message = some { name, query := text, paramTypes }
  | _ => True

theorem call_decodes (call : Call) {values : List (Option Bytes)} (fits : FrameFits (call.fields values)) :
    call.Decodes values (frame call.tag (call.fields values)) := by
  cases call with
  | bind portal statement formats items serializer captured resultFormats =>
      exact decodeMessage_frame 66 fits.2 (reads_bindBody fits.1)
  | parse name text paramTypes => exact decodeMessage_frame 80 fits.2 (reads_parseBody fits.1)
  | _ => trivial

theorem call_values_unique {call : Call} {buf : Bytes} {first second : List (Option Bytes)}
    (left : call.Values buf first) (right : call.Values buf second) : first = second := by
  cases call with
  | bind portal statement formats items serializer captured resultFormats =>
      obtain ⟨final, first⟩ := left
      obtain ⟨other, second⟩ := right
      exact first.unique second
  | _ => exact left.trans right.symm

theorem runCalls_append (before after : List Call) (buf : Bytes) :
    runCalls (before ++ after) buf = runCalls after (runCalls before buf) :=
  List.foldl_append

/-- No call, whether it fails or not, touches what stands in the buffer. -/
theorem runCalls_extends (calls : List Call) (appending : ∀ call ∈ calls, call.AppendOnly) (buf : Bytes) :
    buf <+: runCalls calls buf := by
  induction calls generalizing buf with
  | nil => exact List.prefix_refl buf
  | cons call calls ih =>
    obtain ⟨first, rest⟩ := List.forall_mem_cons.mp appending
    exact ((call_sends call first).extending buf).trans (ih rest _)

/-- In every sequence of calls each one that succeeds appends one message,
which decodes to its arguments, and each one that cannot be sent fails. -/
theorem runCalls_messages (before after : List Call) (call : Call) (buf : Bytes)
    (appending : ∀ each ∈ before ++ call :: after, each.AppendOnly) :
    buf <+: runCalls before buf ∧
    runCalls before buf <+: runCalls (before ++ [call]) buf ∧
    runCalls (before ++ [call]) buf <+: runCalls (before ++ call :: after) buf ∧
    ((call.put.execute (runCalls before buf)).1 = .ok () →
      ∃ values content, (∀ other, call.Values (runCalls before buf) other ↔ other = values) ∧
        content.length + 4 < 2 ^ 31 ∧
        runCalls (before ++ [call]) buf =
          runCalls before buf ++ (call.tag.toList ++ be32 (content.length + 4) ++ content) ∧
        call.Decodes values (call.tag.toList ++ be32 (content.length + 4) ++ content)) ∧
    ((∃ error, (call.put.execute (runCalls before buf)).1 = .error error) ↔
      ∀ values, call.Values (runCalls before buf) values → ¬FrameFits (call.fields values)) := by
  obtain ⟨earlier, own, later⟩ : (∀ each ∈ before, each.AppendOnly) ∧ call.AppendOnly ∧
      ∀ each ∈ after, each.AppendOnly := by
    simpa [or_imp, forall_and] using appending
  have sends := call_sends call own
  have last : runCalls (before ++ [call]) buf = (call.put.execute (runCalls before buf)).2 := by
    rw [runCalls_append]
    rfl
  have all : runCalls (before ++ call :: after) buf = runCalls after (runCalls (before ++ [call]) buf) := by
    rw [← runCalls_append, List.append_assoc, List.singleton_append]
  refine ⟨runCalls_extends before earlier buf, ?_, ?_, fun succeeded => ?_, ?_⟩
  · rw [last]
    exact sends.extending _
  · rw [all]
    exact runCalls_extends after later _
  · have ran : Builder.Ok call.put (runCalls before buf) () (runCalls (before ++ [call]) buf) := by
      rw [last]
      exact Prod.ext succeeded rfl
    obtain ⟨values, written, fits, same⟩ := (sends.ok _ _ _).mp ran
    refine ⟨values, body (call.fields values), fun other => ⟨fun right => call_values_unique right written, ?_⟩,
      fits.2, same, call_decodes call fits⟩
    rintro rfl
    exact written
  · cases outcome : (call.put.execute (runCalls before buf)).1 with
    | error error =>
      simp only [Except.error.injEq, exists_eq', true_iff]
      intro values written fits
      have ran := (sends.ok (runCalls before buf) () _).mpr ⟨values, written, fits, rfl⟩
      have succeeded : (call.put.execute (runCalls before buf)).1 = .ok () := congrArg Prod.fst ran
      rw [outcome] at succeeded
      cases succeeded
    | ok done =>
      simp only [reduceCtorEq, exists_false, false_iff, not_forall]
      obtain ⟨values, written, fits, -⟩ := (sends.ok (runCalls before buf) done _).mp (Prod.ext outcome rfl)
      exact ⟨values, written, fun misfit => misfit fits⟩

theorem runCalls_messages_bind :
    decodeBind (runCalls [.bind ['p'] ['s'] [1] [some [7, 8], none, some []] (ofEncoder id) () [0]] []) =
      some { portal := ['p'], statement := ['s'], formats := [1], values := [some [7, 8], none, some []],
             resultFormats := [0] } := by
  have laws := runCalls_messages [] [.sync]
    (.bind ['p'] ['s'] [1] [some [7, 8], none, some []] (ofEncoder id) () [0]) []
    (List.forall_mem_cons.mpr ⟨appendOnly_ofEncoder id, List.forall_mem_singleton.mpr trivial⟩)
  obtain ⟨-, -, -, sends, -⟩ := laws
  obtain ⟨values, content, only, -, appended, decodes⟩ := sends (by decide +kernel)
  obtain rfl := (only _).mp ⟨(), serialized_ofEncoder id _ _⟩
  refine (congrArg decodeBind appended).trans ?_
  exact decodes

/-- The calls that the source follows with `unwrap`. -/
def Call.unwrapped : Call → Prop
  | .cancelRequest .. | .copyDone | .sslRequest | .flush | .sync | .terminate => True
  | _ => False

/-- No `unwrap` of a builder panics. -/
theorem unwrapped_ok {call : Call} (unwrapped : call.unwrapped) (buf : Bytes) :
    (call.put.execute buf).1 = .ok () := by
  have noValues : call.Values buf [] := by
    cases call <;> first | exact False.elim unwrapped | exact rfl
  have appending : call.AppendOnly := by
    cases call <;> first | exact False.elim unwrapped | exact trivial
  have fits : FrameFits (call.fields []) := by
    cases call <;> first
      | exact False.elim unwrapped
      | simp [FrameFits, Call.fields, Field.Fits, body, Field.wire, i32Wire]
  have ran := ((call_sends call appending).ok buf () _).mpr ⟨[], noValues, fits, rfl⟩
  exact congrArg Prod.fst ran

/-! ### The builders that answer what they append -/

theorem frontend_writeCstr {s appended : Bytes} :
    Frontend.writeCstr s = .ok appended ↔ 0 ∉ s ∧ appended = s ++ [0] := by
  rw [Frontend.writeCstr]
  split
  · rename_i embedded
    have inside : 0 ∈ s := by simpa using embedded
    simp [inside]
  · rename_i plain
    have outside : 0 ∉ s := by simpa using plain
    simp [outside, eq_comm]

theorem frontend_bind {First Second : Type} {first : Except IoError First}
    {next : First → Except IoError Second} {result : Second} :
    (first >>= next) = .ok result ↔ ∃ value, first = .ok value ∧ next value = .ok result := by
  cases first with
  | error error => exact ⟨nofun, nofun⟩
  | ok value => exact ⟨fun ran => ⟨value, rfl, ran⟩, fun ⟨_, same, ran⟩ => Except.ok.inj same ▸ ran⟩

theorem frontend_fromUsize {x size : Nat} : Frontend.fromUsize x = .ok size ↔ x < 2 ^ 31 ∧ size = x := by
  rw [Frontend.fromUsize]
  split
  · exact ⟨nofun, by omega⟩
  · simp only [Except.ok.injEq]
    omega

theorem frontend_pure {Value : Type} {value result : Value} :
    (pure value : Except IoError Value) = .ok result ↔ result = value :=
  ⟨fun same => (Except.ok.inj same).symm, fun same => congrArg Except.ok same.symm⟩

theorem frontend_tagged {tag : Char} {content : Except IoError Bytes} {message : Bytes} :
    Frontend.tagged tag content = .ok message ↔ ∃ bytes, content = .ok bytes ∧ bytes.length + 4 < 2 ^ 31 ∧
      message = UInt8.ofNat tag.toNat :: be32 (bytes.length + 4) ++ bytes := by
  have written {result : Bytes} : Frontend.writeBody content = .ok result ↔
      ∃ bytes, content = .ok bytes ∧ bytes.length + 4 < 2 ^ 31 ∧
        result = be32 (bytes.length + 4) ++ bytes := by
    simp only [Frontend.writeBody, frontend_bind, frontend_fromUsize, frontend_pure]
    constructor
    · rintro ⟨bytes, answered, _, ⟨small, rfl⟩, rfl⟩
      exact ⟨bytes, answered, small, rfl⟩
    · rintro ⟨bytes, answered, small, rfl⟩
      exact ⟨bytes, answered, _, ⟨small, rfl⟩, rfl⟩
  rw [Frontend.tagged]
  constructor
  · intro accepted
    cases wrote : Frontend.writeBody content with
    | error error => rw [wrote] at accepted; cases accepted
    | ok result =>
      rw [wrote] at accepted
      obtain ⟨bytes, answered, small, rfl⟩ := written.mp wrote
      exact ⟨bytes, answered, small, (Except.ok.inj accepted).symm⟩
  · rintro ⟨bytes, answered, small, rfl⟩
    rw [written.mpr ⟨bytes, answered, small, rfl⟩]
    rfl

/-- A builder of one tagged message appends what its plain counterpart answers. -/
theorem Frames.answers {build : Put IoError Unit} {tag : Char} {fields : List Field}
    {content : Except IoError Bytes} (frames : Frames build (some (UInt8.ofNat tag.toNat)) fields)
    (same : ∀ bytes, content = .ok bytes ↔ (∀ field ∈ fields, field.Fits) ∧ bytes = body fields)
    {buf after : Bytes} {done : Unit} :
    Builder.Ok build buf done after ↔
      ∃ message, Frontend.tagged tag content = .ok message ∧ after = buf ++ message := by
  simp only [frames.ok, frontend_tagged, same, FrameFits, frame]
  constructor
  · rintro ⟨⟨fits, small⟩, rfl⟩
    exact ⟨_, ⟨_, ⟨fits, rfl⟩, small, rfl⟩, by simp⟩
  · rintro ⟨_, ⟨_, ⟨fits, rfl⟩, small, rfl⟩, rfl⟩
    exact ⟨⟨fits, small⟩, by simp⟩

theorem passwordMessage_answers (password : Bytes) {buf after : Bytes} {done : Unit} :
    Builder.Ok (passwordMessage password) buf done after ↔
      ∃ message, Frontend.passwordMessage password = .ok message ∧ after = buf ++ message := by
  refine Frames.answers ((appends_cstr password).tagged 112) fun bytes => ?_
  simp [frontend_writeCstr, Field.Fits, body, Field.wire]

theorem saslResponse_answers (data : Bytes) {buf after : Bytes} {done : Unit} :
    Builder.Ok (saslResponse data) buf done after ↔
      ∃ message, Frontend.saslResponse data = .ok message ∧ after = buf ++ message := by
  refine Frames.answers ((appends_bytes data).tagged 112) fun bytes => ?_
  simp [Field.Fits, body, Field.wire, eq_comm]

theorem saslInitialResponse_answers (mechanism : Str) (data : Bytes) {buf after : Bytes} {done : Unit} :
    Builder.Ok (saslInitialResponse mechanism data) buf done after ↔
      ∃ message, Frontend.saslInitialResponse mechanism data = .ok message ∧ after = buf ++ message := by
  have fields := (appends_string mechanism).next (appends_sized data)
  refine Frames.answers (fields.tagged 112) fun bytes => ?_
  simp only [frontend_bind, frontend_writeCstr, frontend_fromUsize, frontend_pure, List.forall_mem_append,
    List.forall_mem_singleton, Field.Fits, body_append]
  constructor
  · rintro ⟨_, ⟨plain, rfl⟩, _, ⟨small, rfl⟩, rfl⟩
    exact ⟨⟨plain, small⟩, by simp [body, Field.wire]⟩
  · rintro ⟨⟨plain, small⟩, rfl⟩
    exact ⟨_, ⟨plain, rfl⟩, _, ⟨small, rfl⟩, by simp [body, Field.wire]⟩

end OpenGauss.Protocol.FrontendBuffer
