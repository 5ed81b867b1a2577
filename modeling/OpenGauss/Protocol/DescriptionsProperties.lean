import OpenGauss.Lib.Exact
import OpenGauss.Protocol.ArraySqlProperties
import OpenGauss.Protocol.BigEndian
import OpenGauss.Protocol.Descriptions
import OpenGauss.Protocol.FrontendDecoding

/-! The bodies that count their items are accepted exactly when they hold as many items as they
say, and nothing else. -/

set_option autoImplicit false

namespace OpenGauss.Protocol.Backend

open Lib Lib.Scan Buffer

/-! ### Words -/

theorem exact_readExact (count : Nat) :
    Exact (readExact count) fun bytes wire => wire = bytes ∧ bytes.length = count := by
  intro input bytes rest
  unfold readExact
  split
  · next short =>
    constructor
    · intro impossible
      cases impossible
    · rintro ⟨wire, ⟨rfl, size⟩, rfl⟩
      rw [List.length_append, size] at short
      omega
  · next long =>
    constructor
    · intro same
      cases same
      exact ⟨input.take count, ⟨rfl, by simp; omega⟩, by simp⟩
    · rintro ⟨wire, ⟨rfl, rfl⟩, rfl⟩
      simp

/-- A word that is made of its bytes, and has them back. -/
theorem exact_word {Word : Type} {size : Nat} (make : Nat → Word) {form : Word → Bytes}
    (long : ∀ word, (form word).length = size) (back : ∀ word, make (beNat (form word)) = word)
    (only : ∀ bytes : Bytes, bytes.length = size → form (make (beNat bytes)) = bytes) :
    Exact (do return make (beNat (← readExact size)) : BufferM Word)
      fun word wire => wire = form word := by
  refine ((exact_readExact size).answer fun bytes => make (beNat bytes)).imp fun word wire => ?_
  constructor
  · rintro ⟨bytes, ⟨rfl, sized⟩, rfl⟩
    exact (only wire sized).symm
  · rintro rfl
    exact ⟨form word, ⟨rfl, long word⟩, (back word).symm⟩

theorem be16_beNat {bytes : Bytes} (two : bytes.length = 2) : be16 (beNat bytes) = bytes := by
  match bytes with
  | [b₀, b₁] =>
    have small₀ := b₀.toNat_lt
    have small₁ := b₁.toNat_lt
    simp only [be16, beNat, List.foldl_cons, List.foldl_nil, List.cons.injEq, and_true]
    refine ⟨?_, ?_⟩ <;> apply UInt8.toNat_inj.mp <;> rw [UInt8.toNat_ofNat'] <;> omega

theorem toNat_ofNat_beNat16 {bytes : Bytes} (two : bytes.length = 2) :
    (UInt16.ofNat (beNat bytes)).toNat = beNat bytes := by
  have small : beNat bytes < 2 ^ 16 := beNat_lt_pow two
  rw [UInt16.toNat_ofNat', Nat.mod_eq_of_lt small]

theorem toNat_ofNat_beNat32 {bytes : Bytes} (four : bytes.length = 4) :
    (UInt32.ofNat (beNat bytes)).toNat = beNat bytes := by
  have small : beNat bytes < 2 ^ 32 := beNat_lt_pow four
  rw [UInt32.toNat_ofNat', Nat.mod_eq_of_lt small]

theorem exact_readU32 : Exact readU32 fun word wire => wire = be32 word.toNat :=
  exact_word UInt32.ofNat (fun _ => rfl) (fun word => by simp [beNat_be32 _ word.toNat_lt])
    fun bytes four => by rw [toNat_ofNat_beNat32 four, ArraySql.be32_beNat four]

theorem exact_readInt32 : Exact readInt32 fun word wire => wire = i32Wire word :=
  exact_word (fun word => (UInt32.ofNat word).toInt32) (fun _ => rfl)
    (fun word => by simp [i32Wire, beNat_be32 _ word.toUInt32.toNat_lt])
    fun bytes four => by
      rw [i32Wire, UInt32.toUInt32_toInt32, toNat_ofNat_beNat32 four, ArraySql.be32_beNat four]

theorem exact_readWord16 : Exact readWord16 fun word wire => wire = be16 word.toNat :=
  exact_word UInt16.ofNat (fun _ => rfl)
    (fun word => by simp [FrontendBuffer.beNat_be16 _ word.toNat_lt])
    fun bytes two => by rw [toNat_ofNat_beNat16 two, be16_beNat two]

theorem exact_readInt16 :
    Exact readInt16 fun word wire => wire = be16 word.toUInt16.toNat :=
  exact_word (fun word => (UInt16.ofNat word).toInt16) (fun _ => rfl)
    (fun word => by simp [FrontendBuffer.beNat_be16 _ word.toUInt16.toNat_lt])
    fun bytes two => by
      rw [UInt16.toUInt16_toInt16, toNat_ofNat_beNat16 two, be16_beNat two]

/-! ### Names -/

theorem readCstr_front {bytes : Bytes} (none : 0 ∉ bytes) (rest : Bytes) :
    readCstr (bytes ++ [0] ++ rest) = .ok (bytes, rest) := by
  have inside : ∀ byte ∈ bytes, (!decide (byte = 0)) = true := by
    intro byte member
    simpa using fun zero : byte = 0 => none (zero ▸ member)
  simp [readCstr, List.takeWhile_append_of_pos inside, List.dropWhile_append_of_pos inside]

theorem exact_readCstr : Exact readCstr fun bytes wire => wire = bytes ++ [0] ∧ 0 ∉ bytes := by
  intro input bytes rest
  constructor
  · intro read
    by_cases found : (0 : UInt8) ∈ input
    · obtain ⟨front, back, rfl, none⟩ := List.eq_append_cons_of_mem found
      have same := readCstr_front none back
      rw [List.append_assoc, List.singleton_append, read] at same
      cases same
      exact ⟨_, ⟨rfl, none⟩, by simp⟩
    · simp [readCstr, found] at read
  · rintro ⟨_, ⟨rfl, none⟩, rfl⟩
    exact readCstr_front none rest

theorem textOf_ok {bytes : Bytes} {text : List Char} :
    textOf bytes = .ok text ↔ bytes = Utf8.encode text := by
  unfold textOf
  constructor
  · intro read
    cases decoded : Utf8.decode? bytes with
    | none => simp [decoded] at read
    | some found =>
        simp only [decoded] at read
        cases read
        exact (Utf8.encode_of_decode? decoded).symm
  · rintro rfl
    simp [Utf8.decode?_encode]

/-! ### Fields -/

def fieldWire (field : Field) : Bytes :=
  Utf8.encode field.name ++ [0] ++ be32 field.tableOid.toNat ++ be16 field.columnId.toUInt16.toNat ++
    be32 field.typeOid.toNat ++ be16 field.typeSize.toUInt16.toNat ++ i32Wire field.typeModifier ++
    be16 field.format.toUInt16.toNat

theorem exact_readField :
    Exact readField fun field wire => 0 ∉ Utf8.encode field.name ∧ wire = fieldWire field := by
  refine (exact_readCstr.bind fun bytes => (exact_lift _).bind fun name =>
    exact_readU32.bind fun tableOid => exact_readInt16.bind fun columnId =>
    exact_readU32.bind fun typeOid => exact_readInt16.bind fun typeSize =>
    exact_readInt32.bind fun typeModifier => exact_readInt16.answer fun format =>
      (⟨name, tableOid, columnId, typeOid, typeSize, typeModifier, format⟩ : Field)).imp ?_
  intro field wire
  constructor
  · rintro ⟨bytes, _, _, ⟨rfl, none⟩, ⟨name, _, _, ⟨text, rfl⟩, ⟨tableOid, _, _, rfl, ⟨columnId, _, _,
      rfl, ⟨typeOid, _, _, rfl, ⟨typeSize, _, _, rfl, ⟨typeModifier, _, _, rfl, ⟨format, rfl, rfl⟩,
      rfl⟩, rfl⟩, rfl⟩, rfl⟩, rfl⟩, rfl⟩, rfl⟩
    obtain rfl := textOf_ok.mp text
    exact ⟨none, by simp [fieldWire]⟩
  · rintro ⟨none, rfl⟩
    exact ⟨_, _, _, ⟨rfl, none⟩, ⟨field.name, _, _, ⟨textOf_ok.mpr rfl, rfl⟩, ⟨field.tableOid, _, _,
      rfl, ⟨field.columnId, _, _, rfl, ⟨field.typeOid, _, _, rfl, ⟨field.typeSize, _, _, rfl,
      ⟨field.typeModifier, _, _, rfl, ⟨field.format, rfl, rfl⟩, rfl⟩, rfl⟩, rfl⟩, rfl⟩, rfl⟩, rfl⟩,
      by simp [fieldWire]⟩

/-! ### The iterators -/

namespace Counted

variable {Item : Type} {item : BufferM Item} {undrained : String}
  {form : Item → Bytes → Prop}

theorem collectUpTo_ok (exact : Exact item form) {turns : Nat} {self : Counted} {items : List Item}
    (enough : self.remaining < turns) :
    collectUpTo (next item undrained) turns self = .ok items ↔
      ∃ wires, List.Forall₂ form items wires ∧ self.remaining = items.length ∧
        self.buf = wires.flatten := by
  induction turns generalizing self items with
  | zero => cases enough
  | succ turns ih =>
      obtain ⟨buf, remaining⟩ := self
      cases remaining with
      | zero =>
          cases empty : buf.isEmpty with
          | true =>
              have none : buf = [] := List.isEmpty_iff.mp empty
              subst none
              constructor
              · intro same
                cases same
                exact ⟨[], .nil, rfl, rfl⟩
              · rintro ⟨wires, formed, size, whole⟩
                rw [List.length_eq_zero_iff.mp size.symm]
                rfl
          | false =>
              simp only [collectUpTo, next, empty, Bool.false_eq_true, if_false]
              constructor
              · intro impossible
                cases impossible
              · rintro ⟨wires, formed, size, rfl⟩
                obtain rfl := List.length_eq_zero_iff.mp size.symm
                cases formed
                cases empty
      | succ remaining =>
          have later (rest : Bytes) (others : List Item) :
              collectUpTo (next item undrained) turns ⟨rest, remaining⟩ = .ok others ↔
                ∃ wires, List.Forall₂ form others wires ∧ remaining = others.length ∧
                  rest = wires.flatten :=
            ih (Nat.lt_of_succ_lt_succ enough)
          cases read : item buf with
          | error error =>
              simp only [collectUpTo, next, read]
              constructor
              · intro impossible
                cases impossible
              · rintro ⟨wires, formed, size, rfl⟩
                cases formed with
                | nil => cases size
                | @cons first wire _ wires one others =>
                    have found := (exact _ first wires.flatten).mpr ⟨wire, one, rfl⟩
                    rw [List.flatten_cons, found] at read
                    cases read
          | ok done =>
              obtain ⟨first, rest⟩ := done
              obtain ⟨wire, one, split⟩ := (exact buf first rest).mp read
              simp only [collectUpTo, next, read]
              constructor
              · intro collected
                cases others : collectUpTo (next item undrained) turns ⟨rest, remaining⟩ with
                | error error => simp [others, Except.map] at collected
                | ok tail =>
                    simp only [others, Except.map] at collected
                    cases collected
                    obtain ⟨wires, formed, size, whole⟩ := (later rest tail).mp others
                    exact ⟨wire :: wires, .cons one formed, by simpa using size,
                      by rw [List.flatten_cons, ← whole, ← split]⟩
              · rintro ⟨wires, formed, size, whole⟩
                cases formed with
                | nil => cases size
                | @cons other wire' items wires one' others =>
                    have found := (exact buf other wires.flatten).mpr ⟨wire', one', whole⟩
                    rw [read] at found
                    cases found
                    have tail := (later _ items).mpr ⟨wires, others, by simpa using size, rfl⟩
                    simp [tail, Except.map]

theorem collect_ok (exact : Exact item form) {body : CountedBody} {items : List Item} :
    collect (next item undrained) body = .ok items ↔
      ∃ wires, List.Forall₂ form items wires ∧ body.len = items.length ∧
        body.storage = wires.flatten :=
  collectUpTo_ok exact (Nat.lt_succ_self _)

/-- The same for items of one form only. -/
theorem collect_flatMap {valid : Item → Prop} {wire : Item → Bytes}
    (exact : Exact item fun item bytes => valid item ∧ bytes = wire item) {body : CountedBody}
    {items : List Item} :
    collect (next item undrained) body = .ok items ↔
      (∀ item ∈ items, valid item) ∧ body.len = items.length ∧ body.storage = items.flatMap wire := by
  rw [collect_ok exact]
  constructor
  · rintro ⟨wires, formed, size, whole⟩
    have same : (∀ item ∈ items, valid item) ∧ wires = items.map wire := by
      clear size whole
      induction formed with
      | nil => simp
      | cons one others ih =>
          simp only [List.forall_mem_cons, List.map_cons]
          exact ⟨⟨one.1, ih.1⟩, by rw [one.2, ih.2]⟩
    exact ⟨same.1, size, by rw [whole, same.2, List.flatMap_def]⟩
  · rintro ⟨all, size, whole⟩
    refine ⟨items.map wire, ?_, size, by rw [whole, List.flatMap_def]⟩
    clear size whole
    induction items with
    | nil => exact .nil
    | cons first items ih =>
        exact .cons ⟨all first List.mem_cons_self, rfl⟩
          (ih fun item member => all item (List.mem_cons_of_mem _ member))

end Counted

/-- The bodies of the three messages are accepted exactly when they hold as many items as they say,
one after the other, and nothing else; names have no zero byte. -/
theorem descriptions_exact (body : CountedBody) :
    (∀ oids, parameters body = .ok oids ↔
        body.len = oids.length ∧ body.storage = oids.flatMap fun oid => be32 oid.toNat) ∧
      (∀ formats, columnFormats body = .ok formats ↔
        body.len = formats.length ∧ body.storage = formats.flatMap fun format => be16 format.toNat) ∧
      ∀ found, fields body = .ok found ↔
        (∀ field ∈ found, 0 ∉ Utf8.encode field.name) ∧ body.len = found.length ∧
          body.storage = found.flatMap fieldWire := by
  refine ⟨fun oids => ?_, fun formats => ?_, fun found => ?_⟩
  · have exact : Exact readU32 fun word wire => True ∧ wire = be32 word.toNat :=
      exact_readU32.imp fun _ _ => by simp
    exact Counted.collect_flatMap exact |>.trans (by simp)
  · have exact : Exact readWord16 fun word wire => True ∧ wire = be16 word.toNat :=
      exact_readWord16.imp fun _ _ => by simp
    exact Counted.collect_flatMap exact |>.trans (by simp)
  · exact Counted.collect_flatMap exact_readField

end OpenGauss.Protocol.Backend
