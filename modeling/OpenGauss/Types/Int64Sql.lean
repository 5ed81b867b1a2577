import OpenGauss.Protocol.BackendProperties
import OpenGauss.Protocol.BigEndian
import OpenGauss.Protocol.Put
import OpenGauss.Types.FromSql

/-! Times, which are sent as one `i64` of microseconds (`opengauss-protocol`, `types/mod.rs`). -/

set_option autoImplicit false

namespace OpenGauss.Types

open Protocol Lib

/-- How writing a value ends without one. -/
inductive Stop where
  | panicked
  | failed (error : Failure)
  deriving DecidableEq, Repr

/-- Eight big-endian bytes. -/
def be64 (value : Nat) : Bytes := be32 (value / 2 ^ 32) ++ be32 (value % 2 ^ 32)

/-- The bytes of an `i64`. -/
def wire (value : Int64) : Bytes := be64 value.toUInt64.toNat

def putI64 (value : Int64) : Put Stop Unit := Builder.append (wire value)

def timestampToSql (v : Int64) : Put Stop Unit := putI64 v

def timeToSql (v : Int64) : Put Stop Unit := putI64 v

theorem beNat_append (front back : Bytes) :
    beNat (front ++ back) = beNat front * 256 ^ back.length + beNat back := by
  induction back using List.reverseRecOn with
  | nil => simp [beNat]
  | append_singleton back last ih =>
      rw [← List.append_assoc, beNat_concat, beNat_concat, ih, List.length_append,
        List.length_singleton, Nat.pow_succ, Nat.add_mul, Nat.mul_assoc, Nat.add_assoc]

theorem beNat_wire (value : Int64) : beNat (wire value) = value.toUInt64.toNat := by
  have bound := value.toUInt64.toNat_lt
  have length : (be32 (value.toUInt64.toNat % 2 ^ 32)).length = 4 := rfl
  rw [wire, be64, beNat_append, beNat_be32 _ (by omega), beNat_be32 _ (by omega), length]
  omega

theorem asI64_toUInt64 (value : Int64) : asI64 value.toUInt64.toNat = value.toInt := by
  have word : value.toUInt64.toNat = value.toBitVec.toNat := rfl
  rw [word, asI64, Int64.toInt, BitVec.toInt_eq_toNat_cond]
  split <;> split <;> omega

theorem wordFromSql_wire (value : Int64) (notDrained : Failure) :
    (wordFromSql 8 notDrained (wire value)).map asI64 = .ok value.toInt := by
  have length : (wire value).length = 8 := rfl
  have read : wordFromSql 8 notDrained (wire value) = .ok (beNat (wire value)) := rfl
  rw [read, beNat_wire, ← asI64_toUInt64]
  rfl

theorem timestampFromSql_wire (value : Int64) : timestampFromSql (wire value) = .ok value.toInt :=
  wordFromSql_wire value _

theorem timeFromSql_wire (value : Int64) : timeFromSql (wire value) = .ok value.toInt :=
  wordFromSql_wire value _

theorem wire_inj {value other : Int64} (same : wire value = wire other) : value = other := by
  have words := congrArg beNat same
  rw [beNat_wire, beNat_wire] at words
  have bits : value.toUInt64 = other.toUInt64 := UInt64.toNat_inj.mp words
  exact Int64.toBitVec_inj.mp (congrArg UInt64.toBitVec bits)

end OpenGauss.Types
