import OpenGauss.Protocol.Backend
import Mathlib.Data.List.Basic

/-! Big-endian words: the bytes of a word are determined by its size and its
value, and every value below `256 ^ size` has its bytes. -/

set_option autoImplicit false

namespace OpenGauss.Protocol

theorem beNat_concat (bytes : Bytes) (last : UInt8) :
    beNat (bytes ++ [last]) = beNat bytes * 256 + last.toNat := by
  rw [beNat, List.foldl_append]
  rfl

theorem exists_concat {bytes : Bytes} {size : Nat} (long : bytes.length = size + 1) :
    ∃ front last, bytes = front ++ [last] ∧ front.length = size := by
  obtain rfl | ⟨front, last, rfl⟩ := List.eq_nil_or_concat bytes
  · cases long
  · rw [List.concat_eq_append, List.length_append, List.length_singleton] at long
    exact ⟨front, last, List.concat_eq_append, Nat.succ.inj long⟩

theorem beNat_lt_pow {size : Nat} {bytes : Bytes} (long : bytes.length = size) :
    beNat bytes < 256 ^ size := by
  induction size generalizing bytes with
  | zero =>
      rw [List.eq_nil_of_length_eq_zero long]
      decide
  | succ size ih =>
      obtain ⟨front, last, rfl, shorter⟩ := exists_concat long
      have small := ih shorter
      have byte := last.toNat_lt
      rw [beNat_concat, Nat.pow_succ]
      omega

theorem beNat_inj {size : Nat} {left right : Bytes} (leftLong : left.length = size)
    (rightLong : right.length = size) (same : beNat left = beNat right) : left = right := by
  induction size generalizing left right with
  | zero => rw [List.eq_nil_of_length_eq_zero leftLong, List.eq_nil_of_length_eq_zero rightLong]
  | succ size ih =>
      obtain ⟨front, last, rfl, leftShorter⟩ := exists_concat leftLong
      obtain ⟨other, final, rfl, rightShorter⟩ := exists_concat rightLong
      have byte := last.toNat_lt
      have otherByte := final.toNat_lt
      rw [beNat_concat, beNat_concat] at same
      have fronts : beNat front = beNat other := by omega
      have lasts : last.toNat = final.toNat := by omega
      rw [ih leftShorter rightShorter fronts, UInt8.toNat_inj.mp lasts]

theorem exists_beNat {size value : Nat} (small : value < 256 ^ size) :
    ∃ bytes : Bytes, bytes.length = size ∧ beNat bytes = value := by
  induction size generalizing value with
  | zero => exact ⟨[], rfl, (Nat.lt_one_iff.mp small).symm⟩
  | succ size ih =>
      rw [Nat.pow_succ] at small
      obtain ⟨bytes, long, front⟩ := ih (Nat.div_lt_of_lt_mul (Nat.mul_comm .. ▸ small))
      refine ⟨bytes ++ [UInt8.ofNat (value % 256)], ?_, ?_⟩
      · rw [List.length_append, long, List.length_singleton]
      · rw [beNat_concat, front, UInt8.toNat_ofNat']
        omega

end OpenGauss.Protocol
