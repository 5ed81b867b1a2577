import OpenGauss.Driver.Config
import OpenGauss.Lib.Radix

/-! The text form of a log sequence number (`opengauss-types`, `pg_lsn.rs`): two halves of 32
bits, of which each is read as a number of 64 bits. -/

set_option autoImplicit false

namespace OpenGauss.Types

open Driver Lib Radix

structure PgLsn where
  lsn : UInt64
  deriving DecidableEq, Repr

structure ParseLsnError where
  deriving DecidableEq, Repr

namespace PgLsn

def fromStr (lsnStr : Text) : Except ParseLsnError PgLsn :=
  match Text.splitTwo '/' lsnStr with
  | (_, none) => .error {}
  | (splitHi, some splitLo) =>
      match fromStrRadix (2 ^ 64) splitHi 16, fromStrRadix (2 ^ 64) splitLo 16 with
      | some hi, some lo => .ok ⟨UInt64.ofNat hi <<< 32 ||| UInt64.ofNat lo⟩
      | _, _ => .error {}

/-- `Display`. -/
def display (self : PgLsn) : Text :=
  upperHex (self.lsn >>> 32).toNat ++ '/' :: upperHex (self.lsn &&& 0x00000000ffffffff).toNat

/-! ### The halves -/

/-- Both halves of a text as it should be, with the position that they denote. -/
structure IsLsn (lsnStr hi lo : Text) (lsn : PgLsn) : Prop where
  split : lsnStr = hi ++ '/' :: lo
  hiNumeral : IsNumeral 16 hi
  loNumeral : IsNumeral 16 lo
  hiSmall : valueOf 16 hi < 2 ^ 32
  loSmall : valueOf 16 lo < 2 ^ 32
  denotes : lsn.lsn.toNat = valueOf 16 hi * 2 ^ 32 + valueOf 16 lo

/-- What is read is such a text. -/
def ReadsLsn (lsnStr : Text) : Prop :=
  ∀ lsn, fromStr lsnStr = .ok lsn → ∃ hi lo, IsLsn lsnStr hi lo lsn

/-- A half that is read, with its value. -/
structure IsHalf (text : Text) (value : Nat) : Prop where
  numeral : IsNumeral 16 (unsign text)
  denotes : valueOf 16 (unsign text) = value
  small : value < 2 ^ 64

/-- Two halves that are read, of which one has a sign or more than 32 bits. -/
def Lenient (lsnStr : Text) : Prop :=
  ∃ hi lo hiValue loValue, lsnStr = hi ++ '/' :: lo ∧ IsHalf hi hiValue ∧ IsHalf lo loValue ∧
    (hi.head? = some '+' ∨ lo.head? = some '+' ∨ 2 ^ 32 ≤ hiValue ∨ 2 ^ 32 ≤ loValue)

theorem fromStrRadix_half {text : Text} {value : Nat} :
    fromStrRadix (2 ^ 64) text 16 = some value ↔ IsHalf text value := by
  rw [fromStrRadix_iff]
  exact ⟨fun ⟨numeral, same, small⟩ => ⟨numeral, same, small⟩,
    fun half => ⟨half.numeral, half.denotes, half.small⟩⟩

theorem slash_digit : digit? 16 '/' = none := by decide

theorem plus_digit : digit? 16 '+' = none := by decide

theorem slash_not_mem {text : Text} (numeral : IsNumeral 16 text) : '/' ∉ text := by
  intro member
  have digit := numeral.digits '/' member
  rw [slash_digit] at digit
  cases digit

theorem slash_not_mem_half {text : Text} {value : Nat} (half : IsHalf text value) :
    '/' ∉ text := by
  intro member
  refine slash_not_mem half.numeral ?_
  unfold unsign
  split
  · exact (List.mem_cons.mp member).resolve_left (by decide)
  · exact member

theorem isNumeral_iff {text : Text} {value : Nat} (half : IsHalf text value) :
    IsNumeral 16 text ↔ text.head? ≠ some '+' := by
  have numeral := half.numeral
  constructor
  · intro unsigned plus
    obtain ⟨rest, rfl⟩ := List.head?_eq_some_iff.mp plus
    have digit := unsigned.digits '+' List.mem_cons_self
    rw [plus_digit] at digit
    cases digit
  · intro unsigned
    unfold unsign at numeral
    split at numeral
    · exact absurd rfl unsigned
    · exact numeral

/-- The text is split at its first slash. -/
theorem fromStr_iff {lsnStr : Text} {lsn : PgLsn} :
    fromStr lsnStr = .ok lsn ↔ ∃ hi lo hiValue loValue, lsnStr = hi ++ '/' :: lo ∧
      IsHalf hi hiValue ∧ IsHalf lo loValue ∧
      lsn = ⟨UInt64.ofNat hiValue <<< 32 ||| UInt64.ofNat loValue⟩ := by
  constructor
  · intro read
    rw [fromStr] at read
    split at read
    · cases read
    · next splitHi splitLo split =>
        split at read
        · next hi lo hiRead loRead =>
            refine ⟨splitHi, splitLo, hi, lo, ?_, fromStrRadix_half.mp hiRead,
              fromStrRadix_half.mp loRead, (Except.ok.inj read).symm⟩
            exact Text.splitTwo_some split
        · cases read
  · rintro ⟨hi, lo, hiValue, loValue, rfl, hiHalf, loHalf, rfl⟩
    rw [fromStr, Text.splitTwo_append (slash_not_mem_half hiHalf)]
    simp only [fromStrRadix_half.mpr hiHalf, fromStrRadix_half.mpr loHalf]

theorem toNat_halves {hi lo : Nat} (hiSmall : hi < 2 ^ 32) (loSmall : lo < 2 ^ 32) :
    (UInt64.ofNat hi <<< 32 ||| UInt64.ofNat lo).toNat = hi * 2 ^ 32 + lo := by
  have shift : (32 : UInt64).toNat % 64 = 32 := rfl
  rw [UInt64.toNat_or, UInt64.toNat_shiftLeft, shift, UInt64.toNat_ofNat', UInt64.toNat_ofNat',
    Nat.mod_eq_of_lt (by omega), Nat.mod_eq_of_lt (by omega), Nat.shiftLeft_eq,
    Nat.mod_eq_of_lt (by omega), ← Nat.shiftLeft_eq, ← Nat.shiftLeft_add_eq_or_of_lt loSmall,
    Nat.shiftLeft_eq]

theorem fromStr_display (lsn : PgLsn) : fromStr lsn.display = .ok lsn := by
  obtain ⟨word⟩ := lsn
  have bound := word.toNat_lt
  have hi : (word >>> 32).toNat = word.toNat / 2 ^ 32 := by
    rw [UInt64.toNat_shiftRight]
    exact Nat.shiftRight_eq_div_pow _ _
  have lo : (word &&& 0x00000000ffffffff).toNat = word.toNat % 2 ^ 32 := by
    rw [UInt64.toNat_and]
    exact Nat.and_two_pow_sub_one_eq_mod word.toNat 32
  have half {number : Nat} (small : number < 2 ^ 32) : IsHalf (upperHex number) number := by
    exact fromStrRadix_half.mp (fromStrRadix_upperHex (Nat.lt_trans small (by decide)))
  have hiSmall : (word >>> 32).toNat < 2 ^ 32 := by omega
  have loSmall : (word &&& 0x00000000ffffffff).toNat < 2 ^ 32 := by omega
  refine fromStr_iff.mpr ⟨_, _, _, _, rfl, half hiSmall, half loSmall, ?_⟩
  refine congrArg PgLsn.mk (UInt64.toNat_inj.mp ?_)
  rw [toNat_halves hiSmall loSmall, hi, lo]
  omega

theorem readsLsn_iff (lsnStr : Text) : ReadsLsn lsnStr ↔ ¬Lenient lsnStr := by
  constructor
  · rintro reads ⟨hi, lo, hiValue, loValue, rfl, hiHalf, loHalf, lenient⟩
    obtain ⟨first, second, isLsn⟩ :=
      reads _ (fromStr_iff.mpr ⟨hi, lo, hiValue, loValue, rfl, hiHalf, loHalf, rfl⟩)
    have same := Text.splitTwo_append (slash_not_mem_half hiHalf) lo
    rw [isLsn.split, Text.splitTwo_append (slash_not_mem isLsn.hiNumeral)] at same
    obtain ⟨rfl, second⟩ := Prod.mk.inj same
    obtain rfl := Option.some.inj second
    have hiSame := hiHalf.denotes
    have loSame := loHalf.denotes
    rw [unsign_numeral isLsn.hiNumeral plus_digit] at hiSame
    rw [unsign_numeral isLsn.loNumeral plus_digit] at loSame
    rcases lenient with hiSign | loSign | hiLarge | loLarge
    · exact (isNumeral_iff hiHalf).mp isLsn.hiNumeral hiSign
    · exact (isNumeral_iff loHalf).mp isLsn.loNumeral loSign
    · exact Nat.not_lt.mpr hiLarge (hiSame ▸ isLsn.hiSmall)
    · exact Nat.not_lt.mpr loLarge (loSame ▸ isLsn.loSmall)
  · intro strict lsn read
    obtain ⟨hi, lo, hiValue, loValue, rfl, hiHalf, loHalf, rfl⟩ := fromStr_iff.mp read
    have strict : ¬(hi.head? = some '+' ∨ lo.head? = some '+' ∨ 2 ^ 32 ≤ hiValue ∨
        2 ^ 32 ≤ loValue) :=
      fun lenient => strict ⟨hi, lo, hiValue, loValue, rfl, hiHalf, loHalf, lenient⟩
    simp only [not_or, Nat.not_le] at strict
    obtain ⟨hiUnsigned, loUnsigned, hiSmall, loSmall⟩ := strict
    have hiNumeral := (isNumeral_iff hiHalf).mpr hiUnsigned
    have loNumeral := (isNumeral_iff loHalf).mpr loUnsigned
    have hiSame := hiHalf.denotes
    have loSame := loHalf.denotes
    rw [unsign_numeral hiNumeral plus_digit] at hiSame
    rw [unsign_numeral loNumeral plus_digit] at loSame
    refine ⟨hi, lo, rfl, hiNumeral, loNumeral, hiSame ▸ hiSmall, loSame ▸ loSmall, ?_⟩
    rw [hiSame, loSame]
    exact toNat_halves hiSmall loSmall

/-- A position that is printed is read back, and what is read is two halves of 32 bits
exactly if none of them has a sign or more bits. -/
theorem display_readsLsn (lsn : PgLsn) (lsnStr : Text) :
    fromStr lsn.display = .ok lsn ∧ (ReadsLsn lsnStr ↔ ¬Lenient lsnStr) :=
  ⟨fromStr_display lsn, readsLsn_iff lsnStr⟩

/-- The ninth digit of the upper half is lost. -/
theorem not_readsLsn : ¬ReadsLsn "100000000/0".toList := by
  rw [readsLsn_iff, not_not]
  refine ⟨"100000000".toList, "0".toList, 2 ^ 32, 0, rfl, fromStrRadix_half.mp (by decide),
    fromStrRadix_half.mp (by decide), ?_⟩
  exact .inr (.inr (.inl (Nat.le_refl _)))

end PgLsn

end OpenGauss.Types
