/-
# Telegram.RandomLong — the IDs `GenerateRandomLong` can return

`GenerateRandomLong()` is `int64(rand.Int31())<<32 | int64(rand.Int31())`. Each draw is
an `int32` that is not negative; the conversion sign-extends it, so it keeps its 31 bits,
and the shift puts the first draw above bit 32 without overflow. The two halves never
overlap, so the `|` is a sum.

* `generateRandomLong_range`: the values it returns are exactly the `int64` that are not
  negative and whose low 32 bits are below `2^31` (bit 31 clear);
* `generateRandomLong_injective`: two calls return the same value only when both pairs of
  draws agree.
-/
import Gogram.Telegram.Decimal

namespace Gogram.Telegram

set_option autoImplicit false

/-- What `rand.Int31()` returns: an `int32` whose sign bit is clear. -/
@[ext]
structure Int31 where
  val : BitVec 32
  msb_false : val.msb = false

/-- `GenerateRandomLong()`, from the values of its two `rand.Int31()` calls. -/
def generateRandomLong (hi lo : Int31) : Int64 :=
  hi.val.signExtend 64 <<< 32 ||| lo.val.signExtend 64

theorem Int31.toNat_lt (a : Int31) : a.val.toNat < 2 ^ 31 := by
  have := BitVec.msb_eq_false_iff_two_mul_lt.mp a.msb_false
  omega

/-- `int64(a)` of a draw keeps its value. -/
theorem Int31.toNat_signExtend (a : Int31) : (a.val.signExtend 64).toNat = a.val.toNat := by
  rw [BitVec.signExtend_eq_not_setWidth_not_of_msb_false a.msb_false, BitVec.toNat_setWidth,
    Nat.mod_eq_of_lt (lt_trans a.toNat_lt (by norm_num))]

/-- Bits shifted above `b`'s width do not meet it: the `|` is a sum. -/
theorem shiftLeft_or_of_lt {a b i : Nat} (hb : b < 2 ^ i) : a <<< i ||| b = 2 ^ i * a + b := by
  refine Nat.eq_of_testBit_eq fun j => ?_
  rw [Nat.testBit_or, Nat.testBit_shiftLeft, Nat.testBit_mul_pow_two_add a hb]
  by_cases hj : j < i
  · simp [hj]
  · rw [Nat.testBit_lt_two_pow (lt_of_lt_of_le hb (Nat.pow_le_pow_right (by decide) (by omega)))]
    simp [hj, show j ≥ i by omega]

theorem generateRandomLong_toNat (hi lo : Int31) :
    (generateRandomLong hi lo).toNat = 2 ^ 32 * hi.val.toNat + lo.val.toNat := by
  have h1 := hi.toNat_lt
  have h2 := lo.toNat_lt
  rw [generateRandomLong, BitVec.toNat_or, BitVec.toNat_shiftLeft, hi.toNat_signExtend,
    lo.toNat_signExtend, Nat.shiftLeft_eq, Nat.mod_eq_of_lt (by omega), ← Nat.shiftLeft_eq,
    shiftLeft_or_of_lt (by omega)]

/-- The draw whose value is `n`, for `n < 2^31`. -/
def Int31.ofNat (n : Nat) (h : n < 2 ^ 31) : Int31 :=
  ⟨BitVec.ofNat 32 n, by
    rw [BitVec.msb_eq_false_iff_two_mul_lt, BitVec.toNat_ofNat, Nat.mod_eq_of_lt (by omega)]
    omega⟩

theorem Int31.toNat_ofNat {n : Nat} (h : n < 2 ^ 31) : (Int31.ofNat n h).val.toNat = n := by
  simp only [Int31.ofNat, BitVec.toNat_ofNat]
  omega

/-- **What `GenerateRandomLong` can return**: exactly the `int64` values that are not
negative and have bit 31 clear, `2^62` of the `2^64`. -/
theorem generateRandomLong_range (x : Int64) :
    (∃ hi lo, generateRandomLong hi lo = x) ↔ 0 ≤ x.toInt ∧ x.toNat % 2 ^ 32 < 2 ^ 31 := by
  rw [BitVec.toInt_eq_toNat_cond]
  constructor
  · rintro ⟨hi, lo, rfl⟩
    have h1 := hi.toNat_lt
    have h2 := lo.toNat_lt
    rw [generateRandomLong_toNat]
    split <;> omega
  · rintro ⟨hpos, hlow⟩
    have hx : x.toNat < 2 ^ 63 := by split at hpos <;> omega
    refine ⟨.ofNat (x.toNat / 2 ^ 32) (by omega), .ofNat (x.toNat % 2 ^ 32) hlow,
      BitVec.eq_of_toNat_eq ?_⟩
    rw [generateRandomLong_toNat, Int31.toNat_ofNat, Int31.toNat_ofNat]
    omega

/-- **Two calls agree only on the same draws.** -/
theorem generateRandomLong_injective {hi lo hi' lo' : Int31}
    (h : generateRandomLong hi lo = generateRandomLong hi' lo') : hi = hi' ∧ lo = lo' := by
  have e := congrArg BitVec.toNat h
  have := hi.toNat_lt
  have := lo.toNat_lt
  have := hi'.toNat_lt
  have := lo'.toNat_lt
  rw [generateRandomLong_toNat, generateRandomLong_toNat] at e
  exact ⟨Int31.ext (BitVec.eq_of_toNat_eq (by omega)), Int31.ext (BitVec.eq_of_toNat_eq (by omega))⟩

theorem same_long_same_draws :
    generateRandomLong (.ofNat 7 (by decide)) (.ofNat 9 (by decide)) =
        generateRandomLong (.ofNat 7 (by decide)) (.ofNat 9 (by decide)) ∧
      Int31.ofNat 7 (by decide) = .ofNat 7 (by decide) ∧ Int31.ofNat 9 (by decide) = .ofNat 9 (by decide) :=
  ⟨rfl, generateRandomLong_injective rfl⟩

end Gogram.Telegram
