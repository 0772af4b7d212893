import Mathlib.Data.Int.Log
import Mathlib.Data.Rat.Floor
import Mathlib.Tactic.FieldSimp
import Mathlib.Tactic.Linarith
import Mathlib.Tactic.Positivity
import Mathlib.Tactic.Ring.RingNF
import SchemaTypings.Proofs.Decimals

/-!
Rounding of quotients. The number nearest to `n / d` depends on the quotient only, not on the two
numbers that give it, and a number of 64 bits is the nearest to its own exact magnitude. A decimal
`c · 10^k` is therefore read as the same number, however many zeros end its digits, and a finite
number is written as a decimal that is read back as it.
-/

namespace SchemaTypings

namespace Binary64

/-! ### Quotients in units -/

theorem inUnits_pos (n : Nat) {d : Nat} (hd : 0 < d) (e : Int) : 0 < (inUnits n d e).2 := by
  unfold inUnits
  split
  · exact Nat.mul_pos hd (Nat.pow_pos (by decide))
  · exact hd

/-- In units of `2^e` the quotient is `n / d / 2^e`. -/
theorem inUnits_div (n d : Nat) (e : Int) :
    ((inUnits n d e).1 : ℚ) / (inUnits n d e).2 = n / d / 2 ^ e := by
  rcases le_total 0 e with h | h
  · obtain ⟨k, rfl⟩ := Int.eq_ofNat_of_zero_le h
    simp [inUnits, div_mul_eq_div_div]
  · obtain ⟨k, rfl⟩ := Int.exists_eq_neg_ofNat h
    by_cases zero : k = 0
    · simp [inUnits, zero]
    · simp [inUnits, zero, zpow_neg, mul_div_right_comm]

/-- Whole parts are compared as the quotients are. -/
theorem div_lt_iff_lt {n d k : Nat} (hd : 0 < d) : n / d < k ↔ (n : ℚ) / d < k := by
  rw [Nat.div_lt_iff_lt_mul hd, div_lt_iff₀ (by exact_mod_cast hd)]
  exact_mod_cast Iff.rfl

/-- The highest bit of a quotient is where those of its two numbers say, or one below. -/
theorem log_bounds {n d : Nat} (hn : 0 < n) (hd : 0 < d) :
    (n.log2 : Int) - d.log2 - 1 ≤ Int.log 2 ((n : ℚ) / d) ∧
      Int.log 2 ((n : ℚ) / d) < (n.log2 : Int) - d.log2 + 1 := by
  have pos : (0 : ℚ) < n / d := by positivity
  have n_low : (2 : ℚ) ^ (n.log2 : Int) ≤ n := by exact_mod_cast Nat.log2_self_le hn.ne'
  have n_high : (n : ℚ) < 2 ^ (n.log2 + 1 : Int) := by exact_mod_cast Nat.lt_log2_self
  have d_low : (2 : ℚ) ^ (d.log2 : Int) ≤ d := by exact_mod_cast Nat.log2_self_le hd.ne'
  have d_high : (d : ℚ) < 2 ^ (d.log2 + 1 : Int) := by exact_mod_cast Nat.lt_log2_self
  have power (k : Int) : (0 : ℚ) < 2 ^ k := zpow_pos (by norm_num) k
  rw [← Int.zpow_le_iff_le_log (by decide) pos, ← Int.lt_zpow_iff_log_lt (by decide) pos]
  constructor
  · rw [sub_sub, Nat.cast_ofNat, zpow_sub₀ (by norm_num),
      div_le_div_iff₀ (power _) (by positivity)]
    exact mul_le_mul n_low d_high.le (by positivity) (by positivity)
  · rw [sub_add_eq_add_sub, Nat.cast_ofNat, zpow_sub₀ (by norm_num),
      div_lt_div_iff₀ (by positivity) (power _)]
    exact mul_lt_mul n_high d_low (power _) (power _).le

/-- The exponent of a quotient is that of its highest bit, 52 bits further down. -/
theorem exponentOf_eq {n d : Nat} (hn : 0 < n) (hd : 0 < d) :
    exponentOf n d = max (-1074) (Int.log 2 ((n : ℚ) / d) - 52) := by
  have pos : (0 : ℚ) < n / d := by positivity
  -- The guess is the exponent, or one too high.
  obtain ⟨low, high⟩ := log_bounds hn hd
  have whole (e : Int) : (inUnits n d e).1 / (inUnits n d e).2 < Nat.pow 2 52 ↔
      Int.log 2 ((n : ℚ) / d) < 52 + e := by
    have unit : (0 : ℚ) < 2 ^ e := zpow_pos (by norm_num) e
    rw [div_lt_iff_lt (inUnits_pos n hd e), inUnits_div, div_lt_iff₀ unit,
      ← Int.lt_zpow_iff_log_lt (by decide) pos, Nat.cast_ofNat, zpow_add₀ (by norm_num)]
    norm_num
  rw [exponentOf]
  dsimp only
  split <;> next h => rw [whole] at h; omega

/-! ### Rounding depends on the quotient -/

/-- Rounding does not change when both numbers are multiplied. -/
theorem roundQuotient_mul (p q : Nat) {c : Nat} (hc : 0 < c) :
    roundQuotient (p * c) (q * c) = roundQuotient p q := by
  have twice : 2 * (p % q * c) = 2 * (p % q) * c := (Nat.mul_assoc ..).symm
  simp only [roundQuotient, Nat.mul_div_mul_right p q hc, Nat.mul_mod_mul_right, twice,
    Nat.mul_lt_mul_right hc]

theorem roundQuotient_one (m : Nat) : roundQuotient m 1 = m := by
  simp [roundQuotient, Nat.mod_one]

theorem roundQuotient_congr {p q p' q' : Nat} (hq : 0 < q) (hq' : 0 < q')
    (h : (p : ℚ) / q = p' / q') : roundQuotient p q = roundQuotient p' q' := by
  have cross : p * q' = p' * q := by
    rw [div_eq_div_iff (by positivity) (by positivity)] at h
    exact_mod_cast h
  rw [← roundQuotient_mul p q hq', cross, Nat.mul_comm q, roundQuotient_mul p' q' hq]

/-- The nearest number depends on the quotient only. -/
theorem ofRatio_congr (negative : Bool) {n d n' d' : Nat} (hd : 0 < d) (hd' : 0 < d')
    (h : (n : ℚ) / d = n' / d') : ofRatio negative n d = ofRatio negative n' d' := by
  have zero : n = 0 ↔ n' = 0 := by
    have same := congrArg (· = 0) h
    simpa [hd.ne', hd'.ne'] using same
  unfold ofRatio
  by_cases hn : n = 0
  · rw [if_pos hn, if_pos (zero.1 hn)]
  · have hn' := mt zero.2 hn
    have exponent : exponentOf n d = exponentOf n' d' := by
      rw [exponentOf_eq (Nat.pos_of_ne_zero hn) hd, exponentOf_eq (Nat.pos_of_ne_zero hn') hd', h]
    have rounded := roundQuotient_congr (inUnits_pos n hd (exponentOf n' d'))
      (inUnits_pos n' hd' (exponentOf n' d')) (by rw [inUnits_div, inUnits_div, h])
    rw [if_neg hn, if_neg hn', exponent]
    dsimp only
    rw [rounded]

/-! ### Numbers with a power of a base -/

/-- Numerator and denominator of `n · b^k`. -/
def scaled (b n : Nat) (k : Int) : Nat × Nat :=
  if 0 ≤ k then (n * Nat.pow b k.toNat, 1) else (n, Nat.pow b (-k).toNat)

theorem scaled_pos {b : Nat} (hb : 0 < b) (n : Nat) (k : Int) : 0 < (scaled b n k).2 := by
  unfold scaled
  split
  · exact Nat.one_pos
  · exact Nat.pow_pos hb

theorem scaled_fst_pos {b n : Nat} (hb : 0 < b) (hn : 0 < n) (k : Int) :
    0 < (scaled b n k).1 := by
  unfold scaled
  split
  · exact Nat.mul_pos hn (Nat.pow_pos hb)
  · exact hn

theorem scaled_div (b n : Nat) (k : Int) :
    ((scaled b n k).1 : ℚ) / (scaled b n k).2 = n * (b : ℚ) ^ k := by
  rcases le_total 0 k with h | h
  · obtain ⟨j, rfl⟩ := Int.eq_ofNat_of_zero_le h
    simp [scaled]
  · obtain ⟨j, rfl⟩ := Int.exists_eq_neg_ofNat h
    by_cases zero : j = 0
    · simp [scaled, zero]
    · simp [scaled, zero, zpow_neg, div_eq_mul_inv]

/-! ### Numbers are their own nearest -/

theorem ratio_pos (m : Nat) (e : Int) : 0 < (ratio m e).2 := scaled_pos (by decide) m e

theorem ratio_fst_pos {m : Nat} (hm : 0 < m) (e : Int) : 0 < (ratio m e).1 :=
  scaled_fst_pos (by decide) hm e

theorem ratio_div (m : Nat) (e : Int) : ((ratio m e).1 : ℚ) / (ratio m e).2 = m * 2 ^ e :=
  scaled_div 2 m e

/-- The exponent of a finite magnitude is the one it is written with. -/
theorem exponentOf_ratio {m : Nat} {e : Int} (hm : 0 < m) (h : Canonical m e) :
    exponentOf (ratio m e).1 (ratio m e).2 = e := by
  obtain ⟨small, lowest, -, full⟩ := h
  have unit : (0 : ℚ) < 2 ^ e := zpow_pos (by norm_num) e
  have pos : (0 : ℚ) < m * 2 ^ e := mul_pos (by exact_mod_cast hm) unit
  have high : Int.log 2 ((m : ℚ) * 2 ^ e) < 53 + e := by
    rw [← Int.lt_zpow_iff_log_lt (by decide) pos, Nat.cast_ofNat, zpow_add₀ (by norm_num)]
    exact (mul_lt_mul_iff_left₀ unit).2 (by exact_mod_cast small)
  have low (full : Nat.pow 2 52 ≤ m) : 52 + e ≤ Int.log 2 ((m : ℚ) * 2 ^ e) := by
    rw [← Int.zpow_le_iff_le_log (by decide) pos, Nat.cast_ofNat, zpow_add₀ (by norm_num)]
    exact (mul_le_mul_iff_left₀ unit).2 (by exact_mod_cast full)
  rw [exponentOf_eq (ratio_fst_pos hm e) (ratio_pos m e), ratio_div]
  rcases full with rfl | full
  · omega
  · have := low full
    omega

/-- A finite magnitude is a number already. -/
theorem ofRatio_ratio (negative : Bool) {m : Nat} {e : Int} (h : Canonical m e) :
    ofRatio negative (ratio m e).1 (ratio m e).2 = .finite negative m e h := by
  have parts : ofParts negative m e = .finite negative m e h := dif_pos h
  rcases Nat.eq_zero_or_pos m with rfl | hm
  · have lowest : e = -1074 := h.2.2.2.resolve_right (by decide)
    subst lowest
    exact parts
  · have exponent := exponentOf_ratio hm h
    have whole : ((inUnits (ratio m e).1 (ratio m e).2 e).1 : ℚ) /
        (inUnits (ratio m e).1 (ratio m e).2 e).2 = m / (1 : Nat) := by
      have unit : (2 : ℚ) ^ e ≠ 0 := zpow_ne_zero e (by norm_num)
      rw [inUnits_div, ratio_div, mul_div_assoc, div_self unit, mul_one, Nat.cast_one, div_one]
    have rounded := roundQuotient_congr (inUnits_pos _ (ratio_pos m e) e) Nat.one_pos whole
    rw [roundQuotient_one] at rounded
    rw [ofRatio, if_neg (ratio_fst_pos hm e).ne', exponent]
    dsimp only
    rw [rounded, if_neg h.1.ne, parts]

/-! ### Decimals -/

/-- The place of the highest digit of `n · 10^k`, one further up. -/
def topOf (n : Nat) (k : Int) : Int := k + (Nat.toDigits 10 n).length

/-- A decimal within reach is rounded as a quotient is. -/
theorem ofDecimal_eq (negative : Bool) (n : Nat) (k : Int) : ofDecimal negative n k =
    if n = 0 ∨ topOf n k < -400 then ofRatio negative 0 1
    else if 400 < topOf n k then .infinite negative
    else ofRatio negative (scaled 10 n k).1 (scaled 10 n k).2 := by
  unfold ofDecimal scaled topOf
  dsimp only
  split
  · rfl
  split
  · rfl
  split <;> rfl

theorem length_toDigits_mul_pow {n : Nat} (hn : 0 < n) (j : Nat) :
    (Nat.toDigits 10 (n * 10 ^ j)).length = (Nat.toDigits 10 n).length + j := by
  induction j with
  | zero => simp
  | succ j ih =>
    have pos : 0 < n * 10 ^ j := Nat.mul_pos hn (Nat.pow_pos (by decide))
    rw [Nat.pow_succ, ← Nat.mul_assoc, Nat.toDigits_of_base_le (by decide) (by omega),
      Nat.mul_div_cancel _ (by decide), List.length_append, ih]
    rfl

/-- Zeros at the end of the digits make up for a lower exponent. -/
theorem ofDecimal_mul_pow (negative : Bool) (n : Nat) (k : Int) (j : Nat) :
    ofDecimal negative (n * 10 ^ j) (k - j) = ofDecimal negative n k := by
  rw [ofDecimal_eq, ofDecimal_eq]
  rcases Nat.eq_zero_or_pos n with rfl | hn
  · simp
  · have top : topOf (n * 10 ^ j) (k - j) = topOf n k := by
      rw [topOf, topOf, length_toDigits_mul_pow hn]
      push_cast
      omega
    have zero : n * 10 ^ j = 0 ↔ n = 0 := by simp
    have same : ((scaled 10 (n * 10 ^ j) (k - j)).1 : ℚ) / (scaled 10 (n * 10 ^ j) (k - j)).2 =
        (scaled 10 n k).1 / (scaled 10 n k).2 := by
      rw [scaled_div, scaled_div, zpow_sub₀ (by norm_num), zpow_natCast]
      field_simp
      push_cast
      ring
    have rounded := ofRatio_congr negative (scaled_pos (by decide) ..)
      (scaled_pos (by decide) ..) same
    simp only [top, zero, rounded]

/-- A decimal within reach that equals a finite magnitude is read as that. -/
theorem ofDecimal_of_eq {m : Nat} {e : Int} (h : Canonical m e) {c : Nat} {k : Int} (hc : 0 < c)
    (low : -400 ≤ topOf c k) (high : topOf c k ≤ 400) (same : (c : ℚ) * 10 ^ k = m * 2 ^ e) :
    ofDecimal false c k = .finite false m e h := by
  rw [ofDecimal_eq, if_neg (by omega), if_neg (by omega), ← ofRatio_ratio false h]
  refine ofRatio_congr false (scaled_pos (by decide) ..) (ratio_pos ..) ?_
  rw [scaled_div, ratio_div, ← same, Nat.cast_ofNat]

/-! ### The shortest decimal is read back -/

theorem ofDecimal_dropZeros (negative : Bool) (fuel c : Nat) (k : Int) :
    ofDecimal negative (dropZeros fuel c k).1 (dropZeros fuel c k).2 = ofDecimal negative c k := by
  induction fuel generalizing c k with
  | zero => rfl
  | succ fuel ih =>
    rw [dropZeros]
    split
    · next h =>
      have moved := ofDecimal_mul_pow negative (c / 10) (k + 1) 1
      have whole : c / 10 * 10 ^ 1 = c := by omega
      rw [whole, Nat.cast_one, Int.add_sub_cancel] at moved
      rw [ih, moved]
    · rfl

theorem ofDecimal_of_onGrid? {x : Binary64} {n d c : Nat} {k : Int}
    (h : onGrid? x n d k = some c) : ofDecimal false c k = x := by
  unfold onGrid? at h
  dsimp only at h
  split at h
  · cases h
  · next low _ =>
    cases h
    exact of_decide_eq_true low
  · next _ high =>
    cases h
    exact of_decide_eq_true high
  · next low high =>
    have low := of_decide_eq_true low
    have high := of_decide_eq_true high
    split at h
    · cases h
      exact low
    · cases h
      exact high
    · split at h <;> cases h
      · exact low
      · exact high

theorem ofDecimal_of_search? {x : Binary64} {n d c tries : Nat} {k k' : Int}
    (h : search? x n d k tries = some (c, k')) : ofDecimal false c k' = x := by
  induction tries generalizing k with
  | zero => cases h
  | succ tries ih =>
    rw [search?] at h
    split at h
    · next found =>
      cases h
      exact ofDecimal_of_onGrid? found
    · exact ih h

/-- A magnitude above one has at most 400 digits. -/
theorem length_toDigits_ratio {m : Nat} {e : Int} (h : Canonical m e) :
    (Nat.toDigits 10 (m * 2 ^ e.toNat)).length ≤ 400 := by
  obtain ⟨small, -, highest, -⟩ := h
  rw [Nat.length_toDigits_le_iff (by decide) (by decide)]
  calc m * 2 ^ e.toNat < 2 ^ 53 * 2 ^ e.toNat := Nat.mul_lt_mul_of_pos_right small (by positivity)
    _ ≤ 2 ^ 53 * 2 ^ 971 := Nat.mul_le_mul_left _ (Nat.pow_le_pow_right (by decide) (by omega))
    _ ≤ 10 ^ 400 := by decide +kernel

theorem two_pow_le_five_pow {i j : Nat} (h : i ≤ 2 * j) : 2 ^ i ≤ 5 ^ j :=
  calc 2 ^ i ≤ 2 ^ (2 * j) := Nat.pow_le_pow_right (by decide) h
    _ = (2 ^ 2) ^ j := Nat.pow_mul 2 2 j
    _ ≤ 5 ^ j := Nat.pow_le_pow_left (by decide) j

/-- Below one, a magnitude `m / 2^j` has the digits of `m · 5^j`, and they are not far away. -/
theorem length_toDigits_mul_five {m j : Nat} (hm : 0 < m) (small : m < 2 ^ 53) (hj : j ≤ 1074) :
    j ≤ (Nat.toDigits 10 (m * 5 ^ j)).length + 400 ∧
      (Nat.toDigits 10 (m * 5 ^ j)).length ≤ j + 400 := by
  constructor
  · refine Nat.le_of_not_lt fun far => ?_
    obtain ⟨i, rfl⟩ : ∃ i, j = i + 401 := ⟨j - 401, by omega⟩
    have some : 0 < i := by
      have := Nat.length_toDigits_pos (b := 10) (n := m * 5 ^ (i + 401))
      omega
    have less := (Nat.length_toDigits_le_iff (b := 10) (k := i) (by decide) some).1
      (show (Nat.toDigits 10 (m * 5 ^ (i + 401))).length ≤ i by omega)
    have twos : 2 ^ i ≤ 5 ^ 401 := two_pow_le_five_pow (by omega)
    have more : 10 ^ i ≤ m * 5 ^ (i + 401) :=
      calc 10 ^ i = 2 ^ i * 5 ^ i := by rw [← Nat.mul_pow]
        _ ≤ 5 ^ 401 * 5 ^ i := Nat.mul_le_mul_right _ twos
        _ = 1 * 5 ^ (i + 401) := by rw [Nat.pow_add, Nat.one_mul, Nat.mul_comm]
        _ ≤ m * 5 ^ (i + 401) := Nat.mul_le_mul_right _ hm
    omega
  · rw [Nat.length_toDigits_le_iff (by decide) (by omega)]
    calc m * 5 ^ j < 2 ^ 53 * 5 ^ j := Nat.mul_lt_mul_of_pos_right small (by positivity)
      _ ≤ 10 ^ 400 * 10 ^ j :=
        Nat.mul_le_mul (by decide +kernel) (Nat.pow_le_pow_left (by decide) j)
      _ = 10 ^ (j + 400) := by rw [Nat.pow_add, Nat.mul_comm]

/-- Reading undoes the shortest decimal. -/
theorem ofDecimal_shortest {m : Nat} {e : Int} (hm : 0 < m) (h : Canonical m e) :
    ofDecimal false (shortest m e).1 (shortest m e).2 = .finite false m e h := by
  have parts : ofParts false m e = .finite false m e h := dif_pos h
  unfold shortest
  dsimp only
  split
  · next c k found => rw [ofDecimal_dropZeros, ofDecimal_of_search? found, parts]
  split
  · next up =>
    have digits : (ratio m e).1 = m * 2 ^ e.toNat := by simp [ratio, up]
    have length := length_toDigits_ratio h
    rw [digits]
    refine ofDecimal_of_eq h (by positivity) (by simp only [topOf]; omega)
      (by simp only [topOf]; omega) ?_
    obtain ⟨j, rfl⟩ := Int.eq_ofNat_of_zero_le up
    simp
  · next down =>
    obtain ⟨j, rfl⟩ := Int.exists_eq_neg_ofNat (Int.le_of_not_le down)
    have digits : m * Nat.pow 5 (- -(j : Int)).toNat = m * 5 ^ j := by simp
    rw [digits]
    have length := length_toDigits_mul_five (j := j) hm h.1 (by have := h.2.1; omega)
    refine ofDecimal_of_eq h (by positivity) (by simp only [topOf]; omega)
      (by simp only [topOf]; omega) ?_
    have ten : (10 : ℚ) ^ j = 2 ^ j * 5 ^ j := by rw [← mul_pow]; norm_num
    rw [zpow_neg, zpow_neg, zpow_natCast, zpow_natCast, ten]
    push_cast
    field_simp

/-- A finite number is written as a decimal that is read back as its magnitude, and a minus sign in
front if it is negative. -/
theorem exists_shown (negative : Bool) {m : Nat} {e : Int} (h : Canonical m e) :
    ∃ d : Decimal, NumberLiteral.value? d.text = some (.float (.finite false m e h)) ∧
      shown (.finite negative m e h) = if negative then "-" ++ d.text else d.text := by
  rcases Nat.eq_zero_or_pos m with rfl | hm
  · have lowest : e = -1074 := h.2.2.2.resolve_right (by decide)
    subst lowest
    have zero : Text.IsDigits ['0'] := ⟨by simp, by simp; decide⟩
    exact ⟨.padded zero 0, rfl, rfl⟩
  · obtain ⟨d, text, marked, j, digits, scale⟩ := exists_layout_eq (shortest m e).1 (shortest m e).2
    refine ⟨d, ?_, ?_⟩
    · rw [d.value?_float marked, digits, scale, ofDecimal_mul_pow, ofDecimal_shortest hm h]
    · rw [← text]
      simp only [shown, if_neg hm.ne']

end Binary64

end SchemaTypings
