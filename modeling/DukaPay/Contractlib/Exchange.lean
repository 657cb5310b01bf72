import Mathlib.Algebra.Order.Field.Basic
import Mathlib.Tactic.FieldSimp
import Mathlib.Tactic.Linarith

/-! A vault holds assets against shares and exchanges the one for the other at the ratio of the two,
rounding every exchange down. -/
namespace Contractlib.Exchange

def price (a s : ℤ) : ℚ := a / s

variable {s a y : ℤ}

lemma price_le_price {a' s'} (hs : 0 < s) (hs' : 0 < s') :
    price a s ≤ price a' s' ↔ a * s' ≤ a' * s := by
  unfold price
  rw [div_le_div_iff₀ (by exact_mod_cast hs) (by exact_mod_cast hs')]
  exact_mod_cast Iff.rfl

lemma price_pos (ha : 0 < a) (hs : 0 < s) : 0 < price a s :=
  div_pos (by exact_mod_cast ha) (by exact_mod_cast hs)

lemma price_le_mint {x} (ha : 0 < a) (hs : 0 < s) (hx : 0 ≤ x) :
    price a s ≤ price (a + x) (s + x * s / a) := by
  have hm : 0 ≤ x * s / a := Int.ediv_nonneg (mul_nonneg hx hs.le) ha.le
  have hf : x * s / a * a ≤ x * s := Int.ediv_mul_le _ ha.ne'
  rw [price_le_price hs (by omega)]
  linarith [mul_comm a (x * s / a),mul_add a s (x * s / a),add_mul a x s]

lemma burn_lt (ha : 0 < a) (hs : 0 < s) (hy : y < s) : y * a / s < a := by
  rw [Int.ediv_lt_iff_lt_mul hs,mul_comm a s]
  exact mul_lt_mul_of_pos_right hy ha

lemma price_le_burn (hs : 0 < s) (hy : y < s) : price a s ≤ price (a - y * a / s) (s - y) := by
  have hf : y * a / s * s ≤ y * a := Int.ediv_mul_le _ hs.ne'
  rw [price_le_price hs (by omega)]
  linarith [mul_sub a s y,mul_comm a y,sub_mul a (y * a / s) s]

lemma price_mul (hs : 0 < s) : (s : ℚ) * price a s = a := by
  have hs' : (s : ℚ) ≠ 0 := by exact_mod_cast hs.ne'
  unfold price
  field_simp

/-- If the price does not fall, a holder gains nothing by changing only their own shares. -/
lemma paid_add_value_le {a' s' h h'} (hs : 0 < s) (hs' : 0 < s')
    (hp : price a s ≤ price a' s') (ho : s' - h' = s - h) (hl : h ≤ s) :
    ((a - a' : ℤ) : ℚ) + h' * price a' s' ≤ h * price a s := by
  -- the other shares do not lose value
  have hr : ((s - h : ℤ) : ℚ) * price a s ≤ ((s' - h' : ℤ) : ℚ) * price a' s' := by
    rw [ho]
    exact mul_le_mul_of_nonneg_left hp (by exact_mod_cast Int.sub_nonneg_of_le hl)
  have ha := price_mul (a := a) hs
  have hall' := price_mul (a := a') hs'
  push_cast at hr ⊢
  linarith [sub_mul (s : ℚ) h (price a s),sub_mul (s' : ℚ) h' (price a' s')]

lemma mint_le {x} (ha : 0 < a) (hx : 0 ≤ x) (h : s ≤ a) : x * s / a ≤ x := by
  have hl : x * s ≤ x * a := mul_le_mul_of_nonneg_left h hx
  exact Int.ediv_le_of_le_mul ha hl

lemma burn_le (hs : 0 < s) (hy : y ≤ s) (h : s ≤ a) : s - y ≤ a - y * a / s := by
  have hf : y * a / s * s ≤ y * a := Int.ediv_mul_le _ hs.ne'
  have hg : y * (a - s) ≤ s * (a - s) := mul_le_mul_of_nonneg_right hy (by omega)
  have hc : (s - y) * s ≤ (a - y * a / s) * s := by
    linarith [mul_sub y a s,mul_sub s a s,sub_mul s y s,sub_mul a (y * a / s) s,mul_comm s a]
  exact le_of_mul_le_mul_right hc hs

/-- With an offset `k` on both sides, `y` of the shares are worth no more than the assets when there
are no more shares than assets. -/
lemma redeemable_le {m k} (hk : 0 ≤ k) (hs : 0 < s + k) (hm : 0 ≤ m + k) (hy : y ≤ s)
    (h : s ≤ m) : y * (m + k) / (s + k) ≤ m := by
  have hy' : y * (m + k) ≤ s * (m + k) := mul_le_mul_of_nonneg_right hy hm
  have hk' : s * k ≤ m * k := mul_le_mul_of_nonneg_right h hk
  apply Int.ediv_le_of_le_mul hs
  linarith [mul_add s m k,mul_add m s k,mul_comm s m]

/-- A deposit is worth less than one old share less than what was paid. -/
lemma lt_mint_value {x : ℤ} (ha : 0 < a) (hs : 0 < s) (hx : 0 ≤ x) :
    (x : ℚ) - price a s < (x * s / a : ℤ) * price (a + x) (s + x * s / a) := by
  have hn : 0 ≤ x * s / a := Int.ediv_nonneg (mul_nonneg hx hs.le) ha.le
  have hf := Int.lt_ediv_add_one_mul_self (x * s) ha
  generalize x * s / a = m at hn hf ⊢
  have hs' : (0 : ℚ) < s := by exact_mod_cast hs
  have hm : (0 : ℚ) ≤ m := by exact_mod_cast hn
  have ho : (a : ℚ) / (s + m) ≤ a / s :=
    div_le_div_of_nonneg_left (by exact_mod_cast ha.le) hs' (by linarith)
  have hw : (x : ℚ) < (m * (a + x) + a) / (s + m) := by
    rw [lt_div_iff₀ (by linarith)]
    have hc : (x : ℚ) * s < (m + 1) * a := by exact_mod_cast hf
    linarith [mul_add (x : ℚ) s m]
  rw [add_div] at hw
  unfold price
  push_cast
  rw [← mul_div_assoc]
  linarith

/-- The first holder of `d` shares donates `y` before `x` is paid in. With an offset `k` they
redeem at most what they brought. -/
lemma first_holder_le {d x k} (hk : 0 < k) (hd : 0 ≤ d) (hy : 0 ≤ y) (hx : 0 ≤ x) :
    d * (d + y + x + k) / (d + x * (d + k) / (d + y + k) + k) ≤ d + y := by
  have ha : 0 < d + y + k := by omega
  have hl := mint_le ha hx (by omega : d + k ≤ d + y + k)
  have hm : 0 ≤ x * (d + k) / (d + y + k) := Int.ediv_nonneg (mul_nonneg hx (by omega)) ha.le
  have hf := Int.lt_ediv_add_one_mul_self (x * (d + k)) ha
  generalize x * (d + k) / (d + y + k) = m at hl hm hf ⊢
  have hk' : 0 ≤ k - 1 := by omega
  apply Int.le_of_lt_add_one
  rw [Int.ediv_lt_iff_lt_mul (by omega)]
  nlinarith [mul_nonneg hk' hy,mul_nonneg hk' (sub_nonneg.mpr hl)]

end Contractlib.Exchange
