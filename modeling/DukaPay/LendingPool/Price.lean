import DukaPay.Contractlib.Exchange
import DukaPay.LendingPool.Shares

/-! The exact price of a share is `(totalManagedAssets + 1000) / (totalShares + 1000)`. -/
namespace DukaPay
open Contractlib LendingPool Function Transactional Exchange

namespace LendingPool

lemma eq_of_calcSharesToMint {x ast sh mtd} (ha : 0 < ast + 1000)
    (h : calcSharesToMint x ast sh = .ok mtd) : mtd = x * (sh + 1000) / (ast + 1000) := by
  simp only [calcSharesToMint,eq_ok,okOr_eq_ok] at h
  obtain ⟨_,⟨-,rfl⟩,_,⟨-,rfl⟩,_,⟨-,rfl⟩,h⟩ := h
  exact Money.roundDiv_floor ha h

lemma eq_of_calcAssetsToRedeem {brn ast sh paid} (hs : 0 < sh + 1000)
    (h : calcAssetsToRedeem brn ast sh = .ok paid) : paid = brn * (ast + 1000) / (sh + 1000) := by
  simp only [calcAssetsToRedeem,eq_ok,okOr_eq_ok] at h
  obtain ⟨_,⟨-,rfl⟩,_,⟨-,rfl⟩,_,⟨-,rfl⟩,h⟩ := h
  exact Money.roundDiv_floor hs h

end LendingPool

namespace Books

def price (b : Books) (token : Address) : ℚ :=
  Exchange.price (b.totalManagedAssets token + LendingPool.virtualAssets)
    (b.totalShares token + LendingPool.virtualShares)

structure Solvent (b : Books) : Prop extends Consistent b where
  assets_pos : ∀ token, 0 < b.totalManagedAssets token + 1000

variable {b : Books} {token : Address}

lemma SameFor.price_eq {b'} (h : SameFor token b b') : b'.price token = b.price token := by
  unfold price
  rw [h.totalManagedAssets,h.totalShares]

lemma price_eq_of {b : Books} {ast sh} (ha : b.totalManagedAssets token = ast)
    (hs : b.totalShares token = sh) : b.price token = Exchange.price (ast + 1000) (sh + 1000) := by
  rw [price,ha,hs]
  rfl

inductive Repriced (assets shares : Int) : Entry → Int → Int → Prop
  | mint (provider token : Address) (amount : Int) (ledger : Nat) (hamount : 0 < amount) :
    Repriced assets shares
      (.mint provider token amount (amount * (shares + 1000) / (assets + 1000)) ledger)
      (assets + amount) (shares + amount * (shares + 1000) / (assets + 1000))
  | burn (provider token : Address) (burned : Int) (hburned : 0 < burned)
    (hheld : burned ≤ shares) :
    Repriced assets shares
      (.burn provider token burned (burned * (assets + 1000) / (shares + 1000)))
      (assets - burned * (assets + 1000) / (shares + 1000)) (shares - burned)
  | gain (token : Address) (amount : Int) (hamount : 0 < amount) :
    Repriced assets shares (.gain token amount) (assets + amount) shares
  | lose (token : Address) (amount : Int) (hamount : 0 < amount) (hcovered : amount ≤ assets) :
    Repriced assets shares (.lose token amount) (assets - amount) shares
  | report (token : Address) (delta : Int) :
    Repriced assets shares (.report token delta) assets shares

variable {e : Entry}

lemma Solvent.repriced (hb : b.Solvent) (he : e.Admissible b) (ht : e.token? = some token) :
    Repriced (b.totalManagedAssets token) (b.totalShares token) e
    ((b.post e).totalManagedAssets token) ((b.post e).totalShares token) := by
  have hs : 0 < b.totalShares token + 1000 := by
    have := hb.totalShares_nonneg token
    omega
  cases e with
  | idle => cases ht
  | mint prov tok' amt mtd lg =>
    cases ht
    obtain ⟨ham,-,hm,-⟩ := he
    have hq := eq_of_calcSharesToMint (hb.assets_pos token) hm
    subst hq
    simp only [post,Books.mint,update_self]
    exact .mint prov token amt lg ham
  | burn prov tok' brn =>
    cases ht
    obtain ⟨hbu,hh,-,ha,-⟩ := he
    have hq := eq_of_calcAssetsToRedeem hs ha
    subst hq
    simp only [post,Books.burn,update_self]
    exact .burn prov token brn hbu (le_trans hh hb.readShares_le)
  | gain tok' amt =>
    cases ht
    simp only [post,Books.gain,update_self]
    exact .gain token amt he.1
  | lose tok' amt =>
    cases ht
    simp only [post,Books.lose,update_self]
    exact .lose token amt he.1 he.2
  | report tok' dl => exact .report tok' dl

lemma Solvent.post (hb : b.Solvent) (he : e.Admissible b) : (b.post e).Solvent where
  toConsistent := hb.toConsistent.post he
  assets_pos := by
    intro token
    have ha := hb.assets_pos token
    have hs := hb.totalShares_nonneg token
    by_cases ht : e.token? = some token
    · -- name the two sides of the new price before splitting on the entry
      have hr := hb.repriced he ht
      generalize (b.post e).totalManagedAssets token = assets' at hr ⊢
      generalize (b.post e).totalShares token = shares' at hr
      cases hr with
      | mint => omega
      | burn _ _ brn =>
        have hl := burn_lt ha (s := b.totalShares token + 1000) (by omega)
          (show brn < b.totalShares token + 1000 by omega)
        omega
      | gain => omega
      | lose => omega
      | report => exact ha
    · rw [(sameFor_post b ht).totalManagedAssets]
      exact ha

lemma Solvent.price_le (hb : b.Solvent) (he : e.Admissible b)
    (hl : ∀ token amt, e ≠ .lose token amt) (token) : b.price token ≤ (b.post e).price token := by
  have ha := hb.assets_pos token
  have hs := hb.totalShares_nonneg token
  by_cases ht : e.token? = some token
  · have hr := hb.repriced he ht
    rw [price_eq_of rfl rfl,price_eq_of (b := b.post e) rfl rfl]
    generalize (b.post e).totalManagedAssets token = assets' at hr ⊢
    generalize (b.post e).totalShares token = shares' at hr ⊢
    have hs' : 0 < b.totalShares token + 1000 := by omega
    cases hr with
    | mint _ _ amt _ ham =>
      have h := price_le_mint ha hs' ham.le
      rwa [add_right_comm _ 1000,add_right_comm _ 1000] at h
    | burn _ _ brn =>
      have h := price_le_burn (a := b.totalManagedAssets token + 1000) hs'
        (show brn < b.totalShares token + 1000 by omega)
      rwa [add_sub_right_comm,add_sub_right_comm] at h
    | gain =>
      rw [price_le_price hs' hs']
      exact mul_le_mul_of_nonneg_right (by omega) hs'.le
    | lose tok' amt => exact absurd rfl (hl tok' amt)
    | report => exact le_refl _
  · rw [(sameFor_post b ht).price_eq]

lemma Solvent.price_pos (hb : b.Solvent) (token) : 0 < b.price token := by
  have ha := hb.assets_pos token
  have hs := hb.totalShares_nonneg token
  rw [price_eq_of rfl rfl]
  exact Exchange.price_pos ha (by omega)

lemma Solvent.price_lt (hb : b.Solvent) {amount} (hamount : 0 < amount) :
    (b.post (.lose token amount)).price token < b.price token := by
  have hs : 0 < b.totalShares token + 1000 := by
    have := hb.totalShares_nonneg token
    omega
  have ha : (b.post (.lose token amount)).totalManagedAssets token =
      b.totalManagedAssets token - amount := update_self ..
  have hh : (b.post (.lose token amount)).totalShares token = b.totalShares token := rfl
  rw [price_eq_of ha hh,price_eq_of (b := b) rfl rfl,← not_le,price_le_price hs hs,not_le]
  exact mul_lt_mul_of_pos_right (by omega) hs

lemma solvent_empty : empty.toBooks.Solvent where
  toConsistent := consistent_empty
  assets_pos := by
    intro token
    simp [empty]

def redeemable (b : Books) (token : Address) (amount : Int) : Int :=
  match LendingPool.calcAssetsToRedeem amount (b.totalManagedAssets token)
    (b.totalShares token) with
  | .ok assets => assets
  | .error _ => 0

def claims (b : Books) (token : Address) : Int :=
  b.shares.sumBy fun key amount => if key.2 = token then b.redeemable token amount else 0

def surplus (b : Books) (token : Address) : Int := b.totalManagedAssets token - b.totalShares token

structure Backed (b : Books) : Prop extends Consistent b where
  shares_le : ∀ token, b.totalShares token ≤ b.totalManagedAssets token

lemma Backed.solvent (hb : b.Backed) : b.Solvent where
  toConsistent := hb.toConsistent
  assets_pos := by
    intro token
    have hs := hb.totalShares_nonneg token
    have hl := hb.shares_le token
    omega

lemma backed_empty : empty.toBooks.Backed where
  toConsistent := consistent_empty
  shares_le := fun _ => le_refl 0

lemma Solvent.redeemable_mul_le (hb : b.Solvent) (token) {x} (h0 : 0 ≤ x) :
    b.redeemable token x * (b.totalShares token + 1000) ≤
    x * (b.totalManagedAssets token + 1000) := by
  have ha := hb.assets_pos token
  have hs : 0 < b.totalShares token + 1000 := by
    have := hb.totalShares_nonneg token
    omega
  unfold redeemable
  split
  · next assets h =>
    rw [eq_of_calcAssetsToRedeem hs h]
    exact Int.ediv_mul_le _ hs.ne'
  · rw [zero_mul]
    exact mul_nonneg h0 ha.le

lemma Solvent.claims_mul_le (hb : b.Solvent) (token) :
    b.claims token * (b.totalShares token + 1000) ≤
    b.totalShares token * (b.totalManagedAssets token + 1000) := by
  rw [hb.totalShares token]
  unfold claims heldShares
  rw [← Storage.sumBy_mul_right,← Storage.sumBy_mul_right]
  apply Storage.sumBy_le_sumBy
  intro key v hv
  unfold heldOf
  split
  · have h := hb.redeemable_mul_le token (hb.positive key v hv).le
    rwa [hb.totalShares token] at h
  · simp

lemma Backed.claims_le (hb : b.Backed) (token) : b.claims token ≤ b.totalManagedAssets token := by
  have hs := hb.totalShares_nonneg token
  have hl := hb.shares_le token
  have hm := hb.solvent.claims_mul_le token
  have ha : b.totalShares token * (b.totalManagedAssets token + 1000) ≤
      b.totalManagedAssets token * (b.totalShares token + 1000) := by
    linarith [mul_comm (b.totalShares token) (b.totalManagedAssets token),
      mul_add (b.totalShares token) (b.totalManagedAssets token) 1000,
      mul_add (b.totalManagedAssets token) (b.totalShares token) 1000]
  exact le_of_mul_le_mul_right (le_trans hm ha) (by omega)

lemma Backed.redeemable_le (hb : b.Backed) {p token brn ast} (hh : brn ≤ b.readShares p token)
    (h : calcAssetsToRedeem brn (b.totalManagedAssets token)
    (b.totalShares token) = .ok ast) : ast ≤ b.totalManagedAssets token := by
  have hs := hb.totalShares_nonneg token
  have hl := hb.shares_le token
  rw [eq_of_calcAssetsToRedeem (by omega) h]
  exact Exchange.redeemable_le (by decide) (by omega) (by omega) (le_trans hh hb.readShares_le) hl

/-- **Backing step**: an admissible entry keeps the books backed, if it writes off at most what
exceeds the shares. -/
lemma Backed.post (hb : b.Backed) (he : e.Admissible b)
    (hl : ∀ token amt, e = .lose token amt → amt ≤ b.surplus token) : (b.post e).Backed where
  toConsistent := hb.toConsistent.post he
  shares_le := by
    intro token
    have ha := hb.solvent.assets_pos token
    have hs := hb.totalShares_nonneg token
    have hle := hb.shares_le token
    by_cases ht : e.token? = some token
    · have hr := hb.solvent.repriced he ht
      generalize (b.post e).totalManagedAssets token = assets' at hr ⊢
      generalize (b.post e).totalShares token = shares' at hr ⊢
      cases hr with
      | mint _ _ amt _ ham =>
        have h := mint_le ha ham.le (s := b.totalShares token + 1000) (by omega)
        omega
      | burn _ _ brn =>
        have h := burn_le (a := b.totalManagedAssets token + 1000)
          (s := b.totalShares token + 1000) (y := brn) (by omega) (by omega) (by omega)
        omega
      | gain => omega
      | lose token' amt =>
        cases ht
        have := hl token amt rfl
        unfold surplus at this
        omega
      | report => exact hle
    · rw [(sameFor_post b ht).totalManagedAssets,(sameFor_post b ht).totalShares]
      exact hle

end Books

lemma solvent_run (self bank cs) :
    ((poolSystem self).run (PoolWorld.deployed bank) cs).pool.toBooks.Solvent := by
  refine run_induction (I := fun w : PoolWorld => w.pool.toBooks.Solvent) ?_ Books.solvent_empty cs
  intro w c w' hw h
  obtain ⟨_,-,ha,hb⟩ := PoolCall.posts h
  rw [hb]
  exact hw.post ha

lemma PoolCall.Makes.lose {env} {c : PoolCall} {token amount}
    (h : c.Makes env (.lose token amount)) : c = .recordLoanLoss token amount := by
  cases c <;> simp only [PoolCall.Makes,reduceCtorEq,exists_false,or_self] at h
  case recordLoanYield token' amount' =>
    unfold gainEntry at h
    split at h <;> cases h
  case recordLoanLoss token' amount' =>
    unfold lossEntry at h
    split at h <;> cases h
    rfl

lemma PoolCall.Makes.burn {env} {c : PoolCall} {p token brn ast}
    (h : c.Makes env (.burn p token brn ast)) :
    (∃ minAssetsOut, c = .withdraw p token brn minAssetsOut) ∨
    ∃ minAssetsOut, c = .emergencyWithdraw p token brn minAssetsOut := by
  cases c <;> simp only [PoolCall.Makes,reduceCtorEq,exists_false,or_self] at h
  case withdraw =>
    obtain ⟨_,⟨⟩⟩ := h
    exact .inl ⟨_,rfl⟩
  case emergencyWithdraw =>
    obtain ⟨_,⟨⟩⟩ := h
    exact .inr ⟨_,rfl⟩
  case recordLoanYield =>
    unfold gainEntry at h
    split at h <;> cases h
  case recordLoanLoss =>
    unfold lossEntry at h
    split at h <;> cases h

def PoolCall.Absorbable (w : PoolWorld) : PoolCall → Prop
  | .recordLoanLoss token amount => amount ≤ w.pool.surplus token
  | _ => True

instance (w : PoolWorld) (c : PoolCall) : Decidable (c.Absorbable w) := by
  cases c <;> first | exact isTrue trivial | exact inferInstanceAs (Decidable (_ ≤ _))

lemma backed_along (self bank) {cs}
    (h : (poolSystem self).Along (fun w c => c.2.Absorbable w) (PoolWorld.deployed bank) cs) :
    ((poolSystem self).run (PoolWorld.deployed bank) cs).pool.toBooks.Backed := by
  refine along_induction (I := fun w : PoolWorld => w.pool.toBooks.Backed) ?_ Books.backed_empty h
  intro w c w' hw hc hx
  obtain ⟨_,hm,ha,hb⟩ := PoolCall.posts hx
  rw [hb]
  refine hw.post ha ?_
  rintro token amt rfl
  rw [hm.lose] at hc
  exact hc

/-- **Share price**: after every run, a call that returns does not lower the price of any token
unless it records a loss, and the price stays positive whatever the call was. -/
theorem share_price_monotone (self : Address) (bank : Bank) (cs : List (Env × PoolCall))
    (env : Env) (c : PoolCall) (token : Address) :
    let w := (poolSystem self).run (PoolWorld.deployed bank) cs
    0 < w.pool.totalManagedAssets token + 1000 ∧
      ∀ w', c.exec self env w = .ok w' →
        0 < w'.pool.totalManagedAssets token + 1000 ∧
          ((∀ amount, c ≠ .recordLoanLoss token amount) →
            w.pool.price token ≤ w'.pool.price token) ∧
          (∀ amount, c = .recordLoanLoss token amount → 0 < amount →
            w'.pool.price token < w.pool.price token) ∧
          (∀ asset src dst amount, c = .transfer asset src dst amount →
            w'.pool.price token = w.pool.price token) := by
  intro w
  have hw : w.pool.toBooks.Solvent := solvent_run self bank cs
  refine ⟨hw.assets_pos token,fun w' h => ?_⟩
  obtain ⟨e,hm,ha,hb⟩ := PoolCall.posts h
  refine ⟨?_,fun hc => ?_,fun amount hc hamount => ?_,fun asset src dst amount hc => ?_⟩
  · rw [hb]
    exact (hw.post ha).assets_pos token
  · rw [hb]
    by_cases ht : e.token? = some token
    · refine hw.price_le ha (fun token' amount he => ?_) token
      subst he
      cases ht
      exact hc amount hm.lose
    · rw [(Books.sameFor_post _ ht).price_eq]
  · subst hc
    simp only [PoolCall.Makes,lossEntry,if_neg hamount.ne'] at hm
    rw [hb,hm]
    exact hw.price_lt hamount
  · subst hc
    simp only [PoolCall.Makes] at hm
    rw [hb,hm]
    rfl

end DukaPay
