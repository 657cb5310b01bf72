import DukaPay.LendingPool.Price

/-! A provider who deposits and redeems with nobody else acting in between only loses to rounding.
-/
namespace DukaPay
open Contractlib LendingPool Books

namespace Books

def value (b : Books) (provider token : Address) : ℚ :=
  b.readShares provider token * b.price token

end Books

namespace Entry

inductive DealtBy (provider : Address) : Entry → Prop
  | mint (token : Address) (amount minted : Int) (ledger : Nat) :
    DealtBy provider (.mint provider token amount minted ledger)
  | burn (token : Address) (burned assets : Int) :
    DealtBy provider (.burn provider token burned assets)

def proceeds (token : Address) : Entry → Int
  | .mint _ t amount _ _ => if t = token then -amount else 0
  | .burn _ t _ assets => if t = token then assets else 0
  | _ => 0

lemma proceeds_eq_zero {e : Entry} {token} (h : e.token? ≠ some token) : e.proceeds token = 0 := by
  cases e with
  | mint _ t _ _ _ | burn _ t _ _ => exact if_neg fun ht => h (congrArg some ht)
  | idle | gain _ _ | lose _ _ | report _ _ => rfl

variable {lp : Address} {e : Entry}

lemma DealtBy.ne_lose (h : e.DealtBy lp) (token amount) : e ≠ .lose token amount := by
  cases h <;> nofun

end Entry

namespace Books
variable {b : Books} {lp token : Address}

lemma SameFor.readShares {b'} (h : SameFor token b b') (lp) :
    b'.readShares lp token = b.readShares lp token := by
  unfold Books.readShares
  rw [h.shares]

@[simp] lemma readShares_mint (b : Books) (lp token x minted n) :
    (b.mint lp token x minted n).readShares lp token =
    b.readShares lp token + minted := by
  conv_lhs => unfold readShares
  simp [mint]

@[simp] lemma readShares_burn (b : Books) (lp token burned ast) :
    (b.burn lp token burned ast).readShares lp token =
    b.readShares lp token - burned := by
  conv_lhs => unfold readShares
  simp only [burn,Storage.lookup_write_self]
  split
  · next hz => rw [hz]; rfl
  · rfl

lemma totalManagedAssets_dealt {e : Entry} (he : e.DealtBy lp) (token) :
    (b.post e).totalManagedAssets token = b.totalManagedAssets token - e.proceeds token := by
  by_cases ht : e.token? = some token
  · cases he <;> cases ht <;> simp [post,mint,burn,Entry.proceeds]
  · rw [(sameFor_post b ht).totalManagedAssets,Entry.proceeds_eq_zero ht,sub_zero]

lemma others_dealt {e : Entry} (he : e.DealtBy lp) (token) :
    (b.post e).totalShares token - (b.post e).readShares lp token =
    b.totalShares token - b.readShares lp token := by
  by_cases ht : e.token? = some token
  · cases he with
    | mint =>
      cases ht
      simp only [post,readShares_mint]
      simp [mint]
    | burn =>
      cases ht
      simp only [post,readShares_burn]
      simp [burn]
  · rw [(sameFor_post b ht).totalShares,(sameFor_post b ht).readShares]

lemma Solvent.proceeds_add_value_le (hb : b.Solvent) {e : Entry} (ha : e.Admissible b)
    (he : e.DealtBy lp) (token) :
    (e.proceeds token : ℚ) + (b.post e).value lp token ≤ b.value lp token := by
  have hs := hb.totalShares_nonneg token
  have hs' := (hb.post ha).totalShares_nonneg token
  have ho := others_dealt (b := b) he token
  have has := totalManagedAssets_dealt (b := b) he token
  have hh : b.readShares lp token ≤ b.totalShares token := hb.readShares_le
  have hp : e.proceeds token = b.totalManagedAssets token + virtualAssets -
      ((b.post e).totalManagedAssets token + virtualAssets) := by omega
  have hv : virtualShares = 1000 := rfl
  rw [hp]
  exact Exchange.paid_add_value_le (by omega) (by omega) (hb.price_le ha he.ne_lose token)
    (by omega) (by omega)

lemma redeemable_eq {brn assets}
    (h : LendingPool.calcAssetsToRedeem brn (b.totalManagedAssets token)
    (b.totalShares token) = .ok assets) : b.redeemable token brn = assets := by
  simp only [redeemable,h]

end Books

/-- What a call pays to its provider in `token` when it returns, negative for a deposit. -/
def PoolCall.proceeds (token : Address) (w : PoolWorld) : PoolCall → Int
  | .deposit _ t amount _ => if t = token then -amount else 0
  | .withdraw _ t shares _ => if t = token then w.pool.redeemable t shares else 0
  | .emergencyWithdraw _ t shares _ => if t = token then w.pool.redeemable t shares else 0
  | _ => 0

inductive Dealing
  | deposit (token : Address) (amount minSharesOut : Int)
  | withdraw (token : Address) (shares minAssetsOut : Int)
  | emergencyWithdraw (token : Address) (shares minAssetsOut : Int)

namespace Dealing

def call (provider : Address) : Dealing → PoolCall
  | .deposit token amount minSharesOut => .deposit provider token amount minSharesOut
  | .withdraw token shares minAssetsOut => .withdraw provider token shares minAssetsOut
  | .emergencyWithdraw token shares minAssetsOut =>
    .emergencyWithdraw provider token shares minAssetsOut

variable {self lp : Address} {env : Env} {w w' : PoolWorld} {d : Dealing}
variable {token : Address} {shares : Int}

lemma paid_of_burn {ast} (ha : Entry.Admissible w.pool.toBooks (.burn lp token shares ast))
    (hm : Bank.Moved ⟨token,self,lp,ast,some self⟩ w.bank w'.bank) (t) :
    (if token = t then w.pool.redeemable token shares else 0) =
    (Entry.burn lp token shares ast).proceeds t ∧
    (lp ≠ self → w'.bank.balance t lp =
    w.bank.balance t lp + (Entry.burn lp token shares ast).proceeds t) := by
  obtain ⟨-,-,-,hs,-⟩ := ha
  refine ⟨by rw [redeemable_eq hs]; rfl,fun hn => ?_⟩
  rw [hm.balance]
  by_cases ht : token = t
  · simp [Bank.delta,Entry.proceeds,ht,hn]
  · simp [Bank.delta,Entry.proceeds,ht,Ne.symm ht]

lemma posts (h : (d.call lp).exec self env w = .ok w') :
    ∃ e, e.DealtBy lp ∧ e.Admissible w.pool.toBooks ∧
    w'.pool.toBooks = w.pool.toBooks.post e ∧
    ∀ token, (d.call lp).proceeds token w = e.proceeds token ∧
    (lp ≠ self → w'.bank.balance token lp =
    w.bank.balance token lp + e.proceeds token) := by
  cases d with
  | deposit token amt =>
    obtain ⟨-,⟨mtd,hp⟩,hm⟩ := posted_of_deposit h
    refine ⟨_,.mint token amt mtd env.sequence,hp.admissible,hp.books,fun t => ?_⟩
    refine ⟨rfl,fun hn => ?_⟩
    rw [hm.balance]
    by_cases ht : token = t
    · simp [Bank.delta,Entry.proceeds,ht,hn]
    · simp [Bank.delta,Entry.proceeds,ht,Ne.symm ht]
  | withdraw token shares =>
    obtain ⟨-,ast,hp,hm⟩ := posted_of_withdraw h
    exact ⟨_,.burn token shares ast,hp.admissible,hp.books,paid_of_burn hp.admissible hm⟩
  | emergencyWithdraw token shares =>
    obtain ⟨-,ast,hp,hm⟩ := posted_of_emergencyWithdraw h
    exact ⟨_,.burn token shares ast,hp.admissible,hp.books,paid_of_burn hp.admissible hm⟩

lemma step (hw : w.pool.toBooks.Solvent) (h : (d.call lp).exec self env w = .ok w') (token) :
    w'.pool.toBooks.Solvent ∧ w.pool.price token ≤ w'.pool.price token ∧
    ((d.call lp).proceeds token w : ℚ) + w'.pool.value lp token ≤
    w.pool.value lp token := by
  obtain ⟨_,he,ha,hb,hp⟩ := posts h
  rw [hb,(hp token).1]
  exact ⟨hw.post ha,hw.price_le ha he.ne_lose token,hw.proceeds_add_value_le ha he token⟩

inductive Redeems (token : Address) (shares : Int) : Dealing → Prop
  | withdraw (minAssetsOut : Int) : Redeems token shares (.withdraw token shares minAssetsOut)
  | emergencyWithdraw (minAssetsOut : Int) :
    Redeems token shares (.emergencyWithdraw token shares minAssetsOut)

lemma Redeems.proceeds (h : d.Redeems token shares) (lp w) :
    (d.call lp).proceeds token w = w.pool.redeemable token shares := by
  cases h <;> exact if_pos rfl

lemma Redeems.readShares (h : d.Redeems token shares) (hx : (d.call lp).exec self env w = .ok w') :
    w'.pool.readShares lp token = w.pool.readShares lp token - shares := by
  cases h with
  | withdraw =>
    obtain ⟨-,ast,hp,-⟩ := posted_of_withdraw hx
    rw [hp.books]
    exact readShares_burn ..
  | emergencyWithdraw =>
    obtain ⟨-,ast,hp,-⟩ := posted_of_emergencyWithdraw hx
    rw [hp.books]
    exact readShares_burn ..

lemma two_steps {e : Dealing} {env' w₁ w₂} (hw : w.pool.toBooks.Solvent)
    (h : (d.call lp).exec self env w = .ok w₁)
    (h' : (e.call lp).exec self env' w₁ = .ok w₂) (token) : 0 < w₂.pool.price token ∧
    (((d.call lp).proceeds token w + (e.call lp).proceeds token w₁ : ℤ) : ℚ) ≤
    ((w.pool.readShares lp token - w₂.pool.readShares lp token : ℤ) : ℚ) *
    w₂.pool.price token := by
  obtain ⟨hw1,hr,hp⟩ := step hw h token
  obtain ⟨hw2,hp',hpa'⟩ := step hw1 h' token
  have hh : (0 : ℚ) ≤ w.pool.readShares lp token := by
    exact_mod_cast hw.toConsistent.readShares_nonneg
  have hwr : w.pool.value lp token ≤ w.pool.readShares lp token * w₂.pool.price token :=
    mul_le_mul_of_nonneg_left (hr.trans hp') hh
  refine ⟨hw2.price_pos token,?_⟩
  unfold value at hp hpa' hwr
  push_cast
  linarith [sub_mul (w.pool.readShares lp token : ℚ) (w₂.pool.readShares lp token)
    (w₂.pool.price token)]

def calls (provider : Address) (ds : List (Env × Dealing)) : List (Env × PoolCall) :=
  ds.map fun d => (d.1,d.2.call provider)

lemma along_calls (lp ds w) : (poolSystem self).Along (fun _ c => ∃ d : Dealing, c.2 = d.call lp) w
    (calls lp ds) := by
  apply always_of_forall
  intro _ c hc
  obtain ⟨d,-,rfl⟩ := List.mem_map.mp hc
  exact ⟨d.2,rfl⟩

end Dealing

variable {lp : Address} {minSharesOut : Int}

lemma Dealing.redeemable_le_deposit {self token env env' amount mtd} {d : Dealing}
    {w w₁ w₂ : PoolWorld} (hw : w.pool.toBooks.Solvent)
    (h : LendingPool.deposit self env lp token amount minSharesOut w = .ok w₁)
    (hm : mtd = w₁.pool.readShares lp token - w.pool.readShares lp token)
    (hd : d.Redeems token mtd) (h' : (d.call lp).exec self env' w₁ = .ok w₂) :
    w₁.pool.redeemable token mtd ≤ amount := by
  -- the provider ends with the shares they had, so nothing was gained
  have ht := (Dealing.two_steps (d := .deposit token amount minSharesOut) hw h h' token).2
  have hb := hd.readShares h'
  have hs : ((Dealing.deposit token amount minSharesOut).call lp).proceeds token w =
      -amount := if_pos rfl
  rw [hs,hd.proceeds,hb] at ht
  have hz : w.pool.readShares lp token - (w₁.pool.readShares lp token - mtd) = 0 := by omega
  rw [hz,Int.cast_zero,zero_mul] at ht
  have : -amount + w₁.pool.redeemable token mtd ≤ 0 := by exact_mod_cast ht
  omega

lemma Dealing.minted_le_redeemed {self token env env' shares}
    {d : Dealing} {w w₁ w₂ : PoolWorld} (hw : w.pool.toBooks.Solvent)
    (hd : d.Redeems token shares) (h : (d.call lp).exec self env w = .ok w₁)
    (h' : LendingPool.deposit self env' lp token (w.pool.redeemable token shares)
    minSharesOut w₁ = .ok w₂) :
    w₂.pool.readShares lp token - w₁.pool.readShares lp token ≤ shares := by
  -- nothing was paid on balance, so no shares were gained
  obtain ⟨hp,ht⟩ := Dealing.two_steps
    (e := .deposit token (w.pool.redeemable token shares) minSharesOut) hw h h' token
  have hb := hd.readShares h
  have hs : ((Dealing.deposit token (w.pool.redeemable token shares) minSharesOut).call
      lp).proceeds token w₁ = -w.pool.redeemable token shares := if_pos rfl
  rw [hs,hd.proceeds,add_neg_cancel,Int.cast_zero] at ht
  have hk : (0 : ℚ) ≤ ((w.pool.readShares lp token - w₂.pool.readShares lp token : ℤ) : ℚ) :=
    nonneg_of_mul_nonneg_left ht hp
  have : 0 ≤ w.pool.readShares lp token - w₂.pool.readShares lp token := by
    exact_mod_cast hk
  omega

/-- **No profit from dealing alone**: over a provider's own deposits and redemptions, what the pool
paid them on balance, with the value of the shares they end with, is at most the value of the shares
they started with. -/
theorem no_self_dealing_profit (self : Address) (bank : Bank) (cs : List (Env × PoolCall))
    (provider token : Address) (ds : List (Env × Dealing)) :
    let w := (poolSystem self).run (PoolWorld.deployed bank) cs
    let w' := (poolSystem self).run w (Dealing.calls provider ds)
    let paid := (poolSystem self).tally (fun w c => c.2.proceeds token w) w
      (Dealing.calls provider ds)
    (paid : ℚ) + w'.pool.value provider token ≤ w.pool.value provider token ∧
      (provider ≠ self →
        w'.bank.balance token provider = w.bank.balance token provider + paid) ∧
      (∀ (env env' : Env) (amount minSharesOut minted : Int) (d : Dealing) (w₁ w₂ : PoolWorld),
        LendingPool.deposit self env provider token amount minSharesOut w = .ok w₁ →
        minted = w₁.pool.readShares provider token - w.pool.readShares provider token →
        d.Redeems token minted → (d.call provider).exec self env' w₁ = .ok w₂ →
        w₁.pool.redeemable token minted ≤ amount) ∧
      (∀ (env env' : Env) (shares minSharesOut : Int) (d : Dealing) (w₁ w₂ : PoolWorld),
        d.Redeems token shares → (d.call provider).exec self env w = .ok w₁ →
        LendingPool.deposit self env' provider token (w.pool.redeemable token shares) minSharesOut
          w₁ = .ok w₂ →
        w₂.pool.readShares provider token - w₁.pool.readShares provider token ≤ shares) := by
  intro w w' paid
  have hw : w.pool.toBooks.Solvent := solvent_run self bank cs
  refine ⟨?_,fun hne => ?_,fun env env' amount minSharesOut minted d w₁ w₂ h hm hd h' => ?_,
    fun env env' shares minSharesOut d w₁ w₂ hd h h' => ?_⟩
  · have ht := Transactional.map_tally (S := poolSystem self) (Int.castAddHom ℚ)
      (fun w c => c.2.proceeds token w) w (Dealing.calls provider ds)
    rw [show (paid : ℚ) = _ from ht]
    refine Transactional.tally_add_le (I := fun w : PoolWorld => w.pool.toBooks.Solvent)
      (v := fun w : PoolWorld => w.pool.value provider token) ?_ hw
      (Dealing.along_calls provider ds w)
    rintro s ⟨env,c⟩ s' hs ⟨d,rfl⟩ he
    obtain ⟨hs',-,hle⟩ := Dealing.step hs he token
    exact ⟨hs',hle⟩
  · refine Transactional.run_eq_add_tally (I := fun _ : PoolWorld => True)
      (v := fun w : PoolWorld => w.bank.balance token provider) ?_ trivial
      (Dealing.along_calls provider ds w)
    rintro s ⟨env,c⟩ s' - ⟨d,rfl⟩ he
    obtain ⟨_,-,-,-,hp⟩ := Dealing.posts he
    refine ⟨trivial,?_⟩
    rw [(hp token).2 hne,(hp token).1]
  · exact Dealing.redeemable_le_deposit hw h hm hd h'
  · exact Dealing.minted_le_redeemed hw hd h h'

lemma of_deposit {self env lp token x minSharesOut a s w w'}
    (h : deposit self env lp token x minSharesOut w = .ok w') (ha : 0 ≤ a)
    (hs : w.pool.totalManagedAssets token = a) (hh : w.pool.totalShares token = s) :
    let minted := x * (s + 1000) / (a + 1000)
    0 < x ∧ w'.pool.totalManagedAssets token = a + x ∧ w'.pool.totalShares token = s + minted ∧
      w'.pool.readShares lp token = w.pool.readShares lp token + minted ∧
      ∀ other, other ≠ lp → w'.pool.readShares other token = w.pool.readShares other token := by
  obtain ⟨-,⟨m,hp⟩,-⟩ := posted_of_deposit h
  obtain ⟨hd,-,hm,-⟩ := hp.admissible
  rw [hs,hh] at hm
  obtain rfl := eq_of_calcSharesToMint (by omega) hm
  rw [hp.books,post,readShares_mint]
  simp +contextual [mint,readShares,hs,hh,hd]

/-- **No first-depositor attack**: in a token without shares, an attacker deposits `d` and donates
`y` before another provider deposits `v`. A call that redeems all their shares leaves the attacker
with at most `d + y` more than before it, and the other provider loses less than one share. -/
theorem inflation_unprofitable (self : Address) (bank : Bank) (cs : List (Env × PoolCall))
    (token attacker donor victim : Address) (d y v minSharesOut minSharesOut' : Int)
    (env env₁ env₂ env₃ : Env) (redemption : Dealing) (w₁ w₂ w₃ w₄ : PoolWorld)
    (hne : attacker ≠ victim) (hself : attacker ≠ self)
    (hassets : ((poolSystem self).run (.deployed bank) cs).pool.totalManagedAssets token = 0)
    (hshares : ((poolSystem self).run (.deployed bank) cs).pool.totalShares token = 0)
    (h : deposit self env attacker token d minSharesOut ((poolSystem self).run (.deployed bank) cs) =
      .ok w₁) (h₁ : y = 0 ∧ w₂ = w₁ ∨ distributeYield self env₁ donor token y w₁ = .ok w₂)
    (h₂ : deposit self env₂ victim token v minSharesOut' w₂ = .ok w₃)
    (hall : redemption.Redeems token (w₃.pool.readShares attacker token))
    (h₃ : (redemption.call attacker).exec self env₃ w₃ = .ok w₄) :
    w₄.pool.readShares attacker token = 0 ∧
      w₄.bank.balance token attacker ≤ w₃.bank.balance token attacker + (d + y) ∧
      (v : ℚ) - w₂.pool.price token <
      (w₃.pool.readShares victim token - w₂.pool.readShares victim token : ℤ) *
      w₃.pool.price token := by
  have hw := (solvent_run self bank cs).toConsistent
  have hz := @Books.Consistent.readShares_nonneg _ attacker token hw
  have hh := @Books.Consistent.readShares_le _ attacker token hw
  obtain ⟨hd,hassets₁,hshares₁,hheld₁,-⟩ := of_deposit h le_rfl hassets hshares
  have hm : d * (0 + 1000) / (0 + 1000) = d := by omega
  rw [hm] at hshares₁ hheld₁
  replace hheld₁ : w₁.pool.readShares attacker token = d := by omega
  have hs : 0 ≤ y ∧ w₂.pool.totalManagedAssets token = d + y ∧
      w₂.pool.totalShares token = d ∧ w₂.pool.readShares attacker token = d := by
    obtain ⟨rfl,rfl⟩ | h₁ := h₁
    · simp [hassets₁,hshares₁,hheld₁]
    · obtain ⟨-,hp₁,-⟩ := posted_of_distributeYield h₁
      obtain ⟨hy,-⟩ := hp₁.admissible
      rw [hp₁.books]
      refine ⟨hy.le,?_,hshares₁.trans (zero_add d),hheld₁⟩
      simp [Books.post,Books.gain,hassets₁]
  obtain ⟨hy,hassets₂,hshares₂,hheld₂⟩ := hs
  obtain ⟨hv,hassets₃,hshares₃,hheld₃,ho⟩ := of_deposit h₂ (by omega) hassets₂ hshares₂
  have hm : 0 ≤ v * (d + 1000) / (d + y + 1000) :=
    Int.ediv_nonneg (mul_nonneg hv.le (by omega)) (by omega)
  obtain ⟨_,-,-,-,hpaid⟩ := Dealing.posts h₃
  refine ⟨?_,?_,?_⟩
  · have hr := hall.readShares h₃
    omega
  · rw [(hpaid token).2 hself,← (hpaid token).1,hall.proceeds,add_le_add_iff_left,ho attacker hne,
      hheld₂,Books.redeemable,hassets₃,hshares₃]
    split
    · next paid hp =>
      rw [eq_of_calcAssetsToRedeem (by omega) hp]
      exact Exchange.first_holder_le (by decide) hd.le hy hv.le
    · omega
  · rw [Books.price_eq_of hassets₂ hshares₂,Books.price_eq_of hassets₃ hshares₃,hheld₃,
      add_sub_cancel_left,add_right_comm (d + y) v,add_right_comm d (_ / _)]
    exact Exchange.lt_mint_value (by omega) (by omega) hv.le

/-- Against a deposit of 1000 the attacker brings 1 and 999 and gets 1 back, after the cooldown. -/
theorem inflation_unprofitable_small :
    let w := (poolSystem ⟨1⟩).run (.deployed .small) [(.small 1,.initializePool ⟨4⟩)]
    let w₁ := (deposit ⟨1⟩ (.small 1) ⟨5⟩ ⟨3⟩ 1 0 w).toOption.getD w
    let w₂ := (distributeYield ⟨1⟩ (.small 1) ⟨5⟩ ⟨3⟩ 999 w₁).toOption.getD w
    let w₃ := (deposit ⟨1⟩ (.small 1) ⟨6⟩ ⟨3⟩ 1000 0 w₂).toOption.getD w
    let w₄ := (withdraw ⟨1⟩ (.small 100000) ⟨5⟩ ⟨3⟩ 1 0 w₃).toOption.getD w
    w₃.pool.readShares ⟨5⟩ ⟨3⟩ = 1 ∧
      w₄.bank.balance ⟨3⟩ ⟨5⟩ = w₃.bank.balance ⟨3⟩ ⟨5⟩ + 1 ∧ w₄.pool.readShares ⟨5⟩ ⟨3⟩ = 0 ∧
      w₄.bank.balance ⟨3⟩ ⟨5⟩ ≤ w₃.bank.balance ⟨3⟩ ⟨5⟩ + (1 + 999) := by
  intro w w₁ w₂ w₃ w₄
  have hh : w₃.pool.readShares ⟨5⟩ ⟨3⟩ = 1 := by decide +kernel
  obtain ⟨hz,hb,-⟩ := inflation_unprofitable ⟨1⟩ .small [(.small 1,.initializePool ⟨4⟩)] ⟨3⟩ ⟨5⟩ ⟨5⟩
    ⟨6⟩ 1 999 1000 0 0 (.small 1) (.small 1) (.small 1) (.small 100000) (.withdraw ⟨3⟩ 1 0) w₁ w₂ w₃
    w₄ (by decide) (by decide) (by decide +kernel) (by decide +kernel)
    (eq_ok_of_not_fails (by decide +kernel) w) (.inr (eq_ok_of_not_fails (by decide +kernel) w))
    (eq_ok_of_not_fails (by decide +kernel) w) (hh.symm ▸ .withdraw 0)
    (eq_ok_of_not_fails (by decide +kernel) w)
  exact ⟨hh,by decide +kernel,hz,hb⟩

variable {e : Entry} {lp : Address}

lemma Books.readShares_post (b : Books) (hn : ¬ e.DealtBy lp) (token) :
    (b.post e).readShares lp token = b.readShares lp token := by
  cases e with
  | mint lp' tok' =>
    have hk : (lp,token) ≠ (lp',tok') := fun h => hn (by cases h; constructor)
    exact congrArg (Option.getD · 0) (AList.lookup_insert_ne hk)
  | burn lp' tok' =>
    have hk : (lp,token) ≠ (lp',tok') := fun h => hn (by cases h; constructor)
    exact congrArg (Option.getD · 0) (Storage.lookup_write_ne hk _ _)
  | _ => rfl

lemma PoolCall.Makes.authorized {self env w w'} {c : PoolCall} (hm : c.Makes env e)
    (he : e.DealtBy lp) (h : c.exec self env w = .ok w') : env.Authorized lp := by
  cases c
  case deposit => obtain ⟨_,rfl⟩ := hm; cases he; exact (posted_of_deposit h).1
  case withdraw => obtain ⟨_,rfl⟩ := hm; cases he; exact (posted_of_withdraw h).1
  case emergencyWithdraw => obtain ⟨_,rfl⟩ := hm; cases he; exact (posted_of_emergencyWithdraw h).1
  all_goals cases he <;> grind [Makes,gainEntry,lossEntry]

lemma value_step {self w w'} {c : Env × PoolCall} (hw : w.pool.toBooks.Solvent)
    (hn : ¬ c.1.Authorized lp) (h : (poolSystem self).exec c w = .ok w') (token) :
    w'.pool.toBooks.Solvent ∧ w'.pool.readShares lp token = w.pool.readShares lp token ∧
      ((∀ x, c.2 ≠ .recordLoanLoss token x) → w.pool.value lp token ≤ w'.pool.value lp token) := by
  obtain ⟨e,hm,ha,hb⟩ := PoolCall.posts h
  have hs := w.pool.readShares_post (fun he => hn (hm.authorized he h)) token
  rw [hb]
  refine ⟨hw.post ha,hs,fun hl => ?_⟩
  rw [value,value,hs]
  refine mul_le_mul_of_nonneg_left ?_ (mod_cast hw.readShares_nonneg)
  by_cases ht : e.token? = some token
  · refine hw.price_le ha (fun token' x he => ?_) token
    subst he
    cases ht
    exact hl x hm.lose
  · rw [(sameFor_post _ ht).price_eq]

/-- **Consent**: a provider who authorises no call of a run keeps their shares, and the value of
these does not fall as long as no loss of the token is recorded. -/
theorem shares_need_consent (self : Address) (bank : Bank) (cs cs' : List (Env × PoolCall))
    (lp token : Address) (hc : ∀ c ∈ cs', ¬ c.1.Authorized lp) :
    let w := (poolSystem self).run (.deployed bank) cs
    let w' := (poolSystem self).run w cs'
    w'.pool.readShares lp token = w.pool.readShares lp token ∧
      ((∀ c ∈ cs', ∀ x, c.2 ≠ .recordLoanLoss token x) →
        w.pool.value lp token ≤ w'.pool.value lp token) := by
  intro w w'
  refine (Transactional.along_induction (P := fun _ c => c ∈ cs') (I := fun v : PoolWorld =>
    v.pool.toBooks.Solvent ∧ v.pool.readShares lp token = w.pool.readShares lp token ∧
    ((∀ c ∈ cs', ∀ x, c.2 ≠ .recordLoanLoss token x) →
      w.pool.value lp token ≤ v.pool.value lp token)) ?_
    ⟨solvent_run self bank cs,rfl,fun _ => le_rfl⟩
    (always_of_forall fun _ _ h => h)).2
  rintro v c v' ⟨hv,hs,hp⟩ hm h
  obtain ⟨hv',hs',hp'⟩ := value_step hv (hc c hm) h token
  exact ⟨hv',hs'.trans hs,fun hl => (hp hl).trans (hp' (hl c hm))⟩

theorem shares_need_consent_small :
    let w := (poolSystem ⟨1⟩).run (.deployed .small)
      [(.small 1,.initializePool ⟨4⟩),(.small 1,.deposit ⟨5⟩ ⟨3⟩ 100 0)]
    let w' := (poolSystem ⟨1⟩).run w
      [({ Env.small 1 with signed := (· = ⟨6⟩) },.deposit ⟨6⟩ ⟨3⟩ 50 0)]
    w'.pool.readShares ⟨5⟩ ⟨3⟩ = w.pool.readShares ⟨5⟩ ⟨3⟩ :=
  (shares_need_consent ⟨1⟩ .small _ _ ⟨5⟩ ⟨3⟩ (by decide)).1

end DukaPay
