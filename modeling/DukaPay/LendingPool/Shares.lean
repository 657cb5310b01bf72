import DukaPay.Contractlib.Transaction
import DukaPay.LendingPool.Books

/-! The pool keeps, beside the share balances, their total, the number of providers and the ledger
of each provider's latest deposit. -/
namespace DukaPay
open Contractlib Option Function Storage Books

def poolSystem (self : Address) : Transactional PoolWorld (Env × PoolCall) Fault where
  exec := fun c w => c.2.exec self c.1 w

def PoolWorld.deployed (bank : Bank) : PoolWorld := ⟨LendingPool.empty,bank⟩

namespace Books

def heldOf (token : Address) (key : Address × Address) (amount : Int) : Int :=
  if key.2 = token then amount else 0

def holderOf (token : Address) (key : Address × Address) (_ : Int) : Nat :=
  if key.2 = token then 1 else 0

def heldShares (b : Books) (token : Address) : Int := b.shares.sumBy (heldOf token)

def holders (b : Books) (token : Address) : Nat := b.shares.sumBy (holderOf token)

structure Consistent (b : Books) : Prop where
  totalShares : ∀ token, b.totalShares token = b.heldShares token
  depositorCount : ∀ token, b.depositorCount token = b.holders token
  positive : ∀ key amount, b.shares.lookup key = some amount → 0 < amount
  depositTimestamp : ∀ key, (b.depositTimestamp.lookup key).isSome = (b.shares.lookup key).isSome

variable {b : Books} {lp token : Address}

lemma consistent_empty : LendingPool.empty.toBooks.Consistent where
  totalShares := fun _ => rfl
  depositorCount := fun _ => rfl
  positive := by
    intro key amt h
    cases h
  depositTimestamp := fun _ => rfl

lemma part_heldOf (b : Books) (lp token token') :
    part (heldOf token') (lp,token) (b.shares.lookup (lp,token)) =
    if token = token' then b.readShares lp token else 0 := by
  unfold readShares
  cases b.shares.lookup (lp,token) with
  | none => simp
  | some => simp [heldOf]

variable (hb : b.Consistent)

include hb

lemma Consistent.readShares_eq_zero :
    b.readShares lp token = 0 ↔ b.shares.lookup (lp,token) = none := by
  unfold readShares
  cases hl : b.shares.lookup (lp,token) with
  | none => simp
  | some =>
    have hp := hb.positive _ _ hl
    simp
    omega

lemma Consistent.readShares_nonneg : 0 ≤ b.readShares lp token := by
  unfold readShares
  cases hl : b.shares.lookup (lp,token) with
  | none => simp
  | some => exact (hb.positive _ _ hl).le

lemma Consistent.part_holderOf (token') :
    part (holderOf token') (lp,token) (b.shares.lookup (lp,token)) =
    if token = token' ∧ b.readShares lp token ≠ 0 then 1 else 0 := by
  have hz : b.readShares lp token = 0 ↔ b.shares.lookup (lp,token) = none :=
    hb.readShares_eq_zero
  cases hl : b.shares.lookup (lp,token) with
  | none => simp [hz.mpr hl]
  | some =>
    have hn : b.readShares lp token ≠ 0 := by simp [hz,hl]
    simp [holderOf,hn]

lemma Consistent.heldOf_nonneg (token) :
    ∀ key v, b.shares.lookup key = some v → 0 ≤ heldOf token key v := by
  intro key v hv
  unfold heldOf
  split
  · exact (hb.positive key v hv).le
  · exact le_refl 0

lemma Consistent.totalShares_nonneg (token) : 0 ≤ b.totalShares token := by
  rw [hb.totalShares]
  exact sumBy_nonneg (hb.heldOf_nonneg token)

lemma Consistent.readShares_le : b.readShares lp token ≤ b.totalShares token := by
  cases hl : b.shares.lookup (lp,token) with
  | none =>
    rw [hb.readShares_eq_zero.mpr hl]
    exact hb.totalShares_nonneg token
  | some =>
    have he := le_sumBy (hb.heldOf_nonneg token) hl
    rw [hb.totalShares,heldShares]
    simpa [heldOf,readShares,hl] using he

omit hb

def storedBalance (remaining : Int) : Option Int := if remaining = 0 then none else some remaining

lemma part_heldOf_storedBalance (lp token token' rem) :
    part (heldOf token') (lp,token) (storedBalance rem) =
    if token = token' then rem else 0 := by
  unfold storedBalance
  split
  · next hz => simp [hz]
  · simp [heldOf]

lemma part_holderOf_storedBalance (lp token token' rem) :
    part (holderOf token') (lp,token) (storedBalance rem) =
    if token = token' ∧ rem ≠ 0 then 1 else 0 := by
  unfold storedBalance
  split
  · next hz => simp [hz]
  · next hz => simp [holderOf,hz]

lemma Consistent.mint (hb : b.Consistent) {x mtd n}
    (hp : 0 < mtd) : (b.mint lp token x mtd n).Consistent := by
  have hr : 0 ≤ b.readShares lp token := hb.readShares_nonneg
  refine ⟨fun tok' => ?_,fun tok' => ?_,fun key v hv => ?_,fun key => ?_⟩
  · have hs := Storage.sumBy_insert (heldOf tok') (lp,token) (b.readShares lp token + mtd) b.shares
    rw [part_heldOf] at hs
    have ho := hb.totalShares tok'
    simp only [Books.mint,heldShares,heldOf] at hs ho ⊢
    obtain rfl | ht := eq_or_ne tok' token
    · simp only [if_true,update_self] at hs ⊢
      omega
    rw [update_of_ne ht]
    simp only [if_neg (Ne.symm ht)] at hs
    omega
  · have hs := Storage.sumBy_insert (holderOf tok') (lp,token)
      (b.readShares lp token + mtd) b.shares
    rw [hb.part_holderOf] at hs
    have ho := hb.depositorCount tok'
    simp only [Books.mint,holders,holderOf] at hs ho ⊢
    -- only a provider without a balance is counted
    by_cases hz : b.readShares lp token = 0
    · obtain rfl | ht := eq_or_ne tok' token
      · simp only [hz,ne_eq,not_true,and_false,if_false,if_true,update_self] at hs ⊢
        omega
      rw [if_pos hz,update_of_ne ht]
      simp only [Ne.symm ht,false_and,if_false] at hs
      omega
    rw [if_neg hz]
    simp only [hz,ne_eq,not_false_eq_true,and_true] at hs
    omega
  · by_cases hk : key = (lp,token)
    · subst hk
      simp only [Books.mint,AList.lookup_insert,Option.some.injEq] at hv
      omega
    · rw [Books.mint,AList.lookup_insert_ne hk] at hv
      exact hb.positive key v hv
  · by_cases hk : key = (lp,token)
    · subst hk
      simp only [Books.mint,AList.lookup_insert,isSome_some]
    · simp only [Books.mint,AList.lookup_insert_ne hk]
      exact hb.depositTimestamp key

lemma Consistent.burn (hb : b.Consistent) {brn ast} (hp : 0 < brn)
    (hh : brn ≤ b.readShares lp token) : (b.burn lp token brn ast).Consistent := by
  have hst : b.readShares lp token ≠ 0 := by omega
  have hs : (b.burn lp token brn ast).shares = b.shares.write (lp,token)
      (storedBalance (b.readShares lp token - brn)) := rfl
  refine ⟨fun tok' => ?_,fun tok' => ?_,fun key v hv => ?_,fun key => ?_⟩
  · have hm := Storage.sumBy_write (heldOf tok') (lp,token)
      (storedBalance (b.readShares lp token - brn)) b.shares
    rw [part_heldOf,part_heldOf_storedBalance] at hm
    have ho := hb.totalShares tok'
    rw [heldShares,hs]
    rw [heldShares] at ho
    obtain rfl | ht := eq_or_ne tok' token
    · simp only [Books.burn,update_self]
      simp only [if_true] at hm
      omega
    simp only [Books.burn,update_of_ne ht]
    simp only [if_neg (Ne.symm ht)] at hm
    omega
  · have hm := Storage.sumBy_write (holderOf tok') (lp,token)
      (storedBalance (b.readShares lp token - brn)) b.shares
    rw [hb.part_holderOf,part_holderOf_storedBalance] at hm
    have ho := hb.depositorCount tok'
    rw [holders,hs]
    rw [holders] at ho
    obtain rfl | ht := eq_or_ne tok' token
    · simp only [hst,true_and,ne_eq,not_false_eq_true,if_true] at hm
      simp only [Books.burn]
      split
      · next hz =>
        -- the balance was counted, so the counter is positive and the subtraction exact
        simp only [hz,not_true,if_false] at hm ⊢
        rw [update_self]
        omega
      · next hz =>
        simp only [hz,not_false_eq_true,if_true] at hm
        omega
    · simp only [Ne.symm ht,false_and,if_false] at hm
      simp only [Books.burn]
      split
      · rw [update_of_ne ht]
        omega
      · omega
  · rw [hs] at hv
    by_cases hk : key = (lp,token)
    · subst hk
      rw [Storage.lookup_write_self,storedBalance] at hv
      split at hv
      · cases hv
      · cases hv
        omega
    · rw [Storage.lookup_write_ne hk] at hv
      exact hb.positive key v hv
  · rw [hs]
    have hts := hb.depositTimestamp key
    by_cases hk : key = (lp,token)
    · subst hk
      rw [Storage.lookup_write_self,storedBalance]
      simp only [Books.burn]
      split
      · simp
      · rw [hts,isSome_some,isSome_iff_ne_none]
        exact fun hn => hst (hb.readShares_eq_zero.mpr hn)
    · rw [Storage.lookup_write_ne hk]
      simp only [Books.burn]
      split
      · rw [AList.lookup_erase_ne hk,hts]
      · exact hts

lemma Consistent.post (hb : b.Consistent) {e : Entry} (he : e.Admissible b) :
    (b.post e).Consistent := by
  cases e with
  | mint => exact hb.mint he.2.1
  | burn => exact hb.burn he.1 he.2.1
  | idle | gain _ _ | lose _ _ | report _ _ =>
    exact ⟨hb.totalShares,hb.depositorCount,hb.positive,hb.depositTimestamp⟩

end Books

lemma consistent_run (self bank cs) :
    ((poolSystem self).run (PoolWorld.deployed bank) cs).pool.toBooks.Consistent := by
  refine Transactional.run_induction (I := fun w : PoolWorld => w.pool.toBooks.Consistent) ?_
    consistent_empty cs
  intro w c w' hw h
  obtain ⟨_,-,ha,hk⟩ := PoolCall.posts h
  rw [hk]
  exact hw.post ha

/-- **Share ledger**: for every token the total is the sum of the balances, the counter is the
number of stored balances, every stored balance is positive, and a timestamp is stored exactly where
a balance is. -/
theorem share_ledger (self : Address) (bank : Bank) (cs : List (Env × PoolCall)) :
    let w := (poolSystem self).run (PoolWorld.deployed bank) cs
    (∀ token, w.pool.totalShares token = w.pool.heldShares token) ∧
      (∀ token, w.pool.depositorCount token = w.pool.holders token) ∧
      (∀ key amount, w.pool.shares.lookup key = some amount → 0 < amount) ∧
      (∀ key, (w.pool.depositTimestamp.lookup key).isSome =
        (w.pool.shares.lookup key).isSome) ∧
      ∀ env c token, c.token? ≠ some token →
        Books.SameFor token w.pool.toBooks ((poolSystem self).apply w (env, c)).pool.toBooks := by
  intro w
  have hw := consistent_run self bank cs
  refine ⟨hw.totalShares,hw.depositorCount,hw.positive,hw.depositTimestamp,?_⟩
  intro env c token hc
  refine Transactional.apply_cases
    (I := fun w' : PoolWorld => Books.SameFor token w.pool.toBooks w'.pool.toBooks)
    (Books.SameFor.refl token _) ?_
  intro w' h
  obtain ⟨_,hm,-,ho⟩ := PoolCall.posts h
  rw [ho]
  exact Books.sameFor_post _ fun ht => hc (hm.token ht)

end DukaPay
