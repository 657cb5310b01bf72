import DukaPay.AgentVault.Defs
import DukaPay.CircuitBreaker.Defs
import DukaPay.Protocol.Accounts

/-! The pool, the vault and the loan manager ask the circuit breaker before they move value. -/
namespace DukaPay
open Contractlib List Option

structure Contracts extends World where
  vault : AgentVault

inductive Party
  | pool
  | vault
  | manager

inductive ValueCall
  | pool (c : PoolCall)
  | vault (c : VaultCall)
  | loan (c : LoanCall)

def PoolCall.function : PoolCall → Option String
  | .deposit .. => some "deposit"
  | .withdraw .. => some "withdraw"
  | .emergencyWithdraw .. => some "withdraw"
  | .distributeYield .. => some "distribute_yield"
  | .disburse .. => some "disburse"
  | .adjustOutstanding .. => some "adjust_outstanding"
  | _ => none

def VaultCall.function : VaultCall → Option String
  | .depositCollateral .. => some "deposit_collateral"
  | .withdrawCollateral .. => some "withdraw_collateral"
  | .mintFloat .. => some "mint_float"
  | .burnFloat .. => some "burn_float"
  | .transferFloat .. => some "transfer_float"
  | .settleNet .. => some "settle_net"
  | _ => none

namespace LoanCall

def function : LoanCall → Option String
  | .requestLoan .. => some "request_loan"
  | .approveLoan .. => some "approve_loan"
  | .repay .. => some "repay"
  | .depositCollateral .. => some "deposit_collateral"
  | .liquidate .. => some "liquidate"
  | .refinanceLoan .. => some "refinance_loan"
  | .extendLoan .. => some "extend_loan"
  | .checkDefault .. => some "check_default"
  | .checkDefaults .. => some "check_defaults"
  | _ => none

lemma function_ne_wildcard (c : LoanCall) : c.function ≠ some CircuitBreaker.contractWildcard := by
  cases c <;> simp [function,CircuitBreaker.contractWildcard]

def asks : LoanCall → List String
  | .requestLoan .. => ["any","request_loan"]
  | .approveLoan .. => ["any","approve_loan"]
  | .repay .. => ["any","repay"]
  | _ => ["any"]

def unguarded : List String :=
  ["deposit_collateral","liquidate","refinance_loan","extend_loan","check_default","check_defaults"]

lemma mem_asks_iff {c : LoanCall} {f} (hf : c.function = some f) : f ∈ c.asks ↔ f ∉ unguarded := by
  cases c with
  | releaseCollateral | cancelLoan | rejectLoan | purgeLoan => cases hf
  | _ =>
    cases hf
    simp [asks,unguarded]

end LoanCall

namespace ValueCall

def exec (d : Deployment) (vault : Address) (env : TimedEnv) (s : Contracts) :
    ValueCall → Res Contracts
  | .pool c => do return { s with toPoolWorld := ← c.exec d.pool env.toEnv s.toPoolWorld }
  | .vault c => do
    let w ← c.exec vault env ⟨s.vault,s.bank⟩
    return { s with vault := w.vault, bank := w.bank }
  | .loan c => do return { s with toWorld := ← c.exec d env.toEnv s.toWorld }

def function : ValueCall → Option String
  | .pool c => c.function
  | .vault c => c.function
  | .loan c => c.function

def asks : ValueCall → List String
  | .pool c => c.function.toList
  | .vault c => c.function.toList
  | .loan c => c.asks

def party : ValueCall → Party
  | .pool _ => .pool
  | .vault _ => .vault
  | .loan _ => .manager

def contract (d : Deployment) (vault : Address) : ValueCall → Address
  | .pool _ => d.pool
  | .vault _ => vault
  | .loan _ => d.manager

def breaker (s : Contracts) : ValueCall → Option Address
  | .pool _ => s.pool.circuitBreaker
  | .vault _ => s.vault.circuitBreaker
  | .loan _ => s.manager.circuitBreaker

end ValueCall

def contracts (d : Deployment) (vault : Address) :
    Transactional Contracts (TimedEnv × ValueCall) Fault where
  exec := fun i s => i.2.exec d vault i.1 s

/-- The surroundings of a call while the breaker at the address `breaker` is in the state `b`. -/
def TimedEnv.asking (env : TimedEnv) (breaker : Address) (b : CircuitBreaker) : TimedEnv :=
  { env with
    isBlocked := fun a contract function =>
      if a = breaker then (b.isBlocked env.timestamp contract function).1
      else env.isBlocked a contract function }

lemma TimedEnv.isBlocked_asking (env : TimedEnv) (breaker b con function) :
    (env.asking breaker b).isBlocked breaker con function = true ↔
    b.Blocked env.timestamp con function := by
  rw [← CircuitBreaker.isBlocked_iff]
  simp [asking]

namespace ValueCall

/-- The called contract is configured with the breaker, and `is_blocked` is true under the name of
the entry point. -/
structure Paused (d : Deployment) (vault breaker : Address) (b : CircuitBreaker) (env : TimedEnv)
    (s : Contracts) (c : ValueCall) (f : String) : Prop where
  function : c.function = some f
  configured : c.breaker s = some breaker
  blocked : (b.isBlocked env.timestamp (c.contract d vault) f).1 = true

def Refused (d : Deployment) (vault : Address) (env : TimedEnv) (s : Contracts) (c : ValueCall) :
    Prop :=
  Fails (c.exec d vault env s) ∧ (contracts d vault).apply s (env,c) = s

lemma refused_of_fails {d vault env s}
    {c : ValueCall} (h : Fails (c.exec d vault env s)) : c.Refused d vault env s := by
  refine ⟨h,?_⟩
  obtain ⟨_,he⟩ := h
  exact Transactional.apply_of_error he

end ValueCall

section
variable {env : TimedEnv} {breaker : Address} {f : String} {self : Address} {d : Deployment}

lemma LendingPool.fails_assertCircuitOk {env : Env} {p : LendingPool}
    (hp : p.circuitBreaker = some breaker) (h : env.isBlocked breaker self f = true) :
    Fails (p.assertCircuitOk self env f) := by
  simp only [assertCircuitOk,hp]
  exact fails_ensure (by simp [h])

lemma AgentVault.fails_assertCircuitOk {s : AgentVault} (hs : s.circuitBreaker = some breaker)
    (h : env.isBlocked breaker self f = true) : Fails (s.assertCircuitOk self env f) := by
  simp only [assertCircuitOk,hs]
  exact fails_ensure (by simp [h])

lemma LoanManager.fails_assertCircuitOk {env : Env} {m : LoanManager}
    (hm : m.circuitBreaker = some breaker) (h : env.isBlocked breaker d.manager f = true) :
    Fails (m.assertCircuitOk d env f) := by
  simp only [assertCircuitOk,hm]
  exact fails_ensure (by simp [h])

lemma PoolCall.fails {env : Env} {w : PoolWorld} {c : PoolCall} (hc : c.function = some f)
    (hp : w.pool.circuitBreaker = some breaker) (h : env.isBlocked breaker self f = true) :
    Fails (c.exec self env w) := by
  have hg : Fails (w.pool.assertCircuitOk self env f) := LendingPool.fails_assertCircuitOk hp h
  cases c with
  | deposit | withdraw | distributeYield =>
    cases hc
    exact .after fun _ _ => .after fun _ _ => hg.bind _
  | emergencyWithdraw =>
    cases hc
    exact .after fun _ _ => hg.bind _
  | disburse =>
    cases hc
    exact .after fun _ _ => .after fun _ _ => .after fun _ _ => hg.bind _
  | adjustOutstanding =>
    cases hc
    refine .bind ?_ _
    exact .after fun _ _ => .after fun _ _ => hg.bind _
  | _ => cases hc

lemma VaultCall.fails {w : VaultWorld} {c : VaultCall} (hc : c.function = some f)
    (hp : w.vault.circuitBreaker = some breaker) (h : env.isBlocked breaker self f = true) :
    Fails (c.exec self env w) := by
  have hg : Fails (w.vault.assertCircuitOk self env f) := AgentVault.fails_assertCircuitOk hp h
  cases c with
  | depositCollateral | withdrawCollateral =>
    cases hc
    exact .after fun _ _ => hg.bind _
  | mintFloat | burnFloat | settleNet =>
    cases hc
    refine .bind ?_ _
    exact .after fun _ _ => hg.bind _
  | transferFloat =>
    cases hc
    refine .bind ?_ _
    exact .after fun _ _ => .after fun _ _ => .after fun _ _ => hg.bind _
  | _ => cases hc

lemma LoanManager.fails_requireNotPaused {env : Env} {w : World}
    (hm : w.manager.circuitBreaker = some breaker)
    (h : env.isBlocked breaker d.manager "any" = true) :
    Fails (LoanManager.requireNotPaused d env w) :=
  .after fun _ _ => .after fun _ _ => .after fun _ _ => fails_assertCircuitOk hm h

lemma LoanCall.fails {env : Env} {w : World} {c : LoanCall} {g}
    (hc : c.function = some f) (hm : w.manager.circuitBreaker = some breaker) (hg : g ∈ c.asks)
    (h : env.isBlocked breaker d.manager g = true) : Fails (c.exec d env w) := by
  have ho : Fails (w.manager.assertCircuitOk d env g) := LoanManager.fails_assertCircuitOk hm h
  have ha : g = "any" → Fails (LoanManager.requireNotPaused d env w) := by
    rintro rfl
    exact LoanManager.fails_requireNotPaused hm h
  cases c with
  | requestLoan =>
    refine .bind ?_ _
    simp only [asks,mem_cons,not_mem_nil,or_false] at hg
    obtain rfl | rfl := hg
    · exact .after fun _ _ => (ha rfl).bind _
    · exact .after fun _ _ => .after fun _ _ => ho.bind _
  | approveLoan =>
    simp only [asks,mem_cons,not_mem_nil,or_false] at hg
    obtain rfl | rfl := hg
    · exact .after fun _ _ => .after fun _ _ => (ha rfl).bind _
    · exact .after fun _ _ => .after fun _ _ => .after fun _ _ => ho.bind _
  | repay =>
    simp only [asks,mem_cons,not_mem_nil,or_false] at hg
    obtain rfl | rfl := hg
    · exact .after fun _ _ => (ha rfl).bind _
    · exact .after fun _ _ => .after fun _ _ => ho.bind _
  | depositCollateral | refinanceLoan => exact (ha (mem_singleton.mp hg)).bind _
  | liquidate | extendLoan => exact .after fun _ _ => (ha (mem_singleton.mp hg)).bind _
  | checkDefault => exact .after fun _ _ => .after fun _ _ => (ha (mem_singleton.mp hg)).bind _
  | checkDefaults =>
    refine .bind ?_ _
    exact .after fun _ _ => .after fun _ _ => (ha (mem_singleton.mp hg)).bind _
  | _ => cases hc

end

/-! ### Other answers of the breakers -/

def Env.answering (env : Env) (q : Address → Address → String → Bool) : Env :=
  { env with isBlocked := q }

section
variable {d : Deployment} {env : Env} {w : World} {q : Address → Address → String → Bool}

lemma LoanManager.requireNotPaused_answering
    (ha : ∀ a contract, q a contract "any" = env.isBlocked a contract "any") :
    requireNotPaused d (env.answering q) w = requireNotPaused d env w := by
  have hc : w.manager.assertCircuitOk d (env.answering q) "any" =
      w.manager.assertCircuitOk d env "any" := by
    simp only [assertCircuitOk,Env.answering,ha]
  simp only [requireNotPaused,hc]
  rfl

lemma World.disburse_answering
    (hd : ∀ a contract, q a contract "disburse" = env.isBlocked a contract "disburse")
    (lendingPool r t amount) : w.disburse d (env.answering q) lendingPool r t amount =
    w.disburse d env lendingPool r t amount := by
  simp only [World.disburse,LendingPool.disburse,LendingPool.assertCircuitOk,Env.calledBy,
    Env.answering,hd]
  rfl

lemma LoanManager.movePrincipal_answering
    (hd : ∀ a contract, q a contract "disburse" = env.isBlocked a contract "disburse")
    (lendingPool t y remainingPrincipal loan) :
    movePrincipal d (env.answering q) lendingPool t y remainingPrincipal loan w =
    movePrincipal d env lendingPool t y remainingPrincipal loan w := by
  simp only [movePrincipal,World.disburse_answering hd]
  rfl

/-- **No effect**: an entry point of the manager that does not ask under its own name does not
depend on what the breakers answer for that name. -/
lemma LoanCall.exec_answering {c : LoanCall} {f} (hc : c.function = some f)
    (hf : f ∉ c.asks) (hq : ∀ a contract g, g ≠ f → q a contract g = env.isBlocked a contract g) :
    c.exec d (env.answering q) w = c.exec d env w := by
  have ha : f ≠ "any" → ∀ a contract, q a contract "any" = env.isBlocked a contract "any" :=
    fun h a contract => hq a contract "any" h.symm
  -- apart from the questions, only the pool's own question in a disbursement reads the answers
  cases c with
  | requestLoan | approveLoan | repay =>
    cases hc
    exact absurd (mem_cons_of_mem _ mem_cons_self) hf
  | depositCollateral =>
    cases hc
    simp only [exec,LoanManager.depositCollateral,
      LoanManager.requireNotPaused_answering (ha (by decide))]
    rfl
  | liquidate =>
    cases hc
    simp only [exec,LoanManager.liquidate,LoanManager.requireNotPaused_answering (ha (by decide))]
    rfl
  | refinanceLoan =>
    cases hc
    have hd : ∀ a contract, q a contract "disburse" = env.isBlocked a contract "disburse" :=
      fun a contract => hq a contract "disburse" (by decide)
    simp only [exec,LoanManager.refinanceLoan,
      LoanManager.requireNotPaused_answering (ha (by decide)),
      LoanManager.movePrincipal_answering hd]
    rfl
  | extendLoan =>
    cases hc
    simp only [exec,LoanManager.extendLoan,LoanManager.requireNotPaused_answering (ha (by decide))]
    rfl
  | checkDefault =>
    cases hc
    simp only [exec,LoanManager.checkDefault,
      LoanManager.requireNotPaused_answering (ha (by decide))]
    rfl
  | checkDefaults =>
    cases hc
    simp only [exec,LoanManager.checkDefaults,
      LoanManager.requireNotPaused_answering (ha (by decide))]
    rfl
  | _ => cases hc

end

namespace ValueCall
variable {d : Deployment} {vault breaker : Address} {b : CircuitBreaker} {env : TimedEnv}
  {s : Contracts} {c : ValueCall} {f : String}

lemma fails {g} (hf : c.function = some f) (hr : c.breaker s = some breaker)
    (hg : g ∈ c.asks) (hb : b.Blocked env.timestamp (c.contract d vault) g) :
    Fails (c.exec d vault (env.asking breaker b) s) := by
  have ha := (env.isBlocked_asking breaker b (c.contract d vault) g).mpr hb
  cases c with
  | pool c =>
    have hn : c.function = some g := mem_toList.mp hg
    exact (PoolCall.fails hn hr ha).bind _
  | vault c =>
    have hn : c.function = some g := mem_toList.mp hg
    exact (VaultCall.fails (w := ⟨s.vault,s.bank⟩) hn hr ha).bind _
  | loan => exact (LoanCall.fails hf hr hg ha).bind _

lemma exec_clearPause (hf : c.function = some f) (hs : f ∉ c.asks) :
    c.exec d vault (env.asking breaker b) s =
    c.exec d vault (env.asking breaker (b.clearPause (c.contract d vault) f)) s := by
  cases c with
  | pool c | vault c => exact absurd (mem_toList.mpr hf) hs
  | loan c =>
    have hm : CircuitBreaker.contractWildcard ≠ f := by
      rintro rfl
      exact c.function_ne_wildcard hf
    have hn : ∀ a con g, g ≠ f → (env.asking breaker b).isBlocked a con g =
          (env.asking breaker (b.clearPause d.manager f)).isBlocked a con g := by
      intro a con g hg
      obtain rfl | ha := eq_or_ne a breaker
      · rw [Bool.eq_iff_iff,env.isBlocked_asking,env.isBlocked_asking,
          CircuitBreaker.blocked_clearPause hg hm]
      · simp only [TimedEnv.asking,if_neg ha]
    have hx := LoanCall.exec_answering (d := d) (w := s.toWorld) hf hs hn
    exact congrArg (fun r : Res World => r >>= fun w => pure { s with toWorld := w }) hx

end ValueCall

def TimedEnv.small (ledger : Nat) : TimedEnv := { Env.small ledger with timestamp := 100 }

def CircuitBreaker.small (function : String) : CircuitBreaker :=
  (initializeBreaker ⟨4⟩ [⟨5⟩,⟨6⟩] 2 86400 empty >>=
    pauseFunction (.small 1) ⟨5⟩ ⟨2⟩ function).toOption.getD empty

def Contracts.small : Contracts where
  toWorld := Genesis.small.after
    (Genesis.pledged ++ [.small 1 (.setting (.setCircuitBreaker (some ⟨9⟩))) nofun])
  vault := .empty

lemma LoanCall.unguarded_returns {f} (hf : f ∈ unguarded) : ∃ (env : TimedEnv) (c : LoanCall),
    (ValueCall.loan c).Paused .small ⟨10⟩ ⟨9⟩ (.small f) env .small f ∧
    ¬ Fails ((ValueCall.loan c).exec .small ⟨10⟩ (env.asking ⟨9⟩ (.small f)) .small) := by
  simp only [unguarded,mem_cons,not_mem_nil,or_false] at hf
  obtain rfl | rfl | rfl | rfl | rfl | rfl := hf
  · exact ⟨.small 1,.depositCollateral 1 500,⟨rfl,by decide +kernel,by decide +kernel⟩,
      by decide +kernel⟩
  · exact ⟨.small 1,.liquidate ⟨5⟩ 1,⟨rfl,by decide +kernel,by decide +kernel⟩,by decide +kernel⟩
  · exact ⟨.small 1,.refinanceLoan 1 4000 100,⟨rfl,by decide +kernel,by decide +kernel⟩,
      by decide +kernel⟩
  · exact ⟨.small 1,.extendLoan ⟨6⟩ 1 100,⟨rfl,by decide +kernel,by decide +kernel⟩,
      by decide +kernel⟩
  · exact ⟨.small 1000000,.checkDefault 1,⟨rfl,by decide +kernel,by decide +kernel⟩,
      by decide +kernel⟩
  · exact ⟨.small 1000000,.checkDefaults [1],⟨rfl,by decide +kernel,by decide +kernel⟩,
      by decide +kernel⟩

/-- **Breaker consistency**: a pause of an entry point stops every call to it, in every state and at
every time, exactly when the entry point is not one of the six of the manager that ask under the
name `any` only. -/
theorem breaker_consistency (p : Party) (f : String) :
    ((∀ (d : Deployment) (vault breaker : Address) (b : CircuitBreaker) (env : TimedEnv)
      (s : Contracts) (c : ValueCall), c.party = p → c.Paused d vault breaker b env s f →
      c.Refused d vault (env.asking breaker b) s) ↔ (p = .manager → f ∉ LoanCall.unguarded)) ∧
    ∀ (d : Deployment) (vault breaker : Address) (b : CircuitBreaker) (env : TimedEnv)
      (s : Contracts) (c : ValueCall), c.party = p → c.Paused d vault breaker b env s f →
      ((∃ g ∈ c.asks, b.Blocked env.timestamp (c.contract d vault) g) →
      c.Refused d vault (env.asking breaker b) s) ∧
      ((∀ g ∈ c.asks, ¬ b.Blocked env.timestamp (c.contract d vault) g) →
      c.exec d vault (env.asking breaker b) s =
      c.exec d vault (env.asking breaker (b.clearPause (c.contract d vault) f)) s) := by
  refine ⟨⟨fun hr hp hf => ?_,fun hu d vault breaker b env s c hp hs => ?_⟩,
    fun d vault breaker b env s c _ hs => ⟨?_,fun hn => ?_⟩⟩
  · -- every one of the six returns somewhere
    obtain ⟨env,c,hs,he⟩ := LoanCall.unguarded_returns hf
    exact he (hr .small ⟨10⟩ ⟨9⟩ (.small f) env .small (.loan c) hp.symm hs).1
  · have ha : f ∈ c.asks := by
      cases c with
      | pool c | vault c => exact mem_toList.mpr hs.function
      | loan => exact (LoanCall.mem_asks_iff hs.function).mpr (hu hp.symm)
    exact ValueCall.refused_of_fails (ValueCall.fails hs.function hs.configured ha
      ((CircuitBreaker.isBlocked_iff ..).mp hs.blocked))
  · rintro ⟨g,hg,hb⟩
    exact ValueCall.refused_of_fails (ValueCall.fails hs.function hs.configured hg hb)
  · exact ValueCall.exec_clearPause hs.function fun hm =>
      hn f hm ((CircuitBreaker.isBlocked_iff ..).mp hs.blocked)

/-- The borrower pledges more collateral although `deposit_collateral` of the manager is paused. -/
theorem breaker_consistency_deposit_collateral :
    let b := CircuitBreaker.small "deposit_collateral"
    let c : ValueCall := .loan (.depositCollateral 1 500)
    let env := TimedEnv.small 1
    c.Paused .small ⟨10⟩ ⟨9⟩ b env .small "deposit_collateral" ∧
      ¬ c.Refused .small ⟨10⟩ (env.asking ⟨9⟩ b) .small ∧
      Contracts.small.bank.balance ⟨3⟩ ⟨2⟩ = 6000 ∧
      ((contracts .small ⟨10⟩).apply .small (env.asking ⟨9⟩ b, c)).bank.balance ⟨3⟩ ⟨2⟩ = 6500 := by
  refine ⟨⟨rfl,by decide +kernel,by decide +kernel⟩,fun hr => ?_,by decide +kernel,
    by decide +kernel⟩
  exact absurd hr.1 (by decide +kernel)

end DukaPay
