import DukaPay.Contractlib.Transaction
import DukaPay.LoanManager.Settings

/-! A pool and its loan manager, run together. -/
namespace DukaPay
open Contractlib

inductive LoanCall
  | requestLoan (borrower : Address) (amount : Int) (term : Nat)
  | approveLoan (loanId : Nat)
  | repay (borrower : Address) (loanId : Nat) (amount : Int)
  | depositCollateral (loanId : Nat) (amount : Int)
  | releaseCollateral (loanId : Nat)
  | liquidate (liquidator : Address) (loanId : Nat)
  | cancelLoan (borrower : Address) (loanId : Nat)
  | rejectLoan (loanId : Nat) (reason : String)
  | purgeLoan (loanId : Nat)
  | refinanceLoan (loanId : Nat) (newAmount : Int) (newTerm : Nat)
  | extendLoan (borrower : Address) (loanId extraLedgers : Nat)
  | checkDefault (loanId : Nat)
  | checkDefaults (loanIds : List Nat)

def LoanCall.exec (d : Deployment) (env : Env) (w : World) : LoanCall → Res World
  | .requestLoan borrower amount term => do
    return (← LoanManager.requestLoan d env borrower amount term w).1
  | .approveLoan loanId => LoanManager.approveLoan d env loanId w
  | .repay borrower loanId amount => LoanManager.repay d env borrower loanId amount w
  | .depositCollateral loanId amount => LoanManager.depositCollateral d env loanId amount w
  | .releaseCollateral loanId => LoanManager.releaseCollateral d env loanId w
  | .liquidate liquidator loanId => LoanManager.liquidate d env liquidator loanId w
  | .cancelLoan borrower loanId => LoanManager.cancelLoan d env borrower loanId w
  | .rejectLoan loanId reason => LoanManager.rejectLoan d env loanId reason w
  | .purgeLoan loanId => LoanManager.purgeLoan d env loanId w
  | .refinanceLoan loanId newAmount newTerm =>
    LoanManager.refinanceLoan d env loanId newAmount newTerm w
  | .extendLoan borrower loanId extraLedgers =>
    LoanManager.extendLoan d env borrower loanId extraLedgers w
  | .checkDefault loanId => LoanManager.checkDefault d env loanId w
  | .checkDefaults loanIds => do return (← LoanManager.checkDefaults d env loanIds w).1

inductive Call
  | pool (c : PoolCall)
  | loan (c : LoanCall)
  | setting (c : SettingCall)

def Call.exec (d : Deployment) (env : Env) (w : World) : Call → Res World
  | .pool c => do return { w with toPoolWorld := ← c.exec d.pool env w.toPoolWorld }
  | .loan c => c.exec d env w
  | .setting c => do return { w with manager := ← c.exec d env w.manager }

structure Env.External (d : Deployment) (env : Env) : Prop where
  invoker_pool : env.invoker ≠ some d.pool
  invoker_manager : env.invoker ≠ some d.manager
  signed_pool : env.signed d.pool = false
  signed_manager : env.signed d.manager = false

structure Invocation (d : Deployment) where
  env : Env
  call : Call
  external : env.External d
  loyal : ∀ loanManager, call = .pool (.setLoanManager loanManager) → loanManager = d.manager

structure Genesis (d : Deployment) where
  world : World
  pool : ∃ admin env p, LendingPool.initializePool admin LendingPool.empty = .ok p ∧
    LendingPool.setLoanManager env d.manager p = .ok world.pool
  manager : ∃ env nftContract admin governanceContract,
    LoanManager.initializeManager d env nftContract d.pool d.token admin governanceContract
      LoanManager.empty = .ok world.manager
  balance_pool : ∀ token, world.bank.balance token d.pool = 0
  balance_manager : ∀ token, world.bank.balance token d.manager = 0
  log : world.bank.log = []

def protocol (d : Deployment) : Transactional World (Invocation d) Fault where
  exec := fun i w => i.call.exec d i.env w

def Genesis.after {d : Deployment} (g : Genesis d) (is : List (Invocation d)) : World :=
  (protocol d).run g.world is

end DukaPay
