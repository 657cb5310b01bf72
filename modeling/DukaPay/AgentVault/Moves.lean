import DukaPay.AgentVault.Defs

/-! Every entry point of the vault that returns has made a list of moves, each on the position of
one agent: a transfer of float is two, a batch is one per entry. -/
namespace DukaPay
open Contractlib List

inductive Move
  | collateral (agent : Address) (delta : Int)
  | float (agent : Address) (delta : Int)
  | haircut (agent : Address) (bps : Nat)

namespace Move

def agent : Move → Address
  | .collateral agent _ => agent
  | .float agent _ => agent
  | .haircut agent _ => agent

def collateralDelta : Move → Int
  | .collateral _ delta => delta
  | _ => 0

def floatDelta : Move → Int
  | .float _ delta => delta
  | _ => 0

inductive Makes (params : Option VaultParams) : Move → Vault → Vault → Prop
  | deposit {v v' : Vault} {agent : Address} {amount : Int} (hamount : 0 < amount)
    (hcollateral : v'.collateral = v.collateral + amount) (hfloat : v'.float = v.float)
    (hhaircut : v'.haircutBps = v.haircutBps ∨
      v.haircutBps = 0 ∧ ∃ p, params = some p ∧ v'.haircutBps = p.maxHaircutBps) :
    Makes params (.collateral agent amount) v v'
  | withdraw {v v' : Vault} {agent : Address} {amount : Int} (hamount : 0 < amount)
    (hcollateral : v'.collateral = v.collateral - amount) (hfloat : v'.float = v.float)
    (hhaircut : v'.haircutBps = v.haircutBps) (hcovered : 0 ≤ v'.collateral)
    (hfloor : 0 < v.float → ∀ p, params = some p → p.minCollateral ≤ v'.collateral)
    (hsolvent : 0 < v.float → v.float ≤ AgentVault.maxFloatOf v'.collateral v'.haircutBps) :
    Makes params (.collateral agent (-amount)) v v'
  | credit {v v' : Vault} {agent : Address} {delta : Int} (hdelta : 0 ≤ delta)
    (hcollateral : v'.collateral = v.collateral) (hfloat : v'.float = v.float + delta)
    (hhaircut : v'.haircutBps = v.haircutBps)
    (hsolvent : v'.float ≤ AgentVault.maxFloatOf v'.collateral v'.haircutBps) :
    Makes params (.float agent delta) v v'
  | debit {v v' : Vault} {agent : Address} {delta : Int} (hdelta : delta < 0)
    (hcollateral : v'.collateral = v.collateral) (hfloat : v'.float = v.float + delta)
    (hhaircut : v'.haircutBps = v.haircutBps) (hcovered : 0 ≤ v'.float) :
    Makes params (.float agent delta) v v'
  | haircut {v v' : Vault} {agent : Address} {bps : Nat}
    (hcollateral : v'.collateral = v.collateral) (hfloat : v'.float = v.float)
    (hhaircut : v'.haircutBps = bps)
    (hbounded : ∃ p, params = some p ∧ bps ≤ p.maxHaircutBps)
    (hsolvent : v.float ≤ AgentVault.maxFloatOf v'.collateral bps) :
    Makes params (.haircut agent bps) v v'

variable {params : Option VaultParams} {m : Move} {v v' : Vault}

lemma Makes.collateral (h : m.Makes params v v') :
    v'.collateral = v.collateral + m.collateralDelta := by
  cases h with
  | deposit _ hc => exact hc
  | withdraw _ hc => exact hc
  | credit _ hc => exact hc.trans (add_zero _).symm
  | debit _ hc => exact hc.trans (add_zero _).symm
  | haircut hc => exact hc.trans (add_zero _).symm

lemma Makes.float (h : m.Makes params v v') : v'.float = v.float + m.floatDelta := by
  cases h with
  | deposit _ _ hf => exact hf.trans (add_zero _).symm
  | withdraw _ _ hf => exact hf.trans (add_zero _).symm
  | credit _ _ hf => exact hf
  | debit _ _ hf => exact hf
  | haircut _ hf => exact hf.trans (add_zero _).symm

end Move

def positionOf (vaults : Storage Address Vault) (agent : Address) : Vault :=
  (vaults.lookup agent).getD AgentVault.noVault

@[simp] lemma positionOf_insert_self (vaults : Storage Address Vault) (agent)
    (v) : positionOf (vaults.insert agent v) agent = v := by
  simp [positionOf]

variable {vaults : Storage Address Vault}

lemma positionOf_insert_ne {agent other} (h : other ≠ agent) (v) :
    positionOf (vaults.insert agent v) other = positionOf vaults other := by
  simp [positionOf,AList.lookup_insert_ne h]

lemma forall_positionOf_insert {P : Address → Vault → Prop} {agent v}
    (h : ∀ a, P a (positionOf vaults a)) (hv : P agent v) (other) :
    P other (positionOf (vaults.insert agent v) other) := by
  obtain rfl | ho := eq_or_ne other agent
  · rwa [positionOf_insert_self]
  · rw [positionOf_insert_ne ho]
    exact h other

inductive Made (params : Option VaultParams) :
    List Move → Storage Address Vault → Storage Address Vault → Prop
  | nil (vaults : Storage Address Vault) : Made params [] vaults vaults
  | cons {m : Move} {ms : List Move} {vaults vaults' : Storage Address Vault} {v : Vault}
    (hmove : m.Makes params (positionOf vaults m.agent) v)
    (hrest : Made params ms (vaults.insert m.agent v) vaults') :
    Made params (m :: ms) vaults vaults'

lemma Made.single {params} {m : Move} {v} (h : m.Makes params (positionOf vaults m.agent) v) :
    Made params [m] vaults (vaults.insert m.agent v) :=
  .cons h (.nil _)

def VaultCall.moves : VaultCall → List Move
  | .depositCollateral agent amount => [.collateral agent amount]
  | .withdrawCollateral agent amount => [.collateral agent (-amount)]
  | .mintFloat agent amount => [.float agent amount]
  | .burnFloat agent amount => [.float agent (-amount)]
  | .transferFloat «from» «to» amount => [.float «from» (-amount),.float «to» amount]
  | .transferToAgent «from» «to» amount => [.float «from» (-amount),.float «to» amount]
  | .settleNet entries => entries.map fun entry => .float entry.1 entry.2
  | .setHaircut agent newHaircutBps => [.haircut agent newHaircutBps]
  | _ => []

namespace AgentVault
variable {self : Address} {env : TimedEnv} {s s' : AgentVault} {w w' : VaultWorld}
variable {amount : Int} {agent «from» : Address} {entries : List (Address × Int)} {timestamp : Nat}

lemma debit_eq_ok {bal remaining e} : debit bal amount e = .ok remaining ↔
    i128.Fits (bal - amount) ∧ 0 ≤ bal - amount ∧ bal - amount = remaining := by
  simp only [debit,orFail_eq_ok,Option.filter_eq_some_iff,IntType.checkedSub_eq_some,
    decide_eq_true_eq]
  constructor
  · rintro ⟨⟨hf,rfl⟩,hc⟩
    exact ⟨hf,hc,rfl⟩
  · rintro ⟨hf,hc,rfl⟩
    exact ⟨⟨hf,rfl⟩,hc⟩

lemma haircut_of_deposit {v haircutBps} (h : s.haircutAtDeposit v = .ok haircutBps) : haircutBps =
    v.haircutBps ∨ v.haircutBps = 0 ∧ ∃ p, s.params = some p ∧ haircutBps = p.maxHaircutBps := by
  unfold haircutAtDeposit at h
  split at h
  · next hz =>
    simp only [readParams,eq_ok] at h
    obtain ⟨p,hp,rfl⟩ := h
    exact .inr ⟨hz,p,hp,rfl⟩
  · exact .inl (pure_eq_ok.mp h).symm

lemma eq_of_acquireLock (h : s.acquireLock = .ok s') : s' = { s with reentrancyLock := true } := by
  simp only [acquireLock,eq_ok] at h
  exact h.2.symm

structure SameConfig (s s' : AgentVault) : Prop where
  owner : s'.owner = s.owner
  token : s'.token = s.token
  params : s'.params = s.params

lemma made_of_depositCollateral (h : depositCollateral self env agent amount w = .ok w') :
    Made w.vault.params [.collateral agent amount] w.vault.vaults w'.vault.vaults ∧
    SameConfig w.vault w'.vault ∧ env.Authorized agent ∧ ∃ tok, w.vault.token = some tok ∧
    Bank.Moved ⟨tok,agent,self,amount,some self⟩ w.bank w'.bank := by
  simp only [depositCollateral,eq_ok,readToken] at h
  obtain ⟨ha,-,_,hs,ham,tok,ht,_,hh,_,⟨-,rfl⟩,_,hb,rfl⟩ := h
  cases eq_of_acquireLock hs
  exact ⟨.single (.deposit ham rfl rfl (haircut_of_deposit hh)),⟨rfl,rfl,rfl⟩,ha,
    tok,ht,Bank.moved_of_transfer hb⟩

lemma made_of_withdrawCollateral (h : withdrawCollateral self env agent amount w = .ok w') :
    Made w.vault.params [.collateral agent (-amount)] w.vault.vaults w'.vault.vaults ∧
    SameConfig w.vault w'.vault ∧ env.Authorized agent ∧ ∃ tok, w.vault.token = some tok ∧
    Bank.Moved ⟨tok,self,agent,amount,some self⟩ w.bank w'.bank := by
  simp only [withdrawCollateral,eq_ok,readToken,readParams,debit_eq_ok] at h
  obtain ⟨ha,-,_,hs,ham,tok,ht,_,hpa,_,⟨-,hc,rfl⟩,hfl,hso,_,hb,rfl⟩ := h
  cases eq_of_acquireLock hs
  refine ⟨.single (.withdraw ham rfl rfl rfl hc (fun hf p hp => ?_) hso),
    ⟨rfl,rfl,rfl⟩,ha,tok,ht,Bank.moved_of_transfer hb⟩
  cases hpa.symm.trans hp
  exact hfl hf

lemma made_of_mintFloat (h : mintFloat self env agent amount s = .ok s') :
    Made s.params [.float agent amount] s.vaults s'.vaults ∧ SameConfig s s' := by
  simp only [mintFloat,eq_ok] at h
  obtain ⟨-,-,ha,_,⟨-,rfl⟩,hs,rfl⟩ := h
  exact ⟨.single (.credit ha.le rfl rfl rfl hs),⟨rfl,rfl,rfl⟩⟩

lemma made_of_burnFloat (h : burnFloat self env agent amount s = .ok s') :
    Made s.params [.float agent (-amount)] s.vaults s'.vaults ∧ SameConfig s s' := by
  simp only [burnFloat,eq_ok,debit_eq_ok] at h
  obtain ⟨-,-,_,_,⟨-,hc,rfl⟩,rfl⟩ := h
  exact ⟨.single (.debit (by omega) rfl rfl rfl hc),⟨rfl,rfl,rfl⟩⟩

lemma amount_pos_of_burnFloat (h : burnFloat self env agent amount s = .ok s') : 0 < amount := by
  simp only [burnFloat,eq_ok] at h
  exact h.2.2.1

lemma amount_pos_of_transferFloat {«to»}
    (h : transferFloat self env «from» «to» amount s = .ok s') : 0 < amount := by
  simp only [transferFloat,eq_ok] at h
  exact h.2.2.2.2.1

lemma made_of_transferFloat {«to»} (h : transferFloat self env «from» «to» amount s = .ok s') :
    Made s.params [.float «from» (-amount),.float «to» amount] s.vaults s'.vaults ∧
    SameConfig s s' := by
  simp only [transferFloat,eq_ok,debit_eq_ok] at h
  obtain ⟨hn,-,-,-,ha,_,⟨-,hco,rfl⟩,_,⟨-,rfl⟩,hs,rfl⟩ := h
  have hd : (Move.float «from» (-amount)).Makes s.params (s.readVault «from»)
      { s.readVault «from» with float := (s.readVault «from»).float - amount } :=
    .debit (by omega) rfl rfl rfl hco
  have hc : (Move.float «to» amount).Makes s.params (positionOf (s.vaults.insert «from»
        { s.readVault «from» with float := (s.readVault «from»).float - amount }) «to»)
      { s.readVault «to» with float := (s.readVault «to»).float + amount } := by
    -- the recipient is another agent, so the debit did not touch the position that was read
    rw [positionOf_insert_ne (Ne.symm hn)]
    exact .credit ha.le rfl rfl rfl hs
  exact ⟨.cons hd (.single hc),⟨rfl,rfl,rfl⟩⟩

lemma sum_of_netOf {sum} (h : netOf entries = .ok sum) : (entries.map Prod.snd).sum = sum := by
  have hf : ∀ (l : List (Address × Int)) (start : Int),
      l.foldlM (fun sum ent => orFail (i128.checkedAdd sum ent.2) (.vault .NetNotZero)) start =
        (.ok sum : Res Int) → start + (l.map Prod.snd).sum = sum := by
    intro l
    induction l with
    | nil =>
      intro start hl
      simpa using pure_eq_ok.mp hl
    | cons ent l ih =>
      intro start hl
      simp only [foldlM_cons,eq_ok] at hl
      obtain ⟨_,⟨-,rfl⟩,hl⟩ := hl
      rw [map_cons,sum_cons,← add_assoc]
      exact ih _ hl
  simpa using hf entries 0 h

lemma made_of_settleEntry {ent} (h : settleEntry timestamp s ent = .ok s') :
    (∃ v, (Move.float ent.1 ent.2).Makes s.params (positionOf s.vaults ent.1) v ∧
    s'.vaults = s.vaults.insert ent.1 v) ∧ SameConfig s s' := by
  simp only [settleEntry,eq_ok] at h
  obtain ⟨_,⟨-,rfl⟩,hc,hs,rfl⟩ := h
  refine ⟨⟨_,?_,rfl⟩,⟨rfl,rfl,rfl⟩⟩
  by_cases hd : 0 ≤ ent.2
  · exact .credit hd rfl rfl rfl hs
  · exact .debit (by omega) rfl rfl rfl hc

lemma made_of_settleEntries (h : entries.foldlM (settleEntry timestamp) s = .ok s') :
    Made s.params (entries.map fun ent => .float ent.1 ent.2) s.vaults s'.vaults ∧
    SameConfig s s' := by
  induction entries generalizing s with
  | nil =>
    cases h
    exact ⟨.nil _,⟨rfl,rfl,rfl⟩⟩
  | cons ent entries ih =>
    simp only [foldlM_cons,bind_eq_ok] at h
    obtain ⟨_,h1,h⟩ := h
    obtain ⟨⟨_,hm,hv⟩,hs⟩ := made_of_settleEntry h1
    obtain ⟨hr,hs'⟩ := ih h
    rw [hs.params,hv] at hr
    exact ⟨.cons hm hr,⟨hs'.owner.trans hs.owner,hs'.token.trans hs.token,
      hs'.params.trans hs.params⟩⟩

lemma made_of_settleNet (h : settleNet self env entries s = .ok s') : (entries.map Prod.snd).sum =
    0 ∧ Made s.params (entries.map fun ent => .float ent.1 ent.2) s.vaults s'.vaults ∧
    SameConfig s s' := by
  simp only [settleNet,eq_ok] at h
  obtain ⟨-,-,-,_,hs,hz,h⟩ := h
  exact ⟨(sum_of_netOf hs).trans hz,made_of_settleEntries h⟩

lemma made_of_setHaircut {newHaircutBps} (h : setHaircut env agent newHaircutBps s = .ok s')
    : Made s.params [.haircut agent newHaircutBps] s.vaults s'.vaults ∧ SameConfig s s' := by
  simp only [setHaircut,eq_ok,readParams] at h
  obtain ⟨-,params,hp,_,hs,rfl⟩ := h
  exact ⟨.single (.haircut rfl rfl rfl ⟨params,hp,by omega⟩ hs),⟨rfl,rfl,rfl⟩⟩

end AgentVault

/-- What a call does to the configuration: `init` sets it once, every other call keeps it. -/
inductive VaultCall.Configures (s s' : AgentVault) : VaultCall → Prop
  | init {owner operator token : Address} {maxHaircutBps : Nat} {minCollateral : Int}
    (hfirst : s.owner = none) (hhaircut : maxHaircutBps ≤ 10000) (hfloor : 0 ≤ minCollateral)
    (hvaults : s'.vaults = s.vaults) (howner : s'.owner = some owner)
    (htoken : s'.token = some token) (hparams : s'.params = some ⟨maxHaircutBps,minCollateral⟩) :
    Configures s s' (.init owner operator token maxHaircutBps minCollateral)
  | same {c : VaultCall} (hsame : AgentVault.SameConfig s s') : Configures s s' c

namespace VaultCall
variable {self : Address} {env : TimedEnv} {w w' : VaultWorld} {c : VaultCall}

/-- **The calls make moves**: a call that returns has made its moves, and only `init` has changed
the configuration. -/
lemma makes (h : c.exec self env w = .ok w') :
    Made w.vault.params c.moves w.vault.vaults w'.vault.vaults ∧ Configures w.vault w'.vault c := by
  cases c with
  | init =>
    simp only [exec,AgentVault.init,eq_ok] at h
    obtain ⟨s,⟨hf,_,hfl,rfl⟩,rfl⟩ := h
    exact ⟨.nil _,.init hf (by omega) hfl rfl rfl rfl rfl⟩
  | depositCollateral =>
    obtain ⟨hm,hsa,-⟩ := AgentVault.made_of_depositCollateral h
    exact ⟨hm,.same hsa⟩
  | withdrawCollateral =>
    obtain ⟨hm,hsa,-⟩ := AgentVault.made_of_withdrawCollateral h
    exact ⟨hm,.same hsa⟩
  | mintFloat =>
    simp only [exec,eq_ok] at h
    obtain ⟨s,hs,rfl⟩ := h
    obtain ⟨hm,hsa⟩ := AgentVault.made_of_mintFloat hs
    exact ⟨hm,.same hsa⟩
  | burnFloat =>
    simp only [exec,eq_ok] at h
    obtain ⟨s,hs,rfl⟩ := h
    obtain ⟨hm,hsa⟩ := AgentVault.made_of_burnFloat hs
    exact ⟨hm,.same hsa⟩
  | transferFloat «from» «to» amount | transferToAgent «from» «to» amount =>
    simp only [exec,AgentVault.transferToAgent,eq_ok] at h
    obtain ⟨s,hs,rfl⟩ := h
    obtain ⟨hm,hsa⟩ := AgentVault.made_of_transferFloat hs
    exact ⟨hm,.same hsa⟩
  | settleNet =>
    simp only [exec,eq_ok] at h
    obtain ⟨s,hs,rfl⟩ := h
    obtain ⟨-,hm,hsa⟩ := AgentVault.made_of_settleNet hs
    exact ⟨hm,.same hsa⟩
  | setHaircut =>
    simp only [exec,eq_ok] at h
    obtain ⟨s,hs,rfl⟩ := h
    obtain ⟨hm,hsa⟩ := AgentVault.made_of_setHaircut hs
    exact ⟨hm,.same hsa⟩
  | checkInvariant =>
    cases h
    exact ⟨.nil _,.same ⟨rfl,rfl,rfl⟩⟩
  | transfer =>
    simp only [exec,eq_ok] at h
    obtain ⟨_,-,rfl⟩ := h
    exact ⟨.nil _,.same ⟨rfl,rfl,rfl⟩⟩

end VaultCall

end DukaPay
