import DukaPay.AgentVault.Solvency

/-! Float is created by minting and destroyed by burning only: transfers and batches move it between
agents, whatever the batch lists. -/
namespace DukaPay
open Contractlib List Transactional AgentVault

namespace VaultCall

def minted : VaultCall → Int
  | .mintFloat _ amount => amount
  | _ => 0

def burned : VaultCall → Int
  | .burnFloat _ amount => amount
  | _ => 0

inductive Redistributes : VaultCall → Prop
  | transferFloat («from» «to» : Address) (amount : Int) :
    Redistributes (.transferFloat «from» «to» amount)
  | transferToAgent («from» «to» : Address) (amount : Int) :
    Redistributes (.transferToAgent «from» «to» amount)
  | settleNet (entries : List (Address × Int)) : Redistributes (.settleNet entries)

variable {self : Address} {env : TimedEnv} {w w' : VaultWorld} {c : VaultCall}

lemma sum_floatDelta (h : c.exec self env w = .ok w') :
    (c.moves.map Move.floatDelta).sum = c.minted - c.burned := by
  cases c with
  | settleNet =>
    simp only [exec,eq_ok] at h
    obtain ⟨_,hs,rfl⟩ := h
    obtain ⟨hz,-⟩ := made_of_settleNet hs
    simpa [moves,map_map,Function.comp_def,Move.floatDelta,minted,burned] using hz
  | mintFloat | burnFloat | transferFloat | transferToAgent =>
    simp [moves,Move.floatDelta,minted,burned]
  | _ => rfl

lemma totalFloat_eq (h : c.exec self env w = .ok w') :
    w'.vault.totalFloat = w.vault.totalFloat + (c.minted - c.burned) := by
  obtain ⟨hm,-⟩ := makes h
  rw [← sum_floatDelta h]
  exact hm.total_eq rfl Move.Makes.float

end VaultCall

/-- **Conservation of float**: after every run, the float of all agents is the sum of the mints that
returned less the sum of the burns that returned. -/
theorem float_conservation (self : Address) (bank : Bank) (cs : List (VaultInvocation self)) :
    let w := (vaultSystem self).run (.deployed bank) cs
    w.vault.totalFloat =
        (vaultSystem self).tally (fun _ i => i.call.minted) (.deployed bank) cs -
          (vaultSystem self).tally (fun _ i => i.call.burned) (.deployed bank) cs ∧
      (∀ (i : VaultInvocation self) (w' : VaultWorld), i.call.exec self i.env w = .ok w' →
        i.call.Redistributes → w'.vault.totalFloat = w.vault.totalFloat) ∧
      ∀ (i : VaultInvocation self) (e : Fault), i.call.exec self i.env w = .error e →
        (vaultSystem self).apply w i = w := by
  intro w
  refine ⟨?_,fun i w' h hm => ?_,fun i e h => apply_of_error h⟩
  · rw [← tally_sub]
    have hr : w.vault.totalFloat = (VaultWorld.deployed bank).vault.totalFloat +
        (vaultSystem self).tally (fun _ i => i.call.minted - i.call.burned) (.deployed bank) cs :=
      run_eq_add_tally (P := fun _ _ => True) (I := fun _ => True)
        (v := fun w : VaultWorld => w.vault.totalFloat)
        (fun w i w' _ _ he => ⟨trivial,VaultCall.totalFloat_eq he⟩) trivial
        (always_of_forall fun _ _ _ => trivial)
    exact hr.trans (zero_add _)
  · have hs := VaultCall.totalFloat_eq h
    cases hc : i.call with
    | transferFloat | transferToAgent | settleNet =>
      rw [hc] at hs
      simpa [VaultCall.minted,VaultCall.burned] using hs
    | _ =>
      rw [hc] at hm
      nomatch hm

namespace VaultCall

def credited : VaultCall → List Address
  | .mintFloat agent _ => [agent]
  | .transferFloat _ «to» _ => [«to»]
  | .transferToAgent _ «to» _ => [«to»]
  | .settleNet entries => (entries.filter fun entry => 0 < entry.2).map Prod.fst
  | _ => []

def CreditsCapitalised (s : AgentVault) (c : VaultCall) : Prop :=
  match s.params with
  | none => True
  | some params => ∀ agent ∈ c.credited, params.minCollateral ≤ (s.readVault agent).collateral

instance (s : AgentVault) (c : VaultCall) : Decidable (c.CreditsCapitalised s) := by
  unfold CreditsCapitalised
  split
  · exact isTrue trivial
  · exact List.decidableBAll _ _

end VaultCall

def AgentVault.Capitalised (s : AgentVault) : Prop :=
  ∀ agent params, s.params = some params → 0 < (s.readVault agent).float →
    params.minCollateral ≤ (s.readVault agent).collateral

lemma maxFloatOf_zero (coll) : maxFloatOf coll 0 = 0 := by
  rw [maxFloatOf_eq,Nat.cast_zero,min_eq_left (by decide),mul_zero]
  rfl

def Vault.Bare (v : Vault) : Prop := v.haircutBps = 0 ∧ v.float ≤ 0

lemma Move.Makes.bare {m : Move} {v v'} (h : m.Makes none v v') (hv : v.Bare) : v'.Bare := by
  obtain ⟨hz,hn⟩ := hv
  cases h with
  | deposit hamt hcl hf hh =>
    obtain hs | ⟨-,p,hp,-⟩ := hh
    · exact ⟨hs.trans hz,hf.trans_le hn⟩
    · cases hp
  | withdraw _ _ hf hh => exact ⟨hh.trans hz,hf.trans_le hn⟩
  | credit _ _ _ hh hso =>
    have hb := hh.trans hz
    refine ⟨hb,?_⟩
    rwa [hb,maxFloatOf_zero] at hso
  | debit hdel _ hf hh => exact ⟨hh.trans hz,by omega⟩
  | haircut _ _ _ hbd =>
    obtain ⟨p,hp,-⟩ := hbd
    cases hp

def Vault.Capitalised (params : VaultParams) (v : Vault) : Prop :=
  0 < v.float → params.minCollateral ≤ v.collateral

lemma Move.Makes.capitalised {params} {m : Move} {v v'}
    (h : m.Makes (some params) v v') (hv : v.Capitalised params)
    (hc : 0 < m.floatDelta → params.minCollateral ≤ v.collateral) : v'.Capitalised params := by
  intro hp
  cases h with
  | deposit =>
    have := hv (by omega)
    omega
  | withdraw _ _ hflt _ _ hf => exact hf (by omega) params rfl
  | credit hd hcl =>
    rw [hcl]
    obtain hz | hrais := hd.eq_or_lt
    · exact hv (by omega)
    · exact hc hrais
  | debit hd hcl =>
    rw [hcl]
    exact hv (by omega)
  | haircut hcl =>
    rw [hcl]
    exact hv (by omega)

lemma Made.forall_position {params} {P : Vault → Prop}
    (ht : ∀ {m : Move} {v v' : Vault}, m.Makes params v v' → P v → P v') {ms vaults vaults'}
    (h : Made params ms vaults vaults')
    (hs : ∀ a, P (positionOf vaults a)) (a) : P (positionOf vaults' a) := by
  induction h with
  | nil => exact hs a
  | cons hm _ ih => exact ih (forall_positionOf_insert (P := fun _ => P) hs (ht hm (hs _)))

namespace VaultCall
variable {self : Address} {env : TimedEnv} {w w' : VaultWorld} {c : VaultCall}

lemma mem_credited {m} (h : c.exec self env w = .ok w') (hm : m ∈ c.moves)
    (hr : 0 < m.floatDelta) : m.agent ∈ c.credited := by
  cases c with
  | depositCollateral | withdrawCollateral | setHaircut =>
    cases mem_singleton.mp hm
    exact absurd hr (lt_irrefl 0)
  | mintFloat =>
    cases mem_singleton.mp hm
    exact mem_cons_self
  | burnFloat =>
    cases mem_singleton.mp hm
    simp only [exec,eq_ok] at h
    obtain ⟨s,hs,rfl⟩ := h
    have ha := amount_pos_of_burnFloat hs
    exact absurd hr (by simp only [Move.floatDelta]; omega)
  | transferFloat «from» «to» amt | transferToAgent «from» «to» amt =>
    simp only [exec,transferToAgent,eq_ok] at h
    obtain ⟨s,hs,rfl⟩ := h
    have ha := amount_pos_of_transferFloat hs
    simp only [moves,mem_cons,not_mem_nil,or_false] at hm
    obtain rfl | rfl := hm
    · exact absurd hr (by simp only [Move.floatDelta]; omega)
    · exact mem_cons_self
  | settleNet =>
    obtain ⟨_,he,rfl⟩ := mem_map.mp hm
    exact mem_map_of_mem (mem_filter.mpr ⟨he,decide_eq_true hr⟩)
  | _ => cases hm

variable {s : AgentVault} {params : VaultParams} {vaults : Storage Address Vault}

lemma capitalised_moves (hs : ∀ ag, (positionOf s.vaults ag).Capitalised params)
    (hr : ∀ m ∈ c.moves, 0 < m.floatDelta →
    params.minCollateral ≤ (positionOf s.vaults m.agent).collateral)
    (h : Made (some params) c.moves s.vaults vaults) (ag) :
    (positionOf vaults ag).Capitalised params := by
  obtain ⟨m,hm⟩ | hflt := c.moves_cases
  · rw [hm] at h hr
    obtain ⟨v,hv,rfl⟩ := h.eq_insert
    exact forall_positionOf_insert (P := fun _ => Vault.Capitalised params) hs
      (hv.capitalised (hs _) (hr m mem_cons_self)) ag
  -- a batch leaves the collateral alone, so its agents stay as capitalised as they were
  refine (h.float_induction (P := fun ag dl => 0 < dl →
      params.minCollateral ≤ (positionOf s.vaults ag).collateral)
    (I := fun vaults => ∀ ag, (positionOf vaults ag).Capitalised params ∧
      (positionOf vaults ag).collateral = (positionOf s.vaults ag).collateral)
    (fun m hm => ?_) ?_ fun ag => ⟨hs ag,rfl⟩) ag |>.1
  · obtain ⟨ag,dl,rfl⟩ := hflt m hm
    exact ⟨ag,dl,rfl,hr _ hm⟩
  · intro vaults ag dl v hI hrs hv
    apply forall_positionOf_insert (P := fun ag v => Vault.Capitalised params v ∧
      v.collateral = (positionOf s.vaults ag).collateral) hI
    obtain ⟨hc,he⟩ := hI ag
    refine ⟨hv.capitalised hc fun hp => ?_,?_⟩
    · rw [he]
      exact hrs hp
    · rw [hv.collateral,he]
      exact add_zero _

end VaultCall

structure VaultWorld.Floored (w : VaultWorld) : Prop where
  fresh : w.vault.owner = none → w.vault.params = none
  bare : w.vault.params = none → ∀ agent, (positionOf w.vault.vaults agent).Bare
  capitalised : ∀ params, w.vault.params = some params →
    ∀ agent, (positionOf w.vault.vaults agent).Capitalised params

lemma VaultWorld.floored_deployed (bank) : (VaultWorld.deployed bank).Floored where
  fresh := fun _ => rfl
  bare := fun _ _ => ⟨rfl,le_refl 0⟩
  capitalised := nofun

lemma VaultWorld.Floored.step {self env} {c : VaultCall} {w w' : VaultWorld} (hw : w.Floored)
    (hr : c.CreditsCapitalised w.vault) (h : c.exec self env w = .ok w') : w'.Floored := by
  obtain ⟨hd,hc⟩ := VaultCall.makes h
  have hb : w.vault.params = none → ∀ ag, (positionOf w'.vault.vaults ag).Bare := by
    intro hn
    rw [hn] at hd
    exact hd.forall_position Move.Makes.bare (hw.bare hn)
  cases hc with
  | init hf _ _ _ how _ hpr =>
    refine ⟨fun ho => ?_,fun ho => ?_,fun params _ ag hp => ?_⟩
    · rw [how] at ho
      cases ho
    · rw [hpr] at ho
      cases ho
    · -- there was no float before the vault was configured
      exact absurd hp (hb (hw.fresh hf) ag).2.not_gt
  | same hs =>
    refine ⟨?_,?_,fun params hpr => ?_⟩
    · rw [hs.owner,hs.params]
      exact hw.fresh
    · rw [hs.params]
      exact hb
    · rw [hs.params] at hpr
      rw [hpr] at hd
      simp only [VaultCall.CreditsCapitalised,hpr] at hr
      exact VaultCall.capitalised_moves (hw.capitalised params hpr)
        (fun m hm hrs => hr _ (VaultCall.mem_credited h hm hrs)) hd

/-- **Minimum capitalisation**: if the calls that raise an agent's float (a mint, a transfer, an
entry of a batch) find that agent with at least the minimum of collateral, an agent with float has
it in every state reached. -/
theorem min_capitalisation (self : Address) (bank : Bank) (cs : List (VaultInvocation self))
    (hcredit : (vaultSystem self).Along (fun w i => i.call.CreditsCapitalised w.vault)
      (.deployed bank) cs) : ((vaultSystem self).run (.deployed bank) cs).vault.Capitalised := by
  have hf : ((vaultSystem self).run (.deployed bank) cs).Floored :=
    along_induction (I := VaultWorld.Floored)
      (fun w i w' hw hc he => hw.step hc he) (VaultWorld.floored_deployed bank) hcredit
  intro ag params hp
  exact hf.capitalised params hp ag

theorem min_capitalisation_small :
    let w := (vaultSystem ⟨1⟩).run (.deployed .small) VaultInvocation.smallRun
    w.vault.params = some ⟨8000,100⟩ ∧ (w.vault.readVault ⟨6⟩).float = 150 ∧
      100 ≤ (w.vault.readVault ⟨6⟩).collateral :=
  ⟨by decide +kernel,by decide +kernel,
    min_capitalisation ⟨1⟩ .small VaultInvocation.smallRun (by decide +kernel) ⟨6⟩ ⟨8000,100⟩
      (by decide +kernel) (by decide +kernel)⟩

/-- A vault with a minimum of 100: the agent 5 deposits 50 and is minted float all the same. -/
theorem min_capitalisation_minted_below :
    let w := (vaultSystem ⟨1⟩).run (.deployed .small)
      [.small 1 (.init ⟨4⟩ ⟨8⟩ ⟨3⟩ 8000 100),.small 1 (.depositCollateral ⟨5⟩ 50),
        .small 2 (.mintFloat ⟨5⟩ 40)]
    w.vault.params = some ⟨8000,100⟩ ∧ w.vault.readVault ⟨5⟩ = ⟨50,40,8000,0⟩ ∧
      ¬ w.vault.Capitalised := by
  refine ⟨by decide +kernel,by decide +kernel,fun hc => ?_⟩
  exact absurd (hc ⟨5⟩ ⟨8000,100⟩ (by decide +kernel) (by decide +kernel)) (by decide +kernel)

/-! ### The bound by itself -/

lemma maxFloatOf_of_nonneg {c} (hc : 0 ≤ c) (h : Nat) :
    maxFloatOf c h = if c * min (h : Int) 10000 ≤ i128.hi then c * min (h : Int) 10000 / 10000
    else i128.hi := by
  have hp : 0 ≤ c * min (h : Int) 10000 := mul_nonneg hc (by omega)
  have hf : i128.Fits (c * min (h : Int) 10000) ↔ c * min (h : Int) 10000 ≤ i128.hi :=
    ⟨And.right,fun hh => ⟨le_trans (by decide) hp,hh⟩⟩
  rw [maxFloatOf_eq,Int.tdiv_eq_ediv_of_nonneg hp]
  simp only [hf]

lemma maxFloatOf_mono {c c' h h'} (hc : 0 ≤ c) (hl : c ≤ c') (hh : h ≤ h') :
    maxFloatOf c h ≤ maxFloatOf c' h' := by
  have hp : c * min (h : Int) 10000 ≤ c' * min (h' : Int) 10000 :=
    mul_le_mul hl (by omega) (by omega) (hc.trans hl)
  have hn : 0 ≤ c * min (h : Int) 10000 := mul_nonneg hc (by omega)
  rw [maxFloatOf_of_nonneg hc,maxFloatOf_of_nonneg (hc.trans hl)]
  generalize c * min (h : Int) 10000 = p at *
  generalize c' * min (h' : Int) 10000 = p' at *
  split_ifs <;> omega

/-- **Ceiling**: it grows with the collateral and the haircut, and stays within the collateral
unless their product overflows. -/
theorem ceiling_within_collateral_iff (c : Int) (h : Nat) (hc : 0 ≤ c) (hi : c ≤ i128.hi) :
    (maxFloatOf c h ≤ c ∧ (∀ c', c ≤ c' → c' ≤ i128.hi → maxFloatOf c h ≤ maxFloatOf c' h) ∧
      ∀ h', h ≤ h' → maxFloatOf c h ≤ maxFloatOf c h') ↔
    c * min (h : Int) 10000 ≤ i128.hi ∨ c = i128.hi := by
  have hm : (∀ c', c ≤ c' → c' ≤ i128.hi → maxFloatOf c h ≤ maxFloatOf c' h) ∧
      ∀ h', h ≤ h' → maxFloatOf c h ≤ maxFloatOf c h' :=
    ⟨fun _ hl _ => maxFloatOf_mono hc hl le_rfl,fun _ hl => maxFloatOf_mono hc le_rfl hl⟩
  have hp : c * min (h : Int) 10000 ≤ c * 10000 := mul_le_mul_of_nonneg_left (min_le_right ..) hc
  rw [and_iff_left hm,maxFloatOf_of_nonneg hc]
  split_ifs <;> omega

theorem ceiling_within_collateral_small : maxFloatOf 1000 8000 ≤ 1000 :=
  ((ceiling_within_collateral_iff 1000 8000 (by decide) (by decide)).mpr (.inl (by decide))).1

/-- At the full rate a collateral of 10^38 backs any float. -/
theorem ceiling_above_collateral :
    maxFloatOf 100000000000000000000000000000000000000 10000 = i128.hi ∧
    100000000000000000000000000000000000000 < i128.hi := by
  decide

/-- What the moves of the call do to the position of the agent. -/
def VaultCall.posted (δ : Move → Int) (agent : Address) (c : VaultCall) : Int :=
  ((c.moves.filter (·.agent = agent)).map δ).sum

section
variable {f : Vault → Int} {δ : Move → Int}

lemma Made.position_eq {params ms vaults vaults'}
    (hs : ∀ {m : Move} {v v' : Vault}, m.Makes params v v' → f v' = f v + δ m)
    (h : Made params ms vaults vaults') (a) : f (positionOf vaults' a) =
      f (positionOf vaults a) + ((ms.filter (·.agent = a)).map δ).sum := by
  induction h with
  | nil => simp
  | @cons m _ _ _ _ hm _ ih =>
    rw [ih]
    obtain rfl | hn := eq_or_ne a m.agent
    · rw [positionOf_insert_self,hs hm,filter_cons_of_pos (by simp),map_cons,sum_cons,add_assoc]
    · rw [positionOf_insert_ne hn,filter_cons_of_neg (by simpa using hn.symm)]

lemma position_run (self bank cs a)
    (hs : ∀ {params} {m : Move} {v v' : Vault}, m.Makes params v v' → f v' = f v + δ m) :
    f (positionOf ((vaultSystem self).run (.deployed bank) cs).vault.vaults a) =
      f noVault + (vaultSystem self).tally (fun _ i => i.call.posted δ a) (.deployed bank) cs :=
  run_eq_add_tally (P := fun _ _ => True) (I := fun _ => True)
    (v := fun w : VaultWorld => f (positionOf w.vault.vaults a))
    (fun _ _ _ _ _ h => ⟨trivial,(VaultCall.makes h).1.position_eq hs a⟩) trivial
    (always_of_forall fun _ _ _ => trivial)

end

/-- **Statements**: after every run, an agent's collateral and float are the sums of what the calls
that returned moved in their name. -/
theorem vault_statement (self : Address) (bank : Bank) (cs : List (VaultInvocation self))
    (agent : Address) :
    let v := positionOf ((vaultSystem self).run (.deployed bank) cs).vault.vaults agent
    v.collateral = (vaultSystem self).tally
        (fun _ i => i.call.posted Move.collateralDelta agent) (.deployed bank) cs ∧
      v.float = (vaultSystem self).tally
        (fun _ i => i.call.posted Move.floatDelta agent) (.deployed bank) cs :=
  ⟨(position_run self bank cs agent Move.Makes.collateral).trans (zero_add _),
    (position_run self bank cs agent Move.Makes.float).trans (zero_add _)⟩

end DukaPay
