import DukaPay.AgentVault.Moves

/-! Every agent's float stays within the part of their collateral that the haircut allows, and the
vault holds the collateral of the agents and what was sent to it unasked. -/
namespace DukaPay
open Contractlib List AgentVault Storage

structure Vault.Sound (limit : Nat) (v : Vault) : Prop where
  float_nonneg : 0 ≤ v.float
  float_le : v.float * 10000 ≤ v.collateral * v.haircutBps
  collateral_nonneg : 0 ≤ v.collateral
  haircut_le : v.haircutBps ≤ limit

lemma Vault.sound_noVault (limit) : noVault.Sound limit :=
  ⟨le_refl 0,le_refl 0,le_refl 0,Nat.zero_le limit⟩

lemma Vault.Sound.mono {limit limit'} {v : Vault} (h : v.Sound limit)
    (hl : limit ≤ limit') : v.Sound limit' :=
  ⟨h.float_nonneg,h.float_le,h.collateral_nonneg,h.haircut_le.trans hl⟩

def ScaledCollateral (collateral : Int) : Prop := i128.Fits (collateral * 10000)

instance (collateral : Int) : Decidable (ScaledCollateral collateral) :=
  inferInstanceAs (Decidable (i128.Fits _))

lemma maxFloatOf_eq (c) (h : Nat) :
    maxFloatOf c h = if i128.Fits (c * min (h : Int) 10000) then (c * min (h : Int) 10000).tdiv 10000
    else i128.hi := by
  simp only [maxFloatOf,bps,IntType.checkedMul,IntType.check,Nat.cast_ofNat]
  split_ifs with hf <;> simp only [hf,if_true,if_false]

lemma mul_le_of_le_maxFloatOf {float c haircutBps} (hc : 0 ≤ c)
    (hs : ScaledCollateral c) (hh : haircutBps ≤ 10000)
    (h : float ≤ maxFloatOf c haircutBps) : float * 10000 ≤ c * haircutBps := by
  have hr : 0 ≤ c * haircutBps := mul_nonneg hc (Int.natCast_nonneg _)
  have hp : (haircutBps : Int) ≤ 10000 := by exact_mod_cast hh
  have hf : i128.Fits (c * haircutBps) :=
    ⟨le_trans (by decide) hr,le_trans (mul_le_mul_of_nonneg_left hp hc) hs.2⟩
  rw [maxFloatOf_eq,min_eq_left hp,if_pos hf,Int.tdiv_eq_ediv_of_nonneg hr] at h
  omega

def haircutLimit (params : Option VaultParams) : Nat :=
  (params.map VaultParams.maxHaircutBps).getD 0

variable {params : Option VaultParams} {vaults vaults' : Storage Address Vault}

lemma Move.Makes.sound {m : Move} {v v'} (h : m.Makes params v v')
    (hv : v.Sound (haircutLimit params)) (hlim : haircutLimit params ≤ 10000)
    (hsc : ScaledCollateral v.collateral) : v'.Sound (haircutLimit params) := by
  have hh := hv.haircut_le
  cases h with
  | deposit ha hcl hfl hhr =>
    have hc := hv.collateral_nonneg
    have hf := hv.float_le
    obtain hs | ⟨hz,p,rfl,hm⟩ := hhr
    · refine ⟨by rw [hfl]; exact hv.float_nonneg,?_,by omega,by rw [hs]; exact hh⟩
      rw [hfl,hcl,hs,add_mul]
      have := mul_nonneg ha.le (Int.natCast_nonneg v.haircutBps)
      omega
    -- without a haircut there was no float
    refine ⟨by rw [hfl]; exact hv.float_nonneg,?_,by omega,by rw [hm]; exact le_refl _⟩
    rw [hz] at hf
    have hn : v.float * 10000 ≤ 0 := by simpa using hf
    have := mul_nonneg (show 0 ≤ v'.collateral by omega) (Int.natCast_nonneg v'.haircutBps)
    rw [hfl]
    omega
  | withdraw ha hcl hfl hhr hco hflr hso =>
    refine ⟨by rw [hfl]; exact hv.float_nonneg,?_,hco,by rw [hhr]; exact hh⟩
    rw [hfl]
    by_cases hp : 0 < v.float
    · have hsm : ScaledCollateral v'.collateral := by
        have hhi := hsc.2
        have hlo : i128.lo ≤ 0 := by decide
        exact ⟨by omega,by omega⟩
      exact mul_le_of_le_maxFloatOf hco hsm (by omega) (hso hp)
    · have := mul_nonneg hco (Int.natCast_nonneg v'.haircutBps)
      omega
  | credit hd hcl hfl hhr hso =>
    have hf := hv.float_nonneg
    refine ⟨by omega,?_,by rw [hcl]; exact hv.collateral_nonneg,by rw [hhr]; exact hh⟩
    apply mul_le_of_le_maxFloatOf _ _ (by omega) hso
    · rw [hcl]
      exact hv.collateral_nonneg
    · rwa [hcl]
  | debit hd hcl hfl hhr hco =>
    refine ⟨hco,?_,by rw [hcl]; exact hv.collateral_nonneg,by rw [hhr]; exact hh⟩
    have hf := hv.float_le
    rw [hcl,hhr]
    omega
  | haircut hcl hfl hhr hb hso =>
    obtain ⟨p,rfl,hl⟩ := hb
    have hbp : v'.haircutBps ≤ haircutLimit (some p) := hhr.trans_le hl
    refine ⟨by rw [hfl]; exact hv.float_nonneg,?_,by rw [hcl]; exact hv.collateral_nonneg,hbp⟩
    rw [hfl]
    rw [← hhr] at hso
    apply mul_le_of_le_maxFloatOf _ _ (by omega) hso
    · rw [hcl]
      exact hv.collateral_nonneg
    · rwa [hcl]

lemma Made.float_induction {ms} {P : Address → Int → Prop}
    {I : Storage Address Vault → Prop} (h : Made params ms vaults vaults')
    (hms : ∀ m ∈ ms, ∃ ag dl, m = .float ag dl ∧ P ag dl)
    (ht : ∀ vaults ag dl v, I vaults → P ag dl →
    (Move.float ag dl).Makes params (positionOf vaults ag) v →
    I (vaults.insert ag v)) (hs : I vaults) : I vaults' := by
  induction h with
  | nil => exact hs
  | cons hv hr ih =>
    obtain ⟨ag,dl,rfl,hP⟩ := hms _ mem_cons_self
    exact ih (fun m hm => hms m (mem_cons_of_mem _ hm)) (ht _ _ _ _ hs hP hv)

lemma VaultCall.moves_cases (c : VaultCall) :
    (∃ m, c.moves = [m]) ∨ ∀ m ∈ c.moves, ∃ agent delta, m = .float agent delta := by
  cases c with
  | transferFloat «from» «to» amount | transferToAgent «from» «to» amount =>
    refine .inr fun m hm => ?_
    simp only [moves,mem_cons,not_mem_nil,or_false] at hm
    obtain rfl | rfl := hm <;> exact ⟨_,_,rfl⟩
  | settleNet =>
    refine .inr fun m hm => ?_
    obtain ⟨_,-,rfl⟩ := mem_map.mp hm
    exact ⟨_,_,rfl⟩
  | init | checkInvariant | transfer => exact .inr nofun
  | _ => exact .inl ⟨_,rfl⟩

lemma Made.eq_insert {m} (h : Made params [m] vaults vaults') :
    ∃ v, m.Makes params (positionOf vaults m.agent) v ∧ vaults' = vaults.insert m.agent v := by
  obtain - | ⟨hm,hr⟩ := h
  cases hr
  exact ⟨_,hm,rfl⟩

namespace AgentVault

structure Sound (s : AgentVault) : Prop where
  position : ∀ agent, (positionOf s.vaults agent).Sound (haircutLimit s.params)
  limit : haircutLimit s.params ≤ 10000

def Scaled (s : AgentVault) : Prop := ∀ e ∈ s.vaults.entries, ScaledCollateral e.2.collateral

instance (s : AgentVault) : Decidable s.Scaled :=
  inferInstanceAs (Decidable (∀ e ∈ s.vaults.entries, ScaledCollateral e.2.collateral))

lemma Scaled.position {s : AgentVault} (h : s.Scaled) (a) :
    ScaledCollateral (positionOf s.vaults a).collateral := by
  unfold positionOf
  cases hl : s.vaults.lookup a with
  | none => exact (by decide : ScaledCollateral 0)
  | some v => exact h ⟨a,v⟩ (AList.mem_lookup_iff.mp hl)

lemma sound_empty : empty.Sound where
  position := fun _ => Vault.sound_noVault _
  limit := Nat.zero_le _

end AgentVault

lemma VaultCall.sound_moves {c : VaultCall} {s : AgentVault} (hs : s.Sound) (hc : s.Scaled)
    (h : Made s.params c.moves s.vaults vaults) (ag) :
    (positionOf vaults ag).Sound (haircutLimit s.params) := by
  obtain ⟨m,hm⟩ | hflt := c.moves_cases
  · rw [hm] at h
    obtain ⟨v,hv,rfl⟩ := h.eq_insert
    exact forall_positionOf_insert (P := fun _ v => v.Sound (haircutLimit s.params)) hs.position
      (hv.sound (hs.position _) hs.limit (hc.position _)) ag
  -- a batch leaves the collateral alone, so nothing overflows in any of its rounds
  refine (h.float_induction (P := fun _ _ => True)
    (I := fun vaults => ∀ ag, (positionOf vaults ag).Sound (haircutLimit s.params) ∧
      ScaledCollateral (positionOf vaults ag).collateral)
    (fun m hm => ?_) ?_ fun ag => ⟨hs.position ag,hc.position ag⟩) ag |>.1
  · obtain ⟨ag,dl,rfl⟩ := hflt m hm
    exact ⟨ag,dl,rfl,trivial⟩
  · intro vaults ag dl v hI _ hv
    apply forall_positionOf_insert (P := fun _ v => v.Sound (haircutLimit s.params) ∧
      ScaledCollateral v.collateral) hI
    refine ⟨hv.sound (hI _).1 hs.limit (hI _).2,?_⟩
    rw [hv.collateral]
    simpa [Move.collateralDelta] using (hI ag).2

lemma sumBy_insert_position {f : Vault → Int} (hf : f noVault = 0)
    (vaults : Storage Address Vault) (a v) : sumBy (fun _ v => f v) (vaults.insert a v) =
    sumBy (fun _ v => f v) vaults + (f v - f (positionOf vaults a)) := by
  have hs := sumBy_insert (fun (_ : Address) v => f v) a v vaults
  have hp : part (fun (_ : Address) v => f v) a (vaults.lookup a) = f (positionOf vaults a) := by
    unfold positionOf
    cases vaults.lookup a with
    | none => exact hf.symm
    | some => rfl
  rw [hp] at hs
  omega

lemma Made.total_eq {f : Vault → Int} {δ : Move → Int} (hf : f noVault = 0)
    (hs : ∀ {m : Move} {v v' : Vault}, m.Makes params v v' → f v' = f v + δ m) {ms}
    (h : Made params ms vaults vaults') :
    sumBy (fun _ v => f v) vaults' = sumBy (fun _ v => f v) vaults + (ms.map δ).sum := by
  induction h with
  | nil => simp
  | cons hm _ ih =>
    rw [ih,sumBy_insert_position hf,hs hm,map_cons,sum_cons]
    omega

namespace AgentVault

def totalCollateral (s : AgentVault) : Int := s.vaults.sumBy fun _ v => v.collateral

def totalFloat (s : AgentVault) : Int := s.vaults.sumBy fun _ v => v.float

end AgentVault

def Bank.donated (self token : Address) (b : Bank) : Int :=
  b.total fun x => decide (x.token = token ∧ x.dst = self ∧ x.invoker ≠ some self)

namespace VaultCall

def collateralDelta (c : VaultCall) : Int := (c.moves.map Move.collateralDelta).sum

def Flows (self : Address) (c : VaultCall) (w w' : VaultWorld) : Prop :=
  (w.vault.token = none → c.collateralDelta = 0) ∧
    ∀ token, w'.bank.balance token self - w'.bank.donated self token =
      w.bank.balance token self - w.bank.donated self token +
        if w.vault.token = some token then c.collateralDelta else 0

variable {self : Address} {w w' : VaultWorld}

lemma flows_of_same {c : VaultCall} (hc : c.collateralDelta = 0)
    (hb : w'.bank = w.bank) : c.Flows self w w' := by
  refine ⟨fun _ => hc,fun tok => ?_⟩
  rw [hb,hc]
  simp

lemma flows_of_moved {c : VaultCall} {tk x} (hk : w.vault.token = some tk)
    (hm : Bank.Moved x w.bank w'.bank) (hx : x.token = tk) (ha : x.invoker = some self)
    (hd : Bank.delta x tk self = c.collateralDelta) : c.Flows self w w' := by
  refine ⟨fun hn => ?_,fun t => ?_⟩
  · rw [hk] at hn
    cases hn
  · have hdn : w'.bank.donated self t = w.bank.donated self t := by
      unfold Bank.donated
      rw [hm.total_eq]
      simp [ha]
    rw [hdn,hm.balance,hk]
    obtain rfl | ht := eq_or_ne tk t
    · rw [if_pos rfl,hd]
      omega
    · rw [if_neg (by simpa using ht)]
      simp [Bank.delta,hx,Ne.symm ht]

/-- **The tokens follow the collateral**: what a call adds to the collateral of the agents comes in
as tokens, and everything else that comes in was sent unasked. -/
lemma flow (i : VaultInvocation self) (h : i.call.exec self i.env w = .ok w') :
    i.call.Flows self w w' := by
  obtain ⟨env,c,hi,hs⟩ := i
  have hf : ∀ {a : Address}, env.Authorized a → a ≠ self := by
    rintro a (ha | ha) rfl
    · exact hi ha
    · rw [hs] at ha
      cases ha
  simp only at h ⊢
  cases c with
  | depositCollateral =>
    obtain ⟨-,-,hat,tok,hk,hm⟩ := made_of_depositCollateral h
    refine flows_of_moved hk hm rfl rfl ?_
    simp [Bank.delta,collateralDelta,moves,Move.collateralDelta,Ne.symm (hf hat)]
  | withdrawCollateral =>
    obtain ⟨-,-,hat,tok,hk,hm⟩ := made_of_withdrawCollateral h
    refine flows_of_moved hk hm rfl rfl ?_
    simp [Bank.delta,collateralDelta,moves,Move.collateralDelta,Ne.symm (hf hat)]
  | transfer tok src dst amt =>
    simp only [exec,eq_ok] at h
    obtain ⟨_,hb,rfl⟩ := h
    have hm := Bank.moved_of_transfer hb
    have hr : self ≠ src := Ne.symm (hf (Bank.signed_of_transfer hb))
    refine ⟨fun _ => rfl,fun t => ?_⟩
    unfold Bank.donated
    rw [hm.balance,hm.total_eq]
    have hn : collateralDelta (.transfer tok src dst amt) = 0 := rfl
    simp only [hn,ite_self,add_zero,Bank.delta,if_neg hr,sub_zero]
    by_cases ht : t = tok
    · obtain rfl | hd := eq_or_ne self dst
      · simp [ht,hi]
      · simp [ht,hd,Ne.symm hd]
    · simp [ht,Ne.symm ht]
  | checkInvariant =>
    cases h
    exact flows_of_same rfl rfl
  | settleNet =>
    simp only [exec,eq_ok] at h
    obtain ⟨s,-,rfl⟩ := h
    refine flows_of_same ?_ rfl
    simp [collateralDelta,moves,map_map,Function.comp_def,Move.collateralDelta]
  | _ =>
    simp only [exec,eq_ok] at h
    obtain ⟨s,-,rfl⟩ := h
    exact flows_of_same rfl rfl

end VaultCall

/-- What holds of the vault and its tokens, when the vault was deployed with the tokens in `bank`. -/
structure VaultWorld.Sound (contract : Address) (bank : Bank) (w : VaultWorld) : Prop where
  vault : w.vault.Sound
  fresh : w.vault.owner = none → w.vault.params = none ∧ w.vault.token = none
  idle : w.vault.token = none → w.vault.totalCollateral = 0
  custody : ∀ token, w.bank.balance token contract - w.bank.donated contract token =
    bank.balance token contract - bank.donated contract token +
      if w.vault.token = some token then w.vault.totalCollateral else 0

variable {self : Address} {bank : Bank}

lemma VaultWorld.sound_deployed (self bank) : (VaultWorld.deployed bank).Sound self bank where
  vault := sound_empty
  fresh := fun _ => ⟨rfl,rfl⟩
  idle := fun _ => rfl
  custody := fun tok => by simp [VaultWorld.deployed,empty]

lemma VaultWorld.Sound.step {w w' : VaultWorld} (hw : w.Sound self bank) (hsc : w.vault.Scaled)
    (i : VaultInvocation self) (h : i.call.exec self i.env w = .ok w') : w'.Sound self bank := by
  obtain ⟨hm,hcn⟩ := VaultCall.makes h
  obtain ⟨hn,hfw⟩ := VaultCall.flow i h
  have htt : w'.vault.totalCollateral = w.vault.totalCollateral + i.call.collateralDelta :=
    hm.total_eq rfl Move.Makes.collateral
  have hps := VaultCall.sound_moves hw.vault hsc hm
  generalize hc : i.call = c at hcn
  cases hcn with
  | init hfs hh hf hv how hk hr =>
    obtain ⟨hnp,ht⟩ := hw.fresh hfs
    -- nothing was deposited before there was a token to deposit
    have hz : w'.vault.totalCollateral = 0 := by rw [htt,hw.idle ht,hn ht,add_zero]
    refine ⟨⟨fun ag => ?_,?_⟩,fun ho => ?_,fun ho => ?_,fun tok => ?_⟩
    · have hp := hps ag
      rw [hnp] at hp
      exact hp.mono (Nat.zero_le _)
    · rw [hr]
      exact hh
    · rw [how] at ho
      cases ho
    · exact hz
    · rw [hfw,hw.custody,ht,hz]
      simp
  | same hs =>
    refine ⟨⟨?_,?_⟩,?_,fun ho => ?_,fun tok => ?_⟩
    · rw [hs.params]
      exact hps
    · rw [hs.params]
      exact hw.vault.limit
    · rw [hs.owner,hs.params,hs.token]
      exact hw.fresh
    · rw [hs.token] at ho
      rw [htt,hw.idle ho,hn ho,add_zero]
    · rw [hfw,hw.custody,hs.token,htt]
      split <;> omega

/-- **Solvency and custody**: while no bound on the float overflows, float and collateral are not
negative, every agent's float is covered by the haircut of their collateral, and the haircut is
within its limit. -/
theorem vault_solvency (self : Address) (bank : Bank) (cs : List (VaultInvocation self))
    (hscaled : (vaultSystem self).Along (fun w _ => w.vault.Scaled) (.deployed bank) cs) :
    let w := (vaultSystem self).run (.deployed bank) cs
    (∀ agent,
      let v := w.vault.readVault agent
      0 ≤ v.float ∧ v.float * 10000 ≤ v.collateral * v.haircutBps ∧ 0 ≤ v.collateral ∧
        ∀ params, w.vault.params = some params → v.haircutBps ≤ params.maxHaircutBps) ∧
      ∀ token, w.vault.token = some token →
        w.vault.totalCollateral = w.bank.balance token self - (bank.balance token self +
          (w.bank.donated self token - bank.donated self token)) := by
  intro w
  have hw : w.Sound self bank :=
    Transactional.along_induction (I := fun w => w.Sound self bank)
      (fun w i w' hw hc he => hw.step hc i he) (VaultWorld.sound_deployed self bank) hscaled
  refine ⟨fun agent => ?_,fun token ht => ?_⟩
  · have hv := hw.vault.position agent
    refine ⟨hv.float_nonneg,hv.float_le,hv.collateral_nonneg,fun params hp => ?_⟩
    have hle := hv.haircut_le
    rw [hp] at hle
    exact hle
  · have hu := hw.custody token
    rw [if_pos ht] at hu
    omega

def VaultInvocation.small (timestamp : Nat) (call : VaultCall) : VaultInvocation ⟨1⟩ where
  env := { Env.small 1 with timestamp := timestamp }
  call := call
  invoker := nofun
  signed := rfl

def VaultInvocation.smallRun : List (VaultInvocation ⟨1⟩) :=
  [.small 1 (.init ⟨4⟩ ⟨8⟩ ⟨3⟩ 8000 100),.small 1 (.depositCollateral ⟨5⟩ 1000),
    .small 2 (.depositCollateral ⟨6⟩ 500),.small 3 (.mintFloat ⟨5⟩ 700),
    .small 4 (.transferFloat ⟨5⟩ ⟨6⟩ 200),.small 5 (.settleNet [(⟨6⟩,-50),(⟨5⟩,50)]),
    .small 6 (.transfer ⟨3⟩ ⟨6⟩ ⟨1⟩ 30),.small 7 (.withdrawCollateral ⟨5⟩ 100)]

theorem vault_solvency_small :
    let w := (vaultSystem ⟨1⟩).run (.deployed .small) VaultInvocation.smallRun
    w.vault.readVault ⟨5⟩ = ⟨900,550,8000,5⟩ ∧ w.vault.totalCollateral = 1400 ∧
      (w.vault.readVault ⟨5⟩).float * 10000 ≤
        (w.vault.readVault ⟨5⟩).collateral * (w.vault.readVault ⟨5⟩).haircutBps ∧
      w.vault.totalCollateral = w.bank.balance ⟨3⟩ ⟨1⟩ - (Bank.small.balance ⟨3⟩ ⟨1⟩ +
        (w.bank.donated ⟨1⟩ ⟨3⟩ - Bank.small.donated ⟨1⟩ ⟨3⟩)) := by
  have hs := vault_solvency ⟨1⟩ .small VaultInvocation.smallRun (by decide +kernel)
  exact ⟨by decide +kernel,by decide +kernel,(hs.1 ⟨5⟩).2.1,hs.2 ⟨3⟩ (by decide +kernel)⟩

end DukaPay
