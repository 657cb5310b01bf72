import DukaPay.Contractlib.Storage
import DukaPay.Contractlib.Transaction
import DukaPay.Money
import DukaPay.Soroban

/-! The registry of the agents: its operator registers, activates and suspends them. -/
namespace DukaPay
open Contractlib Transactional

inductive RegistryError
  | AlreadyInitialized
  | NotInitialized
  | Unauthorized
  | AgentAlreadyRegistered
  | AgentNotFound
  | InvalidBond
  | MissingKyc
  | InvalidStatusTransition
  | BondFrozen

inductive RegistryFault
  | err (e : RegistryError)
  | unauthorized (a : Address)

inductive AgentStatus
  | Pending
  | Active
  | Suspended
  | Expired
  deriving DecidableEq

structure AgentInfo where
  status : AgentStatus
  kycRef : String
  bondAmount : Int
  licenseExpiry : Nat
  region : String
  reputation : Int

structure AgentRegistry where
  owner : Option Address
  operator : Option Address
  version : Option Nat
  agents : Storage Address AgentInfo

namespace AgentRegistry

abbrev Result := Except RegistryFault AgentRegistry

def empty : AgentRegistry := ⟨none,none,none,∅⟩

variable (env : Env) (agent : Address) (s : AgentRegistry)

def requireAuth (a : Option Address) : Except RegistryFault Unit := do
  let a ← orFail a (.err .NotInitialized)
  ensure (env.Authorized a) (.unauthorized a)

def init (owner operator : Address) : Result := do
  ensure (s.owner = none) (.err .AlreadyInitialized)
  pure { s with owner := some owner, operator := some operator, version := some 1 }

def register (kyc region : String) (bond : Int) (expiry : Nat) : Result := do
  ensure (env.Authorized agent) (.unauthorized agent)
  requireAuth env s.operator
  ensure (0 < bond) (.err .InvalidBond)
  ensure (s.agents.lookup agent).isNone (.err .AgentAlreadyRegistered)
  let info := ⟨.Pending,kyc,bond,expiry,region,0⟩
  pure { s with agents := s.agents.insert agent info }

/-- The operator's consent, a check, `get_info`, a change of the record and `set_info`. -/
def operate (check : Except RegistryFault Unit) (f : AgentInfo → Except RegistryFault AgentInfo) :
    Result := do
  requireAuth env s.operator
  check
  let info ← orFail (s.agents.lookup agent) (.err .AgentNotFound)
  let info ← f info
  pure { s with agents := s.agents.insert agent info }

def activate : Result :=
  s.operate env agent (pure ()) fun info => do
    ensure (info.status = .Pending) (.err .InvalidStatusTransition)
    ensure (info.kycRef ≠ "") (.err .MissingKyc)
    ensure (0 < info.bondAmount) (.err .InvalidBond)
    pure { info with status := .Active }

def suspend : Result :=
  s.operate env agent (pure ()) fun info => do
    ensure (info.status ≠ .Suspended) (.err .InvalidStatusTransition)
    pure { info with status := .Suspended }

def setReputation (reputation : Int) : Result :=
  s.operate env agent (pure ()) fun info => pure { info with reputation }

def renewLicense (licenseExpiry : Nat) : Result :=
  s.operate env agent (pure ()) fun info => pure { info with licenseExpiry }

def topUpBond (amount : Int) : Result :=
  s.operate env agent (ensure (0 < amount) (.err .InvalidBond)) fun info => do
    let bondAmount ← orFail (i128.checkedAdd info.bondAmount amount) (.err .InvalidBond)
    pure { info with bondAmount }

def withdrawBond : Result :=
  s.operate env agent (pure ()) fun info => do
    ensure (info.status ≠ .Active) (.err .BondFrozen)
    pure { info with bondAmount := 0 }

def upgrade : Result := do
  requireAuth env s.owner
  pure { s with version := some (u32.saturatingAdd (s.version.getD 0) 1) }

end AgentRegistry

inductive RegistryCall
  | init (owner operator : Address)
  | register (agent : Address) (kyc region : String) (bond : Int) (expiry : Nat)
  | activate (agent : Address)
  | suspend (agent : Address)
  | setReputation (agent : Address) (rep : Int)
  | renewLicense (agent : Address) (expiry : Nat)
  | topUpBond (agent : Address) (amount : Int)
  | withdrawBond (agent : Address)
  | upgrade

def RegistryCall.exec (env : Env) (s : AgentRegistry) : RegistryCall → AgentRegistry.Result
  | init owner operator => s.init owner operator
  | register agent kyc region bond expiry => s.register env agent kyc region bond expiry
  | activate agent => s.activate env agent
  | suspend agent => s.suspend env agent
  | setReputation agent rep => s.setReputation env agent rep
  | renewLicense agent expiry => s.renewLicense env agent expiry
  | topUpBond agent amount => s.topUpBond env agent amount
  | withdrawBond agent => s.withdrawBond env agent
  | upgrade => s.upgrade env

def registrySystem : Transactional AgentRegistry (Env × RegistryCall) RegistryFault :=
  ⟨fun i s => i.2.exec i.1 s⟩

namespace AgentInfo

/-- An active agent is known and bonded. -/
structure Sound (i : AgentInfo) : Prop where
  bond : 0 ≤ i.bondAmount
  unexpired : i.status ≠ .Expired
  active : i.status = .Active → i.kycRef ≠ "" ∧ 0 < i.bondAmount

/-- What may become of a record: nobody returns from a suspension or to pending, and the bond of
an agent who stays active does not fall. -/
structure Leads (i i' : AgentInfo) : Prop where
  kycRef : i'.kycRef = i.kycRef
  region : i'.region = i.region
  status : i'.status = i.status ∧ (i.status = .Active → i.bondAmount ≤ i'.bondAmount) ∨
    i.status ≠ .Suspended ∧ i'.status = .Suspended ∨ i.status = .Pending ∧ i'.status = .Active

/-- The changes that the calls make. -/
inductive Moves (i : AgentInfo) : AgentInfo → Prop
  | activated (h : i.status = .Pending) (hk : i.kycRef ≠ "") (hb : 0 < i.bondAmount) :
    Moves i { i with status := .Active }
  | suspended (h : i.status ≠ .Suspended) : Moves i { i with status := .Suspended }
  | rated (reputation) : Moves i { i with reputation }
  | renewed (licenseExpiry) : Moves i { i with licenseExpiry }
  | toppedUp {amount} (h : 0 < amount) : Moves i { i with bondAmount := i.bondAmount + amount }
  | withdrawn (h : i.status ≠ .Active) : Moves i { i with bondAmount := 0 }

/-- What a call that returned did to the record of an address. -/
inductive Turns : Option AgentInfo → Option AgentInfo → Prop
  | kept (o) : Turns o o
  | registered {i} (h : Sound i) : Turns none (some i)
  | moved {i i'} (h : Moves i i') : Turns (some i) (some i')

variable {i i' i'' : AgentInfo} {o : Option AgentInfo}

lemma Moves.sound (h : i.Moves i') (hs : i.Sound) : i'.Sound := by
  obtain ⟨hb,he,ha⟩ := hs
  cases h <;> constructor <;> simp_all <;> omega

lemma Moves.leads (h : i.Moves i') : i.Leads i' := by
  cases h <;> constructor <;> simp_all
  omega

lemma Leads.refl (i : AgentInfo) : i.Leads i := ⟨rfl,rfl,.inl ⟨rfl,fun _ => le_rfl⟩⟩

lemma Leads.trans (h : i.Leads i') (h' : i'.Leads i'') : i.Leads i'' := by
  refine ⟨h'.kycRef.trans h.kycRef,h'.region.trans h.region,?_⟩
  have hs := h.status
  have hs' := h'.status
  grind

lemma Turns.sound (h : Turns o (some i)) (ho : ∀ i, o = some i → i.Sound) : i.Sound := by
  cases h with
  | kept => exact ho i rfl
  | registered h => exact h
  | moved h => exact h.sound (ho _ rfl)

lemma Turns.leads (h : Turns (some i) o) : ∃ i', o = some i' ∧ i.Leads i' := by
  cases h with
  | kept => exact ⟨i,rfl,.refl i⟩
  | moved h => exact ⟨_,rfl,h.leads⟩

lemma Turns.of_insert {m : Storage Address AgentInfo} {a} (h : Turns (m.lookup a) (some i)) (b) :
    Turns (m.lookup b) ((m.insert a i).lookup b) := by
  obtain rfl | hb := eq_or_ne b a
  · rwa [AList.lookup_insert]
  · exact AList.lookup_insert_ne hb ▸ .kept _

end AgentInfo

open AgentInfo
variable {env : Env} {c : RegistryCall} {s s' : AgentRegistry} {a : Address}

lemma AgentRegistry.turns_of_operate {check f} (h : s.operate env a check f = .ok s')
    (hf : ∀ i i', check = .ok () → f i = .ok i' → i.Moves i') (b) :
    Turns (s.agents.lookup b) (s'.agents.lookup b) := by
  simp only [operate,bind_eq_ok,orFail_eq_ok,pure_eq_ok] at h
  obtain ⟨-,-,_,hc,i,hl,i',hi,rfl⟩ := h
  exact .of_insert (hl ▸ .moved (hf i i' hc hi)) b

open AgentRegistry in
lemma RegistryCall.turns_of_ok (h : c.exec env s = .ok s') (b) :
    Turns (s.agents.lookup b) (s'.agents.lookup b) := by
  cases c with
  | init | upgrade =>
    obtain ⟨-,-,h⟩ := bind_eq_ok.mp h
    exact pure_eq_ok.mp h ▸ .kept _
  | register =>
    simp only [exec,AgentRegistry.register,bind_eq_ok,ensure_eq_ok,pure_eq_ok] at h
    obtain ⟨-,-,-,-,_,hb,_,hn,rfl⟩ := h
    rw [Option.isNone_iff_eq_none] at hn
    exact .of_insert (hn ▸ .registered ⟨hb.le,by simp,by simp⟩) b
  | activate =>
    refine turns_of_operate h (fun i i' _ hi => ?_) b
    simp only [bind_eq_ok,ensure_eq_ok,pure_eq_ok] at hi
    obtain ⟨_,hp,_,hk,_,hb,rfl⟩ := hi
    exact .activated hp hk hb
  | suspend =>
    refine turns_of_operate h (fun i i' _ hi => ?_) b
    simp only [bind_eq_ok,ensure_eq_ok,pure_eq_ok] at hi
    obtain ⟨_,hn,rfl⟩ := hi
    exact .suspended hn
  | setReputation _ rep =>
    exact turns_of_operate h (fun _ _ _ hi => pure_eq_ok.mp hi ▸ .rated rep) b
  | renewLicense _ expiry =>
    exact turns_of_operate h (fun _ _ _ hi => pure_eq_ok.mp hi ▸ .renewed expiry) b
  | topUpBond =>
    refine turns_of_operate h (fun i i' hp hi => ?_) b
    simp only [bind_eq_ok,orFail_eq_ok,IntType.checkedAdd_eq_some,pure_eq_ok] at hi
    obtain ⟨_,⟨-,rfl⟩,rfl⟩ := hi
    exact .toppedUp (ensure_eq_ok.mp hp)
  | withdrawBond =>
    refine turns_of_operate h (fun i i' _ hi => ?_) b
    simp only [bind_eq_ok,ensure_eq_ok,pure_eq_ok] at hi
    obtain ⟨_,hn,rfl⟩ := hi
    exact .withdrawn hn

/-- **The agents' life**: after every run each record is sound, and every continuation keeps it or
leads it on. -/
theorem registry_run (cs cs' a i)
    (h : (registrySystem.run .empty cs).agents.lookup a = some i) :
    i.Sound ∧ ∃ i', (registrySystem.run .empty (cs ++ cs')).agents.lookup a = some i' ∧
      i.Leads i' := by
  constructor
  · refine registrySystem.run_induction
      (I := fun s : AgentRegistry => ∀ i, s.agents.lookup a = some i → i.Sound)
      (fun s c s' hs hc i' h' => ?_) (fun i h => by cases h) cs i h
    exact (h' ▸ RegistryCall.turns_of_ok hc a).sound hs
  · rw [run_append]
    refine run_induction
      (I := fun s : AgentRegistry => ∃ i', s.agents.lookup a = some i' ∧ i.Leads i')
      (fun s c s' ⟨j,hj,hl⟩ hc => ?_) ⟨i,h,.refl i⟩ cs'
    obtain ⟨k,hk,hjk⟩ := (hj ▸ RegistryCall.turns_of_ok hc a).leads
    exact ⟨k,hk,hl.trans hjk⟩

/-- An agent who is active with a bond of 70. -/
def activeAgent : List (Env × RegistryCall) :=
  [(.small 0,.init ⟨8⟩ ⟨9⟩),(.small 0,.register ⟨5⟩ "kyc" "west" 70 12),(.small 0,.activate ⟨5⟩)]

/-- The bond is topped up, and paid out after the agent was suspended. -/
def paidOut : List (Env × RegistryCall) :=
  [(.small 1,.topUpBond ⟨5⟩ 30),(.small 2,.withdrawBond ⟨5⟩),(.small 3,.suspend ⟨5⟩),
    (.small 4,.activate ⟨5⟩),(.small 5,.withdrawBond ⟨5⟩)]

theorem registry_run_suspended :
    let active : AgentInfo := ⟨.Active,"kyc",70,12,"west",0⟩
    let bonded : AgentInfo := ⟨.Active,"kyc",100,12,"west",0⟩
    let suspended : AgentInfo := ⟨.Suspended,"kyc",0,12,"west",0⟩
    (registrySystem.run .empty activeAgent).agents.lookup ⟨5⟩ = some active ∧
    (registrySystem.run .empty (activeAgent ++ paidOut.take 2)).agents.lookup ⟨5⟩ = some bonded ∧
    (registrySystem.run .empty (activeAgent ++ paidOut)).agents.lookup ⟨5⟩ = some suspended ∧
    active.Sound ∧ active.Leads bonded ∧ active.Leads suspended := by
  intro active bonded suspended
  have hb : (registrySystem.run .empty (activeAgent ++ paidOut.take 2)).agents.lookup ⟨5⟩ =
      some bonded := rfl
  have hp : (registrySystem.run .empty (activeAgent ++ paidOut)).agents.lookup ⟨5⟩ =
      some suspended := rfl
  obtain ⟨hs,i,hi,hl⟩ := registry_run activeAgent (paidOut.take 2) ⟨5⟩ active rfl
  obtain ⟨-,j,hj,hm⟩ := registry_run activeAgent paidOut ⟨5⟩ active rfl
  cases hb.symm.trans hi
  cases hp.symm.trans hj
  exact ⟨rfl,hb,hp,hs,hl,hm⟩

end DukaPay
