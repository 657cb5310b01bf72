import DukaPay.Contractlib.Machine

/-! A token carries the assignments of the moment at which it was issued, and the guards read the
table again only if it carries none. -/
namespace DukaPay.Backend.Tenants
open Contractlib List Function

inductive UserRole
  | borrower | lender | agent | auditor | admin
  deriving DecidableEq

structure User where
  publicKey : String
  role : UserRole
  assignedBorrowers : List String

def User.assignable (user : User) : Bool := user.role = .agent ∨ user.role = .lender

def User.seesAll (user : User) : Bool := user.role = .admin ∨ user.role = .auditor

def canAccessWallet (user : User) (targetWallet : String) : Bool :=
  targetWallet ≠ "" && (user.seesAll || user.publicKey = targetWallet ||
    user.assignable && user.assignedBorrowers.contains targetWallet)

def borrowersOf (assignments : List (String × String)) (agent : String) : List String :=
  (assignments.filter (·.1 = agent)).map Prod.snd

inductive Phase
  | idle
  | arrived (user : User) (target : String)
  | enriched (user : User) (target : String)
  | admitted (user : User) (target : String)
  | refused

/-- For the statements, `since` has the assignments that there were at some moment since the arrival
of a request. -/
structure World (κ : Type) where
  assignments : List (String × String)
  issued : List (String × List String)
  phase : κ → Phase
  since : κ → List (String × String)

/-- The second guard is `requireAssignedBorrowerAccess`, the first `requireTenantAccess`. -/
inductive Action (κ : Type)
  | generateTokenPair (publicKey : String)
  | assignBorrowerToAgent (agent borrower : String)
  | removeBorrowerFromAgent (agent borrower : String)
  | arrive (k : κ) (second : Bool) (publicKey : String) (claim : List String) (target : String)
  | enrichAssignedBorrowers (k : κ)
  | decide (k : κ)

variable {κ : Type} [DecidableEq κ] (resolveRole : String → UserRole)
variable (w : World κ)

def World.setPhase (k : κ) (phase : Phase) : World κ :=
  { w with phase := Function.update w.phase k phase }

def step : Action κ → World κ
  | .generateTokenPair publicKey =>
    let user : User := ⟨publicKey,resolveRole publicKey,[]⟩
    let claim := if user.assignable then borrowersOf w.assignments publicKey else []
    { w with issued := (publicKey,claim) :: w.issued }
  | .assignBorrowerToAgent agent borrower =>
    { w with
      assignments := w.assignments.insert (agent,borrower)
      since := fun k => (agent,borrower) :: w.since k }
  | .removeBorrowerFromAgent agent borrower =>
    { w with assignments := w.assignments.filter (· ≠ (agent,borrower)) }
  | .arrive k second publicKey claim target =>
    match w.phase k with
    | .idle =>
      if (publicKey,claim) ∈ w.issued then
        let user : User := ⟨publicKey,resolveRole publicKey,claim⟩
        { w with since := Function.update w.since k w.assignments }.setPhase k
          (if target = "" then .refused
          else if second ∧ user.seesAll then .admitted user target
          else .arrived user target)
      else w
    | _ => w
  | .enrichAssignedBorrowers k =>
    match w.phase k with
    | .arrived user target =>
      let assignedBorrowers :=
        if user.assignable ∧ user.assignedBorrowers = [] then
          borrowersOf w.assignments user.publicKey
        else user.assignedBorrowers
      w.setPhase k (.enriched { user with assignedBorrowers } target)
    | _ => w
  | .decide k =>
    match w.phase k with
    | .enriched user target =>
      w.setPhase k (if canAccessWallet user target then .admitted user target else .refused)
    | _ => w

/-- Who is admitted to the wallet of another was assigned to it since the request arrived. -/
def Assigned : Prop :=
  ∀ k user target, w.phase k = .admitted user target → user.assignable →
    target ≠ user.publicKey → (user.publicKey,target) ∈ w.since k

/-- A wallet that the token claims is still assigned when the request arrives. -/
def Current : Action κ → Prop
  | .arrive _ _ publicKey claim target => target ∈ claim → (publicKey,target) ∈ w.assignments
  | _ => True

/-- What holds of a request in a phase. -/
def Good (assignments since : List (String × String)) : Phase → Prop
  | .arrived user target => assignments ⊆ since ∧
    (target ∈ user.assignedBorrowers → (user.publicKey,target) ∈ since)
  | .enriched user target => target ∈ user.assignedBorrowers → (user.publicKey,target) ∈ since
  | .admitted user target =>
    user.assignable → target ≠ user.publicKey → (user.publicKey,target) ∈ since
  | _ => True

def Inv : Prop := ∀ k, Good w.assignments (w.since k) (w.phase k)

variable {resolveRole}

lemma Good.mono {assignments assignments' since since' phase}
    (h : Good assignments since phase) (hs : since ⊆ since')
    (ha : assignments ⊆ since → assignments' ⊆ since') : Good assignments' since' phase := by
  cases phase with
  | arrived => exact ⟨ha h.1,fun hm => hs (h.2 hm)⟩
  | enriched => exact fun hm => hs (h hm)
  | admitted => exact fun hr hn => hs (h hr hn)
  | idle | refused => trivial

lemma inv_setPhase {w : World κ} {k ph} (h : ∀ j, j ≠ k →
    Good w.assignments (w.since j) (w.phase j)) (hk : Good w.assignments (w.since k) ph) :
    Inv (w.setPhase k ph) :=
  (forall_update_iff _ fun j => Good w.assignments (w.since j)).mpr ⟨hk,h⟩

lemma not_assignable {u : User} (h : u.seesAll) : ¬ u.assignable := by
  obtain ⟨_,role,_⟩ := u
  cases role <;> simp_all [User.seesAll,User.assignable]

lemma inv_step (act) (h : Inv w) (hcr : Current w act) : Inv (step resolveRole w act) := by
  cases act with
  | generateTokenPair => exact h
  | assignBorrowerToAgent =>
    refine fun k => (h k).mono (subset_cons_self _ _) fun hs row hr => ?_
    rcases mem_insert_iff.mp hr with he | hr
    · exact he ▸ mem_cons_self
    · exact mem_cons_of_mem _ (hs hr)
  | removeBorrowerFromAgent =>
    exact fun k => (h k).mono (fun _ => id) fun hs _ hr => hs (mem_of_mem_filter hr)
  | arrive =>
    dsimp only [step]
    split
    · split
      · refine inv_setPhase (fun j hj => ?_) ?_
        · dsimp only
          rw [update_of_ne hj]
          exact h j
        · dsimp only
          rw [update_self]
          split
          · trivial
          split
          · next ha => exact fun hl => absurd hl (not_assignable ha.2)
          · exact ⟨fun _ => id,hcr⟩
      · exact h
    · exact h
  | enrichAssignedBorrowers k =>
    dsimp only [step]
    split
    · next user target hk =>
      have hd := h k
      rw [hk] at hd
      refine inv_setPhase (fun j _ => h j) fun hm => ?_
      dsimp only at hm
      split at hm
      · obtain ⟨row,hr,he⟩ := mem_map.mp hm
        obtain ⟨hr,hg⟩ := mem_filter.mp hr
        exact hd.1 (by rwa [← he,← of_decide_eq_true hg])
      · exact hd.2 hm
    · exact h
  | decide k =>
    dsimp only [step]
    split
    · next user target hk =>
      have hd := h k
      rw [hk] at hd
      refine inv_setPhase (fun j _ => h j) ?_
      split
      · next hn =>
        intro hl hne
        simp only [canAccessWallet,Bool.and_eq_true,Bool.or_eq_true,decide_eq_true_eq] at hn
        rcases hn.2 with (ha | ho) | hc
        · exact absurd hl (not_assignable ha)
        · exact absurd ho.symm hne
        · exact hd (contains_iff_mem.mp hc.2)
      · trivial
    · exact h

/-- **Access ends with the assignment**, if every request arrives while the wallet that its token
claims is assigned. -/
theorem access_assigned (w : World κ) (hidle : ∀ k, w.phase k = .idle) (actions : List (Action κ))
    (hcurrent : Always (step resolveRole) Current w actions) :
    Assigned (actions.foldl (step resolveRole) w) := by
  intro k user tgt hk
  have hn : Inv w := fun k => by
    rw [hidle]
    trivial
  have hg := hcurrent.foldl inv_step hn k
  rwa [hk] at hg

def noRequests : World Unit := ⟨[],[],fun _ => .idle,fun _ => []⟩

theorem access_assigned_borrower : Assigned ([.assignBorrowerToAgent "agent" "borrower",
    .generateTokenPair "agent",.arrive () false "agent" ["borrower"] "borrower",
    .enrichAssignedBorrowers (),.decide ()].foldl (step fun _ => .agent) noRequests) := by
  refine access_assigned noRequests (fun _ => rfl) _ ⟨trivial,trivial,?_,trivial,trivial,trivial⟩
  exact fun _ => by decide

/-- The token of an agent still names a borrower who is no longer assigned. -/
theorem access_outlives_assignment : ¬ Assigned ([.assignBorrowerToAgent "agent" "borrower",
    .generateTokenPair "agent",.removeBorrowerFromAgent "agent" "borrower",
    .arrive () false "agent" ["borrower"] "borrower",.enrichAssignedBorrowers (),
    .decide ()].foldl (step fun _ => .agent) noRequests) := by
  intro h
  have hm := h () ⟨"agent",.agent,["borrower"]⟩ "borrower" rfl rfl (by decide)
  revert hm
  decide

end DukaPay.Backend.Tenants
