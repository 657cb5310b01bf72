import Mathlib.Data.List.Basic
import Mathlib.Data.List.Induction

/-! A client stands in the set of its address or of the admins, and holds a slot of its user. -/
namespace DukaPay.Backend.EventStream
open List

/-- `stream` is the address whose set has the client, or nothing for `adminClients`. -/
structure ClientInfo where
  stream : Option String
  res : Nat
  userKey : String
  deriving DecidableEq

/-- `borrowers` are the keys of `borrowerClients`; a user without an entry has no clients. -/
structure Registry where
  borrowers : List String := []
  clients : List ClientInfo := []
  userClients : String → List Nat := fun _ => []

def maxConnectionsPerUser : Nat := 3

inductive Call
  | subscribe (c : ClientInfo)
  | unsubscribe (c : ClientInfo)
  | heartbeat (fails : ClientInfo → Bool)
  | broadcast (address : Option String) (fails : ClientInfo → Bool)

/-- An event without an address, or with an empty one, goes to the admins only. -/
abbrev ClientInfo.Receives (address : Option String) (c : ClientInfo) : Prop :=
  c.stream = none ∨ c.stream = address ∧ address ≠ some ""

namespace Registry
variable (s : Registry) (c : ClientInfo)

def getUserConnectionCount (userKey : String) : Nat := (s.userClients userKey).length

def canOpenConnection (userKey : String) : Bool :=
  s.getUserConnectionCount userKey < maxConnectionsPerUser

def registerUserClient : String → List Nat :=
  let set := s.userClients c.userKey
  Function.update s.userClients c.userKey (if c.res ∈ set then set else set ++ [c.res])

def unregisterUserClient : String → List Nat :=
  Function.update s.userClients c.userKey ((s.userClients c.userKey).filter (· ≠ c.res))

/-- Both `subscribeAddress` and `subscribeAll`. -/
def subscribe : Registry where
  borrowers := s.borrowers ++ c.stream.toList.filter (· ∉ s.borrowers)
  clients := s.clients ++ [c]
  userClients := s.registerUserClient c

/-- The function that a subscription returns. -/
def unsubscribe : Registry where
  borrowers := s.borrowers.filter fun a =>
    c.stream ≠ some a ∨ ∃ c' ∈ s.clients.filter (· ≠ c), c'.stream = some a
  clients := s.clients.filter (· ≠ c)
  userClients := s.unregisterUserClient c

def removeClient : Registry where
  borrowers := s.borrowers.filter fun a => ∃ c' ∈ s.clients.filter (· ≠ c), c'.stream = some a
  clients := s.clients.filter (· ≠ c)
  userClients := s.unregisterUserClient c

def step : Call → Registry
  | .subscribe c => s.subscribe c
  | .unsubscribe c => s.unsubscribe c
  | .heartbeat fails => (s.clients.filter fails).foldl removeClient s
  | .broadcast address fails =>
    -- the slots and an empty set of the address are left as they are
    { s with clients := s.clients.filter fun c => ¬ (c.Receives address ∧ fails c = true) }

/-- Every user has as many slots taken as clients, and no borrower has an empty set. -/
def Exact : Prop :=
  (∀ user, s.getUserConnectionCount user = s.clients.countP (·.userKey = user)) ∧
    ∀ a ∈ s.borrowers, ∃ c ∈ s.clients, c.stream = some a

end Registry

def run (calls : List Call) : Registry := calls.foldl Registry.step {}

/-- A response is used for one subscription, and only what was subscribed is unsubscribed. -/
def Proper (calls : List Call) : Prop :=
  ∀ p c, (p ++ [.subscribe c] <+: calls → ∀ c', .subscribe c' ∈ p → c'.res ≠ c.res) ∧
    (p ++ [.unsubscribe c] <+: calls → .subscribe c ∈ p)

/-- No write of a broadcast fails. -/
def Delivered (calls : List Call) : Prop :=
  ∀ p address fails, p ++ [.broadcast address fails] <+: calls →
    ∀ c ∈ (run p).clients, c.Receives address → fails c = false

/-- The slots of a user are the responses of its clients, and a response tells its client. -/
structure Registry.Kept (issued : ClientInfo → Prop) (s : Registry) : Prop where
  mem : ∀ c ∈ s.clients, issued c
  unique : ∀ c c', issued c → issued c' → c.res = c'.res → c = c'
  slots : ∀ user, s.userClients user = (s.clients.filter (·.userKey = user)).map (·.res)
  inhabited : ∀ a ∈ s.borrowers, ∃ c ∈ s.clients, c.stream = some a

namespace Registry.Kept
variable {issued : ClientInfo → Prop} {s : Registry} {c : ClientInfo} (h : s.Kept issued)
  {address : Option String} {fails : ClientInfo → Bool}

include h

lemma exact : s.Exact :=
  ⟨fun user => by rw [getUserConnectionCount,h.slots,length_map,countP_eq_length_filter],
    h.inhabited⟩

lemma subscribe (hn : ∀ c', issued c' → c'.res ≠ c.res) :
    (s.subscribe c).Kept fun c' => issued c' ∨ c' = c where
  mem c' hc := (mem_append.mp hc).imp (h.mem c') mem_singleton.mp
  unique := by
    rintro c₁ c₂ (h₁ | rfl) (h₂ | rfl) he
    · exact h.unique c₁ c₂ h₁ h₂ he
    · exact absurd he (hn c₁ h₁)
    · exact absurd he.symm (hn c₂ h₂)
    · rfl
  slots user := by
    have hr : c.res ∉ s.userClients c.userKey := by
      intro hr
      rw [h.slots] at hr
      obtain ⟨c',hc,he⟩ := mem_map.mp hr
      exact hn c' (h.mem c' (mem_filter.mp hc).1) he
    rw [Registry.subscribe,registerUserClient,if_neg hr]
    by_cases hu : c.userKey = user
    · subst hu
      simp [h.slots]
    · simp [Function.update_of_ne (Ne.symm hu),h.slots,hu]
  inhabited a ha := by
    rcases mem_append.mp ha with ha | ha
    · obtain ⟨c',hc,he⟩ := h.inhabited a ha
      exact ⟨c',mem_append_left _ hc,he⟩
    · exact ⟨c,mem_append_right _ (mem_singleton_self c),Option.mem_toList.mp (mem_filter.mp ha).1⟩

lemma slots_unregister (hc : issued c) (user) : s.unregisterUserClient c user =
    ((s.clients.filter (· ≠ c)).filter (·.userKey = user)).map (·.res) := by
  rw [unregisterUserClient,filter_filter]
  by_cases hu : c.userKey = user
  · subst hu
    rw [Function.update_self,h.slots,filter_map,filter_filter]
    refine congrArg _ (filter_congr fun c' hc' => ?_)
    have he : c'.res = c.res ↔ c' = c := ⟨h.unique c' c (h.mem c' hc') hc,fun he => congrArg _ he⟩
    simp [he,Bool.and_comm]
  rw [Function.update_of_ne (Ne.symm hu),h.slots]
  refine congrArg _ (filter_congr fun c' _ => ?_)
  have he : c'.userKey = user → c' ≠ c := fun hk he => hu (he ▸ hk)
  simpa using he

lemma unsubscribe (hc : issued c) : (s.unsubscribe c).Kept issued where
  mem c' hc' := h.mem c' (mem_filter.mp hc').1
  unique := h.unique
  slots := h.slots_unregister hc
  inhabited a ha := by
    obtain ⟨ha,hs⟩ := mem_filter.mp ha
    rcases of_decide_eq_true hs with hs | hs
    · obtain ⟨c',hc',he⟩ := h.inhabited a ha
      have hn : c' ≠ c := fun e => hs (e ▸ he)
      exact ⟨c',mem_filter.mpr ⟨hc',decide_eq_true hn⟩,he⟩
    · exact hs

lemma removeClient (hc : issued c) : (s.removeClient c).Kept issued :=
  { h.unsubscribe hc with inhabited := fun _ ha => of_decide_eq_true (mem_filter.mp ha).2 }

lemma heartbeat {cs : List ClientInfo} (hcs : ∀ c ∈ cs, issued c) :
    (cs.foldl Registry.removeClient s).Kept issued := by
  induction cs generalizing s with
  | nil => exact h
  | cons c cs ih =>
    exact ih (h.removeClient (hcs c mem_cons_self)) fun c' hc => hcs c' (mem_cons_of_mem _ hc)

/-- A client that a broadcast drops keeps its slot. -/
lemma delivered_of_exact (he : (s.step (.broadcast address fails)).Exact) :
    ∀ c ∈ s.clients, c.Receives address → fails c = false := by
  intro c hc hr
  have hn := he.1 c.userKey
  have ho := h.exact.1 c.userKey
  simp only [getUserConnectionCount,step,countP_eq_length_filter] at hn ho
  rw [ho,filter_comm] at hn
  simpa [hr] using length_filter_eq_length_iff.mp hn.symm c (mem_filter.mpr ⟨hc,by simp⟩)

end Registry.Kept

section
variable {p calls : List Call}

lemma Proper.mono (h : Proper calls) (hp : p <+: calls) : Proper p := fun q c =>
  ⟨fun hq => (h q c).1 (hq.trans hp),fun hq => (h q c).2 (hq.trans hp)⟩

lemma Delivered.mono (h : Delivered calls) (hp : p <+: calls) : Delivered p :=
  fun q a f hq => h q a f (hq.trans hp)

lemma kept_run (h : Proper calls) (hd : Delivered calls) :
    (run calls).Kept fun c => .subscribe c ∈ calls := by
  induction calls using reverseRecOn with
  | nil => constructor <;> simp [run]
  | append_singleton p call ih =>
    have hp : p <+: p ++ [call] := prefix_append ..
    have hk := ih (h.mono hp) (hd.mono hp)
    rw [run,foldl_append,← run]
    cases call with
    | subscribe c => simpa [Registry.step] using hk.subscribe ((h p c).1 prefix_rfl)
    | unsubscribe c => simpa [Registry.step] using hk.unsubscribe ((h p c).2 prefix_rfl)
    | heartbeat f =>
      simpa [Registry.step] using hk.heartbeat fun c hc => hk.mem c (mem_filter.mp hc).1
    | broadcast a f =>
      have hs : (run p).step (.broadcast a f) = run p := by
        rw [Registry.step,filter_eq_self.mpr]
        intro c hc
        simpa [imp_iff_not_or] using hd p a f prefix_rfl c hc
      simpa [hs] using hk

end

/-- **Connection slots**: they are exact after every call as long as no write of a broadcast fails,
whatever fails in the heartbeats, and the first write that fails makes them wrong. -/
theorem slots_exact_iff (calls : List Call) (h : Proper calls) :
    (∀ p, p <+: calls → (run p).Exact) ↔ Delivered calls := by
  constructor
  · intro he
    induction calls using reverseRecOn with
    | nil => simp [Delivered]
    | append_singleton p call ih =>
      have hp : p <+: p ++ [call] := prefix_append ..
      have hd := ih (h.mono hp) fun q hq => he q (hq.trans hp)
      intro q a f hq
      rcases prefix_concat_iff.mp hq with hl | hl
      · -- nothing was lost before, so the slots were right and a lost client shows
        have hx := he _ hq
        obtain ⟨rfl,-⟩ := append_inj' hl rfl
        rw [run,foldl_append] at hx
        exact (kept_run (h.mono hp) hd).delivered_of_exact hx
      · exact hd q a f hl
  · intro hd p hp
    exact (kept_run (h.mono hp) (hd.mono hp)).exact

/-- The first client of a user, and an event that does not reach it. -/
def lost : List Call :=
  [.subscribe ⟨some "G",1,"u"⟩,.broadcast (some "G") fun _ => true]

theorem lost_keeps_slot : Proper lost ∧ (run lost).clients = [] ∧
    (run lost).getUserConnectionCount "u" = 1 ∧ (run lost).borrowers = ["G"] := by
  refine ⟨fun p c => ?_,by decide,by decide,by decide⟩
  rcases p with _ | ⟨_,_ | _⟩ <;> simp [lost]

/-- An admin whose heartbeat fails, and two clients of one address: a broadcast reaches both, and
one of them unsubscribes. -/
def served : List Call :=
  [.subscribe ⟨none,1,"u"⟩,.subscribe ⟨some "G",2,"v"⟩,.subscribe ⟨some "G",3,"v"⟩,
    .heartbeat fun c => c.res == 1,.broadcast (some "G") fun c => c.res == 1,
    .unsubscribe ⟨some "G",2,"v"⟩]

lemma proper_served : Proper served := by
  intro p c
  rcases p with _ | ⟨_,_ | ⟨_,_ | ⟨_,_ | ⟨_,_ | ⟨_,_ | _⟩⟩⟩⟩⟩ <;> simp [served]
  · rintro rfl rfl c' hc
    cases hc
    decide
  · rintro rfl rfl rfl c' (hc | hc) <;> cases hc <;> decide
  · rintro rfl rfl rfl rfl rfl rfl
    simp

theorem slots_exact_served : (∀ p, p <+: served → (run p).Exact) ∧
    (run served).clients = [⟨some "G",3,"v"⟩] := by
  refine ⟨(slots_exact_iff served proper_served).mpr fun p address fails hp => ?_,by decide⟩
  rcases p with _ | ⟨_,_ | ⟨_,_ | ⟨_,_ | ⟨_,_ | ⟨_,_ | _⟩⟩⟩⟩⟩ <;> simp [served] at hp
  obtain ⟨rfl,rfl,rfl,rfl,rfl,rfl⟩ := hp
  decide

end DukaPay.Backend.EventStream
