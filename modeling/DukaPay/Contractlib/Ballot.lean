import DukaPay.Contractlib.History
import DukaPay.Contractlib.Outcome
import DukaPay.Contractlib.Storage

/-! A decision that needs several members is put to a ballot: it is opened on certain terms, members
approve it one by one, and it is closed. -/
namespace Contractlib
open List

def Quorum {A : Type*} (members : List A) (threshold : Nat) (Approved : A → Prop) : Prop :=
  ∃ voters : List A, voters.Nodup ∧ voters ⊆ members ∧ threshold ≤ voters.length ∧
    ∀ a ∈ voters, Approved a

section
variable {A B : Type*}

/-- **Counting entries**: a map of approvals that only has members as keys, each of whom approved,
holds a quorum when it has enough entries. -/
lemma quorum_of_approvals {apvs : Storage A B} {mems thr Approved} (hm : ∀ a ∈ apvs.keys, a ∈ mems)
    (hc : thr ≤ apvs.entries.length) (ha : ∀ a ∈ apvs.keys, Approved a) :
    Quorum mems thr Approved := by
  refine ⟨apvs.keys,apvs.keys_nodup,hm,?_,ha⟩
  rwa [AList.keys,List.keys,length_map]

lemma mem_keys_insert [DecidableEq A] {apvs : Storage A B} {a a' b} :
    a' ∈ (apvs.insert a b).keys ↔ a' = a ∨ a' ∈ apvs.keys := by
  rw [← AList.mem_keys,AList.mem_insert,AList.mem_keys]

end

def addMember {ε A : Type} [DecidableEq A] (e : ε) (seen : List A) (a : A) : Except ε (List A) := do
  ensure (a ∉ seen) e
  pure (seen ++ [a])

/-- The members in the order they are listed, failing with `e` on the first that was listed before. -/
def distinctMembers {ε A : Type} [DecidableEq A] (e : ε) (members : List A) : Except ε (List A) :=
  members.foldlM (addMember e) []

lemma foldlM_addMember_eq_ok {ε A : Type} [DecidableEq A] {e : ε} {mems seen distinct : List A} :
    mems.foldlM (addMember e) seen = .ok distinct ↔
    mems.Nodup ∧ (∀ a ∈ mems, a ∉ seen) ∧ seen ++ mems = distinct := by
  induction mems generalizing seen with
  | nil => simp [pure_eq_ok]
  | cons a mems ih =>
    have hs : ∀ seen', addMember e seen a = .ok seen' ↔ a ∉ seen ∧ seen ++ [a] = seen' := by
      intro seen'
      simp only [addMember,bind_eq_ok,ensure_eq_ok,Unique.exists_iff,pure_eq_ok]
    simp only [foldlM_cons,bind_eq_ok,hs,ih,nodup_cons,forall_mem_cons]
    constructor
    · rintro ⟨_,⟨ha,rfl⟩,hn,hf,rfl⟩
      simp only [mem_append,mem_singleton,not_or] at hf
      refine ⟨⟨fun hm => (hf a hm).2 rfl,hn⟩,⟨ha,fun x hx => (hf x hx).1⟩,?_⟩
      rw [append_assoc,singleton_append]
    · rintro ⟨⟨ht,hn⟩,⟨ha,hf⟩,rfl⟩
      refine ⟨seen ++ [a],⟨ha,rfl⟩,hn,fun x hx hm => ?_,?_⟩
      · obtain hm | hm := mem_append.mp hm
        · exact hf x hx hm
        · exact ht (mem_singleton.mp hm ▸ hx)
      · rw [append_assoc,singleton_append]

lemma distinctMembers_eq_ok {ε A : Type} [DecidableEq A] {e : ε} {mems distinct : List A} :
    distinctMembers e mems = .ok distinct ↔ mems.Nodup ∧ mems = distinct := by
  rw [distinctMembers,foldlM_addMember_eq_ok,nil_append]
  simp

structure Ballot (T A : Type*) where
  id : Nat
  terms : T
  approvals : Storage A Bool

/-- What a call does to the slot that holds a ballot, if it may open ballots and approve as stated. -/
inductive BallotMove {T A : Type*} [DecidableEq A] (Opens : Nat → T → Prop)
    (Approves : Nat → T → A → Prop) : Option (Ballot T A) → Option (Ballot T A) → Prop
  | kept (slot : Option (Ballot T A)) : BallotMove Opens Approves slot slot
  | opened (slot : Option (Ballot T A)) (id : Nat) (terms : T) (h : Opens id terms) :
    BallotMove Opens Approves slot (some ⟨id,terms,∅⟩)
  | approved (b : Ballot T A) (a : A) (h : Approves b.id b.terms a) :
    BallotMove Opens Approves (some b) (some { b with approvals := b.approvals.insert a true })
  | closed (slot : Option (Ballot T A)) : BallotMove Opens Approves slot none

structure BallotBox {State Call Fault : Type*} (S : Transactional State Call Fault)
    (T A : Type*) [DecidableEq A] where
  slot : State → Option (Ballot T A)
  Opens : State → Call → Nat → T → Prop
  Approves : State → Call → Nat → T → A → Prop
  Valid : State → Prop
  valid_step : ∀ s c s', Valid s → S.exec c s = .ok s' → Valid s'
  move : ∀ s c s', Valid s → S.exec c s = .ok s' →
    BallotMove (Opens s c) (Approves s c) (slot s) (slot s')

namespace BallotBox
variable {State Call Fault : Type*} {S : Transactional State Call Fault} {T A : Type*}
  [DecidableEq A] (B : BallotBox S T A)

def Holds (id : Nat) (terms : T) (s : State) : Prop :=
  ∃ b, B.slot s = some b ∧ b.id = id ∧ b.terms = terms

variable {B} {s : State} {cs : List Call} {b : Ballot T A}

lemma valid_run (hs : B.Valid s) (cs) : B.Valid (S.run s cs) :=
  Transactional.run_induction (fun s c s' => B.valid_step s c s') hs cs

lemma exists_opening (hs : B.Valid s) (hl : B.slot s = none) (hb : B.slot (S.run s cs) = some b) :
    ∃ t c t' rest, S.Returned s cs t c t' rest ∧ B.Opens t c b.id b.terms ∧
    B.slot t' = some ⟨b.id,b.terms,∅⟩ ∧ S.Throughout (B.Holds b.id b.terms) t' rest := by
  have ht : ¬ B.Holds b.id b.terms s := by
    rintro ⟨b',hb',-⟩
    rw [hl] at hb'
    cases hb'
  obtain ⟨t,c,t',rest,hr,hf,ha⟩ := Transactional.exists_last_change ht ⟨b,hb,rfl,rfl⟩
  obtain ⟨b',hb',hd,htr⟩ := ha.head
  have hm := B.move t c t' (hr.invariant (valid_run hs)) hr.exec
  refine ⟨t,c,t',rest,hr,?_⟩
  generalize ho : B.slot t = old at hm
  generalize hw : B.slot t' = new at hm hb'
  -- only opening makes the ballot appear: what is kept or approved was there before
  cases hm with
  | kept => exact absurd ⟨b',ho.trans hb',hd,htr⟩ hf
  | opened _ id terms h =>
    cases hb'
    cases hd
    cases htr
    exact ⟨h,rfl,ha⟩
  | approved b0 =>
    cases hb'
    exact absurd ⟨b0,ho,hd,htr⟩ hf
  | closed => cases hb'

lemma exists_approval (hs : B.Valid s) {id terms} (hl : B.slot s = some ⟨id,terms,∅⟩)
    (hb : B.slot (S.run s cs) = some b) {a} (ha : a ∈ b.approvals.keys) : ∃ t c t' rest,
    S.Returned s cs t c t' rest ∧ ∃ b0, B.slot t = some b0 ∧ B.Approves t c b0.id b0.terms a := by
  have ht : ¬ ∃ b', B.slot s = some b' ∧ a ∈ b'.approvals.keys := by
    rintro ⟨b',hb',hm⟩
    rw [hl] at hb'
    cases hb'
    cases hm
  obtain ⟨t,c,t',rest,hr,hbf,hf⟩ := Transactional.exists_last_change
    (J := fun s => ∃ b', B.slot s = some b' ∧ a ∈ b'.approvals.keys) ht ⟨b,hb,ha⟩
  obtain ⟨b',hb',hm⟩ := hf.head
  have hv := B.move t c t' (hr.invariant (valid_run hs)) hr.exec
  refine ⟨t,c,t',rest,hr,?_⟩
  generalize ho : B.slot t = old at hv
  generalize hw : B.slot t' = new at hv hb'
  cases hv with
  | kept => exact absurd ⟨b',ho.trans hb',hm⟩ hbf
  | opened =>
    cases hb'
    cases hm
  | approved b0 a' h =>
    cases hb'
    obtain rfl | hm := mem_keys_insert.mp hm
    · exact ⟨b0,rfl,h⟩
    · exact absurd ⟨b0,ho,hm⟩ hbf
  | closed => cases hb'

/-- **The calls behind a ballot**: some call opened it, it has been in the slot since, and everyone
in its map of approvals has approved it since. -/
lemma history (hs : B.Valid s) (hl : B.slot s = none) (hb : B.slot (S.run s cs) = some b) :
    ∃ t c t' rest, S.Returned s cs t c t' rest ∧ B.Opens t c b.id b.terms ∧
    S.Throughout (B.Holds b.id b.terms) t' rest ∧ ∀ a ∈ b.approvals.keys, ∃ u d u' ltr,
    S.Returned t' rest u d u' ltr ∧ B.Approves u d b.id b.terms a := by
  obtain ⟨t,c,t',rest,hr,ho,hw,hh⟩ := exists_opening hs hl hb
  refine ⟨t,c,t',rest,hr,ho,hh,fun a ha => ?_⟩
  have ht' : B.Valid t' := B.valid_step t c t' (hr.invariant (valid_run hs)) hr.exec
  rw [hr.run_eq] at hb
  obtain ⟨u,d,u',ltr,hr',_,hb0,hp⟩ := exists_approval ht' hw hb ha
  -- where the approval was made, the slot held this ballot
  obtain ⟨⟨_,hb1,hd,ht⟩,-⟩ := hh.of_returned hr'
  rw [hb0] at hb1
  cases hb1
  rw [hd,ht] at hp
  exact ⟨u,d,u',ltr,hr',hp⟩

end BallotBox

end Contractlib
