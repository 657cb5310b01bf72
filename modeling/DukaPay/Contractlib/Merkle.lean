import Mathlib.Data.List.Basic

/-! The levels of a tree join neighbours until one node is left; a last node without a neighbour is
joined with itself. -/
namespace Contractlib.Merkle
open List
universe u
variable {D : Type u}

def pairs : List D → List (D × D)
  | [] => []
  | [l] => [(l,l)]
  | l :: r :: rest => (l,r) :: pairs rest

lemma length_pairs : ∀ level : List D, (pairs level).length = (level.length + 1) / 2
  | [] => by simp [pairs]
  | [_] => by simp [pairs]
  | _ :: _ :: rest => by
    simp only [pairs,length_cons,length_pairs rest]
    omega

lemma mem_of_mem_pairs : ∀ {level : List D} {p : D × D}, p ∈ pairs level → p.1 ∈ level ∧ p.2 ∈ level
  | [l],p,hp => by
    rw [mem_singleton.mp hp]
    exact ⟨mem_singleton_self l,mem_singleton_self l⟩
  | l :: r :: rest,p,hp => by
    rcases mem_cons.mp hp with rfl | hp
    · exact ⟨mem_cons_self ..,mem_cons_of_mem _ (mem_cons_self ..)⟩
    · obtain ⟨h1,h2⟩ := mem_of_mem_pairs hp
      exact ⟨mem_cons_of_mem _ (mem_cons_of_mem _ h1),mem_cons_of_mem _ (mem_cons_of_mem _ h2)⟩

lemma getElem?_pairs : ∀ {level : List D} {i : Nat} (h : i < level.length),
    (pairs level)[i / 2]? = some (if i % 2 = 0 then (level[i],level[i + 1]?.getD level[i])
      else (level[i - 1],level[i]))
  | [l],i,h => by
    obtain rfl : i = 0 := Nat.lt_one_iff.mp h
    rfl
  | l :: r :: rest,0,_ => rfl
  | l :: r :: rest,1,_ => rfl
  | l :: r :: rest,i + 2,h => by
    have hr : i < rest.length := by
      simp only [length_cons] at h
      omega
    have hd : (i + 2) / 2 = i / 2 + 1 := by omega
    rw [pairs,hd,getElem?_cons_succ,getElem?_pairs hr]
    have hm : (i + 2) % 2 = i % 2 := by omega
    rw [hm]
    split
    · rfl
    · next ho =>
      obtain ⟨k,rfl⟩ : ∃ k, i = k + 1 := ⟨i - 1,by omega⟩
      rfl

variable (node : D → D → D)

def nextLevel (level : List D) : List D := (pairs level).map fun p => node p.1 p.2

lemma length_nextLevel (level) : (nextLevel node level).length = (level.length + 1) / 2 := by
  rw [nextLevel,length_map,length_pairs]

def root (empty : D) : List D → D
  | [] => empty
  | [d] => d
  | l :: r :: rest => root empty (nextLevel node (l :: r :: rest))
termination_by level => level.length
decreasing_by
  rw [length_nextLevel]
  simp only [List.length_cons]
  omega

variable {level : List D} {empty current : D}

lemma root_of_one_lt (h : 1 < level.length) :
    root node empty level = root node empty (nextLevel node level) := by
  match level,h with
  | l :: r :: rest,_ => rw [root]

@[simp] lemma root_singleton (empty d) : root node empty [d] = d := by rw [root]

@[simp] lemma root_pair (empty l r) : root node empty [l,r] = node l r := by
  rw [root]
  exact root_singleton node empty _

def joins (level : List D) : List (D × D) :=
  if 1 < level.length then pairs level ++ joins (nextLevel node level) else []
termination_by level.length
decreasing_by
  rw [length_nextLevel]
  omega

@[simp] lemma joins_singleton (d) : joins node [d] = [] := by
  rw [joins]
  exact if_neg (Nat.lt_irrefl 1)

@[simp] lemma joins_pair (l r) : joins node [l,r] = [(l,r)] := by
  rw [joins,if_pos (by exact Nat.one_lt_two)]
  exact congrArg ((l,r) :: ·) (joins_singleton node _)

inductive Side
  | left
  | right
  deriving DecidableEq

structure Step (D : Type u) where
  side : Side
  sibling : D

def path (level : List D) (index : Nat) (h : index < level.length) : List (Step D) :=
  if 1 < level.length then
    let siblingIndex := if index % 2 = 0 then index + 1 else index - 1
    { side := if index % 2 = 0 then .right else .left
      sibling := level[siblingIndex]?.getD level[index] } ::
      path (nextLevel node level) (index / 2) (by rw [length_nextLevel]; omega)
  else []
termination_by level.length
decreasing_by
  rw [length_nextLevel]
  omega

def Step.pair (step : Step D) (current : D) : D × D :=
  (if step.side = .left then step.sibling else current,
    if step.side = .right then step.sibling else current)

def advance (current : D) (step : Step D) : D :=
  node (step.pair current).1 (step.pair current).2

def climb (current : D) (steps : List (Step D)) : D := steps.foldl (advance node) current

def visits (current : D) : List (Step D) → List (D × Step D)
  | [] => []
  | step :: steps => (current,step) :: visits (advance node current step) steps

variable {node}

lemma advance_sibling {i} (h : i < level.length) (h' : i / 2 < (nextLevel node level).length) :
    advance node level[i] {
      side := if i % 2 = 0 then .right else .left
      sibling := level[if i % 2 = 0 then i + 1 else i - 1]?.getD level[i] } =
      (nextLevel node level)[i / 2] := by
  have hp : (nextLevel node level)[i / 2]? = _ :=
    (getElem?_map ..).trans (congrArg (Option.map _) (getElem?_pairs h))
  rw [getElem?_eq_getElem h'] at hp
  rw [Option.some.inj hp,advance,Step.pair]
  by_cases he : i % 2 = 0
  · simp [he]
  · have hb : i - 1 < level.length := by omega
    simp [he,hb]

lemma climb_path (level : List D) (i) (h : i < level.length) :
    climb node level[i] (path node level i h) = root node empty level := by
  -- by induction on the height, the step up being that to the next level
  induction hn : level.length using Nat.strongRecOn generalizing level i with
  | _ n ih =>
    rw [path]
    by_cases hl : 1 < level.length
    · have hx : i / 2 < (nextLevel node level).length := by
        rw [length_nextLevel]
        omega
      rw [if_pos hl,root_of_one_lt node hl,climb,foldl_cons,advance_sibling h hx]
      refine ih _ ?_ (nextLevel node level) (i / 2) hx rfl
      rw [length_nextLevel]
      omega
    · rw [if_neg hl]
      obtain ⟨_,rfl⟩ := length_eq_one_iff.mp (by omega : level.length = 1)
      obtain rfl : i = 0 := Nat.lt_one_iff.mp h
      rw [root_singleton]
      rfl

variable (node) in
def InTree (leaves : List D) (d : D) : Prop :=
  d ∈ leaves ∨ ∃ p ∈ joins node leaves, d = node p.1 p.2

lemma joins_of_one_lt (h : 1 < level.length) :
    joins node level = pairs level ++ joins node (nextLevel node level) := by
  rw [joins,if_pos h]

lemma InTree.of_nextLevel {d} (hl : 1 < level.length)
    (h : InTree node (nextLevel node level) d) : InTree node level d := by
  rw [InTree,joins_of_one_lt hl]
  rcases h with h | ⟨p,hp,he⟩
  · obtain ⟨p,hp,rfl⟩ := mem_map.mp h
    exact .inr ⟨p,mem_append_left _ hp,rfl⟩
  · exact .inr ⟨p,mem_append_right _ hp,he⟩

lemma root_inTree {lvs} (h : lvs ≠ []) : InTree node lvs (root node empty lvs) := by
  induction hn : lvs.length using Nat.strongRecOn generalizing lvs with
  | _ n ih =>
    have hp := length_pos_iff.mpr h
    by_cases hl : 1 < lvs.length
    · have hx : (nextLevel node lvs).length < n := by
        rw [length_nextLevel]
        omega
      have he : nextLevel node lvs ≠ [] := by
        rw [← length_pos_iff,length_nextLevel]
        omega
      rw [root_of_one_lt node hl]
      exact (ih _ hx he rfl).of_nextLevel hl
    · obtain ⟨d,rfl⟩ := length_eq_one_iff.mp (by omega : lvs.length = 1)
      rw [root_singleton]
      exact .inl (mem_singleton_self d)

lemma inTree_of_join {lvs p} (h : p ∈ joins node lvs) :
    InTree node lvs p.1 ∧ InTree node lvs p.2 := by
  induction hn : lvs.length using Nat.strongRecOn generalizing lvs with
  | _ n ih =>
    by_cases hl : 1 < lvs.length
    · rw [joins_of_one_lt hl,mem_append] at h
      rcases h with h | h
      · obtain ⟨h1,h2⟩ := mem_of_mem_pairs h
        exact ⟨Or.inl h1,.inl h2⟩
      have hx : (nextLevel node lvs).length < n := by
        rw [length_nextLevel]
        omega
      obtain ⟨h1,h2⟩ := ih _ hx h rfl
      exact ⟨h1.of_nextLevel hl,h2.of_nextLevel hl⟩
    · rw [joins,if_neg hl] at h
      exact absurd h not_mem_nil

variable {steps : List (Step D)}

lemma mem_of_mem_visits {v} (h : v ∈ visits node current steps) : v.2 ∈ steps := by
  induction steps generalizing current with
  | nil => exact absurd h not_mem_nil
  | cons step steps ih =>
    rcases mem_cons.mp h with rfl | h
    · exact mem_cons_self ..
    · exact mem_cons_of_mem _ (ih h)

lemma visits_forall {P : D → Prop} (hn : ∀ l r, P (node l r)) (hc : P current) :
    ∀ v ∈ visits node current steps, P v.1 := by
  induction steps generalizing current with
  | nil => exact fun v hv => absurd hv not_mem_nil
  | cons step steps ih =>
    rw [visits,forall_mem_cons]
    exact ⟨hc,ih (hn _ _)⟩

/-- **Soundness**: what passes from each joined node down to the one climbed from, passes from the
top of a climb down to where it began. -/
lemma of_climb {T : D → Prop}
    (hd : ∀ v ∈ visits node current steps, T (advance node v.1 v.2) → T v.1)
    (h : T (climb node current steps)) : T current := by
  induction steps generalizing current with
  | nil => exact h
  | cons step steps ih =>
    rw [visits,forall_mem_cons] at hd
    exact hd.1 (ih hd.2 h)

lemma pairs_inj : ∀ {l l' : List D}, l.length = l'.length → pairs l = pairs l' → l = l'
  | [],[],_,_ => rfl
  | [_],[_],_,h => by cases h; rfl
  | _ :: _ :: _,_ :: _ :: _,hl,h => by
    simp only [pairs,cons.injEq,Prod.mk.injEq] at h
    rw [h.1.1,h.1.2,pairs_inj (by simpa using hl) h.2]

lemma map_inj_of {A B : Type*} {f : A → B} : ∀ {l l' : List A},
    (∀ a ∈ l, ∀ b ∈ l', f a = f b → a = b) → l.map f = l'.map f → l = l'
  | [],[],_,_ => rfl
  | a :: l,b :: l',hf,h => by
    simp only [map_cons,cons.injEq,forall_mem_cons] at h hf
    rw [hf.1.1 h.1,map_inj_of (fun x hx => (hf.2 x hx).2) h.2]

/-- **Binding**: the root and the number of the leaves determine them, unless joins collide. -/
lemma eq_of_root_eq {l l' : List D} (hl : l.length = l'.length)
    (hj : ∀ p ∈ joins node l, ∀ q ∈ joins node l', node p.1 p.2 = node q.1 q.2 → p = q)
    (h : root node empty l = root node empty l') : l = l' := by
  induction hn : l.length using Nat.strongRecOn generalizing l l' with
  | _ n ih =>
    by_cases h1 : 1 < l.length
    · have h2 : 1 < l'.length := hl ▸ h1
      rw [root_of_one_lt node h1,root_of_one_lt node h2] at h
      simp only [joins_of_one_lt h1,joins_of_one_lt h2,forall_mem_append] at hj
      have he : nextLevel node l = nextLevel node l' := by
        refine ih _ ?_ ?_ (fun p hp => (hj.2 p hp).2) h rfl <;> simp only [length_nextLevel] <;> omega
      exact pairs_inj hl (map_inj_of (fun p hp => (hj.1 p hp).1) he)
    match l,l' with
    | [],[] => rfl
    | [_],[_] => simpa using h
    | _ :: _ :: _,_ => simp at h1

end Contractlib.Merkle
