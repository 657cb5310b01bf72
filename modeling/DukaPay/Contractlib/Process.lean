import Mathlib.Tactic.Common

/-! A process runs atomic steps on a shared state, one after the other, and asks the outside for
answers in between. -/
namespace Contractlib
universe u v w

/-- A program with results in `α`: it returns, fails, runs an atomic step on the state, or asks a
question. -/
inductive Process (ε ρ ι σ : Type) (α : Type u) : Type (max 1 u)
  | done (a : α)
  | throw (e : ε)
  | act {β : Type} (f : σ → Except ε (β × σ)) (next : β → Process ε ρ ι σ α)
  | ask (request : ρ) (next : ι → Process ε ρ ι σ α)

namespace Process
variable {ε ρ ι σ : Type} {α β : Type}

def bind (p : Process ε ρ ι σ α) (q : α → Process ε ρ ι σ β) : Process ε ρ ι σ β :=
  match p with
  | done a => q a
  | throw e => throw e
  | act f next => act f fun b => (next b).bind q
  | ask request next => ask request fun i => (next i).bind q

instance : Monad (Process ε ρ ι σ) where
  pure := done
  bind := bind

def step (f : σ → Except ε (α × σ)) : Process ε ρ ι σ α := act f done

def get (f : σ → α) : Process ε ρ ι σ α := step fun s => .ok (f s,s)

def modify (f : σ → Except ε σ) : Process ε ρ ι σ Unit := step fun s => (f s).map fun s' => ((),s')

def query (request : ρ) (answer : ι → α) : Process ε ρ ι σ α := ask request fun i => done (answer i)

def forEach (items : List β) (body : β → Process ε ρ ι σ Unit) : Process ε ρ ι σ Unit :=
  match items with
  | [] => done ()
  | item :: rest => (body item).bind fun _ => forEach rest body

end Process

inductive Move (ι η : Type)
  | proceed
  | answer (i : ι)
  | outside (e : η)
  | crash

structure System (ε ρ ι σ τ η : Type) where
  boot : Process ε ρ ι σ τ
  loop : τ → Process ε ρ ι σ τ
  interfere : η → σ → σ

abbrev Config (ε ρ ι σ τ : Type) := Process ε ρ ι σ τ × σ

namespace System
variable {ε ρ ι σ τ η : Type} (M : System ε ρ ι σ τ η)

def move : Move ι η → Config ε ρ ι σ τ → Config ε ρ ι σ τ
  | .proceed,(.done t,s) => (M.loop t,s)
  | .proceed,(.act f next,s) =>
    match f s with
    | .ok (b,s') => (next b,s')
    | .error e => (.throw e,s)
  | .answer i,(.ask _ next,s) => (next i,s)
  | .outside e,(p,s) => (p,M.interfere e s)
  | .crash,(_,s) => (M.boot,s)
  | _,c => c

def run (moves : List (Move ι η)) (c : Config ε ρ ι σ τ) : Config ε ρ ι σ τ :=
  moves.foldl (fun c m => M.move m c) c

end System

/-- What a process relies on and has to keep: the invariant of the state, what others may do to it
and what the answers to its questions may be. -/
structure Setting (ρ ι σ : Type) where
  inv : σ → Prop
  env : σ → σ → Prop
  answers : σ → ρ → ι → Prop
  env_refl : ∀ s, env s s
  env_trans : ∀ {s s' s''}, env s s' → env s' s'' → env s s''
  env_inv : ∀ {s s'}, env s s' → inv s → inv s'

namespace Setting
variable {ε ρ ι σ : Type} {α β : Type} (S : Setting ρ ι σ)

/-- Run from `s`, the program restores the invariant at each of its steps and its result satisfies
`post` if it returns, whatever others do and whatever the answers are. -/
def Ensures (post : α → σ → Prop) : Process ε ρ ι σ α → σ → Prop
  | .done a,s => ∀ s', S.env s s' → post a s'
  | .throw _,_ => True
  | .act f next,s => ∀ s', S.env s s' → ∀ b s'', f s' = .ok (b,s'') →
      S.inv s'' ∧ Ensures post (next b) s''
  | .ask request next,s => ∀ s', S.env s s' → ∀ i, S.answers s' request i →
      Ensures post (next i) s'

variable {S} {post : α → σ → Prop} {p : Process ε ρ ι σ α} {s s' : σ}

lemma Ensures.stable (h : S.Ensures post p s) (he : S.env s s') : S.Ensures post p s' := by
  cases p with
  | done => exact fun s'' hs'' => h s'' (S.env_trans he hs'')
  | throw => trivial
  | act => exact fun s'' hs'' => h s'' (S.env_trans he hs'')
  | ask => exact fun s'' hs'' => h s'' (S.env_trans he hs'')

lemma Ensures.mono {post'} (h : S.Ensures post p s)
    (hm : ∀ a s, post a s → post' a s) : S.Ensures post' p s := by
  induction p generalizing s with
  | done a => exact fun s' hs' => hm a s' (h s' hs')
  | throw => trivial
  | act f next ih =>
    intro s' hs' b s'' hf
    obtain ⟨hn,hx⟩ := h s' hs' b s'' hf
    exact ⟨hn,ih b hx⟩
  | ask req next ih => exact fun s' hs' i hi => ih i (h s' hs' i hi)

lemma ensures_bind {q : α → Process ε ρ ι σ β} {post : β → σ → Prop}
    (h : S.Ensures (fun a s => S.Ensures post (q a) s) p s) : S.Ensures post (p >>= q) s := by
  show S.Ensures post (p.bind q) s
  induction p generalizing s with
  | done => exact h s (S.env_refl s)
  | throw => trivial
  | act f next ih =>
    intro s' hs' b s'' hf
    obtain ⟨hn,hx⟩ := h s' hs' b s'' hf
    exact ⟨hn,ih b hx⟩
  | ask req next ih => exact fun s' hs' i hi => ih i (h s' hs' i hi)

lemma ensures_pure {a} (h : ∀ s', S.env s s' → post a s') :
    S.Ensures post (pure a : Process ε ρ ι σ α) s := h

lemma ensures_step {f} (h : ∀ s', S.env s s' → ∀ a s'', f s' = .ok (a,s'') →
    S.inv s'' ∧ ∀ s3, S.env s'' s3 → post a s3) :
    S.Ensures post (Process.step f : Process ε ρ ι σ α) s := h

lemma ensures_get {f} (hi : S.inv s)
    (h : ∀ s', S.env s s' → ∀ s'', S.env s' s'' → post (f s') s'') :
    S.Ensures post (Process.get f : Process ε ρ ι σ α) s := by
  refine ensures_step fun s' hs' a s'' hf => ?_
  cases hf
  exact ⟨S.env_inv hs' hi,h s' hs'⟩

lemma ensures_modify {f post}
    (h : ∀ s', S.env s s' → ∀ s'', f s' = .ok s'' → S.inv s'' ∧ ∀ s3, S.env s'' s3 → post () s3) :
    S.Ensures post (Process.modify f : Process ε ρ ι σ Unit) s := by
  refine ensures_step fun s' hs' a s'' hf => ?_
  cases hs1 : f s' with
  | error =>
    rw [hs1] at hf
    cases hf
  | ok =>
    rw [hs1] at hf
    cases hf
    exact h s' hs' _ hs1

lemma ensures_query {req a}
    (h : ∀ s', S.env s s' → ∀ i, S.answers s' req i → ∀ s'', S.env s' s'' → post (a i) s'') :
    S.Ensures post (Process.query req a : Process ε ρ ι σ α) s := h

lemma ensures_forEach {its} {body : β → Process ε ρ ι σ Unit}
    (P : List β → σ → Prop) (hs : ∀ its s s', S.env s s' → P its s → P its s')
    (hb : ∀ item rest s, P (item :: rest) s → S.Ensures (fun _ => P rest) (body item) s)
    (h : P its s) : S.Ensures (fun _ => P []) (Process.forEach its body) s := by
  induction its generalizing s with
  | nil => exact fun s' hs' => hs [] s s' hs' h
  | cons item rest ih => exact ensures_bind ((hb item rest s h).mono fun _ s' hs' => ih hs')

variable {inv : σ → Prop} {answers : σ → ρ → ι → Prop} {post : α → σ → Prop} {s : σ}

def alone (inv : σ → Prop) (answers : σ → ρ → ι → Prop) : Setting ρ ι σ where
  inv
  env s s' := s' = s
  answers
  env_refl _ := rfl
  env_trans h h' := h'.trans h
  env_inv h hinv := h ▸ hinv

lemma alone_pure {a} (h : post a s) :
    (alone inv answers).Ensures post (pure a : Process ε ρ ι σ α) s := by
  rintro s' rfl
  exact h

lemma alone_step {f} (h : ∀ a s', f s = .ok (a,s') → inv s' ∧ post a s') :
    (alone inv answers).Ensures post (Process.step f : Process ε ρ ι σ α) s := by
  refine ensures_step ?_
  rintro s' rfl a s'' hf
  refine ⟨(h a s'' hf).1,?_⟩
  rintro s3 rfl
  exact (h a s3 hf).2

lemma alone_get {f} (hi : inv s) (h : post (f s) s) :
    (alone inv answers).Ensures post (Process.get f : Process ε ρ ι σ α) s := by
  refine alone_step fun a s' hf => ?_
  cases hf
  exact ⟨hi,h⟩

lemma alone_modify {f post} (h : ∀ s', f s = .ok s' → inv s' ∧ post () s') :
    (alone inv answers).Ensures post (Process.modify f : Process ε ρ ι σ Unit) s := by
  refine ensures_modify ?_
  rintro s' rfl s'' hf
  refine ⟨(h s'' hf).1,?_⟩
  rintro s3 rfl
  exact (h s3 hf).2

lemma alone_query {req a} (h : ∀ i, answers s req i → post (a i) s) :
    (alone inv answers).Ensures post (Process.query req a : Process ε ρ ι σ α) s := by
  refine ensures_query ?_
  rintro s' rfl i hi s'' rfl
  exact h i hi

lemma alone_forEach {its} {body : β → Process ε ρ ι σ Unit} (P : List β → σ → Prop)
    (hb : ∀ item rest s, P (item :: rest) s →
    (alone inv answers).Ensures (fun _ => P rest) (body item) s) (h : P its s) :
    (alone inv answers).Ensures (fun _ => P []) (Process.forEach its body) s := by
  refine ensures_forEach P ?_ hb h
  rintro its s s' rfl hP
  exact hP

lemma alone_foldlM {γ : Type} {its} {body : γ → β → Process ε ρ ι σ γ} {acc}
    (P : List β → γ → σ → Prop) (hb : ∀ item rest acc s, P (item :: rest) acc s →
    (alone inv answers).Ensures (P rest) (body acc item) s) (h : P its acc s) :
    (alone inv answers).Ensures (P []) (its.foldlM body acc) s := by
  induction its generalizing acc s with
  | nil => exact alone_pure h
  | cons item rest ih =>
    rw [List.foldlM_cons]
    exact ensures_bind ((hb item rest acc s h).mono fun acc' s' hs' => ih hs')

end Setting

namespace System
variable {ε ρ ι σ τ η : Type} {M : System ε ρ ι σ τ η} {S : Setting ρ ι σ}

def Legal (M : System ε ρ ι σ τ η) (S : Setting ρ ι σ) : List (Move ι η) → Config ε ρ ι σ τ → Prop
  | [],_ => True
  | m :: moves,c =>
    (match m,c with
      | .answer i,(.ask request _,s) => S.answers s request i
      | .outside e,(_,s) => S.env s (M.interfere e s)
      | _,_ => True) ∧
    Legal M S moves (M.move m c)

def nextMove (reply : ρ → ι) : Config ε ρ ι σ τ → Move ι η
  | (.ask request _,_) => .answer (reply request)
  | _ => .proceed

def scripted (M : System ε ρ ι σ τ η) (reply : ρ → ι) : Nat → Config ε ρ ι σ τ → List (Move ι η)
  | 0,_ => []
  | n + 1,c => nextMove reply c :: M.scripted reply n (M.move (nextMove reply c) c)

lemma legal_scripted {rp} (h : ∀ s req, S.answers s req (rp req))
    (n c) : M.Legal S (M.scripted rp n c) c := by
  induction n generalizing c with
  | zero => trivial
  | succ n ih =>
    refine ⟨?_,ih _⟩
    obtain ⟨p,s⟩ := c
    cases p with
    | ask req => exact h s req
    | done => trivial
    | throw => trivial
    | act => trivial

variable {moves : List (Move ι η)}

lemma Legal.inv {inv inv' answers c}
    (h : M.Legal (.alone inv answers) moves c) : M.Legal (.alone inv' answers) moves c := by
  induction moves generalizing c with
  | nil => trivial
  | cons m moves ih => exact ⟨h.1,ih h.2⟩

/-- **Invariants along runs.** If the process, started afresh or at the head of its loop, restores
the invariant at each step, then every state of every run satisfies it. -/
lemma invariant_run {post} (hb : ∀ s, S.inv s → S.Ensures post M.boot s)
    (hp : ∀ t s, S.inv s → post t s → S.Ensures post (M.loop t) s) {c}
    (hl : Legal M S moves c) (hi : S.inv c.2) (hc : S.Ensures post c.1 c.2) :
    S.inv (M.run moves c).2 ∧ S.Ensures post (M.run moves c).1 (M.run moves c).2 := by
  induction moves generalizing c with
  | nil => exact ⟨hi,hc⟩
  | cons m moves ih =>
    obtain ⟨hm,hr⟩ := hl
    obtain ⟨p,s⟩ := c
    suffices hn : S.inv (M.move m (p,s)).2 ∧
        S.Ensures post (M.move m (p,s)).1 (M.move m (p,s)).2 from ih hr hn.1 hn.2
    cases m with
    | crash => exact ⟨hi,hb s hi⟩
    | outside => exact ⟨S.env_inv hm hi,hc.stable hm⟩
    | answer i =>
      cases p with
      | ask => exact ⟨hi,hc s (S.env_refl s) i hm⟩
      | done => exact ⟨hi,hc⟩
      | throw => exact ⟨hi,hc⟩
      | act => exact ⟨hi,hc⟩
    | proceed =>
      cases p with
      | done t => exact ⟨hi,hp t s hi (hc s (S.env_refl s))⟩
      | throw => exact ⟨hi,hc⟩
      | ask => exact ⟨hi,hc⟩
      | act f =>
        simp only [move]
        cases hf : f s with
        | error => exact ⟨hi,trivial⟩
        | ok res => exact hc s (S.env_refl s) res.1 res.2 hf

end System

end Contractlib
