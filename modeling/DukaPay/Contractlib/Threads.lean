import Mathlib.Tactic.Common

/-! Any number of threads run atomic statements on a shared state, in every interleaving. -/
namespace Contractlib
universe u

inductive Fault
  | none
  | lost
  | late
  deriving DecidableEq

/-- A program with results in `α` and errors in `ε`: it returns, fails, or runs a labelled atomic
statement on the state. -/
inductive Thread (ε ρ ι σ : Type) (α : Type u) : Type (max 1 u)
  | done (a : α)
  | fail (e : ε)
  | step {β : Type} (label : ρ) (f : ι → σ → Except ε β × σ) (next : β → Thread ε ρ ι σ α)

namespace Thread
variable {ε ρ ι σ : Type} {α β : Type}

def bind (p : Thread ε ρ ι σ α) (q : α → Thread ε ρ ι σ β) : Thread ε ρ ι σ β :=
  match p with
  | done a => q a
  | fail e => fail e
  | step label f next => step label f fun b => (next b).bind q

def resume {γ : Type u} (handle : ε → γ) (next : β → γ) : Except ε β → γ
  | .ok b => next b
  | .error e => handle e

def tryCatch (p : Thread ε ρ ι σ α) (handle : ε → Thread ε ρ ι σ α) : Thread ε ρ ι σ α :=
  match p with
  | done a => done a
  | fail e => handle e
  | step label f next =>
    step label (fun i s => (.ok (f i s).1,(f i s).2))
      (resume handle fun b => (next b).tryCatch handle)

instance : Monad (Thread ε ρ ι σ) where
  pure := done
  bind := bind

instance : MonadExceptOf ε (Thread ε ρ ι σ) where
  throw := fail
  tryCatch := tryCatch

def statement (label : ρ) (f : ι → σ → Except ε α × σ) : Thread ε ρ ι σ α := step label f done

def faulty (label : ρ) (fault : ι → Fault) (e : ε) (f : ι → σ → Except ε α × σ) :
    Thread ε ρ ι σ α :=
  statement label fun i s =>
    match fault i with
    | .none => f i s
    | .lost => (.error e,s)
    | .late => (.error e,(f i s).2)

def forEach (items : List β) (body : β → Thread ε ρ ι σ Unit) : Thread ε ρ ι σ Unit :=
  match items with
  | [] => done ()
  | item :: rest => (body item).bind fun _ => forEach rest body

def advance (i : ι) (s : σ) : Thread ε ρ ι σ α → Thread ε ρ ι σ α × σ
  | step _ f next =>
    match f i s with
    | (.ok b,s') => (next b,s')
    | (.error e,s') => (fail e,s')
  | p => (p,s)

def advances (answers : List ι) (p : Thread ε ρ ι σ α) (s : σ) : Thread ε ρ ι σ α × σ :=
  answers.foldl (fun (p,s) i => p.advance i s) (p,s)

def finish (answer : ρ → ι) : Thread ε ρ ι σ α → σ → Except ε α × σ
  | done a,s => (.ok a,s)
  | fail e,s => (.error e,s)
  | step label f next,s =>
    match f (answer label) s with
    | (.ok b,s') => (next b).finish answer s'
    | (.error e,s') => (.error e,s')

variable {answer : ρ → ι}

lemma finish_statement (label : ρ) (f : ι → σ → Except ε α × σ) (s : σ) :
    (statement label f).finish answer s = f (answer label) s := by
  rw [statement,finish]
  rcases f (answer label) s with ⟨_ | a,s'⟩ <;> rfl

lemma finish_bind (p) (q : α → Thread ε ρ ι σ β) (s : σ) :
    (p >>= q).finish answer s = match p.finish answer s with
      | (.ok a,s') => (q a).finish answer s'
      | (.error e,s') => (.error e,s') := by
  show (p.bind q).finish answer s = _
  induction p generalizing s with
  | done => rfl
  | fail => rfl
  | step label f next ih =>
    rw [bind,finish,finish]
    rcases f (answer label) s with ⟨_ | b,s'⟩
    · rfl
    · exact ih b s'

lemma finish_tryCatch (p) (ha : ε → Thread ε ρ ι σ α) (s : σ) :
    (MonadExcept.tryCatch p ha).finish answer s = match p.finish answer s with
      | (.ok a,s') => (.ok a,s')
      | (.error e,s') => (ha e).finish answer s' := by
  show (p.tryCatch ha).finish answer s = _
  induction p generalizing s with
  | done => rfl
  | fail => rfl
  | step label f next ih =>
    rw [tryCatch,finish,finish]
    rcases f (answer label) s with ⟨_ | b,s'⟩
    · rfl
    · exact ih b s'

def label? : Thread ε ρ ι σ α → Option ρ
  | step label _ _ => some label
  | _ => none

end Thread

inductive Turn (κ ι η : Type)
  | step (k : κ) (i : ι)
  | outside (e : η)

structure Pool (κ ε ρ ι σ : Type) (α : Type u) where
  threads : κ → Thread ε ρ ι σ α
  state : σ

namespace Pool
variable {κ ε ρ ι σ η : Type} {α : Type} [DecidableEq κ] (interfere : η → σ → σ)

def turn (c : Pool κ ε ρ ι σ α) : Turn κ ι η → Pool κ ε ρ ι σ α
  | .step k i =>
    let (p,s) := (c.threads k).advance i c.state
    ⟨fun j => if j = k then p else c.threads j,s⟩
  | .outside e => ⟨c.threads,interfere e c.state⟩

def run (turns : List (Turn κ ι η)) (c : Pool κ ε ρ ι σ α) : Pool κ ε ρ ι σ α :=
  turns.foldl (turn interfere) c

lemma run_append (turns turns') (c : Pool κ ε ρ ι σ α) :
    c.run interfere (turns ++ turns') = (c.run interfere turns).run interfere turns' :=
  List.foldl_append

lemma run_steps (k : κ) (as : List ι) (c : Pool κ ε ρ ι σ α) : c.run interfere (as.map (.step k)) =
    ⟨fun j => if j = k then ((c.threads k).advances as c.state).1 else c.threads j,
    ((c.threads k).advances as c.state).2⟩ := by
  induction as generalizing c with
  | nil =>
    have ht : c.threads = fun j => if j = k then c.threads k else c.threads j := by
      funext j
      split
      · next hj => rw [hj]
      · rfl
    exact congrArg (Pool.mk · c.state) ht
  | cons i as ih =>
    show (c.turn interfere (.step k i)).run interfere (as.map (.step k)) = _
    rw [ih]
    simp only [turn,if_true]
    congr 1
    funext j
    split <;> rfl

variable (permits : κ → σ → ρ → ι → Prop) (allows : σ → η → Prop)

def Permitted (c : Pool κ ε ρ ι σ α) : Turn κ ι η → Prop
  | .step k i => ∀ label ∈ (c.threads k).label?, permits k c.state label i
  | .outside e => allows c.state e

def Legal : List (Turn κ ι η) → Pool κ ε ρ ι σ α → Prop
  | [],_ => True
  | t :: turns,c => c.Permitted permits allows t ∧ Legal turns (c.turn interfere t)

variable {interfere permits allows} in
lemma Legal.mono {permits' : κ → σ → ρ → ι → Prop} {turns} {c : Pool κ ε ρ ι σ α}
    (h : Legal interfere permits allows turns c)
    (hp : ∀ k s label i, permits k s label i → permits' k s label i) :
    Legal interfere permits' allows turns c := by
  induction turns generalizing c with
  | nil => trivial
  | cons t turns ih =>
    refine ⟨?_,ih h.2⟩
    cases t with
    | step k i => exact fun label hl => hp k c.state label i (h.1 label hl)
    | outside => exact h.1

variable {interfere permits allows} in
lemma legal_of_forall (hp : ∀ k s label i, permits k s label i) (ha : ∀ s e, allows s e)
    (tns : List (Turn κ ι η)) (c : Pool κ ε ρ ι σ α) : Legal interfere permits allows tns c := by
  induction tns generalizing c with
  | nil => trivial
  | cons t tns ih =>
    refine ⟨?_,ih _⟩
    cases t with
    | step k i => exact fun label _ => hp k c.state label i
    | outside e => exact ha c.state e

instance [∀ k s label i, Decidable (permits k s label i)] [∀ s e, Decidable (allows s e)]
    (c : Pool κ ε ρ ι σ α) (t : Turn κ ι η) : Decidable (c.Permitted permits allows t) :=
  match t with
  | .step k i =>
    match h : (c.threads k).label? with
    | none => .isTrue fun label hlabel => by rw [h] at hlabel; cases hlabel
    | some label =>
      if hp : permits k c.state label i then
        .isTrue fun label' hlabel => by rw [h] at hlabel; cases hlabel; exact hp
      else .isFalse fun hall => hp (hall label h)
  | .outside e => inferInstanceAs (Decidable (allows c.state e))

instance decidableLegal [∀ k s label i, Decidable (permits k s label i)]
    [∀ s e, Decidable (allows s e)] : (turns : List (Turn κ ι η)) → (c : Pool κ ε ρ ι σ α) →
    Decidable (Legal interfere permits allows turns c)
  | [],_ => .isTrue trivial
  | t :: turns,c =>
    have := decidableLegal turns (c.turn interfere t)
    inferInstanceAs (Decidable (_ ∧ _))

end Pool

/-- The rules that the threads follow: the invariant of the state, what holds between two states of
a run, what each thread relies on between its statements, and which answers are permitted when. -/
structure Discipline (κ ρ ι σ : Type) where
  inv : σ → Prop
  guar : σ → σ → Prop
  rely : κ → σ → σ → Prop
  permits : κ → σ → ρ → ι → Prop
  guar_refl : ∀ s, guar s s
  guar_trans : ∀ {s s' s''}, guar s s' → guar s' s'' → guar s s''
  rely_refl : ∀ k s, rely k s s
  rely_trans : ∀ {k s s' s''}, rely k s s' → rely k s' s'' → rely k s s''

namespace Discipline
variable {κ ε ρ ι σ : Type} {α β : Type} (D : Discipline κ ρ ι σ) (k : κ)

structure Keeps (s s' : σ) : Prop where
  inv : D.inv s'
  guar : D.guar s s'
  rely : ∀ j, j ≠ k → D.rely j s s'

/-- Run from `s`, the thread keeps to the discipline at each of its statements; its result satisfies
`post` if it returns, and its error `epost` if it fails. -/
def Ensures (post : α → σ → Prop) (epost : ε → σ → Prop) : Thread ε ρ ι σ α → σ → Prop
  | .done a,s => ∀ s', D.rely k s s' → D.inv s' → post a s'
  | .fail e,s => ∀ s', D.rely k s s' → D.inv s' → epost e s'
  | .step label f next,s => ∀ s', D.rely k s s' → D.inv s' → ∀ i, D.permits k s' label i →
      D.Keeps k s' (f i s').2 ∧
      (∀ b, (f i s').1 = .ok b → Ensures post epost (next b) (f i s').2) ∧
      ∀ e, (f i s').1 = .error e → ∀ s'', D.rely k (f i s').2 s'' → D.inv s'' → epost e s''

/-- The thread ends in `post` if it returns, and in `epost` if it fails. -/
abbrev Leaves (post epost : σ → Prop) : Thread ε ρ ι σ α → σ → Prop :=
  D.Ensures k (fun _ => post) (fun _ => epost)

/-- The thread keeps to the discipline, whatever its result. -/
abbrev Safe : Thread ε ρ ι σ α → σ → Prop := D.Ensures k (fun _ _ => True) (fun _ _ => True)

variable {D k} {post : α → σ → Prop} {epost : ε → σ → Prop} {p : Thread ε ρ ι σ α} {s s' : σ}

lemma Ensures.stable (h : D.Ensures k post epost p s) (hr : D.rely k s s') :
    D.Ensures k post epost p s' := by
  cases p with
  | done => exact fun s'' hs'' => h s'' (D.rely_trans hr hs'')
  | fail => exact fun s'' hs'' => h s'' (D.rely_trans hr hs'')
  | step => exact fun s'' hs'' => h s'' (D.rely_trans hr hs'')

lemma Ensures.of_forall (h : ∀ s', D.rely k s s' → D.inv s' → D.Ensures k post epost p s') :
    D.Ensures k post epost p s := by
  cases p with
  | done => exact fun s' hs' hi => h s' hs' hi s' (D.rely_refl k s') hi
  | fail => exact fun s' hs' hi => h s' hs' hi s' (D.rely_refl k s') hi
  | step => exact fun s' hs' hi => h s' hs' hi s' (D.rely_refl k s') hi

lemma Ensures.mono {post' epost'}
    (h : D.Ensures k post epost p s) (ht : ∀ a s, D.inv s → post a s → post' a s)
    (hp : ∀ e s, D.inv s → epost e s → epost' e s) : D.Ensures k post' epost' p s := by
  induction p generalizing s with
  | done a => exact fun s' hs' hn => ht a s' hn (h s' hs' hn)
  | fail e => exact fun s' hs' hn => hp e s' hn (h s' hs' hn)
  | step label f next ih =>
    intro s' hs' hn i hi
    obtain ⟨hk,ho,hr⟩ := h s' hs' hn i hi
    exact ⟨hk,fun b hb => ih b (ho b hb),
      fun e he s'' hs'' hi'' => hp e s'' hi'' (hr e he s'' hs'' hi'')⟩

lemma ensures_bind {q : α → Thread ε ρ ι σ β} {post : β → σ → Prop}
    (h : D.Ensures k (fun a s => D.Ensures k post epost (q a) s) epost p s) :
    D.Ensures k post epost (p >>= q) s := by
  show D.Ensures k post epost (p.bind q) s
  induction p generalizing s with
  | done => exact .of_forall h
  | fail => exact h
  | step label f next ih =>
    intro s' hs' hn i hi
    obtain ⟨hk,ho,he⟩ := h s' hs' hn i hi
    exact ⟨hk,fun b hb => ih b (ho b hb),he⟩

lemma ensures_andThen {q : α → Thread ε ρ ι σ β} {post : β → σ → Prop} {any : α → σ → Prop}
    (hp : D.Ensures k any epost p s) (hq : ∀ a s, D.Ensures k post epost (q a) s) :
    D.Ensures k post epost (p >>= q) s :=
  ensures_bind (hp.mono (fun a s _ _ => hq a s) fun _ _ _ he => he)

lemma ensures_tryCatch {ha}
    (h : D.Ensures k post (fun e s => D.Ensures k post epost (ha e) s) p s) :
    D.Ensures k post epost (tryCatch p ha) s := by
  show D.Ensures k post epost (p.tryCatch ha) s
  induction p generalizing s with
  | done => exact h
  | fail => exact .of_forall h
  | step label f next ih =>
    rw [Thread.tryCatch]
    intro s' hs' hn i hi
    obtain ⟨hk,ho,her⟩ := h s' hs' hn i hi
    refine ⟨hk,fun r hr => ?_,fun e he => ?_⟩
    · cases hr
      cases hrs : (f i s').1 with
      | ok b => exact ih b (ho b hrs)
      | error e => exact .of_forall (her e hrs)
    · cases he

lemma ensures_pure {a} (h : ∀ s', D.rely k s s' → D.inv s' → post a s') :
    D.Ensures k post epost (pure a : Thread ε ρ ι σ α) s := h

lemma ensures_throw {e} (h : ∀ s', D.rely k s s' → D.inv s' → epost e s') :
    D.Ensures k post epost (throw e : Thread ε ρ ι σ α) s := h

variable {label : ρ} {f : ι → σ → Except ε α × σ} {fault : ι → Fault} {P : σ → Prop}

lemma ensures_statement (h : ∀ s', D.rely k s s' → D.inv s' → ∀ i, D.permits k s' label i →
    D.Keeps k s' (f i s').2 ∧ ∀ s'', D.rely k (f i s').2 s'' → D.inv s'' →
    (∀ a, (f i s').1 = .ok a → post a s'') ∧ ∀ e, (f i s').1 = .error e → epost e s'') :
    D.Ensures k post epost (Thread.statement label f) s := by
  intro s' hs' hn i hi
  obtain ⟨hk,hf⟩ := h s' hs' hn i hi
  exact ⟨hk,fun a ha s'' hs'' hi'' => (hf s'' hs'' hi'').1 a ha,
    fun e he s'' hs'' hi'' => (hf s'' hs'' hi'').2 e he⟩

lemma safe_statement (h : ∀ s i, D.inv s → D.permits k s label i → D.Keeps k s (f i s).2) :
    D.Safe k (Thread.statement label f) s :=
  ensures_statement fun s' _ hn i hi =>
    ⟨h s' i hn hi,fun _ _ _ => ⟨fun _ _ => trivial,fun _ _ => trivial⟩⟩

lemma safe_andThen {q : α → Thread ε ρ ι σ β} (hp : D.Safe k p s) (hq : ∀ a s, D.Safe k (q a) s) :
    D.Safe k (p >>= q) s := ensures_andThen hp hq

lemma ensures_faulty {e} (he : ∀ e s, epost e s)
    (h : ∀ s', D.rely k s s' → D.inv s' → ∀ i, D.permits k s' label i →
    D.Keeps k s' (f i s').2 ∧ ∀ s'', D.rely k (f i s').2 s'' → D.inv s'' →
    ∀ a, (f i s').1 = .ok a → post a s'') :
    D.Ensures k post epost (Thread.faulty label fault e f) s := by
  refine ensures_statement fun s' hs' hn i hi => ?_
  obtain ⟨hk,ho⟩ := h s' hs' hn i hi
  cases fault i with
  | none => exact ⟨hk,fun s'' hs'' hi'' => ⟨ho s'' hs'' hi'',fun e _ => he e s''⟩⟩
  | lost =>
    exact ⟨⟨hn,D.guar_refl s',fun j _ => D.rely_refl j s'⟩,
      fun s'' _ _ => ⟨fun a ha => (by cases ha),fun e _ => he e s''⟩⟩
  | late => exact ⟨hk,fun s'' _ _ => ⟨fun a ha => (by cases ha),fun e _ => he e s''⟩⟩

variable (D k) in
def Stable (P : σ → Prop) : Prop := ∀ s s', D.rely k s s' → P s → P s'

lemma ensures_statement_stable {Q} (hP : D.Stable k P) (hQ : D.Stable k Q)
    (h : ∀ s i, D.inv s → P s → D.permits k s label i → D.Keeps k s (f i s).2 ∧ Q (f i s).2)
    (hs : P s) : D.Ensures k (fun _ => Q) (fun _ => Q) (Thread.statement label f) s := by
  refine ensures_statement fun s' hs' hn i hi => ?_
  obtain ⟨hk,hq⟩ := h s' i hn (hP s s' hs' hs) hi
  exact ⟨hk,fun s'' hs'' _ => ⟨fun _ _ => hQ _ s'' hs'' hq,fun _ _ => hQ _ s'' hs'' hq⟩⟩

lemma ensures_faulty_stable {e} (hP : D.Stable k P)
    (h : ∀ s i, D.inv s → P s → D.permits k s label i → D.Keeps k s (f i s).2 ∧ P (f i s).2)
    (hs : P s) : D.Ensures k (fun _ => P) (fun _ => P) (Thread.faulty label fault e f) s := by
  refine ensures_statement_stable hP hP (fun s' i hn hs' hi => ?_) hs
  cases fault i with
  | none => exact h s' i hn hs' hi
  | lost => exact ⟨⟨hn,D.guar_refl s',fun j _ => D.rely_refl j s'⟩,hs'⟩
  | late => exact h s' i hn hs' hi

lemma ensures_forEach {its} {body : β → Thread ε ρ ι σ Unit}
    (P : List β → σ → Prop) (hs : ∀ its, D.Stable k (P its))
    (hb : ∀ item rest s, P (item :: rest) s → D.Ensures k (fun _ => P rest) epost (body item) s)
    (h : P its s) : D.Ensures k (fun _ => P []) epost (Thread.forEach its body) s := by
  induction its generalizing s with
  | nil => exact fun s' hs' _ => hs [] s s' hs' h
  | cons item rest ih =>
    exact ensures_bind ((hb item rest s h).mono (fun _ s' _ hs' => ih hs') fun _ _ _ he => he)

lemma Ensures.advance {i} (h : D.Ensures k post epost p s) (hn : D.inv s)
    (hi : ∀ label ∈ p.label?, D.permits k s label i) : D.Keeps k s (p.advance i s).2 ∧
    D.Ensures k post epost (p.advance i s).1 (p.advance i s).2 := by
  have hs : D.Keeps k s s := ⟨hn,D.guar_refl s,fun j _ => D.rely_refl j s⟩
  cases p with
  | done => exact ⟨hs,h⟩
  | fail => exact ⟨hs,h⟩
  | step label f =>
    obtain ⟨hk,ho,he⟩ := h s (D.rely_refl k s) hn i (hi label rfl)
    rw [Thread.advance]
    cases hf : f i s with
    | mk r =>
      rw [hf] at hk ho he
      cases r with
      | ok b => exact ⟨hk,ho b rfl⟩
      | error e => exact ⟨hk,he e rfl⟩

variable {η : Type} [DecidableEq κ] {interfere : η → σ → σ} {allows : σ → η → Prop}

def Undisturbed (D : Discipline κ ρ ι σ) (interfere : η → σ → σ) (allows : σ → η → Prop) : Prop :=
  ∀ s e, D.inv s → allows s e →
    D.inv (interfere e s) ∧ D.guar s (interfere e s) ∧ ∀ k, D.rely k s (interfere e s)

def Obeyed (D : Discipline κ ρ ι σ) (post : κ → α → σ → Prop) (epost : κ → ε → σ → Prop)
    (c : Pool κ ε ρ ι σ α) : Prop :=
  D.inv c.state ∧ ∀ k, D.Ensures k (post k) (epost k) (c.threads k) c.state

variable {post : κ → α → σ → Prop} {epost : κ → ε → σ → Prop} {c : Pool κ ε ρ ι σ α}

lemma Obeyed.turn (ho : D.Undisturbed interfere allows) (h : D.Obeyed post epost c)
    {t} (ht : c.Permitted D.permits allows t) :
    D.guar c.state (c.turn interfere t).state ∧ D.Obeyed post epost (c.turn interfere t) := by
  obtain ⟨hi,hh⟩ := h
  cases t with
  | step k =>
    obtain ⟨hk,hn⟩ := (hh k).advance hi ht
    refine ⟨hk.guar,hk.inv,fun j => ?_⟩
    simp only [Pool.turn]
    split
    · next hj =>
      subst hj
      exact hn
    · next hj => exact (hh j).stable (hk.rely j hj)
  | outside e =>
    obtain ⟨hi',hg,hr⟩ := ho c.state e hi ht
    exact ⟨hg,hi',fun j => (hh j).stable (hr j)⟩

lemma Obeyed.run (ho : D.Undisturbed interfere allows) (h : D.Obeyed post epost c)
    {tns} (hl : Pool.Legal interfere D.permits allows tns c) :
    D.guar c.state (c.run interfere tns).state ∧ D.Obeyed post epost (c.run interfere tns) := by
  induction tns generalizing c with
  | nil => exact ⟨D.guar_refl _,h⟩
  | cons t tns ih =>
    obtain ⟨ht,hr⟩ := hl
    obtain ⟨hg,hn⟩ := h.turn ho ht
    obtain ⟨hg',he⟩ := ih hn hr
    exact ⟨D.guar_trans hg hg',he⟩

end Discipline

end Contractlib
