import Mathlib.Tactic.Common

/-! A call of a contract either returns a value or fails, and a failed call has no effect. -/
namespace Contractlib
universe u v
variable {ε : Type u} {α β : Type v}

def ensure (p : Prop) [Decidable p] (e : ε) : Except ε Unit :=
  if p then .ok () else .error e

def orFail (o : Option α) (e : ε) : Except ε α :=
  match o with
  | some a => .ok a
  | none => .error e

def okOr {δ : Type u} (x : Except δ α) (e : ε) : Except ε α :=
  match x with
  | .ok a => .ok a
  | .error _ => .error e

variable {e e' : ε} {x : Except ε α} {p : Prop} {f : α → Except ε β} {o : Option α} {δ : Type u}

lemma bind_eq_ok {b} : (x >>= f) = .ok b ↔ ∃ a, x = .ok a ∧ f a = .ok b := by
  constructor
  · intro h
    match x,h with
    | .ok a,h => exact ⟨a,rfl,h⟩
  · rintro ⟨a,rfl,hf⟩
    exact hf

lemma bind_eq_error : (x >>= f) = .error e ↔ x = .error e ∨ ∃ a, x = .ok a ∧ f a = .error e := by
  cases x with
  | error e' =>
    have hf : (Except.error e' >>= f) = .error e' := rfl
    simp [hf]
  | ok a =>
    have hf : (Except.ok a >>= f) = f a := rfl
    simp [hf]

lemma pure_eq_ok {a b} : (pure a : Except ε α) = .ok b ↔ a = b := by
  simp [pure,Except.pure]

lemma map_eq_error {f : α → β} : f <$> x = .error e ↔ x = .error e := by
  cases x <;> simp [Functor.map,Except.map]

lemma map_eq_ok {f : α → β} {b} : f <$> x = .ok b ↔ ∃ a, x = .ok a ∧ f a = b := by
  cases x with
  | error => simp [Functor.map,Except.map]
  | ok => simp [Functor.map,Except.map]

@[simp] lemma ensure_eq_ok [Decidable p] {u} : ensure p e = .ok u ↔ p := by
  unfold ensure
  split
  · next h => simp [h]
  · next h => simp [h]

@[simp] lemma ensure_eq_error [Decidable p] : ensure p e = .error e' ↔ ¬ p ∧ e = e' := by
  unfold ensure
  split
  · next h => simp [h]
  · next h => simp [h]

@[simp] lemma orFail_eq_error : orFail o e = .error e' ↔ o = none ∧ e = e' := by
  cases o with
  | none => simp [orFail]
  | some => simp [orFail]

@[simp] lemma okOr_eq_error {x : Except δ α} :
    okOr x e = .error e' ↔ (∃ d, x = .error d) ∧ e = e' := by
  cases x with
  | error => simp [okOr]
  | ok => simp [okOr]

@[simp] lemma orFail_eq_ok {a} : orFail o e = .ok a ↔ o = some a := by
  cases o with
  | none => simp [orFail]
  | some => simp [orFail]

@[simp] lemma okOr_eq_ok {x : Except δ α} {a : α} : okOr x e = .ok a ↔ x = .ok a := by
  cases x with
  | error => simp [okOr]
  | ok => simp [okOr]

def Never (e : ε) (x : Except ε α) : Prop := x ≠ .error e

/-- **Chain rule**: a chain avoids a failure when its first call does and the rest does after every
value the first call can return. -/
@[simp] lemma never_bind : Never e (x >>= f) ↔ Never e x ∧ ∀ a, x = .ok a → Never e (f a) := by
  cases x with
  | error e' =>
    have hf : (Except.error e' >>= f) = .error e' := rfl
    simp [Never,hf]
  | ok a =>
    have hf : (Except.ok a >>= f) = f a := rfl
    simp [Never,hf]

lemma Never.bind (hx : Never e x) (hf : ∀ a, x = .ok a → Never e (f a)) : Never e (x >>= f) :=
  never_bind.mpr ⟨hx,hf⟩

@[simp] lemma never_pure (e : ε) (a : α) : Never e (pure a : Except ε α) := by
  simp [Never,pure,Except.pure]

@[simp] lemma never_map {f : α → β} : Never e (f <$> x) ↔ Never e x := by
  cases x with
  | error => simp [Never,Functor.map,Except.map]
  | ok => simp [Never,Functor.map,Except.map]

@[simp] lemma never_ite [Decidable p] {y} :
    Never e (if p then x else y) ↔ (p → Never e x) ∧ (¬ p → Never e y) := by
  split
  · next h => simp [h]
  · next h => simp [h]

@[simp] lemma never_ensure [Decidable p] (h : e' ≠ e) : Never e (ensure p e') := by
  unfold Never ensure
  split
  · simp
  · simpa using h

lemma never_ensure_of [Decidable p] (h : p) : Never e (ensure p e') := by
  simp [Never,ensure,h]

@[simp] lemma never_orFail (h : e' ≠ e) : Never e (orFail o e') := by
  cases o with
  | none => simpa [Never,orFail] using h
  | some => simp [Never,orFail]

lemma never_orFail_of {a} (h : o = some a) : Never e (orFail o e') := by
  simp [Never,orFail,h]

@[simp] lemma never_okOr {x : Except δ α} (h : e' ≠ e) : Never e (okOr x e') := by
  cases x with
  | error => simpa [Never,okOr] using h
  | ok => simp [Never,okOr]

/-- **Loop rule**: a loop avoids a failure if every round does that starts in `I`, and every round
that returns keeps `I`. -/
lemma never_foldlM {γ} {f : β → γ → Except ε β} {I : β → Prop}
    (hr : ∀ b c, I b → Never e (f b c)) (hk : ∀ b c b', I b → f b c = .ok b' → I b')
    (l : List γ) {b} (hb : I b) : Never e (l.foldlM f b) := by
  induction l generalizing b with
  | nil => exact never_pure e b
  | cons c l ih => exact (hr b c hb).bind fun b' h => ih (hk b c b' hb h)

def Fails (x : Except ε α) : Prop := ∃ e, x = .error e

instance (x : Except ε α) : Decidable (Fails x) :=
  match x with
  | .ok _ => isFalse nofun
  | .error e => isTrue ⟨e,rfl⟩

lemma eq_ok_of_not_fails (h : ¬ Fails x) (a : α) : x = .ok (x.toOption.getD a) := by
  cases x with
  | ok => rfl
  | error e => exact absurd ⟨e,rfl⟩ h

lemma fails_ensure [Decidable p] (h : ¬ p) : Fails (ensure p e) := ⟨e,if_neg h⟩

lemma Fails.bind (h : Fails x) (f : α → Except ε β) : Fails (x >>= f) := by
  obtain ⟨e,rfl⟩ := h
  exact ⟨e,rfl⟩

lemma Fails.after (h : ∀ a, x = .ok a → Fails (f a)) : Fails (x >>= f) := by
  cases x with
  | ok a => exact h a rfl
  | error e => exact ⟨e,rfl⟩

end Contractlib
