import DukaPay.CircuitBreaker.Calls
import DukaPay.Contractlib.History

/-! The breaker stores when each pause expires, overwrites the entry when a scope is paused again,
and drops entries when they are lifted or found expired. -/
namespace DukaPay
open Contractlib List Option Transactional CircuitBreaker

/-- Among the events, the latest first, there is a pause of the scope that has not run out at `now`,
and no override for exactly that scope was executed after it. -/
def BreakerEvent.Standing (now : Nat) (scope : PauseScope) (events : List BreakerEvent) : Prop :=
  ∃ later caller expiresAt timestamp earlier,
    events = later ++ BreakerEvent.Paused scope caller expiresAt timestamp :: earlier ∧
      now < timestamp + CircuitBreaker.pauseDurationSeconds ∧
        ∀ id executedBy executedAt, .OverrideExec id scope executedBy executedAt ∉ later

inductive PauseScope.Covers (contract : Address) (function : String) : PauseScope → Prop
  | global : Covers contract function CircuitBreaker.globalScope
  | contract : Covers contract function (CircuitBreaker.contractScope contract)
  | function : Covers contract function (CircuitBreaker.functionScope contract function)

namespace BreakerEvent
variable {now : Nat} {scope : PauseScope} {events : List BreakerEvent}

def Decides : BreakerEvent → Prop
  | .Paused .. | .OverrideExec .. => True
  | _ => False

lemma not_standing_nil : ¬ Standing now scope [] := by
  rintro ⟨later,clr,exp,ts,earlier,he,-⟩
  cases later <;> cases he

variable {e : BreakerEvent}

lemma standing_cons_of (h : Standing now scope events)
    (he : ∀ id who on, e ≠ .OverrideExec id scope who on) :
    Standing now scope (e :: events) := by
  obtain ⟨later,clr,exp,ts,earlier,rfl,hw,hx⟩ := h
  refine ⟨e :: later,clr,exp,ts,earlier,rfl,hw,?_⟩
  intro id who on hm
  obtain hq | hm := mem_cons.mp hm
  · exact he id who on hq.symm
  · exact hx id who on hm

lemma standing_of_cons (h : Standing now scope (e :: events)) :
    (∃ clr exp ts, e = .Paused scope clr exp ts ∧ now < ts + pauseDurationSeconds) ∨
    Standing now scope events ∧
    ∀ id who executedAt, e ≠ .OverrideExec id scope who executedAt := by
  obtain ⟨later,clr,exp,ts,earlier,he,hw,hx⟩ := h
  cases later with
  | nil =>
    obtain ⟨rfl,rfl⟩ := List.cons.inj he
    exact .inl ⟨clr,exp,ts,rfl,hw⟩
  | cons e' later =>
    obtain ⟨rfl,rfl⟩ := List.cons.inj he
    refine .inr ⟨⟨later,clr,exp,ts,earlier,rfl,hw,?_⟩,?_⟩
    · intro id who executedAt hm
      exact hx id who executedAt (mem_cons_of_mem _ hm)
    · rintro id who executedAt rfl
      exact hx id who executedAt mem_cons_self

lemma standing_paused {scope' c exp t} : Standing now scope (.Paused scope' c exp t :: events) ↔
    (scope' = scope ∧ now < t + pauseDurationSeconds) ∨ Standing now scope events := by
  constructor
  · intro h
    obtain ⟨_,_,_,he,hw⟩ | ⟨h,-⟩ := standing_of_cons h
    · cases he
      exact .inl ⟨rfl,hw⟩
    · exact .inr h
  · rintro (⟨rfl,hw⟩ | h)
    · exact ⟨[],c,exp,t,events,rfl,hw,fun _ _ _ hm => by cases hm⟩
    · exact standing_cons_of h fun _ _ _ he => by cases he

lemma standing_overrideExec {scope' id executedAt executedBy} :
    Standing now scope (.OverrideExec id scope' executedBy executedAt :: events) ↔
    scope' ≠ scope ∧ Standing now scope events := by
  constructor
  · intro h
    obtain ⟨_,_,_,he,-⟩ | ⟨h,hn⟩ := standing_of_cons h
    · cases he
    · refine ⟨?_,h⟩
      rintro rfl
      exact hn id executedBy executedAt rfl
  · rintro ⟨hn,h⟩
    refine standing_cons_of h fun _ _ _ he => ?_
    cases he
    exact hn rfl

lemma standing_other (he : ¬ e.Decides) :
    Standing now scope (e :: events) ↔ Standing now scope events := by
  constructor
  · intro h
    obtain ⟨_,_,_,rfl,-⟩ | ⟨h,-⟩ := standing_of_cons h
    · exact absurd trivial he
    · exact h
  · intro h
    refine standing_cons_of h ?_
    rintro _ _ _ rfl
    exact he trivial

end BreakerEvent

namespace CircuitBreaker
open BreakerEvent
variable {b b' : CircuitBreaker} {now later : Nat} {self : Address} {env : TimedEnv}
  {target : OverrideTarget}

lemma describeTarget_injective {target'}
    (h : describeTarget target = describeTarget target') : target = target' := by
  have hc := congrArg PauseScope.contract h
  have hf := congrArg PauseScope.function h
  cases target with
  | Global =>
    cases target' with
    | Global => rfl
    | Contract _ | Function _ _ => cases hc
  | Contract _ =>
    cases target' with
    | Global => cases hc
    | Contract =>
      cases hc
      rfl
    | Function => cases hf
  | Function _ _ =>
    cases target' with
    | Global => cases hc
    | Contract => cases hf
    | Function =>
      cases hc
      cases hf
      rfl

/-! ### The entries and the events -/

/-- The entries agree with the events, from `now` on. The last expiry of the clock is left out: a
pause that would end after it ends with it. -/
structure Recorded (now : Nat) (b : CircuitBreaker) : Prop where
  blank : b.Blank
  dated : ∀ scope caller expiresAt timestamp,
    .Paused scope caller expiresAt timestamp ∈ b.events → timestamp ≤ now
  proper : ∀ id p, b.overrides.lookup id = some p → p.target.Proper
  improper : ∀ target : OverrideTarget, ¬ target.Proper →
    ∀ later, ¬ Standing later (describeTarget target) b.events
  agrees : ∀ target : OverrideTarget, target.Proper → ∀ later, now ≤ later → later < u64.hi →
    (active later (b.stored target.key) = true ↔ Standing later (describeTarget target) b.events)

def ProperCall (c : BreakerCall) : Prop := ∀ target ∈ c.namedTarget, target.Proper

instance (c : BreakerCall) : Decidable (ProperCall c) :=
  inferInstanceAs (Decidable (∀ target ∈ c.namedTarget, target.Proper))

lemma Recorded.wait (hl : now ≤ later) (h : b.Recorded now) : b.Recorded later where
  blank := h.blank
  dated := fun scope clr exp ts hm =>
    (h.dated scope clr exp ts hm).trans hl
  proper := h.proper
  improper := h.improper
  agrees := fun target hp t ht => h.agrees target hp t (hl.trans ht)

lemma Recorded.lt_of_standing (h : b.Recorded now) {scope}
    (hs : Standing later scope b.events) : later < now + pauseDurationSeconds := by
  obtain ⟨_,clr,exp,ts,_,he,_,-⟩ := hs
  have hd := h.dated scope clr exp ts (by simp [he])
  omega

lemma Recorded.quiet (h : b.Recorded now) (hb : b'.Blank)
    (ht : ∀ k, Cleaned now (b.stored k) (b'.stored k))
    (hv : b'.events = b.events ∨ ∃ e, ¬ e.Decides ∧ b'.events = e :: b.events)
    (hp : ∀ id p, b'.overrides.lookup id = some p → p.target.Proper) : b'.Recorded now := by
  have hs : ∀ later scope,Standing later scope b'.events ↔ Standing later scope b.events := by
    intro later scope
    obtain hq | ⟨e,he,hq⟩ := hv
    · rw [hq]
    · rw [hq,standing_other he]
  refine ⟨hb,?_,hp,?_,?_⟩
  · intro scope clr exp ts hm
    obtain hq | ⟨e,he,hq⟩ := hv
    · exact h.dated scope clr exp ts (hq ▸ hm)
    rw [hq] at hm
    obtain rfl | hm := mem_cons.mp hm
    · exact absurd trivial he
    · exact h.dated scope clr exp ts hm
  · intro target hg later
    rw [hs]
    exact h.improper target hg later
  · intro target hg later hl hx
    rw [hs,(ht target.key).active_eq hl]
    exact h.agrees target hg later hl hx

lemma active_pauseExpiry (env) (hm : later < u64.hi) : active later (some (pauseExpiry env)) =
    true ↔ later < env.timestamp + pauseDurationSeconds := by
  rw [active,any_some,decide_eq_true_eq,pauseExpiry,NatType.lt_saturatingAdd]
  exact and_iff_left hm

lemma Recorded.pause {c} (h : b.Recorded env.timestamp) (hg : target.Proper)
    (hl : b'.Blank) (hb' : b' = (b.pauseTarget target (pauseExpiry env)).publish
    (.Paused (describeTarget target) c (pauseExpiry env) env.timestamp)) :
    b'.Recorded env.timestamp := by
  have hv : b'.events =
      .Paused (describeTarget target) c (pauseExpiry env) env.timestamp :: b.events := by
    rw [hb',publish,pauseTarget_eq]
    rfl
  have hst : ∀ k, b'.stored k = if k = target.key then some (pauseExpiry env) else b.stored k := by
    intro k
    rw [hb',stored_publish,stored_pauseTarget]
  have hov : b'.overrides = b.overrides := by
    rw [hb',publish,pauseTarget_eq]
    rfl
  refine ⟨hl,?_,?_,?_,?_⟩
  · intro scope ca' exp ts hm
    rw [hv] at hm
    obtain he | hm := mem_cons.mp hm
    · cases he
      exact le_rfl
    · exact h.dated scope ca' exp ts hm
  · rw [hov]
    exact h.proper
  · intro other ho later hs
    rw [hv,standing_paused] at hs
    obtain ⟨he,-⟩ | hs := hs
    · exact ho (describeTarget_injective he ▸ hg)
    · exact h.improper other ho later hs
  · intro other ho later ha hx
    rw [hv,standing_paused,hst]
    by_cases hk : other.key = target.key
    · -- the new pause ends last, so it decides alone
      have he : other = target := ho.eq_of_key hg hk
      subst he
      rw [if_pos rfl,active_pauseExpiry env hx]
      constructor
      · exact fun ht => .inl ⟨rfl,ht⟩
      · rintro (⟨-,ht⟩ | hs)
        · exact ht
        · exact h.lt_of_standing hs
    · have hn : describeTarget target ≠ describeTarget other := by
        intro he
        exact hk (describeTarget_injective he ▸ rfl)
      rw [if_neg hk,h.agrees other ho later ha hx]
      simp [hn]

lemma Recorded.lift {c p pid} (h : b.Recorded env.timestamp) (hp : b.overrides.lookup pid = some p)
    (hl : b'.Blank) (hb' : b' = ((((b.liftTarget p.target).publish
    (.Lifted (describeTarget p.target) self env.timestamp)).writeProposal
    { p with status := .Executed }).publish
        (.OverrideExec pid (describeTarget p.target) c env.timestamp))) :
    b'.Recorded env.timestamp := by
  have hg := h.proper pid p hp
  have hv : b'.events = .OverrideExec pid (describeTarget p.target) c env.timestamp ::
        .Lifted (describeTarget p.target) self env.timestamp :: b.events := by
    rw [hb',liftTarget_eq]
    rfl
  have hst : ∀ k, b'.stored k = if k = p.target.key then none else b.stored k := by
    intro k
    rw [hb',stored_publish,stored_writeProposal,stored_publish,stored_liftTarget]
  have hov : b'.overrides = b.overrides.insert p.id { p with status := .Executed } := by
    rw [hb',liftTarget_eq]
    rfl
  have ho : ∀ later scope,
      Standing later scope (.Lifted (describeTarget p.target) self env.timestamp :: b.events) ↔
        Standing later scope b.events := fun _ _ => standing_other id
  refine ⟨hl,?_,?_,?_,?_⟩
  · intro scope ca' exp ts hm
    rw [hv] at hm
    simp only [mem_cons,reduceCtorEq,false_or] at hm
    exact h.dated scope ca' exp ts hm
  · intro id q hq
    rw [hov,Storage.lookup_insert_eq_some] at hq
    obtain ⟨-,rfl⟩ | ⟨-,hq⟩ := hq
    · exact hg
    · exact h.proper id q hq
  · intro other hnt later hs
    rw [hv,standing_overrideExec,ho] at hs
    exact h.improper other hnt later hs.2
  · intro other hr later ht hx
    rw [hv,standing_overrideExec,ho,hst]
    by_cases hk : other.key = p.target.key
    · rw [if_pos hk,hr.eq_of_key hg hk]
      simp
    have hn : describeTarget p.target ≠ describeTarget other := by
      intro he
      exact hk (describeTarget_injective he ▸ rfl)
    rw [if_neg hk,h.agrees other hr later ht hx]
    simp [hn]

lemma Recorded.step {c} (h : b.Recorded env.timestamp) (hcl : ProperCall c)
    (hc : c.Effect self env b b') : b'.Recorded env.timestamp := by
  have hl := h.blank.step hc
  cases hc with
  | initializeBreaker adm sgs thr overrideTimelock hw =>
    have hb := h.blank hw
    subst hb
    refine h.quiet hl (fun k => ?_) (.inr ⟨_,id,rfl⟩) h.proper
    cases k <;> exact .refl _ _
  | setAdmin =>
    refine h.quiet hl (fun k => ?_) (.inr ⟨_,id,rfl⟩) h.proper
    cases k <;> exact .refl _ _
  | setSigners | setOverrideTimelock =>
    refine h.quiet hl (fun k => ?_) (.inl rfl) h.proper
    cases k <;> exact .refl _ _
  | pause clr target =>
    have ht : target.Proper := hcl target (by cases target <;> rfl)
    exact h.pause ht hl rfl
  | proposeOverride prp target =>
    refine h.quiet hl (fun k => ?_) (.inr ⟨_,id,rfl⟩) (fun id q hq => ?_)
    · cases k <;> exact .refl _ _
    · obtain ⟨-,rfl⟩ | ⟨-,hq⟩ := Storage.lookup_insert_eq_some.mp hq
      · exact hcl target rfl
      · exact h.proper id q hq
  | approveOverride _ pid p _ _ hp | cancelOverride _ pid p _ hp =>
    refine h.quiet hl (fun k => ?_) (.inr ⟨_,id,rfl⟩) (fun id q hq => ?_)
    · cases k <;> exact .refl _ _
    · obtain ⟨-,rfl⟩ | ⟨-,hq⟩ := Storage.lookup_insert_eq_some.mp hq
      · exact h.proper pid p hp
      · exact h.proper id q hq
  | executeOverride clr pid p _ hp => exact h.lift hp hl rfl
  | isBlocked con fn =>
    refine h.quiet hl (stored_isBlocked env.timestamp con fn b) (.inl ?_) ?_
    · rw [isBlocked_eq]
      rfl
    · rw [isBlocked_eq]
      exact h.proper

lemma recorded_run {cs} (hs : ∀ i ∈ cs, ProperCall i.call)
    (htm : (cs.map BreakerInvocation.time ++ [now]).Pairwise (· ≤ ·)) :
    ((breakerSystem self).run .empty cs).Recorded now := by
  refine timed_induction (I := Recorded)
    (P := fun _ i => ProperCall i.call) (fun _ _ _ hl h => h.wait hl) ?_ ?_
    (always_of_forall (fun _ i hi => hs i hi)) htm
  · intro b i b' h hc hx
    exact h.step hc (BreakerCall.effect_of_ok hx)
  · refine ⟨fun _ => rfl,?_,?_,fun _ _ _ => not_standing_nil,?_⟩
    · intro _ _ _ _ hm
      cases hm
    · intro _ _ hp
      cases hp
    · intro target _ later _ _
      have ht : empty.stored target.key = none := by cases target <;> rfl
      rw [ht]
      exact iff_of_false Bool.false_ne_true not_standing_nil

/-! ### Asking changes no answer -/

structure Alike (now : Nat) (b b' : CircuitBreaker) : Prop where
  rest : b' = b.withPauses b'.global b'.state
  pauses : ∀ k later, now ≤ later → unexpired later (b'.stored k) = unexpired later (b.stored k)

lemma Alike.symm (h : Alike now b b') : Alike now b' b where
  rest := by
    rw [h.rest]
    rfl
  pauses := fun k later hl => (h.pauses k later hl).symm

lemma Alike.wait (h : Alike now b b') (hl : now ≤ later) : Alike later b b' :=
  ⟨h.rest,fun k t ht => h.pauses k t (hl.trans ht)⟩

lemma unexpired_isSome (now o) : (unexpired now o).isSome = active now o := by
  cases o with
  | none => rfl
  | some e => by_cases h : now < e <;> simp [unexpired,active,h]

lemma Cleaned.unexpired_eq {o o'} (h : Cleaned now o o') (hl : now ≤ later) :
    unexpired later o' = unexpired later o := by
  obtain rfl | ⟨rfl,ho⟩ := h
  · rfl
  have hn : unexpired later o = none := by
    rw [← not_isSome_iff_eq_none,unexpired_isSome,active_anti hl ho]
    exact Bool.false_ne_true
  rw [hn]
  rfl

lemma alike_isBlocked (now c f b) : Alike now b (b.isBlocked now c f).2 where
  rest := isBlocked_eq now c f b
  pauses := fun k _ hl => (stored_isBlocked now c f b k).unexpired_eq hl

lemma Alike.trans {b''} (h : Alike now b b') (h' : Alike now b' b'') : Alike now b b'' where
  rest := by
    rw [h'.rest,h.rest]
    rfl
  pauses := fun k later hl => (h'.pauses k later hl).trans (h.pauses k later hl)

lemma Alike.kept {r r' : CircuitBreaker} (h : Alike now b b')
    (he : r' = r.withPauses r'.global r'.state) (hr : r.stored = b.stored)
    (hr' : r'.stored = b'.stored) : Alike now r r' where
  rest := he
  pauses := by
    rw [hr,hr']
    exact h.pauses

lemma Alike.effect {c : BreakerCall} {r} (h : Alike env.timestamp b b')
    (hc : c.Effect self env b r) : ∃ r', c.Effect self env b' r' ∧ Alike env.timestamp r r' := by
  have hr := h.rest
  generalize b'.global = global at hr
  generalize b'.state = state at hr
  subst hr
  have hk : ∀ {r r' : CircuitBreaker}, r' = r.withPauses r'.global r'.state →
      r.global = b.global → r.state = b.state → r'.global = global → r'.state = state →
        Alike env.timestamp r r' := fun hr hg hs hg' hs' =>
    h.kept hr (stored_congr hg hs) (stored_congr hg' hs')
  cases hc with
  | initializeBreaker adm sgs thr lock hw hv hlk =>
    refine ⟨_,.initializeBreaker adm sgs thr lock hw hv hlk,rfl,fun k later hl => ?_⟩
    cases k with
    | none => exact h.pauses none later hl
    | some => rfl
  | setAdmin clr na hd =>
    exact ⟨_,.setAdmin clr na ⟨hd.1,hd.2⟩,hk rfl rfl rfl rfl rfl⟩
  | setSigners clr sgs thr hd hv =>
    exact ⟨_,.setSigners clr sgs thr ⟨hd.1,hd.2⟩ hv,hk rfl rfl rfl rfl rfl⟩
  | setOverrideTimelock clr lock hd hlk =>
    exact ⟨_,.setOverrideTimelock clr lock ⟨hd.1,hd.2⟩ hlk,hk rfl rfl rfl rfl rfl⟩
  | pause clr target ha hsg =>
    refine ⟨_,.pause clr target ha hsg,?_,fun k later hl => ?_⟩
    · rw [pauseTarget_eq,pauseTarget_eq target _ b]
      rfl
    · rw [stored_publish,stored_publish,stored_pauseTarget,stored_pauseTarget]
      split
      · rfl
      · exact h.pauses k later hl
  | proposeOverride prp target ha hsg hi =>
    exact ⟨_,.proposeOverride prp target ha hsg hi,hk rfl rfl rfl rfl rfl⟩
  | approveOverride sgn pid p ha hsg hp hac hw =>
    exact ⟨_,.approveOverride sgn pid p ha hsg hp hac hw,hk rfl rfl rfl rfl rfl⟩
  | executeOverride clr pid p ha hp hac hlk ht hn =>
    refine ⟨_,.executeOverride clr pid p ha hp hac hlk ht hn,?_,fun k later hl => ?_⟩
    · rw [liftTarget_eq,liftTarget_eq p.target b]
      rfl
    · rw [stored_publish,stored_publish,stored_writeProposal,stored_writeProposal,
        stored_publish,stored_publish,stored_liftTarget,stored_liftTarget]
      split
      · rfl
      · exact h.pauses k later hl
  | cancelOverride clr pid p hd hp hac =>
    exact ⟨_,.cancelOverride clr pid p ⟨hd.1,hd.2⟩ hp hac,hk rfl rfl rfl rfl rfl⟩
  | isBlocked con fn =>
    refine ⟨_,.isBlocked con fn,?_⟩
    have hb := alike_isBlocked env.timestamp con fn b
    have hf := alike_isBlocked env.timestamp con fn (b.withPauses global state)
    exact hb.symm.trans (h.trans hf)

lemma Alike.apply {i : BreakerInvocation} (h : Alike i.env.timestamp b b') :
    Alike i.env.timestamp ((breakerSystem self).apply b i) ((breakerSystem self).apply b' i) := by
  cases hb : i.call.exec self i.env b with
  | ok =>
    obtain ⟨_,hr',ha⟩ := h.effect (BreakerCall.effect_of_ok hb)
    rw [apply_of_ok (S := breakerSystem self) hb,apply_of_ok (S := breakerSystem self) hr'.ok]
    exact ha
  | error =>
    rw [apply_of_error (S := breakerSystem self) hb]
    cases hb' : i.call.exec self i.env b' with
    | ok =>
      obtain ⟨_,hr,-⟩ := h.symm.effect (BreakerCall.effect_of_ok hb')
      cases hb.symm.trans hr.ok
    | error =>
      rw [apply_of_error (S := breakerSystem self) hb']
      exact h

def ownPauses (now : Nat) (contract : Address) (b : CircuitBreaker) (function : String) :
    Option Nat :=
  if function = contractWildcard then none
  else unexpired now (b.stored (some (contract,function)))

lemma mem_keys_of_functionPauses {inn f}
    (h : (functionPauses now inn f).isSome = true) : f ∈ inn.keys := by
  rw [functionPauses] at h
  split at h
  · cases h
  rw [← AList.mem_keys,← AList.lookup_isSome]
  cases hf : inn.lookup f with
  | none =>
    rw [hf] at h
    cases h
  | some => rfl

lemma functionExpiries_eq_some {c pauses} : (b.getPauseState now).functionExpiries c = some pauses ↔
    pauses = b.ownPauses now c ∧ ∃ fn, (pauses fn).isSome = true := by
  cases hn : b.state.lookup c with
  | none =>
    have hl : (b.getPauseState now).functionExpiries c = none := by
      simp only [getPauseState,hn,Option.bind_none]
    have ho : ∀ fn, b.ownPauses now c fn = none := by
      intro fn
      simp [ownPauses,stored,expiry,hn,unexpired]
    rw [hl]
    constructor
    · intro h
      cases h
    · rintro ⟨rfl,fn,h⟩
      rw [ho] at h
      cases h
  | some inner =>
    have ho : b.ownPauses now c = functionPauses now inner := by
      funext fn
      simp only [ownPauses,functionPauses,stored,expiry,hn,Option.bind_some]
    simp only [getPauseState,hn,Option.bind_some,Option.ite_none_right_eq_some,
      List.any_eq_true,Option.some.injEq,ho]
    constructor
    · rintro ⟨⟨fn,-,h⟩,rfl⟩
      exact ⟨rfl,fn,h⟩
    · rintro ⟨rfl,fn,h⟩
      exact ⟨⟨fn,mem_keys_of_functionPauses h,h⟩,rfl⟩

lemma isContractPaused_eq (now c) (b : CircuitBreaker) :
    b.isContractPaused now c = active now (b.stored (some (c,contractWildcard))) := by
  rw [isContractPaused,stored,expiry]
  cases b.state.lookup c <;> rfl

lemma isFunctionPaused_eq (now c f) (b : CircuitBreaker) :
    b.isFunctionPaused now c f = (active now (b.stored (some (c,f))) ||
    active now (b.stored (some (c,contractWildcard)))) := by
  rw [isFunctionPaused,stored,stored,expiry,expiry]
  cases b.state.lookup c <;> rfl

lemma isBlocked_eq_or (now c f) (b : CircuitBreaker) :
    (b.isBlocked now c f).1 = (b.isGloballyPaused now || b.isFunctionPaused now c f) := by
  rw [Bool.eq_iff_iff,isBlocked_iff,Blocked,isFunctionPaused_eq,isGloballyPaused]
  simp only [Bool.or_eq_true,stored]
  tauto

lemma Alike.getPauseState_eq (h : Alike now b b') : b'.getPauseState now = b.getPauseState now := by
  have hu : ∀ k, unexpired now (b'.stored k) = unexpired now (b.stored k) := fun k =>
    h.pauses k now le_rfl
  ext contract : 2
  · exact congrArg (Option.getD · 0) (hu none)
  · have he : ∀ c : CircuitBreaker, (c.getPauseState now).contractExpiries contract =
        unexpired now (c.stored (some (contract,contractWildcard))) := by
      intro c
      simp only [getPauseState,stored,expiry]
      cases c.state.lookup contract <;> rfl
    rw [he,he,hu]
  · have ho : b'.ownPauses now contract = b.ownPauses now contract := by
      funext function
      rw [ownPauses,ownPauses,hu]
    ext pauses
    rw [functionExpiries_eq_some,functionExpiries_eq_some,ho]

lemma Alike.answers_eq (h : Alike now b b') : answers now b' = answers now b := by
  have ha : ∀ k, active now (b'.stored k) = active now (b.stored k) := by
    intro k
    rw [← unexpired_isSome,← unexpired_isSome,h.pauses k now le_rfl]
  have hg : b'.isGloballyPaused now = b.isGloballyPaused now := ha none
  have hc : ∀ contract, b'.isContractPaused now contract = b.isContractPaused now contract := by
    intro contract
    rw [isContractPaused_eq,isContractPaused_eq,ha]
  have hf : ∀ contract function, b'.isFunctionPaused now contract function =
      b.isFunctionPaused now contract function := by
    intro contract function
    rw [isFunctionPaused_eq,isFunctionPaused_eq,ha,ha]
  have hb : ∀ contract function, (b'.isBlocked now contract function).1 =
      (b.isBlocked now contract function).1 := by
    intro contract function
    rw [isBlocked_eq_or,isBlocked_eq_or,hg,hf]
  have hs := h.getPauseState_eq
  have hr := h.rest
  generalize b'.global = global at hr
  generalize b'.state = state at hr
  subst hr
  exact Answers.ext (funext₂ hb) hg (funext hc) (funext₂ hf) hs rfl rfl rfl rfl rfl rfl

lemma Alike.run {cs : List BreakerInvocation} {start} (h : Alike start b b')
    (ht : (start :: (cs.map BreakerInvocation.time ++ [now])).Pairwise (· ≤ ·)) :
    Alike now ((breakerSystem self).run b cs) ((breakerSystem self).run b' cs) :=
  timed_simulation (R := Alike) (fun _ _ _ _ hl h => h.wait hl) (fun _ _ _ h => h.apply) h ht

/-! ### The history -/

lemma Recorded.isBlocked_iff_standing (h : b.Recorded now) (hm : now < u64.hi)
    (contract function) : (b.isBlocked now contract function).1 = true ↔
    ∃ scope, PauseScope.Covers contract function scope ∧ Standing now scope b.events := by
  have he : ∀ target, target.Proper →
      (active now (b.stored target.key) = true ↔ Standing now (describeTarget target) b.events) :=
    fun target ht => h.agrees target ht now le_rfl hm
  rw [isBlocked_iff]
  constructor
  · rintro (hg | hc | hf)
    · exact ⟨_,.global,(he .Global trivial).mp hg⟩
    · exact ⟨_,.contract,(he (.Contract contract) trivial).mp hc⟩
    · by_cases hn : function = contractWildcard
      · -- asking about the reserved name is asking about the contract
        subst hn
        exact ⟨_,.contract,(he (.Contract contract) trivial).mp hf⟩
      · exact ⟨_,.function,(he (.Function contract function) hn).mp hf⟩
  · rintro ⟨_,hcv,hs⟩
    cases hcv with
    | global => exact .inl ((he .Global trivial).mpr hs)
    | contract => exact .inr (.inl ((he (.Contract contract) trivial).mpr hs))
    | function =>
      by_cases hn : function = contractWildcard
      · exact absurd hs (h.improper (.Function contract function) (not_not.mpr hn) now)
      · exact .inr (.inr ((he (.Function contract function) hn).mpr hs))

/-- **The breaker and its history**. In every run in which no call names the reserved function, and
before the last moment of the clock, a function is blocked exactly when a pause that covers it
stands. -/
theorem breaker_history (self contract : Address) (function : String)
    (cs : List BreakerInvocation) (now : Nat)
    (htime : (cs.map BreakerInvocation.time ++ [now]).Pairwise (· ≤ ·)) :
    let b := (breakerSystem self).run .empty cs
    let asked := b.isBlocked now contract function
    ((∀ i ∈ cs, ProperCall i.call) → now < u64.hi →
        (asked.1 = true ↔
          ∃ scope, PauseScope.Covers contract function scope ∧ Standing now scope b.events)) ∧
      asked.1 = (b.isGloballyPaused now || b.isFunctionPaused now contract function) ∧
        ∀ (cs' : List BreakerInvocation) (later : Nat),
          (now :: (cs'.map BreakerInvocation.time ++ [later])).Pairwise (· ≤ ·) →
            answers later ((breakerSystem self).run asked.2 cs') =
              answers later ((breakerSystem self).run b cs') := by
  intro b asked
  refine ⟨fun hc hm => ?_,isBlocked_eq_or now contract function b,?_⟩
  · exact (recorded_run hc htime).isBlocked_iff_standing hm contract function
  · intro cs' later hl
    exact ((alike_isBlocked now contract function b).run hl).answers_eq

def pauseRun (function : String) : List BreakerInvocation :=
  [⟨.smallAt 100,.initializeBreaker ⟨4⟩ [⟨5⟩,⟨6⟩] 2 86400⟩,
    ⟨.smallAt 100,.pauseFunction ⟨5⟩ ⟨2⟩ function⟩]

theorem breaker_history_pauseRun :
    let cs := pauseRun "deposit"
    let b := (breakerSystem ⟨9⟩).run .empty cs
    (cs.map BreakerInvocation.time ++ [200]).Pairwise (· ≤ ·) ∧
      (∀ i ∈ cs, ProperCall i.call) ∧
        ∃ scope, PauseScope.Covers ⟨2⟩ "deposit" scope ∧ Standing 200 scope b.events := by
  refine ⟨by decide,by decide,?_⟩
  obtain ⟨hh,-,-⟩ := breaker_history ⟨9⟩ ⟨2⟩ "deposit" (pauseRun "deposit") 200 (by decide)
  exact (hh (by decide) (by decide)).mp (by decide +kernel)

/-- Pausing the function of the reserved name blocks `deposit`, which no pause covers. -/
theorem breaker_history_wildcard :
    let cs := pauseRun contractWildcard
    let b := (breakerSystem ⟨9⟩).run .empty cs
    (cs.map BreakerInvocation.time ++ [100]).Pairwise (· ≤ ·) ∧
      (b.isBlocked 100 ⟨2⟩ "deposit").1 = true ∧
        ¬ ∃ scope, PauseScope.Covers ⟨2⟩ "deposit" scope ∧ Standing 100 scope b.events := by
  refine ⟨by decide,by decide +kernel,?_⟩
  rintro ⟨scope,hc,hs⟩
  have he : ((breakerSystem ⟨9⟩).run .empty (pauseRun contractWildcard)).events =
      [.Paused (functionScope ⟨2⟩ contractWildcard) ⟨5⟩ 259300 100,
        .BreakerInit ⟨4⟩ 2 2 86400] := by decide +kernel
  rw [he,standing_paused,standing_other id] at hs
  obtain ⟨rfl,-⟩ | hs := hs
  · generalize ho : functionScope ⟨2⟩ contractWildcard = scope at hc
    cases hc <;> exact absurd ho (by decide)
  · exact not_standing_nil hs

end CircuitBreaker

end DukaPay
