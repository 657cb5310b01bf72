import Mathlib.Data.List.Induction
import Mathlib.Data.Rat.Floor

/-! The script on Redis's sorted set and the list kept in memory count the same calls; the status
counts what is stored. -/
namespace DukaPay.Backend.RateLimit
open List

structure RateLimitConfig where
  maxRequests : Nat
  windowSeconds : ℚ

structure RateLimitResult where
  allowed : Bool
  remaining : Nat
  /-- In milliseconds. -/
  resetTime : ℚ
  currentCount : Nat
  limit : Nat

structure Call where
  nowMs : Nat
  member : String

def seconds (ms : Nat) : ℚ := ms / 1000

def Call.now (call : Call) : ℚ := seconds call.nowMs

/-- A sorted set under one key: the scored members, and when the key expires. -/
structure Key where
  entries : List (ℚ × String) := []
  expiresAt : Option ℚ := none

def Key.live (k : Key) (now : ℚ) : List (ℚ × String) :=
  if k.expiresAt.any (· < now) then [] else k.entries

/-- EXPIRE with nothing left to wait deletes the key. -/
def Key.expire (now : ℚ) (seconds : Int) (k : Key) : Key :=
  if seconds ≤ 0 then {} else { k with expiresAt := some (now + seconds) }

structure Service where
  key : Key := {}
  inMemoryWindow : List Nat := []

/-- A Lua number reaches the client without its fraction. -/
def luaInteger (x : ℚ) : Int := if 0 ≤ x then ⌊x⌋ else ⌈x⌉

variable (config : RateLimitConfig)

def pruned (now : ℚ) (k : Key) : List (ℚ × String) :=
  (k.live now).filter fun e => ¬(0 ≤ e.1 ∧ e.1 ≤ now - config.windowSeconds)

def slidingWindowScript (now : ℚ) (member : String) (k : Key) : (Nat × Nat × Nat × Int) × Key :=
  let entries := pruned config now k
  let currentCount := entries.length
  if currentCount < config.maxRequests then
    -- ZADD moves a member that is already there
    let entries := entries.filter (·.2 ≠ member) ++ [(now,member)]
    ((1,config.maxRequests - currentCount - 1,currentCount + 1,
      luaInteger (now + config.windowSeconds)),
      Key.expire now ⌈config.windowSeconds⌉ { k with entries := entries })
  else
    let oldestScore := (entries.map (·.1)).min?.getD now
    ((0,0,currentCount,luaInteger (oldestScore + config.windowSeconds)),
      { k with entries := entries })

def checkInMemorySlidingWindow (nowMs : Nat) (stored : List Nat) : RateLimitResult × List Nat :=
  let windowMs := config.windowSeconds * 1000
  let timestamps := stored.filter fun (t : Nat) => (nowMs - windowMs : ℚ) < t
  if timestamps.length < config.maxRequests then
    let timestamps := timestamps ++ [nowMs]
    ({ allowed := true, remaining := config.maxRequests - timestamps.length,
       resetTime := timestamps.headD nowMs + windowMs, currentCount := timestamps.length,
       limit := config.maxRequests },timestamps)
  else
    ({ allowed := false, remaining := 0, resetTime := timestamps.headD nowMs + windowMs,
       currentCount := timestamps.length, limit := config.maxRequests },stored)

def checkRateLimit (connected : Bool) (call : Call) (s : Service) : RateLimitResult × Service :=
  if connected then
    let ((allowedNum,remaining,currentCount,resetTimeSeconds),key) :=
      slidingWindowScript config call.now call.member s.key
    let resetTime := if resetTimeSeconds = 0 then call.now + config.windowSeconds
      else resetTimeSeconds
    ({ allowed := allowedNum = 1, remaining := remaining, resetTime := resetTime * 1000,
       currentCount := currentCount, limit := config.maxRequests },{ s with key := key })
  else
    let (result,timestamps) := checkInMemorySlidingWindow config call.nowMs s.inMemoryWindow
    (result,{ s with inMemoryWindow := timestamps })

/-- The status without the count, which `getRateLimitStatus` leaves out of its answer. -/
structure Status where
  allowed : Bool
  remaining : Nat
  resetTime : ℚ
  limit : Nat

def getRateLimitStatus (connected : Bool) (nowMs : Nat) (s : Service) : Status :=
  let currentCount :=
    if connected then (s.key.live (seconds nowMs)).length
    else (s.inMemoryWindow.filter fun (t : Nat) => (nowMs - config.windowSeconds * 1000 : ℚ) < t).length
  { allowed := currentCount < config.maxRequests, remaining := config.maxRequests - currentCount,
    resetTime := nowMs + config.windowSeconds * 1000, limit := config.maxRequests }

variable {config} {connected : Bool} {seen calls : List Call} {call : Call} {s : Service} {k : Key}
  {now : ℚ} {e : ℚ × String}

lemma Call.now_nonneg (call : Call) : 0 ≤ call.now := div_nonneg (Nat.cast_nonneg _) (by norm_num)

lemma mem_of_mem_live (he : e ∈ k.live now) : e ∈ k.entries := by
  unfold Key.live at he
  split at he
  · simp at he
  · exact he

/-- A call adds its own member, if it is allowed, and then sets when the key expires. -/
lemma mem_check (he : e ∈ (checkRateLimit config connected call s).2.key.entries) :
    (e ∈ s.key.entries ∨ e = (call.now,call.member)) ∧
    (checkRateLimit config connected call s).2.key.expiresAt =
    some (call.now + ⌈config.windowSeconds⌉) ∨ e ∈ s.key.entries ∧
    (checkRateLimit config connected call s).2.key.expiresAt = s.key.expiresAt := by
  have ho {e : ℚ × String} (he : e ∈ pruned config call.now s.key) : e ∈ s.key.entries :=
    mem_of_mem_live (mem_filter.mp he).1
  cases connected with
  | false => exact .inr ⟨he,rfl⟩
  | true =>
    simp only [checkRateLimit,slidingWindowScript,if_true,Key.expire] at he ⊢
    split at he <;> rename_i hl <;> simp only [hl,if_true,if_false]
    · split at he <;> rename_i hw <;> simp only [hw,if_true,if_false]
      · simp at he
      · obtain he | he := mem_append.mp he
        · exact .inl ⟨.inl (ho (mem_filter.mp he).1),trivial⟩
        · exact .inl ⟨.inr (mem_singleton.mp he),trivial⟩
    · exact .inr ⟨ho he,trivial⟩

lemma key_check (hn : ∀ e ∈ pruned config call.now s.key, e.2 ≠ call.member) :
    let kept := pruned config call.now s.key
    (checkRateLimit config true call s).2.key =
      if kept.length < config.maxRequests then Key.expire call.now ⌈config.windowSeconds⌉
        { s.key with entries := kept ++ [(call.now,call.member)] }
      else { s.key with entries := kept } := by
  intro kept
  have hk : kept.filter (·.2 ≠ call.member) = kept :=
    filter_eq_self.mpr fun e he => by simpa using hn e he
  simp only [checkRateLimit,slidingWindowScript,if_true]
  rw [hk]
  split <;> rfl

section
variable (config) in
def fresh (now t : ℚ) : Bool := now - config.windowSeconds < t

variable (connected) in
/-- The times that the store in use has kept, in seconds. -/
def Service.times (s : Service) : List ℚ :=
  if connected then s.key.entries.map (·.1) else s.inMemoryWindow.map seconds

variable (config connected)

def counted (now : ℚ) (s : Service) : Nat := (s.times connected).countP (fresh config now)

/-- One call, with the times of the allowed calls before it. -/
def runStep (p : Service × List ℚ) (call : Call) : Service × List ℚ :=
  let (result,s) := checkRateLimit config connected call p.1
  (s,if result.allowed then p.2 ++ [call.now] else p.2)

def run (calls : List Call) : Service × List ℚ := calls.foldl (runStep config connected) ({},[])

/-- Every member was added by a call, and is out of the window when its key expires. -/
structure Added (seen : List Call) (k : Key) : Prop where
  mem : ∀ e ∈ k.entries, ∃ call ∈ seen, call.member = e.2 ∧ call.now = e.1
  expires : ∀ e ∈ k.entries, ∀ d ∈ k.expiresAt, e.1 + config.windowSeconds ≤ d

variable {config}

lemma counted_true :
    counted config true now s = s.key.entries.countP fun e => fresh config now e.1 := by
  simp [counted,Service.times,countP_map,Function.comp_def]

lemma counted_false :
    counted config false now s = s.inMemoryWindow.countP fun t => fresh config now (seconds t) := by
  simp [counted,Service.times,countP_map,Function.comp_def]

lemma fresh_mono {now' t} (hl : now ≤ now') (h : fresh config now' t) : fresh config now t := by
  simp only [fresh,decide_eq_true_eq] at h ⊢
  linarith

/-- What pruning keeps at one time is all that any later time still counts. -/
lemma countP_filter_fresh {α : Type} (f : α → ℚ) {now'} (hl : now ≤ now') (l : List α) :
    (l.filter fun a => fresh config now (f a)).countP (fun a => fresh config now' (f a)) =
    l.countP fun a => fresh config now' (f a) := by
  rw [countP_filter]
  refine countP_congr fun a _ => ?_
  simpa using fun h => fresh_mono hl h

lemma filter_inMemory (nowMs : Nat) (sto : List Nat) :
    (sto.filter fun (t : Nat) => (nowMs - config.windowSeconds * 1000 : ℚ) < t) =
    sto.filter fun t => fresh config (seconds nowMs) (seconds t) := by
  refine filter_congr fun t _ => ?_
  unfold fresh seconds
  exact decide_eq_decide.mpr ⟨fun h => by linarith,fun h => by linarith⟩

lemma length_inMemory (nowMs) (s : Service) :
    (s.inMemoryWindow.filter fun t => fresh config (seconds nowMs) (seconds t)).length =
    counted config false (seconds nowMs) s := by
  rw [counted_false,countP_eq_length_filter]

namespace Added

lemma pruned_eq (h : Added config seen k) (now : ℚ) :
    pruned config now k = k.entries.filter fun e => fresh config now e.1 := by
  unfold pruned Key.live
  split
  case isTrue hl =>
    obtain ⟨d,hd,ht⟩ : ∃ d ∈ k.expiresAt, d < now := by cases hd : k.expiresAt <;> simp_all
    symm
    simp only [filter_nil,filter_eq_nil_iff,fresh,decide_eq_true_eq]
    intro e he
    linarith [h.expires e he d hd]
  case isFalse =>
    refine filter_congr fun e he => ?_
    obtain ⟨call,-,-,hn⟩ := h.mem e he
    have hp : 0 ≤ e.1 := hn ▸ call.now_nonneg
    simp [fresh,hp]

lemma length_pruned (h : Added config seen s.key) (now : ℚ) :
    (pruned config now s.key).length = counted config true now s := by
  rw [h.pruned_eq,counted_true,countP_eq_length_filter]

lemma answer (h : Added config seen s.key) (call : Call) :
    let answer := (checkRateLimit config connected call s).1
    let count := counted config connected call.now s
    answer.allowed = decide (count < config.maxRequests) ∧
    answer.currentCount = count + if count < config.maxRequests then 1 else 0 := by
  cases connected with
  | true =>
    simp only [checkRateLimit,slidingWindowScript,h.length_pruned,if_true]
    split <;> simp_all
  | false =>
    simp only [checkRateLimit,checkInMemorySlidingWindow,filter_inMemory,length_inMemory,
      Bool.false_eq_true,if_false,Call.now]
    split <;> simp [length_inMemory, *]

variable (h : Added config seen s.key) (hseen : ∀ c ∈ seen, c.now ≤ call.now)
include h hseen

lemma le_now (he : e ∈ s.key.entries) : e.1 ≤ call.now := by
  obtain ⟨c,hc,-,hn⟩ := h.mem e he
  exact hn ▸ hseen c hc

lemma check : Added config (seen ++ [call]) (checkRateLimit config connected call s).2.key := by
  have hm : ∀ e ∈ s.key.entries, ∃ c ∈ seen ++ [call], c.member = e.2 ∧ c.now = e.1 :=
    fun e he => (h.mem e he).imp fun c hc => ⟨mem_append_left _ hc.1,hc.2⟩
  refine ⟨fun e he => ?_,fun e he d hd => ?_⟩
  · obtain ⟨he | rfl,-⟩ | ⟨he,-⟩ := mem_check he
    · exact hm e he
    · exact ⟨call,by simp,rfl,rfl⟩
    · exact hm e he
  · obtain ⟨he,hs⟩ | ⟨he,hs⟩ := mem_check he
    · have hl : e.1 ≤ call.now := he.elim (h.le_now hseen) fun he => he ▸ le_rfl
      cases hs ▸ hd
      linarith [Int.le_ceil config.windowSeconds]
    · exact h.expires e he d (hs ▸ hd)

lemma counted_check (hn : ∀ c ∈ seen, c.member ≠ call.member) (hl : call.now ≤ now) :
    counted config connected now (checkRateLimit config connected call s).2 =
    counted config connected now s +
    if counted config connected call.now s < config.maxRequests ∧ fresh config now call.now
    then 1 else 0 := by
  cases connected with
  | false =>
    simp only [checkRateLimit,checkInMemorySlidingWindow,filter_inMemory,length_inMemory,
      Bool.false_eq_true,if_false,Call.now] at hl ⊢
    split
    · simp_all [counted_false,countP_filter_fresh seconds hl,countP_singleton]
    · simp_all [counted_false]
  | true =>
    have hk := @key_check config call s fun e he => by
      obtain ⟨c,hc,hm,-⟩ := h.mem e (mem_of_mem_live (mem_filter.mp he).1)
      exact hm ▸ hn c hc
    have ho : (pruned config call.now s.key).countP (fun e => fresh config now e.1) =
        counted config true now s := by
      rw [h.pruned_eq,countP_filter_fresh _ hl,counted_true]
    simp only [h.length_pruned] at hk
    by_cases hlt : counted config true call.now s < config.maxRequests
    · rw [if_pos hlt,Key.expire] at hk
      simp only [hlt,true_and]
      split at hk
      case isFalse =>
        rw [← ho]
        simp [counted_true,hk,countP_singleton]
      case isTrue hd =>
        -- a window of no length keeps nothing
        have hw : config.windowSeconds ≤ 0 := by exact_mod_cast Int.ceil_le.mp hd
        have hs : ∀ t ≤ call.now, ¬ fresh config now t := by
          intro t ht
          simp only [fresh,decide_eq_true_eq]
          linarith
        have hnn : counted config true now s = 0 := by
          rw [counted_true]
          exact countP_eq_zero.mpr fun e he => hs _ (h.le_now hseen he)
        rw [hnn,if_neg (hs _ le_rfl)]
        simp [counted_true,hk]
    · rw [if_neg hlt] at hk
      rw [if_neg fun h => hlt h.1,← ho]
      simp [counted_true,hk]

end Added

/-- Calls one after another, each with a member of its own. -/
def Successive (calls : List Call) : Prop :=
  calls.Pairwise fun a b => a.now ≤ b.now ∧ a.member ≠ b.member

lemma Successive.last (h : Successive (calls ++ [call])) : Successive calls ∧
    (∀ c ∈ calls, c.now ≤ call.now) ∧ ∀ c ∈ calls, c.member ≠ call.member := by
  obtain ⟨hs,-,hl⟩ := pairwise_append.mp h
  have hc := fun c hc => hl c hc call (mem_singleton_self call)
  exact ⟨hs,fun c h => (hc c h).1,fun c h => (hc c h).2⟩

variable (config) in
lemma run_spec (h : Successive calls) : let p := run config connected calls
    Added config calls p.1.key ∧ (∀ t ∈ p.2, ∃ c ∈ calls, c.now = t) ∧
    ∀ now, (∀ c ∈ calls, c.now ≤ now) →
      counted config connected now p.1 = p.2.countP (fresh config now) ∧
      p.2.countP (fresh config now) ≤ config.maxRequests := by
  induction calls using reverseRecOn with
  | nil => exact ⟨⟨by simp [run],by simp [run]⟩,by simp [run],by
      cases connected <;> simp [run,counted_true,counted_false]⟩
  | append_singleton calls call ih =>
    obtain ⟨hs,hseen,hne⟩ := h.last
    obtain ⟨ha,htm,ho⟩ := ih hs
    have hr : run config connected (calls ++ [call]) =
        runStep config connected (run config connected calls) call := by
      simp [run]
    have hl := (ha.answer connected call).1
    rw [hr]
    generalize run config connected calls = p at *
    simp only [runStep,hl,decide_eq_true_eq]
    refine ⟨ha.check connected hseen,fun t ht => ?_,fun now hn => ?_⟩
    · have ht : t ∈ p.2 ∨ t = call.now := by
        split at ht
        · simpa using ht
        · exact .inl ht
      obtain ht | rfl := ht
      · exact (htm t ht).imp fun c hc => ⟨mem_append_left _ hc.1,hc.2⟩
      · exact ⟨call,by simp,rfl⟩
    · have he : call.now ≤ now := hn call (by simp)
      obtain ⟨hsm,hm⟩ := ho now fun c hc => hn c (mem_append_left _ hc)
      rw [ha.counted_check connected hseen hne he,hsm]
      by_cases hlt : counted config connected call.now p.1 < config.maxRequests
      · have hf : p.2.countP (fresh config now) ≤ p.2.countP (fresh config call.now) :=
          countP_mono_left fun t _ => fresh_mono he
        rw [← (ho call.now hseen).1] at hf
        simp only [hlt,true_and,if_true,countP_append,countP_singleton]
        split <;> omega
      · simpa [hlt] using hm

variable (config) (h : Successive (calls ++ [call]))
include h

/-- The answer to the next call depends on the allowed calls alone, whichever store has them. -/
lemma answer_run :
    let answer := (checkRateLimit config connected call (run config connected calls).1).1
    let count := (run config connected calls).2.countP fun t =>
      call.now - config.windowSeconds < t ∧ t ≤ call.now
    answer.allowed = decide (count < config.maxRequests) ∧ count ≤ config.maxRequests ∧
    answer.currentCount = count + if count < config.maxRequests then 1 else 0 := by
  obtain ⟨hl,hseen,-⟩ := h.last
  obtain ⟨ha,htm,ho⟩ := run_spec config connected hl
  obtain ⟨he,hm⟩ := ho call.now hseen
  have hw : ((run config connected calls).2.countP fun t =>
      call.now - config.windowSeconds < t ∧ t ≤ call.now) =
      (run config connected calls).2.countP (fresh config call.now) := by
    refine countP_congr fun t ht => ?_
    obtain ⟨c,hc,rfl⟩ := htm t ht
    simp [fresh,hseen c hc]
  simp only [hw,← he]
  exact ⟨(ha.answer connected call).1,he ▸ hm,(ha.answer connected call).2⟩

omit h in
lemma run_agrees (h : Successive calls) :
    (run config true calls).2 = (run config false calls).2 := by
  induction calls using reverseRecOn with
  | nil => rfl
  | append_singleton calls call ih =>
    have hs := ih h.last.1
    have ha (connected : Bool) := (answer_run config connected h).1
    simp only [run,foldl_append,foldl_cons,foldl_nil] at hs ha ⊢
    simp only [runStep,ha,hs]
    rfl

end

theorem limiters_agree (config : RateLimitConfig) (calls : List Call) (call : Call)
    (h : Successive (calls ++ [call])) :
    let redis := checkRateLimit config true call (run config true calls).1
    let memory := checkRateLimit config false call (run config false calls).1
    redis.1.allowed = memory.1.allowed ∧ redis.1.currentCount = memory.1.currentCount ∧
    (run config true calls).2 = (run config false calls).2 ∧
    (redis.1.allowed = false ↔ ((run config true calls).2.countP fun t =>
      call.now - config.windowSeconds < t ∧ t ≤ call.now) = config.maxRequests) := by
  obtain ⟨hr,hm,hc⟩ := answer_run config true h
  obtain ⟨he,-,hcurrent'⟩ := answer_run config false h
  have hu := run_agrees config h.last.1
  refine ⟨by rw [hr,he,hu],by rw [hc,hcurrent',hu],hu,?_⟩
  rw [hr,decide_eq_false_iff_not,not_lt]
  exact ⟨fun hge => hm.antisymm hge,fun heq => heq.ge⟩

theorem limiters_agree_once :
    (checkRateLimit ⟨1,60⟩ true ⟨1000,"b"⟩ (run ⟨1,60⟩ true [⟨0,"a"⟩]).1).1.currentCount =
    (checkRateLimit ⟨1,60⟩ false ⟨1000,"b"⟩ (run ⟨1,60⟩ false [⟨0,"a"⟩]).1).1.currentCount :=
  (limiters_agree ⟨1,60⟩ [⟨0,"a"⟩] ⟨1000,"b"⟩ (by simp [Successive,Call.now,seconds])).2.1

/-- The service after calls under any configurations, some of them while Redis was away. -/
def afterCalls (calls : List (RateLimitConfig × Bool × Call)) : Service :=
  calls.foldl (fun s p => (checkRateLimit p.1 p.2.1 p.2.2 s).2) {}

variable (config) (nowMs : Nat) (member : Nat → String) in
/-- The service after `i` more calls at one time. -/
def further (s : Service) : Nat → Service
  | 0 => s
  | i + 1 => (checkRateLimit config true ⟨nowMs,member i⟩ (further s i)).2

lemma mem_afterCalls {calls} :
    ∀ e ∈ (afterCalls calls).key.entries, ∃ p ∈ calls, e = (p.2.2.now,p.2.2.member) := by
  induction calls using reverseRecOn with
  | nil => simp [afterCalls]
  | append_singleton calls p ih =>
    intro e he
    simp only [afterCalls,foldl_append,foldl_cons,foldl_nil] at he
    obtain he | he := (mem_check he).elim And.left fun h => .inl h.1
    · exact (ih e he).imp fun q hq => ⟨mem_append_left _ hq.1,hq.2⟩
    · exact ⟨p,by simp,he⟩

lemma allowed_iff : (checkRateLimit config true call s).1.allowed = true ↔
    (pruned config call.now s.key).length < config.maxRequests := by
  simp only [checkRateLimit,slidingWindowScript,if_true]
  split <;> simp [*]

lemma pruned_check (hw : 0 < config.windowSeconds)
    (hn : ∀ e ∈ pruned config call.now s.key, e.2 ≠ call.member) :
    let kept := pruned config call.now s.key
    pruned config call.now (checkRateLimit config true call s).2.key =
      kept ++ if kept.length < config.maxRequests then [(call.now,call.member)] else [] := by
  intro kept
  have ha : kept.filter (fun e => ¬(0 ≤ e.1 ∧ e.1 ≤ call.now - config.windowSeconds)) = kept :=
    filter_eq_self.mpr fun e he => (mem_filter.mp he).2
  rw [key_check hn,show pruned config call.now s.key = kept from rfl]
  split
  case isTrue =>
    have hc : 0 < ⌈config.windowSeconds⌉ := Int.ceil_pos.mpr hw
    have hl : ¬ call.now + (⌈config.windowSeconds⌉ : ℚ) < call.now := by
      linarith [Int.le_ceil config.windowSeconds]
    simp only [pruned,Key.expire,Key.live,if_neg hc.not_ge,Option.any_some,hl,decide_false,
      Bool.false_eq_true,if_false,filter_append,ha]
    simp [hw]
  case isFalse =>
    rw [append_nil,pruned,Key.live]
    split
    case isTrue h => simp [kept,pruned,Key.live,h]
    case isFalse => exact ha

variable (nowMs : Nat) (member : Nat → String) (i : Nat)

lemma pruned_further (hw : 0 < config.windowSeconds) (hn : Function.Injective member)
    (hnw : ∀ e ∈ pruned config (seconds nowMs) s.key, ∀ i, e.2 ≠ member i) :
    let kept := pruned config (seconds nowMs) s.key
    pruned config (seconds nowMs) (further config nowMs member s i).key =
      kept ++ (range (min i (config.maxRequests - kept.length))).map fun j =>
        (seconds nowMs,member j) := by
  intro kept
  induction i with
  | zero => simp [further,kept]
  | succ i ih =>
    have hf : ∀ e ∈ pruned config (seconds nowMs) (further config nowMs member s i).key,
        e.2 ≠ member i := by
      intro e he
      rw [ih] at he
      obtain he | he := mem_append.mp he
      · exact hnw e he i
      obtain ⟨j,hj,rfl⟩ := mem_map.mp he
      have hl := mem_range.mp hj
      exact fun h => by
        have := hn h
        omega
    have hc := @pruned_check config ⟨nowMs,member i⟩ _ hw hf
    simp only [Call.now,ih,length_append,length_map,length_range] at hc
    rw [further,hc,append_assoc]
    by_cases hm : i < config.maxRequests - kept.length
    · rw [if_pos (by omega),min_eq_left hm.le,min_eq_left (by omega),range_succ,map_append]
      rfl
    · rw [if_neg (by omega),min_eq_right (by omega),min_eq_right (by omega),append_nil]

/-- A window of no length is empty at every call. -/
lemma pruned_further_eq_nil (hw : config.windowSeconds ≤ 0)
    (h : ∀ e ∈ s.key.entries, 0 ≤ e.1 ∧ e.1 ≤ seconds nowMs) :
    pruned config (seconds nowMs) (further config nowMs member s i).key = [] := by
  have hs : ∀ e ∈ (further config nowMs member s i).key.entries,0 ≤ e.1 ∧ e.1 ≤ seconds nowMs := by
    induction i with
    | zero => exact h
    | succ i ih =>
      intro e he
      obtain he | rfl := (mem_check he).elim And.left fun h => .inl h.1
      · exact ih e he
      · exact ⟨Call.now_nonneg _,le_rfl⟩
  refine filter_eq_nil_iff.mpr fun e he => ?_
  obtain ⟨hp,hl⟩ := hs e (mem_of_mem_live he)
  simpa [hp] using hl.trans (by linarith)

/-- The status is right where nothing stored has left the window, or nothing more is allowed. -/
theorem status_previews_iff (config : RateLimitConfig)
    (calls : List (RateLimitConfig × Bool × Call)) (nowMs : Nat)
    (hlater : ∀ p ∈ calls, p.2.2.nowMs ≤ nowMs) (member : Nat → String)
    (hinj : Function.Injective member) (hnew : ∀ p ∈ calls, ∀ i, p.2.2.member ≠ member i) :
    let s := afterCalls calls
    let live := s.key.live (seconds nowMs)
    let status := getRateLimitStatus config true nowMs s
    (status.allowed = (checkRateLimit config true ⟨nowMs,member 0⟩ s).1.allowed ∧
      ∀ i, (checkRateLimit config true ⟨nowMs,member i⟩
        (further config nowMs member s i)).1.allowed = true ↔ i < status.remaining) ↔
    config.maxRequests = 0 ∨ 0 < config.windowSeconds ∧
      ((∀ e ∈ live, seconds nowMs - config.windowSeconds < e.1) ∨ config.maxRequests ≤
        live.countP fun e => seconds nowMs - config.windowSeconds < e.1) := by
  intro s live status
  have hc : ∀ e ∈ s.key.entries, 0 ≤ e.1 ∧ e.1 ≤ seconds nowMs := by
    intro e he
    obtain ⟨p,hp,rfl⟩ := mem_afterCalls e he
    have hle : (p.2.2.nowMs : ℚ) ≤ nowMs := by exact_mod_cast hlater p hp
    exact ⟨Call.now_nonneg _,by simp only [Call.now,seconds]; linarith⟩
  have hr : (pruned config (seconds nowMs) s.key).length =
      live.countP fun e => seconds nowMs - config.windowSeconds < e.1 := by
    rw [countP_eq_length_filter,pruned]
    refine congrArg length (filter_congr fun e he => ?_)
    simp [(hc e (mem_of_mem_live he)).1]
  have hle := live.countP_le_length (p := fun e => seconds nowMs - config.windowSeconds < e.1)
  have ha : (∀ e ∈ live, seconds nowMs - config.windowSeconds < e.1) ↔
      live.countP (fun e => seconds nowMs - config.windowSeconds < e.1) = live.length := by
    simp [countP_eq_length]
  have hl : status.allowed = decide (live.length < config.maxRequests) := rfl
  have hm : status.remaining = config.maxRequests - live.length := rfl
  rw [ha,hl,hm,Bool.eq_iff_iff,decide_eq_true_eq]
  simp only [allowed_iff,Call.now]
  obtain hw | hw := le_or_gt config.windowSeconds 0
  · have hn (i : Nat) := pruned_further_eq_nil nowMs member i hw hc
    simp only [hn,length_nil]
    constructor
    · rintro ⟨-,h⟩
      have := h (config.maxRequests - live.length)
      omega
    · rintro (h | ⟨ho,-⟩)
      · simp [h]
      · exact absurd hw ho.not_ge
  · have hs (i : Nat) := congrArg length (pruned_further (s := s) nowMs member i hw hinj (by
      intro e he i
      obtain ⟨p,hp,rfl⟩ := mem_afterCalls e (mem_of_mem_live (mem_filter.mp he).1)
      exact hnew p hp i))
    simp only [length_append,length_map,length_range] at hs
    simp only [hs,hr,hw,true_and]
    constructor
    · rintro ⟨-,h⟩
      have := h (config.maxRequests - live.length)
      omega
    · intro h
      exact ⟨by omega,fun i => by omega⟩

/-- Two calls, fifty seconds apart: once the first has left the window another one is allowed, but
the status still counts both. -/
theorem status_counts_stale :
    let config : RateLimitConfig := ⟨2,60⟩
    let s := afterCalls [(config,true,⟨0,"a"⟩),(config,true,⟨50000,"b"⟩)]
    (getRateLimitStatus config true 70000 s).allowed = false ∧
      (checkRateLimit config true ⟨70000,"c"⟩ s).1.allowed = true := by
  decide +kernel

theorem status_previews_fresh :
    (getRateLimitStatus ⟨2,60⟩ true 50000 (afterCalls [(⟨2,60⟩,true,⟨0,"a"⟩)])).allowed =
    (checkRateLimit ⟨2,60⟩ true ⟨50000,""⟩ (afterCalls [(⟨2,60⟩,true,⟨0,"a"⟩)])).1.allowed := by
  refine ((status_previews_iff ⟨2,60⟩ [(⟨2,60⟩,true,⟨0,"a"⟩)] 50000 (by simp)
    (fun i => String.ofList (replicate i 'b')) (fun i j h => ?_) ?_).mpr
    (.inr ⟨by norm_num,.inl (by decide +kernel)⟩)).1
  · simpa using congrArg String.length h
  · intro p hp i h
    cases mem_singleton.mp hp
    have := congrArg String.toList h
    cases i <;> simp [replicate_succ] at this

end DukaPay.Backend.RateLimit
