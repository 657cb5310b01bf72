import Mathlib.Analysis.SpecialFunctions.Log.Basic

/-! Every run decays the stored score by all the days since the last event. Times are in days. -/
namespace DukaPay.Backend.ScoreDecay
open List

noncomputable section

def lambdaForHalfLife (halfLifeDays : ℝ) : Option ℝ :=
  if halfLifeDays ≤ 0 then none else some (Real.log 2 / halfLifeDays)

def decayedScore (initialScore : Int) (daysSinceEvent halfLifeDays : ℝ) : Option Int :=
  if daysSinceEvent ≤ 0 then some initialScore
  else do
    let lambda ← lambdaForHalfLife halfLifeDays
    let decayed := initialScore * Real.exp (-lambda * daysSinceEvent)
    pure (max 300 ⌊decayed + 1 / 2⌋)

/-- A borrower with a last event, and the half-life for its type. -/
structure Borrower where
  lastEvent : ℝ
  halfLife : ℝ

variable (b : Borrower) (ago : ℝ → ℝ) {s s' : Int} (t : ℝ) {ts : List ℝ}

/-- One run of the job; where the half-life is refused the score stays. -/
def run (score : Int) (now : ℝ) : Int :=
  -- inactive borrowers only
  if b.lastEvent < ago now then
    (decayedScore score (max 0 (now - b.lastEvent)) b.halfLife).getD score
  else score

def factor : ℝ := Real.exp (-(Real.log 2 / b.halfLife) * (t - b.lastEvent))

def Decays : Prop := b.lastEvent < ago t ∧ b.lastEvent < t ∧ 0 < b.halfLife

variable {b ago t} in
lemma run_of_decays (h : Decays b ago t) : run b ago s t = max 300 ⌊s * factor b t + 1 / 2⌋ := by
  obtain ⟨hm,ht,hl⟩ := h
  have hd : 0 < t - b.lastEvent := sub_pos.mpr ht
  simp [run,hm,decayedScore,lambdaForHalfLife,factor,max_eq_right hd.le,ht.not_ge,hl.not_ge]

variable {b ago t} in
lemma run_of_not_decays (h : ¬Decays b ago t) : run b ago s t = s := by
  by_cases hm : b.lastEvent < ago t
  · by_cases ht : b.lastEvent < t
    · have hl : b.halfLife ≤ 0 := not_lt.mp fun hl => h ⟨hm,ht,hl⟩
      simp [run,hm,decayedScore,lambdaForHalfLife,hl,ht.not_ge]
    · simp [run,hm,decayedScore,not_lt.mp ht]
  · simp [run,hm]

lemma run_le (hs : 300 ≤ s) : run b ago s t ≤ s := by
  by_cases h : Decays b ago t
  · have hq : 0 ≤ Real.log 2 / b.halfLife := div_nonneg (Real.log_nonneg one_le_two) h.2.2.le
    have hd : 0 ≤ t - b.lastEvent := sub_nonneg.mpr h.2.1.le
    have hf : factor b t ≤ 1 := by
      rw [factor,Real.exp_le_one_iff,neg_mul]
      exact neg_nonpos.mpr (mul_nonneg hq hd)
    have hc : (300 : ℝ) ≤ s := by exact_mod_cast hs
    have hl : ⌊s * factor b t + 1 / 2⌋ < s + 1 := by
      rw [Int.floor_lt]
      push_cast
      nlinarith
    rw [run_of_decays h]
    omega
  · rw [run_of_not_decays h]

lemma le_run (hs : 300 ≤ s) : 300 ≤ run b ago s t := by
  by_cases h : Decays b ago t
  · rw [run_of_decays h]
    exact le_max_left ..
  · rwa [run_of_not_decays h]

lemma run_mono (hs : s ≤ s') : run b ago s t ≤ run b ago s' t := by
  by_cases h : Decays b ago t
  · have hc : (s : ℝ) ≤ s' := Int.cast_le.mpr hs
    have hf : 0 ≤ factor b t := (Real.exp_pos _).le
    rw [run_of_decays h,run_of_decays h]
    gcongr
  · rwa [run_of_not_decays h,run_of_not_decays h]

lemma foldl_run (hs : 300 ≤ s) : 300 ≤ ts.foldl (run b ago) s ∧ ts.foldl (run b ago) s ≤ s ∧
    ((∀ t ∈ ts, ¬Decays b ago t) → ts.foldl (run b ago) s = s) := by
  induction ts generalizing s with
  | nil => exact ⟨hs,le_rfl,fun _ => rfl⟩
  | cons t ts ih =>
    obtain ⟨hl,hu,he⟩ := ih (le_run b ago t hs)
    refine ⟨hl,hu.trans (run_le b ago t hs),fun h => ?_⟩
    obtain ⟨ht,hts⟩ := forall_mem_cons.mp h
    rw [foldl_cons,he hts,run_of_not_decays ht]

/-- **Schedule**: the score after several runs is that of the last one alone, up to the number of
runs, if none before it decays the score or little is left above the floor. -/
theorem decay_schedule (b : Borrower) (ago : ℝ → ℝ) (s : Int) (earlier : List ℝ) (T : ℝ)
    (hs : 300 ≤ s)
    (h : (∀ t ∈ earlier, ¬Decays b ago t) ∨
      Decays b ago T ∧ s * factor b T < 300 + (earlier.length + 1) + 1 / 2) :
    300 ≤ (earlier ++ [T]).foldl (run b ago) s ∧
      |(earlier ++ [T]).foldl (run b ago) s - run b ago s T| ≤ earlier.length + 1 := by
  obtain ⟨hl,hu,he⟩ := @foldl_run b ago s earlier hs
  have hp := run_mono b ago T hu
  have hw := le_run b ago T hl
  rw [foldl_append,foldl_cons,foldl_nil,abs_sub_comm,abs_of_nonneg (sub_nonneg.mpr hp)]
  refine ⟨hw,?_⟩
  rcases h with h | ⟨hd,h⟩
  · rw [he h]
    omega
  · have hf : ⌊s * factor b T + 1 / 2⌋ < 300 + (earlier.length + 1) + 1 := by
      rw [Int.floor_lt]
      push_cast
      linarith
    have hr := @run_of_decays b ago s T hd
    omega

theorem decay_schedule_early :
    |[10,60].foldl (run ⟨0,90⟩ (· - 30)) 850 - run ⟨0,90⟩ (· - 30) 850 60| ≤ 2 :=
  (decay_schedule ⟨0,90⟩ (· - 30) 850 [10] 60 (by decide) (.inl (by norm_num [Decays]))).2

/-- Runs after 45 and 90 days, with a half-life of 90. -/
theorem decayed_twice :
    2 < |[45,90].foldl (run ⟨0,90⟩ (· - 30)) 850 - run ⟨0,90⟩ (· - 30) 850 90| := by
  have hd : Decays ⟨0,90⟩ (· - 30) 45 ∧ Decays ⟨0,90⟩ (· - 30) 90 := by norm_num [Decays]
  have hf : factor ⟨0,90⟩ 90 = 1 / 2 := by simp [factor,Real.exp_neg,Real.exp_log]
  have hq : factor ⟨0,90⟩ 45 * factor ⟨0,90⟩ 45 = 1 / 2 := by
    rw [← hf,factor,factor,← Real.exp_add]
    ring_nf
  have hp : 0 < factor ⟨0,90⟩ 45 := Real.exp_pos _
  have h45 : run ⟨0,90⟩ (· - 30) 850 45 ≤ 638 := by
    have hl : ⌊(850 : Int) * factor ⟨0,90⟩ 45 + 1 / 2⌋ < 639 := by
      rw [Int.floor_lt]
      norm_num
      nlinarith
    rw [run_of_decays hd.1]
    omega
  have h90 := run_mono ⟨0,90⟩ (· - 30) 90 h45
  rw [run_of_decays hd.2,run_of_decays hd.2,hf] at h90
  rw [foldl_cons,foldl_cons,foldl_nil,lt_abs,run_of_decays hd.2,run_of_decays hd.2,hf]
  norm_num at h90 ⊢
  omega

end

end DukaPay.Backend.ScoreDecay
