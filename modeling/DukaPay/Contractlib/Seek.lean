import Mathlib.Data.List.Sort

/-! Rows are read page by page in descending order of a key. -/
namespace Contractlib
open List Option
variable {α κ : Type} [LinearOrder κ]

/-! ### Rows in order -/

structure Ordered (key : α → κ) (rows answer : List α) : Prop where
  perm : answer.Perm rows
  descending : answer.Pairwise fun row later => key later ≤ key row

def rankedKeys (key : α → κ) (rows : List α) : List κ :=
  (rows.map key).insertionSort fun k later => later ≤ k

section
variable {key : α → κ} {rows ans : List α}

lemma Ordered.rankedKeys_eq (h : Ordered key rows ans) : rankedKeys key rows = ans.map key := by
  have hs : (rankedKeys key rows).Pairwise fun k ltr => ltr ≤ k := pairwise_insertionSort _ _
  have hk : (ans.map key).Pairwise fun k ltr => ltr ≤ k := pairwise_map.mpr h.descending
  have hp : (rankedKeys key rows).Perm (ans.map key) :=
    (perm_insertionSort _ _).trans (h.perm.map key).symm
  exact hp.eq_of_pairwise (fun _ _ _ _ hl hg => le_antisymm hg hl) hs hk

lemma Ordered.of_perm {rows'} (h : Ordered key rows ans) (hp : rows.Perm rows') :
    Ordered key rows' ans :=
  ⟨h.perm.trans hp,h.descending⟩

lemma rankedKeys_congr {rows'} (hp : rows.Perm rows') :
    rankedKeys key rows = rankedKeys key rows' := by
  have hs : ∀ rows, (rankedKeys key rows).Pairwise fun k ltr => ltr ≤ k :=
    fun rows => pairwise_insertionSort _ _
  have hk : (rankedKeys key rows).Perm (rankedKeys key rows') :=
    (perm_insertionSort _ _).trans ((hp.map key).trans (perm_insertionSort _ _).symm)
  exact hk.eq_of_pairwise (fun _ _ _ _ hl hg => le_antisymm hg hl) (hs _) (hs _)

end

/-! ### Walks -/

/-- The pages that are read from the rows on. The last page is the one that is not followed by a
position. -/
inductive Walk (key : α → κ) (position : κ → Option κ) (limit : Nat) : List α → List (List α) → Prop
  | last {rows page : List α} (hpage : Ordered key rows page) (hlimit : page.length ≤ limit) :
      Walk key position limit rows [page]
  | next {rows answer : List α} {row : α} {c : κ} {pages : List (List α)}
      (hanswer : Ordered key rows answer) (hlimit : limit < answer.length)
      (hrow : answer[limit - 1]? = some row) (hc : position (key row) = some c)
      (hrest : Walk key position limit (rows.filter fun row => key row < c) pages) :
      Walk key position limit rows (answer.take limit :: pages)

def Separated (position : κ → Option κ) (limit : Nat) (keys : List κ) : Prop :=
  ∀ n < keys.length, limit ∣ n + 1 →
    ∀ last ∈ keys[n]?, ∀ next ∈ keys[n + 1]?, ∃ c ∈ position last, next < c

instance (position : κ → Option κ) (limit : Nat) (keys : List κ) :
    Decidable (Separated position limit keys) :=
  inferInstanceAs (Decidable (∀ n < keys.length, limit ∣ n + 1 →
    ∀ last ∈ keys[n]?, ∀ next ∈ keys[n + 1]?, ∃ c ∈ position last, next < c))

section
variable {position : κ → Option κ} {limit : Nat} {keys : List κ}

lemma separated_of_length_le (h : keys.length ≤ limit) : Separated position limit keys := by
  intro n hn hd last _ next hx
  have ht : n + 1 < keys.length := by
    rw [Option.mem_def] at hx
    exact (List.getElem?_eq_some_iff.mp hx).1
  have hl : limit ≤ n + 1 := Nat.le_of_dvd n.succ_pos hd
  omega

lemma separated_iff (hli : 0 < limit) : Separated position limit keys ↔
    (∀ last ∈ keys[limit - 1]?, ∀ next ∈ keys[limit]?, ∃ c ∈ position last, next < c) ∧
    Separated position limit (keys.drop limit) := by
  constructor
  · intro h
    refine ⟨fun last hl next hx => ?_,fun n hn hd last hl next hx => ?_⟩
    · have ht : limit - 1 < keys.length := by
        rw [Option.mem_def] at hl
        exact (List.getElem?_eq_some_iff.mp hl).1
      have he : limit - 1 + 1 = limit := Nat.sub_add_cancel hli
      exact h (limit - 1) ht ⟨1,by omega⟩ last hl next (by rw [he]; exact hx)
    · rw [List.length_drop] at hn
      rw [List.getElem?_drop] at hl hx
      exact h (limit + n) (by omega) ((Nat.dvd_add_right (Nat.dvd_refl limit)).mpr hd)
        last hl next hx
  · rintro ⟨hf,hr⟩ n hn hd last hl next hx
    by_cases hp : n < limit
    · -- the only end of a page among the first `limit` rows
      have he : n + 1 = limit := Nat.le_antisymm hp (Nat.le_of_dvd n.succ_pos hd)
      obtain rfl : n = limit - 1 := by omega
      exact hf last hl next (by rw [← he]; exact hx)
    obtain ⟨k,rfl⟩ : ∃ k, n = limit + k := ⟨n - limit,by omega⟩
    refine hr k (by rw [List.length_drop]; omega)
      ((Nat.dvd_add_right (Nat.dvd_refl limit)).mp hd) last ?_ next ?_
    · rw [List.getElem?_drop]
      exact hl
    · rw [List.getElem?_drop]
      exact hx

end

variable {key : α → κ} {position : κ → Option κ} {limit : Nat} {rows ans : List α}
  {row : α} {c : κ}
variable {pages : List (List α)}

lemma Walk.of_perm {rows'} (h : Walk key position limit rows pages)
    (hp : rows.Perm rows') : Walk key position limit rows' pages := by
  induction h generalizing rows' with
  | last hpa hl => exact .last (hpa.of_perm hp) hl
  | next ha hl hr hc _ ih =>
    exact .next (ha.of_perm hp) hl hr hc (ih (hp.filter _))

lemma filter_eq_filter_drop (ha : Ordered key rows ans)
    (hro : ans[limit - 1]? = some row) (hc : c ≤ key row) :
    ans.filter (fun row => key row < c) = (ans.drop limit).filter fun row => key row < c := by
  have hk : (ans.take limit).filter (fun row => key row < c) = [] := by
    rw [List.filter_eq_nil_iff]
    intro r hr
    obtain ⟨i,hi,rfl⟩ := List.getElem_of_mem hr
    rw [List.length_take] at hi
    obtain ⟨hl,rfl⟩ := List.getElem?_eq_some_iff.mp hro
    rw [List.getElem_take,decide_eq_true_eq,not_lt]
    refine hc.trans ?_
    -- the page is in descending order, and its last row is at `limit - 1`
    rcases Nat.lt_or_ge i (limit - 1) with ht | hg
    · exact List.pairwise_iff_getElem.mp ha.descending i (limit - 1) _ hl ht
    · obtain rfl : i = limit - 1 := by omega
      exact le_refl _
  conv_lhs => rw [← List.take_append_drop limit ans,List.filter_append,hk,List.nil_append]

lemma filter_eq_drop (ha : Ordered key rows ans) (hro : ans[limit - 1]? = some row)
    (hc : c ≤ key row) (hn : ∀ next ∈ (ans.map key)[limit]?, next < c) : ans.filter
    (fun row => key row < c) = ans.drop limit := by
  rw [filter_eq_filter_drop ha hro hc,filter_eq_self]
  intro r hr
  obtain ⟨i,hi,rfl⟩ := getElem_of_mem hr
  rw [length_drop] at hi
  rw [getElem_drop,decide_eq_true_eq]
  have hl : limit < ans.length := by omega
  have hf : key ans[limit] < c := by
    refine hn _ ?_
    rw [getElem?_map,getElem?_eq_getElem hl]
    rfl
  rcases Nat.eq_zero_or_pos i with rfl | hpos
  · exact hf
  · exact lt_of_le_of_lt
      (pairwise_iff_getElem.mp ha.descending limit (limit + i) hl (by omega) (by omega))
      hf

variable (hposition : ∀ k c, position k = some c → c ≤ k) (hpos : 0 < limit)

include hposition hpos

lemma Separated.next (ha : Ordered key rows ans) (hli : limit < ans.length)
    (hs : Separated position limit (rankedKeys key rows)) : ∃ row c, ans[limit - 1]? = some row ∧
    position (key row) = some c ∧ (rows.filter fun row => key row < c).Perm (ans.drop limit) ∧
    Separated position limit (rankedKeys key (rows.filter fun row => key row < c)) := by
  rw [ha.rankedKeys_eq,separated_iff hpos] at hs
  obtain ⟨he,hr⟩ := hs
  have hl : limit - 1 < ans.length := by omega
  have hro : ans[limit - 1]? = some ans[limit - 1] := getElem?_eq_getElem hl
  obtain ⟨c,hc,hn⟩ := he (key ans[limit - 1]) (by rw [getElem?_map,hro]; rfl) (key ans[limit])
    (by rw [getElem?_map,getElem?_eq_getElem hli]; rfl)
  have hf : ans.filter (fun row => key row < c) = ans.drop limit := by
    refine filter_eq_drop ha hro (hposition _ c hc) fun next hm => ?_
    rw [getElem?_map,getElem?_eq_getElem hli,map_some,mem_some_iff] at hm
    exact hm ▸ hn
  have hp : (rows.filter fun row => key row < c).Perm (ans.drop limit) :=
    hf ▸ (ha.perm.filter _).symm
  have hd : Ordered key (rows.filter fun row => key row < c) (ans.drop limit) :=
    ⟨hp.symm,ha.descending.sublist (drop_sublist limit ans)⟩
  refine ⟨ans[limit - 1],c,hro,hc,hp,?_⟩
  rw [hd.rankedKeys_eq,map_drop]
  exact hr

lemma Walk.ordered (h : Walk key position limit rows pages)
    (hs : Separated position limit (rankedKeys key rows)) : Ordered key rows pages.flatten := by
  induction h with
  | last hpa =>
    rw [flatten_cons,flatten_nil,append_nil]
    exact hpa
  | @next rows ans row c pages ha hli hro hc _ ih =>
    obtain ⟨row',c',hr',hc',hm,hre⟩ := hs.next hposition hpos ha hli
    obtain rfl : row' = row := Option.some.inj (hr'.symm.trans hro)
    obtain rfl : c' = c := Option.some.inj (hc'.symm.trans hc)
    have hp := ih hre
    have hd : pages.flatten.Perm (ans.drop limit) := hp.perm.trans hm
    have hsp := ha.descending
    rw [← take_append_drop limit ans,pairwise_append] at hsp
    rw [flatten_cons]
    refine ⟨?_,pairwise_append.mpr ⟨hsp.1,hp.descending,fun r hr ltr hl => ?_⟩⟩
    · calc (ans.take limit ++ pages.flatten).Perm (ans.take limit ++ ans.drop limit) :=
            hd.append_left _
        _ = ans := take_append_drop limit ans
        _ |>.Perm rows := ha.perm
    · exact hsp.2.2 r hr ltr (hd.mem_iff.mp hl)

omit hpos in
lemma Walk.length_le (h : Walk key position limit rows pages) :
    pages.flatten.length ≤ rows.length := by
  induction h with
  | last hp => rw [flatten_cons,flatten_nil,append_nil,hp.perm.length_eq]
  | @next rows ans row c pages ha hlimit hro hc _ ih =>
    have hr : (rows.filter fun row => key row < c).length ≤ (ans.drop limit).length := by
      rw [← (ha.perm.filter _).length_eq,filter_eq_filter_drop ha hro (hposition _ c hc)]
      exact length_filter_le _ _
    rw [length_drop] at hr
    rw [flatten_cons,length_append,length_take,← ha.perm.length_eq]
    omega

lemma Walk.separated (h : Walk key position limit rows pages)
    (hln : pages.flatten.length = rows.length) :
    Separated position limit (rankedKeys key rows) := by
  induction h with
  | last hp hl =>
    rw [hp.rankedKeys_eq]
    exact separated_of_length_le (by rw [length_map]; exact hl)
  | @next rows ans row c pages ha hl hro hc hw ih =>
    have hle := hw.length_le hposition
    have hf : (ans.drop limit).filter (fun row => key row < c) = ans.drop limit := by
      -- the rows that are left are as many as the rows after the page
      refine List.Sublist.eq_of_length_le filter_sublist ?_
      rw [← filter_eq_filter_drop ha hro (hposition _ c hc),(ha.perm.filter _).length_eq,
        length_drop]
      rw [flatten_cons,length_append,length_take,← ha.perm.length_eq] at hln
      omega
    have hpm : (ans.drop limit).Perm (rows.filter fun row => key row < c) := by
      rw [← hf,← filter_eq_filter_drop ha hro (hposition _ c hc)]
      exact ha.perm.filter _
    have hr := ih (by
      rw [← hpm.length_eq,length_drop]
      rw [flatten_cons,length_append,length_take,← ha.perm.length_eq] at hln
      omega)
    have hd : Ordered key (rows.filter fun row => key row < c) (ans.drop limit) :=
      ⟨hpm,ha.descending.sublist (drop_sublist limit ans)⟩
    rw [hd.rankedKeys_eq,map_drop] at hr
    rw [ha.rankedKeys_eq,separated_iff hpos]
    refine ⟨fun last hla next hn => ⟨c,?_,?_⟩,hr⟩
    · rw [getElem?_map,hro,map_some,mem_some_iff] at hla
      exact hla ▸ hc
    · rw [getElem?_map,getElem?_eq_getElem hl,map_some,mem_some_iff] at hn
      have hm : ans[limit] ∈ ans.drop limit := by
        rw [drop_eq_getElem_cons hl]
        exact mem_cons_self
      rw [← hf,mem_filter,decide_eq_true_eq] at hm
      exact hn ▸ hm.2

end Contractlib
