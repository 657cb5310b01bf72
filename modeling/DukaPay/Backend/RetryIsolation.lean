import DukaPay.Backend.Webhooks

/-! A run of the processor fails before it has read a delivery. -/
namespace DukaPay.Backend.Webhooks
open Contractlib List Thread
variable {env : Env} {answers : Statement → Answer} {row : Due} {db : Db}

def Progress (row : Due) (db : Db) : Prop :=
  (∃ post ∈ db.posts, post.deliveryId = some row.delivery.id) ∨
    ∃ d, selectRow Delivery.id row.delivery.id db.deliveries = some d ∧
      d.attemptCount = row.delivery.attemptCount + 1

lemma finish_selectDue (answers) (db) : ∃ e, selectDue.finish answers db = (.error e,db) := by
  rw [selectDue,sql,faulty,finish_statement]
  simp only [selectDue_answer]
  cases (answers .selectDue).fault with
  | none => exact ⟨_,rfl⟩
  | lost => exact ⟨_,rfl⟩
  | late => exact ⟨_,rfl⟩

/-- The error is caught around the whole run, which then has done nothing. -/
lemma finish_processRetries (db) : (processRetries env).finish answers db = (.ok (),db) := by
  obtain ⟨_,he⟩ := finish_selectDue answers db
  rw [processRetries,finish_tryCatch,finish_bind,he]
  rfl

lemma mem_deliveries_of_mem_selection (h : row ∈ db.selection) : row.delivery ∈ db.deliveries := by
  have hd : row ∈ db.due := (mem_insertionSort _).mp (mem_of_mem_take h)
  obtain ⟨d,hm,hj⟩ := mem_filterMap.mp hd
  obtain ⟨s,-,rfl⟩ := Option.map_eq_some_iff.mp hj
  exact (mem_filter.mp hm).1

lemma selection_eq_nil_iff : db.selection = [] ↔ db.due = [] := by
  rw [Db.selection,take_eq_nil_iff,← length_eq_zero_iff,length_insertionSort,length_eq_zero_iff]
  exact or_iff_right (by decide)

lemma not_progress (hi : (db.deliveries.map Delivery.id).Nodup) (hp : db.posts = [])
    (h : row ∈ db.selection) : ¬ Progress row db := by
  rintro (⟨post,hm,-⟩ | ⟨d,hd,ha⟩)
  · rw [hp] at hm
    cases hm
  · rw [selectRow_of_mem hi (mem_deliveries_of_mem_selection h)] at hd
    cases hd
    omega

/-- **A run of the processor** makes progress on every delivery that it should read exactly if there
is none, whatever the deliveries are and whatever fails. -/
theorem progress_iff (env : Env) (answers : Statement → Answer) (db : Db)
    (hids : (db.deliveries.map Delivery.id).Nodup) (hposts : db.posts = []) :
    (∀ row ∈ db.selection, Progress row ((processRetries env).finish answers db).2) ↔
      db.due = [] := by
  rw [finish_processRetries,← selection_eq_nil_iff,eq_nil_iff_forall_not_mem]
  refine ⟨fun h row hr => not_progress hids hposts hr (h row hr),fun h row hr => ?_⟩
  exact absurd hr (h row)

private def plain : Env := ⟨65536,fun _ => 2,fun _ _ => none⟩

private def waiting (deliveredAt nextRetryAt : Option Int) (id : Nat) : Delivery :=
  ⟨id,1,"event","LoanApproved",[],1,some 503,some (statusError 503),deliveredAt,nextRetryAt⟩

private def queue (deliveries : List Delivery) : Db :=
  ⟨[⟨1,"https://example.com/hook",["LoanApproved"],none,true⟩],deliveries,10,1000,[],[]⟩

private def accepted : Statement → Answer := fun _ => ⟨.none,.ok (),.ok 200⟩

/-- One delivery has arrived and one is not due yet. -/
theorem progress_iff_idle :
    let db := queue [waiting (some 500) none 5,waiting none (some 2000) 6]
    db.due = [] ∧
      ∀ row ∈ db.selection, Progress row ((processRetries plain).finish accepted db).2 :=
  ⟨rfl,(progress_iff plain accepted _ (by decide) rfl).mpr rfl⟩

/-- One delivery is due, its endpoint would take it, and it is neither posted nor recorded. -/
theorem due_delivery_ignored :
    let row : Due := ⟨waiting none (some 100) 5,"https://example.com/hook",none⟩
    row ∈ (queue [waiting none (some 100) 5]).selection ∧
      ¬ Progress row
        ((processRetries plain).finish accepted (queue [waiting none (some 100) 5])).2 := by
  refine ⟨mem_cons_self,?_⟩
  rw [finish_processRetries]
  exact not_progress (by decide) rfl mem_cons_self

end DukaPay.Backend.Webhooks
