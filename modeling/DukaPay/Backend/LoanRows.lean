import DukaPay.Backend.Events
import DukaPay.JavaScript
import DukaPay.Protocol.Accounts

/-! The loan manager publishes its events, `parseEvent` reads them, and the backend derives what is
owed on a loan from the rows that were stored. -/
namespace DukaPay.Backend.LoanRows
open Contractlib JavaScript List Option

structure Codec (ScVal : Type) where
  rt : Runtime ScVal
  symbol : String → ScVal
  address : Address → ScVal
  u32 : Nat → ScVal
  i128 : Int → ScVal
  pair : Nat → Nat → ScVal
  strkey : Address → String
  frame : SorobanRawEvent ScVal

structure Codec.Documented {ScVal : Type} (c : Codec ScVal) : Prop where
  sym_symbol : ∀ s, c.rt.sym (c.symbol s) = .ok s
  native_address : ∀ a, c.rt.scValToNative (c.address a) = .ok (.string (c.strkey a))
  native_u32 : ∀ n : Nat, c.rt.scValToNative (c.u32 n) = .ok (.number (.integer n))
  native_i128 : ∀ n, c.rt.scValToNative (c.i128 n) = .ok (.bigint n)
  native_pair : ∀ m n : Nat, c.rt.scValToNative (c.pair m n) =
    .ok (.array [.number (.integer m),.number (.integer n)])
  number : ∀ x, c.rt.toNumber (.number x) = .ok x
  xdr : ∀ v, ∃ text, c.rt.toXDR v = .ok text

structure EventRow where
  eventType : EventType
  loanId : Option JsNumber
  amount : Option String
  ledger : Nat
  interestRateBps : Option JsNumber
  termLedgers : Option JsNumber

def EventRow.of (event : ContractEvent) : EventRow where
  eventType := event.eventType
  loanId := event.loanId
  amount := event.amount
  ledger := event.ledger
  interestRateBps := event.interestRateBps
  termLedgers := event.termLedgers

section
variable {ScVal : Type} (c : Codec ScVal)

def Codec.encode : LoanEvent → Option (List ScVal × ScVal)
  | .LoanRequested loanId borrower amount =>
    some ([c.symbol "LoanRequested",c.u32 loanId,c.address borrower],c.i128 amount)
  | .LoanApproved loanId borrower interestRateBps termLedgers =>
    some ([c.symbol "LoanApproved",c.u32 loanId,c.address borrower],
      c.pair interestRateBps termLedgers)
  | .LoanRepaid borrower loanId amount =>
    some ([c.symbol "LoanRepaid",c.address borrower,c.u32 loanId],c.i128 amount)
  | .LoanDefaulted loanId borrower =>
    some ([c.symbol "LoanDefaulted",c.u32 loanId],c.address borrower)
  | _ => none

def Codec.row (event : Nat × LoanEvent) : Option EventRow := do
  let (topic,value) ← c.encode event.2
  let parsed ← (parseEvent c.rt { c.frame with topic, value, ledger := event.1 }).toOption
  parsed.map EventRow.of

def Codec.rows (log : List (Nat × LoanEvent)) : List EventRow :=
  log.filterMap c.row

def rowOf : Nat × LoanEvent → Option EventRow
  | (ledger,.LoanRequested loanId _ amount) =>
    some ⟨.LoanRequested,some (.integer loanId),some (toString amount),ledger,none,none⟩
  | (ledger,.LoanApproved loanId _ interestRateBps termLedgers) =>
    some ⟨.LoanApproved,some (.integer loanId),none,ledger,some (.integer interestRateBps),
      some (.integer termLedgers)⟩
  | (ledger,.LoanRepaid _ loanId amount) =>
    some ⟨.LoanRepaid,some (.integer loanId),some (toString amount),ledger,none,none⟩
  | (ledger,.LoanDefaulted loanId _) =>
    some ⟨.LoanDefaulted,some (.integer loanId),none,ledger,none,none⟩
  | _ => none

variable {c} (hc : c.Documented)

include hc

lemma decodeEventType_symbol (name) : decodeEventType c.rt (some (c.symbol name)) =
    supportedWebhookEventTypes.lookup ((eventTypeAliases.lookup name).getD name) := by
  simp [decodeEventType,hc.sym_symbol,Except.toOption]

lemma decodeLoanId_u32 (n) : decodeLoanId c.rt (c.u32 n) = some (.integer n) := by
  have hr : (c.rt.scValToNative (c.u32 n) >>= c.rt.toNumber) = .ok (.integer n) := by
    rw [hc.native_u32]
    exact hc.number _
  rw [decodeLoanId,hr]
  rfl

lemma decodeAddress_address (a) : decodeAddress c.rt (c.address a) = .ok (c.strkey a) := by
  rw [decodeAddress,hc.native_address]
  rfl

lemma decodeAmount_i128 (n) : decodeAmount c.rt (c.i128 n) = .ok (toString n) := by
  rw [decodeAmount,hc.native_i128]
  rfl

lemma mapM_toXDR (values : List ScVal) : ∃ texts, values.mapM c.rt.toXDR = .ok texts := by
  induction values with
  | nil => exact ⟨[],rfl⟩
  | cons v values ih =>
    obtain ⟨text,hv⟩ := hc.xdr v
    obtain ⟨texts,hl⟩ := ih
    exact ⟨text :: texts,by rw [mapM_cons,hv,hl]; rfl⟩

lemma row_eq {event : Nat × LoanEvent} {topic value}
    (type) (fields : Decoded) (he : c.encode event.2 = some (topic,value))
    (ht : decodeEventType c.rt topic[0]? = some type)
    (hf : decodeFields c.rt type { c.frame with topic, value, ledger := event.1 } =
      .ok (some fields)) :
    c.row event = some ⟨type,fields.loanId,fields.amount,event.1,fields.interestRateBps,
      fields.termLedgers⟩ := by
  obtain ⟨_,htp⟩ := mapM_toXDR hc topic
  obtain ⟨_,hv⟩ := hc.xdr value
  have hp : ∃ p, parseEvent c.rt { c.frame with topic, value, ledger := event.1 } =
      .ok (some p) ∧ EventRow.of p = ⟨type,fields.loanId,fields.amount,event.1,
        fields.interestRateBps,fields.termLedgers⟩ := by
    simp only [parseEvent,ht,hf,htp,hv]
    exact ⟨_,rfl,rfl⟩
  obtain ⟨p,hpr,hr⟩ := hp
  simp only [Codec.row,he,hpr,Except.toOption,bind_eq_bind,bind_some,map_some,hr]

lemma row_eq_rowOf (event) : c.row event = rowOf event := by
  obtain ⟨_,event⟩ := event
  cases event with
  | LoanRequested id borrower amount =>
    refine row_eq hc .LoanRequested ⟨some (.integer id),some (c.strkey borrower),
      some (toString amount),none,none,none⟩ rfl
      (decodeEventType_symbol hc "LoanRequested") ?_
    simp only [decodeFields,getElem?_cons_succ,getElem?_cons_zero,decodeLoanId_u32 hc,
      decodeAddress_address hc,decodeAmount_i128 hc]
    rfl
  | LoanApproved id borrower irb term =>
    refine row_eq hc .LoanApproved ⟨some (.integer id),some (c.strkey borrower),none,
      some (.integer irb),some (.integer term),none⟩ rfl
      (decodeEventType_symbol hc "LoanApproved") ?_
    simp only [decodeFields,getElem?_cons_succ,getElem?_cons_zero,decodeLoanId_u32 hc,
      decodeAddress_address hc,hc.native_pair]
    show (do
      let rate ← c.rt.toNumber (.number (.integer irb))
      _) = _
    rw [hc.number,hc.number]
    rfl
  | LoanRepaid borrower id amount =>
    refine row_eq hc .LoanRepaid ⟨some (.integer id),some (c.strkey borrower),
      some (toString amount),none,none,none⟩ rfl
      (decodeEventType_symbol hc "LoanRepaid") ?_
    simp only [decodeFields,getElem?_cons_succ,getElem?_cons_zero,decodeLoanId_u32 hc,
      decodeAddress_address hc,decodeAmount_i128 hc]
    rfl
  | LoanDefaulted id borrower =>
    refine row_eq hc .LoanDefaulted ⟨some (.integer id),some (c.strkey borrower),none,
      none,none,none⟩ rfl (decodeEventType_symbol hc "LoanDefaulted") ?_
    simp only [decodeFields,getElem?_cons_succ,getElem?_cons_zero,decodeLoanId_u32 hc,
      decodeAddress_address hc]
    rfl
  | _ => rfl

lemma rows_eq (log) : c.rows log = log.filterMap rowOf :=
  filterMap_congr fun ev _ => row_eq_rowOf hc ev

end

/-! ### What is owed and what was paid -/

structure LoanReconciliation where
  owedStroops : Int
  paidStroops : Int
  driftStroops : Int
  deriving DecidableEq

/-- One row of the loop in `reconcileLoanStroops`; nothing is a `SyntaxError` of `BigInt`. -/
def addRow (sums : Int × Int) (row : EventRow) : Option (Int × Int) := do
  let amount ← stringToBigInt (row.amount.getD "").toList
  if row.eventType = .LoanApproved then pure (sums.1 + amount,sums.2)
  else pure (sums.1,sums.2 + amount)

def reconcileLoanStroops (rows : List EventRow) (loanId : Nat) : Option LoanReconciliation := do
  let selected := rows.filter fun row =>
    row.loanId = some (.integer loanId) ∧
      (row.eventType = .LoanApproved ∨ row.eventType = .LoanRepaid) ∧ row.amount.isSome = true
  let (owedStroops,paidStroops) ← selected.foldlM addRow (0,0)
  pure ⟨owedStroops,paidStroops,if paidStroops < owedStroops then owedStroops - paidStroops else 0⟩

def paidThroughRepay {d : Deployment} (loanId : Nat) : DukaPay.World → List (Invocation d) → Int
  | _,[] => 0
  | w,i :: is =>
    (match i.call,i.call.exec d i.env w with
      | .loan (.repay _ id amount),.ok _ => if id = loanId then amount else 0
      | _,_ => 0) + paidThroughRepay loanId ((protocol d).apply w i) is

/-- Owed is the principal, paid is what went through `repay`, and they drift while less was paid. -/
def Exact (result : Option LoanReconciliation) (principal paid : Int) : Prop :=
  ∃ r, result = some r ∧ r.owedStroops = principal ∧ r.paidStroops = paid ∧
    (0 < r.driftStroops ↔ paid < principal)

lemma owed_foldlM {rows : List EventRow} {sums res : Int × Int}
    (hs : ∀ row ∈ rows, row.eventType ≠ .LoanApproved)
    (h : rows.foldlM addRow sums = some res) : res.1 = sums.1 := by
  induction rows generalizing sums with
  | nil =>
    cases h
    rfl
  | cons row rows ih =>
    rw [foldlM_cons,bind_eq_bind,bind_eq_some_iff] at h
    obtain ⟨_,hn,h⟩ := h
    rw [ih (fun r hr => hs r (mem_cons_of_mem _ hr)) h]
    rw [addRow,bind_eq_bind,bind_eq_some_iff] at hn
    obtain ⟨_,-,hn⟩ := hn
    rw [if_neg (hs row mem_cons_self)] at hn
    cases hn
    rfl

lemma amount_of_approved {ev row} (h : rowOf ev = some row)
    (ht : row.eventType = .LoanApproved) : row.amount = none := by
  obtain ⟨_,ev⟩ := ev
  cases ev <;> cases h <;> first | rfl | cases ht

lemma owed_eq_zero {log : List (Nat × LoanEvent)} {id} {r : LoanReconciliation}
    (h : reconcileLoanStroops (log.filterMap rowOf) id = some r) : r.owedStroops = 0 := by
  rw [reconcileLoanStroops,bind_eq_bind,bind_eq_some_iff] at h
  obtain ⟨⟨_,_⟩,hs,h⟩ := h
  cases h
  refine owed_foldlM (fun row hr ht => ?_) hs
  rw [mem_filter,decide_eq_true_iff] at hr
  obtain ⟨hr,-,-,ha⟩ := hr
  obtain ⟨_,-,he⟩ := mem_filterMap.mp hr
  rw [amount_of_approved he ht] at ha
  cases ha

/-- **Reconciliation**: over the indexed events of any run, the reconciliation of a loan is exact
only for a loan of no principal, which the contract does not grant. -/
theorem exact_iff {d : Deployment} {ScVal : Type} {c : Codec ScVal} (hc : c.Documented)
    (g : Genesis d) (is : List (Invocation d)) {id : Nat} {loan : Loan}
    (hloan : (g.after is).manager.loans.lookup id = some loan) :
    Exact (reconcileLoanStroops (c.rows (g.after is).manager.events) id) loan.amount
      (paidThroughRepay id g.world is) ↔ loan.amount = 0 := by
  rw [rows_eq hc]
  have hp := ((g.inOrder is).sound.loan id loan hloan).amount_pos
  constructor
  · rintro ⟨r,hr,ho,-,-⟩
    rw [← ho,owed_eq_zero hr]
  · intro hz
    exact absurd hz hp.ne'

/-! ### One loan -/

inductive PlainSc
  | symbol (s : String)
  | address (a : Address)
  | u32 (n : Nat)
  | i128 (n : Int)
  | pair (m n : Nat)

def Codec.plain : Codec PlainSc where
  rt :=
    { sym := fun
        | .symbol s => .ok s
        | _ => .error "not a symbol"
      scValToNative := fun
        | .symbol s => .ok (.string s)
        | .address a => .ok (.string (toString a.id))
        | .u32 n => .ok (.number (.integer n))
        | .i128 n => .ok (.bigint n)
        | .pair m n => .ok (.array [.number (.integer m),.number (.integer n)])
      toNumber := fun
        | .number x => .ok x
        | _ => .ok .nan
      toText := fun native => .ok native.typeOf
      display := Native.typeOf
      toXDR := fun _ => .ok "AAAA"
      date := fun _ => none }
  symbol := .symbol
  address := .address
  u32 := .u32
  i128 := .i128
  pair := .pair
  strkey a := toString a.id
  frame := ⟨"",[],.u32 0,0,"","",""⟩

lemma Codec.plain_documented : Codec.plain.Documented where
  sym_symbol _ := rfl
  native_address _ := rfl
  native_u32 _ := rfl
  native_i128 _ := rfl
  native_pair _ _ := rfl
  number _ := rfl
  xdr _ := ⟨_,rfl⟩

theorem exact_iff_lent :
    (Genesis.small.after Genesis.lent).manager.loans.lookup 1 = some Loan.small ∧
    (Exact (reconcileLoanStroops (Codec.plain.rows (Genesis.small.after Genesis.lent).manager.events)
    1) Loan.small.amount (paidThroughRepay 1 Genesis.small.world Genesis.lent) ↔
    Loan.small.amount = 0) :=
  ⟨Genesis.lookup_lent,exact_iff Codec.plain_documented Genesis.small Genesis.lent
    Genesis.lookup_lent⟩

/-- A loan of 5000 is granted, and nothing is owed on it. -/
theorem lent_nothing_owed :
    reconcileLoanStroops (Codec.plain.rows (Genesis.small.after Genesis.lent).manager.events) 1 =
        some ⟨0, 0, 0⟩ ∧
      ¬ Exact (reconcileLoanStroops
        (Codec.plain.rows (Genesis.small.after Genesis.lent).manager.events) 1) Loan.small.amount
          (paidThroughRepay 1 Genesis.small.world Genesis.lent) := by
  have he : reconcileLoanStroops
      (Codec.plain.rows (Genesis.small.after Genesis.lent).manager.events) 1 = some ⟨0,0,0⟩ := by
    decide +kernel
  refine ⟨he,?_⟩
  rw [he]
  rintro ⟨r,hr,ho,-,-⟩
  cases hr
  cases ho

end DukaPay.Backend.LoanRows
