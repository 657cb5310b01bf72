import DukaPay.Backend.AuditMerkle
import DukaPay.Contractlib.Rows
import DukaPay.Contractlib.Threads
import Mathlib.Data.List.Dedup
import Mathlib.Data.List.Sort

/-! A job looks for hours with entries that are no leaves yet, and seals each in a transaction of
its own: an epoch with the Merkle root of the entries, and a leaf for each of them. -/
namespace DukaPay.Backend.AuditEpochs
open Contractlib

def hour : Nat := 3600000000

def hourOf (time : Nat) : Nat := time / hour * hour

structure Log (Val : Type) where
  id : Nat
  createdAt : Nat
  entry : AuditEntry Val

inductive AnchorStatus
  | pending
  | anchored
  | failed
  deriving DecidableEq

structure Epoch where
  id : Nat
  epochStart : Nat
  epochEnd : Nat
  merkleRoot : String
  leafCount : Nat
  anchorStatus : AnchorStatus
  stellarTxHash : Option String

structure Leaf where
  epochId : Nat
  logId : Nat
  leafIndex : Nat
  leafHash : String

structure Tables (Val : Type) where
  logs : List (Log Val)
  epochs : List Epoch
  leaves : List Leaf
  nextEpochId : Nat

structure Search where
  closed : Nat
  hours : Nat
  found : List Nat

structure Db (κ Val : Type) where
  tables : Tables Val
  now : Nat
  read : List Nat
  searches : κ → Option Search
  returned : List (Search × Tables Val)

structure Env where
  auditAnchorEnabled : Option String
  auditAnchorContractId : Option String
  auditAnchorSourceSecret : Option String

inductive Failure
  | database (transient : Bool)
  | constraint
  | anchoring (message : String)

inductive Statement
  | clock
  | selectHours
  | selectLogs
  | insertEpoch
  | commit
  | selectPending
  | connect
  | poll
  | submit
  | updateEpoch
  | settle

structure Answer where
  fault : Fault
  transient : Bool
  connect : Except String Unit
  poll : Except String String
  submit : Except String (Option String)

abbrev Program (κ Val : Type) := Thread Failure Statement Answer (Db κ Val)

section
variable {Val : Type} (js : Platform Val) (sha : Bytes → Digest)

def Tables.unsealed (closed : Nat) (t : Tables Val) : List (Log Val) :=
  t.logs.filter fun l => decide (l.createdAt < closed) && t.leaves.all (·.logId ≠ l.id)

def Tables.unsealedHours (closed : Nat) (t : Tables Val) : List Nat :=
  ((t.unsealed closed).map (hourOf ·.createdAt)).dedup.insertionSort (· ≤ ·)

variable (start : Nat)

def Tables.logsOf (t : Tables Val) : List (Log Val) :=
  (t.logs.filter fun l => decide (start ≤ l.createdAt) && decide (l.createdAt < start + hour)
    ).insertionSort (·.id ≤ ·.id)

def Tables.leavesOf (epochId : Nat) (t : Tables Val) : List Leaf :=
  (t.leaves.filter (·.epochId = epochId)).insertionSort (·.leafIndex ≤ ·.leafIndex)

def Tables.HasEpoch (t : Tables Val) : Prop := ∃ e ∈ t.epochs, e.epochStart = start

instance (start : Nat) (t : Tables Val) : Decidable (t.HasEpoch start) :=
  inferInstanceAs (Decidable (∃ e ∈ t.epochs, e.epochStart = start))

def logHashes (rows : List (Log Val)) : List String :=
  rows.map fun l => hashAuditEntry js sha l.entry

def leafRows (epochId : Nat) (rows : List (Log Val)) : List Leaf :=
  rows.mapIdx fun index l => ⟨epochId,l.id,index,hashAuditEntry js sha l.entry⟩

def newEpoch (id start : Nat) (rows : List (Log Val)) : Epoch where
  id := id
  epochStart := start
  epochEnd := start + hour
  merkleRoot := merkleRoot sha (logHashes js sha rows)
  leafCount := rows.length
  anchorStatus := .pending
  stellarTxHash := none

def Tables.insertEpoch (rows : List (Log Val)) (t : Tables Val) : Tables Val :=
  { t with
    epochs := t.epochs ++ [newEpoch js sha t.nextEpochId start rows]
    leaves := t.leaves ++ leafRows js sha t.nextEpochId rows
    nextEpochId := t.nextEpochId + 1 }

def Tables.seal (rows : List (Log Val)) (t : Tables Val) :
    Except Failure (Option Nat) × Tables Val :=
  if t.HasEpoch start then (.ok none,t)
  else if ∃ l ∈ rows, ∃ leaf ∈ t.leaves, leaf.logId = l.id then (.error .constraint,t)
  else (.ok (some t.nextEpochId),t.insertEpoch js sha start rows)

end

variable {κ Val : Type} (js : Platform Val) (sha : Bytes → Digest) (env : Env)

def sql {α : Type} (statement : Statement)
    (f : Db κ Val → Except Failure α × Db κ Val) : Program κ Val α :=
  .statement statement fun i db =>
    match i.fault with
    | .none => f db
    | .lost => (.error (.database i.transient),db)
    | .late => (.error (.database i.transient),(f db).2)

def Failure.isTransient : Failure → Bool
  | .database transient => transient
  | _ => false

def withTransaction {α : Type} (fn : Program κ Val α) : Nat → Program κ Val α
  | 0 => fn
  | retries + 1 =>
    tryCatch fn fun e => if e.isTransient then withTransaction fn retries else throw e

def selectLogs (start : Nat) : Program κ Val (List (Log Val)) :=
  sql .selectLogs fun db => (.ok (db.tables.logsOf start),{ db with read := start :: db.read })

def createEpoch (start : Nat) : Program κ Val (Option Nat) := do
  let logs ← selectLogs start
  match logs with
  | [] => sql .commit fun db => (.ok none,db)
  | rows => sql .insertEpoch fun db =>
      ((db.tables.seal js sha start rows).1,
        { db with tables := (db.tables.seal js sha start rows).2 })

section

def updateEpoch (id : Nat) (f : Epoch → Epoch) : Program κ Val Unit :=
  sql .updateEpoch fun db => (.ok (),{ db with
    tables := { db.tables with epochs := updateRow Epoch.id id f db.tables.epochs } })

def setStatus (status : AnchorStatus) (e : Epoch) : Epoch := { e with anchorStatus := status }

def setTxHash (hash : Option String) (e : Epoch) : Epoch := { e with stellarTxHash := hash }

def call {α : Type} (statement : Statement) (answer : Answer → Except String α) : Program κ Val α :=
  .statement statement fun i db => ((answer i).mapError .anchoring,db)

def truthy (value : Option String) : Option String := value.filter (· ≠ "")

def resolveExisting (epoch : Epoch) : Program κ Val Bool :=
  match truthy epoch.stellarTxHash with
  | none => pure false
  | some _ => do
    let status ← call .poll Answer.poll
    if status = "SUCCESS" then do
      updateEpoch epoch.id (setStatus .anchored)
      pure true
    else if status = "FAILED" then do
      updateEpoch epoch.id (setTxHash none)
      pure false
    else throw (.anchoring ("Anchor transaction remains " ++ status))

def submitAnchor (epoch : Epoch) : Program κ Val Unit := do
  let sent ← call .submit Answer.submit
  match truthy sent with
  | none => throw (.anchoring "Anchor submission returned no transaction hash")
  | some hash =>
    updateEpoch epoch.id (setTxHash (some hash))
    let status ← call .poll Answer.poll
    if status = "SUCCESS" then
      updateEpoch epoch.id (setTxHash (some hash) ∘ setStatus .anchored)
    else throw (.anchoring ("Anchor transaction ended with " ++ status))

def anchorEpoch (epoch : Epoch) : Program κ Val Unit :=
  match truthy env.auditAnchorContractId,truthy env.auditAnchorSourceSecret with
  | some _,some _ => do
    call .connect Answer.connect
    let anchored ← resolveExisting epoch
    if anchored then pure () else submitAnchor epoch
  | _,_ => throw (.anchoring ("AUDIT_ANCHOR_ENABLED is \"true\" but AUDIT_ANCHOR_CONTRACT_ID / " ++
      "AUDIT_ANCHOR_SOURCE_SECRET is missing — refusing to silently skip anchoring"))

def Tables.pending (t : Tables Val) : List Epoch :=
  ((t.epochs.filter fun e => e.anchorStatus = .pending ∨ e.anchorStatus = .failed).insertionSort
    (·.epochStart ≤ ·.epochStart)).take 24

def anchorPending : Program κ Val Unit :=
  if env.auditAnchorEnabled = some "true" then do
    let pending ← sql .selectPending fun db => (.ok db.tables.pending,db)
    Thread.forEach pending fun epoch =>
      tryCatch (anchorEpoch env epoch) fun _ => updateEpoch epoch.id (setStatus .failed)
  else pure ()

end

variable [DecidableEq κ] (k : κ)

def Db.search (search : Option Search) (db : Db κ Val) : Db κ Val :=
  { db with searches := fun j => if j = k then search else db.searches j }

def Tables.search (closed : Nat) (t : Tables Val) : Search :=
  ⟨closed,(t.unsealedHours closed).length,(t.unsealedHours closed).take 24⟩

def selectHours (closed : Nat) : Program κ Val (List Nat) :=
  sql .selectHours fun db =>
    (.ok ((db.tables.unsealedHours closed).take 24),db.search k (some (db.tables.search closed)))

def sealAndAnchor : Program κ Val Unit := do
  let latestClosedHour ← .statement .clock fun _ db => (.ok (hourOf db.now),db)
  let hours ← selectHours k latestClosedHour
  Thread.forEach hours fun start => do
    let _ ← withTransaction (createEpoch js sha start) 3
  anchorPending env

variable (db : Db κ Val)

def Db.settle : Db κ Val :=
  { db.search k none with
    returned := (db.searches k).toList.map (·,db.tables) ++ db.returned }

def auditAnchorJob : Program κ Val Unit :=
  tryCatch
    (do
      sealAndAnchor js sha env k
      .statement .settle fun _ db => (.ok (),db.settle k))
    fun _ => .statement .settle fun _ db => (.ok (),db.search k none)

inductive Outside (Val : Type)
  | commit (log : Log Val)
  | pass (time : Nat)

def interfere : Outside Val → Db κ Val → Db κ Val
  | .commit log,db => { db with tables := { db.tables with logs := db.tables.logs ++ [log] } }
  | .pass time,db => { db with now := db.now + time }

def Genuine : Outside Val → Prop
  | .commit log => (∀ l ∈ db.tables.logs, l.id ≠ log.id) ∧ log.createdAt ≤ db.now
  | .pass _ => True

def sealPool : Pool κ Failure Statement Answer (Db κ Val) Unit :=
  ⟨fun k => auditAnchorJob js sha env k,db⟩

end DukaPay.Backend.AuditEpochs
