import DukaPay.Contractlib.Journal
import DukaPay.Contractlib.Storage
import DukaPay.Contractlib.Transaction
import DukaPay.Money
import DukaPay.Soroban

/-! One NFT per user holds a credit score. -/
namespace DukaPay
open Contractlib

structure RemittanceMetadata where
  score : Nat
  historyHash : Bytes32
  metadataUri : String

structure ScoreHistoryEntry where
  ledger : Nat
  oldScore : Nat
  newScore : Nat
  reason : String
  deriving DecidableEq

inductive NftEvent
  | NftBurned (user : Address)
  | MinterAuthorized (minter : Address)
  | MinterRevoked (minter : Address)
  | Mint (user : Address) (initialScore : Nat) (recipientCommitment : Bytes32)
  | AdminRemint (user : Address) (initialScore : Nat) (recipientCommitment : Bytes32)
  | UriUpdated (user : Address) (metadataUri : String)
  | ScoreUpdated (user : Address) (score : Nat)
  | MinRepaymentAmountSet (oldAmount amount : Int)
  | ScoreDecreased (user : Address) (oldScore newScore : Nat) (reason : String)
  | HashUpdated (user : Address) (historyHash : Bytes32)
  | Seized (user : Address)
  | Transfer (src dst : Address)
  | RemintApproved (user : Address)
  | BurnThresholdSet (oldThreshold threshold : Nat)
  | Paused
  | Unpaused
  | AdminProposed (currentAdmin newAdmin : Address)
  | AdminTransferred (path : String) (previousAdmin newAdmin : Address)

structure RemittanceNft where
  admin : Option Address
  proposedAdmin : Option Address
  paused : Bool
  burnThreshold : Option Nat
  minRepaymentAmount : Option Int
  authorizedMinter : Address → Bool
  authorizedMinters : Option (List Address)
  metadata : Storage Address RemittanceMetadata
  scores : Storage Address Nat
  scoreHistory : Storage Address (List ScoreHistoryEntry)
  defaultCount : Storage Address Nat
  seized : Address → Bool
  burned : Address → Bool
  remintApproval : Address → Bool
  transferCooldown : Storage Address Nat
  recipientCommitment : Storage Address (Bytes32)
  events : List NftEvent

namespace RemittanceNft

def defaultBurnThreshold : Nat := 3

def maxScoreHistoryEntries : Nat := 50

def transferCooldownLedgers : Nat := 17280

def minCreditScore : Nat := 300

def maxScore : Nat := 850

def maxAllowedBurnThreshold : Nat := 1000

def maxAuthorizedMinters : Nat := 32

def stroopsPerScorePoint : Int := 100 * Money.stroopScale

def minScoreUpdateRepayment : Int := stroopsPerScorePoint

/-- The storage before `initialize`, with the scores that an older version of the contract left. -/
def legacy (scores : Storage Address Nat) : RemittanceNft where
  admin := none
  proposedAdmin := none
  paused := false
  burnThreshold := none
  minRepaymentAmount := none
  authorizedMinter := fun _ => false
  authorizedMinters := none
  metadata := ∅
  scores := scores
  scoreHistory := ∅
  defaultCount := ∅
  seized := fun _ => false
  burned := fun _ => false
  remintApproval := fun _ => false
  transferCooldown := ∅
  recipientCommitment := ∅
  events := []

def publish (e : NftEvent) (s : RemittanceNft) : RemittanceNft := { s with events := e :: s.events }

/-! ### Roles -/

variable (s : RemittanceNft)

def readAdmin : Res Address := expect s.admin "not initialized"

variable (env : Env)

def requireAdmin (s : RemittanceNft) : Res Unit := do
  let admin ← s.readAdmin
  env.requireAuth admin

def assertNotPaused : Res Unit :=
  ensure (s.paused = false) (.nft .ContractPaused)

def requireAdminOrAuthorizedMinter (minter : Option Address) (s : RemittanceNft) : Res Unit := do
  s.assertNotPaused
  match minter with
  | some minter =>
    env.requireAuth minter
    ensure (s.authorizedMinter minter = true) (.nft .UnauthorizedMinter)
  | none => s.requireAdmin env

def initializeNft (admin : Address) (s : RemittanceNft) : Res RemittanceNft := do
  ensure (s.admin = none) (.nft .AlreadyInitialized)
  pure { s with
    admin := some admin
    burnThreshold := some defaultBurnThreshold
    paused := false
    authorizedMinter := Function.update s.authorizedMinter admin true
    authorizedMinters := some [admin] }

def migrate (s : RemittanceNft) : Res RemittanceNft := do
  s.requireAdmin env
  pure { s with burnThreshold := some (s.burnThreshold.getD defaultBurnThreshold) }

def getAuthorizedMintersList : Res (List Address) :=
  match s.authorizedMinters with
  | some list => pure list
  | none => do
    let admin ← s.readAdmin
    pure (if s.authorizedMinter admin then [admin] else [])

def authorizeMinter (minter : Address) (s : RemittanceNft) : Res RemittanceNft := do
  s.requireAdmin env
  if s.authorizedMinter minter then pure s
  else
    let minters ← s.getAuthorizedMintersList
    ensure (minters.length < maxAuthorizedMinters) (.nft .MinterLimitReached)
    pure ({ s with
      authorizedMinters := some (minters ++ [minter])
      authorizedMinter := Function.update s.authorizedMinter minter true }.publish
        (.MinterAuthorized minter))

def revokeMinter (minter : Address) (s : RemittanceNft) : Res RemittanceNft := do
  s.requireAdmin env
  let s := { s with authorizedMinter := Function.update s.authorizedMinter minter false }
  let minters ← s.getAuthorizedMintersList
  pure ({ s with
    authorizedMinters := some (minters.filter fun existing => existing ≠ minter) }.publish
      (.MinterRevoked minter))

/-! ### Metadata and history -/

def validateMetadataUri (uri : String) : Res Unit :=
  ensure (8 ≤ uri.utf8ByteSize) (.nft .InvalidMetadataUri)

variable (user : Address)

/-- `get_or_migrate_metadata`: the metadata of a user, and the storage after a score of the older
version was turned into metadata. -/
def getOrMigrateMetadata (s : RemittanceNft) : Option RemittanceMetadata × RemittanceNft :=
  match s.metadata.lookup user with
  | some metadata => (some metadata,s)
  | none =>
    match s.scores.lookup user with
    | some score =>
      let metadata : RemittanceMetadata := ⟨score,0,""⟩
      (some metadata,{ s with
          metadata := s.metadata.insert user metadata
          scores := s.scores.erase user })
    | none => (none,s)

def requireMetadata (s : RemittanceNft) : Res (RemittanceMetadata × RemittanceNft) := do
  let metadata ← orFail (s.getOrMigrateMetadata user).1 (.nft .NftNotFound)
  pure (metadata,(s.getOrMigrateMetadata user).2)

def setMetadata (metadata : RemittanceMetadata) (s : RemittanceNft) : RemittanceNft :=
  { s with metadata := s.metadata.insert user metadata }

def hasActiveNft (s : RemittanceNft) : Bool :=
  (s.metadata.lookup user).isSome || (s.scores.lookup user).isSome

def hasAnyRemittanceState : Address → RemittanceNft → Bool := hasActiveNft

def writeScoreHistory (history : List ScoreHistoryEntry) (s : RemittanceNft) : RemittanceNft :=
  { s with scoreHistory := s.scoreHistory.insert user history }

/-- `get_score_history_or_default`: the history of a user, and the storage after a history that is
too long was cut. The loop that copies the entries from an index on is `latest`. -/
def getScoreHistoryOrDefault (s : RemittanceNft) : List ScoreHistoryEntry × RemittanceNft :=
  match s.scoreHistory.lookup user with
  | some history =>
    if maxScoreHistoryEntries < history.length then
      let truncated := latest maxScoreHistoryEntries history
      (truncated,s.writeScoreHistory user truncated)
    else (history,s)
  | none => ([],s)

variable (user : Address)

def appendScoreHistory (oldScore newScore : Nat) (reason : String)
    (s : RemittanceNft) : RemittanceNft :=
  let (currentHistory,s) := s.getScoreHistoryOrDefault user
  s.writeScoreHistory user
    (latest (maxScoreHistoryEntries - 1) currentHistory ++
      [⟨env.sequence,oldScore,newScore,reason⟩])

def setScore (metadata : RemittanceMetadata) (newScore : Nat)
    (reason : String) (s : RemittanceNft) : RemittanceNft :=
  (s.setMetadata user { metadata with score := newScore }).appendScoreHistory env user
    metadata.score newScore reason

def getMetadata (s : RemittanceNft) : Option RemittanceMetadata × RemittanceNft :=
  s.getOrMigrateMetadata user

def getMetadataUri (s : RemittanceNft) : Option String × RemittanceNft :=
  ((s.getOrMigrateMetadata user).1.map (·.metadataUri),(s.getOrMigrateMetadata user).2)

def getScore (s : RemittanceNft) : Nat × RemittanceNft :=
  (((s.getOrMigrateMetadata user).1.map (·.score)).getD 0,(s.getOrMigrateMetadata user).2)

/-- `get_score_history`: a page of the history, and the storage after a history that is too long was
cut. -/
def getScoreHistory (offset limit : Nat) (s : RemittanceNft) :
    Res (List ScoreHistoryEntry × RemittanceNft) := do
  let (history,s) := s.getScoreHistoryOrDefault user
  if history.length ≤ offset then pure ([],s)
  else
    let last ← expect (u32.checkedAdd offset limit) "attempt to add with overflow"
    pure ((history.take (min last history.length)).drop offset,s)

/-! ### Minting -/

def mint (initialScore : Nat) (historyHash : Bytes32)
    (metadataUri : String) (recipientCommitment : Bytes32) (minter : Option Address)
    (s : RemittanceNft) : Res RemittanceNft := do
  s.requireAdminOrAuthorizedMinter env minter
  validateMetadataUri metadataUri
  ensure (s.hasActiveNft user = false) (.nft .NftAlreadyExists)
  ensure (s.burned user = false) (.nft .BurnedRequiresApproval)
  let metadata : RemittanceMetadata := ⟨min initialScore maxScore,historyHash,metadataUri⟩
  let s := { s with
    recipientCommitment := s.recipientCommitment.insert user recipientCommitment }
  pure ((s.setMetadata user metadata).publish (.Mint user initialScore recipientCommitment))

def adminRemint (initialScore : Nat) (historyHash : Bytes32)
    (metadataUri : String) (recipientCommitment : Bytes32) (s : RemittanceNft) :
    Res RemittanceNft := do
  s.requireAdmin env
  s.assertNotPaused
  validateMetadataUri metadataUri
  ensure (s.burned user = true) (.nft .NftNotFound)
  ensure (s.remintApproval user = true) (.nft .RemintNotApproved)
  ensure (s.hasActiveNft user = false) (.nft .NftAlreadyExists)
  let s := { s with
    remintApproval := Function.update s.remintApproval user false
    burned := Function.update s.burned user false
    seized := Function.update s.seized user false
    transferCooldown := s.transferCooldown.erase user }
  let metadata : RemittanceMetadata := ⟨min initialScore maxScore,historyHash,metadataUri⟩
  let s := { s.setMetadata user metadata with
    recipientCommitment := s.recipientCommitment.insert user recipientCommitment }
  pure (s.publish (.AdminRemint user initialScore recipientCommitment))

def approveRemint (s : RemittanceNft) : Res RemittanceNft := do
  s.requireAdmin env
  s.assertNotPaused
  pure ({ s with remintApproval := Function.update s.remintApproval user true }.publish
    (.RemintApproved user))

def updateMetadataUri (newMetadataUri : String)
    (minter : Option Address) (s : RemittanceNft) : Res RemittanceNft := do
  s.requireAdminOrAuthorizedMinter env minter
  validateMetadataUri newMetadataUri
  let (metadata,s) ← s.requireMetadata user
  pure ((s.setMetadata user { metadata with metadataUri := newMetadataUri }).publish
    (.UriUpdated user newMetadataUri))

def updateHistoryHash (newHistoryHash : Bytes32)
    (minter : Option Address) (s : RemittanceNft) : Res RemittanceNft := do
  s.requireAdminOrAuthorizedMinter env minter
  ensure (newHistoryHash ≠ 0) (.nft .InvalidHistoryHash)
  let (metadata,s) ← s.requireMetadata user
  ensure (metadata.historyHash ≠ newHistoryHash) (.nft .InvalidHistoryHash)
  pure ((s.setMetadata user { metadata with historyHash := newHistoryHash }).publish
    (.HashUpdated user newHistoryHash))

/-! ### Scores -/

def readMinRepaymentAmount : Int := s.minRepaymentAmount.getD 0

def setMinRepaymentAmount (amount : Int) (s : RemittanceNft) : Res RemittanceNft := do
  s.requireAdmin env
  ensure (0 ≤ amount) (.nft .InvalidAmount)
  pure ({ s with minRepaymentAmount := some amount }.publish
    (.MinRepaymentAmountSet s.readMinRepaymentAmount amount))

def pointsFor (repaymentAmount : Int) : Nat :=
  let points := repaymentAmount.tdiv stroopsPerScorePoint
  if (maxScore : Int) < points then maxScore else points.toNat

def updateScore (repaymentAmount : Int) (minter : Option Address)
    (s : RemittanceNft) : Res RemittanceNft := do
  ensure (0 < repaymentAmount) (.nft .InvalidRepaymentAmount)
  ensure (s.readMinRepaymentAmount ≤ repaymentAmount) (.nft .BelowMinimum)
  ensure (minScoreUpdateRepayment ≤ repaymentAmount) (.nft .InvalidRepaymentAmount)
  s.requireAdminOrAuthorizedMinter env minter
  let (metadata,s) ← s.requireMetadata user
  if repaymentAmount.tdiv stroopsPerScorePoint = 0 then pure s
  else
    let score := min (u32.saturatingAdd metadata.score (pointsFor repaymentAmount)) maxScore
    pure ((s.setScore env user metadata score "REPAY").publish (.ScoreUpdated user score))

def decreaseScore (penaltyPoints : Nat) (minter : Option Address)
    (s : RemittanceNft) : Res RemittanceNft := do
  s.requireAdminOrAuthorizedMinter env minter
  if s.hasActiveNft user = false then pure s
  else
    let (metadata,s) ← s.requireMetadata user
    let newScore := max (metadata.score - penaltyPoints) minCreditScore
    if newScore = metadata.score then pure s
    else
      pure ((s.setScore env user metadata newScore "DEC").publish
        (.ScoreDecreased user metadata.score newScore "PEN"))

def applyScoreDelta (delta : Int) (minter : Option Address)
    (s : RemittanceNft) : Res RemittanceNft := do
  s.requireAdminOrAuthorizedMinter env minter
  let (metadata,s) ← s.requireMetadata user
  let boundedScore := max 0 (min ((metadata.score : Int) + delta) maxScore)
  let nextScore := boundedScore.toNat
  if nextScore = metadata.score then pure s
  else
    pure ((s.setScore env user metadata nextScore "ADJ").publish (.ScoreUpdated user nextScore))

/-! ### Defaults, burning and transfer -/

def readBurnThreshold : Nat := s.burnThreshold.getD defaultBurnThreshold

def setDefaultBurnThreshold (threshold : Nat) (s : RemittanceNft) : Res RemittanceNft := do
  ensure (threshold ≠ 0 ∧ threshold ≤ maxAllowedBurnThreshold) (.nft .InvalidThreshold)
  s.requireAdmin env
  s.assertNotPaused
  pure ({ s with burnThreshold := some threshold }.publish
    (.BurnThresholdSet s.readBurnThreshold threshold))

def burnInternal (s : RemittanceNft) : RemittanceNft :=
  { s with
    metadata := s.metadata.erase user
    scores := s.scores.erase user
    scoreHistory := s.scoreHistory.erase user
    seized := Function.update s.seized user false
    remintApproval := Function.update s.remintApproval user false
    transferCooldown := s.transferCooldown.erase user
    burned := Function.update s.burned user true }.publish (.NftBurned user)

def markSeized (s : RemittanceNft) : RemittanceNft :=
  if s.seized user then s
  else { s with seized := Function.update s.seized user true }.publish (.Seized user)

def seizeCollateral (minter : Option Address) (s : RemittanceNft) : Res RemittanceNft := do
  s.requireAdminOrAuthorizedMinter env minter
  ensure (s.hasActiveNft user = true) (.nft .NftNotFound)
  ensure (s.seized user = false) (.nft .CollateralAlreadySeized)
  pure (s.markSeized user)

def recordDefault (minter : Option Address) (s : RemittanceNft) : Res RemittanceNft := do
  s.requireAdminOrAuthorizedMinter env minter
  if s.hasActiveNft user = false then pure s
  else
    let updatedCount ← expect (u32.checkedAdd ((s.defaultCount.lookup user).getD 0) 1)
      "default count overflow"
    let s := { s with defaultCount := s.defaultCount.insert user updatedCount }
    let s := s.markSeized user
    if s.readBurnThreshold ≤ updatedCount then pure (s.burnInternal user) else pure s

def burn (minter : Option Address) (s : RemittanceNft) : Res RemittanceNft := do
  s.requireAdminOrAuthorizedMinter env minter
  ensure (s.hasActiveNft user = true) (.nft .NftNotFound)
  pure (s.burnInternal user)

def moveEntry {V : Type} (src dst : Address) (m : Storage Address V) : Storage Address V :=
  match m.lookup src with
  | some v => (m.insert dst v).erase src
  | none => m

def transfer (src dst : Address) (minter : Option Address) (s : RemittanceNft) :
    Res RemittanceNft := do
  ensure (src ≠ dst) (.nft .SelfTransfer)
  env.requireAuth src
  s.requireAdminOrAuthorizedMinter env minter
  ensure (∀ nextAllowedLedger ∈ s.transferCooldown.lookup src, nextAllowedLedger ≤ env.sequence)
    (.nft .TransferCooldownActive)
  let (metadata,s) ← s.requireMetadata src
  ensure (s.hasAnyRemittanceState dst = false) (.nft .DestinationOccupied)
  pure ({ s with
    metadata := (s.metadata.insert dst metadata).erase src
    scores := s.scores.erase src
    scoreHistory := moveEntry src dst s.scoreHistory
    defaultCount := moveEntry src dst s.defaultCount
    seized :=
      if s.seized src then Function.update (Function.update s.seized dst true) src false
      else s.seized
    remintApproval := Function.update s.remintApproval src false
    transferCooldown := (s.transferCooldown.erase src).insert dst
      (u32.saturatingAdd env.sequence transferCooldownLedgers) }.publish (.Transfer src dst))

/-! ### The admin -/

def setPaused (paused : Bool) (event : NftEvent) (s : RemittanceNft) : Res RemittanceNft := do
  s.requireAdmin env
  pure ({ s with paused := paused }.publish event)

def pause : RemittanceNft → Res RemittanceNft := setPaused env true .Paused

def unpause : RemittanceNft → Res RemittanceNft := setPaused env false .Unpaused

def proposeAdmin (newAdmin : Address) (s : RemittanceNft) : Res RemittanceNft := do
  let currentAdmin ← s.readAdmin
  env.requireAuth currentAdmin
  pure ({ s with proposedAdmin := some newAdmin }.publish (.AdminProposed currentAdmin newAdmin))

def acceptAdmin (s : RemittanceNft) : Res RemittanceNft := do
  let previousAdmin ← s.readAdmin
  let proposedAdmin ← orFail s.proposedAdmin (.nft .NoProposedAdmin)
  env.requireAuth proposedAdmin
  pure ({ s with admin := some proposedAdmin, proposedAdmin := none }.publish
    (.AdminTransferred "accept" previousAdmin proposedAdmin))

def setAdmin (newAdmin : Address) (s : RemittanceNft) : Res RemittanceNft := do
  let currentAdmin ← s.readAdmin
  env.requireAuth currentAdmin
  pure ({ s with admin := some newAdmin, proposedAdmin := none }.publish
    (.AdminTransferred "govern" currentAdmin newAdmin))

end RemittanceNft

inductive NftCall
  | initializeNft (admin : Address)
  | migrate
  | authorizeMinter (minter : Address)
  | revokeMinter (minter : Address)
  | mint (user : Address) (initialScore : Nat) (historyHash : Bytes32) (metadataUri : String)
      (recipientCommitment : Bytes32) (minter : Option Address)
  | adminRemint (user : Address) (initialScore : Nat) (historyHash : Bytes32)
      (metadataUri : String) (recipientCommitment : Bytes32)
  | approveRemint (user : Address)
  | getMetadata (user : Address)
  | getMetadataUri (user : Address)
  | getScore (user : Address)
  | getScoreHistory (user : Address) (offset limit : Nat)
  | updateMetadataUri (user : Address) (newMetadataUri : String) (minter : Option Address)
  | updateHistoryHash (user : Address) (newHistoryHash : Bytes32) (minter : Option Address)
  | setMinRepaymentAmount (amount : Int)
  | updateScore (user : Address) (repaymentAmount : Int) (minter : Option Address)
  | decreaseScore (user : Address) (penaltyPoints : Nat) (minter : Option Address)
  | applyScoreDelta (user : Address) (delta : Int) (minter : Option Address)
  | setDefaultBurnThreshold (threshold : Nat)
  | seizeCollateral (user : Address) (minter : Option Address)
  | recordDefault (user : Address) (minter : Option Address)
  | burn (user : Address) (minter : Option Address)
  | transfer (src dst : Address) (minter : Option Address)
  | pause
  | unpause
  | proposeAdmin (newAdmin : Address)
  | acceptAdmin
  | setAdmin (newAdmin : Address)

def NftCall.exec (env : Env) (s : RemittanceNft) : NftCall → Res RemittanceNft
  | .initializeNft admin => s.initializeNft admin
  | .migrate => s.migrate env
  | .authorizeMinter minter => s.authorizeMinter env minter
  | .revokeMinter minter => s.revokeMinter env minter
  | .mint user initialScore historyHash metadataUri recipientCommitment minter =>
    s.mint env user initialScore historyHash metadataUri recipientCommitment minter
  | .adminRemint user initialScore historyHash metadataUri recipientCommitment =>
    s.adminRemint env user initialScore historyHash metadataUri recipientCommitment
  | .approveRemint user => s.approveRemint env user
  | .getMetadata user => pure (s.getMetadata user).2
  | .getMetadataUri user => pure (s.getMetadataUri user).2
  | .getScore user => pure (s.getScore user).2
  | .getScoreHistory user offset limit => do
    let (_,s) ← s.getScoreHistory user offset limit
    pure s
  | .updateMetadataUri user newMetadataUri minter =>
    s.updateMetadataUri env user newMetadataUri minter
  | .updateHistoryHash user newHistoryHash minter =>
    s.updateHistoryHash env user newHistoryHash minter
  | .setMinRepaymentAmount amount => s.setMinRepaymentAmount env amount
  | .updateScore user repaymentAmount minter => s.updateScore env user repaymentAmount minter
  | .decreaseScore user penaltyPoints minter => s.decreaseScore env user penaltyPoints minter
  | .applyScoreDelta user delta minter => s.applyScoreDelta env user delta minter
  | .setDefaultBurnThreshold threshold => s.setDefaultBurnThreshold env threshold
  | .seizeCollateral user minter => s.seizeCollateral env user minter
  | .recordDefault user minter => s.recordDefault env user minter
  | .burn user minter => s.burn env user minter
  | .transfer src dst minter => s.transfer env src dst minter
  | .pause => s.pause env
  | .unpause => s.unpause env
  | .proposeAdmin newAdmin => s.proposeAdmin env newAdmin
  | .acceptAdmin => s.acceptAdmin env
  | .setAdmin newAdmin => s.setAdmin env newAdmin

def NftCall.transferTarget : NftCall → Option Address
  | .transfer _ dst _ => some dst
  | _ => none

structure NftInvocation where
  env : Env
  call : NftCall

def nftSystem : Transactional RemittanceNft NftInvocation Fault where
  exec := fun i s => i.call.exec i.env s

end DukaPay
