import DukaPay.Contractlib.Average
import DukaPay.Contractlib.Transaction
import DukaPay.Money
import DukaPay.Soroban
import Mathlib.Data.List.Sort

/-! Registered sources submit prices for assets. -/
namespace DukaPay
open Contractlib

structure TwapSample where
  ts : Nat
  price : Int
  deriving DecidableEq

structure AggregateState where
  price : Int
  ts : Nat

structure SourceConfig where
  source : String
  address : Address

inductive OracleEvent
  | OraclePaused (admin : Address)
  | OracleUnpaused (admin : Address)
  | AdminProposed (admin newAdmin : Address) (now : Nat)
  | AdminAccepted (newAdmin : Address)
  | CircuitBreakerSet (admin : Address) (breaker : Option Address)
  | SourceSet (source : String) (address : Address)
  | SourceRemoved (source : String)
  | PriceSubmitted (asset : Address) (source : String) (price : Int) (now : Nat)

structure Oracle where
  admin : Option Address
  pendingAdmin : Option Address
  adminProposedAt : Option Nat
  paused : Bool
  circuitBreaker : Option Address
  sources : List String
  sourceAddress : String → Option Address
  sample : Address → String → Option (Nat × Int)
  sourceList : Address → List String
  aggregate : Address → Option AggregateState
  twapSeries : Address → List TwapSample
  events : List OracleEvent

namespace Oracle

def twapWindowSecs : Nat := 1800

def maxDeviationBps : Int := 300

def maxSourceAgeSecs : Nat := 3600

def minSources : Nat := 2

def adminRotationDelaySecs : Nat := 86400

def maxSamples : Nat := 120

def empty : Oracle where
  admin := none
  pendingAdmin := none
  adminProposedAt := none
  paused := false
  circuitBreaker := none
  sources := []
  sourceAddress := fun _ => none
  sample := fun _ _ => none
  sourceList := fun _ => []
  aggregate := fun _ => none
  twapSeries := fun _ => []
  events := []

def publish (e : OracleEvent) (s : Oracle) : Oracle := { s with events := e :: s.events }

/-! ### Administration -/

variable (env : TimedEnv)

/-- `initialize`: a source that is listed twice keeps the address it is listed with last. -/
def initializeOracle (admin : Address) (sources : List SourceConfig)
    (s : Oracle) : Res Oracle := do
  ensure (s.admin = none) (.panic "already initialized")
  env.requireAuth admin
  pure { s with
    admin := some admin
    sources := sources.map SourceConfig.source
    sourceAddress := sources.foldl
      (fun addresses c => Function.update addresses c.source (some c.address)) s.sourceAddress
    paused := false }

variable (s : Oracle)

def readAdmin : Res Address := orFail s.admin (.oracle .NotInitialized)

def assertNotPaused : Res Unit := ensure (s.paused = false) (.oracle .ContractPaused)

/-- Fail when the configured breaker blocks `fnSym` of this oracle; without one, go on. -/
def assertCircuitOk (self : Address) (env : TimedEnv) (fnSym : String) (s : Oracle) : Res Unit :=
  match s.circuitBreaker with
  | none => pure ()
  | some breaker =>
    ensure (env.isBlocked breaker self fnSym = false) (.oracle .CircuitBreakerTripped)

def asAdmin (change : Address → Oracle → Oracle) (s : Oracle) : Res Oracle := do
  let admin ← s.readAdmin
  env.requireAuth admin
  pure (change admin s)

def pause : Oracle → Res Oracle :=
  asAdmin env fun admin s => { s with paused := true }.publish (.OraclePaused admin)

def unpause : Oracle → Res Oracle :=
  asAdmin env fun admin s => { s with paused := false }.publish (.OracleUnpaused admin)

def proposeAdmin (newAdmin : Address) : Oracle → Res Oracle :=
  asAdmin env fun admin s =>
    { s with pendingAdmin := some newAdmin, adminProposedAt := some env.timestamp }.publish
      (.AdminProposed admin newAdmin env.timestamp)

def acceptAdmin : Res Oracle := do
  let pending ← orFail s.pendingAdmin (.oracle .NoPendingAdmin)
  let proposedAt := s.adminProposedAt.getD 0
  ensure (u64.saturatingAdd proposedAt adminRotationDelaySecs ≤ env.timestamp)
    (.oracle .AdminTimelockNotElapsed)
  env.requireAuth pending
  let s := { s with admin := some pending, pendingAdmin := none, adminProposedAt := none }
  pure (s.publish (.AdminAccepted pending))

def setCircuitBreaker (breaker : Option Address) : Oracle → Res Oracle :=
  asAdmin env fun admin s =>
    { s with circuitBreaker := breaker }.publish (.CircuitBreakerSet admin breaker)

def setSource (source : String) (address : Address) : Oracle → Res Oracle :=
  asAdmin env fun _ s =>
    { s with
      sources := if source ∈ s.sources then s.sources else s.sources ++ [source]
      sourceAddress := Function.update s.sourceAddress source (some address) }.publish
      (.SourceSet source address)

def removeSource (source : String) : Oracle → Res Oracle :=
  asAdmin env fun _ s =>
    { s with
      sources := s.sources.filter (· ≠ source)
      sourceAddress := Function.update s.sourceAddress source none }.publish
      (.SourceRemoved source)

/-! ### The series of accepted prices -/

def trimSeries (ts : Nat) (series : List TwapSample) : List TwapSample :=
  let inWindow := series.dropWhile fun q => decide (q.ts < ts - twapWindowSecs)
  inWindow.drop (inWindow.length - maxSamples)

variable (asset : Address)

def pushAggregate (ts : Nat) (price : Int) (s : Oracle) : Oracle :=
  { s with
    twapSeries := Function.update s.twapSeries asset
      (trimSeries ts (s.twapSeries asset ++ [⟨ts,price⟩])) }

def accumulate (price dt : Nat) (acc : Weighted) : Res Weighted := do
  let product ← expect (u128.checkedMul price dt) "attempt to multiply with overflow"
  let sum ← expect (u128.checkedAdd acc.sum product) "attempt to add with overflow"
  let weight ← expect (u128.checkedAdd acc.weight dt) "attempt to add with overflow"
  pure ⟨sum,weight⟩

/-- The loop of `twap`: a segment between two samples counts with the midpoint of their prices, and
the last sample counts with its own price until `now`. -/
def twapLoop (now cutoff : Nat) : List TwapSample → Weighted → Res Weighted
  | [],acc => pure acc
  | [q],acc =>
    let cur := max q.ts cutoff
    if cur < now then accumulate (asU128 q.price) (now - cur) acc else pure acc
  | q :: next :: rest,acc =>
    let cur := max q.ts cutoff
    if next.ts ≤ cur then
      twapLoop now cutoff (next :: rest) acc
    else do
      let total ← expect (u128.checkedAdd (asU128 q.price) (asU128 next.price))
        "attempt to add with overflow"
      let acc ← accumulate (total / 2) (next.ts - cur) acc
      twapLoop now cutoff (next :: rest) acc

def twapLead (cutoff : Nat) (first : TwapSample) : Res Weighted :=
  if cutoff < first.ts then accumulate (asU128 first.price) (first.ts - cutoff) .zero
  else pure .zero

variable (now : Nat)

def twapOf (series : List TwapSample) : Res (Option Int) :=
  match series with
  | [] => pure none
  | first :: _ =>
    if now ≤ first.ts then
      pure (some first.price)
    else do
      let cutoff := now - twapWindowSecs
      let lead ← twapLead cutoff first
      let acc ← twapLoop now cutoff series lead
      if acc.weight = 0 then pure none else pure (some (asI128 (acc.sum / acc.weight)))

def twap : Res (Option Int) :=
  twapOf now (s.twapSeries asset)

/-! ### The median of the fresh sources -/

/-- `sort_in_place`. The sorted part is kept with its end first, from which the next element sinks
to its place. -/
def sortInPlace (arr : List Int) : List Int :=
  (arr.foldl (fun sorted x => sorted.orderedInsert (· ≥ ·) x) []).reverse

def freshSample (source : String) : Option Int :=
  match s.sample asset source with
  | some (ts,price) => if now - ts ≤ maxSourceAgeSecs then some price else none
  | none => none

def freshPrices : List Int :=
  (s.sourceList asset).filterMap (s.freshSample asset now)

def freshMedian : Res Int := do
  let fresh := s.freshPrices asset now
  ensure (minSources ≤ fresh.length) (.oracle .InsufficientSources)
  let sorted := sortInPlace fresh
  expect sorted[sorted.length / 2]? "index out of bounds"

def smoothedPrice : Res (Option Int) :=
  match (s.freshMedian asset now).toOption.filter (fun median => decide (0 < median)) with
  | some median => pure (some median)
  | none => do
    let twapPrice ← s.twap asset now
    pure (twapPrice.filter fun price => decide (0 < price))

def referencePrice : Res (Option Int) := do
  match ← s.smoothedPrice asset now with
  | some price => pure (some price)
  | none =>
    match s.aggregate asset with
    | some agg =>
      pure (if 0 < agg.price ∧ now - agg.ts ≤ maxSourceAgeSecs then some agg.price else none)
    | none => pure none

/-! ### The feed -/

def deviation (price refPrice : Int) : Res Int :=
  if refPrice ≤ price then expect (i128.checkedSub price refPrice) "price deviation overflow"
  else expect (i128.checkedSub refPrice price) "price deviation overflow"

def deviationBps (price refPrice : Int) : Res Int := do
  let difference ← deviation price refPrice
  let scaled ← expect (i128.checkedMul difference 10000) "price deviation overflow"
  pure (scaled.tdiv refPrice)

def assertWithinDeviation (price : Int) (refPrice : Option Int) : Res Unit :=
  match refPrice with
  | none => pure ()
  | some refPrice =>
    if 0 < refPrice then do
      let bps ← deviationBps price refPrice
      ensure (bps ≤ maxDeviationBps) (.oracle .CircuitBroken)
    else pure ()

def recordPrice (source : String) (asset : Address) (price : Int) (now : Nat) (s : Oracle) :
    Oracle :=
  let s :=
    { s with
      sample := Function.update s.sample asset
        (Function.update (s.sample asset) source (some (now,price)))
      sourceList :=
        if source ∈ s.sourceList asset then s.sourceList
        else Function.update s.sourceList asset (s.sourceList asset ++ [source])
      aggregate := Function.update s.aggregate asset (some ⟨price,now⟩) }
  (s.pushAggregate asset now price).publish (.PriceSubmitted asset source price now)

def submitPrice (self : Address) (env : TimedEnv) (source : String) (asset : Address)
    (price : Int) (s : Oracle) : Res Oracle := do
  s.assertNotPaused
  s.assertCircuitOk self env "submit_price"
  let sourceAddr ← orFail (s.sourceAddress source) (.oracle .UnauthorizedSource)
  env.requireAuth sourceAddr
  ensure (0 < price) (.oracle .ZeroPrice)
  let refPrice ← s.referencePrice asset env.timestamp
  assertWithinDeviation price refPrice
  pure (s.recordPrice source asset price env.timestamp)

def getPriceResult (asset : Address) (s : Oracle) : Res Int := do
  s.assertNotPaused
  let agg ← orFail (s.aggregate asset) (.oracle .NotInitialized)
  ensure (now - agg.ts ≤ maxSourceAgeSecs) (.oracle .StalePrice)
  let median ← s.freshMedian asset now
  let twapPrice ← s.twap asset now
  pure ((twapPrice.filter fun price => decide (0 < price)).getD median)

end Oracle

inductive OracleCall
  | initializeOracle (admin : Address) (sources : List SourceConfig)
  | pause
  | unpause
  | proposeAdmin (newAdmin : Address)
  | acceptAdmin
  | setCircuitBreaker (breaker : Option Address)
  | setSource (source : String) (address : Address)
  | removeSource (source : String)
  | submitPrice (source : String) (asset : Address) (price : Int)

namespace OracleCall

def exec (self : Address) (env : TimedEnv) (s : Oracle) : OracleCall → Res Oracle
  | .initializeOracle admin sources => s.initializeOracle env admin sources
  | .pause => s.pause env
  | .unpause => s.unpause env
  | .proposeAdmin newAdmin => s.proposeAdmin env newAdmin
  | .acceptAdmin => s.acceptAdmin env
  | .setCircuitBreaker breaker => s.setCircuitBreaker env breaker
  | .setSource source address => s.setSource env source address
  | .removeSource source => s.removeSource env source
  | .submitPrice source asset price => s.submitPrice self env source asset price

def Typed : OracleCall → Prop
  | .submitPrice _ _ price => i128.Fits price
  | _ => True

end OracleCall

structure OracleInvocation where
  env : TimedEnv
  call : OracleCall
  typed : call.Typed

def oracleSystem (self : Address) : Transactional Oracle OracleInvocation Fault where
  exec := fun i s => i.call.exec self i.env s

end DukaPay
