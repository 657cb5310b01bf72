import DukaPay.Contractlib.Threads

/-! A request with an `Idempotency-Key` looks for a stored response under a key that is made up of
the principal, the method, the route and the header. -/
namespace DukaPay.Backend.Idempotency
open Contractlib

inductive Sent (Body : Type)
  | json (body : Body)
  | send (text : String)
  | nothing
  deriving DecidableEq

inductive Value (Body : Type)
  | response (status : Nat) (body : Body)
  | lockToken
  deriving DecidableEq

structure Entry (κ Body : Type) where
  owner : κ
  value : Value Body
  deriving DecidableEq

inductive Reply (Body : Type)
  | unavailable
  | conflict
  | replayed (status : Nat) (body : Body)
  | fresh (status : Nat) (sent : Sent Body)
  deriving DecidableEq

inductive Event (κ Body : Type)
  | hit (k owner : κ)
  | blocked (k owner : κ)
  | finished (k : κ) (status : Nat) (sent : Sent Body)
  | stored (status : Nat) (sent : Sent Body)
  | answered (k : κ) (reply : Reply Body)
  deriving DecidableEq

structure CircuitBreaker where
  failureCount : Nat
  lastFailureTime : Int

namespace CircuitBreaker

def threshold : Nat := 3

def resetTimeoutMs : Int := 30000

def isOpen (now : Int) (b : CircuitBreaker) : Bool :=
  decide (threshold ≤ b.failureCount ∧ now - b.lastFailureTime < resetTimeoutMs)

def recordSuccess (b : CircuitBreaker) : CircuitBreaker := { b with failureCount := 0 }

def recordFailure (now : Int) (b : CircuitBreaker) : CircuitBreaker :=
  ⟨b.failureCount + 1,now⟩

end CircuitBreaker

structure World (κ Body : Type) where
  redis : String → Option (Entry κ Body)
  breakers : Nat → CircuitBreaker
  trace : List (Event κ Body)

namespace World
variable {κ Body : Type}

def empty : World κ Body := ⟨fun _ => none,fun _ => ⟨0,0⟩,[]⟩

def note (e : Event κ Body) (w : World κ Body) : World κ Body := { w with trace := w.trace ++ [e] }

def set (key : String) (e : Option (Entry κ Body)) (w : World κ Body) : World κ Body :=
  { w with redis := fun key' => if key' = key then e else w.redis key' }

def updateBreaker (server : Nat) (f : CircuitBreaker → CircuitBreaker) (w : World κ Body) :
    World κ Body :=
  { w with breakers := fun server' =>
      if server' = server then f (w.breakers server) else w.breakers server' }

@[simp] lemma redis_note (e) (w : World κ Body) : (w.note e).redis = w.redis := rfl

@[simp] lemma trace_note (e) (w : World κ Body) : (w.note e).trace = w.trace ++ [e] := rfl

@[simp] lemma redis_set_self (key e) (w : World κ Body) : (w.set key e).redis key = e := if_pos rfl

lemma redis_set_ne {key key'} (h : key' ≠ key) (e)
    (w : World κ Body) : (w.set key e).redis key' = w.redis key' := if_neg h

@[simp] lemma trace_set (key e) (w : World κ Body) : (w.set key e).trace = w.trace := rfl

@[simp] lemma redis_updateBreaker (server f)
    (w : World κ Body) : (w.updateBreaker server f).redis = w.redis := rfl

@[simp] lemma trace_updateBreaker (server f)
    (w : World κ Body) : (w.updateBreaker server f).trace = w.trace := rfl

end World

inductive Read
  | before
  | occupied
  | reserved

inductive Command
  | breaker
  | get (read : Read) (key : String)
  | setNx (key : String)
  | setEx (key : String)
  | compareAndDelete (key : String)
  | handler
  | reply

structure Answer (Body : Type) where
  fault : Fault
  now : Int
  status : Nat
  sent : Sent Body

structure Request where
  server : Nat
  header : Option String
  publicKey : Option String
  ip : Option String
  method : String
  baseUrl : String
  path : String
  originalUrl : String

def truthy (text : Option String) : Option String := text.filter (· ≠ "")

namespace Request
variable (req : Request)

def principal : String :=
  match truthy req.publicKey with
  | some publicKey => "user:" ++ publicKey
  | none => "ip:" ++ (truthy req.ip).getD "unknown"

def route : String := req.baseUrl ++ if req.path = "" then req.originalUrl else req.path

def scope : String := req.principal ++ ":" ++ req.method ++ ":" ++ req.route

def cacheKey (key : String) : String := "idemp:" ++ req.scope ++ ":" ++ key

def lockKey (key : String) : String := req.cacheKey key ++ ":inflight"

lemma cacheKey_ne_lockKey (key) : req.cacheKey key ≠ req.lockKey key := by
  intro h
  have hl := congrArg String.length h
  rw [Request.lockKey,String.length_append] at hl
  have hs : ":inflight".length = 9 := by decide
  omega

end Request

abbrev Program (κ Body : Type) := Thread Unit Command (Answer Body) (World κ Body)

variable {κ Body : Type} [DecidableEq κ] [DecidableEq Body]

-- `parse` is `JSON.parse`, or the text itself if it is no JSON
variable (parse : String → Body) (k : κ) (req : Request)

def captured : Sent Body → Option Body
  | .json body => some body
  | .send text => some (parse text)
  | .nothing => none

def isOpen : Program κ Body Bool :=
  .statement .breaker fun i w => (.ok ((w.breakers req.server).isOpen i.now),w)

def recordSuccess : Program κ Body Unit :=
  .statement .breaker fun _ w => (.ok (),w.updateBreaker req.server CircuitBreaker.recordSuccess)

def recordFailure : Program κ Body Unit :=
  .statement .breaker fun i w =>
    (.ok (),w.updateBreaker req.server (CircuitBreaker.recordFailure i.now))

def get (read : Read) (key : String) : Program κ Body (Option (Entry κ Body)) :=
  .statement (.get read key) fun i w =>
    match i.fault,w.redis key with
    | .none,some e => (.ok (some e),w.note (.hit k e.owner))
    | _,_ => (.ok none,w)

variable (key : String)

def setNx (w : World κ Body) : Bool × World κ Body :=
  match w.redis key with
  | none => (true,w.set key (some ⟨k,.lockToken⟩))
  | some e => (false,w.note (.blocked k e.owner))

def reserve : Program κ Body Bool :=
  .statement (.setNx key) fun i w =>
    match i.fault with
    | .none => (.ok (setNx k key w).1,(setNx k key w).2)
    | .lost => (.error (),w)
    | .late => (.error (),(setNx k key w).2)

def setRequired (status : Nat) (sent : Sent Body) (body : Body) : Program κ Body Unit :=
  .statement (.setEx key) fun i w =>
    let w' := (w.set key (some ⟨k,.response status body⟩)).note (.stored status sent)
    match i.fault with
    | .none => (.ok (),w')
    | .lost => (.error (),w)
    | .late => (.error (),w')

def compareAndDelete (w : World κ Body) : Bool × World κ Body :=
  if w.redis key = some ⟨k,.lockToken⟩ then (true,w.set key none) else (false,w)

def deleteIfMatch : Program κ Body Bool :=
  .statement (.compareAndDelete key) fun i w =>
    match i.fault with
    | .none => (.ok (compareAndDelete k key w).1,(compareAndDelete k key w).2)
    | .lost => (.ok false,w)
    | .late => (.ok false,(compareAndDelete k key w).2)

def answer (reply : Reply Body) : Program κ Body Unit :=
  .statement .reply fun _ w => (.ok (),w.note (.answered k reply))

/-- Send a value that was read as the response. The token of a lock has no status, and `res.status`
throws. -/
def replay (e : Entry κ Body) : Program κ Body Unit :=
  match e.value with
  | .response status body => answer k (.replayed status body)
  | .lockToken => throw ()

def whenOccupied : Program κ Body Bool := do
  let completed ← get k .occupied (req.cacheKey key)
  match completed with
  | some e => do
    replay k e
    pure false
  | none => do
    answer k .conflict
    pure false

def whenReserved : Program κ Body Bool := do
  let completed ← get k .reserved (req.cacheKey key)
  match completed with
  | some e => do
    let _ ← deleteIfMatch k (req.lockKey key)
    replay k e
    pure false
  | none => pure true

def lookup : Program κ Body Bool := do
  let cached ← get k .before (req.cacheKey key)
  recordSuccess req
  match cached with
  | some e => do
    replay k e
    pure false
  | none => do
    let acquired ← reserve k (req.lockKey key)
    if acquired then whenReserved k req key else whenOccupied k req key

def handler : Program κ Body (Nat × Sent Body) :=
  .statement .handler fun i w =>
    (.ok (i.status,i.sent),
      (w.note (.finished k i.status i.sent)).note (.answered k (.fresh i.status i.sent)))

def store (status : Nat) (sent : Sent Body) (body : Body) : Program κ Body Bool :=
  tryCatch
    (do
      setRequired k (req.cacheKey key) status sent body
      recordSuccess req
      pure true)
    fun _ => do
      recordFailure req
      pure false

def finish (status : Nat) (sent : Sent Body) : Program κ Body Unit :=
  match if 200 ≤ status ∧ status < 500 then captured parse sent else none with
  | some body => do
    let responseStored ← store k req key status sent body
    if responseStored then do
      let _ ← deleteIfMatch k (req.lockKey key)
    else pure ()
  | none => do
    let _ ← deleteIfMatch k (req.lockKey key)

def execute : Program κ Body Unit := do
  let (status,sent) ← handler k
  finish parse k req key status sent

def idempotencyMiddleware : Program κ Body Unit :=
  match truthy req.header with
  | none => do
    let _ ← handler k
  | some key => do
    let unavailable ← isOpen req
    if unavailable then answer k .unavailable
    else do
      let proceed ← tryCatch (lookup k req key) fun _ => do
        recordFailure req
        answer k .unavailable
        pure false
      if proceed then execute parse k req key else pure ()

def requestPool (requests : κ → Request) (w : World κ Body) :
    Pool κ Unit Command (Answer Body) (World κ Body) Unit :=
  ⟨fun k => idempotencyMiddleware parse k (requests k),w⟩

abbrev noInterference : Empty → World κ Body → World κ Body := fun e _ => nomatch e

end DukaPay.Backend.Idempotency
