import DeclarationWatch.Movement.StoredToken

namespace DeclarationWatch.Movement

-- Where a caller that asks for a token stands.
inductive Asking where
  | arriving
  -- It found nothing to use and is about to queue for the refresh.
  | missed
  | queued
  | exchanging
  -- Its exchange succeeded, and the token is about to be stored.
  | storing (token : StoredToken)
  -- It took the secret that was stored.
  | served (secret : String)
  -- It stored a token of its own.
  | refreshed (secret : String)
  | failed (failure : Failure)
  | gone
  deriving Repr, DecidableEq

-- The stored token and all that happens around it. Only the head of the queue may refresh.
structure TokenCache where
  stored : Option StoredToken
  queue : List Nat
  callers : Nat → Asking
  exchanges : Nat

-- What may happen to a cache. Callers are numbered, and a clock is read anew each time.
inductive CacheEvent where
  | look (caller : Nat) (now : Time.Instant)
  | enqueue (caller : Nat)
  -- The caller's turn to refresh has come, and it looks again.
  | turn (caller : Nat) (now : Time.Instant)
  | exchanged (caller : Nat) (now : Time.Instant) (result : Except MovementFailure AccessToken)
  | store (caller : Nat)
  | drop (caller : Nat)
  | invalidate

namespace TokenCache

def empty : TokenCache := ⟨none, [], fun _ => .arriving, 0⟩

def setCaller (cache : TokenCache) (caller : Nat) (state : Asking) : TokenCache :=
  { cache with callers := fun i => if i = caller then state else cache.callers i }

@[simp] theorem callers_setCaller_self (cache : TokenCache) (caller : Nat) (state : Asking) :
    (cache.setCaller caller state).callers caller = state := if_pos rfl

-- The caller's business is done, and its place in the queue is free.
def leave (cache : TokenCache) (caller : Nat) (state : Asking) : TokenCache :=
  { cache.setCaller caller state with queue := cache.queue.filter (· != caller) }

def holdsTurn (cache : TokenCache) (caller : Nat) : Bool := cache.queue.head? == some caller

-- The state of a caller whose exchange has come back.
def outcomeOf (now : Time.Instant) (result : Except MovementFailure AccessToken) :
    Except Failure StoredToken :=
  match result with
  | .ok token => StoredToken.ofExchange token now
  | .error failure => .error (.movement failure)

-- One event. An event that does not fit where its caller stands changes nothing.
def step (cache : TokenCache) : CacheEvent → TokenCache
  | .invalidate => { cache with stored := none }
  | .look caller now =>
      match cache.callers caller with
      | .arriving =>
          match StoredToken.usable? cache.stored now with
          | some secret => cache.setCaller caller (.served secret)
          | none => cache.setCaller caller .missed
      | _ => cache
  | .enqueue caller =>
      match cache.callers caller with
      | .missed => { cache.setCaller caller .queued with queue := cache.queue ++ [caller] }
      | _ => cache
  | .turn caller now =>
      match cache.callers caller, cache.holdsTurn caller with
      | .queued, true =>
          match StoredToken.usable? cache.stored now with
          | some secret => cache.leave caller (.served secret)
          | none => { cache.setCaller caller .exchanging with exchanges := cache.exchanges + 1 }
      | _, _ => cache
  | .exchanged caller now result =>
      match cache.callers caller with
      | .exchanging =>
          match outcomeOf now result with
          | .ok token => cache.setCaller caller (.storing token)
          | .error failure => cache.leave caller (.failed failure)
      | _ => cache
  | .store caller =>
      match cache.callers caller with
      | .storing token =>
          { cache.leave caller (.refreshed token.secret) with stored := some token }
      | _ => cache
  | .drop caller =>
      match cache.callers caller with
      | .served _ | .refreshed _ | .failed _ | .gone => cache
      | _ => cache.leave caller .gone

def run (cache : TokenCache) (events : List CacheEvent) : TokenCache := events.foldl step cache

-- New callers may come once nobody is left of the last ones.
def reopened (cache : TokenCache) : TokenCache := { empty with
  stored := cache.stored
  exchanges := cache.exchanges }

-- Callers that come at the same time and are served in the order of their numbers, each with the
-- result that its exchange has if it comes to one.
def together (now : Time.Instant) (results : List (Except MovementFailure AccessToken)) :
    List CacheEvent :=
  let numbered := results.zipIdx
  (numbered.map fun (_, i) => .look i now) ++ (numbered.map fun (_, i) => .enqueue i) ++
    numbered.flatMap fun (result, i) => [.turn i now, .exchanged i now result, .store i]

def result? : Asking → Option (Except Failure String)
  | .served secret | .refreshed secret => some (.ok secret)
  | .failed failure => some (.error failure)
  | _ => none

-- The results of callers that come together, in the order of their numbers, and the cache after.
def serveAll (cache : TokenCache) (now : Time.Instant)
    (results : List (Except MovementFailure AccessToken)) :
    List (Except Failure String) × TokenCache :=
  let after := cache.reopened.run (together now results)
  ((List.range results.length).filterMap fun i => result? (after.callers i), after)

end TokenCache

end DeclarationWatch.Movement
