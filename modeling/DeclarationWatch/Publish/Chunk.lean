import DeclarationWatch.Publish.Entry

namespace DeclarationWatch.Publish

structure Config where
  maxAttempts : Nat := 4
  backoffMillis : Nat := 1000
  batchCeiling : Nat := 10
  deriving Repr, DecidableEq

def Config.attempts (config : Config) : Nat := max 1 config.maxAttempts

def Config.ceiling (config : Config) : Nat := max 1 config.batchCeiling

abbrev Answer := Except PublishFailure Acknowledgement

-- Cuts a list into pieces of a positive size, the last one possibly shorter.
def chunks {α : Type} (size : Nat) : List α → List (List α)
  | [] => []
  | a :: rest => (a :: rest.take (size - 1)) :: chunks size (rest.drop (size - 1))
termination_by list => list.length
decreasing_by simp only [List.length_drop, List.length_cons]; omega

-- Nothing is lost, and nothing changes its place.
theorem flatten_chunks {α : Type} (size : Nat) (list : List α) :
    (chunks size list).flatten = list := by
  fun_induction chunks size list with
  | case1 => rfl
  | case2 a rest ih => simp [ih]

theorem ne_nil_of_mem_chunks {α : Type} {size : Nat} {list piece : List α}
    (h : piece ∈ chunks size list) : piece ≠ [] := by
  fun_induction chunks size list with
  | case1 => simp at h
  | case2 a rest ih =>
      rcases List.mem_cons.mp h with rfl | h
      · simp
      · exact ih h

theorem length_le_of_mem_chunks {α : Type} {size : Nat} {list piece : List α} (positive : 0 < size)
    (h : piece ∈ chunks size list) : piece.length ≤ size := by
  fun_induction chunks size list with
  | case1 => simp at h
  | case2 a rest ih =>
      rcases List.mem_cons.mp h with rfl | h
      · simp only [List.length_cons, List.length_take]
        omega
      · exact ih h

inductive Settlement where
  | done
  | exhausted (pending : List Entry)
  | cancelled
  | failed (failure : PublishFailure)
  deriving Repr, DecidableEq

-- Where a chunk stands. Attempts count from 1.
inductive ChunkState where
  | ready (attempt : Nat) (pending : List Entry)
  | waiting (attempt : Nat) (pending : List Entry)
  | backoff (attempt : Nat) (pending : List Entry)
  | settled (result : Settlement)
  deriving Repr, DecidableEq

namespace ChunkState

def start (entries : List Entry) : ChunkState := .ready 1 entries

-- The entries that the receiver asks to be sent again. Every entry that bears a named id stays.
def stillPending (rejections : List Rejection) (pending : List Entry) : List Entry :=
  pending.filter fun entry =>
    rejections.any fun rejection => !rejection.callerFault && rejection.id == entry.id

-- After an attempt that leaves entries pending there is a rest, except after the last one.
def afterAttempt (config : Config) (attempt : Nat) (pending : List Entry) : ChunkState :=
  if attempt < config.attempts then .backoff attempt pending else .settled (.exhausted pending)

-- An answer has come back. A request that is rejected for its sender's fault is dropped.
def receive (config : Config) (attempt : Nat) (pending : List Entry) : Answer → ChunkState
  | .ok [] => .settled .done
  | .ok rejections =>
      match stillPending rejections pending with
      | [] => .settled .done
      | left => afterAttempt config attempt left
  | .error (.sink _ _ true) => .settled .done
  | .error (.sink _ _ false) => afterAttempt config attempt pending
  | .error (.retriesExhausted ids) => .settled (.failed (.retriesExhausted ids))
  | .error .cancelled => .settled .cancelled
  | .error failure => .settled (.failed failure)

inductive Event where
  | send
  | answer (answer : Answer)
  | wake
  | cancel

-- One event in the life of a chunk. An event that does not fit the state changes nothing.
def step (config : Config) : ChunkState → Event → ChunkState
  | .settled result, _ => .settled result
  | _, .cancel => .settled .cancelled
  | .ready attempt pending, .send => .waiting attempt pending
  | .waiting attempt pending, .answer answer => receive config attempt pending answer
  | .backoff attempt pending, .wake => .ready (attempt + 1) pending
  | state, _ => state

end ChunkState

-- The failure that a settlement stands for. Entries that ran out of attempts are collected apart.
def Settlement.failure? : Settlement → Option PublishFailure
  | .cancelled => some .cancelled
  | .failed (.retriesExhausted _) => none
  | .failed failure => some failure
  | .done | .exhausted _ => none

def Settlement.undelivered : Settlement → List String
  | .exhausted pending => pending.map (·.id)
  | .failed (.retriesExhausted ids) => ids
  | _ => []

-- A cancellation replaces a failure held so far. Any other failure only fills an empty place.
def heldFailure (results : List Settlement) : Option PublishFailure :=
  results.foldl (fun held result =>
    match result.failure? with
    | some .cancelled => some .cancelled
    | failure => held.or failure) none

-- The result of a whole publication, from the settlements of its chunks in order.
def conclude (results : List Settlement) : Except PublishFailure Unit :=
  match heldFailure results with
  | some failure => .error failure
  | none =>
      match results.flatMap Settlement.undelivered with
      | [] => .ok ()
      | ids => .error (.retriesExhausted ids)

end DeclarationWatch.Publish
