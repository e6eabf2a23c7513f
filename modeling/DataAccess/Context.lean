import DataAccess.Store.Error

/-!
# Call contexts

A call to a store may carry a deadline and a token by which it can be cancelled. The clock and the
tokens cancelled so far are the surroundings in which it runs. Times are counted in nanoseconds.
-/

namespace DataAccess

/-- What surrounds a call: the time, and the tokens that have been cancelled. -/
structure Surroundings where
  now : Nat := 0
  cancelled : List Nat := []
deriving DecidableEq

/-- What can happen around a call. -/
inductive Event
  | cancel (token : Nat)
  | elapse (duration : Nat)
deriving DecidableEq

namespace Surroundings

def after (surroundings : Surroundings) : Event → Surroundings
  | .cancel token => { surroundings with cancelled := token :: surroundings.cancelled }
  | .elapse duration => { surroundings with now := surroundings.now + duration }

end Surroundings

structure Context where
  deadline : Option Nat := none
  token : Option Nat := none
deriving DecidableEq

namespace Context

def background : Context := {}

def withDeadline (deadline : Nat) : Context := { deadline := some deadline }

/-- The context with a token, in the place of any it has. -/
def withToken (context : Context) (token : Nat) : Context := { context with token := some token }

def isCancelled (context : Context) (surroundings : Surroundings) : Bool :=
  match context.token with
  | some token => surroundings.cancelled.contains token
  | none => false

def isExpired (context : Context) (surroundings : Surroundings) : Bool :=
  match context.deadline with
  | some deadline => decide (deadline ≤ surroundings.now)
  | none => false

/-- Whether a call may go on. A cancelled call says so even after its deadline. -/
def check (context : Context) (surroundings : Surroundings) : Except StoreError Unit :=
  if context.isCancelled surroundings then .error .cancelled
  else if context.isExpired surroundings then .error .timeout
  else .ok ()

/-- The time left until the deadline, where there is one. -/
def remaining (context : Context) (surroundings : Surroundings) : Option Nat :=
  context.deadline.map fun deadline => deadline - surroundings.now

def effectiveTimeout (context : Context) (surroundings : Surroundings) (default : Nat) : Nat :=
  (context.remaining surroundings).getD default

end Context

def nanosPerMilli : Nat := 1000000

structure StoreConfig where
  /-- How long a call without a deadline waits. -/
  defaultTimeout : Nat := 30000 * nanosPerMilli
deriving DecidableEq

/-- How much of concurrent transactions a transaction may see. -/
inductive Isolation
  | readCommitted | snapshot | serializable
deriving DecidableEq

namespace Isolation

def name : Isolation → String
  | .readCommitted => "ReadCommitted"
  | .snapshot => "Snapshot"
  | .serializable => "Serializable"

def all : List Isolation := [.readCommitted, .snapshot, .serializable]

def ofName? (text : String) : Option Isolation := all.find? (·.name == text)

end Isolation

end DataAccess
