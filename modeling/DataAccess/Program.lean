import DataAccess.Context

/-!
# Programs over stores

A program calls a store, call by call, and goes on with the answers. It is data, so what it sends
can be followed under any answers, and a transaction is a call that carries a program as its body.
A connection answers the calls; `Program.run` runs a program on it. Inside a transaction a further
transaction is joined: its body runs call by call as part of the outer one.
-/

namespace DataAccess

/-- The calls a kind of store takes, and what each answers. -/
structure Interface where
  Call : Type
  Answer : Call → Type

/-- How a transaction's body ends: whether to commit, and what it hands on in either case. -/
abbrev Outcome (α : Type) := Except StoreError Unit × α

inductive Program (I : Interface) : Type → Type 1
  | done {α : Type} (result : α) : Program I α
  | call {α : Type} (context : Context) (request : I.Call)
      (next : Except StoreError (I.Answer request) → Program I α) : Program I α
  /-- Something happens around the program before it goes on. -/
  | signal {α : Type} (event : Event) (next : Program I α) : Program I α
  /-- A transaction, which may end without having run its body. -/
  | transaction {α β : Type} (context : Context) (isolation : Isolation)
      (body : Program I (Outcome β)) (next : Outcome (Option β) → Program I α) : Program I α

namespace Program

variable {I : Interface} {α β : Type}

def bind : {α β : Type} → Program I α → (α → Program I β) → Program I β
  | _, _, .done result, f => f result
  | _, _, .call context request next, f => .call context request fun answer => bind (next answer) f
  | _, _, .signal event next, f => .signal event (bind next f)
  | _, _, .transaction context isolation body next, f =>
      .transaction context isolation body fun outcome => bind (next outcome) f

instance : Monad (Program I) where
  pure := .done
  bind := bind

theorem bind_done (program : Program I α) : bind program .done = program := by
  induction program with
  | done result => rfl
  | call context request next ih => simp only [bind, ih]
  | signal event next ih => simp only [bind, ih]
  | transaction context isolation body next _ ih => simp only [bind, ih]

theorem bind_assoc {γ : Type} (program : Program I α) (f : α → Program I β)
    (g : β → Program I γ) : bind (bind program f) g = bind program fun a => bind (f a) g := by
  induction program with
  | done result => rfl
  | call context request next ih => simp only [bind, ih]
  | signal event next ih => simp only [bind, ih]
  | transaction context isolation body next _ ih => simp only [bind, ih]

end Program

/-- A store together with its surroundings. -/
structure World (S : Type) where
  store : S
  surroundings : Surroundings := {}

/-- How a store with states `S` answers calls and runs transactions. -/
structure Connection (I : Interface) (S : Type) where
  perform : Context → (request : I.Call) → World S →
    Except StoreError (I.Answer request) × World S
  transact : {β : Type} → Context → Isolation → (World S → Outcome β × World S) → World S →
    Outcome (Option β) × World S

namespace Program

variable {I : Interface} {S : Type} {α : Type}

/-- Runs a program inside a transaction: further transactions are joined. -/
def runJoined (connection : Connection I S) : {α : Type} → Program I α → World S → α × World S
  | _, .done result, world => (result, world)
  | _, .call context request next, world =>
      let (answer, world) := connection.perform context request world
      runJoined connection (next answer) world
  | _, .signal event next, world =>
      runJoined connection next { world with surroundings := world.surroundings.after event }
  | _, .transaction _ _ body next, world =>
      let ((ended, value), world) := runJoined connection body world
      runJoined connection (next (ended, some value)) world

def run (connection : Connection I S) : {α : Type} → Program I α → World S → α × World S
  | _, .done result, world => (result, world)
  | _, .call context request next, world =>
      let (answer, world) := connection.perform context request world
      run connection (next answer) world
  | _, .signal event next, world =>
      run connection next { world with surroundings := world.surroundings.after event }
  | _, .transaction context isolation body next, world =>
      let (outcome, world) := connection.transact context isolation (runJoined connection body) world
      run connection (next outcome) world

end Program

/-- A connection whose calls check their context and then act on the store alone. -/
def Connection.checked {I : Interface} {S : Type}
    (act : (request : I.Call) → S → Except StoreError (I.Answer request) × S) :
    Context → (request : I.Call) → World S → Except StoreError (I.Answer request) × World S :=
  fun context request world =>
    match context.check world.surroundings with
    | .error error => (.error error, world)
    | .ok () =>
        let (answer, store) := act request world.store
        (answer, { world with store })

/-- A transaction on a private copy: what the body did is kept only if the body ends well and the
context still allows it. `restore` gives the store back, after and before in this order. -/
def Connection.atomic {S β : Type} (restore : S → S → S) (context : Context)
    (body : World S → Outcome β × World S) (world : World S) : Outcome (Option β) × World S :=
  match context.check world.surroundings with
  | .error error => ((.error error, none), world)
  | .ok () =>
      let ((ended, value), after) := body world
      let undone : World S := { after with store := restore after.store world.store }
      match ended with
      | .error error => ((.error error, some value), undone)
      | .ok () =>
          match context.check after.surroundings with
          | .error error => ((.error error, some value), undone)
          | .ok () => ((.ok (), some value), after)

end DataAccess
