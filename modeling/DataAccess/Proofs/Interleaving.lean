import DataAccess.Proofs.Operation
import Mathlib.Data.List.Induction

/-!
# Clients that create at the same time

Clients use one store, each with a program of its own. A turn is one call of a client or a whole
transaction of it, and the turns of all clients follow one another in any order. Of the clients that
contend for one key at most one succeeds, whatever happens to the store between their turns, if
every single turn keeps the count of its records.
-/

namespace DataAccess

variable {I : Interface} {S α : Type}

/-- Whose turn it is; or something happens around all clients. -/
inductive Turn
  | client (position : Nat)
  | around (event : Event)
deriving DecidableEq

def Surroundings.afterTurn (surroundings : Surroundings) : Turn → Surroundings
  | .client _ => surroundings
  | .around event => surroundings.after event

def Surroundings.afterAll (surroundings : Surroundings) (schedule : List Turn) : Surroundings :=
  schedule.foldl afterTurn surroundings

/-- How many turns a client had. -/
def turnsOf (schedule : List Turn) (position : Nat) : Nat := schedule.count (.client position)

namespace Program

/-- One turn of a program. A transaction takes a single one. -/
def turn (connection : Connection I S) :
    {α : Type} → Program I α → World S → Program I α × World S
  | _, .done result, world => (.done result, world)
  | _, .call context request next, world =>
      let (answer, world) := connection.perform context request world
      (next answer, world)
  | _, .signal event next, world =>
      (next, { world with surroundings := world.surroundings.after event })
  | _, .transaction context isolation body next, world =>
      let (outcome, world) := connection.transact context isolation (runJoined connection body) world
      (next outcome, world)

def result? : {α : Type} → Program I α → Option α
  | _, .done result => some result
  | _, _ => none

theorem run_turn (connection : Connection I S) (program : Program I α) (world : World S) :
    (program.turn connection world).1.run connection (program.turn connection world).2 =
      program.run connection world := by
  cases program <;> rfl

end Program

/-- A client, and whether it contends for the key in question. -/
structure Client (I : Interface) where
  contends : Bool
  program : Program I (Except DaoError Nat)

def Client.won (client : Client I) : Bool :=
  client.contends && match client.program.result? with
    | some (.ok _) => true
    | _ => false

/-- Clients at work on a store. -/
structure Crowd (I : Interface) (S : Type) where
  clients : List (Client I)
  world : World S

namespace Crowd

def after (connection : Connection I S) (crowd : Crowd I S) : Turn → Crowd I S
  | .client position =>
      match crowd.clients[position]? with
      | none => crowd
      | some client =>
          let (program, world) := client.program.turn connection crowd.world
          { clients := crowd.clients.set position { client with program }, world }
  | .around event =>
      { crowd with
          world := { crowd.world with surroundings := crowd.world.surroundings.after event } }

def run (connection : Connection I S) (crowd : Crowd I S) (schedule : List Turn) : Crowd I S :=
  schedule.foldl (after connection) crowd

end Crowd

/-- What is watched while clients contend: the contexts that have to last, what holds of the store
all the time, and how many records of the key are stored. -/
structure Contest (S : Type) where
  contexts : List Context
  sound : S → Prop
  stored : S → Nat
  single : ∀ store, sound store → stored store ≤ 1

def Contest.Live (contest : Contest S) (surroundings : Surroundings) : Prop :=
  ∀ context ∈ contest.contexts, context.check surroundings = .ok ()

/-- How a creation may end, and how many records of the key it adds. A contender fails for no other
reason than that the entry is there. -/
inductive Ends (contends : Bool) : Except DaoError Nat → Nat → Prop
  | created : Ends contends (.ok 1) contends.toNat
  | failed (error : DaoError) (reason : contends = true → error = .duplicateEntry) :
      Ends contends (.error error) 0

/-- Where items that pass a test are in the way of one another, at most one does. -/
theorem countP_le_one {relation : α → α → Prop} {test : α → Bool} {items : List α}
    (apart : items.Pairwise relation)
    (collide : ∀ first second, test first = true → test second = true → ¬ relation first second) :
    items.countP test ≤ 1 := by
  induction apart with
  | nil => simp
  | @cons item rest others _ ih =>
      rw [List.countP_cons]
      split
      · rename_i holds
        have none : rest.countP test = 0 := List.countP_eq_zero.mpr fun other member also =>
          collide item other holds also (others other member)
        omega
      · exact ih

/-- A program that ends within so many turns, whatever happens to the store between them. Only its
last turn may store a record of the key. -/
def Contest.Settles (contest : Contest S) (connection : Connection I S) (contends : Bool) :
    Nat → Program I (Except DaoError Nat) → Prop
  | 0, _ => False
  | turns + 1, program => program.result? = none ∧
      ∀ world, contest.Live world.surroundings → contest.sound world.store →
        (program.turn connection world).2.surroundings = world.surroundings ∧
        contest.sound (program.turn connection world).2.store ∧
        ∃ gain, contest.stored (program.turn connection world).2.store =
            contest.stored world.store + gain ∧
          ((∃ result, (program.turn connection world).1 = .done result ∧
              Ends contends result gain) ∨
            gain = 0 ∧
              contest.Settles connection contends turns (program.turn connection world).1)

theorem Ends.toNat_won {contends : Bool} {result : Except DaoError Nat} {gain : Nat}
    (ends : Ends contends result gain) :
    (Client.won { contends, program := (.done result : Program I _) }).toNat = gain := by
  cases ends with
  | created => simp [Client.won, Program.result?]
  | failed error reason => simp [Client.won, Program.result?]

namespace Context

variable {context : Context} {surroundings : Surroundings} {event : Event}

theorem isCancelled_after (cancelled : context.isCancelled surroundings = true) :
    context.isCancelled (surroundings.after event) = true := by
  cases event with
  | elapse duration => exact cancelled
  | cancel token =>
      simp only [isCancelled, Surroundings.after] at cancelled ⊢
      split at cancelled <;> simp_all

theorem isExpired_after (expired : context.isExpired surroundings = true) :
    context.isExpired (surroundings.after event) = true := by
  cases event with
  | cancel token => exact expired
  | elapse duration =>
      simp only [isExpired, Surroundings.after] at expired ⊢
      split at expired
      · exact decide_eq_true (Nat.le_add_right_of_le (of_decide_eq_true expired))
      · cases expired

theorem check_eq_ok : context.check surroundings = .ok () ↔
    ¬ context.isCancelled surroundings = true ∧ ¬ context.isExpired surroundings = true := by
  simp only [check]
  split
  · simp_all
  · split <;> simp_all

theorem check_of_after (later : context.check (surroundings.after event) = .ok ()) :
    context.check surroundings = .ok () := by
  obtain ⟨active, early⟩ := check_eq_ok.mp later
  exact check_eq_ok.mpr ⟨fun cancelled => active (isCancelled_after cancelled),
    fun expired => early (isExpired_after expired)⟩

end Context

namespace Contest

variable {contest : Contest S} {connection : Connection I S} {contends : Bool} {turns : Nat}
variable {program : Program I (Except DaoError Nat)}

theorem Live.before {surroundings : Surroundings} {turn : Turn}
    (live : contest.Live (surroundings.afterTurn turn)) : contest.Live surroundings := by
  cases turn with
  | client position => exact live
  | around event => exact fun context listed => Context.check_of_after (live context listed)

theorem Settles.unfinished (settles : contest.Settles connection contends turns program) :
    program.result? = none := by
  cases turns with
  | zero => exact settles.elim
  | succ turns => exact settles.1

theorem Settles.exists_succ (settles : contest.Settles connection contends turns program) :
    ∃ remaining, turns = remaining + 1 := by
  cases turns with
  | zero => exact settles.elim
  | succ remaining => exact ⟨remaining, rfl⟩

theorem Settles.succ (settles : contest.Settles connection contends turns program) :
    contest.Settles connection contends (turns + 1) program := by
  induction turns generalizing program with
  | zero => exact settles.elim
  | succ turns ih =>
      refine ⟨settles.1, fun world live sound => ?_⟩
      obtain ⟨around, soundAfter, gain, stored, next⟩ := settles.2 world live sound
      refine ⟨around, soundAfter, gain, stored, next.imp_right ?_⟩
      exact fun ⟨nothing, rest⟩ => ⟨nothing, ih rest⟩

/-- Left to itself, a program that settles ends as it may. -/
theorem Settles.run (settles : contest.Settles connection contends turns program)
    (world : World S) (live : contest.Live world.surroundings)
    (sound : contest.sound world.store) :
    (program.run connection world).2.surroundings = world.surroundings ∧
      contest.sound (program.run connection world).2.store ∧
      ∃ gain, contest.stored (program.run connection world).2.store =
          contest.stored world.store + gain ∧
        Ends contends (program.run connection world).1 gain := by
  induction turns generalizing program world with
  | zero => exact settles.elim
  | succ turns ih =>
      obtain ⟨around, soundAfter, gain, stored, ended | ⟨rfl, settlesRest⟩⟩ :=
        settles.2 world live sound
      · obtain ⟨result, done, ends⟩ := ended
        rw [← Program.run_turn, done]
        exact ⟨around, soundAfter, gain, stored, ends⟩
      · obtain ⟨aroundRest, soundRest, gain, storedRest, ends⟩ :=
          ih settlesRest _ (around ▸ live) soundAfter
        rw [Program.run_turn] at aroundRest soundRest storedRest ends
        rw [stored, Nat.add_zero] at storedRest
        exact ⟨aroundRest.trans around, soundRest, gain, storedRest, ends⟩

/-- Whether a call settles depends on what it does to the store when its context allows it. -/
theorem settles_call {act : (request : I.Call) → S → Except StoreError (I.Answer request) × S}
    (calls : connection.perform = Connection.checked act) {context : Context}
    (lasting : contends = true → context ∈ contest.contexts) {request : I.Call}
    {next : Except StoreError (I.Answer request) → Program I (Except DaoError Nat)}
    (fails : ∀ error, ∃ reason, next (.error error) = .done (.error reason))
    (step : ∀ store, contest.sound store → contest.sound (act request store).2 ∧
      ∃ gain, contest.stored (act request store).2 = contest.stored store + gain ∧
        ((∃ result, next (act request store).1 = .done result ∧ Ends contends result gain) ∨
          gain = 0 ∧ contest.Settles connection contends turns (next (act request store).1))) :
    contest.Settles connection contends (turns + 1) (.call context request next) := by
  refine ⟨rfl, ?_⟩
  intro world live sound
  simp only [Program.turn, calls]
  cases allowed : context.check world.surroundings with
  | ok _ =>
      rw [Connection.checked_ok act allowed]
      exact ⟨rfl, step world.store sound⟩
  | error error =>
      rw [Connection.checked_error act allowed]
      obtain ⟨reason, failed⟩ := fails error
      refine ⟨rfl, sound, 0, rfl, .inl ⟨_, failed, .failed reason fun contended => ?_⟩⟩
      rw [live context (lasting contended)] at allowed
      cases allowed

theorem settles_inTransaction {restore : S → S → S} {context : Context} {isolation : Isolation}
    {body : Operation I Nat}
    (atomic : ∀ {β : Type} (body : World S → Outcome β × World S),
      connection.transact context isolation body = Connection.atomic restore context body)
    (ofRestore : ∀ after before, contest.sound before →
      contest.sound (restore after before) ∧
        contest.stored (restore after before) = contest.stored before)
    (lasting : contends = true → context ∈ contest.contexts)
    (settles : contest.Settles connection.joined contends turns body.run) :
    contest.Settles connection contends 1 (Operation.inTransaction context isolation body).run := by
  refine ⟨rfl, ?_⟩
  intro world live sound
  have whole : Program.turn connection (Operation.inTransaction context isolation body).run world =
      (.done ((Operation.inTransaction context isolation body).on connection world).1,
        ((Operation.inTransaction context isolation body).on connection world).2) := rfl
  rw [whole, Operation.on_inTransaction, atomic]
  cases began : context.check world.surroundings with
  | error error =>
      simp only [Connection.atomic, began]
      refine ⟨trivial, sound, 0, rfl, .inl ⟨_, rfl, .failed _ fun contended => ?_⟩⟩
      rw [live context (lasting contended)] at began
      cases began
  | ok _ =>
      obtain ⟨around, soundAfter, gain, stored, ends⟩ := settles.run world live sound
      generalize ran : body.run.run connection.joined world = ended at around soundAfter stored ends
      obtain ⟨result, after⟩ := ended
      have inside : Operation.bodyOn connection body world =
          ((Operation.ending result, result), after) := by
        simp only [Operation.bodyOn, Operation.on, ran]
      cases ends with
      | created =>
          -- Nothing inside the transaction ends a context, so the check at its end passes.
          have finished : context.check after.surroundings = .ok () := by rw [around, began]
          simp only [Connection.atomic, began, inside, Operation.ending, finished]
          exact ⟨around, soundAfter, _, stored, .inl ⟨_, rfl, .created⟩⟩
      | failed error reason =>
          -- Whatever the body stored is given up with the copy, so nothing is gained.
          simp only [Connection.atomic, began, inside, Operation.ending]
          obtain ⟨soundBack, storedBack⟩ := ofRestore after.store world.store sound
          exact ⟨around, soundBack, 0, storedBack, .inl ⟨_, rfl, .failed error reason⟩⟩

end Contest

/-- How a contest stands: what the clients that were there at the start have become, and how many
records of the key were and are stored. -/
structure Contested (turns : Nat) (schedule : List Turn) (start clients : List (Client I))
    (before after : Nat) : Prop where
  contenders : clients.map Client.contends = start.map Client.contends
  /-- A contender is done when it had enough turns. -/
  finished : ∀ position client, clients[position]? = some client → client.contends = true →
    turns ≤ turnsOf schedule position → client.program.result?.isSome = true
  answers : ∀ client ∈ clients, client.contends = true → ∀ result,
    client.program.result? = some result → result = .ok 1 ∨ result = .error .duplicateEntry
  single : clients.countP Client.won ≤ 1
  taken : before ≠ 0 → clients.countP Client.won = 0
  kept : before ≠ 0 ∨ clients.countP Client.won ≠ 0 → after = 1

namespace Contest

variable {contest : Contest S} {connection : Connection I S} {turns : Nat}
variable {start crowd : Crowd I S} {schedule : List Turn}

/-- What a client is while the contest goes on: done, or at most so many turns from it. -/
def Engaged (contest : Contest S) (connection : Connection I S) (turns : Nat)
    (client : Client I) : Prop :=
  (∃ result gain, client.program = .done result ∧ Ends client.contends result gain) ∨
    contest.Settles connection client.contends turns client.program

structure Underway (contest : Contest S) (connection : Connection I S) (turns : Nat)
    (start : Crowd I S) (schedule : List Turn) (crowd : Crowd I S) : Prop where
  surroundings : crowd.world.surroundings =
    start.world.surroundings.afterAll schedule
  sound : contest.sound crowd.world.store
  contenders : crowd.clients.map Client.contends = start.clients.map Client.contends
  engaged : ∀ position client, crowd.clients[position]? = some client →
    contest.Engaged connection (turns - turnsOf schedule position) client
  stored : contest.stored crowd.world.store =
    contest.stored start.world.store + crowd.clients.countP Client.won

theorem afterAll_append (surroundings : Surroundings) (schedule : List Turn) (turn : Turn) :
    surroundings.afterAll (schedule ++ [turn]) =
      (surroundings.afterAll schedule).afterTurn turn := by
  simp [Surroundings.afterAll]

theorem underway_around (underway : contest.Underway connection turns start schedule crowd)
    (event : Event) : contest.Underway connection turns start (schedule ++ [.around event])
      (crowd.after connection (.around event)) where
  surroundings := by
    rw [afterAll_append, ← underway.surroundings]
    rfl
  sound := underway.sound
  contenders := underway.contenders
  engaged := by
    intro position client atPosition
    simpa [turnsOf] using underway.engaged position client atPosition
  stored := underway.stored

section

variable {position : Nat} {client next : Client I}

theorem turnsOf_self :
    turnsOf (schedule ++ [.client position]) position = turnsOf schedule position + 1 := by
  simp [turnsOf]

theorem turnsOf_of_ne {other : Nat} (apart : position ≠ other) :
    turnsOf (schedule ++ [.client position]) other = turnsOf schedule other := by
  simp [turnsOf, apart]

theorem countP_won_set {clients : List (Client I)} (atPosition : clients[position]? = some client)
    (unwon : client.won = false) :
    (clients.set position next).countP Client.won =
      clients.countP Client.won + next.won.toNat := by
  obtain ⟨inside, isClient⟩ := List.getElem?_eq_some_iff.mp atPosition
  rw [List.countP_set inside, isClient, unwon]
  cases next.won <;> simp

theorem map_contends_set {clients : List (Client I)}
    (atPosition : clients[position]? = some client) (same : next.contends = client.contends) :
    (clients.set position next).map Client.contends = clients.map Client.contends := by
  have listed : (clients.map Client.contends)[position]? = some next.contends := by
    simp [atPosition, same]
  obtain ⟨inside, unchanged⟩ := List.getElem?_eq_some_iff.mp listed
  rw [List.map_set, ← unchanged]
  exact List.set_getElem_self inside

variable (underway : contest.Underway connection turns start schedule crowd)
variable (atPosition : crowd.clients[position]? = some client)

include underway

theorem surroundings_client : crowd.world.surroundings =
    start.world.surroundings.afterAll (schedule ++ [.client position]) := by
  rw [afterAll_append, ← underway.surroundings]
  rfl

theorem engaged_of_ne {other : Nat} (apart : position ≠ other)
    (atOther : crowd.clients[other]? = some client) :
    contest.Engaged connection
      (turns - turnsOf (schedule ++ [.client position]) other) client := by
  rw [turnsOf_of_ne apart]
  exact underway.engaged other client atOther

theorem underway_absent (absent : crowd.clients[position]? = none) :
    contest.Underway connection turns start (schedule ++ [.client position])
      (crowd.after connection (.client position)) := by
  simp only [Crowd.after, absent]
  refine { underway with surroundings := surroundings_client underway, engaged := ?_ }
  intro other client atOther
  refine engaged_of_ne underway ?_ atOther
  rintro rfl
  rw [absent] at atOther
  cases atOther

include atPosition

theorem underway_done {result : Except DaoError Nat} {gain : Nat}
    (done : client.program = .done result) (ends : Ends client.contends result gain) :
    contest.Underway connection turns start (schedule ++ [.client position])
      (crowd.after connection (.client position)) := by
  have idle : crowd.after connection (.client position) = crowd := by
    obtain ⟨inside, isClient⟩ := List.getElem?_eq_some_iff.mp atPosition
    simp only [Crowd.after, atPosition, done, Program.turn]
    rw [← done, ← isClient, List.set_getElem_self]
  rw [idle]
  refine { underway with surroundings := surroundings_client underway, engaged := ?_ }
  intro other next atOther
  by_cases same : position = other
  · subst other
    cases atPosition.symm.trans atOther
    exact .inl ⟨result, gain, done, ends⟩
  · exact engaged_of_ne underway same atOther

theorem underway_settles (live : contest.Live crowd.world.surroundings)
    (settles : contest.Settles connection client.contends
      (turns - turnsOf schedule position) client.program) :
    contest.Underway connection turns start (schedule ++ [.client position])
      (crowd.after connection (.client position)) := by
  obtain ⟨remaining, isRemaining⟩ := settles.exists_succ
  have counted : turns - turnsOf (schedule ++ [.client position]) position = remaining := by
    rw [turnsOf_self]
    omega
  have unwon : client.won = false := by simp [Client.won, settles.unfinished]
  rw [isRemaining] at settles
  obtain ⟨around, sound, gain, stored, next⟩ := settles.2 crowd.world live underway.sound
  simp only [Crowd.after, atPosition]
  generalize client.program.turn connection crowd.world = turned at around sound stored next
  obtain ⟨program, world⟩ := turned
  -- What the turn stored is what the client won by it, and it had not won before.
  have won : (Client.won { client with program }).toNat = gain := by
    rcases next with ⟨result, rfl, ends⟩ | ⟨rfl, settlesRest⟩
    · exact ends.toNat_won
    · simp [Client.won, settlesRest.unfinished]
  refine { surroundings := around.trans (surroundings_client underway), sound, contenders := ?_,
           engaged := ?_, stored := ?_ }
  · rw [← underway.contenders]
    exact map_contends_set atPosition rfl
  · intro other found atOther
    by_cases same : position = other
    · subst other
      obtain ⟨inside, _⟩ := List.getElem?_eq_some_iff.mp atPosition
      rw [List.getElem?_set_self inside] at atOther
      cases atOther
      rw [counted]
      rcases next with ⟨result, done, ends⟩ | ⟨_, settlesRest⟩
      · exact .inl ⟨result, gain, done, ends⟩
      · exact .inr settlesRest
    · rw [List.getElem?_set_ne same] at atOther
      exact engaged_of_ne underway same atOther
  · rw [countP_won_set atPosition unwon, won, ← Nat.add_assoc, ← underway.stored]
    exact stored

end

theorem underway_after (underway : contest.Underway connection turns start schedule crowd)
    (live : contest.Live crowd.world.surroundings) (turn : Turn) :
    contest.Underway connection turns start (schedule ++ [turn]) (crowd.after connection turn) := by
  cases turn with
  | around event => exact underway_around underway event
  | client position =>
      cases atPosition : crowd.clients[position]? with
      | none => exact underway_absent underway atPosition
      | some client =>
          rcases underway.engaged position client atPosition with
            ⟨result, gain, done, ends⟩ | settles
          · exact underway_done underway atPosition done ends
          · exact underway_settles underway atPosition live settles

theorem underway_run (sound : contest.sound start.world.store)
    (settles : ∀ client ∈ start.clients,
      contest.Settles connection client.contends turns client.program)
    (live : contest.Live (start.world.surroundings.afterAll schedule)) :
    contest.Underway connection turns start schedule (start.run connection schedule) := by
  induction schedule using List.reverseRecOn with
  | nil =>
      refine { surroundings := rfl, sound, contenders := rfl, engaged := ?_, stored := ?_ }
      · intro position client atPosition
        exact .inr (settles client (List.mem_of_getElem? atPosition))
      · have noneWon : start.clients.countP Client.won = 0 := by
          rw [List.countP_eq_zero]
          intro client member
          simp [Client.won, (settles client member).unfinished]
        exact (congrArg (contest.stored start.world.store + ·) noneWon).symm
  | append_singleton schedule turn ih =>
      -- The contexts last to the end of the schedule, so they are live at each turn before it.
      rw [afterAll_append] at live
      have earlier := ih live.before
      rw [Crowd.run, List.foldl_append]
      exact underway_after earlier (earlier.surroundings ▸ live.before) turn

/-- Whatever the order of their turns, at most one of the clients that contend for a key adds a
record of it, and only if there is none; all others learn that the entry is there. -/
theorem contested_run (contest : Contest S) (sound : contest.sound start.world.store)
    (settles : ∀ client ∈ start.clients,
      contest.Settles connection client.contends turns client.program)
    (live : contest.Live (start.world.surroundings.afterAll schedule)) :
    Contested turns schedule start.clients (start.run connection schedule).clients
      (contest.stored start.world.store)
      (contest.stored (start.run connection schedule).world.store) := by
  have underway := underway_run sound settles live
  have counted := underway.stored
  -- One record at most, and as many more than before as clients have won: the rest is arithmetic.
  have single := contest.single _ underway.sound
  refine { contenders := underway.contenders, finished := ?_, answers := ?_, single := by omega,
           taken := by omega, kept := by omega }
  · intro position client atPosition _ enough
    rcases underway.engaged position client atPosition with ⟨result, gain, done, _⟩ | settled
    · rw [done]
      rfl
    · rw [Nat.sub_eq_zero_of_le enough] at settled
      exact settled.elim
  · intro client member contends result found
    obtain ⟨position, atPosition⟩ := List.mem_iff_getElem?.mp member
    rcases underway.engaged position client atPosition with ⟨_, gain, done, ends⟩ | settled
    · rw [done] at found
      cases found
      cases ends with
      | created => exact .inl rfl
      | failed error reason => exact .inr (congrArg _ (reason contends))
    · rw [settled.unfinished] at found
      cases found

end Contest

end DataAccess
