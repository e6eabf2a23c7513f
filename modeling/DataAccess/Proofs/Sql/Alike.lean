import DataAccess.Proofs.Operation
import DataAccess.Sql.Scripted

/-!
# Programs that send the same texts

Two programs are alike if they make the same calls up to parameters as long as they are given the
same answers, and end with related results. Run on connections that do not tell parameters apart,
they end alike; what a scripted connection logs is then the same but for parameters.
-/

namespace DataAccess

namespace Sql

/-- Programs that send the same texts, call by call, under any answers that are the same for both. -/
inductive Alike : {α β : Type} → (α → β → Prop) → Program interface α → Program interface β → Prop
  | done {α β : Type} {related : α → β → Prop} {left : α} {right : β}
      (results : related left right) : Alike related (.done left) (.done right)
  | query {α β : Type} {related : α → β → Prop} (context : Context) (sql : String)
      (ours theirs : List Value) {left : Except StoreError (Cursor Record) → Program interface α}
      {right : Except StoreError (Cursor Record) → Program interface β}
      (continues : ∀ answer, Alike related (left answer) (right answer)) :
      Alike related (.call context (.query sql ours) left) (.call context (.query sql theirs) right)
  | execute {α β : Type} {related : α → β → Prop} (context : Context) (sql : String)
      (ours theirs : List Value) {left : Except StoreError Nat → Program interface α}
      {right : Except StoreError Nat → Program interface β}
      (continues : ∀ answer, Alike related (left answer) (right answer)) :
      Alike related (.call context (.execute sql ours) left)
        (.call context (.execute sql theirs) right)
  | signal {α β : Type} {related : α → β → Prop} (event : Event) {left : Program interface α}
      {right : Program interface β} (continues : Alike related left right) :
      Alike related (.signal event left) (.signal event right)
  | transaction {α β γ : Type} {related : α → β → Prop} (context : Context)
      (isolation : Isolation) {ours theirs : Program interface (Outcome γ)}
      {left : Outcome (Option γ) → Program interface α}
      {right : Outcome (Option γ) → Program interface β} (bodies : Alike Eq ours theirs)
      (continues : ∀ outcome, Alike related (left outcome) (right outcome)) :
      Alike related (.transaction context isolation ours left)
        (.transaction context isolation theirs right)

variable {α β γ δ : Type}

theorem alike_bind {related : α → β → Prop} {wider : γ → δ → Prop} {left : Program interface α}
    {right : Program interface β} {f : α → Program interface γ} {g : β → Program interface δ}
    (alike : Alike related left right)
    (continues : ∀ ours theirs, related ours theirs → Alike wider (f ours) (g theirs)) :
    Alike wider (left.bind f) (right.bind g) := by
  induction alike with
  | done results => exact continues _ _ results
  | query context sql ours theirs _ ih =>
      exact .query context sql ours theirs fun answer => ih answer continues
  | execute context sql ours theirs _ ih =>
      exact .execute context sql ours theirs fun answer => ih answer continues
  | signal event _ ih => exact .signal event (ih continues)
  | transaction context isolation bodies _ _ ih =>
      exact .transaction context isolation bodies fun outcome => ih outcome continues

/-- The same failure on both sides, or related results. -/
inductive Matched (related : α → β → Prop) : Except DaoError α → Except DaoError β → Prop
  | ok {left : α} {right : β} (results : related left right) : Matched related (.ok left) (.ok right)
  | error (error : DaoError) : Matched related (.error error) (.error error)

section

variable {related : α → β → Prop} {wider : γ → δ → Prop}

theorem matched_bind {left : Except DaoError α} {right : Except DaoError β}
    {f : α → Except DaoError γ} {g : β → Except DaoError δ} (matched : Matched related left right)
    (continues : ∀ ours theirs, related ours theirs → Matched wider (f ours) (g theirs)) :
    Matched wider (left >>= f) (right >>= g) := by
  cases matched with
  | ok results => exact continues _ _ results
  | error error => exact .error error

theorem matched_refl (result : Except DaoError α) : Matched Eq result result := by
  cases result with
  | ok value => exact .ok rfl
  | error error => exact .error error

theorem eq_of_matched {left right : Except DaoError α} (matched : Matched Eq left right) :
    left = right := by
  cases matched with
  | ok same => rw [same]
  | error error => rfl

theorem matched_of_map {ε : Type} {left right : Except ε α} {project : α → β} (failed : ε → DaoError)
    (same : left.map project = right.map project) :
    Matched (fun ours theirs => project ours = project theirs) (left.mapError failed)
      (right.mapError failed) := by
  cases left with
  | error ours =>
      cases right with
      | error theirs => cases same; exact .error _
      | ok theirs => cases same
  | ok ours =>
      cases right with
      | error theirs => cases same
      | ok theirs => exact .ok (Except.ok.inj same)

/-- Operations that send the same texts and fail alike or succeed with related results. -/
def SameTexts (related : α → β → Prop) (left : Operation interface α)
    (right : Operation interface β) : Prop :=
  Alike (Matched related) left.run right.run

theorem sameTexts_ofExcept {left : Except DaoError α} {right : Except DaoError β}
    (matched : Matched related left right) :
    SameTexts related (Operation.ofExcept left) (Operation.ofExcept right) :=
  .done matched

theorem sameTexts_pure {left : α} {right : β} (results : related left right) :
    SameTexts related (pure left) (pure right) :=
  .done (.ok results)

theorem sameTexts_throw (error : DaoError) :
    SameTexts related (throw error) (throw error) :=
  .done (.error error)

theorem sameTexts_query (context : Context) (sql : String) (ours theirs : List Value) :
    SameTexts Eq (Operation.ofCall (Sql.query context sql ours))
      (Operation.ofCall (Sql.query context sql theirs)) :=
  .query context sql ours theirs fun _ => .done (matched_refl _)

theorem sameTexts_execute (context : Context) (sql : String) (ours theirs : List Value) :
    SameTexts Eq (Operation.ofCall (Sql.execute context sql ours))
      (Operation.ofCall (Sql.execute context sql theirs)) :=
  .execute context sql ours theirs fun _ => .done (matched_refl _)

theorem sameTexts_bind {left : Operation interface α} {right : Operation interface β}
    {f : α → Operation interface γ} {g : β → Operation interface δ}
    (alike : SameTexts related left right)
    (continues : ∀ ours theirs, related ours theirs → SameTexts wider (f ours) (g theirs)) :
    SameTexts wider (left >>= f) (right >>= g) := by
  refine alike_bind alike fun ours theirs matched => ?_
  cases matched with
  | ok results => exact continues _ _ results
  | error error => exact .done (.error error)

theorem sameTexts_inTransaction {left right : Operation interface α} (context : Context)
    (isolation : Isolation) (alike : SameTexts Eq left right) :
    SameTexts Eq (Operation.inTransaction context isolation left)
      (Operation.inTransaction context isolation right) := by
  refine .transaction context isolation (alike_bind alike fun ours theirs matched => .done ?_)
    fun outcome => .done (matched_refl _)
  rw [eq_of_matched matched]

end

section

variable {S T : Type}

/-- Connections that answer alike, whatever the parameters, as long as their worlds are related. -/
structure Mirrors (first : Connection interface S) (second : Connection interface T)
    (same : World S → World T → Prop) : Prop where
  query : ∀ context sql ours theirs {world other}, same world other →
    (first.perform context (.query sql ours) world).1 =
        (second.perform context (.query sql theirs) other).1 ∧
      same (first.perform context (.query sql ours) world).2
        (second.perform context (.query sql theirs) other).2
  execute : ∀ context sql ours theirs {world other}, same world other →
    (first.perform context (.execute sql ours) world).1 =
        (second.perform context (.execute sql theirs) other).1 ∧
      same (first.perform context (.execute sql ours) world).2
        (second.perform context (.execute sql theirs) other).2
  signal : ∀ event {world other}, same world other →
    same { world with surroundings := world.surroundings.after event }
      { other with surroundings := other.surroundings.after event }
  transact : ∀ {γ : Type} context isolation {ours : World S → Outcome γ × World S}
    {theirs : World T → Outcome γ × World T} {world other},
    (∀ {world other}, same world other →
      (ours world).1 = (theirs other).1 ∧ same (ours world).2 (theirs other).2) →
    same world other →
      (first.transact context isolation ours world).1 =
          (second.transact context isolation theirs other).1 ∧
        same (first.transact context isolation ours world).2
          (second.transact context isolation theirs other).2

variable {first : Connection interface S} {second : Connection interface T}
variable {same : World S → World T → Prop} {world : World S} {other : World T}
variable {related : α → β → Prop} {left : Program interface α} {right : Program interface β}

theorem runJoined_alike (mirrors : Mirrors first second same) (alike : Alike related left right)
    (before : same world other) :
    related (left.runJoined first world).1 (right.runJoined second other).1 ∧
      same (left.runJoined first world).2 (right.runJoined second other).2 := by
  -- The answers are equal and the worlds stay related, so the same branch of both trees goes on.
  induction alike generalizing world other with
  | done results => exact ⟨results, before⟩
  | query context sql ours theirs _ ih =>
      obtain ⟨answered, after⟩ := mirrors.query context sql ours theirs before
      simp only [Program.runJoined, answered]
      exact ih _ after
  | execute context sql ours theirs _ ih =>
      obtain ⟨answered, after⟩ := mirrors.execute context sql ours theirs before
      simp only [Program.runJoined, answered]
      exact ih _ after
  | signal event _ ih => exact ih (mirrors.signal event before)
  | transaction context isolation _ _ ofBody ofNext =>
      obtain ⟨ended, after⟩ := ofBody before
      simp only [Program.runJoined, ended]
      exact ofNext _ after

theorem run_alike (mirrors : Mirrors first second same) (alike : Alike related left right)
    (before : same world other) :
    related (left.run first world).1 (right.run second other).1 ∧
      same (left.run first world).2 (right.run second other).2 := by
  induction alike generalizing world other with
  | done results => exact ⟨results, before⟩
  | query context sql ours theirs _ ih =>
      obtain ⟨answered, after⟩ := mirrors.query context sql ours theirs before
      simp only [Program.run, answered]
      exact ih _ after
  | execute context sql ours theirs _ ih =>
      obtain ⟨answered, after⟩ := mirrors.execute context sql ours theirs before
      simp only [Program.run, answered]
      exact ih _ after
  | signal event _ ih => exact ih (mirrors.signal event before)
  | transaction context isolation bodies _ _ ofNext =>
      obtain ⟨ended, after⟩ := mirrors.transact context isolation
        (fun inside => runJoined_alike mirrors bodies inside) before
      simp only [Program.run, ended]
      exact ofNext _ after

end

/-- An entry of a log without its parameters. -/
def LogEntry.erased : LogEntry → LogEntry
  | .query sql _ => .query sql []
  | .execute sql _ => .execute sql []
  | entry => entry

namespace Script

/-- A script whose log is without parameters. -/
def erased (script : Script) : Script := { script with log := script.log.map LogEntry.erased }

/-- A world whose script logs no parameters. -/
def worldErased (world : World Script) : World Script := { world with store := world.store.erased }

theorem erased_note (script : Script) (entry : LogEntry) :
    (script.note entry).erased = script.erased.note entry.erased := by
  simp [note, erased]

theorem takeRows_erased (script : Script) :
    script.erased.takeRows = (script.takeRows.1, script.takeRows.2.erased) := by
  rcases script with ⟨_ | ⟨_, _⟩, _, _, _⟩ <;> rfl

theorem takeCount_erased (script : Script) :
    script.erased.takeCount = (script.takeCount.1, script.takeCount.2.erased) := by
  rcases script with ⟨_, _ | ⟨_, _⟩, _, _⟩ <;> rfl

theorem takeTransaction_erased (script : Script) :
    script.erased.takeTransaction = (script.takeTransaction.1, script.takeTransaction.2.erased) := by
  rcases script with ⟨_, _, _ | ⟨_, _⟩, _⟩ <;> rfl

theorem worldErased_noteIn (world : World Script) (entry : LogEntry) :
    worldErased (noteIn world entry) = noteIn (worldErased world) entry.erased := by
  simp only [worldErased, noteIn, erased_note]

/-- A call as the script answers it: logged first, and answered if the context allows it. -/
def replied {γ : Type} (context : Context) (take : Script → Except StoreError γ × Script)
    (entry : LogEntry) (world : World Script) : Except StoreError γ × World Script :=
  match context.check world.surroundings with
  | .error error => (.error error, noteIn world entry)
  | .ok () =>
      ((take (world.store.note entry)).1,
        { world with store := (take (world.store.note entry)).2 })

theorem replied_erased {γ : Type} (context : Context)
    {take : Script → Except StoreError γ × Script}
    (natural : ∀ script, take script.erased = ((take script).1, (take script).2.erased))
    (entry : LogEntry) (world : World Script) :
    replied context take entry.erased (worldErased world) =
      ((replied context take entry world).1, worldErased (replied context take entry world).2) := by
  have noted := erased_note world.store entry
  simp only [replied, worldErased]
  cases context.check world.surroundings with
  | error error => exact congrArg (fun store => (_, { world with store })) noted.symm
  | ok _ => simp only [← noted, natural]

theorem replied_alike {γ : Type} (context : Context)
    {take : Script → Except StoreError γ × Script}
    (natural : ∀ script, take script.erased = ((take script).1, (take script).2.erased))
    (ours theirs : LogEntry) {world other : World Script} (entries : ours.erased = theirs.erased)
    (before : worldErased world = worldErased other) :
    (replied context take ours world).1 = (replied context take theirs other).1 ∧
      worldErased (replied context take ours world).2 =
        worldErased (replied context take theirs other).2 := by
  have left := replied_erased context natural ours world
  rw [entries, before, replied_erased context natural] at left
  exact ⟨(congrArg Prod.fst left).symm, (congrArg Prod.snd left).symm⟩

theorem transact_alike {γ : Type} (context : Context) (isolation : Isolation)
    {ours theirs : World Script → Outcome γ × World Script} {world other : World Script}
    (bodies : ∀ {world other}, worldErased world = worldErased other →
      (ours world).1 = (theirs other).1 ∧ worldErased (ours world).2 = worldErased (theirs other).2)
    (before : worldErased world = worldErased other) :
    (transact context isolation ours world).1 = (transact context isolation theirs other).1 ∧
      worldErased (transact context isolation ours world).2 =
        worldErased (transact context isolation theirs other).2 := by
  have surroundings := congrArg World.surroundings before
  have stores := congrArg World.store before
  simp only [worldErased] at surroundings stores
  have planned : ((world.store.note (.begin isolation)).takeTransaction.1,
        (world.store.note (.begin isolation)).takeTransaction.2.erased) =
      ((other.store.note (.begin isolation)).takeTransaction.1,
        (other.store.note (.begin isolation)).takeTransaction.2.erased) := by
    rw [← takeTransaction_erased, ← takeTransaction_erased, erased_note, erased_note, stores]
  simp only [transact, surroundings]
  generalize (world.store.note (.begin isolation)).takeTransaction = ourPlan at planned
  generalize (other.store.note (.begin isolation)).takeTransaction = theirPlan at planned
  obtain ⟨plan, ourStore⟩ := ourPlan
  obtain ⟨_, theirStore⟩ := theirPlan
  obtain ⟨rfl, sameStore⟩ := Prod.mk.inj planned
  have begun : worldErased { store := ourStore, surroundings := other.surroundings } =
      worldErased { store := theirStore, surroundings := other.surroundings } := by
    simp only [worldErased, sameStore]
  dsimp only
  cases context.check other.surroundings with
  | error error => exact ⟨rfl, begun⟩
  | ok _ =>
      cases plan.beginFailure with
      | some error => exact ⟨rfl, begun⟩
      | none =>
          dsimp only
          split
          · exact ⟨rfl, begun⟩
          · obtain ⟨ended, after⟩ := bodies begun
            generalize ours { store := ourStore, surroundings := other.surroundings } = ourEnd
              at ended after
            generalize theirs { store := theirStore, surroundings := other.surroundings } = theirEnd
              at ended after
            obtain ⟨⟨result, value⟩, ourWorld⟩ := ourEnd
            obtain ⟨_, theirWorld⟩ := theirEnd
            subst ended
            cases result with
            | error error =>
                refine ⟨rfl, ?_⟩
                simp only [worldErased_noteIn]
                exact congrArg (noteIn · _) after
            | ok _ =>
                cases plan.commitFailure with
                | some error => exact ⟨rfl, after⟩
                | none =>
                    refine ⟨rfl, ?_⟩
                    simp only [worldErased_noteIn]
                    exact congrArg (noteIn · _) after

/-- Worlds whose scripts differ in logged parameters only stay so. -/
theorem mirrors : Mirrors scripted scripted fun world other => worldErased world = worldErased other where
  query context sql ours theirs _ _ before :=
    replied_alike context takeRows_erased (.query sql ours) (.query sql theirs) rfl before
  execute context sql ours theirs _ _ before :=
    replied_alike context takeCount_erased (.execute sql ours) (.execute sql theirs) rfl before
  signal event _ _ before :=
    congrArg (fun world : World Script =>
      { world with surroundings := world.surroundings.after event }) before
  transact context isolation _ _ _ _ bodies before := transact_alike context isolation bodies before

end Script

/-- Whatever the script, operations that send the same texts end alike and log the same but for
parameters. -/
theorem scripted_alike {left right : Operation interface α} (alike : SameTexts Eq left right)
    (world : World Script) :
    (left.on scripted world).1 = (right.on scripted world).1 ∧
      (left.on scripted world).2.store.log.map LogEntry.erased =
        (right.on scripted world).2.store.log.map LogEntry.erased := by
  have same : Script.worldErased world = Script.worldErased world := rfl
  obtain ⟨matched, after⟩ := run_alike Script.mirrors alike same
  exact ⟨eq_of_matched matched, congrArg (fun world : World Script => world.store.log) after⟩

end Sql

end DataAccess
