import DataAccess.Dao.Operation

namespace DataAccess

variable {I : Interface} {α β : Type} {allowed more : I.Call → Prop}

namespace Program

variable {ends middle : α → Prop} {program : Program I α}

/-- Whatever is answered, a program makes allowed calls only, in transactions and outside of them,
and ends with results of a kind. -/
def Sends (allowed : I.Call → Prop) : {α : Type} → (α → Prop) → Program I α → Prop
  | _, ends, .done result => ends result
  | _, ends, .call _ request next =>
      allowed request ∧ ∀ answer, Sends allowed ends (next answer)
  | _, ends, .signal _ next => Sends allowed ends next
  | _, ends, .transaction _ _ body next =>
      Sends allowed (fun _ => True) body ∧ ∀ outcome, Sends allowed ends (next outcome)

theorem sends_bind {ends : β → Prop} {f : α → Program I β} (sends : program.Sends allowed middle)
    (continues : ∀ result, middle result → (f result).Sends allowed ends) :
    (program.bind f).Sends allowed ends := by
  induction program with
  | done result => exact continues result sends
  | call context request next ih =>
      exact ⟨sends.1, fun answer => ih answer (sends.2 answer) continues⟩
  | signal event next ih => exact ih sends continues
  | transaction context isolation body next _ ofNext =>
      exact ⟨sends.1, fun outcome => ofNext outcome (sends.2 outcome) continues⟩

theorem sends_mono {wider : α → Prop} (sends : program.Sends allowed ends)
    (calls : ∀ request, allowed request → more request) (results : ∀ result, ends result → wider result) :
    program.Sends more wider := by
  induction program with
  | done result => exact results result sends
  | call context request next ih =>
      exact ⟨calls request sends.1, fun answer => ih answer (sends.2 answer) results⟩
  | signal event next ih => exact ih sends results
  | transaction context isolation body next ofBody ofNext =>
      exact ⟨ofBody sends.1 fun _ ended => ended,
        fun outcome => ofNext outcome (sends.2 outcome) results⟩

/-- A program that begins with a call, in a transaction or outside of one. -/
def Calls : {α : Type} → Program I α → Prop
  | _, .done _ => False
  | _, .call _ _ _ => True
  | _, .signal _ next => Calls next
  | _, .transaction _ _ body _ => Calls body

theorem calls_bind (calls : program.Calls) (f : α → Program I β) : (program.bind f).Calls := by
  induction program with
  | done result => exact False.elim calls
  | call context request next _ => trivial
  | signal event next ih => exact ih calls f
  | transaction context isolation body next _ _ => exact calls

end Program

namespace Operation

variable {ends middle : α → Prop} {operation : Operation I α} {context : Context}

/-- Whatever is answered, an operation makes allowed calls only, and succeeds with results of a
kind. -/
def Sends (allowed : I.Call → Prop) (ends : α → Prop) (operation : Operation I α) : Prop :=
  operation.run.Sends allowed fun result => ∀ value, result = .ok value → ends value

/-- Whatever is answered, an operation makes allowed calls only. -/
abbrev SendsOnly (allowed : I.Call → Prop) (operation : Operation I α) : Prop :=
  operation.Sends allowed fun _ => True

theorem sends_mono {wider : α → Prop} (sends : operation.Sends allowed ends)
    (calls : ∀ request, allowed request → more request)
    (results : ∀ result, ends result → wider result) : operation.Sends more wider :=
  Program.sends_mono sends calls fun _ ended value same => results value (ended value same)

theorem sendsOnly_mono (sends : operation.SendsOnly allowed)
    (calls : ∀ request, allowed request → more request) : operation.SendsOnly more :=
  sends_mono sends calls fun _ _ => trivial

theorem sends_ofExcept {result : Except DaoError α} (ended : ∀ value, result = .ok value → ends value) :
    (ofExcept result : Operation I α).Sends allowed ends := ended

theorem sends_pure {value : α} (ended : ends value) :
    (pure value : Operation I α).Sends allowed ends := by
  rintro _ ⟨⟩
  exact ended

theorem sends_throw (error : DaoError) :
    (throw error : Operation I α).Sends allowed ends := by
  rintro _ ⟨⟩

theorem sends_call {request : I.Call} (call : allowed request) :
    (ofCall (.call context request .done)).SendsOnly allowed :=
  ⟨call, fun _ _ _ => trivial⟩

theorem sends_bind {ends : β → Prop} {next : α → Operation I β}
    (sends : operation.Sends allowed middle)
    (continues : ∀ value, middle value → (next value).Sends allowed ends) :
    (operation >>= next).Sends allowed ends := by
  refine Program.sends_bind sends fun result ended => ?_
  cases result with
  | error error => exact sends_throw error
  | ok value => exact continues value (ended value rfl)

/-- What is computed without a call is known to what follows. -/
theorem sends_ofExcept_bind {ends : β → Prop} {result : Except DaoError α}
    {next : α → Operation I β}
    (continues : ∀ value, result = .ok value → (next value).Sends allowed ends) :
    (ofExcept result >>= next).Sends allowed ends :=
  sends_bind (sends_ofExcept fun _ same => same) continues

/-- An operation that begins with a call. -/
def Calls (operation : Operation I α) : Prop := operation.run.Calls

theorem calls_call {request : I.Call} :
    (ofCall (.call context request .done) : Operation I (I.Answer request)).Calls := trivial

theorem calls_bind (calls : operation.Calls) (next : α → Operation I β) :
    (operation >>= next).Calls :=
  Program.calls_bind calls _

theorem calls_pure_bind {value : α} {next : α → Operation I β} (calls : (next value).Calls) :
    (pure value >>= next).Calls := calls

theorem calls_ofExcept_bind {result : Except DaoError α} {value : α} {next : α → Operation I β}
    (computed : result = .ok value) (calls : (next value).Calls) :
    (ofExcept result >>= next).Calls := by
  rw [computed]
  exact calls

theorem calls_inTransaction {isolation : Isolation} (calls : operation.Calls) :
    (inTransaction context isolation operation).Calls :=
  Program.calls_bind calls _

theorem sends_inTransaction {isolation : Isolation} (sends : operation.SendsOnly allowed) :
    (inTransaction context isolation operation).SendsOnly allowed :=
  ⟨Program.sends_bind sends fun _ _ => trivial, fun _ _ _ => trivial⟩

end Operation

end DataAccess
