namespace DataAccess

variable {ε α β : Type}

theorem ok_bind (value : α) (next : α → Except ε β) : Except.ok value >>= next = next value := rfl

theorem bind_eq_ok {first : Except ε α} {next : α → Except ε β} {result : β} :
    first >>= next = .ok result ↔ ∃ middle, first = .ok middle ∧ next middle = .ok result := by
  cases first with
  | error error => simp [bind, Except.bind]
  | ok middle => simp [bind, Except.bind]

theorem bind_eq_error {first : Except ε α} {next : α → Except ε β} {error : ε} :
    first >>= next = .error error ↔
      first = .error error ∨ ∃ middle, first = .ok middle ∧ next middle = .error error := by
  cases first with
  | error other => simp [bind, Except.bind]
  | ok middle => simp [bind, Except.bind]

theorem then_eq_ok {check : Except ε Unit} {next : Except ε β} {result : β} :
    (check >>= fun _ => next) = .ok result ↔ check = .ok () ∧ next = .ok result := by
  cases check with
  | error error => simp [bind, Except.bind]
  | ok done => simp [bind, Except.bind]

theorem pure_eq_ok {value result : α} :
    (pure value : Except ε α) = .ok result ↔ value = result := by
  simp [pure, Except.pure]

theorem map_map {γ : Type} (g : β → γ) (f : α → β) (result : Except ε α) :
    (result.map f).map g = result.map (g ∘ f) := by
  cases result <;> rfl

theorem map_eq_ok {f : α → β} {result : Except ε α} {image : β} :
    f <$> result = .ok image ↔ ∃ found, result = .ok found ∧ f found = image := by
  cases result with
  | error error => constructor <;> nofun
  | ok found =>
      constructor
      · intro mapped
        cases mapped
        exact ⟨found, rfl, rfl⟩
      · rintro ⟨_, ⟨⟩, rfl⟩
        rfl

theorem mapError_eq_ok {ε' : Type} {f : ε → ε'} {result : Except ε α} {value : α} :
    result.mapError f = .ok value ↔ result = .ok value := by
  cases result with
  | error error => constructor <;> intro impossible <;> cases impossible
  | ok found => constructor <;> intro same <;> cases same <;> rfl

/-- A list is gone through without an error when no item of it gives one. -/
theorem mapM_eq_ok {f : α → Except ε β} {items : List α} {results : List β} :
    items.mapM f = .ok results ↔ items.map f = results.map .ok := by
  induction items generalizing results with
  | nil => cases results <;> simp [pure_eq_ok]
  | cons item rest ih =>
      rw [List.mapM_cons, bind_eq_ok]
      constructor
      · rintro ⟨first, ofFirst, continued⟩
        obtain ⟨others, ofRest, result⟩ := bind_eq_ok.mp continued
        rw [← pure_eq_ok.mp result, List.map_cons, List.map_cons, ofFirst, ih.mp ofRest]
      · intro same
        cases results with
        | nil => cases same
        | cons first others =>
            obtain ⟨ofFirst, ofRest⟩ := List.cons.inj same
            exact ⟨first, ofFirst, bind_eq_ok.mpr ⟨others, ih.mpr ofRest, rfl⟩⟩

end DataAccess
