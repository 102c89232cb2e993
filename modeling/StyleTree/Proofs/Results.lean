/-! # Results

When a result that was put together from others is a success, and when it is an error. -/

namespace StyleTree.Result

variable {ε α β : Type}

/-- A changed result is a success if the result was one. -/
theorem map_eq_ok {x : Except ε α} {f : α → β} {b : β} :
    x.map f = .ok b ↔ ∃ a, x = .ok a ∧ f a = b := by
  cases x <;> simp [Except.map]

/-- A changed result is an error if the result was that error. -/
theorem map_eq_error {x : Except ε α} {f : α → β} {e : ε} :
    x.map f = .error e ↔ x = .error e := by
  cases x <;> simp [Except.map]

/-- A chain of two steps is a success if both steps are. -/
theorem bind_eq_ok {x : Except ε α} {f : α → Except ε β} {b : β} :
    x.bind f = .ok b ↔ ∃ a, x = .ok a ∧ f a = .ok b := by
  cases x <;> simp [Except.bind]

/-- The error of a result, if it is one. -/
def failure? : Except ε α → Option ε
  | .ok _ => none
  | .error e => some e

@[simp] theorem failure?_ok (a : α) : failure? (.ok a : Except ε α) = none := rfl

@[simp] theorem failure?_error (e : ε) : failure? (.error e : Except ε α) = some e := rfl

/-- A result without an error is a success. -/
theorem failure?_eq_none_iff {x : Except ε α} : failure? x = none ↔ ∃ a, x = .ok a := by
  cases x <;> simp

/-- What fails does so with its error. -/
theorem failure?_eq_some_iff {x : Except ε α} {e : ε} : failure? x = some e ↔ x = .error e := by
  cases x <;> simp

/-- Changing what is returned changes no error. -/
@[simp] theorem failure?_map (f : α → β) (x : Except ε α) : failure? (x.map f) = failure? x := by
  cases x <;> rfl

/-- Two steps whose results are combined fail where the first one fails, or else the second. -/
theorem failure?_bind_map {γ : Type} (f : α → β → γ) (x : Except ε α) (y : Except ε β) :
    failure? (x.bind fun a => y.map (f a)) = (failure? x).or (failure? y) := by
  cases x <;> cases y <;> rfl

/-- What a list is mapped to, step by step, comes from its members. -/
theorem exists_of_mem_mapM {f : α → Except ε β} {l : List α} {l' : List β}
    (h : l.mapM f = .ok l') : ∀ b ∈ l', ∃ a ∈ l, f a = .ok b := by
  induction l generalizing l' with
  | nil =>
    cases h
    simp
  | cons a l ih =>
    rw [List.mapM_cons] at h
    obtain ⟨b, hb, h⟩ := bind_eq_ok.1 h
    obtain ⟨later, hlater, h⟩ := bind_eq_ok.1 h
    cases h
    intro b' hb'
    rcases List.mem_cons.1 hb' with rfl | hb'
    · exact ⟨a, List.mem_cons_self, hb⟩
    · obtain ⟨a', ha', hfa'⟩ := ih hlater b' hb'
      exact ⟨a', List.mem_cons_of_mem a ha', hfa'⟩

/-- A list can be mapped, step by step, if each of its members can be. -/
theorem exists_mapM_ok {f : α → Except ε β} {l : List α} (h : ∀ a ∈ l, ∃ b, f a = .ok b) :
    ∃ l', l.mapM f = .ok l' := by
  induction l with
  | nil => exact ⟨[], rfl⟩
  | cons a l ih =>
    obtain ⟨⟨b, hb⟩, others⟩ := List.forall_mem_cons.1 h
    obtain ⟨l', hl'⟩ := ih others
    refine ⟨b :: l', ?_⟩
    rw [List.mapM_cons, hb, hl']
    rfl

/-- A list whose first member fails fails with its error. -/
theorem mapM_cons_of_error {f : α → Except ε β} {a : α} {e : ε} (h : f a = .error e)
    (l : List α) : (a :: l).mapM f = .error e := by
  rw [List.mapM_cons, h]
  rfl

/-- A list whose members can all be mapped is mapped to their images. -/
theorem mapM_of_forall_ok {f : α → Except ε β} {g : α → β} {l : List α}
    (h : ∀ a ∈ l, f a = .ok (g a)) : l.mapM f = .ok (l.map g) := by
  induction l with
  | nil => rfl
  | cons a l ih =>
    obtain ⟨first, others⟩ := List.forall_mem_cons.1 h
    rw [List.mapM_cons, first, ih others]
    rfl

/-- Changing each result on the way changes the list of results. -/
theorem mapM_eq_map {γ : Type} {f : α → Except ε γ} {g : α → Except ε β} {h : β → γ}
    (l : List α) (same : ∀ a, f a = (g a).map h) : l.mapM f = (l.mapM g).map (List.map h) := by
  induction l with
  | nil => rfl
  | cons a l ih =>
    rw [List.mapM_cons, List.mapM_cons, same, ih]
    cases g a with
    | error e => rfl
    | ok b => cases l.mapM g <;> rfl

end StyleTree.Result
