import Mathlib.Data.List.Perm.Basic
/-!
Outcomes of computations that may fail.

`Ends P Q` says of a computation what its value satisfies if it has one and what its error
satisfies if it has none, so that one statement covers both.  `Together R` says the same of two
computations side by side: they fail alike or have related values.  `Ends.bind` and
`Together.bind` chain two of these.
-/
namespace TenderPricing

variable {ε ε' β γ : Type}

/-- The computation ends in a value with `P` or in an error with `Q`. -/
def Ends (P : β → Prop) (Q : ε → Prop) : Except ε β → Prop
  | .ok value => P value
  | .error e => Q e

namespace Ends

variable {P : β → Prop} {P' : γ → Prop} {Q : ε → Prop}

theorem bind {first : Except ε β} {next : β → Except ε γ} (h : Ends P Q first)
    (hnext : ∀ value, P value → Ends P' Q (next value)) : Ends P' Q (first >>= next) := by
  cases first with
  | ok value => exact hnext value h
  | error e => exact h

theorem ok {x : Except ε β} (h : Ends P Q x) {value : β} (hx : x = .ok value) : P value := by
  subst hx
  exact h

theorem error {x : Except ε β} (h : Ends P Q x) {e : ε} (hx : x = .error e) : Q e := by
  subst hx
  exact h

theorem mono {R : β → Prop} {S : ε → Prop} {x : Except ε β} (h : Ends P Q x)
    (hvalue : ∀ value, P value → R value) (herror : ∀ e, Q e → S e) : Ends R S x := by
  cases x with
  | ok value => exact hvalue value h
  | error e => exact herror e h

theorem map {f : β → γ} {x : Except ε β} (h : Ends (fun value => P' (f value)) Q x) :
    Ends P' Q (x.map f) := by
  cases x with
  | ok value => exact h
  | error e => exact h

end Ends

/-- The computations end in values related by `R` or in the same error. -/
def Together (R : β → γ → Prop) : Except ε β → Except ε γ → Prop
  | .ok x, .ok y => R x y
  | .error e, .error e' => e = e'
  | _, _ => False

namespace Together

variable {β' γ' : Type} {R : β → γ → Prop} {R' : β' → γ' → Prop}

theorem bind {first : Except ε β} {first' : Except ε γ} {next : β → Except ε β'}
    {next' : γ → Except ε γ'} (h : Together R first first')
    (hnext : ∀ x y, R x y → Together R' (next x) (next' y)) :
    Together R' (first >>= next) (first' >>= next') := by
  cases first with
  | ok x =>
    cases first' with
    | ok y => exact hnext x y h
    | error e' => exact h.elim
  | error e =>
    cases first' with
    | ok y => exact h.elim
    | error e' => exact h

theorem mono {S : β → γ → Prop} {x : Except ε β} {y : Except ε γ} (h : Together R x y)
    (hmono : ∀ value value', R value value' → S value value') : Together S x y := by
  cases x with
  | ok value =>
    cases y with
    | ok value' => exact hmono value value' h
    | error e' => exact h
  | error e =>
    cases y with
    | ok value' => exact h
    | error e' => exact h

theorem ok {x : Except ε β} {y : Except ε γ} (h : Together R x y) {value : β}
    (hx : x = .ok value) : ∃ value', y = .ok value' ∧ R value value' := by
  subst hx
  cases y with
  | ok value' => exact ⟨value', rfl, h⟩
  | error e => exact h.elim

theorem of_ok {x : Except ε β} {y : Except ε γ} (h : Together R x y) {value' : γ}
    (hy : y = .ok value') : ∃ value, x = .ok value ∧ R value value' := by
  subst hy
  cases x with
  | ok value => exact ⟨value, rfl, h⟩
  | error e => exact h.elim

theorem error_iff {x : Except ε β} {y : Except ε γ} (h : Together R x y) (e : ε) :
    y = .error e ↔ x = .error e := by
  cases x with
  | ok value =>
    cases y with
    | ok value' => simp
    | error e' => exact h.elim
  | error e' =>
    cases y with
    | ok value' => exact h.elim
    | error e'' => rw [Except.error.injEq, Except.error.injEq, show e' = e'' from h]

end Together

theorem bind_eq_ok_iff {first : Except ε β} {next : β → Except ε γ} {result : γ} :
    first >>= next = .ok result ↔ ∃ value, first = .ok value ∧ next value = .ok result := by
  cases first with
  | ok value => simp [Bind.bind, Except.bind]
  | error e => simp [Bind.bind, Except.bind]

theorem bind_eq_error_iff {first : Except ε β} {next : β → Except ε γ} {e : ε} :
    first >>= next = .error e ↔
      first = .error e ∨ ∃ value, first = .ok value ∧ next value = .error e := by
  cases first with
  | ok value => simp [Bind.bind, Except.bind]
  | error e' => simp [Bind.bind, Except.bind]

theorem eq_ok_of_toOption {x : Except ε β} {value : β} (h : x.toOption = some value) :
    x = .ok value := by
  cases x with
  | ok found => rw [Option.some.inj h]
  | error e => cases h

theorem ok_bind (value : β) (next : β → Except ε γ) :
    ((.ok value : Except ε β) >>= next) = next value := rfl

theorem pure_eq_ok_iff {value result : β} :
    (pure value : Except ε β) = .ok result ↔ value = result := by
  show (.ok value : Except ε β) = .ok result ↔ value = result
  rw [Except.ok.injEq]

theorem map_eq_error_iff {x : Except ε β} {f : β → γ} {e : ε} :
    x.map f = .error e ↔ x = .error e := by
  cases x with
  | ok value => simp [Except.map]
  | error e' => simp [Except.map]

theorem mapError_eq_ok_iff {x : Except ε β} {f : ε → ε'} {value : β} :
    x.mapError f = .ok value ↔ x = .ok value := by
  cases x with
  | ok found => simp [Except.mapError]
  | error e => simp [Except.mapError]

/-- A traversal succeeds where each of its steps does, and returns their values in order. -/
theorem mapM_eq_ok_iff {f : β → Except ε γ} {inputs : List β} :
    ∀ {outputs : List γ},
      inputs.mapM f = .ok outputs ↔ List.Forall₂ (fun x y => f x = .ok y) inputs outputs := by
  induction inputs with
  | nil =>
    intro outputs
    rw [List.mapM_nil, pure_eq_ok_iff, List.forall₂_nil_left_iff, eq_comm]
  | cons x rest ih =>
    intro outputs
    rw [List.mapM_cons, bind_eq_ok_iff, List.forall₂_cons_left_iff]
    simp only [bind_eq_ok_iff, pure_eq_ok_iff, ih]
    constructor
    · rintro ⟨first, hfirst, later, hlater, rfl⟩
      exact ⟨first, later, hfirst, hlater, rfl⟩
    · rintro ⟨first, later, hfirst, hlater, rfl⟩
      exact ⟨first, hfirst, later, hlater, rfl⟩

theorem mapError_eq_error_iff {x : Except ε β} {f : ε → ε'} {e' : ε'} :
    x.mapError f = .error e' ↔ ∃ e, x = .error e ∧ f e = e' := by
  cases x with
  | ok found => simp [Except.mapError]
  | error e => simp [Except.mapError]

/-- A traversal fails at the first of its steps that fails. -/
theorem mapM_eq_error_iff {f : β → Except ε γ} {inputs : List β} {e : ε} :
    inputs.mapM f = .error e ↔ ∃ (i : Nat) (x : β), inputs[i]? = some x ∧
      (∀ (j : Nat) (y : β), j < i → inputs[j]? = some y → ∃ value, f y = .ok value) ∧
        f x = .error e := by
  induction inputs with
  | nil => simp [pure, Except.pure]
  | cons x rest ih =>
    rw [List.mapM_cons, bind_eq_error_iff]
    constructor
    · rintro (hfirst | ⟨value, hfirst, hlater⟩)
      · exact ⟨0, x, rfl, fun j y hj => absurd hj (Nat.not_lt_zero j), hfirst⟩
      · rcases bind_eq_error_iff.mp hlater with hrest | ⟨values, -, hpure⟩
        · obtain ⟨i, y, hget, hbefore, hy⟩ := ih.mp hrest
          refine ⟨i + 1, y, hget, fun j z hj hz => ?_, hy⟩
          cases j with
          | zero => exact ⟨value, Option.some.inj hz ▸ hfirst⟩
          | succ j => exact hbefore j z (Nat.lt_of_succ_lt_succ hj) hz
        · cases hpure
    · rintro ⟨i, y, hget, hbefore, hy⟩
      cases i with
      | zero => exact .inl (Option.some.inj hget ▸ hy)
      | succ i =>
        obtain ⟨value, hvalue⟩ := hbefore 0 x (Nat.succ_pos i) rfl
        have hrest := ih.mpr
          ⟨i, y, hget, fun j z hj hz => hbefore (j + 1) z (Nat.succ_lt_succ hj) hz, hy⟩
        exact .inr ⟨value, hvalue, bind_eq_error_iff.mpr (.inl hrest)⟩

/-- A traversal whose steps each succeed exactly on inputs with `P` succeeds if all have it. -/
theorem mapM_ends {f : β → Except ε γ} {P : β → Prop}
    (h : ∀ x, Ends (fun _ => P x) (fun _ => ¬ P x) (f x)) (inputs : List β) :
    Ends (fun _ => ∀ x ∈ inputs, P x) (fun _ => ¬ ∀ x ∈ inputs, P x) (inputs.mapM f) := by
  induction inputs with
  | nil => exact List.forall_mem_nil P
  | cons x rest ih =>
    rw [List.mapM_cons]
    refine Ends.bind ((h x).mono (fun _ => id) fun _ hx hall => hx (List.forall_mem_cons.mp hall).1)
      fun _ hx => ?_
    refine Ends.bind (ih.mono (fun _ => id) fun _ hrest hall =>
      hrest (List.forall_mem_cons.mp hall).2) fun _ hrest => ?_
    exact List.forall_mem_cons.mpr ⟨hx, hrest⟩

theorem exists_mem_of_forall₂ {R : β → γ → Prop} {inputs : List β} {outputs : List γ}
    (h : List.Forall₂ R inputs outputs) : ∀ y ∈ outputs, ∃ x ∈ inputs, R x y := by
  induction h with
  | nil => simp
  | cons hfirst _ ih =>
    rw [List.forall_mem_cons]
    refine ⟨⟨_, List.mem_cons_self, hfirst⟩, fun y hy => ?_⟩
    obtain ⟨x, hx, hxy⟩ := ih y hy
    exact ⟨x, List.mem_cons_of_mem _ hx, hxy⟩

theorem exists_forall₂ {R : β → γ → Prop} {inputs : List β} (h : ∀ x ∈ inputs, ∃ y, R x y) :
    ∃ outputs, List.Forall₂ R inputs outputs := by
  induction inputs with
  | nil => exact ⟨[], .nil⟩
  | cons x rest ih =>
    rw [List.forall_mem_cons] at h
    obtain ⟨first, hfirst⟩ := h.1
    obtain ⟨later, hlater⟩ := ih h.2
    exact ⟨first :: later, .cons hfirst hlater⟩

/-- A traversal in another order gives the same values in that order. -/
theorem mapM_perm {f : β → Except ε γ} {inputs inputs' : List β} {outputs : List γ}
    (same : inputs.Perm inputs') (h : inputs.mapM f = .ok outputs) :
    ∃ outputs', inputs'.mapM f = .ok outputs' ∧ outputs'.Perm outputs := by
  obtain ⟨outputs', houtputs, hperm⟩ :=
    List.perm_comp_forall₂ same.symm (mapM_eq_ok_iff.mp h)
  exact ⟨outputs', mapM_eq_ok_iff.mpr houtputs, hperm⟩

/-- What holds at the start of a fold and is kept by each step that succeeds holds at its end. -/
theorem foldlM_ok_induction {f : γ → β → Except ε γ} {P : γ → Prop} {inputs : List β}
    (step : ∀ x ∈ inputs, ∀ state next, P state → f state x = .ok next → P next) :
    ∀ {state result : γ}, P state → inputs.foldlM f state = .ok result → P result := by
  induction inputs with
  | nil =>
    intro state result hstate h
    rw [List.foldlM_nil, pure_eq_ok_iff] at h
    rwa [← h]
  | cons x rest ih =>
    intro state result hstate h
    rw [List.forall_mem_cons] at step
    rw [List.foldlM_cons, bind_eq_ok_iff] at h
    obtain ⟨next, hnext, h⟩ := h
    exact ih step.2 (step.1 state next hstate hnext) h

end TenderPricing
