import Mathlib.Data.List.Forall2

/-!
Rows of steps that may fail.

A row passes exactly when each of its steps passes, and what is true of the
failures of its steps is true of its failures (`FailsOnly`).
-/

namespace MachinePool

variable {ε α β : Type} {e : ε}

/-! ### Two steps -/

/-- Two steps pass exactly when the first passes and the second does with its result. -/
theorem bind_eq_ok_iff {x : Except ε α} {f : α → Except ε β} {b : β} :
    x >>= f = .ok b ↔ ∃ a, x = .ok a ∧ f a = .ok b := by
  cases x with
  | error e => simp [bind, Except.bind]
  | ok a => simp [bind, Except.bind]

theorem bind_eq_error_iff {x : Except ε α} {f : α → Except ε β} :
    x >>= f = .error e ↔ x = .error e ∨ ∃ a, x = .ok a ∧ f a = .error e := by
  cases x with
  | error e => simp [bind, Except.bind]
  | ok a => simp [bind, Except.bind]

theorem map_eq_ok_iff {x : Except ε α} {f : α → β} {b : β} :
    x.map f = .ok b ↔ ∃ a, x = .ok a ∧ f a = b := by
  cases x <;> simp [Except.map]

theorem mapError_eq_ok_iff {ε' : Type} {x : Except ε α} {f : ε → ε'} {a : α} :
    x.mapError f = .ok a ↔ x = .ok a := by
  cases x <;> simp [Except.mapError]

theorem mapError_eq_error_iff {ε' : Type} {x : Except ε α} {f : ε → ε'} {e' : ε'} :
    x.mapError f = .error e' ↔ ∃ e, x = .error e ∧ f e = e' := by
  cases x <;> simp [Except.mapError]

/-! ### Rows -/

/-- A row of steps passes exactly when each of them passes, with their results in order. -/
theorem mapM_eq_ok_iff {f : α → Except ε β} {xs : List α} {ys : List β} :
    xs.mapM f = .ok ys ↔ List.Forall₂ (fun x y => f x = .ok y) xs ys := by
  induction xs generalizing ys with
  | nil =>
      cases ys <;> simp [pure, Except.pure]
  | cons x xs ih =>
      simp only [List.mapM_cons, bind_eq_ok_iff, pure, Except.pure, Except.ok.injEq]
      constructor
      · rintro ⟨y, first, rest, others, rfl⟩
        exact .cons first (ih.mp others)
      · intro all
        cases all with
        | cons first others => exact ⟨_, first, _, ih.mpr others, rfl⟩

theorem exists_mapM_eq_ok_iff {f : α → Except ε β} {xs : List α} :
    (∃ ys, xs.mapM f = .ok ys) ↔ ∀ x ∈ xs, ∃ y, f x = .ok y := by
  simp only [mapM_eq_ok_iff]
  constructor
  · rintro ⟨ys, all⟩
    induction all with
    | nil => simp
    | cons first _ ih => exact List.forall_mem_cons.mpr ⟨⟨_, first⟩, ih⟩
  · intro each
    induction xs with
    | nil => exact ⟨[], .nil⟩
    | cons x xs ih =>
        obtain ⟨⟨y, first⟩, others⟩ := List.forall_mem_cons.mp each
        obtain ⟨ys, rest⟩ := ih others
        exact ⟨y :: ys, .cons first rest⟩

/-- A row of checks passes exactly when each of them passes. -/
theorem forM_eq_ok_iff {f : α → Except ε Unit} {xs : List α} :
    xs.forM f = .ok () ↔ ∀ x ∈ xs, f x = .ok () := by
  induction xs with
  | nil => simp [pure, Except.pure]
  | cons x xs ih =>
      change (f x >>= fun _ => xs.forM f) = .ok () ↔ _
      rw [bind_eq_ok_iff, List.forall_mem_cons, ← ih]
      constructor
      · rintro ⟨_, first, rest⟩
        exact ⟨first, rest⟩
      · rintro ⟨first, rest⟩
        exact ⟨(), first, rest⟩

/-! ### Failures -/

def FailsOnly (P : ε → Prop) (x : Except ε α) : Prop := ∀ e, x = .error e → P e

namespace FailsOnly

variable {P : ε → Prop}

theorem ok (a : α) : FailsOnly P (.ok a) := nofun

theorem error (holds : P e) : FailsOnly P (.error e : Except ε α) := by
  rintro _ ⟨⟩
  exact holds

theorem imp {Q : ε → Prop} {x : Except ε α} (h : FailsOnly P x) (weaker : ∀ e, P e → Q e) :
    FailsOnly Q x := fun e failed => weaker e (h e failed)

theorem map {x : Except ε α} (h : FailsOnly P x) (f : α → β) : FailsOnly P (x.map f) := by
  cases x with
  | error e => exact .error (h e rfl)
  | ok a => exact .ok (f a)

/-- Two steps fail only as the first does, and as the second does after it. -/
theorem bind_of_ok {x : Except ε α} {f : α → Except ε β} (first : FailsOnly P x)
    (then_ : ∀ a, x = .ok a → FailsOnly P (f a)) : FailsOnly P (x >>= f) := by
  cases x with
  | error e => exact .error (first e rfl)
  | ok a => exact then_ a rfl

theorem bind {x : Except ε α} {f : α → Except ε β} (first : FailsOnly P x)
    (then_ : ∀ a, FailsOnly P (f a)) : FailsOnly P (x >>= f) :=
  first.bind_of_ok fun a _ => then_ a

theorem mapM {f : α → Except ε β} (each : ∀ a, FailsOnly P (f a)) (xs : List α) :
    FailsOnly P (xs.mapM f) := by
  induction xs with
  | nil => exact .ok _
  | cons x xs ih =>
      rw [List.mapM_cons]
      exact (each x).bind fun y => ih.bind fun ys => .ok _

theorem forM {f : α → Except ε Unit} (each : ∀ a, FailsOnly P (f a)) (xs : List α) :
    FailsOnly P (xs.forM f) := by
  induction xs with
  | nil => exact .ok _
  | cons x xs ih => exact (each x).bind fun _ => ih

theorem foldlM {f : β → α → Except ε β} {xs : List α}
    (each : ∀ b, ∀ x ∈ xs, FailsOnly P (f b x)) (b : β) : FailsOnly P (xs.foldlM f b) := by
  induction xs generalizing b with
  | nil => exact .ok _
  | cons x xs ih =>
      rw [List.foldlM_cons]
      refine (each b x List.mem_cons_self).bind fun b' => ih ?_ b'
      intro c y mem
      exact each c y (List.mem_cons_of_mem x mem)

end FailsOnly

end MachinePool
