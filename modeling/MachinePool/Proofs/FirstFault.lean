import MachinePool.Proofs.Checks

/-!
Which failure of a row is reported.

A row stops at its first step that fails, and the row fails as that step does.
`FirstFault` says so of any relation between items and faults, without running
anything: the rows of steps report their first fault (`mapM_eq_error_iff`,
`forM_eq_error_iff`), and so do steps of different kinds one after another
(`bind_eq_error_iff_firstFault`). Along a row in ascending order the first fault
is that of the least faulty item (`firstFault_iff_least`).
-/

namespace MachinePool

variable {ε ι κ α β : Type} {fault : ι → ε → Prop} {xs : List ι} {x : ι} {e : ε}

/-- The fault of the first item of a row that has one. -/
def FirstFault (fault : ι → ε → Prop) (xs : List ι) (e : ε) : Prop :=
  ∃ before x after, xs = before ++ x :: after ∧ fault x e ∧ ∀ y ∈ before, ∀ e', ¬ fault y e'

/-- The fault of an item of a row that no faulty item is below. -/
def LeastFault (key : ι → String) (fault : ι → ε → Prop) (xs : List ι) (e : ε) : Prop :=
  ∃ x ∈ xs, fault x e ∧ ∀ y ∈ xs, ∀ e', fault y e' → key x ≤ key y

/-! ### First faults of a row -/

theorem not_firstFault_nil : ¬ FirstFault fault [] e := by
  rintro ⟨before, x, after, row, -⟩
  cases before <;> cases row

/-- A row reports its first item, unless that has no fault. -/
theorem firstFault_cons :
    FirstFault fault (x :: xs) e ↔ fault x e ∨ (∀ e', ¬ fault x e') ∧ FirstFault fault xs e := by
  constructor
  · rintro ⟨before, y, after, row, faulty, sound⟩
    cases before with
    | nil =>
        cases row
        exact .inl faulty
    | cons first before =>
        cases row
        obtain ⟨here, earlier⟩ := List.forall_mem_cons.mp sound
        exact .inr ⟨here, before, y, after, rfl, faulty, earlier⟩
  · rintro (faulty | ⟨here, before, y, after, rfl, faulty, earlier⟩)
    · exact ⟨[], x, xs, rfl, faulty, nofun⟩
    · exact ⟨x :: before, y, after, rfl, faulty, List.forall_mem_cons.mpr ⟨here, earlier⟩⟩

/-- An item without a fault is passed over. -/
theorem firstFault_cons_of_sound (sound : ∀ e', ¬ fault x e') :
    FirstFault fault (x :: xs) e ↔ FirstFault fault xs e := by
  simp only [firstFault_cons, sound, false_or, not_false_eq_true, implies_true, true_and]

/-- Some fault is reported whenever there is one. -/
theorem exists_firstFault_iff : (∃ e, FirstFault fault xs e) ↔ ∃ x ∈ xs, ∃ e, fault x e := by
  induction xs with
  | nil => simp [not_firstFault_nil]
  | cons x xs ih =>
      simp only [firstFault_cons, exists_or, exists_and_left, ih, List.mem_cons,
        exists_eq_or_imp]
      by_cases here : ∃ e, fault x e
      · simp [here]
      · simp [not_exists.mp here]

theorem firstFault_congr {fault' : ι → ε → Prop} (same : ∀ x ∈ xs, ∀ e, fault x e ↔ fault' x e) :
    FirstFault fault xs e ↔ FirstFault fault' xs e := by
  induction xs with
  | nil => simp only [not_firstFault_nil]
  | cons x xs ih =>
      obtain ⟨here, others⟩ := List.forall_mem_cons.mp same
      rw [firstFault_cons, firstFault_cons, ih others]
      simp only [here]

theorem firstFault_map {f : κ → ι} {ks : List κ} :
    FirstFault fault (ks.map f) e ↔ FirstFault (fun k => fault (f k)) ks e := by
  induction ks with
  | nil => simp only [List.map_nil, not_firstFault_nil]
  | cons k ks ih => rw [List.map_cons, firstFault_cons, firstFault_cons, ih]

/-- What a search finds is the first item that is at fault for passing its test. -/
theorem firstFault_test_iff {test : ι → Bool} {report : ι → ε} :
    FirstFault (fun x e => test x = true ∧ e = report x) xs e ↔
      ∃ x, xs.find? test = some x ∧ e = report x := by
  induction xs with
  | nil => simp [not_firstFault_nil]
  | cons x xs ih =>
      rw [firstFault_cons, ih, List.find?_cons]
      cases test x <;> simp

/-- Along a row in ascending order the first faulty item is the least one. -/
theorem firstFault_iff_least {key : ι → String}
    (ascending : xs.Pairwise fun x y => key x < key y) :
    FirstFault fault xs e ↔ LeastFault key fault xs e := by
  constructor
  · rintro ⟨before, x, after, rfl, faulty, sound⟩
    obtain ⟨-, later, -⟩ := List.pairwise_append.mp ascending
    refine ⟨x, by simp, faulty, fun y mem e' faulty' => ?_⟩
    rcases List.mem_append.mp mem with earlier | mem
    · exact absurd faulty' (sound y earlier e')
    · rcases List.mem_cons.mp mem with rfl | mem
      · exact String.le_refl _
      · have above : key x < key y := (List.pairwise_cons.mp later).1 y mem
        exact String.not_lt.mp (String.lt_asymm above)
  · rintro ⟨x, mem, faulty, least⟩
    obtain ⟨before, after, rfl⟩ := List.append_of_mem mem
    obtain ⟨-, -, below⟩ := List.pairwise_append.mp ascending
    refine ⟨before, x, after, rfl, faulty, fun y earlier e' faulty' => ?_⟩
    have above := least y (List.mem_append_left _ earlier) e' faulty'
    exact absurd (below y earlier x List.mem_cons_self) (String.not_lt.mpr above)

/-- Rows in which the same keys have the same faults have the same least fault. -/
theorem leastFault_congr {key : ι → String} {key' : κ → String} {fault' : κ → ε → Prop}
    {ks : List κ} (same : ∀ k e, (∃ x ∈ xs, key x = k ∧ fault x e) ↔
      ∃ y ∈ ks, key' y = k ∧ fault' y e) :
    LeastFault key fault xs e ↔ LeastFault key' fault' ks e := by
  constructor
  · rintro ⟨x, mem, faulty, least⟩
    obtain ⟨y, mem', key, faulty'⟩ := (same (key x) e).mp ⟨x, mem, rfl, faulty⟩
    refine ⟨y, mem', faulty', fun z memZ e' faultyZ => ?_⟩
    obtain ⟨w, memW, keyW, faultyW⟩ := (same (key' z) e').mpr ⟨z, memZ, rfl, faultyZ⟩
    rw [key, ← keyW]
    exact least w memW e' faultyW
  · rintro ⟨y, mem, faulty, least⟩
    obtain ⟨x, mem', key, faulty'⟩ := (same (key' y) e).mpr ⟨y, mem, rfl, faulty⟩
    refine ⟨x, mem', faulty', fun z memZ e' faultyZ => ?_⟩
    obtain ⟨w, memW, keyW, faultyW⟩ := (same _ e').mp ⟨z, memZ, rfl, faultyZ⟩
    rw [key, ← keyW]
    exact least w memW e' faultyW

/-! ### Failures of steps -/

/-- A step and what follows it, each of which reports its first fault, report the first fault of
both. -/
theorem bind_eq_error_iff_firstFault {x : Except ε α} {f : α → Except ε β} {stage : ι}
    {stages : List ι} (here : ∀ e, x = .error e ↔ fault stage e)
    (next : ∀ a, x = .ok a → ∀ e, f a = .error e ↔ FirstFault fault stages e) (e : ε) :
    x >>= f = .error e ↔ FirstFault fault (stage :: stages) e := by
  rw [bind_eq_error_iff, firstFault_cons, here]
  refine or_congr_right ?_
  cases outcome : x with
  | error failure =>
      have faulty : fault stage failure := (here failure).mp outcome
      constructor
      · rintro ⟨a, ok, -⟩
        cases ok
      · rintro ⟨sound, -⟩
        exact absurd faulty (sound failure)
  | ok a =>
      have sound : ∀ e', ¬ fault stage e' := by
        intro e' faulty
        rw [(here e').mpr faulty] at outcome
        cases outcome
      simp only [Except.ok.injEq, exists_eq_left', next a outcome e, sound, not_false_eq_true,
        implies_true, true_and]

/-- Steps that all succeed fail as the first of them that fails. -/
theorem mapM_eq_error_iff {f : ι → Except ε β} :
    xs.mapM f = .error e ↔ FirstFault (fun x e => f x = .error e) xs e := by
  induction xs with
  | nil => simp [not_firstFault_nil, pure, Except.pure]
  | cons x xs ih =>
      rw [List.mapM_cons, bind_eq_error_iff, firstFault_cons]
      refine or_congr_right ?_
      have rest : ∀ b, (xs.mapM f >>= fun bs => pure (b :: bs)) = .error e ↔
          xs.mapM f = .error e := by
        intro b
        rw [bind_eq_error_iff]
        simp [pure, Except.pure]
      simp only [rest, ih]
      cases f x <;> simp

/-- A row of checks reports the first fault of its items. -/
theorem forM_eq_error_iff {f : ι → Except ε Unit} :
    xs.forM f = .error e ↔ FirstFault (fun x e => f x = .error e) xs e := by
  induction xs with
  | nil => simp [not_firstFault_nil, pure, Except.pure]
  | cons x xs ih =>
      change (f x >>= fun _ => xs.forM f) = .error e ↔ _
      rw [bind_eq_error_iff, firstFault_cons, ih]
      cases f x <;> simp

end MachinePool
