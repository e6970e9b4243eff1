import MachinePool.Proofs.Scheduling.Run

/-!
Schedulers exclude each other.

The only lock is the comparison of version markers. It is enough: a copy to
claim is of a machine nobody has taken, and as long as markers have not gone
around, a current copy is the stored record. So whoever claims a machine finds
it free, and a claimed machine becomes free by a release or a registration only
(`Run.taken_or_released`).

* `schedulers_exclude_each_other`: between two claims of a machine there is a
  release or a registration of it, a claim can be finalized exactly as long as
  it is the last write of its machine, and no two schedulers hold a machine.
* `two_holders_when_markers_go_around`: after 2⁶⁴ writes of a machine two
  schedulers can hold it, so the bound on the writes is needed.
-/

namespace MachinePool.Scheduling

variable {trace : List Event} {s after : Store} {e : Event} {id : String} {m : Machine}

/-! ### What claims and finalizations are made of -/

/-- What copies to claim and claims are like when they come into a scheduler's hands. -/
def Event.Fit : Event → Prop
  | found _ machines => ∀ m ∈ machines, m.isTaken = false ∧ m.waiting = true
  | candidate _ source copy => copy.isTaken = false ∧ (source = .search → copy.waiting = true)
  | claimed _ _ m => m.preallocated = true ∧ m.isFree = true
  | _ => True

theorem fit_of_waitingCandidates {partition size : String}
    (listed : (Query.waitingCandidates partition size).matches? m = true) :
    m.isTaken = false ∧ m.waiting = true := by
  obtain ⟨-, -, free, -, waiting, unclaimed⟩ := Store.matches_waitingCandidates_iff.mp listed
  exact ⟨by simp [Machine.isTaken, Machine.isFree, free, unclaimed], waiting⟩

/-- What comes into a hand in a run is fit to be there. -/
theorem Run.fit (run : Run trace s) (mem : e ∈ trace) : e.Fit := by
  induction run generalizing e with
  | start => cases mem
  | @step trace s after last run move ih =>
      rcases List.mem_append.mp mem with mem | mem
      · exact ih mem
      · obtain rfl : e = last := List.mem_singleton.mp mem
        cases move with
        | search => exact fun m listed => fit_of_waitingCandidates (Store.mem_search.mp listed).2
        | choose found chosen =>
            have fits := ih found _ (List.mem_filter.mp chosen).1
            exact ⟨fits.1, fun _ => fits.2⟩
        | check _ _ unclaimed =>
            obtain ⟨-, free, unclaimed⟩ := Store.readUnclaimed_eq_ok_iff.mp unclaimed
            exact ⟨by simp [Machine.isTaken, free, unclaimed], nofun⟩
        | claim read claimed =>
            obtain ⟨idle, -⟩ := ih read
            obtain ⟨-, rfl, -⟩ := Store.claim_eq_ok_iff.mp claimed
            simp only [Machine.isTaken, Bool.or_eq_false_iff, Bool.not_eq_false'] at idle
            exact ⟨rfl, idle.2⟩
        | _ => trivial

/-- `e.Continues m`: how a write follows on the stored record. Reports and claims are of machines
nobody has taken, and claims and finalizations leave them taken. -/
def Event.Continues (stored : Machine) : Event → Prop
  | reported _ => stored.isTaken = false
  | claimed _ source m =>
    stored.isTaken = false ∧ (source = .search → stored.waiting = true) ∧ m.preallocated = true
  | finalized _ m => m.preallocated = true
  | released m => m.waiting = false
  | _ => True

/-- As long as markers have not gone around, every write follows on the stored record. -/
theorem Step.continues (run : Run trace s) (move : Step trace s e after)
    (few : (writesIn id trace).length < 2 ^ 64) (writes : e.Writes id)
    (stored : s.machine? id = some m) : e.Continues m := by
  obtain ⟨w, write, same⟩ := writes
  cases move with
  | claim read claimed =>
      cases write
      obtain ⟨current, rfl, -⟩ := Store.claim_eq_ok_iff.mp claimed
      obtain rfl := run.eq_stored_of_current few read List.mem_cons_self same current stored
      obtain ⟨idle, waiting⟩ := run.fit read
      exact ⟨idle, waiting, rfl⟩
  | report read idle replaced =>
      cases write
      obtain ⟨-, current, rfl, -⟩ := Store.replace_eq_ok_iff.mp replaced
      obtain rfl := run.eq_stored_of_current few read List.mem_cons_self same current stored
      exact idle
  | finalize _ attached =>
      obtain ⟨claimed, -, -, rfl, -⟩ := Store.attachAllocation_eq_ok_iff.mp attached
      exact claimed
  | release _ freed =>
      obtain ⟨_, -, -, replaced⟩ := Store.release_eq_ok_iff.mp freed
      obtain ⟨-, -, rfl, -⟩ := Store.replace_eq_ok_iff.mp replaced
      exact rfl
  | giveBack _ _ replaced =>
      obtain ⟨-, -, rfl, -⟩ := Store.replace_eq_ok_iff.mp (Store.replaceCopy_eq_ok_iff.mp replaced)
      exact rfl
  | _ => trivial

/-! ### After a claim -/

/-- Whether an event of a kind happens to a machine in a part of a trace. -/
def Occurs (kind : Machine → Event) (id : String) (events : List Event) : Prop :=
  ∃ m, kind m ∈ events ∧ m.id = id

/-- Whether a machine is released and later reports that it waits in a part of a trace. -/
def ReportedAfterRelease (id : String) (events : List Event) : Prop :=
  ∃ first r rest, events = first ++ .released r :: rest ∧ r.id = id ∧ Occurs .reported id rest

theorem Occurs.append {kind : Machine → Event} {events : List Event} (h : Occurs kind id events)
    (e : Event) : Occurs kind id (events ++ [e]) := by
  obtain ⟨m, mem, same⟩ := h
  exact ⟨m, List.mem_append_left _ mem, same⟩

theorem ReportedAfterRelease.append {events : List Event} (h : ReportedAfterRelease id events)
    (e : Event) : ReportedAfterRelease id (events ++ [e]) := by
  obtain ⟨first, r, rest, rfl, same, reported⟩ := h
  exact ⟨first, r, rest ++ [e], by simp, same, reported.append e⟩

/-- A report after a release is one. -/
theorem Occurs.report {events : List Event} (h : Occurs .released id events) (same : m.id = id) :
    ReportedAfterRelease id (events ++ [.reported m]) := by
  obtain ⟨r, mem, released⟩ := h
  obtain ⟨first, rest, rfl⟩ := List.append_of_mem mem
  exact ⟨first, r, rest ++ [.reported m], by simp, released, m, List.mem_concat_self, same⟩

/-- How a stored record may look when its machine was claimed before some events and not registered
in them: it is taken until it is released, and then it does not wait until it reports so. -/
def TakenOrReleased (id : String) (events : List Event) (stored : Machine) : Prop :=
  stored.preallocated = true ∨
    Occurs .released id events ∧ (stored.waiting = true → ReportedAfterRelease id events)

/-- An event that does not write the machine leaves it so. -/
theorem TakenOrReleased.append {events : List Event} (h : TakenOrReleased id events m) (e : Event) :
    TakenOrReleased id (events ++ [e]) m := by
  rcases h with taken | ⟨released, waits⟩
  · exact .inl taken
  · exact .inr ⟨released.append e, fun waiting => (waits waiting).append e⟩

/-- So does an event that writes it, if it is not a registration. -/
theorem TakenOrReleased.write {events : List Event} (h : TakenOrReleased id events m)
    {w : Cause × Machine} (write : e.write? = some w) (same : w.2.id = id)
    (continues : e.Continues m) (unregistered : ¬ Occurs .registered id (events ++ [e])) :
    TakenOrReleased id (events ++ [e]) w.2 := by
  cases e with
  | registered r =>
      cases write
      exact absurd ⟨r, List.mem_concat_self, same⟩ unregistered
  | released r =>
      cases write
      refine .inr ⟨⟨r, List.mem_concat_self, same⟩, fun waiting => ?_⟩
      exact absurd (waiting.symm.trans continues) Bool.noConfusion
  | reported r =>
      cases write
      rcases h with taken | ⟨released, -⟩
      · simp [Event.Continues, Machine.isTaken, taken] at continues
      · exact .inr ⟨released.append _, fun _ => released.report same⟩
  | claimed _ _ r =>
      cases write
      exact .inl continues.2.2
  | finalized _ r =>
      cases write
      exact .inl continues
  | _ => cases write

/-- The record that is stored after a step. -/
theorem Step.machine?_eq (run : Run trace s) (move : Step trace s e after) (id : String) :
    after.machine? id = (writesIn id [e]).getLast?.or (s.machine? id) := by
  rw [(run.step move).machine?_eq, run.machine?_eq, writesIn_append, List.getLast?_append]

theorem Step.stored_of_write (run : Run trace s) (move : Step trace s e after) {w : Cause × Machine}
    (write : e.write? = some w) : after.machine? w.2.id = some w.2 := by
  rw [move.machine?_eq run, writesIn_of_writes write]
  rfl

theorem Step.stored_of_not_writes (run : Run trace s) (move : Step trace s e after)
    (other : ¬ e.Writes id) : after.machine? id = s.machine? id := by
  have silent : writesIn id [e] = [] := writesIn_eq_nil_iff.mpr (by simpa using other)
  rw [move.machine?_eq run, silent]
  rfl

/-- A claimed machine that was not registered since is taken or released. -/
theorem Run.taken_or_released (run : Run trace s) {before later : List Event} {scheduler : Nat}
    {source : Source} {c : Machine} (split : trace = before ++ .claimed scheduler source c :: later)
    (few : (writesIn c.id trace).length < 2 ^ 64)
    (unregistered : ¬ Occurs .registered c.id later) :
    ∃ m, s.machine? c.id = some m ∧ TakenOrReleased c.id later m := by
  induction run generalizing later with
  | start => simp at split
  | @step trace s after last run move ih =>
      have fewer : (writesIn c.id trace).length < 2 ^ 64 :=
        Nat.lt_of_le_of_lt (length_writesIn_le _ _ _) few
      rcases concat_eq_append_cons split with ⟨rfl, -, rfl⟩ | ⟨rest, rfl, shorter⟩
      · -- The last event is the claim itself.
        have fit := (run.step move).fit List.mem_concat_self
        exact ⟨c, move.stored_of_write run rfl, .inl fit.1⟩
      · obtain ⟨m, stored, state⟩ := ih shorter fewer fun h => unregistered (h.append last)
        by_cases writes : last.Writes c.id
        · have continues := move.continues run fewer writes stored
          obtain ⟨w, write, same⟩ := writes
          have now : after.machine? c.id = some w.2 := same ▸ move.stored_of_write run write
          exact ⟨w.2, now, state.write write same continues unregistered⟩
        · exact ⟨m, (move.stored_of_not_writes run writes).trans stored, state.append last⟩

/-! ### Finalizing -/

/-- As long as markers have not gone around, a claim is current exactly when nothing was written
over it. -/
theorem Run.isCurrent_claim_iff (run : Run trace s) {before later : List Event} {scheduler : Nat}
    {source : Source} {c : Machine} (split : trace = before ++ .claimed scheduler source c :: later)
    (few : (writesIn c.id trace).length < 2 ^ 64) :
    s.IsCurrent c ↔ ∀ e ∈ later, ¬ e.Writes c.id := by
  have written : writesIn c.id trace = writesIn c.id before ++ c :: writesIn c.id later := by
    rw [split, writesIn_append, writesIn_cons_of_writes (w := (.claim, c)) rfl]
  have numbered : c.changed = UInt64.ofNat ((writesIn c.id before).length + 1) := by
    refine run.accounts.marker c.id _ c ?_
    rw [incarnation_journalOf, written]
    simp
  rw [run.accounts.isCurrent_iff, incarnation_journalOf, ← writesIn_eq_nil_iff, numbered]
  rw [written, List.length_append, List.length_cons] at few ⊢
  constructor
  · rintro ⟨-, counted⟩
    by_contra more
    have nonempty : 0 < (writesIn c.id later).length := List.length_pos_iff.mpr more
    exact ofNat_ne_ofNat (by omega) few counted
  · intro silent
    simp [silent]

/-- A claim can be finalized exactly as long as nothing was written over it. -/
theorem Run.finalize_iff (run : Run trace s) {before later : List Event} {scheduler : Nat}
    {source : Source} {c : Machine} (split : trace = before ++ .claimed scheduler source c :: later)
    (few : (writesIn c.id trace).length < 2 ^ 64) (a : Allocation) (tags : List String) :
    (∃ written, s.attachAllocation c a tags = .ok written) ↔ ∀ e ∈ later, ¬ e.Writes c.id := by
  rw [← run.isCurrent_claim_iff split few]
  have fit := run.fit (e := .claimed scheduler source c) (by simp [split])
  constructor
  · rintro ⟨⟨written, after⟩, attached⟩
    exact (Store.attachAllocation_eq_ok_iff.mp attached).2.2.1
  · intro current
    exact ⟨_, Store.attachAllocation_eq_ok_iff.mpr ⟨fit.1, fit.2, current, rfl, rfl⟩⟩

/-! ### Exclusion -/

/-- Whether an event makes a claim or an allocation of a machine void. -/
def Event.Frees (id : String) : Event → Prop
  | released m | registered m => m.id = id
  | _ => False

theorem Event.Frees.writes (h : e.Frees id) : e.Writes id := by
  cases e with
  | released m => exact ⟨(.release, m), rfl, h⟩
  | registered m => exact ⟨(.registration, m), rfl, h⟩
  | _ => exact h.elim

/-- A scheduler holds a machine: it claimed or finalized it, and the machine was neither released
nor registered since. -/
def Holds (trace : List Event) (scheduler : Nat) (id : String) : Prop :=
  ∃ before e later m, trace = before ++ e :: later ∧ m.id = id ∧
    ((∃ source, e = .claimed scheduler source m) ∨ e = .finalized scheduler m) ∧
    ∀ e ∈ later, ¬ e.Frees id

/-- Between two claims of a machine it was registered or released, and if the second one was the
outcome of a search, registered or released and then reported waiting. -/
theorem Run.freed_between_claims (run : Run trace s) {before between after : List Event}
    {a b : Nat} {source source' : Source} {c d : Machine}
    (split : trace = before ++ .claimed a source c :: between ++ .claimed b source' d :: after)
    (same : d.id = c.id) (few : (writesIn c.id trace).length < 2 ^ 64) :
    (∃ e ∈ between, e.Frees c.id) ∧
      (source' = .search →
        Occurs .registered c.id between ∨ ReportedAfterRelease c.id between) := by
  by_cases registered : Occurs .registered c.id between
  · obtain ⟨m, mem, same⟩ := registered
    exact ⟨⟨_, mem, same⟩, fun _ => .inl ⟨m, mem, same⟩⟩
  obtain ⟨earlier, _, runBefore, move⟩ := run.moment split
  have fewer : (writesIn c.id (before ++ .claimed a source c :: between)).length < 2 ^ 64 := by
    rw [split] at few
    exact Nat.lt_of_le_of_lt (length_writesIn_le _ _ _) few
  obtain ⟨m, stored, state⟩ := runBefore.taken_or_released rfl fewer registered
  -- The second claim finds the machine idle, so it was released.
  obtain ⟨idle, waiting, -⟩ :=
    move.continues runBefore fewer ⟨(.claim, d), rfl, same⟩ stored
  rcases state with taken | ⟨⟨r, mem, released⟩, waits⟩
  · simp [Machine.isTaken, taken] at idle
  · exact ⟨⟨_, mem, released⟩, fun searched => .inr (waits (waiting searched))⟩

/-- A finalization follows on its scheduler's own claim, with no write of the machine between. -/
theorem Run.own_claim_of_finalized (run : Run trace s) {past later : List Event} {a : Nat}
    (split : trace = past ++ .finalized a m :: later)
    (few : (writesIn m.id trace).length < 2 ^ 64) :
    ∃ before between source c, past = before ++ .claimed a source c :: between ∧ c.id = m.id ∧
      ∀ e ∈ between, ¬ e.Writes m.id := by
  obtain ⟨earlier, _, runBefore, move⟩ := run.moment split
  cases move with
  | @finalize _ source c _ _ _ _ claimed attached =>
      obtain ⟨-, -, current, written, -⟩ := Store.attachAllocation_eq_ok_iff.mp attached
      have same : c.id = m.id := by rw [written]; rfl
      obtain ⟨before, between, rfl⟩ := List.append_of_mem claimed
      rw [split] at few
      have fewer := Nat.lt_of_le_of_lt (length_writesIn_le m.id _ _) few
      rw [← same] at fewer ⊢
      exact ⟨before, between, source, c, rfl, rfl,
        (runBefore.isCurrent_claim_iff rfl fewer).mp current⟩

/-- Who holds a machine claimed it, and it was neither released nor registered since. -/
theorem Run.claim_of_holds (run : Run trace s) {a : Nat} (holds : Holds trace a id)
    (few : (writesIn id trace).length < 2 ^ 64) :
    ∃ before source c later, trace = before ++ .claimed a source c :: later ∧ c.id = id ∧
      ∀ e ∈ later, ¬ e.Frees id := by
  obtain ⟨past, e, later, m, split, rfl, ⟨source, rfl⟩ | rfl, kept⟩ := holds
  · exact ⟨past, source, m, later, split, rfl, kept⟩
  · obtain ⟨before, between, source, c, rfl, same, silent⟩ := run.own_claim_of_finalized split few
    refine ⟨before, source, c, between ++ .finalized a m :: later, by simp [split], same, ?_⟩
    intro e mem
    rcases List.mem_append.mp mem with mem | mem
    · exact fun frees => silent e mem frees.writes
    · rcases List.mem_cons.mp mem with rfl | mem
      · exact fun frees => frees
      · exact kept e mem

/-- Of two places in a list, one is the other or comes first. -/
theorem same_or_before {α : Type} {before after before' after' : List α} {x y : α}
    (split : before ++ x :: after = before' ++ y :: after') :
    x = y ∧ after = after' ∨ (∃ between, after = between ++ y :: after') ∨
      ∃ between, after' = between ++ x :: after := by
  rcases List.append_eq_append_iff.mp split with ⟨gap, rfl, same⟩ | ⟨gap, rfl, same⟩
  · cases gap with
    | nil => simp_all
    | cons first rest =>
        refine .inr (.inl ⟨rest, ?_⟩)
        simp_all
  · cases gap with
    | nil => simp_all
    | cons first rest =>
        refine .inr (.inr ⟨rest, ?_⟩)
        simp_all

/-- At most one scheduler holds a machine. -/
theorem Run.one_holder (run : Run trace s) {a b : Nat} (first : Holds trace a id)
    (second : Holds trace b id) (few : (writesIn id trace).length < 2 ^ 64) : a = b := by
  obtain ⟨before, source, c, later, split, rfl, kept⟩ := run.claim_of_holds first few
  obtain ⟨before', source', d, later', split', same, kept'⟩ := run.claim_of_holds second few
  -- If one of the claims came after the other, that one was no longer held.
  rcases same_or_before (split.symm.trans split') with
    ⟨sameClaim, -⟩ | ⟨between, rfl⟩ | ⟨between, rfl⟩
  · cases sameClaim
    rfl
  · obtain ⟨e, mem, frees⟩ := (run.freed_between_claims (by simpa using split) same few).1
    exact absurd frees (kept e (List.mem_append_left _ mem))
  · rw [← same] at few kept'
    obtain ⟨e, mem, frees⟩ := (run.freed_between_claims (by simpa using split') same.symm few).1
    exact absurd frees (kept' e (List.mem_append_left _ mem))

/-- However schedulers, registrations, releases and reports take turns: between two claims of a
machine it was registered or released, and if the second one came from a search, registered or
released and then reported waiting; a claim can be finalized exactly as long as it is the last write
of its machine; and at most one scheduler holds a machine. All that is needed is that the markers of
the machine have not gone around. -/
theorem schedulers_exclude_each_other (run : Run trace s) (id : String)
    (few : (writesIn id trace).length < 2 ^ 64) :
    (∀ before between after a b source source' c d,
      trace = before ++ .claimed a source c :: between ++ .claimed b source' d :: after →
      c.id = id → d.id = id →
      (∃ e ∈ between, e.Frees id) ∧
        (source' = .search → Occurs .registered id between ∨ ReportedAfterRelease id between)) ∧
    (∀ before later a source c allocation tags,
      trace = before ++ .claimed a source c :: later → c.id = id →
      ((∃ written, s.attachAllocation c allocation tags = .ok written) ↔
        ∀ e ∈ later, ¬ e.Writes id)) ∧
    ∀ a b, Holds trace a id → Holds trace b id → a = b := by
  refine ⟨?_, ?_, fun a b first second => run.one_holder first second few⟩
  · rintro before between after a b source source' c d split rfl same
    exact run.freed_between_claims split same few
  · rintro before later a source c allocation tags split rfl
    exact run.finalize_iff split few allocation tags

/-- Two schedulers get a machine one after the other: the second one finds it when it was released
and has reported that it waits. -/
theorem machine_found_again_after_report :
    let idle := Machine.idle "m"
    let c := { idle with preallocated := true, changed := 2 }
    let d := { idle with preallocated := true, changed := 5 }
    let before : List Event := [.registered { idle with changed := 1 }, .heard ⟨"m", .alive, 0⟩,
      .found 0 [{ idle with changed := 1 }], .candidate 0 .search { idle with changed := 1 }]
    let between : List Event := [.released { idle with waiting := false, changed := 3 },
      .copied { idle with waiting := false, changed := 3 }, .reported { idle with changed := 4 },
      .found 1 [{ idle with changed := 4 }], .candidate 1 .search { idle with changed := 4 }]
    let trace := before ++ .claimed 0 .search c :: between ++ .claimed 1 .search d :: []
    ∃ s, Run trace s ∧ (writesIn "m" trace).length < 2 ^ 64 ∧ ReportedAfterRelease "m" between ∧
      ∀ a, Holds trace a "m" → a = 1 := by
  intro idle c d before between trace
  let alive := (Store.empty.putMachine { idle with changed := 1 }).putHeartbeat ⟨"m", .alive, 0⟩
  let claimed := alive.putMachine c
  let released := claimed.putMachine { idle with waiting := false, changed := 3 }
  let reported := released.putMachine { idle with changed := 4 }
  have listed : alive.search (Query.waitingCandidates "p" "s") = [{ idle with changed := 1 }] := by
    decide
  have listedAgain : reported.search (Query.waitingCandidates "p" "s") =
      [{ idle with changed := 4 }] := by
    decide
  have found : Run (before.take 3) alive :=
    ((Run.start.step (.register (m := idle) rfl)).step (.hear ⟨"m", .alive, 0⟩)).step
      (listed ▸ Step.search 0 "p" "s")
  have taken : Run (before ++ [.claimed 0 .search c]) claimed :=
    (found.step (.choose (List.mem_of_getElem? (i := 2) rfl) (by decide))).step
      (.claim List.mem_concat_self rfl)
  have freed : Run (before ++ .claimed 0 .search c :: between.take 1) released :=
    taken.step (.release "m" (by decide))
  have waiting : Run (before ++ .claimed 0 .search c :: between.take 3) reported :=
    (freed.step (.read "m" (by decide))).step
      (.report List.mem_concat_self rfl (by decide))
  have foundAgain : Run (before ++ .claimed 0 .search c :: between.take 4) reported :=
    waiting.step (listedAgain ▸ Step.search 1 "p" "s")
  have run : Run trace (reported.putMachine d) :=
    (foundAgain.step (.choose (List.mem_of_getElem? (i := 8) rfl) (by decide))).step
      (.claim List.mem_concat_self (by decide))
  have few : (writesIn "m" trace).length < 2 ^ 64 := by decide
  obtain ⟨claims, -, one⟩ := schedulers_exclude_each_other run "m" few
  have unregistered : ¬ Occurs .registered "m" between := by
    rintro ⟨r, mem, -⟩
    simp [between] at mem
  have held : Holds trace 1 "m" :=
    ⟨before ++ .claimed 0 .search c :: between, _, [], d, rfl, rfl, .inl ⟨.search, rfl⟩,
      fun _ mem => absurd mem List.not_mem_nil⟩
  have renewed := (claims before between [] 0 1 .search .search c d rfl rfl rfl).2 rfl
  exact ⟨_, run, few, renewed.resolve_left unregistered, fun a holds => one a 1 holds held⟩

/-- A run may go on with any number of registrations of a free machine. -/
theorem Run.exists_registered (run : Run trace s) (stored : s.machine? m.id = some m)
    (free : m.isFree = true) (n : Nat) :
    ∃ more after, Run (trace ++ more) after ∧
      after.machine? m.id = some { m with changed := m.changed + UInt64.ofNat n } := by
  have registers (s : Store) (written : Machine) (after : Store)
      (further : ∃ more, Run (trace ++ more) s) (ok : s.register m = .ok (written, after)) :
      ∃ more, Run (trace ++ more) after := by
    obtain ⟨more, further⟩ := further
    refine ⟨more ++ [.registered written], ?_⟩
    rw [← List.append_assoc]
    exact further.step (.register ok)
  have start : ∃ more, Run (trace ++ more) s := ⟨[], by simpa using run⟩
  obtain ⟨after, ⟨more, further⟩, found⟩ := Store.exists_registered free registers start stored n
  exact ⟨more, after, further, found⟩

/-- The markers of a machine can go around, and then two schedulers can hold it: a copy that was
read 2⁶⁴ writes ago is taken for current. -/
theorem two_holders_when_markers_go_around :
    ∃ trace s, Run trace s ∧ Holds trace 0 "m" ∧ Holds trace 1 "m" := by
  let first := { Machine.idle "m" with changed := 1 }
  have begun : Run [.registered first, .candidate 0 .byId first] (Store.empty.putMachine first) :=
    (Run.start.step (.register (m := .idle "m") rfl)).step (.check 0 "m" rfl)
  obtain ⟨more, s, run, stored⟩ := begun.exists_registered (m := first) rfl rfl (2 ^ 64 - 1)
  let last := { first with changed := 0 }
  have around : first.changed + UInt64.ofNat (2 ^ 64 - 1) = 0 := by decide
  rw [around] at stored
  let c := { last with preallocated := true, changed := 1 }
  let d := { first with preallocated := true, changed := 2 }
  have found : s.readUnclaimed "m" = .ok last :=
    Store.readUnclaimed_eq_ok_iff.mpr ⟨stored, rfl, rfl⟩
  have claimed : s.claim last = .ok (c, s.putMachine c) :=
    Store.claim_eq_ok_iff.mpr ⟨⟨last, stored, rfl⟩, rfl, rfl⟩
  have claimedAgain : (s.putMachine c).claim first = .ok (d, (s.putMachine c).putMachine d) :=
    Store.claim_eq_ok_iff.mpr ⟨⟨c, Store.machine?_putMachine_self s c, rfl⟩, rfl, rfl⟩
  have one := (run.step (.check 1 "m" found)).step (.claim List.mem_concat_self claimed)
  have read : Event.candidate 0 .byId first ∈
      [.registered first, .candidate 0 .byId first] ++ more ++ [.candidate 1 .byId last] ++
        [.claimed 1 .byId c] := by
    simp
  have both := one.step (.claim read claimedAgain)
  exact ⟨_, _, both, ⟨_, _, [], d, rfl, rfl, .inl ⟨.byId, rfl⟩, by simp⟩,
    ⟨_, _, [.claimed 0 .byId d], c, List.append_assoc _ _ _, rfl, .inl ⟨.byId, rfl⟩,
      by simp [Event.Frees]⟩⟩

end MachinePool.Scheduling
