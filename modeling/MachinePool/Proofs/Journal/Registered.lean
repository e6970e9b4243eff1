import MachinePool.Proofs.Allocation.Outcome
import MachinePool.Proofs.Journal.Callers

/-!
What a registration says of a machine lasts until the next registration.

A claim, a finalization, a release and a report write back a whole copy and
change nothing about the hardware in it. So a copy from before the last
registration would bring back what it knew: the rack the machine stood in, its
partition, or that it was not locked. It is the comparison of markers that stops
it. As long as the marker of a machine that is not deleted has not gone around,
whatever is written over a record was made from that very record
(`GenuineWrite.follows_stored`), and the hardware stays as registered, write by
write. Tags are added at their end, and a release alone takes them away.

* `stored_as_registered`: every stored record has the hardware that was last
  registered, and the tags that were registered with it stand at the beginning
  of its tags until the machine is released.
* `old_rack_back_when_markers_go_around`: after 2⁶⁴ writes of a machine an old
  copy can be claimed, so the bound on the writes is needed.
-/

namespace MachinePool

variable {journal since : List Entry} {s after : Store} {m r copy w : Machine} {cause : Cause}
variable {id : String} {e : Entry}

/-! ### Hardware -/

/-- Whether two records say the same of the machine itself and of what its operator made of it. -/
structure Machine.SameHardware (m r : Machine) : Prop where
  name : m.name = r.name
  partition : m.partition = r.partition
  size : m.size = r.size
  rack : m.rack = r.rack
  state : m.state = r.state

theorem Machine.SameHardware.refl (m : Machine) : m.SameHardware m := ⟨rfl, rfl, rfl, rfl, rfl⟩

theorem Machine.SameHardware.trans (first : w.SameHardware m) (second : m.SameHardware r) :
    w.SameHardware r where
  name := first.name.trans second.name
  partition := first.partition.trans second.partition
  size := first.size.trans second.size
  rack := first.rack.trans second.rack
  state := first.state.trans second.state

/-- Merging adds tags at the end only. -/
theorem prefix_mergeTags (tags more : List String) : tags <+: Store.mergeTags tags more := by
  rw [mergeTags_eq]
  exact List.prefix_append _ _

/-! ### One write -/

/-- A write that is no registration is made from a current copy. It keeps the hardware of the copy
and, unless it is a release, its tags. -/
theorem GenuineWrite.exists_copy (write : GenuineWrite journal s cause w after)
    (unregistered : cause ≠ .registration) :
    ∃ copy, IsCopy journal copy ∧ s.IsCurrent copy ∧ copy.id = w.id ∧ w.SameHardware copy ∧
      (cause = .release ∨ copy.tags <+: w.tags) := by
  cases write with
  | register => exact absurd rfl unregistered
  | @report copy _ _ isCopy _ replaced =>
      obtain ⟨-, current, rfl, -⟩ := Store.replace_eq_ok_iff.mp replaced
      exact ⟨copy, isCopy, current, rfl, ⟨rfl, rfl, rfl, rfl, rfl⟩, .inr List.prefix_rfl⟩
  | @claim copy _ _ isCopy claimed =>
      obtain ⟨current, rfl, -⟩ := Store.claim_eq_ok_iff.mp claimed
      exact ⟨copy, isCopy, current, rfl, ⟨rfl, rfl, rfl, rfl, rfl⟩, .inr List.prefix_rfl⟩
  | @attach copy _ _ a tags isCopy attached =>
      obtain ⟨-, -, current, rfl, -⟩ := Store.attachAllocation_eq_ok_iff.mp attached
      exact ⟨copy, isCopy, current, rfl, ⟨rfl, rfl, rfl, rfl, rfl⟩,
        .inr (prefix_mergeTags copy.tags tags)⟩
  | @release copy _ _ isCopy replaced =>
      obtain ⟨-, current, rfl, -⟩ :=
        Store.replace_eq_ok_iff.mp (Store.replaceCopy_eq_ok_iff.mp replaced)
      exact ⟨copy, isCopy, current, rfl, ⟨rfl, rfl, rfl, rfl, rfl⟩, .inl rfl⟩

/-- As long as markers have not gone around, a copy of a machine that was not deleted is the stored
record if it is current. -/
theorem Chronicle.eq_stored_of_current (chronicle : Chronicle journal s)
    (kept : .deleted copy.id ∉ journal) (few : (writesOf copy.id journal).length < 2 ^ 64)
    (isCopy : IsCopy journal copy) (current : s.IsCurrent copy)
    (found : s.machine? copy.id = some m) : copy = m := by
  have whole : incarnation copy.id journal = writesOf copy.id journal := incarnation_append [] kept
  apply chronicle.accounts.eq_stored_of_current _ _ current found
  · rw [whole]
    exact few
  · rw [whole]
    exact mem_writesOf_iff.mpr ⟨rfl, isCopy⟩

/-- A write that is no registration follows on the stored record. -/
theorem GenuineWrite.follows_stored (write : GenuineWrite journal s cause w after)
    (unregistered : cause ≠ .registration) (chronicle : Chronicle journal s)
    (kept : .deleted w.id ∉ journal) (few : (writesOf w.id journal).length < 2 ^ 64) :
    ∃ m, s.machine? w.id = some m ∧ w.SameHardware m ∧
      (cause = .release ∨ m.tags <+: w.tags) := by
  obtain ⟨copy, isCopy, current, same, hardware, tags⟩ := write.exists_copy unregistered
  obtain ⟨m, found, marker⟩ := current
  rw [← same] at kept few ⊢
  obtain rfl := chronicle.eq_stored_of_current kept few isCopy ⟨m, found, marker⟩ found
  exact ⟨copy, found, hardware, tags⟩

/-! ### Since the registration -/

/-- `m` is the record of a machine that was last registered as `r`, and `since` is what was journaled
after that. The hardware stayed as registered, and the tags only grew until a release. -/
structure RegisteredAs (id : String) (journal : List Entry) (m r : Machine) (since : List Entry) :
    Prop where
  registration : ∃ past, journal = past ++ .wrote .registration r :: since
  id_eq : r.id = id
  latest : ∀ r', .wrote .registration r' ∈ since → r'.id ≠ id
  stored : (r :: writesOf id since).getLast? = some m
  hardware : ∀ w ∈ r :: writesOf id since, w.SameHardware r
  tags : ∀ part, part <+: since → (∀ w, .wrote .release w ∈ part → w.id ≠ id) →
    (r :: writesOf id part).Pairwise (·.tags <+: ·.tags)

namespace RegisteredAs

/-- A registration has nothing after it at first. -/
theorem start (journal : List Entry) (r : Machine) :
    RegisteredAs r.id (journal ++ [.wrote .registration r]) r r [] where
  registration := ⟨journal, rfl⟩
  id_eq := rfl
  latest r' mem := by cases mem
  stored := rfl
  hardware w mem := by
    obtain rfl := List.mem_singleton.mp mem
    exact .refl w
  tags part upTo _ := by
    rw [List.prefix_nil.mp upTo]
    exact List.pairwise_singleton _ r

theorem sameHardware (h : RegisteredAs id journal m r since) : m.SameHardware r :=
  h.hardware m (List.mem_of_getLast? h.stored)

theorem registration_concat (h : RegisteredAs id journal m r since) (e : Entry) :
    ∃ past, journal ++ [e] = past ++ .wrote .registration r :: (since ++ [e]) := by
  obtain ⟨past, whole⟩ := h.registration
  exact ⟨past, by rw [whole, List.append_assoc, List.cons_append]⟩

/-- An entry that does not write the machine changes nothing. -/
theorem other (h : RegisteredAs id journal m r since) (untouched : writesOf id [e] = []) :
    RegisteredAs id (journal ++ [e]) m r (since ++ [e]) := by
  have same : writesOf id (since ++ [e]) = writesOf id since := by
    rw [writesOf_append, untouched, List.append_nil]
  refine ⟨h.registration_concat e, h.id_eq, ?latest, ?stored, ?hardware, ?tags⟩
  case latest =>
    intro r' mem
    rcases List.mem_append.mp mem with mem | mem
    · exact h.latest r' mem
    · rintro rfl
      have written : r' ∈ writesOf r'.id [e] := mem_writesOf_iff.mpr ⟨rfl, _, mem⟩
      rw [untouched] at written
      cases written
  case stored =>
    rw [same]
    exact h.stored
  case hardware =>
    rw [same]
    exact h.hardware
  case tags =>
    intro part upTo unreleased
    rcases List.prefix_concat_iff.mp upTo with rfl | upTo
    · rw [same]
      apply h.tags since List.prefix_rfl
      intro w mem
      exact unreleased w (List.mem_append_left _ mem)
    · exact h.tags part upTo unreleased

/-- Every record since the registration has tags that the last one begins with. -/
theorem tags_prefix (h : RegisteredAs id journal m r since)
    (unreleased : ∀ w, .wrote .release w ∈ since → w.id ≠ id)
    (mem : w ∈ r :: writesOf id since) : w.tags <+: m.tags := by
  have grow := h.tags since List.prefix_rfl unreleased
  obtain ⟨earlier, whole⟩ := List.getLast?_eq_some_iff.mp h.stored
  rw [whole] at grow mem
  rcases List.mem_append.mp mem with mem | mem
  · exact (List.pairwise_append.mp grow).2.2 w mem m List.mem_cons_self
  · obtain rfl : w = m := List.mem_singleton.mp mem
    exact List.prefix_rfl

/-- A write of the machine that follows on its record goes on. -/
theorem write (h : RegisteredAs id journal m r since) (same : w.id = id)
    (unregistered : cause ≠ .registration) (hardware : w.SameHardware m)
    (tags : cause = .release ∨ m.tags <+: w.tags) :
    RegisteredAs id (journal ++ [.wrote cause w]) w r (since ++ [.wrote cause w]) := by
  have grown : r :: writesOf id (since ++ [.wrote cause w]) = (r :: writesOf id since) ++ [w] := by
    simp [writesOf, same]
  refine ⟨h.registration_concat _, h.id_eq, ?latest, ?stored, ?hardware, ?tags⟩
  case latest =>
    intro r' mem
    rcases List.mem_append.mp mem with mem | mem
    · exact h.latest r' mem
    · cases List.mem_singleton.mp mem
      exact absurd rfl unregistered
  case stored =>
    rw [grown]
    exact List.getLast?_concat
  case hardware =>
    rw [grown]
    intro w' mem
    rcases List.mem_append.mp mem with mem | mem
    · exact h.hardware w' mem
    · rw [List.mem_singleton.mp mem]
      exact hardware.trans h.sameHardware
  case tags =>
    intro part upTo unreleased
    rcases List.prefix_concat_iff.mp upTo with rfl | upTo
    · have before : ∀ w, .wrote .release w ∈ since → w.id ≠ id := by
        intro w mem
        exact unreleased w (List.mem_append_left _ mem)
      have grows : m.tags <+: w.tags := by
        apply tags.resolve_left
        rintro rfl
        exact unreleased w List.mem_concat_self same
      rw [grown, List.pairwise_append]
      refine ⟨h.tags since List.prefix_rfl before, List.pairwise_singleton _ w, ?_⟩
      intro earlier mem last isLast
      rw [List.mem_singleton.mp isLast]
      exact (h.tags_prefix before mem).trans grows
    · exact h.tags part upTo unreleased

end RegisteredAs

/-! ### Runs -/

/-- In a chronicle that does not delete a machine and writes it less than 2⁶⁴ times, the stored
record follows on a registration. -/
theorem Chronicle.registeredAs (chronicle : Chronicle journal s) (kept : .deleted id ∉ journal)
    (few : (writesOf id journal).length < 2 ^ 64) (stored : s.machine? id = some m) :
    ∃ r since, RegisteredAs id journal m r since := by
  induction chronicle generalizing m with
  | start => cases stored
  | other _ same ih =>
      rw [Store.machine?, same] at stored
      exact ih kept few stored
  | @write journal s after cause w chronicle write ih =>
      have keptBefore : .deleted id ∉ journal := fun mem => kept (List.mem_append_left _ mem)
      have fewBefore : (writesOf id journal).length < 2 ^ 64 := by
        rw [writesOf_append, List.length_append] at few
        omega
      rw [write.wrote.store, Store.machine?_putMachine] at stored
      by_cases same : w.id = id
      · subst same
        rw [if_pos rfl] at stored
        cases stored
        by_cases registered : cause = .registration
        · subst registered
          exact ⟨w, [], .start journal w⟩
        · obtain ⟨before, found, hardware, tags⟩ :=
            write.follows_stored registered chronicle keptBefore fewBefore
          obtain ⟨r, since, sofar⟩ := ih keptBefore fewBefore found
          exact ⟨r, _, sofar.write rfl registered hardware tags⟩
      · rw [if_neg (Ne.symm same)] at stored
        obtain ⟨r, since, sofar⟩ := ih keptBefore fewBefore stored
        exact ⟨r, _, sofar.other (by simp [writesOf, same])⟩
  | @delete journal s gone _ ih =>
      have keptBefore : .deleted id ∉ journal := fun mem => kept (List.mem_append_left _ mem)
      have other : id ≠ gone := by
        rintro rfl
        exact kept List.mem_concat_self
      rw [Store.machine?_deleteMachine, if_neg other] at stored
      have sameWrites : writesOf id (journal ++ [.deleted gone]) = writesOf id journal := by
        simp [writesOf]
      rw [sameWrites] at few
      obtain ⟨r, since, sofar⟩ := ih keptBefore few stored
      exact ⟨r, _, sofar.other rfl⟩

/-- However callers use genuine copies, outdated ones included, a stored machine that was not deleted
and was written less than 2⁶⁴ times has the name, the partition, the size, the rack and the
administrative state of its last registration, as all its records since then do. From that
registration to the next release of the machine its tags begin with the registered ones and only
grow. -/
theorem stored_as_registered (run : CallerRun journal s) (id : String)
    (kept : .deleted id ∉ journal) (few : (writesOf id journal).length < 2 ^ 64)
    (stored : s.machine? id = some m) :
    ∃ past r since, journal = past ++ .wrote .registration r :: since ∧ r.id = id ∧
      (∀ r', .wrote .registration r' ∈ since → r'.id ≠ id) ∧
      m.SameHardware r ∧ (r :: writesOf id since).getLast? = some m ∧
      (∀ w ∈ writesOf id since, w.SameHardware r) ∧
      ∀ part, part <+: since → (∀ w, .wrote .release w ∈ part → w.id ≠ id) →
        (r :: writesOf id part).Pairwise (·.tags <+: ·.tags) := by
  obtain ⟨r, since, registered⟩ := run.chronicle.registeredAs kept few stored
  obtain ⟨past, whole⟩ := registered.registration
  refine ⟨past, r, since, whole, registered.id_eq, registered.latest, registered.sameHardware,
    registered.stored, ?_, registered.tags⟩
  intro w mem
  exact registered.hardware w (List.mem_cons_of_mem _ mem)

/-- A machine that was moved stays where it is: a claim of the copy from before the move fails, and
when the machine is allocated it keeps the new rack and the tags registered there. -/
theorem moved_machine_stays_moved :
    let idle := { Machine.idle "m" with tags := ["ssd"] }
    let old := { idle with changed := 1 }
    let moved := { idle with rack := "r2", tags := ["hdd"], changed := 2 }
    let c := { moved with preallocated := true, changed := 3 }
    let a : Allocation := ⟨"a", "c", "x", .machine, [], [], 0⟩
    let bound := { c with
      waiting := false, allocation := some a, tags := ["hdd", "db"], changed := 4 }
    let journal : List Entry := [.wrote .registration old, .wrote .registration moved,
      .wrote .claim c, .wrote .allocation bound]
    ∃ s, CallerRun journal s ∧ s.machine? "m" = some bound ∧
      ∃ past r since, journal = past ++ .wrote .registration r :: since ∧ bound.SameHardware r ∧
        (r :: writesOf "m" since).Pairwise (·.tags <+: ·.tags) := by
  intro idle old moved c a bound journal
  have first : CallerRun (journal.take 1) (Store.empty.putMachine old) :=
    CallerRun.start.perform (.register idle) trivial (by decide)
  have second : CallerRun (journal.take 2) (Store.empty.putMachine moved) :=
    first.perform (.register moved) trivial (by decide)
  have failed : CallerRun (journal.take 2) (Store.empty.putMachine moved) :=
    second.perform (.claim old) ⟨.registration, by decide⟩ (by decide)
  have claimed : CallerRun (journal.take 3) (Store.empty.putMachine c) :=
    failed.perform (.claimMachine "m") trivial (by decide)
  have run : CallerRun journal (Store.empty.putMachine bound) :=
    claimed.perform (.attach c a ["db"]) ⟨.claim, by decide⟩ (by decide)
  have stored : (Store.empty.putMachine bound).machine? "m" = some bound := by decide
  obtain ⟨past, r, since, whole, -, -, hardware, -, -, tags⟩ :=
    stored_as_registered run "m" (by decide) (by decide) stored
  refine ⟨_, run, stored, past, r, since, whole, hardware, tags since List.prefix_rfl ?_⟩
  intro w mem
  have released : .wrote .release w ∈ journal := by
    rw [whole]
    simp [mem]
  simp [journal] at released

/-- The marker of a machine can go around, and then the copy from before a move is taken for current:
its claim puts the machine back into its old rack, which is not the one it was last registered in. -/
theorem old_rack_back_when_markers_go_around :
    ∃ past r since s m, CallerRun (past ++ .wrote .registration r :: since) s ∧
      .deleted "m" ∉ past ++ .wrote .registration r :: since ∧ r.id = "m" ∧
      (∀ r', .wrote .registration r' ∈ since → r'.id ≠ "m") ∧
      s.machine? "m" = some m ∧ m.rack ≠ r.rack := by
  let idle := Machine.idle "m"
  let old := { idle with changed := 1 }
  let moved := { idle with rack := "r2", changed := 2 }
  have first : CallerRun [.wrote .registration old] (Store.empty.putMachine old) :=
    CallerRun.start.perform (.register idle) trivial (by decide)
  have second : CallerRun ([.wrote .registration old] ++ [.wrote .registration moved])
      (Store.empty.putMachine moved) :=
    first.perform (.register moved) trivial (by decide)
  -- All further registrations are of the moved machine.
  let endsMoved (s : Store) : Prop :=
    ∃ past r, CallerRun (past ++ [.wrote .registration r]) s ∧ .deleted "m" ∉ past ∧
      IsCopy past old ∧ r.id = "m" ∧ r.rack = "r2"
  have registers : ∀ s written after, endsMoved s → s.register moved = .ok (written, after) →
      endsMoved after := by
    rintro s written after ⟨past, r, run, undeleted, isCopy, -, -⟩ registered
    have effect : (Operation.register moved).effect s =
        ([.wrote .registration written], after) := by
      rw [Operation.effect, registered]
      rfl
    obtain ⟨-, rfl, -⟩ := Store.register_eq_ok_iff.mp registered
    exact ⟨_, _, run.perform (.register moved) trivial effect, by simpa using undeleted,
      isCopy.append _, rfl, rfl⟩
  have start : endsMoved (Store.empty.putMachine moved) :=
    ⟨_, _, second, by decide, ⟨.registration, by decide⟩, rfl, rfl⟩
  obtain ⟨s, ⟨past, r, run, undeleted, isCopy, sameId, newRack⟩, stored⟩ :=
    Store.exists_registered (m := moved) rfl registers start (by decide) (2 ^ 64 - 1)
  have around : moved.changed + UInt64.ofNat (2 ^ 64 - 1) = old.changed := by decide
  rw [around] at stored
  have claimed : s.claim old = .ok (old.claimed, s.putMachine old.claimed) :=
    Store.claim_eq_ok_iff.mpr ⟨⟨_, stored, rfl⟩, rfl, rfl⟩
  have effect : (Operation.claim old).effect s =
      ([.wrote .claim old.claimed], s.putMachine old.claimed) := by
    rw [Operation.effect, claimed]
    rfl
  have final := run.perform (.claim old) (isCopy.append _) effect
  rw [List.append_assoc] at final
  refine ⟨past, r, [.wrote .claim old.claimed], _, _, final, by simpa using undeleted, sameId,
    by simp, Store.machine?_putMachine_self s old.claimed, ?_⟩
  rw [newRack]
  decide

end MachinePool
