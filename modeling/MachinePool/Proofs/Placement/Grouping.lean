import MachinePool.Placement.Grouping
import MachinePool.Proofs.Table
import Mathlib.Data.List.Nodup
import Mathlib.Data.List.Perm.Basic

/-!
What stands in the groups of a grouping, and which machines its members are.

* `group_byRack`, `group_byTags`: the group of a rack holds the machines of the
  rack, that of a tag every machine once for each time it carries the tag, both
  in the order in which the machines were given.
* `perm_members_restrict`: if the groups that are kept hold just the machines with
  some property, then among machines with distinct ids these are the members, each
  once, in however many groups they stand.
* `members_restrict_byRack`: no machine stands in two racks, so the members of some
  racks are listed rack by rack.
-/

namespace MachinePool

variable {m : Machine} {machines : List Machine} {rack tag : String} {keys seen : List String}

def Machine.carries (m : Machine) (tags : List String) : Bool := tags.any m.tags.contains

theorem Machine.carries_iff {tags : List String} :
    m.carries tags = true ↔ ∃ tag ∈ tags, tag ∈ m.tags := by
  simp [carries]

namespace Grouping

/-! ### Groups -/

theorem group_add (g : Grouping) (key : String) (m : Machine) (asked : String) :
    (g.add key m).group asked = if asked = key then g.group asked ++ [m] else g.group asked := by
  unfold add group
  rw [Table.get?_insert]
  split <;> simp_all

/-- A machine that is added under several keys stands in a group as often as the group's key is
among them. -/
theorem group_foldl_add (g : Grouping) (keys : List String) (m : Machine) (asked : String) :
    (keys.foldl (fun g key => g.add key m) g).group asked =
      g.group asked ++ List.replicate (keys.count asked) m := by
  induction keys generalizing g with
  | nil => simp
  | cons key keys ih =>
      rw [List.foldl_cons, ih, group_add]
      by_cases same : asked = key
      · subst same
        simp [List.replicate_succ]
      · simp [same, List.count_cons_of_ne (Ne.symm same)]

theorem byRack_concat (machines : List Machine) (m : Machine) :
    byRack (machines ++ [m]) = (byRack machines).add m.rack m := by
  simp [byRack]

theorem byTags_concat (machines : List Machine) (m : Machine) :
    byTags (machines ++ [m]) = m.tags.foldl (fun g tag => g.add tag m) (byTags machines) := by
  simp [byTags]

/-- A rack's group holds its machines in the order in which they were given. -/
theorem group_byRack (machines : List Machine) (rack : String) :
    (byRack machines).group rack = machines.filter (·.rack = rack) := by
  induction machines using List.reverseRecOn with
  | nil => rfl
  | append_singleton machines m ih =>
      rw [byRack_concat, group_add, List.filter_append, ih]
      by_cases same : m.rack = rack
      · simp [same]
      · simp [same, Ne.symm same]

theorem mem_group_byRack : m ∈ (byRack machines).group rack ↔ m ∈ machines ∧ m.rack = rack := by
  rw [group_byRack, List.mem_filter, decide_eq_true_iff]

/-- A tag's group holds every machine once for each time it carries the tag. -/
theorem group_byTags (machines : List Machine) (tag : String) :
    (byTags machines).group tag =
      machines.flatMap fun m => List.replicate (m.tags.count tag) m := by
  induction machines using List.reverseRecOn with
  | nil => rfl
  | append_singleton machines m ih =>
      rw [byTags_concat, group_foldl_add, ih]
      simp

theorem mem_group_byTags : m ∈ (byTags machines).group tag ↔ m ∈ machines ∧ tag ∈ m.tags := by
  rw [group_byTags, List.mem_flatMap]
  constructor
  · rintro ⟨_, listed, copies⟩
    obtain ⟨carried, rfl⟩ := List.mem_replicate.mp copies
    exact ⟨listed, List.count_pos_iff.mp (Nat.pos_of_ne_zero carried)⟩
  · rintro ⟨listed, carried⟩
    exact ⟨m, listed, List.mem_replicate.mpr ⟨Nat.ne_of_gt (List.count_pos_iff.mpr carried), rfl⟩⟩

theorem count_byRack (machines : List Machine) (rack : String) :
    (byRack machines).count rack = machines.countP (·.rack = rack) := by
  rw [count, group_byRack, List.countP_eq_length_filter]

/-- A rack is a key exactly when one of the machines stands in it. -/
theorem mem_keys_byRack : rack ∈ (byRack machines).keys ↔ ∃ m ∈ machines, m.rack = rack := by
  induction machines using List.reverseRecOn with
  | nil => simp [byRack, Table.keys, Table.empty]
  | append_singleton machines m ih =>
      rw [Table.mem_keys_iff] at ih ⊢
      rw [byRack_concat, add, Table.get?_insert]
      by_cases same : rack = m.rack
      · simp [same]
      · rw [if_neg same, ih]
        simp [Ne.symm same]

/-! ### Kept groups -/

/-- The machines of a restricted grouping are those of the groups that were kept. -/
theorem mem_flatten_restrict_iff {g : Grouping} :
    m ∈ (g.restrict keys).values.flatten ↔ ∃ key ∈ keys, m ∈ g.group key := by
  have held : ∀ {key : String}, m ∈ g.group key ↔ ∃ machines, g.get? key = some machines ∧
      m ∈ machines := by
    intro key
    unfold group
    cases g.get? key <;> simp
  simp only [List.mem_flatten, Table.mem_values_iff, restrict, Table.get?_filterKeys, held]
  constructor
  · rintro ⟨machines, ⟨key, found⟩, inside⟩
    split at found
    · next kept => exact ⟨key, List.contains_iff_mem.mp kept, machines, found, inside⟩
    · cases found
  · rintro ⟨key, kept, machines, found, inside⟩
    exact ⟨machines, ⟨key, by rw [if_pos (List.contains_iff_mem.mpr kept), found]⟩, inside⟩

/-- The groups that are kept, in the order of their keys. -/
theorem values_restrict (g : Grouping) (keys : List String) :
    (g.restrict keys).values = (g.keys.filter keys.contains).map g.group := by
  have found : ∀ e ∈ g.entries, g.group e.1 = e.2 := by
    intro e mem
    rw [group, (Table.mem_entries_iff g).mp mem, Option.getD_some]
  simp only [restrict, Table.filterKeys, Table.values, Table.keys, List.filter_map, List.map_map]
  refine List.map_congr_left fun e mem => ?_
  exact (found e (List.mem_of_mem_filter mem)).symm

/-! ### Members -/

theorem mem_of_mem_distinctFrom (mem : m ∈ distinctFrom seen machines) : m ∈ machines := by
  induction machines generalizing seen with
  | nil => cases mem
  | cons first rest ih =>
      unfold distinctFrom at mem
      split at mem
      · exact List.mem_cons_of_mem _ (ih mem)
      · rcases List.mem_cons.mp mem with rfl | later
        · exact List.mem_cons_self
        · exact List.mem_cons_of_mem _ (ih later)

/-- No id comes twice, and none that was seen before comes at all. -/
theorem nodup_distinctFrom (seen : List String) (machines : List Machine) :
    ((distinctFrom seen machines).map (·.id)).Nodup ∧
      ∀ id ∈ seen, id ∉ (distinctFrom seen machines).map (·.id) := by
  induction machines generalizing seen with
  | nil => simp [distinctFrom]
  | cons first rest ih =>
      unfold distinctFrom
      split
      · exact ih seen
      · next fresh =>
          obtain ⟨distinct, unseen⟩ := ih (first.id :: seen)
          refine ⟨List.nodup_cons.mpr ⟨unseen _ List.mem_cons_self, distinct⟩, ?_⟩
          intro id known again
          rcases List.mem_cons.mp again with rfl | later
          · exact fresh known
          · exact unseen id (List.mem_cons_of_mem _ known) later

/-- Where an id names one machine only, every machine whose id was not seen stays. -/
theorem mem_distinctFrom_iff
    (unique : ∀ a ∈ machines, ∀ b ∈ machines, a.id = b.id → a = b) :
    m ∈ distinctFrom seen machines ↔ m ∈ machines ∧ m.id ∉ seen := by
  induction machines generalizing seen with
  | nil => simp [distinctFrom]
  | cons first rest ih =>
      have others : ∀ seen, m ∈ distinctFrom seen rest ↔ m ∈ rest ∧ m.id ∉ seen := fun seen =>
        ih fun a memA b memB =>
          unique a (List.mem_cons_of_mem _ memA) b (List.mem_cons_of_mem _ memB)
      unfold distinctFrom
      split
      · next known =>
          rw [others, List.mem_cons]
          constructor
          · rintro ⟨mem, fresh⟩
            exact ⟨.inr mem, fresh⟩
          · rintro ⟨rfl | mem, fresh⟩
            · exact absurd known fresh
            · exact ⟨mem, fresh⟩
      · next new =>
          rw [List.mem_cons, List.mem_cons, others, List.mem_cons, not_or]
          constructor
          · rintro (rfl | ⟨mem, -, fresh⟩)
            · exact ⟨.inl rfl, new⟩
            · exact ⟨.inr mem, fresh⟩
          · rintro ⟨rfl | mem, fresh⟩
            · exact .inl rfl
            · by_cases same : m.id = first.id
              · exact .inl (unique m (List.mem_cons_of_mem _ mem) first List.mem_cons_self same)
              · exact .inr ⟨mem, same, fresh⟩

/-- Machines with distinct ids, none of them seen before, all stay. -/
theorem distinctFrom_eq_self (fresh : ∀ m ∈ machines, m.id ∉ seen)
    (ids : (machines.map (·.id)).Nodup) : distinctFrom seen machines = machines := by
  induction machines generalizing seen with
  | nil => rfl
  | cons first rest ih =>
      obtain ⟨firstFresh, restFresh⟩ := List.forall_mem_cons.mp fresh
      obtain ⟨alone, restIds⟩ := List.nodup_cons.mp ids
      have unseen : ∀ m ∈ rest, m.id ∉ first.id :: seen := by
        intro m mem
        rw [List.mem_cons, not_or]
        exact ⟨fun same => alone (List.mem_map.mpr ⟨m, mem, same⟩), restFresh m mem⟩
      rw [distinctFrom, if_neg firstFresh, ih unseen restIds]

/-- A member of a restricted grouping stands in one of the groups that were kept. -/
theorem exists_group_of_mem_members_restrict {g : Grouping}
    (mem : m ∈ (g.restrict keys).members) : ∃ key ∈ keys, m ∈ g.group key :=
  mem_flatten_restrict_iff.mp (mem_of_mem_distinctFrom mem)

/-- A machine of a group that is kept stands among the members, if only under the same id. -/
theorem members_restrict_ne_nil {g : Grouping} {key : String}
    (kept : key ∈ keys) (inside : m ∈ g.group key) : (g.restrict keys).members ≠ [] := by
  have among : m ∈ (g.restrict keys).values.flatten :=
    mem_flatten_restrict_iff.mpr ⟨key, kept, inside⟩
  unfold members
  cases all : (g.restrict keys).values.flatten with
  | nil => simp [all] at among
  | cons first rest => simp [distinctFrom]

/-- Among machines with distinct ids, the members of groups that hold just those of some kind are the
machines of this kind, each once. -/
theorem perm_members_restrict {g : Grouping} {kind : Machine → Bool}
    (ids : (machines.map (·.id)).Nodup)
    (held : ∀ m, (∃ key ∈ keys, m ∈ g.group key) ↔ m ∈ machines ∧ kind m = true) :
    (g.restrict keys).members.Perm (machines.filter kind) := by
  have inside : ∀ {m : Machine}, m ∈ (g.restrict keys).values.flatten ↔
      m ∈ machines ∧ kind m = true := by
    intro m
    rw [mem_flatten_restrict_iff, held]
  have unique : ∀ a ∈ (g.restrict keys).values.flatten,
      ∀ b ∈ (g.restrict keys).values.flatten, a.id = b.id → a = b :=
    fun a memA b memB => List.inj_on_of_nodup_map ids (inside.mp memA).1 (inside.mp memB).1
  have distinct : (g.restrict keys).members.Nodup := (nodup_distinctFrom [] _).1.of_map
  refine (List.perm_ext_iff_of_nodup distinct (ids.of_map.filter _)).mpr fun m => ?_
  rw [members, mem_distinctFrom_iff unique, inside, List.mem_filter]
  simp

theorem perm_members_byRack (ids : (machines.map (·.id)).Nodup) (racks : List String) :
    ((byRack machines).restrict racks).members.Perm (machines.filter (·.rack ∈ racks)) := by
  refine perm_members_restrict ids fun m => ?_
  simp only [mem_group_byRack, decide_eq_true_eq]
  constructor
  · rintro ⟨_, kept, listed, rfl⟩
    exact ⟨listed, kept⟩
  · rintro ⟨listed, kept⟩
    exact ⟨m.rack, kept, listed, rfl⟩

theorem perm_members_byTags (ids : (machines.map (·.id)).Nodup) (tags : List String) :
    ((byTags machines).restrict tags).members.Perm (machines.filter (·.carries tags)) := by
  refine perm_members_restrict ids fun m => ?_
  simp only [mem_group_byTags, Machine.carries_iff]
  constructor
  · rintro ⟨tag, wanted, listed, carried⟩
    exact ⟨listed, tag, wanted, carried⟩
  · rintro ⟨listed, tag, wanted, carried⟩
    exact ⟨tag, wanted, listed, carried⟩

/-! ### Members rack by rack -/

/-- No machine of a rack stands in another rack. -/
theorem nodup_ids_flatMap_racks (ids : (machines.map (·.id)).Nodup) {racks : List String}
    (distinct : racks.Nodup) :
    ((racks.flatMap fun rack => machines.filter (·.rack = rack)).map (·.id)).Nodup := by
  rw [List.map_flatMap, List.nodup_flatMap]
  constructor
  · intro rack _
    exact ids.sublist (List.filter_sublist.map _)
  · refine distinct.imp fun {first second} different => ?_
    apply List.disjoint_left.mpr
    intro id inFirst inSecond
    obtain ⟨m, mem, rfl⟩ := List.mem_map.mp inFirst
    obtain ⟨other, mem', same⟩ := List.mem_map.mp inSecond
    obtain ⟨listed, stands⟩ := List.mem_filter.mp mem
    obtain ⟨listed', stands'⟩ := List.mem_filter.mp mem'
    have one : other = m := List.inj_on_of_nodup_map ids listed' listed same
    subst one
    exact different ((of_decide_eq_true stands).symm.trans (of_decide_eq_true stands'))

/-- Among machines with distinct ids the members of some racks are the machines in them, rack by
rack. -/
theorem members_restrict_byRack (ids : (machines.map (·.id)).Nodup) (keys : List String) :
    ((byRack machines).restrict keys).members =
      ((byRack machines).keys.filter keys.contains).flatMap fun rack =>
        machines.filter (·.rack = rack) := by
  have groups : (byRack machines).group = fun rack => machines.filter (·.rack = rack) :=
    funext (group_byRack machines)
  have racks : ((byRack machines).keys.filter keys.contains).Nodup :=
    (Table.nodup_keys _).filter _
  rw [members, values_restrict, groups, ← List.flatMap_def]
  exact distinctFrom_eq_self (fun _ _ => List.not_mem_nil) (nodup_ids_flatMap_racks ids racks)

end Grouping

end MachinePool
