import MachinePool.Machine
import MachinePool.Table

/-!
Machines grouped by rack or by tag.

A group lists its machines in the order in which they were given. A machine
stands in the group of its rack, and once in the group of a tag for each time it
carries the tag. `members` lists the machines of all groups, each id once.
-/

namespace MachinePool

/-- Groups of machines under a rack or a tag. No group is empty. -/
abbrev Grouping := Table (List Machine)

namespace Grouping

/-- The machines of a group; an absent group has none. -/
def group (g : Grouping) (key : String) : List Machine := (g.get? key).getD []

def add (g : Grouping) (key : String) (m : Machine) : Grouping :=
  g.insert key (g.group key ++ [m])

def byRack (machines : List Machine) : Grouping :=
  machines.foldl (fun g m => add g m.rack m) Table.empty

def byTags (machines : List Machine) : Grouping :=
  machines.foldl (fun g m => m.tags.foldl (fun g tag => add g tag m) g) Table.empty

/-- The groups whose keys are listed. -/
def restrict (g : Grouping) (keys : List String) : Grouping := g.filterKeys keys.contains

/-- The first machine of every id that is not in `seen`. -/
def distinctFrom (seen : List String) : List Machine → List Machine
  | [] => []
  | m :: ms =>
    if m.id ∈ seen then distinctFrom seen ms else m :: distinctFrom (m.id :: seen) ms

/-- The machines of all groups in the order of the keys, each id once. -/
def members (g : Grouping) : List Machine := distinctFrom [] g.values.flatten

def count (g : Grouping) (key : String) : Nat := (g.group key).length

end Grouping

end MachinePool
