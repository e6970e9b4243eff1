import MachinePool.Placement.Grouping

/-!
Which of the available machines keep a project spread over the racks.

Two elections are held among the racks of the available machines: one elects the
racks that hold the fewest machines of the project, the other those that hold
the fewest project machines with a requested tag. Racks elected by both win;
where there is none, the tags decide alone.
-/

namespace MachinePool.Placement

/-- The racks of `all` that hold the fewest machines in `occupied`, in order. A rack that
`occupied` does not know holds none. -/
def electRacks (all occupied : Grouping) : List String :=
  match (all.keys.map occupied.count).min? with
  | none => []
  | some fewest => all.keys.filter fun rack => occupied.count rack = fewest

/-- The project machines that carry a requested tag, each once. -/
def tagged (project : List Machine) (tags : List String) : List Machine :=
  ((Grouping.byTags project).restrict tags).members

/-- The available machines in the racks the elections choose, by rack. -/
def spread (available project : List Machine) (tags : List String) : List Machine :=
  let racks := Grouping.byRack available
  let byProject := electRacks racks (Grouping.byRack project)
  let byTags := electRacks racks (Grouping.byRack (tagged project tags))
  let agreed := (racks.restrict (byTags.filter byProject.contains)).members
  if agreed = [] then (racks.restrict byTags).members else agreed

end MachinePool.Placement
