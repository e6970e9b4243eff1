import MachinePool.Proofs.Address
import MachinePool.Proofs.Json.Fields
import MachinePool.Proofs.Json.Values
import MachinePool.Record.Network
import MachinePool.Record.Request

/-!
Records survive their texts.

Whatever a record holds, its text is read as the record: what is absent stays
absent, words for choices, escapes, numbers and addresses are all read back
(`records_lossless`). A text that is read as a record may leave out fields, hold
others, or give them in another order or as an array; what is written for it is
read as the same record and written as itself.
-/

namespace MachinePool

open Json

/-! ### Words and addresses -/

namespace Json

/-- A value is read back from its word if no other one has it. -/
theorem readsBack_choice {α : Type} {wordOf : α → String} {choices : List α}
    (found : ∀ a, choices.find? (wordOf · = wordOf a) = some a) :
    ReadsBack (fun a => text (wordOf a)) (choice? wordOf choices) where
  readBack := found
  ne_null _ := nofun

theorem readsBack_availability : ReadsBack (fun a => text (Availability.word a)) availability? :=
  readsBack_choice fun a => by cases a <;> rfl

theorem readsBack_attachmentType :
    ReadsBack (fun t => text (AttachmentType.word t)) attachmentType? :=
  readsBack_choice fun t => by cases t <;> rfl

theorem readsBack_role : ReadsBack (fun r => text (Role.word r)) role? :=
  readsBack_choice fun r => by cases r <;> rfl

theorem readsBack_liveliness : ReadsBack (fun l => text (Liveliness.word l)) liveliness? :=
  readsBack_choice fun l => by cases l <;> rfl

theorem readsBack_address : ReadsBack address address? where
  readBack a := a.ofText?_text
  ne_null _ := nofun

end Json

/-! ### Machines -/

theorem Attachment.readsBack : ReadsBack toJson ofJson? := by
  refine .of_fields (fun _ => rfl) (by decide) fun a => ?_
  simp only [Fields.required, Fields.find?_cons, String.reduceEq, reduceIte, Option.bind_some,
    readsBack_text.readBack, readsBack_bool.readBack, readsBack_address.list.readBack,
    readsBack_attachmentType.readBack]
  rfl

theorem Allocation.readsBack : ReadsBack toJson ofJson? := by
  refine .of_fields (fun _ => rfl) (by decide) fun a => ?_
  simp only [Fields.required, Fields.orElse, Fields.find?_cons, String.reduceEq, reduceIte,
    Option.bind_some, readsBack_text.readBack, readsBack_word.readBack, readsBack_role.readBack,
    readsBack_text.list.readBack, Attachment.readsBack.list.readBack]
  rfl

theorem AdminState.readsBack : ReadsBack toJson ofJson? := by
  refine .of_fields (fun _ => rfl) (by decide) fun s => ?_
  simp only [Fields.required, Fields.orElse, Fields.find?_cons, String.reduceEq, reduceIte,
    Option.bind_some, readsBack_text.readBack, readsBack_availability.readBack]
  rfl

theorem Machine.readsBack : ReadsBack toJson ofJson? := by
  refine .of_fields (fun _ => rfl) (by decide) fun m => ?_
  simp only [Fields.required, Fields.orElse, Fields.optional, Fields.find?_cons, String.reduceEq,
    reduceIte, Option.bind_some, readsBack_text.readBack, readsBack_bool.readBack,
    readsBack_word.readBack, readsBack_text.list.readBack, AdminState.readsBack.readBack,
    Allocation.readsBack.nullable]
  rfl

theorem Heartbeat.readsBack : ReadsBack toJson ofJson? := by
  refine .of_fields (fun _ => rfl) (by decide) fun h => ?_
  simp only [Fields.required, Fields.find?_cons, String.reduceEq, reduceIte, Option.bind_some,
    readsBack_text.readBack, readsBack_word.readBack, readsBack_liveliness.readBack]
  rfl

/-! ### Networks and leases -/

namespace NetworkKind

/-- A written kind may be kept until its type is known. -/
theorem keepable_toJson (room : Nat) (kind : NetworkKind) : kind.toJson.keepable (room + 1) := by
  cases kind <;> simp [toJson, record, text, keepable, membersKeepable]

theorem tenantOfJson?_record (parent : String) (shared : Bool) :
    tenantOfJson? (record [("parent_network_id", text parent), ("shared", .bool shared)]) =
      some (tenant parent shared) := by
  simp [tenantOfJson?, Fields.required, Fields.orElse, readsBack_text.readBack,
    readsBack_bool.readBack]

theorem readsBack (room : Nat) : ReadsBack toJson (ofJson? (room + 1)) where
  readBack kind := by
    unfold ofJson?
    rw [if_neg (by simp [keepable_toJson room kind])]
    cases kind with
    | tenant parent shared => exact tenantOfJson?_record parent shared
    | privateSuper | underlay | external => rfl
  ne_null kind := by cases kind <;> nofun

end NetworkKind

theorem Network.readsBack (room : Nat) : ReadsBack toJson (ofJson? (room + 1)) := by
  refine .of_fields (fun _ => rfl) (by decide) fun n => ?_
  simp only [Fields.required, Fields.orElse, Fields.optional, Fields.find?_cons, String.reduceEq,
    reduceIte, Option.bind_some, readsBack_text.readBack, readsBack_text.nullable,
    readsBack_text.list.readBack, (NetworkKind.readsBack room).readBack]
  rfl

theorem Lease.readsBack : ReadsBack toJson ofJson? := by
  refine .of_fields (fun _ => rfl) (by decide) fun l => ?_
  simp only [Fields.required, Fields.orElse, Fields.find?_cons, String.reduceEq, reduceIte,
    Option.bind_some, readsBack_text.readBack, readsBack_address.readBack]
  rfl

/-! ### Requests and queries -/

theorem NetworkRequest.readsBack : ReadsBack toJson ofJson? := by
  refine .of_fields (fun _ => rfl) (by decide) fun r => ?_
  simp only [Fields.required, Fields.orElse, Fields.find?_cons, String.reduceEq, reduceIte,
    Option.bind_some, readsBack_text.readBack, readsBack_bool.nullable]
  rfl

theorem Request.readsBack : ReadsBack toJson ofJson? := by
  refine .of_fields (fun _ => rfl) (by decide) fun r => ?_
  simp only [Fields.orElse, Fields.find?_cons, String.reduceEq, reduceIte,
    readsBack_text.readBack, readsBack_role.readBack, readsBack_text.nullable,
    readsBack_text.list.readBack, NetworkRequest.readsBack.list.readBack]
  rfl

theorem Query.readsBack : ReadsBack toJson ofJson? := by
  refine .of_fields (fun _ => rfl) (by decide) fun q => ?_
  simp only [Fields.orElse, Fields.find?_cons, String.reduceEq, reduceIte,
    readsBack_text.nullable, readsBack_bool.nullable, readsBack_role.nullable,
    readsBack_availability.nullable, readsBack_text.list.readBack]
  rfl

/-! ### Texts of records -/

namespace Json

variable {α : Type} {write : α → Json} {read? : Json → Option α}

def readText? (read? : Json → Option α) (t : String) : Option α := (parse? t).bind read?

def echo? (write : α → Json) (read? : Json → Option α) (t : String) : Option String :=
  (readText? read? t).map fun a => (write a).render

/-- The texts of records stand for them. -/
structure Lossless (write : α → Json) (read? : Json → Option α) : Prop where
  /-- The text written for a record is read as the record. -/
  readBack : ∀ a, readText? read? (write a).render = some a
  /-- Whatever text is read as a record, what is written for it is read as the same record and
  written as itself. -/
  echoed : ∀ t a, readText? read? t = some a → ∃ written, echo? write read? t = some written ∧
    readText? read? written = some a ∧ echo? write read? written = some written

/-- Records that are read back from their values are read back from their texts. -/
theorem ReadsBack.lossless (back : ReadsBack write read?) : Lossless write read? := by
  have readBack : ∀ a, readText? read? (write a).render = some a := fun a => by
    rw [readText?, parse?_render, Option.bind_some, back.readBack]
  constructor
  · exact readBack
  · intro t a accepted
    refine ⟨(write a).render, ?_, readBack a, ?_⟩
    · rw [echo?, accepted]
      rfl
    · rw [echo?, readBack a]
      rfl

end Json

/-- The texts of machines, networks, leases, requests, queries and reports stand for them, those of
networks however deep the containers in a kind may nest. -/
theorem records_lossless :
    Lossless Machine.toJson Machine.ofJson? ∧
    (∀ room, Lossless Network.toJson (Network.ofJson? (room + 1))) ∧
    Lossless Lease.toJson Lease.ofJson? ∧ Lossless Request.toJson Request.ofJson? ∧
    Lossless Query.toJson Query.ofJson? ∧ Lossless Heartbeat.toJson Heartbeat.ofJson? := by
  refine ⟨?machines, ?networks, ?leases, ?requests, ?queries, ?reports⟩
  case machines => exact Machine.readsBack.lossless
  case networks => exact fun room => (Network.readsBack room).lossless
  case leases => exact Lease.readsBack.lossless
  case requests => exact Request.readsBack.lossless
  case queries => exact Query.readsBack.lossless
  case reports => exact Heartbeat.readsBack.lossless

/-- A lease as an array of its fields, with its address and a name spelled at length. -/
example : readText? Lease.ofJson? " [\"::0A00:1\", \"\\u0064b\" ,\"x\",\"net\"] " =
    some ⟨.v6 ⟨[0, 0, 0, 0, 0, 0, 0xa00, 1], rfl⟩, "db", "x", "net"⟩ := by
  decide +kernel

end MachinePool
