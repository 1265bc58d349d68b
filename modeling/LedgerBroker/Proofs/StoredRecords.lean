import LedgerBroker.Proofs.Call
import LedgerBroker.Proofs.JsonText
import LedgerBroker.Proofs.TimestampReading
import LedgerBroker.Store.Redis

set_option autoImplicit false

namespace LedgerBroker

open Json Json.Reader

theorem Json.Reader.Takes.timestamp (t : Timestamp) : Takes timestamp (quote t.write) t := by
  intro rest ended
  rw [Reader.timestamp, run_bind_ok (Takes.string t.write rest ended), Timestamp.read_write]
  rfl

namespace Binding

theorem takes (b : Binding) : Takes Binding.reader b.json.write b := by
  have fills : Fills slots [("id", .str b.id), ("service_instance_id", .str b.instanceId),
      ("created_at", .str b.createdAt.write)] ({} : Draft)
      ⟨some b.id, some b.instanceId, some b.createdAt⟩ := by
    refine .field rfl rfl (.slot (.string b.id) _) ?_
    refine .field rfl rfl (.slot (.string b.instanceId) _) ?_
    exact .field rfl rfl (.slot (.timestamp b.createdAt) _) (.done _)
  exact .record fills rfl

end Binding

namespace Instance

def opening (i : Instance) : Draft where
  id := some i.id
  deployment := some i.deployment
  network := some i.network
  blockchainNetworkId := some i.blockchainNetworkId
  serviceId := some i.request.serviceId
  planId := some i.request.planId
  organizationGuid := some i.request.organizationGuid
  spaceGuid := some i.request.spaceGuid
  provisionTask := some i.provisionTask

def closed (i : Instance) (d : Draft) : Draft :=
  { d with createdAt := some i.createdAt, updatedAt := some i.updatedAt }

theorem fills_closed (i : Instance) {d : Draft} (created : d.createdAt = none)
    (updated : d.updatedAt = none) :
    Fills slots [("created_at", .str i.createdAt.write), ("updated_at", .str i.updatedAt.write)]
      d (i.closed d) := by
  refine .field rfl ?_ (.slot (.timestamp i.createdAt) _) ?_
  · simp [Slot.of, created]
  refine .field rfl ?_ (.slot (.timestamp i.updatedAt) _) (.done _)
  simp [Slot.of, updated]

theorem fills_opening (i : Instance) {others : List (String × Json)} {final : Draft}
    (rest : Fills slots others i.opening final) : Fills slots ([
      ("id", .str i.id),
      ("deployment_name", .str i.deployment),
      ("network_name", .str i.network),
      ("blockchain_network_id", .str i.blockchainNetworkId),
      ("service_id", .str i.request.serviceId),
      ("plan_id", .str i.request.planId),
      ("organization_guid", .str i.request.organizationGuid),
      ("space_guid", .str i.request.spaceGuid),
      ("provision_task_id", .str i.provisionTask)] ++ others) ({} : Draft) final := by
  refine .field rfl rfl (.slot (.string i.id) _) ?_
  refine .field rfl rfl (.slot (.string i.deployment) _) ?_
  refine .field rfl rfl (.slot (.string i.network) _) ?_
  refine .field rfl rfl (.slot (.string i.blockchainNetworkId) _) ?_
  refine .field rfl rfl (.slot (.string i.request.serviceId) _) ?_
  refine .field rfl rfl (.slot (.string i.request.planId) _) ?_
  refine .field rfl rfl (.slot (.string i.request.organizationGuid) _) ?_
  refine .field rfl rfl (.slot (.string i.request.spaceGuid) _) ?_
  exact .field rfl rfl (.slot (.string i.provisionTask) _) rest

theorem fills_deletion (i : Instance) {others : List (String × Json)} {final : Draft}
    (rest : Fills slots others
      { i.opening with deprovisionTask := i.deprovisionTask.map some } final) :
    Fills slots (Json.optionalField "deprovision_task_id" i.deprovisionTask ++ others)
      i.opening final := by
  -- Where there is no deletion there is no such field to read.
  cases deletion : i.deprovisionTask with
  | none =>
    rw [deletion] at rest
    exact rest
  | some task =>
    rw [deletion] at rest
    exact .field rfl rfl (.slot (.optional task) _) rest

theorem takes (i : Instance) : Takes Instance.reader i.json.write i := by
  have fills := i.fills_opening (i.fills_deletion (i.fills_closed rfl rfl))
  have read : (i.deprovisionTask.map some).getD none = i.deprovisionTask := by
    cases i.deprovisionTask <;> rfl
  have finished : Draft.finish
      (i.closed { i.opening with deprovisionTask := i.deprovisionTask.map some }) = some i := by
    simp [Draft.finish, closed, opening, read]
  rw [json, List.append_assoc]
  exact .record fills finished

end Instance

namespace RedisStore

theorem ofString_text (record : Json) : Bytes.ofString (text record) = record.write :=
  record.write_isText.ofString_text

theorem read_instance (i : Instance) :
    Instance.reader.run (Bytes.ofString (text i.json)) = .ok i := by
  rw [ofString_text]
  exact i.takes.run

theorem read_binding (b : Binding) :
    Binding.reader.run (Bytes.ofString (text b.json)) = .ok b := by
  rw [ofString_text]
  exact b.takes.run

/-- Both records are read back from the text they are stored as; so what any accepted text is read
as is what the text stored for it is read as. -/
theorem records_survive_text :
    (∀ i : Instance, Instance.reader.run (Bytes.ofString (text i.json)) = .ok i) ∧
    (∀ b : Binding, Binding.reader.run (Bytes.ofString (text b.json)) = .ok b) ∧
    (∀ (document : Bytes) (i : Instance), Instance.reader.run document = .ok i →
      Instance.reader.run (Bytes.ofString (text i.json)) = Instance.reader.run document) ∧
    ∀ (document : Bytes) (b : Binding), Binding.reader.run document = .ok b →
      Binding.reader.run (Bytes.ofString (text b.json)) = Binding.reader.run document :=
  ⟨read_instance, read_binding, fun _ i accepted => (read_instance i).trans accepted.symm,
    fun _ b accepted => (read_binding b).trans accepted.symm⟩

section Sample

def respelled : Bytes := Bytes.ofString
  ("\x7b\"service_instance_id\":\"i\",\"more\":[1,\x7b\x7d]," ++
    "\"created_at\":\"2024-05-06t01:31:02.25+02:30\",\"id\":\"b\"\x7d")

def moment : Timestamp where
  date := ⟨2024, 5, 5, by decide, by decide, by decide⟩
  hour := 23
  minute := 1
  second := 2
  nano := 250000000
  hour_lt := by decide
  minute_lt := by decide
  second_le := by decide
  nano_lt := by decide

theorem read_respelled : Binding.reader.run respelled = .ok ⟨"b", "i", moment⟩ := by
  refine Call.ok_of_toOption ?_
  decide +kernel

theorem records_survive_text_respelled : Binding.reader.run respelled = .ok ⟨"b", "i", moment⟩ ∧
    Binding.reader.run (Bytes.ofString (text (Binding.json ⟨"b", "i", moment⟩))) =
      Binding.reader.run respelled :=
  ⟨read_respelled, records_survive_text.2.2.2 respelled _ read_respelled⟩

end Sample

end RedisStore

end LedgerBroker
