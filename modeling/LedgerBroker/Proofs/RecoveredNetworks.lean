import LedgerBroker.Proofs.RecordFields
import LedgerBroker.Proofs.RenderedManifests
import LedgerBroker.Proofs.Requests
import LedgerBroker.Proofs.SimulatedDirector

set_option autoImplicit false

namespace LedgerBroker

open Http (Exchange Reply)

namespace Manifest

variable {m : Manifest} {network : String}

theorem networkOf_yaml (m : Manifest) :
    networkOf (Yaml.ofFields m.yaml) = m.jobs.findSome? (·.networks.head?) := by
  have groups : (["jobs", "instance_groups"].flatMap fun key =>
      (((Yaml.ofFields m.yaml).get? key).bind Yaml.items?).getD []) = m.jobs.map Job.yaml := by
    simp [Yaml.ofFields, yaml, Yaml.get?, Yaml.untagged, Yaml.items?]
  rw [networkOf, groups, List.findSome?_map]
  congr 1
  funext j
  have networks : (Job.yaml j).get? "networks" =
      some (.seq (j.networks.map fun n => Yaml.ofFields [("name", .str n)])) := by
    simp [Job.yaml, Yaml.ofFields, Yaml.get?, Yaml.untagged]
  simp only [Function.comp_apply, networks]
  cases j.networks with
  | nil => rfl
  | cons n others => simp [Yaml.items?, Yaml.ofFields, Yaml.get?, Yaml.untagged, Yaml.text?]

theorem networkOf_placed (placed : m.networkName = some network) :
    networkOf (Yaml.ofFields m.yaml) = some network := by
  obtain ⟨job, first, head⟩ := Option.bind_eq_some_iff.1 placed
  obtain ⟨others, jobs⟩ := List.head?_eq_some_iff.1 first
  rw [networkOf_yaml, jobs, List.findSome?_cons, head]

theorem head_text (m : Manifest) : m.text.toList.head? = some 'n' := by
  have named : Yaml.isName "name" = true := by decide
  rw [text, String.toList_ofList]
  simp only [yaml, List.map_cons, Yaml.document, List.isEmpty_cons, Yaml.entries, Yaml.mapping,
    Yaml.printed_name named]
  rfl

theorem trim_ne_nil {c : Char} (visible : Text.isBlank c = false) (cs : List Char) :
    Text.trim (c :: cs) ≠ [] := by
  have kept : Text.trimStart (c :: cs) = c :: cs := by simp [Text.trimStart, visible]
  have some_ : (c :: cs).reverse.dropWhile Text.isBlank ≠ [] := by
    rw [List.reverse_cons, List.dropWhile_append]
    split
    · simp [visible]
    · simp
  rw [Text.trim, kept, Text.trimEnd]
  simpa using some_

theorem firstNetwork?_text (readable : m.Readable) (placed : m.networkName = some network) :
    firstNetwork? m.text = some (some network) := by
  obtain ⟨rest, starts⟩ := List.head?_eq_some_iff.1 (head_text m)
  have shown : (Text.trim m.text.toList).isEmpty = false := by
    rw [starts]
    simpa using trim_ne_nil (by decide) rest
  rw [firstNetwork?, shown, value_text readable]
  exact congrArg some (networkOf_placed placed)

end Manifest

namespace SimulatedDirector

theorem network_of_create {s : SimulatedDirector} {m : Manifest} {network : String} {task : Task}
    (placed : m.networkName = some network)
    (created : ((director.createDeployment m).exec s).1 = .ok task) :
    ((director.network m.name).exec ((director.createDeployment m).exec s).2).1 =
      .ok (some network) := by
  have added : (s.addDeployment m).network? m.name = _ := network_addDeployment placed
  simp only [director, Call.exec_of] at created ⊢
  split at created
  case isTrue => cases created
  case isFalse works =>
    rw [if_neg works]
    exact congrArg Except.ok (added.trans (if_pos rfl))

end SimulatedDirector

namespace HttpDirector

variable {c : HttpDirector} {x : Exchange} {name text : String}

theorem sends_posted (m : Manifest) : Sends
    (fun r => r.method = .get ∨ r.content = some ⟨"text/yaml", m.text⟩) (c.createDeployment m) := by
  refine sends_placed fun url _ => ?_
  have submitted : Sends (fun r => r.method = .get ∨ r.content = some ⟨"text/yaml", m.text⟩)
      (c.submit .post url (some ⟨"text/yaml", m.text⟩)) :=
    (sends_send (.inr rfl)).bind fun _ => .lift _
  have looked (id : String) : Sends (·.method = .get) (c.task id) := gets_task id
  exact submitted.bind fun id => (looked id).mono fun _ => .inl

/-- The question for a deployment is answered with status 200 and a JSON document whose manifest is
the text. -/
structure Describes (c : HttpDirector) (name text : String) (x : Exchange) : Prop where
  reached : ∃ url, c.endpoint ["deployments", name] = .ok url ∧ isSendable url = true
  answered : ∃ headers document, x.replies.head? = some (some ⟨200, headers, some document⟩) ∧
    Json.Tells "manifest" 0 text document ∧ Json.AtMost 1 document

theorem run_manifestReader {document : Bytes} (tells : Json.Tells "manifest" 0 text document)
    (short : Json.AtMost 1 document) : manifestReader.run document = .ok text := by
  obtain ⟨least, within, reads⟩ := tells.reads (by decide)
  exact reads 0 (within 1 short) (fun d => some (d.getD "")) rfl

theorem network_described (describes : c.Describes name text x) {network : Option String}
    (named : Manifest.firstNetwork? text = some network) :
    ((c.network name).exec x).1 = .ok network := by
  obtain ⟨url, placed, sendable⟩ := describes.reached
  obtain ⟨headers, document, answered, tells, short⟩ := describes.answered
  have decoded : decode manifestReader ⟨200, headers, some document⟩ = .ok text := by
    simp [decode, run_manifestReader tells short, Except.toOption]
  unfold HttpDirector.network
  rw [exec_placed placed, Call.exec_bind_ok (exec_send_answered sendable answered)]
  dsimp only
  rw [if_neg (by decide), if_neg (by decide), Call.exec_bind, Call.exec_lift, decoded]
  dsimp only
  rw [named]
  rfl

end HttpDirector

/-- The network that a rendered manifest puts a deployment on is read off its text again, and so is
known from a Director that hands the text back, just as it is from the simulated one. -/
theorem render_network_recovered (deployment network : String) (permissioned : Bool)
    (details : DirectorDetails) :
    let m := Manifest.render deployment network permissioned details
    Manifest.firstNetwork? m.text = some (some network) ∧ m.networkName = some network ∧
    (∀ c : HttpDirector, HttpDirector.Sends
      (fun r => r.method = .get ∨ r.content = some ⟨"text/yaml", m.text⟩) (c.createDeployment m)) ∧
    ∀ (c : HttpDirector) (x : Exchange), c.Describes deployment m.text x →
      ∀ (s : SimulatedDirector) (task : Task),
        ((SimulatedDirector.director.createDeployment m).exec s).1 = .ok task →
        ((c.network deployment).exec x).1 = .ok (some network) ∧
        ((SimulatedDirector.director.network deployment).exec
          ((SimulatedDirector.director.createDeployment m).exec s).2).1 = .ok (some network) := by
  have placed := SimulatedDirector.networkName_render deployment network permissioned details
  have recovered := Manifest.firstNetwork?_text
    (Manifest.readable_render deployment network permissioned details) placed
  refine ⟨recovered, placed, fun c => HttpDirector.sends_posted _,
    fun c x describes s task created => ⟨?_, ?_⟩⟩
  · exact HttpDirector.network_described describes recovered
  · exact SimulatedDirector.network_of_create placed created

section Sample

open HttpDirector (Describes plainBase)

def nullManifest : Manifest :=
  .render "fabric-a" "null" true
    ⟨"http://director", "stemcell", "uuid", "small", ["null"], "/peer", "/docker", false⟩

def nullDescribed : Exchange where
  replies := [some ⟨200, [], some (Json.obj [("manifest", .str nullManifest.text)]).write⟩]

abbrev plainDirector : HttpDirector := ⟨plainBase, none, .default, .utf8⟩

theorem describes_null : Describes plainDirector "fabric-a" nullManifest.text nullDescribed where
  reached := ⟨_, rfl, by decide +kernel⟩
  answered := ⟨_, _, rfl, Json.tells_write .., Json.atMost_object 1 _⟩

theorem render_network_recovered_null :
    ((plainDirector.network "fabric-a").exec nullDescribed).1 = .ok (some "null") ∧
      ((SimulatedDirector.director.network "fabric-a").exec
        ((SimulatedDirector.director.createDeployment nullManifest).exec .new).2).1 =
          .ok (some "null") :=
  (render_network_recovered "fabric-a" "null" true
    ⟨"http://director", "stemcell", "uuid", "small", ["null"], "/peer", "/docker", false⟩).2.2.2
    _ _ describes_null .new _ rfl

end Sample

end LedgerBroker
