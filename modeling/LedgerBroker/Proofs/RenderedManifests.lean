import LedgerBroker.Director.Template
import LedgerBroker.Proofs.ManifestReading

set_option autoImplicit false

namespace LedgerBroker

open Yaml (Style Manner Layout Scalar isName)

/-- The manner of the bundled templates: zones between brackets, numbers that are texts in double
quotes, and all else as the printer has it. -/
def Yaml.Manner.bundled : Manner where
  style s := if s.toList.all Char.isDigit then .double else Style.of s
  brackets ws := ws = ["z1", "z2"]
  fits s := by
    split
    · rfl
    · exact Style.fits_of s
  clear s := by
    split
    · nofun
    · exact Style.of_plain
  words ws := by
    intro zones
    obtain rfl : ws = ["z1", "z2"] := of_decide_eq_true zones
    decide

namespace Manifest

def Template.manifest (permissioned : Bool) : Manifest :=
  if permissioned then Template.permissioned else Template.permissionless

theorem Template.toList_text (permissioned : Bool) : (Template.text permissioned).toList =
    '-' :: '-' :: '-' :: '\n' :: Layout.entriesText 0 (Manner.bundled.entries
      ((Template.manifest permissioned).yaml.map fun e => (.str e.1, e.2))) := by
  rw [Template.text, String.toList_ofList]
  cases permissioned <;> decide +kernel

theorem legible_settings : Yaml.Legible 126 Membership.settings := ⟨by decide +kernel, by decide⟩

theorem readable_template (permissioned : Bool) : (Template.manifest permissioned).Readable := by
  cases permissioned
  case false =>
    exact ⟨by decide, by decide, by decide, by decide, ⟨by decide, by decide⟩, ⟨by decide, by decide⟩,
      nofun⟩
  case true =>
    refine ⟨by decide, by decide, by decide, by decide, ⟨by decide, by decide⟩,
      ⟨by decide, by decide⟩, ?_⟩
    rintro y ⟨⟩
    exact ⟨legible_settings, nofun⟩

theorem parse?_template (permissioned : Bool) :
    parse? (Template.text permissioned) = some (Template.manifest permissioned) := by
  have readable := readable_template permissioned
  have sound := Yaml.sound_layout Manner.bundled _ (legible_yaml readable).tame
  have document : Yaml.Document.parse? (Template.text permissioned).toList = some (some
      ⟨Manner.bundled.node (Yaml.ofFields (Template.manifest permissioned).yaml), [],
        (Manner.bundled.node (Yaml.ofFields (Template.manifest permissioned).yaml)).size⟩) := by
    rw [Template.toList_text]
    exact Yaml.Document.parse?_marked sound
  rw [parse?, document]
  simp only [Option.bind_eq_bind, Option.bind_some, Yaml.Loader.run,
    reader_node Manner.bundled readable]
  rfl

theorem render?_eq (deployment network : String) (permissioned : Bool) (details : DirectorDetails) :
    render? deployment network permissioned details =
      .ok (render deployment network permissioned details) := by
  rw [render?, fill, parse?_template]
  cases permissioned <;> rfl

theorem peerNetwork_render (deployment network : String) (permissioned : Bool)
    (details : DirectorDetails) : (render deployment network permissioned details).peer.network =
      [("id", Text.lowerCase deployment)] := by
  cases permissioned <;> rfl

theorem readable_render (deployment network : String) (permissioned : Bool)
    (details : DirectorDetails) : (render deployment network permissioned details).Readable := by
  have base := readable_template permissioned
  refine ⟨?_, ?_, List.forall_mem_map.2 base.instances, List.forall_mem_map.2 base.persistentDisk,
    ?_, ?_, ?_⟩
  · exact base.canaries
  · exact base.maxInFlight
  · rw [peerNetwork_render]
    exact ⟨show ["id"].all isName = true by decide, List.pairwise_singleton _ _⟩
  · exact base.consensus
  · exact base.membersrvc

/-- Every manifest that is rendered is read back from its text as it is. -/
theorem render_read_back (deployment network : String) (permissioned : Bool)
    (details : DirectorDetails) : ∃ m,
      render? deployment network permissioned details = .ok m ∧
      render deployment network permissioned details = m ∧ parse? m.text = some m ∧
      m.name = deployment ∧ m.directorUuid = details.uuid ∧
      m.stemcells.head?.map (·.name) = some details.stemcell ∧
      (m.jobs ≠ [] ∧ ∀ j ∈ m.jobs, j.networks = [network] ∧ j.vmType = details.vmType) ∧
      m.peer.network.lookup "id" = some (Text.lowerCase deployment) ∧
      m.peer.dataPath = details.peerDataDir ∧ m.dockerStore = details.dockerDataDir := by
  refine ⟨render deployment network permissioned details,
    render?_eq deployment network permissioned details, rfl,
    parse?_text (readable_render deployment network permissioned details), rfl, rfl, ?_, ?_, ?_,
    rfl, rfl⟩
  · cases permissioned <;> rfl
  · have placed : ∀ j ∈ (Template.manifest permissioned).jobs, j.networks.drop 1 = [] := by
      cases permissioned <;> decide
    refine ⟨by cases permissioned <;> nofun, List.forall_mem_map.2 fun j mem => ⟨?_, rfl⟩⟩
    exact congrArg (network :: ·) (placed j mem)
  · rw [peerNetwork_render]
    rfl

end Manifest

end LedgerBroker
