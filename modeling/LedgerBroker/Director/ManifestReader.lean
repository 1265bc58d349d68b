import LedgerBroker.Director.Manifest
import LedgerBroker.Text.Blank
import LedgerBroker.Yaml.Load

set_option autoImplicit false

namespace LedgerBroker.Manifest

open Yaml (Node Loader)
open Yaml.Loader (field optionalField texts list natBelow)

def readStemcell (n : Node) : Loader Stemcell := do
  let f ← Loader.fields n
  return ⟨← field f "alias" Loader.text, ← field f "name" Loader.text, ← field f "version" Loader.text⟩

def readRelease (n : Node) : Loader Release := do
  let f ← Loader.fields n
  return ⟨← field f "name" Loader.text, ← field f "version" Loader.text⟩

def readUpdate (n : Node) : Loader UpdatePolicy := do
  let f ← Loader.fields n
  return {
    canaries := ← field f "canaries" (natBelow Numeral.bound32)
    canaryWatchTime := ← field f "canary_watch_time" Loader.text
    maxInFlight := ← field f "max_in_flight" (natBelow Numeral.bound32)
    serial := ← field f "serial" Loader.bool
    updateWatchTime := ← field f "update_watch_time" Loader.text }

def readNetwork (n : Node) : Loader String := do field (← Loader.fields n) "name" Loader.text

def readJobTemplate (n : Node) : Loader JobTemplate := do
  let f ← Loader.fields n
  return ⟨← field f "name" Loader.text, ← field f "release" Loader.text⟩

def readJob (n : Node) : Loader Job := do
  let f ← Loader.fields n
  return {
    instances := ← field f "instances" (natBelow Numeral.bound32)
    zones := ← field f "azs" (list Loader.text)
    name := ← field f "name" Loader.text
    networks := ← field f "networks" (list readNetwork)
    persistentDisk := ← field f "persistent_disk" (natBelow Numeral.bound32)
    vmType := ← field f "vm_type" Loader.text
    stemcell := ← field f "stemcell" Loader.text
    templates := ← field f "templates" (list readJobTemplate) }

def readTextMap (n : Node) : Loader (List (String × String)) := do
  return (← texts n).foldl (fun m (k, v) => insertSorted k v m) []

def readPeer (n : Node) : Loader PeerProperties := do
  let f ← Loader.fields n
  return {
    network := ← field f "network" readTextMap
    consensus := ← field f "consensus" readTextMap
    security := ← optionalField f "security" fun s => do field (← Loader.fields s) "enabled" Loader.bool
    dataPath := ← field f "core" fun c => do field (← Loader.fields c) "data_path" Loader.text }

def readDocker (n : Node) : Loader String := do
  field (← Loader.fields n) "store" fun s => do field (← Loader.fields s) "dir" Loader.text

def reader (n : Node) : Loader Manifest := do
  let f ← Loader.fields n
  let properties ← field f "properties" Loader.fields
  return {
    name := ← field f "name" Loader.text
    directorUuid := ← field f "director_uuid" Loader.text
    stemcells := ← field f "stemcells" (list readStemcell)
    releases := ← field f "releases" (list readRelease)
    update := ← field f "update" readUpdate
    jobs := ← field f "jobs" (list readJob)
    peer := ← field properties "peer" readPeer
    dockerStore := ← field properties "docker" readDocker
    membersrvc := ← optionalField properties "membersrvc"
      (Loader.value (Loader.greatestDepth - 2)) }

def parse? (s : String) : Option Manifest := do
  match ← Yaml.Document.parse? s.toList with
  | none => none
  | some d => Loader.run d reader

def networkOf (document : Yaml) : Option String :=
  (["jobs", "instance_groups"].flatMap fun key =>
    ((document.get? key).bind Yaml.items?).getD []).findSome? fun group => do
      let networks ← (← group.get? "networks").items?
      (← (← networks.head?).get? "name").text?

/-- The network that a manifest of any origin is placed on. Nothing comes back, not even a network
that is missing, for a text that is not YAML. -/
def firstNetwork? (raw : String) : Option (Option String) :=
  if (Text.trim raw.toList).isEmpty then some none
  else (Yaml.parse? raw).map networkOf

end LedgerBroker.Manifest
