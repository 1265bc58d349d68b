import LedgerBroker.Director.ManifestReader
import LedgerBroker.Proofs.ValueReading

set_option autoImplicit false

namespace LedgerBroker.Yaml

structure Legible (depth : Nat) (y : Yaml) : Prop where
  tame : isTame y = true
  within : levels y ≤ depth

namespace Legible

variable {depth : Nat}

theorem str (s : String) : Legible depth (.str s) := ⟨rfl, Nat.zero_le _⟩

theorem bool (b : Bool) : Legible depth (.bool b) := ⟨rfl, Nat.zero_le _⟩

theorem nat {n bound : Nat} (small : n < bound) (fits : bound ≤ Numeral.bound64) :
    Legible depth (.int n) := by
  have : n < 0x10000000000000000 := Nat.lt_of_lt_of_le small fits
  refine ⟨?_, Nat.zero_le _⟩
  simp only [isTame, Bool.and_eq_true, decide_eq_true_eq]
  omega

theorem list {ys : List Yaml} (items : ∀ y ∈ ys, Legible depth y) :
    Legible (depth + 1) (.seq ys) := by
  have both : areTame ys = true ∧ levelsOf ys ≤ depth := by
    induction ys with
    | nil => exact ⟨rfl, Nat.zero_le _⟩
    | cons y ys ih =>
      obtain ⟨tame, within⟩ := ih fun z mem => items z (List.mem_cons_of_mem _ mem)
      obtain ⟨tameFirst, withinFirst⟩ := items y List.mem_cons_self
      exact ⟨by simp [areTame, tame, tameFirst], Nat.max_le.2 ⟨withinFirst, within⟩⟩
  exact ⟨both.1, Nat.succ_le_succ both.2⟩

theorem fields {es : List (String × Yaml)} (names : List String) (keys : es.map (·.1) = names)
    (sound : names.all isName = true ∧ names.Nodup) (values : ∀ e ∈ es, Legible depth e.2) :
    Legible (depth + 1) (ofFields es) := by
  subst keys
  obtain ⟨named, distinct⟩ := sound
  have both : areTameEntries (es.map fun e => (Yaml.str e.1, e.2)) = true ∧
      levelsOfEntries (es.map fun e => (Yaml.str e.1, e.2)) ≤ depth := by
    induction es with
    | nil => exact ⟨rfl, Nat.zero_le _⟩
    | cons e es ih =>
      obtain ⟨name, names⟩ : isName e.1 = true ∧ (es.map (·.1)).all isName = true := by
        simpa using named
      obtain ⟨fresh, others⟩ := List.nodup_cons.1 distinct
      obtain ⟨tame, within⟩ :=
        ih (fun z mem => values z (List.mem_cons_of_mem _ mem)) names others
      obtain ⟨tameFirst, withinFirst⟩ := values e List.mem_cons_self
      have absent : ∀ y, (e.1, y) ∉ es := by simpa using fresh
      refine ⟨?_, Nat.max_le.2 ⟨withinFirst, within⟩⟩
      simpa [areTameEntries, isTameEntry, Manner.keyName, name, tameFirst, tame] using absent
  exact ⟨both.1, Nat.succ_le_succ both.2⟩

end Legible

def Manner.fieldNodes (m : Manner) (es : List (String × Yaml)) : List (String × Node) :=
  es.map fun e => (e.1, m.node e.2)

namespace Loader

variable (m : Manner) {α : Type}

theorem mapM_reads {β γ : Type} {f : β → Loader γ} {h : α → β} {g : α → γ} {as : List α}
    (reads : ∀ a ∈ as, f (h a) = pure (g a)) : (as.map h).mapM f = pure (as.map g) := by
  induction as with
  | nil => rfl
  | cons a as ih =>
    rw [List.map_cons, List.mapM_cons, reads a List.mem_cons_self, pure_bind,
      ih fun b mem => reads b (List.mem_cons_of_mem _ mem), pure_bind]
    rfl

theorem fields_node (es : List (String × Yaml)) :
    fields (m.node (ofFields es)) = pure (m.fieldNodes es) := by
  rw [ofFields, m.node_map, List.map_map]
  exact mapM_reads fun _ _ => rfl

theorem field_nodes (es : List (String × Yaml)) (name : String) (reader : Node → Loader α) :
    field (m.fieldNodes es) name reader =
      match es.filter (·.1 = name) with
      | [e] => reader (m.node e.2)
      | _ => failure := by
  simp only [field, field?, Manner.fieldNodes, List.filter_map, Function.comp_def]
  cases es.filter (·.1 = name) with
  | nil => rfl
  | cons e others => cases others <;> rfl

theorem list_node {f : α → Yaml} {item : Node → Loader α} {as : List α}
    (reads : ∀ a ∈ as, item (m.node (f a)) = pure a) :
    list item (m.node (.seq (as.map f))) = pure as := by
  rw [m.node_seq, List.map_map]
  exact (mapM_reads reads).trans (by rw [List.map_id'])

theorem text_node (s : String) : text (m.node (.str s)) = pure s := rfl

theorem bool_node (b : Bool) : bool (m.node (.bool b)) = pure b := by
  cases b <;> rfl

theorem natBelow_node {n bound : Nat} (small : n < bound) (fits : bound ≤ Numeral.bound64) :
    natBelow bound (m.node (.int n)) = pure n := by
  have read : narrowInt? (Manner.numeral n) = some (n : Int) := by
    rw [narrowInt?, integer?_numeral, Option.bind_some,
      ofInteger_nat (Nat.lt_of_lt_of_le small fits)]
  have literal : literalText CoreTag.int (m.node (.int n)) = pure (Manner.numeral n) := rfl
  rw [natBelow, literal, pure_bind, read]
  exact if_pos small

theorem notNull_of_ofPlain {s : String} (text : Scalar.ofPlain s = .str s) :
    ¬ (s = "" ∨ Scalar.isNull s = true) := by
  intro empty
  rw [Scalar.ofPlain, if_pos empty] at text
  cases text

theorem optionalField_nodes {es : List (String × Yaml)} {name : String}
    (present : ∀ e ∈ es.filter (·.1 = name), isTame e.2 = true ∧ e.2 ≠ .null)
    (reader : Node → Loader α) :
    optionalField (m.fieldNodes es) name reader =
      match es.filter (·.1 = name) with
      | [] => pure none
      | [e] => some <$> reader (m.node e.2)
      | _ => failure := by
  simp only [optionalField, field?, Manner.fieldNodes, List.filter_map, Function.comp_def]
  generalize es.filter (·.1 = name) = found at present ⊢
  match found, present with
  | [], _ => rfl
  | _ :: _ :: _, _ => rfl
  | [(k, y)], present =>
    obtain ⟨tame, some_⟩ := present (k, y) List.mem_cons_self
    simp only [List.map_cons, List.map_nil, pure_bind]
    cases y with
    | null => exact absurd rfl some_
    | bool b => cases b <;> rfl
    | int n =>
      obtain ⟨natural, -⟩ : 0 ≤ n ∧ _ := by simpa [isTame] using tame
      obtain ⟨n, rfl⟩ := Int.eq_ofNat_of_zero_le natural
      exact if_neg numeral_notNull
    | float x => cases tame
    | tagged tag y => cases tame
    | str s =>
      have clear := m.clear s
      rw [m.node_str]
      cases style : m.style s with
      | plain => exact if_neg (notNull_of_ofPlain (clear style))
      | single | double | literal => rfl
    | seq ys => rw [m.node_seq]; rfl
    | map es => rw [m.node_map]; rfl

end Loader

end LedgerBroker.Yaml

namespace LedgerBroker

open Yaml (Legible Manner Loader isName isTame)

structure Sorted (es : List (String × String)) : Prop where
  named : (es.map (·.1)).all isName = true
  ordered : es.Pairwise (·.1 < ·.1)

theorem insertSorted_last {es : List (String × String)} {k v : String}
    (below : ∀ e ∈ es, e.1 < k) : insertSorted k v es = es ++ [(k, v)] := by
  induction es with
  | nil => rfl
  | cons e es ih =>
    obtain ⟨j, w⟩ := e
    have less : j < k := below _ List.mem_cons_self
    have ne : k ≠ j := fun same => String.lt_irrefl j (same ▸ less)
    have others := ih fun e mem => below e (List.mem_cons_of_mem _ mem)
    simp [insertSorted, ne, String.lt_asymm less, others]

theorem foldl_insertSorted {es : List (String × String)} (sorted : es.Pairwise (·.1 < ·.1))
    (front : List (String × String)) (below : ∀ f ∈ front, ∀ e ∈ es, f.1 < e.1) :
    es.foldl (fun m (k, v) => insertSorted k v m) front = front ++ es := by
  induction es generalizing front with
  | nil => simp
  | cons e es ih =>
    obtain ⟨first, others⟩ := List.pairwise_cons.1 sorted
    obtain ⟨k, v⟩ := e
    have last := insertSorted_last (v := v) fun f mem => below f mem (k, v) List.mem_cons_self
    simp only [List.foldl_cons, last]
    rw [ih others, List.append_assoc]
    · rfl
    · intro f mem g after
      rcases List.mem_append.1 mem with mem | mem
      · exact below f mem g (List.mem_cons_of_mem _ after)
      · obtain rfl := List.mem_singleton.1 mem
        exact first g after

namespace Manifest

/-- Manifests that are read as they are written: counts of 32 bits, maps in order, and settings of
the membership service that are read as they are printed. -/
structure Readable (m : Manifest) : Prop where
  canaries : m.update.canaries < Numeral.bound32
  maxInFlight : m.update.maxInFlight < Numeral.bound32
  instances : ∀ j ∈ m.jobs, j.instances < Numeral.bound32
  persistentDisk : ∀ j ∈ m.jobs, j.persistentDisk < Numeral.bound32
  network : Sorted m.peer.network
  consensus : Sorted m.peer.consensus
  membersrvc : ∀ y ∈ m.membersrvc, Legible (Loader.greatestDepth - 2) y ∧ y ≠ .null

section Reading

open Yaml.Loader (fields_node field_nodes text_node bool_node natBelow_node list_node
  optionalField_nodes)

variable (w : Manner)

theorem bound32_le : Numeral.bound32 ≤ Numeral.bound64 := by decide

theorem readStemcell_node (s : Stemcell) :
    readStemcell (w.node (Stemcell.yaml s)) = pure s := by
  simp [readStemcell, Stemcell.yaml, fields_node, field_nodes, text_node]

theorem readRelease_node (r : Release) : readRelease (w.node (Release.yaml r)) = pure r := by
  simp [readRelease, Release.yaml, fields_node, field_nodes, text_node]

theorem readUpdate_node {u : UpdatePolicy} (canaries : u.canaries < Numeral.bound32)
    (maxInFlight : u.maxInFlight < Numeral.bound32) :
    readUpdate (w.node (UpdatePolicy.yaml u)) = pure u := by
  simp [readUpdate, UpdatePolicy.yaml, number, fields_node, field_nodes, text_node, bool_node,
    natBelow_node w canaries bound32_le, natBelow_node w maxInFlight bound32_le]

theorem readNetwork_node (n : String) :
    readNetwork (w.node (Yaml.ofFields [("name", .str n)])) = pure n := by
  simp [readNetwork, fields_node, field_nodes, text_node]

theorem readJobTemplate_node (t : JobTemplate) :
    readJobTemplate (w.node (Yaml.ofFields [("name", .str t.name), ("release", .str t.release)])) =
      pure t := by
  simp [readJobTemplate, fields_node, field_nodes, text_node]

theorem readJob_node {j : Job} (instances : j.instances < Numeral.bound32)
    (disk : j.persistentDisk < Numeral.bound32) : readJob (w.node (Job.yaml j)) = pure j := by
  simp [readJob, Job.yaml, number, fields_node, field_nodes, text_node,
    natBelow_node w instances bound32_le, natBelow_node w disk bound32_le,
    list_node w fun s _ => text_node w s, list_node w fun n _ => readNetwork_node w n,
    list_node w fun t _ => readJobTemplate_node w t]

theorem texts_node (es : List (String × String)) :
    Loader.texts (w.node (textMap es)) = pure es := by
  rw [Loader.texts, textMap, fields_node, pure_bind, Manner.fieldNodes, List.map_map]
  refine Eq.trans (Loader.mapM_reads (g := id) fun _ _ => rfl) ?_
  rw [List.map_id]

theorem readTextMap_node {es : List (String × String)} (sorted : Sorted es) :
    readTextMap (w.node (textMap es)) = pure es := by
  rw [readTextMap, texts_node, pure_bind, foldl_insertSorted sorted.ordered [] nofun]
  rfl

theorem readPeer_node {p : PeerProperties} (network : Sorted p.network)
    (consensus : Sorted p.consensus) : readPeer (w.node (PeerProperties.yaml p)) = pure p := by
  obtain ⟨net, cons, security, dataPath⟩ := p
  have maps := And.intro (readTextMap_node w network) (readTextMap_node w consensus)
  cases security with
  | none =>
    simp [readPeer, PeerProperties.yaml, fields_node, field_nodes, text_node, maps,
      optionalField_nodes]
  | some enabled =>
    have tame : isTame (Yaml.ofFields [("enabled", .bool enabled)]) = true := rfl
    have some_ : Yaml.ofFields [("enabled", .bool enabled)] ≠ .null := nofun
    simp [readPeer, PeerProperties.yaml, fields_node, field_nodes, text_node, maps,
      optionalField_nodes, tame, some_, bool_node]

theorem readDocker_node (dir : String) :
    readDocker (w.node (Yaml.ofFields [("store", Yaml.ofFields [("dir", .str dir)])])) =
      pure dir := by
  simp [readDocker, fields_node, field_nodes, text_node]

theorem reader_node {m : Manifest} (readable : m.Readable) :
    reader (w.node (Yaml.ofFields m.yaml)) = pure m := by
  obtain ⟨name, uuid, stemcells, releases, update, jobs, peer, store, membersrvc⟩ := m
  have sections := And.intro
    (readUpdate_node w readable.canaries readable.maxInFlight)
    (readPeer_node w readable.network readable.consensus)
  have jobs := list_node w fun j mem =>
    readJob_node w (readable.instances j mem) (readable.persistentDisk j mem)
  have settings := readable.membersrvc
  cases membersrvc with
  | none =>
    simp [reader, yaml, propertiesYaml, fields_node, field_nodes, text_node, sections, jobs,
      list_node w fun s _ => readStemcell_node w s, list_node w fun r _ => readRelease_node w r,
      readDocker_node, optionalField_nodes]
  | some y =>
    obtain ⟨⟨tame, within⟩, some_⟩ := settings y rfl
    have value := Loader.value_node w y tame _ within
    simp [reader, yaml, propertiesYaml, fields_node, field_nodes, text_node, sections, jobs,
      list_node w fun s _ => readStemcell_node w s, list_node w fun r _ => readRelease_node w r,
      readDocker_node, optionalField_nodes, tame, some_, value]

end Reading

section Legibility

open Yaml.Legible (str nat list)

variable {depth : Nat}

theorem legible_textMap {es : List (String × String)} (sorted : Sorted es) :
    Legible (depth + 1) (textMap es) := by
  refine .fields (es.map (·.1)) (by simp) ⟨sorted.named, ?_⟩ ?_
  · refine List.pairwise_map.2 (sorted.ordered.imp fun less same => ?_)
    exact String.lt_irrefl _ (same ▸ less)
  · rintro e mem
    obtain ⟨⟨k, v⟩, -, rfl⟩ := List.mem_map.1 mem
    exact str v

theorem legible_stemcell (s : Stemcell) : Legible (depth + 1) (Stemcell.yaml s) :=
  .fields ["alias", "name", "version"] rfl (by decide) (by simp [str])

theorem legible_release (r : Release) : Legible (depth + 1) (Release.yaml r) :=
  .fields ["name", "version"] rfl (by decide) (by simp [str])

theorem legible_update {u : UpdatePolicy} (canaries : u.canaries < Numeral.bound32)
    (maxInFlight : u.maxInFlight < Numeral.bound32) :
    Legible (depth + 1) (UpdatePolicy.yaml u) :=
  .fields ["canaries", "canary_watch_time", "max_in_flight", "serial", "update_watch_time"] rfl
    (by decide)
    (by simp [number, str, Legible.bool, nat canaries bound32_le, nat maxInFlight bound32_le])

theorem legible_network (n : String) :
    Legible (depth + 1) (Yaml.ofFields [("name", .str n)]) :=
  .fields ["name"] rfl (by decide) (by simp [str])

theorem legible_jobTemplate (t : JobTemplate) :
    Legible (depth + 1) (Yaml.ofFields [("name", .str t.name), ("release", .str t.release)]) :=
  .fields ["name", "release"] rfl (by decide) (by simp [str])

theorem legible_job {j : Job} (instances : j.instances < Numeral.bound32)
    (disk : j.persistentDisk < Numeral.bound32) : Legible (depth + 3) (Job.yaml j) := by
  have zones : Legible (depth + 2) (.seq (j.zones.map .str)) := list (by simp [str])
  have networks : Legible (depth + 2)
      (.seq (j.networks.map fun n => Yaml.ofFields [("name", .str n)])) :=
    list (by simp [legible_network])
  have templates : Legible (depth + 2) (.seq (j.templates.map fun t =>
      Yaml.ofFields [("name", .str t.name), ("release", .str t.release)])) :=
    list (by simp [legible_jobTemplate])
  exact .fields ["instances", "azs", "name", "networks", "persistent_disk", "vm_type", "stemcell",
    "templates"] rfl (by decide)
    (by simp [number, str, nat instances bound32_le, nat disk bound32_le, zones, networks, templates])

theorem legible_peer {p : PeerProperties} (network : Sorted p.network)
    (consensus : Sorted p.consensus) : Legible (depth + 2) (PeerProperties.yaml p) := by
  have maps : Legible (depth + 1) (textMap p.network) ∧ Legible (depth + 1) (textMap p.consensus) :=
    ⟨legible_textMap network, legible_textMap consensus⟩
  have core : Legible (depth + 1) (Yaml.ofFields [("data_path", .str p.dataPath)]) :=
    .fields ["data_path"] rfl (by decide) (by simp [str])
  obtain ⟨net, cons, security, dataPath⟩ := p
  cases security with
  | none => exact .fields ["network", "consensus", "core"] rfl (by decide) (by simp [maps, core])
  | some enabled =>
    have security : Legible (depth + 1) (Yaml.ofFields [("enabled", .bool enabled)]) :=
      .fields ["enabled"] rfl (by decide) (by simp [Legible.bool])
    exact .fields ["network", "consensus", "security", "core"] rfl (by decide)
      (by simp [maps, core, security])

theorem legible_docker (dir : String) : Legible (depth + 2)
    (Yaml.ofFields [("store", Yaml.ofFields [("dir", .str dir)])]) := by
  have store : Legible (depth + 1) (Yaml.ofFields [("dir", .str dir)]) :=
    .fields ["dir"] rfl (by decide) (by simp [str])
  exact .fields ["store"] rfl (by decide) (by simp [store])

theorem legible_properties {m : Manifest} (readable : m.Readable) :
    Legible 127 m.propertiesYaml := by
  have peer : Legible 126 (PeerProperties.yaml m.peer) :=
    legible_peer readable.network readable.consensus
  have docker : Legible 126 _ := legible_docker m.dockerStore
  obtain ⟨name, uuid, stemcells, releases, update, jobs, peerSettings, store, membersrvc⟩ := m
  simp only at peer docker
  cases membersrvc with
  | none => exact .fields ["peer", "docker"] rfl (by decide) (by simp [peer, docker])
  | some y =>
    have settings : Legible 126 y := (readable.membersrvc y rfl).1
    exact .fields ["peer", "docker", "membersrvc"] rfl (by decide) (by simp [peer, docker, settings])

theorem legible_yaml {m : Manifest} (readable : m.Readable) :
    Legible Loader.greatestDepth (Yaml.ofFields m.yaml) := by
  have stemcells : Legible 127 (.seq (m.stemcells.map Stemcell.yaml)) :=
    list (by simp [legible_stemcell])
  have releases : Legible 127 (.seq (m.releases.map Release.yaml)) :=
    list (by simp [legible_release])
  have update : Legible 127 (UpdatePolicy.yaml m.update) :=
    legible_update readable.canaries readable.maxInFlight
  have jobs : Legible 127 (.seq (m.jobs.map Job.yaml)) := by
    refine list fun y mem => ?_
    obtain ⟨j, job, rfl⟩ := List.mem_map.1 mem
    exact legible_job (readable.instances j job) (readable.persistentDisk j job)
  have properties := legible_properties readable
  exact .fields ["name", "director_uuid", "stemcells", "releases", "update", "jobs", "properties"]
    rfl (by decide) (by simp [yaml, str, stemcells, releases, update, jobs, properties])

end Legibility

section Text

variable {m : Manifest}

theorem value_text (readable : m.Readable) : Yaml.parse? m.text = some (Yaml.ofFields m.yaml) := by
  obtain ⟨tame, within⟩ := legible_yaml readable
  exact Yaml.parse?_document tame within

theorem parse?_text (readable : m.Readable) : parse? m.text = some m := by
  obtain ⟨tame, -⟩ := legible_yaml readable
  have document : Yaml.Document.parse? m.text.toList = some (some
      ⟨Manner.printed.node (Yaml.ofFields m.yaml), [],
        (Manner.printed.node (Yaml.ofFields m.yaml)).size⟩) := by
    rw [text, String.toList_ofList]
    exact Yaml.parse?_printed tame
  rw [parse?, document]
  simp only [Option.bind_eq_bind, Option.bind_some, Loader.run,
    reader_node Manner.printed readable]
  rfl

end Text

end Manifest
end LedgerBroker
