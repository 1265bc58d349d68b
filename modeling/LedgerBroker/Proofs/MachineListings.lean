import LedgerBroker.Proofs.JsonReading
import LedgerBroker.Proofs.ListingPolls
import LedgerBroker.Proofs.PercentText
import LedgerBroker.Proofs.Steps

set_option autoImplicit false

namespace LedgerBroker

open Json (Blank Spells Quotes Listed Member IsValue IsJson Gives Exact Gathers)
open Json.Reader (Slot)

namespace VmLine

def jobSlot : Slot Draft :=
  .of "job_name" (·.job) (fun d v => { d with job := some v }) Json.Reader.string

def ipsSlot : Slot Draft :=
  .of "ips" (·.ips) (fun d v => { d with ips := some v }) (.list Json.Reader.string)

theorem exact_reader : Exact reader := by
  refine Json.Reader.exact_record fun slot mem draft => ?_
  rcases List.mem_cons.mp mem with rfl | mem
  · exact Json.Reader.exact_slot Json.Reader.exact_string draft
  · rcases List.mem_singleton.mp mem with rfl
    exact Json.Reader.exact_slot (Json.Reader.exact_list Json.Reader.exact_string) draft

def IsString (s : String) (t : Bytes) : Prop :=
  ∃ b q, Blank b ∧ Spells q s.toList ∧ t = b ++ 0x22 :: (q ++ [0x22])

def IsStrings (xs : List String) (t : Bytes) : Prop :=
  ∃ b u, Blank b ∧ Listed IsString false true xs u ∧ t = b ++ 0x5B :: u

def IsMember (m : String × Bytes) (e : Bytes) : Prop :=
  ∃ l c, IsString m.1 l ∧ Blank c ∧ IsValue m.2 ∧ e = l ++ (c ++ 0x3A :: m.2)

/-- These members tell of a machine with this job. They tell its addresses, or nothing of them. -/
structure Tells (ms : List (String × Bytes)) (vm : VmLine) : Prop where
  job : ∃ t, ms.filter (·.1 = "job_name") = [("job_name", t)] ∧ IsString vm.job t
  ips : (ms.filter (·.1 = "ips") = [] ∧ vm.ips = []) ∨
    ∃ t, ms.filter (·.1 = "ips") = [("ips", t)] ∧ IsStrings vm.ips t

def Describes (t : Bytes) (vm : VmLine) : Prop :=
  ∃ ms b u c, Tells ms vm ∧ Blank b ∧ Listed IsMember true true ms u ∧ Blank c ∧
    t = b ++ 0x7B :: u ++ c

theorem IsString.gives {s : String} {t : Bytes} (isString : IsString s t) :
    Gives Json.Reader.string t s := by
  obtain ⟨b, q, blank, spells, rfl⟩ := isString
  exact Json.Reader.gives_string blank spells.quotes

theorem IsStrings.gives {xs : List String} {t : Bytes} (isStrings : IsStrings xs t) :
    Gives (.list Json.Reader.string) t xs := by
  obtain ⟨b, u, blank, listed, rfl⟩ := isStrings
  exact Json.Reader.gives_list Json.Reader.exact_string.trims blank
    (listed.imp fun _ _ => IsString.gives)

theorem IsMember.member {m : String × Bytes} {e : Bytes} (isMember : IsMember m e) :
    Member m e := by
  obtain ⟨_, c, ⟨b, q, blank, spells, rfl⟩, blank', value, rfl⟩ := isMember
  exact ⟨value, _, ⟨b, q, c, blank, spells.quotes, blank', rfl⟩, by simp⟩

theorem gives_slot {ρ α : Type} {reader : Json.Reader α} {t : Bytes} {a : α} {name : String}
    {get : ρ → Option α} {set : ρ → α → ρ} (gives : Gives reader t a) (draft : ρ) :
    Gives ((Slot.of name get set reader).fill draft) t (set draft a) :=
  ⟨gives.value, gives.takes.slot draft⟩

theorem gathers_slots {vm : VmLine} (ms : List (String × Bytes)) (draft : Draft)
    (job : draft.job = some vm.job ∧ ms.filter (·.1 = "job_name") = [] ∨
      draft.job = none ∧ ∃ t, ms.filter (·.1 = "job_name") = [("job_name", t)] ∧ IsString vm.job t)
    (ips : draft.ips.getD [] = vm.ips ∧ ms.filter (·.1 = "ips") = [] ∨
      draft.ips = none ∧ ∃ t, ms.filter (·.1 = "ips") = [("ips", t)] ∧ IsStrings vm.ips t) :
    ∃ final, Gathers [jobSlot, ipsSlot] ms draft final ∧ final.job = some vm.job ∧
      final.ips.getD [] = vm.ips := by
  -- What the draft does not hold yet, just one of the members to come has.
  induction ms generalizing draft with
  | nil =>
    rcases job with ⟨job, -⟩ | ⟨-, _, none, -⟩
    · rcases ips with ⟨ips, -⟩ | ⟨-, _, none, -⟩
      · exact ⟨draft, .done draft, job, ips⟩
      · cases none
    · cases none
  | cons m ms ih =>
    obtain ⟨name, v⟩ := m
    have other {n : String} (ne : name ≠ n) :
        ((name, v) :: ms).filter (·.1 = n) = ms.filter (·.1 = n) := by simp [ne]
    have once {n : String} {t : Bytes} (same : name = n)
        (only : ((name, v) :: ms).filter (·.1 = n) = [(n, t)]) :
        v = t ∧ ms.filter (·.1 = n) = [] := by
      subst same
      simpa using only
    by_cases isJob : name = "job_name"
    · rcases job with ⟨-, none⟩ | ⟨free, t, only, isString⟩
      · simp [isJob] at none
      · obtain ⟨rfl, noMore⟩ := once isJob only
        rw [other (by simp [isJob])] at ips
        obtain ⟨final, gathers, told⟩ :=
          ih { draft with job := some vm.job } (.inl ⟨rfl, noMore⟩) ips
        have found : [jobSlot, ipsSlot].find? (·.name = name) = some jobSlot := by
          simp [isJob, jobSlot, Slot.of]
        have unfilled : jobSlot.isFilled draft = false := by simp [jobSlot, Slot.of, free]
        exact ⟨final, .field found unfilled (gives_slot isString.gives draft) gathers, told⟩
    · rw [other isJob] at job
      by_cases isIps : name = "ips"
      · rcases ips with ⟨-, none⟩ | ⟨free, t, only, isStrings⟩
        · simp [isIps] at none
        · obtain ⟨rfl, noMore⟩ := once isIps only
          obtain ⟨final, gathers, told⟩ :=
            ih { draft with ips := some vm.ips } job (.inl ⟨rfl, noMore⟩)
          have found : [jobSlot, ipsSlot].find? (·.name = name) = some ipsSlot := by
            simp [isIps, jobSlot, ipsSlot, Slot.of]
          have unfilled : ipsSlot.isFilled draft = false := by simp [ipsSlot, Slot.of, free]
          exact ⟨final, .field found unfilled (gives_slot isStrings.gives draft) gathers, told⟩
      · rw [other isIps] at ips
        obtain ⟨final, gathers, told⟩ := ih draft job ips
        have missing : [jobSlot, ipsSlot].find? (·.name = name) = none := by
          simp [jobSlot, ipsSlot, Slot.of, Ne.symm isJob, Ne.symm isIps]
        exact ⟨final, .other missing gathers, told⟩

theorem Describes.reads {t : Bytes} {vm : VmLine} (describes : Describes t vm) :
    reader.run t = .ok vm := by
  obtain ⟨ms, b, u, c, ⟨job, ips⟩, blank, listed, blank', rfl⟩ := describes
  obtain ⟨final, gathers, jobTold, ipsTold⟩ := gathers_slots ms {} (.inr ⟨rfl, job⟩)
    (ips.imp (fun none => ⟨none.2.symm, none.1⟩) fun some_ => ⟨rfl, some_⟩)
  refine exact_reader.run_iff.mpr ⟨_, c, ?_, blank', rfl⟩
  refine Json.Reader.gives_record_object blank (listed.imp fun _ _ => IsMember.member) gathers ?_
  simp [jobTold, ipsTold]

def json (vm : VmLine) : Json :=
  .obj [("job_name", .str vm.job), ("ips", .arr (vm.ips.map .str))]

theorem isString_quote (s : String) : IsString s (Json.quote s) :=
  ⟨[], _, .nil, Json.spells_escape s, rfl⟩

theorem listed_writeItems (xs : List String) :
    Listed IsString false false xs (Json.writeItems (xs.map .str)) := by
  induction xs with
  | nil => exact .close .nil
  | cons x xs ih =>
    have comma : Json.Separator false [0x2C] := ⟨[], .nil, rfl⟩
    rw [List.map_cons, Json.writeItems, Json.write]
    exact .next comma (isString_quote x) ih

theorem isStrings_write (xs : List String) : IsStrings xs (Json.arr (xs.map .str)).write := by
  cases xs with
  | nil => exact ⟨[], [0x5D], .nil, .close .nil, rfl⟩
  | cons x xs =>
    rw [List.map_cons, Json.write, Json.write]
    exact ⟨[], _, .nil, .next rfl (isString_quote x) (listed_writeItems xs), rfl⟩

theorem isMember_quote (name : String) {t : Bytes} (value : IsValue t) :
    IsMember (name, t) (Json.quote name ++ 0x3A :: t) :=
  ⟨_, [], isString_quote name, .nil, value, rfl⟩

theorem describes_write (vm : VmLine) : Describes vm.json.write vm := by
  have job := isString_quote vm.job
  have ips := isStrings_write vm.ips
  have tells : Tells [("job_name", Json.quote vm.job), ("ips", (Json.arr (vm.ips.map .str)).write)]
      vm := ⟨⟨_, rfl, job⟩, .inr ⟨_, rfl, ips⟩⟩
  have comma : Json.Separator false [0x2C] := ⟨[], .nil, rfl⟩
  refine ⟨_, [], _, [], tells, .nil, .next rfl (isMember_quote _ job.gives.value)
    (.next comma (isMember_quote _ ips.gives.value) (.close .nil)), .nil, ?_⟩
  simp [json, Json.write, Json.writeFields, Json.closing]

theorem feed_notMem_quote (s : String) : 0x0A ∉ Json.quote s := by
  have escaped (b : UInt8) : 0x0A ∉ Json.escape b :=
    Bytes.forall_byte (P := fun b => 0x0A ∉ Json.escape b) (by decide +kernel) b
  simp [Json.quote, escaped]

theorem feed_notMem_write (vm : VmLine) : 0x0A ∉ vm.json.write := by
  have items (xs : List String) : 0x0A ∉ Json.writeItems (xs.map .str) := by
    induction xs with
    | nil => simp [Json.writeItems]
    | cons x xs ih => simp [Json.writeItems, Json.write, feed_notMem_quote, ih]
  have addresses (xs : List String) : 0x0A ∉ (Json.arr (xs.map .str)).write := by
    cases xs with
    | nil => simp [Json.write]
    | cons x xs => simp [Json.write, feed_notMem_quote, items]
  simp [json, Json.write, Json.writeFields, feed_notMem_quote, addresses]

end VmLine

namespace VmIps

variable {ips : VmIps} {addresses : String → List String} {es fs : List (String × String)}
  {job : String} {a b line : Bytes}

def firsts (es : List (String × String)) (job : String) : List String :=
  (es.filter (·.1 = job)).map (·.2)

theorem firsts_append (es fs : List (String × String)) (job : String) :
    firsts (es ++ fs) job = firsts es job ++ firsts fs job := by
  simp [firsts]

structure Groups (ips : VmIps) (addresses : String → List String) : Prop where
  nodup : (ips.map Prod.fst).Nodup
  lookup : ∀ job, ips.lookup job = if addresses job = [] then none else some (addresses job)

theorem Groups.get (groups : Groups ips addresses) (job : String) :
    ips.get job = addresses job := by
  rw [VmIps.get, groups.lookup]
  split
  next none => exact none.symm
  next => rfl

theorem get_cons (name : String) (found : List String) (rest : VmIps) (job : String) :
    VmIps.get ((name, found) :: rest) job = if job = name then found else VmIps.get rest job := by
  rw [VmIps.get, lookup_cons]
  split <;> rfl

theorem lookup_add (ips : VmIps) (job ip other : String) : (ips.add job ip).lookup other =
    if other = job then some (ips.get job ++ [ip]) else ips.lookup other := by
  induction ips with
  | nil => exact lookup_cons (job, [ip]) []
  | cons entry rest ih =>
    obtain ⟨name, found⟩ := entry
    by_cases here : name = job
    · subst here
      rw [VmIps.add, if_pos rfl, lookup_cons, lookup_cons, get_cons, if_pos rfl]
      by_cases same : other = name <;> simp [same]
    · rw [VmIps.add, if_neg here, lookup_cons, lookup_cons, get_cons, if_neg (Ne.symm here), ih]
      by_cases same : other = job
      · simp [same, Ne.symm here]
      · simp [same]

theorem fst_add (ips : VmIps) (job ip : String) : (ips.add job ip).map Prod.fst =
    if job ∈ ips.map Prod.fst then ips.map Prod.fst else ips.map Prod.fst ++ [job] := by
  induction ips with
  | nil => simp [VmIps.add]
  | cons entry rest ih =>
    obtain ⟨name, found⟩ := entry
    by_cases here : name = job
    · simp [VmIps.add, here]
    · rw [VmIps.add, if_neg here, List.map_cons, List.map_cons, ih]
      by_cases known : job ∈ rest.map Prod.fst
      · rw [if_pos known, if_pos (List.mem_cons_of_mem _ known)]
      · have new : job ∉ name :: rest.map Prod.fst := by
          rw [List.mem_cons, not_or]
          exact ⟨Ne.symm here, known⟩
        rw [if_neg known, if_neg new]
        rfl

theorem Groups.add (groups : Groups ips (firsts es)) (job ip : String) :
    Groups (ips.add job ip) (firsts (es ++ [(job, ip)])) := by
  constructor
  · rw [fst_add]
    split
    next => exact groups.nodup
    next new => exact List.concat_eq_append ▸ groups.nodup.concat new
  · intro other
    rw [lookup_add, firsts_append]
    by_cases same : other = job
    · subst same
      simp [groups.get, firsts]
    · have none : firsts [(job, ip)] other = [] := by simp [firsts, Ne.symm same]
      rw [if_neg same, groups.lookup, none, List.append_nil]

theorem Groups.foldl (groups : Groups ips (firsts es)) :
    Groups (fs.foldl (fun ips (job, ip) => ips.add job ip) ips) (firsts (es ++ fs)) := by
  induction fs generalizing ips es with
  | nil => rwa [List.append_nil]
  | cons entry fs ih => simpa using ih (groups.add entry.1 entry.2)

def entries (text : Bytes) : List (String × String) := (lines text).filterMap firstIp?

theorem groups_ofListing (text : String) :
    Groups (ofListing text) (firsts (entries (Bytes.ofString text))) :=
  have nothing : Groups [] (firsts []) := ⟨.nil, fun _ => rfl⟩
  nothing.foldl

theorem parts_ne_nil (a : Bytes) : parts a ≠ [] := by
  fun_cases parts a <;> simp_all

theorem parts_append (a b : Bytes) : parts (a ++ 0x0A :: b) = parts a ++ parts b := by
  induction a with
  | nil => simp [parts]
  | cons c a ih =>
    rw [List.cons_append, parts, parts, ih]
    split
    next => rfl
    next =>
      obtain ⟨part, others, split⟩ := List.exists_cons_of_ne_nil (parts_ne_nil a)
      simp [split]

theorem parts_line (noFeed : 0x0A ∉ line) : parts line = [line] := by
  induction line with
  | nil => rfl
  | cons c line ih =>
    obtain ⟨other, noFeed⟩ := not_or.mp (mt List.mem_cons.mpr noFeed)
    rw [parts, if_neg (Ne.symm other), ih noFeed]

theorem toOption_eq_some_iff {ε α : Type} {x : Except ε α} {a : α} :
    x.toOption = some a ↔ x = .ok a :=
  ⟨Call.ok_of_toOption, fun done => done ▸ rfl⟩

theorem firstIp?_return (line : Bytes) : firstIp? (line ++ [0x0D]) = firstIp? line := by
  have same : (VmLine.reader.run (line ++ [0x0D])).toOption =
      (VmLine.reader.run line).toOption := by
    refine Option.ext fun vm => ?_
    rw [toOption_eq_some_iff, toOption_eq_some_iff]
    exact VmLine.exact_reader.run_blank rfl line
  rw [firstIp?, same]
  rfl

theorem firstIp?_of_not_isJson (notJson : ¬IsJson line) : firstIp? line = none := by
  cases read : VmLine.reader.run line with
  | error => simp [firstIp?, read, Except.toOption]
  | ok vm => exact absurd (VmLine.exact_reader.isJson read) notJson

theorem firstIp?_withoutReturn (part : Bytes) : firstIp? (withoutReturn part) = firstIp? part := by
  unfold withoutReturn
  split
  next return_ =>
    obtain ⟨line, rfl⟩ := List.getLast?_eq_some_iff.mp return_
    rw [List.dropLast_concat, firstIp?_return]
  next => rfl

-- The carriage returns that line feeds take with them make no difference.
theorem entries_eq (text : Bytes) : entries text = (parts text).filterMap firstIp? := by
  have same : firstIp? ∘ withoutReturn = firstIp? := funext firstIp?_withoutReturn
  have whole : (parts text).dropLast ++ (parts text).getLast?.toList = parts text := by
    rw [List.getLast?_eq_some_getLast (parts_ne_nil text)]
    exact List.dropLast_concat_getLast (parts_ne_nil text)
  rw [entries, lines, List.filterMap_append, List.filterMap_map, same, ← List.filterMap_append,
    whole]

theorem entries_append (a b : Bytes) : entries (a ++ 0x0A :: b) = entries a ++ entries b := by
  rw [entries_eq, entries_eq, entries_eq, parts_append, List.filterMap_append]

theorem entries_line (noFeed : 0x0A ∉ line) : entries line = (firstIp? line).toList := by
  rw [entries_eq, parts_line noFeed]
  cases read : firstIp? line <;> simp [read]

structure Line where
  machine : Option VmLine
  text : Bytes

namespace Line

def IsBlank (text : Bytes) : Prop :=
  ∃ s : String, text = Bytes.ofString s ∧ ∀ c ∈ s.toList, Text.isBlank c = true

/-- The line holds what it is said to: a machine, blanks, or what is not JSON. -/
def Holds (l : Line) : Prop :=
  0x0A ∉ l.text ∧
    match l.machine with
    | some vm => VmLine.Describes l.text vm
    | none => IsBlank l.text ∨ ¬IsJson l.text

/-- The lines in order, each but the last with its end, which the last may have or not. -/
inductive Lays : List Line → Bytes → Prop
  | nothing : Lays [] []
  | last (l : Line) : Lays [l] l.text
  | line {l : Line} {ls : List Line} {ending t : Bytes}
      (ends : ending = [0x0A] ∨ ending = [0x0D, 0x0A]) (others : Lays ls t) :
      Lays (l :: ls) (l.text ++ (ending ++ t))

def firstIps (ls : List Line) (job : String) : List String :=
  ((ls.filterMap (·.machine)).filter (·.job = job)).filterMap (·.ips.head?)

def firstIp? (l : Line) : Option (String × String) :=
  l.machine.bind fun vm => vm.ips.head?.map fun ip => (vm.job, ip)

theorem firsts_entries (ls : List Line) (job : String) :
    firsts (ls.filterMap firstIp?) job = firstIps ls job := by
  induction ls with
  | nil => rfl
  | cons l ls ih =>
    simp only [firstIps, firsts] at ih ⊢
    obtain ⟨_ | ⟨name, _ | ⟨ip, ips⟩⟩, text⟩ := l
    · simpa [firstIp?, List.filterMap_cons] using ih
    · by_cases same : name = job <;> simpa [firstIp?, List.filterMap_cons, same] using ih
    · by_cases same : name = job <;> simpa [firstIp?, List.filterMap_cons, same] using ih

theorem first_notBlank {c : UInt8} {l : Json.Reader.Lead} (leads : Json.Reader.leadOf c = some l) :
    ∃ d : Char, c = Bytes.ascii d ∧ d.toNat < 0x80 ∧ Text.isBlank d = false := by
  have table := Bytes.forall_byte (P := fun c => (Json.Reader.leadOf c).isSome = true →
    c.toNat < 0x80 ∧ Text.isBlank (Char.ofNat c.toNat) = false) (by decide +kernel)
  obtain ⟨small, visible⟩ := table c (Option.isSome_of_eq_some leads)
  refine ⟨Char.ofNat c.toNat, ?_, ?_, visible⟩
  · rw [Bytes.ascii, Bytes.toNat_char small]
    exact UInt8.ofNat_toNat.symm
  · rwa [Bytes.toNat_char small]

theorem not_isJson_of_isBlank {text : Bytes} (blank : IsBlank text) : ¬IsJson text := by
  rintro ⟨v, b, value, -, split⟩
  obtain ⟨s, rfl, blank⟩ := blank
  obtain ⟨b', c, t, l, -, leads, rfl⟩ := value.lead
  obtain ⟨d, rfl, small, visible⟩ := first_notBlank leads
  have mem : d ∈ s.toList := (Bytes.mem_ofString small s).mp (by simp [split])
  cases visible.symm.trans (blank d mem)

theorem Holds.firstIp {l : Line} (holds : l.Holds) : VmIps.firstIp? l.text = l.firstIp? := by
  obtain ⟨_ | vm, text⟩ := l
  · exact firstIp?_of_not_isJson (holds.2.elim not_isJson_of_isBlank id)
  · have read : VmLine.reader.run text = .ok vm := VmLine.Describes.reads holds.2
    cases ips : vm.ips <;> simp [VmIps.firstIp?, firstIp?, read, ips, Except.toOption]

theorem entries_lays {ls : List Line} {t : Bytes} (lays : Lays ls t) (holds : ∀ l ∈ ls, l.Holds) :
    entries t = ls.filterMap firstIp? := by
  induction lays with
  | nothing =>
    have empty : ¬IsJson [] := not_isJson_of_isBlank ⟨"", rfl, by simp⟩
    rw [entries_line (by simp), firstIp?_of_not_isJson empty]
    rfl
  | last l =>
    have holds := holds l List.mem_cons_self
    rw [entries_line holds.1, holds.firstIp]
    cases told : l.firstIp? <;> simp [told]
  | @line l ls ending t ends others ih =>
    have first := holds l List.mem_cons_self
    have rest := ih fun l mem => holds l (List.mem_cons_of_mem _ mem)
    have whole : entries (l.text ++ (ending ++ t)) = l.firstIp?.toList ++ entries t := by
      rw [← first.firstIp]
      rcases ends with rfl | rfl
      · rw [List.singleton_append, entries_append, entries_line first.1]
      · -- The carriage return is a blank behind what the line holds.
        have noFeed : 0x0A ∉ l.text ++ [0x0D] := by simpa using first.1
        have split : l.text ++ ([0x0D, 0x0A] ++ t) = l.text ++ [0x0D] ++ 0x0A :: t := by simp
        rw [split, entries_append, entries_line noFeed, firstIp?_return]
    rw [whole, rest]
    cases told : l.firstIp? <;> simp [told]

theorem exists_lays (vms : List VmLine) :
    ∃ ls text, Lays ls (Bytes.ofString text) ∧ (∀ l ∈ ls, l.Holds) ∧
      ls.filterMap (·.machine) = vms := by
  suffices written : ∃ ls t, Bytes.IsText t ∧ Lays ls t ∧ (∀ l ∈ ls, l.Holds) ∧
      ls.filterMap (·.machine) = vms by
    obtain ⟨ls, _, ⟨text, rfl⟩, written⟩ := written
    exact ⟨ls, text, written⟩
  induction vms with
  | nil => exact ⟨[], [], .nil, .nothing, nofun, rfl⟩
  | cons vm vms ih =>
    obtain ⟨ls, t, isText, lays, holds, machines⟩ := ih
    have own : Holds ⟨some vm, vm.json.write⟩ := ⟨vm.feed_notMem_write, vm.describes_write⟩
    refine ⟨⟨some vm, vm.json.write⟩ :: ls, vm.json.write ++ ([0x0A] ++ t), ?_,
      .line (.inl rfl) lays, List.forall_mem_cons.mpr ⟨own, holds⟩, by simp [machines]⟩
    exact (Json.write_isText _).append (.cons (by decide) isText)

end Line

theorem groups_lays {ls : List Line} {text : String} (lays : Line.Lays ls (Bytes.ofString text))
    (holds : ∀ l ∈ ls, l.Holds) : Groups (ofListing text) (Line.firstIps ls) := by
  have groups := groups_ofListing text
  rwa [Line.entries_lays lays holds, funext (Line.firsts_entries ls)] at groups

theorem groups_append (a b : String) : Groups (ofListing (a ++ "\n" ++ b))
    fun job => (ofListing a).get job ++ (ofListing b).get job := by
  have groups := groups_ofListing (a ++ "\n" ++ b)
  have cut : Bytes.ofString (a ++ "\n" ++ b) = Bytes.ofString a ++ 0x0A :: Bytes.ofString b := by
    rw [Bytes.ofString_append, Bytes.ofString_append, List.append_assoc]
    rfl
  have parted (job : String) :
      firsts (entries (Bytes.ofString (a ++ "\n" ++ b))) job =
        (ofListing a).get job ++ (ofListing b).get job := by
    rw [cut, entries_append, firsts_append, (groups_ofListing a).get, (groups_ofListing b).get]
  rwa [funext parted] at groups

end VmIps

namespace HttpDirector

open Http (Exchange Reply)

variable {c : HttpDirector} {name : String} {ips : VmIps} {x y y' : Exchange}

/-- The last answer taken between the two states is a listing, with these headers and this body. -/
def Lists (x y : Exchange) (headers : Http.Headers) (body : Bytes) : Prop :=
  ∃ before, x.replies = before ++ some ⟨200, headers, some body⟩ :: y.replies

variable {headers : Http.Headers} {body : Bytes}

theorem Lists.after (lists : Lists y y' headers body) (before : y.replies <:+ x.replies) :
    Lists x y' headers body := by
  obtain ⟨first, split⟩ := before
  obtain ⟨before, split'⟩ := lists
  exact ⟨first ++ before, by rw [← split, split', List.append_assoc]⟩

theorem listed_ok {reply : Reply} (ok : c.listed reply = .ok ips) :
    ∃ body, reply.body = some body ∧ ips = .ofListing (c.decoding reply.headers body) := by
  unfold listed at ok
  cases held : reply.body with
  | none => simp [held] at ok
  | some body =>
    rw [held] at ok
    exact ⟨body, rfl, (Except.ok.inj ok).symm⟩

theorem settled_ok {url : Url} {answer : Option Reply} (ok : c.settled url answer = .ok ips) :
    ∃ headers body, answer = some ⟨200, headers, some body⟩ ∧
      ips = .ofListing (c.decoding headers body) := by
  cases answer with
  | none => cases ok
  | some reply =>
    unfold settled at ok
    dsimp only at ok
    split at ok
    next done =>
      obtain ⟨status, headers, _⟩ := reply
      obtain ⟨body, rfl, told⟩ := listed_ok ok
      obtain rfl : status = 200 := done
      exact ⟨headers, body, rfl, told⟩
    next => cases ok

theorem replies_asking (c : HttpDirector) (url : Url) (y : Exchange) :
    (c.asking .get url none y).replies <:+ y.replies := List.drop_suffix 1 y.replies

theorem replies_rest (c : HttpDirector) (attempt : Nat) (y : Exchange) :
    ((c.rest attempt).exec y).2.replies = y.replies := by
  unfold rest
  split
  · rfl
  · split <;> rfl

theorem pollListing_lists {url : Url} {attempt tries : Nat}
    (ok : (c.pollListing name url attempt tries).exec y = (.ok ips, y')) :
    ∃ headers body, Lists y y' headers body ∧ ips = .ofListing (c.decoding headers body) := by
  induction tries generalizing attempt y with
  | zero => cases ok
  | succ tries ih =>
    cases sendable : isSendable url with
    | false =>
      rw [exec_pollListing_unsendable sendable] at ok
      cases ok
    | true =>
      by_cases pending : NoContent (answer y 0)
      · rw [exec_pollListing_pending sendable pending] at ok
        obtain ⟨_, rested, waited, ok⟩ := Call.ok_of_exec_bind ok
        obtain ⟨headers, body, lists, listed⟩ := ih ok
        have same := c.replies_rest attempt (c.asking .get url none y)
        rw [waited] at same
        exact ⟨headers, body, lists.after (same ▸ c.replies_asking url y), listed⟩
      · rw [exec_pollListing_settled sendable pending] at ok
        obtain ⟨settles, rfl⟩ := Prod.mk.inj ok
        obtain ⟨headers, body, answered, listed⟩ := settled_ok (ok_of_mapError settles)
        obtain ⟨rest, split⟩ : ∃ rest, y.replies = some ⟨200, headers, some body⟩ :: rest := by
          cases replies : y.replies with
          | nil => simp [answer, replies] at answered
          | cons first rest => exact ⟨rest, by simpa [answer, replies] using answered⟩
        exact ⟨headers, body, ⟨[], by simp [split, asking]⟩, listed⟩

theorem replies_send (c : HttpDirector) (method : Http.Method) (url : Url)
    (content : Option Http.Content) (x : Exchange) :
    ((c.send method url content).exec x).2.replies <:+ x.replies := by
  cases sendable : isSendable url with
  | false => rw [still_send sendable]
  | true =>
    rw [sent_send sendable]
    exact List.drop_suffix 1 x.replies

theorem replies_task (c : HttpDirector) (id : String) (x : Exchange) :
    ((c.task id).exec x).2.replies <:+ x.replies := by
  cases placed : c.endpoint ["tasks", id] with
  | error e => rw [task, Call.exec_bind, Call.exec_lift, placed]
  | ok url =>
    rw [task, exec_placed placed, sent_bind fun reply => still_task reply id]
    exact c.replies_send ..

theorem vmIps_lists (ok : (c.director.vmIps name).exec x = (.ok ips, y)) :
    ∃ headers body, Lists x y headers body ∧ ips = .ofListing (c.decoding headers body) := by
  obtain ⟨handed, left⟩ := Prod.mk.inj ok
  have run : (c.vmIps name).exec x = (.ok ips, y) := Prod.ext (ok_of_mapError handed) left
  obtain ⟨task, asked, named, awaited⟩ := Call.ok_of_exec_bind run
  obtain ⟨named, left⟩ := Prod.mk.inj ((exec_lifted ..).symm.trans named)
  rcases c.requestListing_cases name x with ⟨e, failed⟩ | ⟨place, placed, -, asks⟩
  · rw [failed] at named
    cases named
  · obtain ⟨output, there, -⟩ := endpoint_of_endpoint placed ["tasks", task, "output"]
    rw [exec_awaitListing there] at awaited
    obtain ⟨headers, body, lists, listed⟩ := pollListing_lists awaited
    refine ⟨headers, body, lists.after ?_, listed⟩
    rw [← left, asks]
    exact c.replies_asking (place.withField "format" "full") x

end HttpDirector

namespace Broker

open Step

variable {δ ρ : Type} {w w' : Broker δ ρ} {s : Services δ ρ}

theorem ok_of_exec_check {ε σ α : Type} {c : Prop} [Decidable c] {e : ε}
    {rest : Unit → Call ε σ α} {x y : σ} {a : α}
    (ok : (if c then (throw e : Call ε σ Unit) >>= rest else rest ()).exec x = (.ok a, y)) :
    (rest ()).exec x = (.ok a, y) := by
  split at ok
  · cases ok
  · exact ok

theorem director_of_exec_onStore {α : Type} {rename : String → BrokerError}
    {call : Call StoreError ρ α} {b b' : Broker δ ρ} {a : α}
    (ok : (onStore rename call).exec b = (.ok a, b')) : b'.director = b.director := by
  obtain rfl := (Prod.mk.inj ok).2
  rfl

theorem exec_of_exec_onDirector {α : Type} {call : Call BrokerError δ α} {b b' : Broker δ ρ}
    {a : α} (ok : (onDirector call).exec b = (.ok a, b')) :
    call.exec b.director = (.ok a, b'.director) := by
  rw [exec_onDirector] at ok
  obtain ⟨result, rfl⟩ := Prod.mk.inj ok
  exact Prod.ext result rfl

theorem exec_bind_asks {id bindingId : String} {request : BindRequest} {now : Timestamp}
    {credentials : Credentials}
    (ok : (bind s id bindingId request now).exec w = (.ok credentials, w')) :
    ∃ task deployment ips, (s.director.vmIps deployment).exec
        ((s.director.task task).exec w.director).2 = (.ok ips, w'.director) ∧
      credentials = .ofAddresses (ips.get "peer") := by
  -- The Director is asked for the task, then for the machines; the store leaves it as it is.
  unfold bind at ok
  dsimp only at ok
  obtain ⟨known, v, looked, ok⟩ := Call.ok_of_exec_bind (ok_of_exec_check ok)
  obtain ⟨recorded, u, found, ok⟩ := Call.ok_of_exec_bind (ok_of_exec_check ok)
  have same : u.director = w.director :=
    (director_of_exec_onStore found).trans (director_of_exec_onStore looked)
  cases recorded with
  | none => cases ok
  | some i =>
    dsimp only at ok
    obtain ⟨task, asked, seen, ok⟩ := Call.ok_of_exec_bind (ok_of_exec_check ok)
    obtain ⟨ips, listed, told, ok⟩ := Call.ok_of_exec_bind (ok_of_exec_check ok)
    obtain ⟨_, saved, kept, ok⟩ := Call.ok_of_exec_bind ok
    obtain ⟨made, rfl⟩ := Call.ok_inj ok
    have seen := exec_of_exec_onDirector seen
    have told := exec_of_exec_onDirector told
    refine ⟨i.provisionTask, i.deployment, ips, ?_, made.symm⟩
    rw [← same, seen, director_of_exec_onStore kept]
    exact told

theorem peers_ofAddresses (ips : List String) :
    (Credentials.ofAddresses ips).peers = ips.map (· ++ ":7050") := by
  have port : Numeral.decimal Credentials.peerPort = "7050" := by decide +kernel
  simp only [Credentials.ofAddresses, port, String.append_assoc]
  rfl

/-- Every job gets the first address of each of its machines that has one, in the order of the listing,
and a binding is told the peers. -/
theorem bind_tells_listed_peers :
    (∀ vms : List VmLine, ∃ ls text, VmIps.Line.Lays ls (Bytes.ofString text) ∧
      (∀ l ∈ ls, l.Holds) ∧ ls.filterMap (·.machine) = vms) ∧
    (∀ ls text, VmIps.Line.Lays ls (Bytes.ofString text) → (∀ l ∈ ls, l.Holds) →
      VmIps.Groups (.ofListing text) (VmIps.Line.firstIps ls)) ∧
    (∀ a b, VmIps.Groups (.ofListing (a ++ "\n" ++ b)) fun job =>
      (VmIps.ofListing a).get job ++ (VmIps.ofListing b).get job) ∧
    ∀ {ρ : Type} (c : HttpDirector) (store : Store ρ) (details : DirectorDetails)
      (id bindingId : String) (request : BindRequest) (now : Timestamp)
      (w w' : Broker Http.Exchange ρ) (credentials : Credentials),
      (bind ⟨c.director, store, details⟩ id bindingId request now).exec w =
          (.ok credentials, w') →
        ∃ headers body, HttpDirector.Lists w.director w'.director headers body ∧
          let text := c.decoding headers body
          credentials.peers = ((VmIps.ofListing text).get "peer").map (· ++ ":7050") ∧
          (∀ ls, VmIps.Line.Lays ls (Bytes.ofString text) → (∀ l ∈ ls, l.Holds) →
            credentials.peers = (VmIps.Line.firstIps ls "peer").map (· ++ ":7050")) ∧
          (c.decoding.ReadsPlain → ∀ plain ls, Http.Plain headers plain →
            body = Bytes.ofString plain → VmIps.Line.Lays ls body → (∀ l ∈ ls, l.Holds) →
            credentials.peers = (VmIps.Line.firstIps ls "peer").map (· ++ ":7050")) := by
  refine ⟨VmIps.Line.exists_lays, fun ls text lays holds => VmIps.groups_lays lays holds,
    VmIps.groups_append, ?_⟩
  intro ρ c store details id bindingId request now w w' credentials ok
  obtain ⟨task, deployment, ips, listing, rfl⟩ := exec_bind_asks ok
  obtain ⟨headers, body, lists, rfl⟩ := HttpDirector.vmIps_lists listing
  have told (ls : List VmIps.Line)
      (lays : VmIps.Line.Lays ls (Bytes.ofString (c.decoding headers body)))
      (holds : ∀ l ∈ ls, l.Holds) :
      (Credentials.ofAddresses ((VmIps.ofListing (c.decoding headers body)).get "peer")).peers =
        (VmIps.Line.firstIps ls "peer").map (· ++ ":7050") := by
    rw [peers_ofAddresses, (VmIps.groups_lays lays holds).get]
  refine ⟨headers, body, lists.after (c.replies_task task w.director), peers_ofAddresses _, told, ?_⟩
  rintro reads plain ls isPlain rfl lays holds
  refine told ls ?_ holds
  rwa [reads headers plain isPlain]

section Sample

open VmIps (Line)
open Http (Exchange)

def mixed : String :=
  "\x7b\"job_name\":\"peer\",\"ips\":[\"10.0.0.1\"]\x7d\r\n\r\nunreachable\n" ++
    "\x7b\"job_name\":\"peer\",\"ips\":[\"10.0.0.2\",\"10.1.0.2\"]\x7d"

def mixedLines : List Line :=
  let written (vm : VmLine) : Line := ⟨some vm, vm.json.write⟩
  [written ⟨"peer", ["10.0.0.1"]⟩, ⟨none, []⟩, ⟨none, Bytes.ofString "unreachable"⟩,
    written ⟨"peer", ["10.0.0.2", "10.1.0.2"]⟩]

def deployedMixed : Broker Exchange MemoryStore where
  pool := .new ["net1"]
  director :=
    { replies := [some ⟨200, [], some (Bytes.ofString "\x7b\"id\":17,\"state\":\"done\"\x7d")⟩,
        some begun, some ⟨200, [], some (Bytes.ofString mixed)⟩] }
  records := { instances := [.new "a" "fabric-a" "net1" "17" (orderOf .permissionless) firstDay] }

abbrev bindMixed : Step Exchange MemoryStore Credentials :=
  bind ⟨openDirector.director, MemoryStore.store, someDetails⟩ "a" "b"
    ⟨Catalog.serviceId, Plan.permissionless.id, none⟩ firstDay

theorem lays_mixed : Line.Lays mixedLines (Bytes.ofString mixed) := by
  have laid : Line.Lays mixedLines _ :=
    .line (.inr rfl) (.line (.inr rfl) (.line (.inl rfl) (.last _)))
  convert laid using 1
  decide +kernel

theorem holds_mixed : ∀ l ∈ mixedLines, l.Holds := by
  have written (vm : VmLine) : Line.Holds ⟨some vm, vm.json.write⟩ :=
    ⟨vm.feed_notMem_write, vm.describes_write⟩
  have empty : Line.Holds ⟨none, []⟩ := ⟨List.not_mem_nil, .inl ⟨"", rfl, by simp⟩⟩
  have notJson : ¬IsJson (Bytes.ofString "unreachable") := by
    rintro ⟨v, b, value, -, split⟩
    obtain ⟨b', c, t, l, blank, leads, rfl⟩ := value.lead
    rw [List.append_assoc] at split
    cases b' with
    | nil =>
      obtain rfl : 0x75 = c := (List.cons.inj split).1
      cases leads
    | cons first b' =>
      obtain rfl : 0x75 = first := (List.cons.inj split).1
      exact absurd (blank _ List.mem_cons_self) (by decide)
  simp only [mixedLines, List.forall_mem_cons, List.not_mem_nil, false_implies, implies_true,
    and_true]
  exact ⟨written _, empty, ⟨by decide +kernel, .inr notJson⟩, written _⟩

theorem bind_tells_listed_peers_mixed :
    Line.Lays mixedLines (Bytes.ofString mixed) ∧ (∀ l ∈ mixedLines, l.Holds) ∧
      Line.firstIps mixedLines "peer" = ["10.0.0.1", "10.0.0.2"] ∧
      ∃ credentials w', bindMixed.exec deployedMixed = (.ok credentials, w') ∧
        credentials.peers = ["10.0.0.1:7050", "10.0.0.2:7050"] := by
  have bound : (bindMixed.exec deployedMixed).1.toOption.isSome = true := by decide +kernel
  have taken : (bindMixed.exec deployedMixed).2.director.replies = [] := by decide +kernel
  have plain : Http.Plain [] mixed := Http.plain_bare (by decide +kernel)
  have firsts : Line.firstIps mixedLines "peer" = ["10.0.0.1", "10.0.0.2"] := by decide +kernel
  obtain ⟨credentials, made⟩ := Option.isSome_iff_exists.mp bound
  obtain ⟨w', ok⟩ : ∃ w', bindMixed.exec deployedMixed = (.ok credentials, w') :=
    ⟨_, Prod.ext (Call.ok_of_toOption made) rfl⟩
  obtain ⟨headers, body, ⟨before, replies⟩, -, -, peers⟩ :=
    bind_tells_listed_peers.2.2.2 openDirector MemoryStore.store someDetails "a" "b" _ firstDay
      deployedMixed w' credentials ok
  -- All answers have been taken, and so the listing is the last of them.
  rw [ok] at taken
  rw [taken] at replies
  have last := congrArg List.getLast? replies
  rw [List.getLast?_concat] at last
  obtain ⟨-, rfl, sent⟩ := Http.Reply.mk.inj (Option.some.inj (Option.some.inj last))
  obtain rfl := Option.some.inj sent
  refine ⟨lays_mixed, holds_mixed, firsts, credentials, w', ok, ?_⟩
  rw [peers Http.Decoding.utf8_readsPlain mixed mixedLines plain rfl lays_mixed holds_mixed,
    firsts]
  decide

end Sample

end Broker

end LedgerBroker
