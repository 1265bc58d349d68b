import LedgerBroker.Proofs.AcceptedCreate
import LedgerBroker.Proofs.PercentText

set_option autoImplicit false

namespace LedgerBroker

open PercentEncoding (Spells decode isEscapedInSegment)

namespace Url

/-- What of a text goes into a segment. -/
def kept (s : String) : String := String.ofList (s.toList.filter (!isLineBreakOrTab ·))

theorem kept_append (s t : String) : kept (s ++ t) = kept s ++ kept t := by
  simp [kept, String.ofList_append]

theorem kept_eq_iff (s : String) : kept s = s ↔ ∀ ch ∈ s.toList, isLineBreakOrTab ch = false := by
  rw [← String.toList_inj, kept, String.toList_ofList, List.filter_eq_self]
  simp

def stem (parts : List (List Char)) : List (List Char) :=
  if parts = [[], []] then []
  else if parts.getLast? = some [] then parts.dropLast
  else parts

def segment (name : String) : List Char :=
  PercentEncoding.encode (isEscapedInSegment true) (kept name).toList

def deployment (base : Url) (parts : List (List Char)) (name : String) : Url :=
  { base with path := .segments (stem parts ++ ["deployments".toList, segment name]) }

theorem segment_spells (name : String) :
    Spells (!isEscapedInSegment true ·) (Bytes.ofString (kept name)) (segment name) := by
  have wide (c : Char) (large : 0x80 ≤ c.toNat) : isEscapedInSegment true c := by
    have control : PercentEncoding.isControl c := by
      simp only [PercentEncoding.isControl, Bool.or_eq_true, decide_eq_true_eq]
      omega
    simp [isEscapedInSegment, PercentEncoding.isEscapedInPath,
      PercentEncoding.isEscapedInFragment, control]
  have spells := PercentEncoding.encode_spells rfl wide (kept name).toList
  rwa [String.ofList_toList] at spells

theorem decode_segment (name : String) :
    decode (Bytes.ofString (String.ofList (segment name))) = Bytes.ofString (kept name) :=
  (segment_spells name).decode

theorem segment_single (name : String) : '/' ∉ segment name :=
  (segment_spells name).not_mem rfl rfl (by decide)

theorem segment_inj {name other : String} :
    segment name = segment other ↔ kept name = kept other := by
  refine ⟨fun same => ?_, fun same => by rw [segment, segment, same]⟩
  -- What both decode to is the text that was kept of either.
  have bytes : Bytes.ofString (kept name) = Bytes.ofString (kept other) := by
    rw [← decode_segment, same, decode_segment]
  have texts := congrArg Bytes.text? bytes
  simpa only [Bytes.text?_ofString, Option.some.injEq] using texts

theorem dropTrailingEmpty_stem (parts : List (List Char)) :
    (if dropTrailingEmpty parts = [[]] then [] else dropTrailingEmpty parts) = stem parts := by
  by_cases double : parts = [[], []]
  · rw [double]; rfl
  rw [stem, if_neg double]
  by_cases empty : parts.getLast? = some []
  · -- Something stands before the empty segment, or it is the whole path and stays.
    obtain ⟨front, rfl⟩ := List.getLast?_eq_some_iff.1 empty
    rw [if_pos empty, List.dropLast_concat]
    rcases front with _ | ⟨part, rest⟩
    · rfl
    · have dropped : dropTrailingEmpty (part :: rest ++ [[]]) = part :: rest := by
        rw [dropTrailingEmpty, if_pos ⟨by simp, empty⟩, List.dropLast_concat]
      have apart : part :: rest ≠ [[]] := fun root => double (by rw [root]; rfl)
      rw [dropped, if_neg apart]
  · have whole : dropTrailingEmpty parts = parts := if_neg fun both => empty both.2
    have apart : parts ≠ [[]] := by rintro rfl; exact empty rfl
    rw [if_neg empty, whole, if_neg apart]

theorem appendSegment_deployments (parts : List (List Char)) :
    appendSegment true parts "deployments".toList =
      (if parts = [[]] then [] else parts) ++ ["deployments".toList] := by
  have plain : PercentEncoding.encode (isEscapedInSegment true)
      ("deployments".toList.filter (!isLineBreakOrTab ·)) = "deployments".toList := by decide
  simp only [appendSegment, plain]
  rfl

theorem segment_dedicated (id : String) :
    segment ("fabric-" ++ id) = "fabric-".toList ++ segment id := by
  have plain : PercentEncoding.encode (isEscapedInSegment true) (kept "fabric-").toList =
      "fabric-".toList := by decide
  rw [segment, kept_append, String.toList_append, PercentEncoding.encode, List.flatMap_append]
  exact congrArg (· ++ segment id) plain

theorem appendSegment_dedicated {parts : List (List Char)} (settled : parts ≠ [[]]) (id : String) :
    appendSegment true parts ("fabric-" ++ id).toList = parts ++ [segment ("fabric-" ++ id)] := by
  have named : ("fabric-" ++ id).toList ≠ ['.'] ∧ ("fabric-" ++ id).toList ≠ ['.', '.'] := by
    simp
  have spelled : PercentEncoding.encode (isEscapedInSegment true)
      (("fabric-" ++ id).toList.filter (!isLineBreakOrTab ·)) = segment ("fabric-" ++ id) := by
    rw [segment, kept, String.toList_ofList]
  -- The name is never one of the two segments that stand for a place.
  have noDots : segment ("fabric-" ++ id) ≠ ['.'] ∧ segment ("fabric-" ++ id) ≠ ['.', '.'] := by
    rw [segment_dedicated]
    simp
  simp only [appendSegment, spelled, named.1, named.2, noDots.1, noDots.2, settled, or_self,
    if_false]

theorem descend?_dedicated {base : Url} {parts : List (List Char)}
    (hierarchical : base.path = .segments parts) (special : isSpecialScheme base.scheme = true)
    (id : String) : base.descend? ["deployments", "fabric-" ++ id] =
      some (base.deployment parts ("fabric-" ++ id)) := by
  have settled : stem parts ++ ["deployments".toList] ≠ [[]] := by
    rcases stem parts with _ | ⟨part, rest⟩ <;> simp
  simp only [descend?, hierarchical, special, List.foldl_cons, List.foldl_nil,
    appendSegment_deployments, dropTrailingEmpty_stem]
  rw [appendSegment_dedicated settled, List.append_assoc]
  rfl

theorem pathGuard_last (base : Url) (front : List (List Char)) (word part other : List Char) :
    pathGuard { base with path := .segments (front ++ [word, part]) } =
      pathGuard { base with path := .segments (front ++ [word, other]) } := by
  unfold pathGuard
  rcases front with _ | ⟨_ | ⟨c, first⟩, _ | ⟨second, rest⟩⟩ <;> cases word <;>
    cases base.authority <;> rfl

theorem toString_deployment {base : Url} {parts : List (List Char)} {name other : String} :
    (base.deployment parts name).toString = (base.deployment parts other).toString ↔
      kept name = kept other := by
  refine ⟨fun same => segment_inj.1 ?_, fun same => ?_⟩
  · have same := String.ofList_injective same
    simp only [chars, deployment, pathGuard_last base _ _ (segment name) (segment other),
      Path.text, List.flatMap_append, List.append_cancel_left_eq,
      List.append_cancel_right_eq] at same
    simpa using same
  · rw [deployment, deployment, segment_inj.2 same]

namespace Parser

theorem ok_of_bind {α β : Type} {x : Except Fault α} {f : α → Except Fault β} {b : β}
    (ok : x >>= f = .ok b) : ∃ a, x = .ok a ∧ f a = .ok b := by
  cases x with
  | error e => cases ok
  | ok a => exact ⟨a, rfl, ok⟩

variable {toAscii : ToAscii} {scheme cs : List Char} {a : Option Authority} {path : Path}

theorem segments_of_place (file : isFileScheme scheme = false)
    (special : isSpecialScheme scheme = true) (placed : place toAscii scheme cs = .ok (a, path)) :
    ∃ parts, path = .segments parts := by
  simp only [place, file, special, Bool.false_eq_true, if_false, if_true] at placed
  obtain ⟨found, _, here⟩ := ok_of_bind placed
  cases here
  unfold hierarchy
  split
  · exact ⟨_, rfl⟩
  · exact ⟨_, rfl⟩

theorem segments_of_parse {u : Url} (parsed : parse toAscii cs = .ok u)
    (file : isFileScheme u.scheme = false) (special : isSpecialScheme u.scheme = true) :
    ∃ parts, u.path = .segments parts := by
  unfold parse at parsed
  split at parsed
  · obtain ⟨found, placed, here⟩ := ok_of_bind parsed
    cases here
    exact segments_of_place file special placed
  · cases parsed

end Parser

end Url

open Http (Exchange Reply)

namespace HttpDirector

variable {c : HttpDirector} {method : Http.Method} {url : Url} {content : Option Http.Content}
  {name : String}

def request (c : HttpDirector) (method : Http.Method) (url : Url) : Http.Request :=
  ⟨method, url.withoutFragment, c.login.map (·.authorization), none⟩

/-- What the Director is asked about a deployment goes to a URL: a deletion first, and then nothing
but lookups; a lookup alone. A host that cannot be reached is asked nothing, nor is any host by a URL
that is too long. -/
structure Addresses (c : HttpDirector) (name : String) (url : Url) : Prop where
  endpoint : c.endpoint ["deployments", name] = .ok url
  deletes (reachable : isReachable c.base = true) (short : url.isShort = true) (x : Exchange) :
    ∃ later, ((c.deleteDeployment name).exec x).2.sent = x.sent ++ c.request .delete url :: later ∧
      ∀ r ∈ later, r.method = .get
  looksUp (reachable : isReachable c.base = true) (short : url.isShort = true) (x : Exchange) :
    ((c.network name).exec x).2.sent = x.sent ++ [c.request .get url]
  unreached (unsent : isReachable c.base = false ∨ url.isShort = false) (x : Exchange) :
    ((c.deleteDeployment name).exec x).2 = x ∧ ((c.network name).exec x).2 = x

section Sent

variable {α β : Type} {call : Call BrokerError Exchange α} {f : α → Call BrokerError Exchange β}

def Still (call : Call BrokerError Exchange α) : Prop := ∀ x, (call.exec x).2 = x

def Gets (call : Call BrokerError Exchange α) : Prop :=
  ∀ x, ∃ later, (call.exec x).2.sent = x.sent ++ later ∧ ∀ r ∈ later, r.method = .get

theorem still_lift (e : Except BrokerError α) : Still (liftM e) := fun _ => rfl

theorem Still.bind (still : Still call) (rest : ∀ a, Still (f a)) : Still (call >>= f) := by
  intro x
  rw [Call.exec_bind]
  split
  · exact (rest _ _).trans (still x)
  · exact still x

theorem Still.gets (still : Still call) : Gets call := by
  intro x
  refine ⟨[], ?_, List.forall_mem_nil _⟩
  rw [still x, List.append_nil]

theorem Gets.bind (gets : Gets call) (rest : ∀ a, Gets (f a)) : Gets (call >>= f) := by
  intro x
  obtain ⟨first, sent, lookups⟩ := gets x
  rw [Call.exec_bind]
  split
  · obtain ⟨later, sent', lookups'⟩ := rest _ (call.exec x).2
    refine ⟨first ++ later, by rw [sent', sent, List.append_assoc], fun r mem => ?_⟩
    exact (List.mem_append.1 mem).elim (lookups r) (lookups' r)
  · exact ⟨first, sent, lookups⟩

theorem sent_bind (rest : ∀ a, Still (f a)) (x : Exchange) :
    ((call >>= f).exec x).2 = (call.exec x).2 := by
  rw [Call.exec_bind]
  split
  · exact rest _ _
  · rfl

theorem exec_placed {segments : List String} (placed : c.endpoint segments = .ok url)
    (f : Url → Call BrokerError Exchange α) (x : Exchange) :
    ((liftM (c.endpoint segments) : Call BrokerError Exchange Url) >>= f).exec x =
      (f url).exec x := by
  rw [Call.exec_bind, Call.exec_lift, placed]

theorem sent_send (sendable : isSendable url = true) (x : Exchange) :
    ((c.send method url content).exec x).2 = c.asking method url content x := by
  unfold send
  rw [if_pos sendable]
  rfl

theorem still_send (unsendable : isSendable url = false) : Still (c.send method url content) :=
  fun _ => by rw [exec_send_unsendable unsendable]

theorem gets_send : Gets (c.send .get url content) := by
  cases sendable : isSendable url with
  | false => exact (still_send sendable).gets
  | true => exact fun x => ⟨_, congrArg _ (sent_send sendable x), by simp⟩

end Sent

theorem still_task (reply : Reply) (id : String) : Still (do
    if reply.status = 404 then throw (.taskNotFound id)
    if reply.status ≠ 200 then throw (.directorStatus reply.status)
    HttpDirector.decode Task.reader reply : Call BrokerError Exchange Task) := by
  intro y
  by_cases missing : reply.status = 404
  · simp only [if_pos missing]
    rfl
  · by_cases failed : reply.status ≠ 200
    · simp only [if_neg missing, if_pos failed]
      rfl
    · simp only [if_neg missing, if_neg failed]
      rfl

theorem gets_task (id : String) : Gets (c.task id) :=
  (still_lift _).gets.bind fun _ => gets_send.bind fun reply => (still_task reply id).gets

theorem still_network (reply : Reply) : Still (do
    if reply.status = 404 then return none
    if reply.status ≠ 200 then throw (.directorStatus reply.status)
    match Manifest.firstNetwork? (← HttpDirector.decode manifestReader reply) with
    | none => throw (.boshInvalidResponse "<yaml>")
    | some network => return network : Call BrokerError Exchange (Option String)) := by
  intro y
  by_cases missing : reply.status = 404
  · simp only [if_pos missing]
    rfl
  · by_cases failed : reply.status ≠ 200
    · simp only [if_neg missing, if_pos failed]
      rfl
    · simp only [if_neg missing, if_neg failed]
      refine (still_lift _).bind (fun manifest => ?_) y
      intro z
      cases Manifest.firstNetwork? manifest <;> rfl

theorem addresses_of_endpoint (placed : c.endpoint ["deployments", name] = .ok url)
    (sameHost : isReachable url = isReachable c.base) : c.Addresses name url where
  endpoint := placed
  deletes reachable short x := by
    have sendable : isSendable url = true := by simp [isSendable, sameHost, reachable, short]
    have asked : ((c.submit .delete url none).exec x).2 = c.asking .delete url none x :=
      (sent_bind (fun _ => still_lift _) x).trans (sent_send sendable x)
    unfold deleteDeployment
    rw [exec_placed placed, Call.exec_bind, asked]
    -- A deletion that is accepted is followed by a look at its task.
    split
    · obtain ⟨later, sent, lookups⟩ := gets_task _ (c.asking .delete url none x)
      exact ⟨later, sent.trans (by simp [asking, request]), lookups⟩
    · exact ⟨[], rfl, List.forall_mem_nil _⟩
  looksUp reachable short x := by
    have sendable : isSendable url = true := by simp [isSendable, sameHost, reachable, short]
    unfold network
    rw [exec_placed placed]
    exact congrArg Exchange.sent ((sent_bind still_network x).trans (sent_send sendable x))
  unreached unsent x := by
    have unsendable : isSendable url = false := by
      rw [isSendable, sameHost, Bool.and_eq_false_iff]
      exact unsent
    refine ⟨?_, ?_⟩
    · unfold deleteDeployment submit
      rw [exec_placed placed]
      exact congrArg Prod.snd
        (Call.exec_bind_error (Call.exec_bind_error (exec_send_unsendable unsendable)))
    · unfold network
      rw [exec_placed placed]
      exact (still_send unsendable).bind still_network x

/-- A dedicated deployment is addressed by the segments of the Director's URL and two more, of which
the last spells its name but for tabs and line breaks. -/
theorem dedicated_addressed {directorUrl : String} {retry : RetryPolicy}
    {decoding : Http.Decoding} {toAscii : Url.ToAscii} {c : HttpDirector}
    (built : ofUrl directorUrl retry decoding toAscii = .ok c)
    (web : c.base.scheme = "http".toList ∨ c.base.scheme = "https".toList) :
    ∃ parts, c.base.path = .segments parts ∧
      (∀ id, c.Addresses ("fabric-" ++ id) (c.base.deployment parts ("fabric-" ++ id))) ∧
      (∀ id, '/' ∉ Url.segment ("fabric-" ++ id) ∧
        PercentEncoding.decode (Bytes.ofString (String.ofList (Url.segment ("fabric-" ++ id)))) =
          Bytes.ofString ("fabric-" ++ Url.kept id)) ∧
      (∀ id, Url.kept id = id ↔ ∀ ch ∈ id.toList, Url.isLineBreakOrTab ch = false) ∧
      ∀ id other, (c.base.deployment parts ("fabric-" ++ id)).toString =
        (c.base.deployment parts ("fabric-" ++ other)).toString ↔ Url.kept id = Url.kept other := by
  have file : Url.isFileScheme c.base.scheme = false := by
    rcases web with web | web <;> rw [web] <;> decide
  have special : Url.isSpecialScheme c.base.scheme = true := by
    rcases web with web | web <;> rw [web] <;> decide
  have plain (id : String) : Url.kept ("fabric-" ++ id) = "fabric-" ++ Url.kept id := by
    rw [Url.kept_append]
    rfl
  -- A web URL has a path of segments, which is what can be extended.
  obtain ⟨parts, hierarchical⟩ : ∃ parts, c.base.path = .segments parts := by
    unfold ofUrl at built
    cases parsed : Url.ofString directorUrl toAscii with
    | error fault => simp [parsed] at built
    | ok base =>
      simp only [parsed, Except.ok.injEq] at built
      subst built
      have segments : ∃ parts, base.path = .segments parts :=
        Url.Parser.segments_of_parse parsed file special
      exact segments
  refine ⟨parts, hierarchical, fun id => addresses_of_endpoint ?_ rfl, fun id => ⟨?_, ?_⟩,
    Url.kept_eq_iff, fun id other => ?_⟩
  · rw [HttpDirector.endpoint, Url.descend?_dedicated hierarchical special]
  · exact Url.segment_single _
  · rw [Url.decode_segment, plain]
  · rw [Url.toString_deployment, plain, plain, String.append_right_inj]

section Sample

def plainBase : Url where
  scheme := "http".toList
  authority := some ⟨none, .name "director".toList, none⟩
  path := .segments [[]]
  query := none
  fragment := none

theorem plainHost : Url.Parser.namedHost Url.Domain.toAscii? "director".toList =
    .ok (.name "director".toList) := by
  have bytes : PercentEncoding.decode (Bytes.ofString (String.ofList "director".toList)) =
      Bytes.ofString "director" :=
    (PercentEncoding.spells_encode (fun _ => true) "director").decode
  have name : Url.Domain.toAscii? (PercentEncoding.decode
      (Bytes.ofString (String.ofList "director".toList))) = some "director".toList := by
    rw [bytes, Url.Domain.toAscii?, Bytes.text?_ofString]
    decide
  rw [Url.Parser.namedHost, if_neg (by decide), name]
  rfl

theorem plainAuthority :
    Url.Parser.authority Url.Domain.toAscii? "http".toList "director".toList =
      .ok ⟨none, .name "director".toList, none⟩ := by
  have host : Url.Parser.namedHost Url.Domain.toAscii? (Url.Parser.splitPort false
      (Url.Parser.splitUserInfo "director".toList).2).1 = .ok (.name "director".toList) := plainHost
  simp only [Url.Parser.authority, host]
  rfl

theorem plainPlace :
    Url.Parser.place Url.Domain.toAscii? "http".toList "//director".toList =
      .ok (plainBase.authority, plainBase.path) := by
  have file : Url.isFileScheme "http".toList = false := by decide
  have special : Url.isSpecialScheme "http".toList = true := by decide
  have slashes : "//director".toList.dropWhile (Url.Parser.isSlash true) = "director".toList := by
    decide
  have whole : "director".toList.takeWhile (!Url.Parser.endsAuthority true ·) =
      "director".toList := by decide
  simp only [Url.Parser.place, file, special, slashes, whole, plainAuthority, Bool.false_eq_true,
    if_false, if_true]
  rfl

theorem ofString_plain : Url.ofString "http://director" Url.Domain.toAscii? = .ok plainBase := by
  have scheme : Url.Parser.scheme? (Url.Parser.clean "http://director".toList) =
      some ("http".toList, "//director".toList) := by decide
  have cut : Url.Parser.cut "//director".toList = ("//director".toList, none, none) := by decide
  simp only [Url.ofString, Url.Parser.parse, scheme, cut, plainPlace]
  rfl

theorem ofUrl_plain :
    ofUrl "http://director" .default = .ok ⟨plainBase, none, .default, .utf8⟩ := by
  rw [ofUrl, ofString_plain]
  rfl

theorem dedicated_addressed_plain : ∃ url : Url,
    url.toString = "http://director/deployments/fabric-..%2F%25" ∧
      Addresses ⟨plainBase, none, .default, .utf8⟩ ("fabric-" ++ "../%") url := by
  obtain ⟨parts, path, addresses, -⟩ := dedicated_addressed ofUrl_plain (.inl rfl)
  obtain rfl : [[]] = parts := Url.Path.segments.inj path
  exact ⟨_, by decide, addresses "../%"⟩

theorem tab_addresses_other : ∃ c : HttpDirector, ofUrl "http://director" .default = .ok c ∧
    ∃ url, url.toString = "http://director/deployments/fabric-ab" ∧
      c.Addresses "fabric-a\tb" url ∧ c.Addresses "fabric-ab" url := by
  refine ⟨_, ofUrl_plain, plainBase.deployment [[]] "fabric-ab", by decide,
    addresses_of_endpoint ?_ rfl, addresses_of_endpoint ?_ rfl⟩
  · rfl
  · rfl

end Sample

end HttpDirector

end LedgerBroker
