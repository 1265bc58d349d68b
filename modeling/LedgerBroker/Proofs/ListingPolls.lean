import LedgerBroker.Proofs.ReplyText
import LedgerBroker.Proofs.Requests
import Mathlib.Algebra.BigOperators.Group.Finset.Basic
import Mathlib.Algebra.BigOperators.Ring.Finset

set_option autoImplicit false

namespace LedgerBroker

open Http (Exchange Reply)

theorem Duration.Fits.mono {d e : Duration} (fits : e.Fits) (le : d.nanos ≤ e.nanos) : d.Fits :=
  Nat.lt_of_le_of_lt (Nat.div_le_div_right le) fits

namespace RetryPolicy

variable {p : RetryPolicy} {attempt : Nat}

theorem delayAfter_before (more : attempt < p.maxAttempts) :
    p.delayAfter attempt = some (p.step.times attempt) := if_neg (Nat.not_le_of_lt more)

theorem delayAfter_last (last : p.maxAttempts ≤ attempt) : p.delayAfter attempt = none :=
  if_pos last

theorem delays_fit_iff (p : RetryPolicy) :
    (∀ attempt delay, p.delayAfter attempt = some delay → delay.Fits) ↔
      (p.step.times (p.maxAttempts - 1)).Fits := by
  constructor
  · intro all
    cases tries : p.maxAttempts with
    | zero => exact (by decide : Duration.Fits ⟨0⟩)
    | succ m => exact all m _ (delayAfter_before (by omega))
  · intro longest attempt delay waited
    rcases Nat.lt_or_ge attempt p.maxAttempts with more | last
    · obtain rfl := Option.some.inj ((delayAfter_before more).symm.trans waited)
      exact longest.mono (Nat.mul_le_mul_left _ (Nat.le_sub_one_of_lt more))
    · exact nomatch (delayAfter_last last).symm.trans waited

example : (RetryPolicy.default.step.times (RetryPolicy.default.maxAttempts - 1)).Fits := by
  decide

def waits (p : RetryPolicy) (attempt n : Nat) : Nat :=
  p.step.nanos * ∑ i ∈ Finset.range n, (attempt + i)

theorem waits_succ (p : RetryPolicy) (attempt n : Nat) :
    p.waits attempt (n + 1) = p.waits attempt n + p.step.nanos * (attempt + n) := by
  rw [waits, Finset.sum_range_succ, Nat.mul_add]
  rfl

def FitsBelow (p : RetryPolicy) (attempt : Nat) : Prop :=
  ∀ other < attempt, (p.step.times other).Fits

theorem fitsBelow_succ {n : Nat} (longest : (p.step.times n).Fits) : p.FitsBelow (n + 1) :=
  fun _ less => longest.mono (Nat.mul_le_mul_left _ (Nat.le_of_lt_succ less))

theorem fitsBelow_max (longest : (p.step.times (p.maxAttempts - 1)).Fits) :
    p.FitsBelow p.maxAttempts := by
  cases tries : p.maxAttempts with
  | zero => exact fun _ less => absurd less (Nat.not_lt_zero _)
  | succ n =>
    rw [tries] at longest
    exact fitsBelow_succ longest

def total (p : RetryPolicy) (attempts : Nat) : Nat :=
  p.initialDelay.nanos + p.step.nanos * ∑ i ∈ Finset.range attempts, i

theorem total_succ (p : RetryPolicy) (n : Nat) :
    p.total (n + 1) = p.initialDelay.nanos + p.waits 1 n := by
  rw [total, Finset.sum_range_succ', Nat.add_zero, waits]
  simp only [Nat.add_comm 1]

end RetryPolicy

namespace HttpDirector

variable {c : HttpDirector} {url : Url} {x y y' : Exchange} {name : String} {attempt tries k : Nat}

/-- What comes of the request with this number, counted from nought; nothing if nobody answers. -/
def answer (x : Exchange) (k : Nat) : Option Reply := x.replies[k]?.join

def NoContent (answer : Option Reply) : Prop := ∃ reply, answer = some reply ∧ reply.status = 204

/-- What an answer settles if it is another than that there is no content yet. -/
def settled (c : HttpDirector) (url : Url) : Option Reply → Except BrokerError VmIps
  | none => .error (.boshConnect ("error sending request for url (" ++ url.toString ++ ")"))
  | some reply =>
    if reply.status = 200 then c.listed reply else .error (.directorStatus reply.status)

theorem settled_plain (reads : c.decoding.ReadsPlain) {headers : Http.Headers} {text : String}
    (plain : Http.Plain headers text) :
    c.settled url (some ⟨200, headers, some (Bytes.ofString text)⟩) = .ok (.ofListing text) := by
  rw [settled, if_pos rfl, listed]
  exact congrArg (fun told => Except.ok (VmIps.ofListing told)) (reads headers text plain)

theorem exec_lifted {σ α : Type} (call : Call BrokerError σ α) (s : σ) :
    (liftM call : Call Halt σ α).exec s =
      ((call.exec s).1.mapError .failed, (call.exec s).2) := rfl

theorem exec_send_sendable (sendable : isSendable url = true) (x : Exchange) :
    (c.send .get url none).exec x =
      (match answer x 0 with
        | some reply => .ok reply
        | none => .error (.boshConnect ("error sending request for url (" ++ url.toString ++ ")")),
        c.asking .get url none x) := by
  obtain ⟨replies, sent, waited⟩ := x
  unfold send
  rw [if_pos sendable]
  simp only [Call.exec_of, Exchange.send, answer]
  rcases replies with _ | ⟨_ | reply, rest⟩ <;> rfl

theorem answer_asking (c : HttpDirector) (url : Url) (x : Exchange) (k : Nat) :
    answer (c.asking .get url none x) k = answer x (k + 1) := by
  simp [answer, asking]

def resting (c : HttpDirector) (url : Url) (attempt : Nat) (y : Exchange) : Exchange :=
  { c.asking .get url none y with waited := y.waited.add (c.retry.step.times attempt) }

/-- Between the two states so many requests went to the URL, and so many nanoseconds went by. -/
structure Polled (c : HttpDirector) (url : Url) (polls waited : Nat) (y y' : Exchange) : Prop where
  sent : y'.sent = y.sent ++ List.replicate polls (c.request .get url)
  replies : y'.replies = y.replies.drop polls
  waited : y'.waited.nanos = y.waited.nanos + waited

namespace Polled

variable {polls waited : Nat}

theorem none (y : Exchange) : c.Polled url 0 0 y y := ⟨(List.append_nil _).symm, rfl, rfl⟩

theorem answer (polled : c.Polled url polls waited y y') (i : Nat) :
    answer y' i = HttpDirector.answer y (polls + i) := by
  rw [HttpDirector.answer, polled.replies, List.getElem?_drop]
  rfl

theorem again (polled : c.Polled url polls waited y y') :
    c.Polled url (polls + 1) waited y (c.asking .get url .none y') where
  sent := by
    rw [asking, polled.sent, List.append_assoc, List.replicate_succ']
    rfl
  replies := by rw [asking, polled.replies, List.drop_drop]
  waited := polled.waited

theorem rested (polled : c.Polled url polls waited y y') (attempt : Nat) :
    c.Polled url (polls + 1) (waited + c.retry.step.nanos * attempt) y (c.resting url attempt y')
    where
  sent := polled.again.sent
  replies := polled.again.replies
  waited := (congrArg (· + _) polled.waited).trans (Nat.add_assoc ..)

theorem waited_before {delay : Duration}
    (later : c.Polled url polls waited { y with waited := y.waited.add delay } y') :
    c.Polled url polls (delay.nanos + waited) y y' :=
  ⟨later.sent, later.replies, later.waited.trans (Nat.add_assoc ..)⟩

end Polled

theorem exec_rest_before (more : attempt < c.retry.maxAttempts)
    (fits : (c.retry.step.times attempt).Fits) (y : Exchange) :
    (c.rest attempt).exec y =
      (.ok (), { y with waited := y.waited.add (c.retry.step.times attempt) }) := by
  rw [rest, RetryPolicy.delayAfter_before more]
  dsimp only
  rw [if_pos fits]
  rfl

theorem exec_rest_overflow (more : attempt < c.retry.maxAttempts)
    (tooLong : ¬(c.retry.step.times attempt).Fits) (y : Exchange) :
    (c.rest attempt).exec y = (.error .overflow, y) := by
  rw [rest, RetryPolicy.delayAfter_before more]
  dsimp only
  rw [if_neg tooLong]
  rfl

theorem exec_rest_last (last : c.retry.maxAttempts ≤ attempt) (y : Exchange) :
    (c.rest attempt).exec y = (.ok (), y) := by
  rw [rest, RetryPolicy.delayAfter_last last]
  rfl

theorem exec_pollListing_settled (sendable : isSendable url = true)
    (first : ¬NoContent (answer y 0)) :
    (c.pollListing name url attempt (tries + 1)).exec y =
      ((c.settled url (answer y 0)).mapError .failed, c.asking .get url none y) := by
  rw [pollListing, Call.exec_bind, exec_lifted, exec_send_sendable sendable]
  cases answered : answer y 0 with
  | none => rfl
  | some reply =>
    have other : reply.status ≠ 204 := fun pending => first ⟨reply, answered, pending⟩
    dsimp only [Except.mapError, settled]
    by_cases done : reply.status = 200
    · rw [if_pos done, if_pos done]
      rfl
    · rw [if_neg done, if_neg done, if_pos other]
      rfl

theorem exec_pollListing_pending (sendable : isSendable url = true)
    (first : NoContent (answer y 0)) :
    (c.pollListing name url attempt (tries + 1)).exec y =
      (c.rest attempt >>= fun _ => c.pollListing name url (attempt + 1) tries).exec
        (c.asking .get url none y) := by
  obtain ⟨reply, answered, pending⟩ := first
  rw [pollListing, Call.exec_bind, exec_lifted, exec_send_sendable sendable, answered]
  dsimp only [Except.mapError]
  rw [if_neg (by simp [pending]), if_neg (by simp [pending])]

theorem exec_pollListing_again (sendable : isSendable url = true)
    (first : NoContent (answer y 0)) (more : attempt < c.retry.maxAttempts)
    (fits : (c.retry.step.times attempt).Fits) :
    (c.pollListing name url attempt (tries + 1)).exec y =
      (c.pollListing name url (attempt + 1) tries).exec (c.resting url attempt y) := by
  rw [exec_pollListing_pending sendable first, Call.exec_bind_ok (exec_rest_before more fits _)]
  rfl

theorem exec_pollListing_unsendable (unsendable : isSendable url = false) :
    (c.pollListing name url attempt (tries + 1)).exec y =
      (.error (.failed (.httpRequestCreate ("builder error for url (" ++ url.toString ++ ")"))),
        y) := by
  rw [pollListing, Call.exec_bind, exec_lifted, exec_send_unsendable unsendable]
  rfl

theorem pollListing_pending (sendable : isSendable url = true)
    (within : attempt + (k + tries) = c.retry.maxAttempts) (fits : c.retry.FitsBelow (attempt + k))
    (pending : ∀ i < k, NoContent (answer y i)) :
    ∃ y', (c.pollListing name url attempt (k + tries + 1)).exec y =
        (c.pollListing name url (attempt + k) (tries + 1)).exec y' ∧
      c.Polled url k (c.retry.waits attempt k) y y' := by
  induction k generalizing tries with
  | zero => exact ⟨y, by rw [Nat.zero_add]; rfl, .none y⟩
  | succ k ih =>
    have within : attempt + (k + (tries + 1)) = c.retry.maxAttempts := by omega
    obtain ⟨y', run, polled⟩ := ih within (fun other less => fits other (by omega))
      (fun i less => pending i (by omega))
    have first : NoContent (answer y' 0) := polled.answer 0 ▸ pending k (Nat.lt_succ_self k)
    refine ⟨c.resting url (attempt + k) y', ?_, c.retry.waits_succ attempt k ▸ polled.rested _⟩
    have here : (c.retry.step.times (attempt + k)).Fits := fits _ (Nat.lt_succ_self _)
    rw [Nat.add_right_comm k 1, Nat.add_assoc k, run,
      exec_pollListing_again sendable first (by omega) here]
    rfl

theorem pollListing_settled (sendable : isSendable url = true)
    (within : attempt + (k + tries) = c.retry.maxAttempts) (fits : c.retry.FitsBelow (attempt + k))
    (pending : ∀ i < k, NoContent (answer y i)) (last : ¬NoContent (answer y k)) :
    ∃ y', (c.pollListing name url attempt (k + tries + 1)).exec y =
        ((c.settled url (answer y k)).mapError .failed, y') ∧
      c.Polled url (k + 1) (c.retry.waits attempt k) y y' := by
  obtain ⟨y', run, polled⟩ := pollListing_pending sendable within fits pending
  have here : answer y' 0 = answer y k := polled.answer 0
  refine ⟨_, ?_, polled.again⟩
  rw [run, exec_pollListing_settled sendable (here ▸ last), here]

theorem pollListing_overflow (name : String) (sendable : isSendable url = true)
    (within : attempt + (k + tries) = c.retry.maxAttempts) (more : 0 < tries)
    (fits : c.retry.FitsBelow (attempt + k)) (tooLong : ¬(c.retry.step.times (attempt + k)).Fits)
    (pending : ∀ i ≤ k, NoContent (answer y i)) :
    ∃ y', (c.pollListing name url attempt (k + tries + 1)).exec y = (.error .overflow, y') ∧
      c.Polled url (k + 1) (c.retry.waits attempt k) y y' := by
  obtain ⟨y', run, polled⟩ := pollListing_pending sendable within fits
    fun i less => pending i (Nat.le_of_lt less)
  have first : NoContent (answer y' 0) := polled.answer 0 ▸ pending k (Nat.le_refl k)
  refine ⟨_, ?_, polled.again⟩
  rw [run, exec_pollListing_pending sendable first]
  exact Call.exec_bind_error (exec_rest_overflow (by omega) tooLong _)

theorem pollListing_exhausted (name : String) (sendable : isSendable url = true)
    (within : attempt + k = c.retry.maxAttempts) (fits : c.retry.FitsBelow (attempt + k))
    (pending : ∀ i ≤ k, NoContent (answer y i)) :
    ∃ y', (c.pollListing name url attempt (k + 1)).exec y =
        (.error (.failed (.maxRetriesExceeded name)), y') ∧
      c.Polled url (k + 1) (c.retry.waits attempt k) y y' := by
  have last : attempt + (k + 0) = c.retry.maxAttempts := within
  obtain ⟨y', run, polled⟩ := pollListing_pending sendable last fits
    fun i less => pending i (Nat.le_of_lt less)
  have first : NoContent (answer y' 0) := polled.answer 0 ▸ pending k (Nat.le_refl k)
  refine ⟨_, ?_, polled.again⟩
  rw [run, exec_pollListing_pending sendable first,
    Call.exec_bind_ok (exec_rest_last (Nat.le_of_eq within.symm) _)]
  rfl

theorem exec_awaitListing {place : Url} {task : String}
    (placed : c.endpoint ["tasks", task, "output"] = .ok place) (y : Exchange) :
    (c.awaitListing name task).exec y =
      (c.pollListing name (place.withField "type" "result") 1 c.retry.maxAttempts).exec
        { y with waited := y.waited.add c.retry.initialDelay } := by
  rw [awaitListing, placed]
  rfl

theorem awaitListing_none {place : Url} {task : String}
    (placed : c.endpoint ["tasks", task, "output"] = .ok place) (name : String)
    (none : c.retry.maxAttempts = 0) :
    ((c.awaitListing name task).exec y).1 = .error (.failed (.maxRetriesExceeded name)) ∧
      c.Polled (place.withField "type" "result") 0 (c.retry.total 0) y
        ((c.awaitListing name task).exec y).2 := by
  rw [exec_awaitListing placed, none]
  exact ⟨rfl, (Polled.none _).waited_before⟩

theorem awaitListing_unsendable {place : Url} {task : String}
    (placed : c.endpoint ["tasks", task, "output"] = .ok place)
    (unsendable : isSendable (place.withField "type" "result") = false) (name : String)
    (tries : 0 < c.retry.maxAttempts) :
    c.Polled (place.withField "type" "result") 0 (c.retry.total 0) y
        ((c.awaitListing name task).exec y).2 ∧
      ((c.awaitListing name task).exec y).1 = .error (.failed (.httpRequestCreate
        ("builder error for url (" ++ (place.withField "type" "result").toString ++ ")"))) := by
  obtain ⟨m, all⟩ := Nat.exists_eq_add_one.mpr tries
  rw [exec_awaitListing placed, all, exec_pollListing_unsendable unsendable]
  exact ⟨(Polled.none _).waited_before, rfl⟩

section Awaiting

variable {place : Url} {task : String} (placed : c.endpoint ["tasks", task, "output"] = .ok place)
  (sendable : isSendable (place.withField "type" "result") = true)

include placed sendable

theorem awaitListing_settled (more : k < c.retry.maxAttempts) (fits : c.retry.FitsBelow (k + 1))
    (pending : ∀ i < k, NoContent (answer y i)) (last : ¬NoContent (answer y k)) :
    ((c.awaitListing name task).exec y).1 =
        (c.settled (place.withField "type" "result") (answer y k)).mapError .failed ∧
      c.Polled (place.withField "type" "result") (k + 1) (c.retry.total (k + 1))
        y ((c.awaitListing name task).exec y).2 := by
  obtain ⟨tries, all⟩ : ∃ tries, c.retry.maxAttempts = k + tries + 1 :=
    ⟨c.retry.maxAttempts - (k + 1), by omega⟩
  obtain ⟨y', polling, polled⟩ := pollListing_settled
    (y := { y with waited := y.waited.add c.retry.initialDelay }) sendable
    ((Nat.add_comm 1 _).trans all.symm) (Nat.add_comm 1 k ▸ fits) pending last
  rw [exec_awaitListing placed, all, polling, c.retry.total_succ]
  exact ⟨rfl, polled.waited_before⟩

theorem awaitListing_overflow (name : String) (more : k + 1 < c.retry.maxAttempts)
    (fits : c.retry.FitsBelow (k + 1)) (tooLong : ¬(c.retry.step.times (k + 1)).Fits)
    (pending : ∀ i ≤ k, NoContent (answer y i)) :
    ((c.awaitListing name task).exec y).1 = .error .overflow ∧
      c.Polled (place.withField "type" "result") (k + 1) (c.retry.total (k + 1))
        y ((c.awaitListing name task).exec y).2 := by
  obtain ⟨tries, all⟩ : ∃ tries, c.retry.maxAttempts = k + tries + 1 :=
    ⟨c.retry.maxAttempts - (k + 1), by omega⟩
  obtain ⟨y', polling, polled⟩ := pollListing_overflow
    (y := { y with waited := y.waited.add c.retry.initialDelay }) name sendable
    ((Nat.add_comm 1 _).trans all.symm) (by omega) (Nat.add_comm 1 k ▸ fits)
    (Nat.add_comm 1 k ▸ tooLong) pending
  rw [exec_awaitListing placed, all, polling, c.retry.total_succ]
  exact ⟨rfl, polled.waited_before⟩

theorem awaitListing_exhausted (name : String) (all : c.retry.maxAttempts = k + 1)
    (fits : c.retry.FitsBelow (k + 1)) (pending : ∀ i ≤ k, NoContent (answer y i)) :
    ((c.awaitListing name task).exec y).1 = .error (.failed (.maxRetriesExceeded name)) ∧
      c.Polled (place.withField "type" "result") (k + 1) (c.retry.total (k + 1))
        y ((c.awaitListing name task).exec y).2 := by
  obtain ⟨y', polling, polled⟩ := pollListing_exhausted
    (y := { y with waited := y.waited.add c.retry.initialDelay }) name sendable
    ((Nat.add_comm 1 k).trans all.symm) (Nat.add_comm 1 k ▸ fits) pending
  rw [exec_awaitListing placed, all, polling, c.retry.total_succ]
  exact ⟨rfl, polled.waited_before⟩

end Awaiting

theorem endpoint_of_endpoint {segments : List String} (placed : c.endpoint segments = .ok url)
    (others : List String) :
    ∃ other, c.endpoint others = .ok other ∧ isReachable other = isReachable url := by
  unfold endpoint Url.descend? at placed ⊢
  cases path : c.base.path with
  | opaqueText => simp [path] at placed
  | segments parts =>
    simp only [path] at placed ⊢
    obtain rfl := Except.ok.inj placed
    exact ⟨_, rfl, rfl⟩

theorem requestListing_cases (c : HttpDirector) (name : String) (x : Exchange) :
    (∃ e, (c.requestListing name).exec x = (.error e, x)) ∨
      ∃ place, c.endpoint ["deployments", name, "vms"] = .ok place ∧ isReachable place = true ∧
        ((c.requestListing name).exec x).2 =
          c.asking .get (place.withField "format" "full") none x := by
  cases placed : c.endpoint ["deployments", name, "vms"] with
  | error e =>
    refine .inl ⟨e, ?_⟩
    rw [requestListing, placed]
    rfl
  | ok place =>
    rw [requestListing, exec_placed placed, submit]
    cases sendable : isSendable (place.withField "format" "full") with
    | false => exact .inl ⟨_, Call.exec_bind_error (exec_send_unsendable sendable)⟩
    | true =>
      have reachable : isReachable place = true := (Bool.and_eq_true_iff.mp sendable).1
      refine .inr ⟨place, rfl, reachable, ?_⟩
      rw [sent_bind fun _ => still_lift _, sent_send sendable]

theorem vmIps_unnamed {e : BrokerError} (failed : ((c.requestListing name).exec x).1 = .error e) :
    (c.vmIps name).exec x = (.error (.failed e), ((c.requestListing name).exec x).2) := by
  rw [vmIps, Call.exec_bind, exec_lifted, failed]
  rfl

theorem vmIps_named {task : String} (named : ((c.requestListing name).exec x).1 = .ok task) :
    (c.vmIps name).exec x = (c.awaitListing name task).exec ((c.requestListing name).exec x).2 ∧
      (∀ i, answer ((c.requestListing name).exec x).2 i = answer x (i + 1)) ∧
      ∃ place, c.endpoint ["tasks", task, "output"] = .ok place ∧ isReachable place = true := by
  rcases c.requestListing_cases name x with ⟨e, still⟩ | ⟨first, placed, reachable, asked⟩
  · rw [still] at named
    cases named
  · obtain ⟨place, output, host⟩ := endpoint_of_endpoint placed ["tasks", task, "output"]
    refine ⟨?_, fun i => ?_, place, output, host.trans reachable⟩
    · rw [vmIps, Call.exec_bind, exec_lifted, named]
      rfl
    · -- The request for the listing has taken the first answer.
      rw [asked, answer_asking]

/-- This is the first answer that settles anything, after the one that names the task. -/
structure FirstSettled (x : Exchange) (k : Nat) : Prop where
  pos : 1 ≤ k
  pending : ∀ i, 1 ≤ i → i < k → NoContent (answer x i)
  settles : ¬NoContent (answer x k)

theorem noContent_of_unsettled {m : Nat} (unsettled : ∀ k ≤ m, ¬FirstSettled x k) :
    ∀ k ≤ m, 1 ≤ k → NoContent (answer x k) := by
  intro k
  induction k using Nat.strong_induction_on with
  | _ k ih =>
    intro within pos
    by_contra settles
    exact unsettled k within
      ⟨pos, fun i first less => ih i less (Nat.le_of_lt (Nat.lt_of_lt_of_le less within)) first,
        settles⟩

theorem fits_rest (fits : c.retry.FitsBelow c.retry.maxAttempts) (attempt : Nat) :
    (c.rest attempt).Fails (· ≠ .overflow) := by
  rcases Nat.lt_or_ge attempt c.retry.maxAttempts with more | last
  · intro y e failed
    rw [exec_rest_before more (fits attempt more)] at failed
    cases failed
  · intro y e failed
    rw [exec_rest_last last] at failed
    cases failed

theorem fits_vmIps (fits : c.retry.FitsBelow c.retry.maxAttempts) (name : String) :
    (c.vmIps name).Fails (· ≠ .overflow) := by
  have lifted {α : Type} (call : Call BrokerError Exchange α) :
      Call.Fails (· ≠ .overflow) (liftM call : Call Halt Exchange α) := .mapError fun _ _ _ => nofun
  have polled (url : Url) (tries : Nat) :
      ∀ attempt, (c.pollListing name url attempt tries).Fails (· ≠ .overflow) := by
    induction tries with
    | zero => exact fun _ => .throw nofun
    | succ tries ih =>
      intro attempt
      refine (lifted _).bind fun reply => .ite (lifted (liftM (c.listed reply))) ?_
      exact .ite (.throw nofun) ((fits_rest fits attempt).bind fun _ => ih _)
  refine (lifted _).bind fun task => (lifted (liftM (c.endpoint _))).bind fun output => ?_
  exact .bind (fun _ _ => nofun) fun _ => polled _ _ _

/-- With no task named, nothing more is asked for. Else the output of the task is asked for up to the
first answer that settles anything, or as often as the policy allows if there is none so early; and
the time that goes by is that of the waits before and between the tries. -/
theorem vmIps_polls (c : HttpDirector) (name : String) (x : Exchange) :
    let listing := (c.requestListing name).exec x
    let out := (c.vmIps name).exec x
    let m := c.retry.maxAttempts
    let fits (attempt : Nat) : Prop := (c.retry.step.times attempt).Fits
    (listing.2 = x ∨ ∃ url, listing.2 = c.asking .get url none x) ∧
    (∀ e, listing.1 = .error e → out = (.error (.failed e), listing.2)) ∧
    (∀ task, listing.1 = .ok task → ∃ place, c.endpoint ["tasks", task, "output"] = .ok place ∧
      let url := place.withField "type" "result"
      let polls (n : Nat) := c.Polled url n (c.retry.total n) listing.2 out.2
      (url.isShort = true ∨ m = 0 →
        (∀ k ≤ m, FirstSettled x k → fits (k - 1) →
          out.1 = (c.settled url (answer x k)).mapError .failed ∧ polls k) ∧
        ((∀ k ≤ m, ¬FirstSettled x k) → fits (m - 1) →
          out.1 = .error (.failed (.maxRetriesExceeded name)) ∧ polls m) ∧
        (∀ k < m, (∀ i ≤ k, 1 ≤ i → NoContent (answer x i)) → fits (k - 1) → ¬fits k →
          out.1 = .error .overflow ∧ polls k)) ∧
      (url.isShort = false → 0 < m → polls 0 ∧ out.1 =
        .error (.failed (.httpRequestCreate ("builder error for url (" ++ url.toString ++ ")"))))) ∧
    (fits (m - 1) → out.1 ≠ .error .overflow) ∧
    ((∀ attempt delay, c.retry.delayAfter attempt = some delay → delay.Fits) ↔ fits (m - 1)) ∧
    (c.decoding.ReadsPlain → ∀ url headers text, Http.Plain headers text →
      c.settled url (some ⟨200, headers, some (Bytes.ofString text)⟩) = .ok (.ofListing text)) := by
  intro listing out m fits
  refine ⟨?_, fun e failed => vmIps_unnamed failed, fun task named => ?_, fun longest => ?_,
    c.retry.delays_fit_iff, fun reads url headers text plain => settled_plain reads plain⟩
  · rcases c.requestListing_cases name x with ⟨e, still⟩ | ⟨place, _, _, asked⟩
    · exact .inl (congrArg Prod.snd still)
    · exact .inr ⟨_, asked⟩
  · obtain ⟨awaited, taken, place, output, reachable⟩ := vmIps_named named
    have run : out = (c.awaitListing name task).exec listing.2 := awaited
    have later (i : Nat) : answer listing.2 i = answer x (i + 1) := taken i
    have sendable (short : (place.withField "type" "result").isShort = true) :
        isSendable (place.withField "type" "result") = true :=
      Bool.and_eq_true_iff.mpr ⟨reachable, short⟩
    refine ⟨place, output, fun begins => ?_, fun long tries => ?_⟩
    · refine ⟨fun k within settled longest => ?_, fun unsettled longest => ?_,
        fun k less pending longest tooLong => ?_⟩
      · obtain ⟨k, rfl⟩ := Nat.exists_eq_add_one.mpr settled.pos
        have short := begins.resolve_right (by omega)
        rw [run, ← later]
        exact awaitListing_settled output (sendable short) within
          (RetryPolicy.fitsBelow_succ longest)
          (fun i less => later i ▸ settled.pending (i + 1) (by omega) (by omega))
          (later k ▸ settled.settles)
      · have pending := noContent_of_unsettled unsettled
        rw [run]
        cases all : m with
        | zero => exact awaitListing_none output name all
        | succ k =>
          have short := begins.resolve_right (by omega)
          rw [all] at longest pending
          exact awaitListing_exhausted output (sendable short) name all
            (RetryPolicy.fitsBelow_succ longest)
            fun i less => later i ▸ pending (i + 1) (by omega) (by omega)
      · have short := begins.resolve_right (by omega)
        obtain ⟨k, rfl⟩ : ∃ n, k = n + 1 := by
          refine Nat.exists_eq_add_one.mpr (Nat.pos_of_ne_zero ?_)
          rintro rfl
          exact tooLong longest
        rw [run]
        exact awaitListing_overflow output (sendable short) name less
          (RetryPolicy.fitsBelow_succ longest) tooLong
          fun i less => later i ▸ pending (i + 1) (by omega) (by omega)
    · have unsendable : isSendable (place.withField "type" "result") = false :=
        Bool.and_eq_false_iff.mpr (.inr long)
      rw [run]
      exact awaitListing_unsendable output unsendable name tries
  · intro overflows
    exact fits_vmIps (RetryPolicy.fitsBelow_max longest) name x _ overflows rfl

section Sample

open Broker (openDirector begun taskOf_begun placed)

def onePeer : String := "\x7b\"job_name\":\"peer\",\"ips\":[\"10.0.0.1\"]\x7d"

def secondTry : Exchange where
  replies := [some begun, some ⟨204, [], some []⟩, some ⟨200, [], some (Bytes.ofString onePeer)⟩]

def slowDirector : HttpDirector :=
  { openDirector with retry := ⟨.zero, 3, ⟨0x8000000000000000 * 1000000000⟩⟩ }

def neverReady : Exchange where
  replies := [some begun, some ⟨204, [], some []⟩, some ⟨204, [], some []⟩]

theorem requestListing_begun (c : HttpDirector) (base : c.base = placed [""])
    (others : List (Option Reply)) :
    ((c.requestListing "fabric-a").exec { replies := some begun :: others }).1 = .ok "17" := by
  have place : c.endpoint ["deployments", "fabric-a", "vms"] =
      .ok (placed ["deployments", "fabric-a", "vms"]) := by
    rw [endpoint, base]
    rfl
  have named : (c.send .get ((placed ["deployments", "fabric-a", "vms"]).withField "format" "full")
      none).exec { replies := some begun :: others } = (.ok begun, _) :=
    exec_send_answered (by decide +kernel) rfl
  rw [requestListing, exec_placed place, submit, Call.exec_bind_ok named, Call.exec_lift,
    taskOf_begun]

theorem vmIps_polls_secondTry : FirstSettled secondTry 2 ∧
    ((openDirector.vmIps "fabric-a").exec secondTry).1 = .ok [("peer", ["10.0.0.1"])] ∧
    ((openDirector.vmIps "fabric-a").exec secondTry).2.waited = .ofMillis 1500 ∧
    ((slowDirector.vmIps "fabric-a").exec neverReady).1 = .error .overflow := by
  have first : FirstSettled secondTry 2 := by
    refine ⟨by decide, fun i pos less => ?_, ?_⟩
    · obtain rfl : i = 1 := by omega
      exact ⟨_, rfl, rfl⟩
    · rintro ⟨_, answered, pending⟩
      obtain rfl := Option.some.inj answered
      exact absurd pending (by decide)
  have output (c : HttpDirector) (base : c.base = placed [""]) :
      c.endpoint ["tasks", "17", "output"] = .ok (placed ["tasks", "17", "output"]) := by
    rw [endpoint, base]
    rfl
  have short : ((placed ["tasks", "17", "output"]).withField "type" "result").isShort = true := by
    decide +kernel
  have listed : VmIps.ofListing onePeer = [("peer", ["10.0.0.1"])] := by decide +kernel
  have plain : Http.Plain [] onePeer := Http.plain_bare (by decide)
  obtain ⟨asked, -, polls, -, -, reads⟩ := vmIps_polls openDirector "fabric-a" secondTry
  obtain ⟨place, there, polls, -⟩ := polls "17" (requestListing_begun openDirector rfl _)
  obtain rfl := Except.ok.inj (there.symm.trans (output openDirector rfl))
  obtain ⟨result, polled⟩ := (polls (.inl short)).1 2 (by decide) first (by decide)
  obtain ⟨-, -, halts, -⟩ := vmIps_polls slowDirector "fabric-a" neverReady
  obtain ⟨place, there, halts, -⟩ := halts "17" (requestListing_begun slowDirector rfl _)
  obtain rfl := Except.ok.inj (there.symm.trans (output slowDirector rfl))
  refine ⟨first, result.trans ?_, ?_, ((halts (.inl short)).2.2 2 (by decide) ?_ (by decide)
    (by decide)).1⟩
  · have told := reads Http.Decoding.utf8_readsPlain
      ((placed ["tasks", "17", "output"]).withField "type" "result") [] onePeer plain
    rw [listed] at told
    exact congrArg (Except.mapError Halt.failed) told
  · have still : ((openDirector.requestListing "fabric-a").exec secondTry).2.waited = .zero := by
      rcases asked with same | ⟨url, same⟩ <;> rw [same] <;> rfl
    have total := polled.waited
    rw [still] at total
    exact congrArg Duration.mk (total.trans (by decide))
  · intro i less pos
    rcases (by omega : i = 1 ∨ i = 2) with rfl | rfl
    · exact ⟨_, rfl, rfl⟩
    · exact ⟨_, rfl, rfl⟩

end Sample

end HttpDirector

end LedgerBroker
