import LedgerBroker.Http.Message
import LedgerBroker.Service
import LedgerBroker.Time.Duration

set_option autoImplicit false

namespace LedgerBroker.Http

structure Exchange where
  replies : List (Option Reply) := []
  sent : List Request := []
  waited : Duration := .zero

namespace Exchange

structure Unanswered where

def send (request : Request) : Call Unanswered Exchange Reply :=
  .of fun x =>
    let answer := match x.replies.head? with
      | some (some reply) => .ok reply
      | _ => .error .mk
    (answer, { x with replies := x.replies.drop 1, sent := x.sent ++ [request] })

def wait {ε : Type} (d : Duration) : Call ε Exchange Unit :=
  .update fun x => { x with waited := x.waited.add d }

end Exchange

end LedgerBroker.Http
