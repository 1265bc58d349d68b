import LedgerBroker.Api.Document
import LedgerBroker.Text.Utf8
import LedgerBroker.Url.Address
import LedgerBroker.Url.PercentEncoding

set_option autoImplicit false

namespace LedgerBroker.Api

def spelled (cs : List Char) : String :=
  let plain := cs.map fun c => if c = '+' then ' ' else c
  String.ofList (Text.readUtf8 none (PercentEncoding.decode (Bytes.ofString (String.ofList plain))))

def queryFields (query : List Char) : List (String × String) :=
  ((Url.splitAt (· = '&') query).filter (· ≠ [])).map fun field =>
    (spelled (field.takeWhile (· ≠ '=')), spelled ((field.dropWhile (· ≠ '=')).drop 1))

def uniqueField? (name : String) (query : List Char) : Option (Option String) :=
  match (queryFields query).filter (·.1 = name) with
  | [] => some none
  | [(_, value)] => some (some value)
  | _ => none

def asyncQuery? (query : List Char) : Option AsyncQuery :=
  (uniqueField? "accepts_incomplete" query).map .mk

def pollQuery? (query : List Char) : Option PollQuery :=
  (uniqueField? "operation" query).map .mk

end LedgerBroker.Api
