import LedgerBroker.Director.Basic
import LedgerBroker.Json.Record

set_option autoImplicit false

namespace LedgerBroker

structure VmLine where
  job : String
  ips : List String
  deriving DecidableEq, Repr

namespace VmLine

structure Draft where
  job : Option String := none
  ips : Option (List String) := none

open Json.Reader in
def reader : Json.Reader VmLine :=
  record ({} : Draft) [
    .of "job_name" (·.job) (fun d v => { d with job := some v }) string,
    .of "ips" (·.ips) (fun d v => { d with ips := some v }) (list string)]
    fun d => do return ⟨← d.job, d.ips.getD []⟩

end VmLine

namespace VmIps

def parts : Bytes → List Bytes
  | [] => [[]]
  | b :: rest =>
    if b = 0x0A then [] :: parts rest
    else
      match parts rest with
      | [] => [[b]]
      | part :: others => (b :: part) :: others

def withoutReturn (part : Bytes) : Bytes :=
  if part.getLast? = some 0x0D then part.dropLast else part

/-- The lines of a text. A line feed takes a carriage return before it with it; behind the last line
there is none. -/
def lines (text : Bytes) : List Bytes :=
  (parts text).dropLast.map withoutReturn ++ (parts text).getLast?.toList

def firstIp? (line : Bytes) : Option (String × String) := do
  let vm ← (VmLine.reader.run line).toOption
  return (vm.job, ← vm.ips.head?)

def ofListing (text : String) : VmIps :=
  ((lines (Bytes.ofString text)).filterMap firstIp?).foldl (fun ips (job, ip) => ips.add job ip) []

end VmIps

end LedgerBroker
