import LedgerBroker.Http.Message
import LedgerBroker.Text.Utf8

set_option autoImplicit false

namespace LedgerBroker.Http

/-- What text the body of a reply is, by the reply's headers. -/
abbrev Decoding := Headers → Bytes → String

/-- Stands in for a library's decoder where none is given; it does not look at the headers. -/
def Decoding.utf8 : Decoding := fun _ body => Text.ofUtf8 body

end LedgerBroker.Http
