import AntRegister.Calendar.Reading
import AntRegister.Json.Basic
import AntRegister.Json.Record
/-!
Instants in documents: a text in the lenient form is read, the exact form is written.
-/

namespace AntRegister.Calendar.Instant

def ofJson? (j : Json) : Option Instant := j.asText? >>= read?

def toJson (i : Instant) : Json := .text i.text

end AntRegister.Calendar.Instant
