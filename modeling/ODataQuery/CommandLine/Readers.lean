import ODataQuery.Json.Decoder
import ODataQuery.Toml.Reader

/-!
The readers of documents that a run is given. A run depends on which texts they accept and what they take them to say,
and it passes on, as they are, the reports about the texts they do not accept.
-/

namespace ODataQuery.CommandLine

structure Readers where
  toml : Toml.Reader
  /-- What is reported about a text that is no query. -/
  query : String → Json.DecodeError → String
  /-- What is reported about a text that is no catalog. -/
  catalog : String → Json.DecodeError → String

/-- A report that says no more than what is wrong with a string that is refused. -/
def briefReport : Json.DecodeError → String
  | .malformed => ""
  | .refused message => message

/-- The readers of this library. -/
def briefReaders : Readers where
  toml := Toml.reader
  query _ := briefReport
  catalog _ := briefReport

end ODataQuery.CommandLine
