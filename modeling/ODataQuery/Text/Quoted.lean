/-!
Quoted literals: the text stands between single quotes, and a quote in it is written twice.
-/

namespace ODataQuery.Text

/-- The characters of a literal between its quotes. -/
def doubleQuotes : List Char → List Char
  | [] => []
  | c :: cs => if c = '\'' then c :: c :: doubleQuotes cs else c :: doubleQuotes cs

/-- The literal that stands for a text. -/
def quote (s : String) : String := String.ofList ('\'' :: doubleQuotes s.toList ++ ['\''])

end ODataQuery.Text
