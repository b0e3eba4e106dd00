/-!
Texts put together with a separator between them.
-/

namespace ODataQuery.Text

def join (separator : String) : List String → String
  | [] => ""
  | [s] => s
  | s :: rest => s ++ separator ++ join separator rest

end ODataQuery.Text
