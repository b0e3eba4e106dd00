/-!
Classes of characters given by their boundaries: an increasing list of code points at which membership
changes, starting outside the class.
-/

namespace ODataQuery.Text

/-- `n` lies in the class when an odd number of boundaries is at most `n`. -/
def within (boundaries : List Nat) (n : Nat) : Bool :=
  boundaries.foldl (fun inside b => if b ≤ n then !inside else inside) false

end ODataQuery.Text
