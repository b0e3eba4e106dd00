import ODataQuery.Text.LowerCaseTable

/-!
Lower case in every script. Each character has a lower-case form of its own, with one exception: a
capital sigma becomes the final form when it ends a word.
-/

namespace ODataQuery.Text

/-- Has upper and lower case, or is a form of such a letter. -/
def isCased (c : Char) : Bool := within casedBoundaries c.toNat

/-- Is passed over when one asks whether a letter ends a word. -/
def isCaseIgnorable (c : Char) : Bool := within caseIgnorableBoundaries c.toNat

/-- The lower-case form of a character wherever it stands. Only the dotted capital I needs two
characters. -/
def lowerChar (c : Char) : List Char :=
  if c.toNat < 128 then [c.toLower]
  else if c.toNat = 0x130 then ['i', Char.ofNat 0x307]
  else
    match caseRuns.findSome? (·.lower? c.toNat) with
    | some n => [Char.ofNat n]
    | none => [c]

/-- Whether the text begins, case-ignorable characters apart, with a cased character. -/
def startsCased (cs : List Char) : Bool :=
  (cs.dropWhile isCaseIgnorable).head?.any isCased

/-- The lower-case form of a capital sigma: final when a cased character comes before and none comes
after. -/
def lowerSigma (before after : List Char) : Char :=
  Char.ofNat (if startsCased before && !startsCased after then 0x3C2 else 0x3C3)

/-- Lower case of a text, given the characters before it, nearest first. -/
def lowerFrom (before : List Char) : List Char → List Char
  | [] => []
  | c :: cs =>
    if c.toNat = 0x3A3 then lowerSigma before cs :: lowerFrom (c :: before) cs
    else lowerChar c ++ lowerFrom (c :: before) cs

/-- Lower case of a text. -/
def lower (s : String) : String := String.ofList (lowerFrom [] s.toList)

end ODataQuery.Text
