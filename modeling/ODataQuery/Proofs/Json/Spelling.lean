import Mathlib.Data.List.DropRight
import ODataQuery.Json.Reader
import ODataQuery.Json.Writer
import ODataQuery.Proofs.Text.Digits

/-!
Reading undoes writing. A piece of text is judged by what reading makes of it wherever it stands: whatever is
behind it, as long as this does not go on with a number, the tree is the same and what is behind it is left over.
The pieces of scalars are read one character or digit after the other, those of arrays and objects are put
together from the pieces of what is in them, with blanks where a writer sets them. So both layouts are read back,
and neither a string nor a number is lost on the way.
-/

namespace ODataQuery

namespace Json

open Text

/-! ### Strings -/

theorem hexNumber?_control {n : Nat} (hn : n < 32) :
    hexNumber? ['0', '0', hexChar (n / 16), hexChar (n % 16)] = some n := by
  revert n
  decide

/-- The code point in front of those that are read behind it. -/
theorem readCodes?_letter {e c : Char} (hu : e ≠ 'u') (he : escaped? e = some c) (cs : List Char) :
    readCodes? ('\\' :: e :: cs) = (readCodes? cs).map fun (ns, rest) => (c.toNat :: ns, rest) := by
  cases h : readCodes? cs <;> simp [readCodes?, hu, he, h]

theorem readCodes?_escape (c : Char) (cs : List Char) :
    readCodes? (escape c ++ cs) = (readCodes? cs).map fun (ns, rest) => (c.toNat :: ns, rest) := by
  rw [escape]
  split_ifs with hquote hslash hback hfeed hline hreturn htab hcontrol
  · subst hquote; exact readCodes?_letter (by decide) rfl cs
  · subst hslash; exact readCodes?_letter (by decide) rfl cs
  · subst hback; exact readCodes?_letter (by decide) rfl cs
  · subst hfeed; exact readCodes?_letter (by decide) rfl cs
  · subst hline; exact readCodes?_letter (by decide) rfl cs
  · subst hreturn; exact readCodes?_letter (by decide) rfl cs
  · subst htab; exact readCodes?_letter (by decide) rfl cs
  · cases h : readCodes? cs <;> simp [readCodes?, hexNumber?_control hcontrol, h]
  · simp [readCodes?, hslash, hcontrol]

/-- No character is half of a surrogate pair. -/
theorem not_surrogate (c : Char) : isHighSurrogate c.toNat = false ∧ isLowSurrogate c.toNat = false := by
  have hvalid : c.toNat < 0xD800 ∨ 0xDFFF < c.toNat ∧ c.toNat < 0x110000 := c.valid
  simp only [isHighSurrogate, isLowSurrogate, Bool.and_eq_false_iff, decide_eq_false_iff_not]
  omega

theorem pairSurrogates?_toNat (cs : List Char) : pairSurrogates? (cs.map Char.toNat) = some cs := by
  induction cs with
  | nil => rfl
  | cons c cs ih =>
      obtain ⟨hhigh, hlow⟩ := not_surrogate c
      cases cs with
      | nil => simp [pairSurrogates?, hhigh, hlow]
      | cons d ds =>
          rw [List.map_cons] at ih
          simp [pairSurrogates?, hhigh, hlow, ih]

theorem readCodes?_quoted (cs rest : List Char) :
    readCodes? (cs.flatMap escape ++ '"' :: rest) = some (cs.map Char.toNat, rest) := by
  induction cs with
  | nil => rfl
  | cons c cs ih => rw [List.flatMap_cons, List.append_assoc, readCodes?_escape, ih]; rfl

/-- What stands behind the first quote of a quoted text. -/
theorem readString?_quoted (s : String) (rest : List Char) :
    readString? (s.toList.flatMap escape ++ '"' :: rest) = some (some s, rest) := by
  simp [readString?, readCodes?_quoted, pairSurrogates?_toNat]

/-! ### Numbers -/

/-- No number goes on with the text. -/
def Apart (rest : List Char) : Prop := ∀ c ∈ rest.head?, c.isDigit = false ∧ c ≠ '.' ∧ c ≠ 'e' ∧ c ≠ 'E'

theorem readWhole?_digits (n : Nat) {rest : List Char} (hrest : Apart rest) :
    readWhole? (digits n ++ rest) = some (digits n, rest) := by
  have hread : readDigits (digits n ++ rest) = (digits n, rest) :=
    readDigits_append (fun _ => isDigit_of_mem_digits) fun c hc => (hrest c hc).1
  rw [readWhole?, hread]
  split
  · next h => exact absurd (congrArg Prod.fst h) Nat.toDigits_ne_nil
  · next h => exact absurd (congrArg Prod.fst h) (digits_ne_zero_cons n _ _)
  · rfl

theorem Apart.readPoint? {rest : List Char} (hrest : Apart rest) : readPoint? rest = some ([], rest) := by
  cases rest with
  | nil => rfl
  | cons c cs => simp [Json.readPoint?, (hrest c rfl).2.1]

theorem Apart.readPower? {rest : List Char} (hrest : Apart rest) : readPower? rest = some ([], rest) := by
  cases rest with
  | nil => rfl
  | cons c cs => simp [Json.readPower?, (hrest c rfl).2.2]

theorem readNumber?_digits (n : Nat) {rest : List Char} (hrest : Apart rest) :
    readNumber? (digits n ++ rest) = some (digits n, rest) := by
  have hsign : ((digits n ++ rest).take 1).filter (· == '-') = [] := by
    obtain ⟨c, cs, hdigits, hc⟩ := exists_digits_eq_cons n
    have hne : c ≠ '-' := by
      rintro rfl
      cases hc
    simp [hdigits, hne]
  simp [readNumber?, hsign, readWhole?_digits n hrest, hrest.readPoint?, hrest.readPower?]

/-! ### Blanks -/

def Blank (cs : List Char) : Prop := ∀ c ∈ cs, isBlank c = true

theorem blank_nil : Blank [] := nofun

theorem blank_space : Blank [' '] := by
  intro c hc
  rw [List.mem_singleton.mp hc]
  rfl

theorem blank_newLine (level : Nat) : Blank (newLine level) := by
  intro c hc
  rcases List.mem_cons.mp hc with rfl | hc
  · rfl
  · rw [List.eq_of_mem_replicate hc]
    rfl

theorem skipBlanks_append {gap : List Char} (hgap : Blank gap) (cs : List Char) :
    skipBlanks (gap ++ cs) = skipBlanks cs :=
  List.dropWhile_append_of_pos hgap

theorem skipBlanks_cons {c : Char} (hc : isBlank c = false) (cs : List Char) : skipBlanks (c :: cs) = c :: cs :=
  List.dropWhile_cons_of_neg (by simp [hc])

theorem skipBlanks_skipBlanks (cs : List Char) : skipBlanks (skipBlanks cs) = skipBlanks cs :=
  List.dropWhile_idempotent isBlank cs

theorem readValue_skipBlanks (steps : Nat) (cs : List Char) :
    readValue steps (skipBlanks cs) = readValue steps cs := by
  cases steps with
  | zero => rfl
  | succ steps => rw [readValue, readValue, skipBlanks_skipBlanks]

theorem readItems_skipBlanks (steps : Nat) (cs : List Char) :
    readItems steps (skipBlanks cs) = readItems steps cs := by
  cases steps with
  | zero => rfl
  | succ steps => rw [readItems, readItems, readValue_skipBlanks]

theorem readMembers_skipBlanks (steps : Nat) (cs : List Char) :
    readMembers steps (skipBlanks cs) = readMembers steps cs := by
  cases steps with
  | zero => rfl
  | succ steps => rw [readMembers, readMembers, skipBlanks_skipBlanks]

theorem Apart.blank {gap rest : List Char} (hgap : Blank gap) (hrest : Apart rest) : Apart (gap ++ rest) := by
  cases gap with
  | nil => exact hrest
  | cons g gs =>
      intro c hc
      obtain rfl : g = c := Option.some.inj hc
      have hg : isBlank g = true := hgap g List.mem_cons_self
      simp only [isBlank, Bool.or_eq_true, beq_iff_eq] at hg
      rcases hg with ((rfl | rfl) | rfl) | rfl <;> decide

/-! ### Values -/

/-- A text that gives a tree wherever it stands, with all that is behind it left over. Two steps for each of its
characters are enough: a value and the list that it is in both take one, and both have a character. -/
def Reads (j : Json) (cs : List Char) : Prop :=
  ∀ ⦃rest : List Char⦄ ⦃steps : Nat⦄, Apart rest → 2 * cs.length ≤ steps →
    readValue steps (cs ++ rest) = (j, rest)

/-- A character that is neither passed over nor opens an array or an object. -/
def OpensScalar (c : Char) : Prop := isBlank c = false ∧ c ≠ '[' ∧ c ≠ '{'

instance (c : Char) : Decidable (OpensScalar c) :=
  inferInstanceAs (Decidable (isBlank c = false ∧ c ≠ '[' ∧ c ≠ '{'))

theorem readValue_scalar {c : Char} (hc : OpensScalar c) (steps : Nat) (cs : List Char) :
    readValue (steps + 1) (c :: cs) = readScalar (c :: cs) := by
  obtain ⟨hblank, harray, hobject⟩ := hc
  rw [readValue, skipBlanks_cons hblank]
  split
  · next h => exact absurd (List.cons.inj h).1 harray
  · next h => exact absurd (List.cons.inj h).1 hobject
  · rfl

theorem Reads.scalar {j : Json} {c : Char} {cs : List Char} (hc : OpensScalar c)
    (h : ∀ {rest}, Apart rest → readScalar (c :: (cs ++ rest)) = (j, rest)) : Reads j (c :: cs) := by
  intro rest steps hrest hsteps
  obtain ⟨steps, rfl⟩ : ∃ n, steps = n + 1 := ⟨steps - 1, by rw [List.length_cons] at hsteps; omega⟩
  rw [List.cons_append, readValue_scalar hc, h hrest]

theorem Reads.word {j : Json} {c : Char} {word : List Char} (hc : OpensScalar c)
    (h : ∀ cs, readScalar (c :: cs) = readWord word j cs) : Reads j (c :: word) := by
  refine .scalar hc fun {rest} _ => ?_
  rw [h, readWord, if_pos (List.isPrefixOf_iff_prefix.mpr (List.prefix_append word rest)), List.drop_left]

theorem reads_null : Reads null (null : Json).line := .word (by decide) fun _ => rfl

theorem reads_bool (b : Bool) : Reads (bool b) (bool b).line := by
  cases b with
  | false => exact .word (by decide) fun _ => rfl
  | true => exact .word (by decide) fun _ => rfl

theorem reads_string (s : String) : Reads (ofString s) (quoted s) := by
  have hquoted : quoted s = '"' :: (s.toList.flatMap escape ++ ['"']) := rfl
  rw [hquoted]
  refine .scalar (by decide) fun {rest} _ => ?_
  rw [List.append_assoc, List.singleton_append, readScalar, readString?_quoted]
  rfl

theorem reads_number (n : Nat) : Reads (ofNat n) (digits n) := by
  obtain ⟨c, cs, hdigits, hc⟩ := exists_digits_eq_cons n
  have hne {d : Char} (hd : d.isDigit = false) : c ≠ d := by
    rintro rfl
    cases hd.symm.trans hc
  have hblank : isBlank c = false := by
    simp [isBlank, hne (d := ' ') (by decide), hne (d := '\t') (by decide), hne (d := '\n') (by decide),
      hne (d := '\r') (by decide)]
  rw [hdigits]
  refine .scalar ⟨hblank, hne (by decide), hne (by decide)⟩ fun {rest} hrest => ?_
  have hread := readNumber?_digits n hrest
  rw [hdigits, List.cons_append] at hread
  rw [readScalar, hread]
  · rw [← hdigits]
    rfl
  -- a digit opens neither a string nor a word
  all_goals exact fun _ h => hne (by decide) (List.cons.inj h).1

/-! ### Arrays -/

theorem readValue_array_nil {cs tail : List Char} (h : skipBlanks cs = ']' :: tail) (steps : Nat) :
    readValue (steps + 1) ('[' :: cs) = (array [], tail) := by
  rw [readValue, skipBlanks_cons (by decide)]
  simp only [h]

theorem readValue_array {cs : List Char} (h : ∀ tail, skipBlanks cs ≠ ']' :: tail) (steps : Nat) :
    readValue (steps + 1) ('[' :: cs) = (array (readItems steps cs).1, (readItems steps cs).2) := by
  rw [readValue, skipBlanks_cons (by decide)]
  simp only [readItems_skipBlanks]

section

variable {j : Json} {cs rest tail : List Char} {steps : Nat} (hvalue : readValue steps cs = (j, rest))
include hvalue

theorem readItems_comma (hrest : skipBlanks rest = ',' :: tail) :
    readItems (steps + 1) cs = (j :: (readItems steps tail).1, (readItems steps tail).2) := by
  simp only [readItems, hvalue, hrest]

theorem readItems_bracket (hrest : skipBlanks rest = ']' :: tail) : readItems (steps + 1) cs = ([j], tail) := by
  simp only [readItems, hvalue, hrest]

end

/-- What is read as a value does not begin with the bracket that ends an array. -/
theorem Reads.not_bracket {j : Json} {cs rest : List Char} (h : Reads j cs) (hrest : Apart rest) (hne : rest ≠ [])
    (tail : List Char) : skipBlanks (cs ++ rest) ≠ ']' :: tail := by
  intro hbracket
  have hread : readValue (2 * cs.length + 1) (cs ++ rest) = (j, rest) := h hrest (by omega)
  rw [← readValue_skipBlanks, hbracket, readValue_scalar (by decide)] at hread
  have hbroken : readScalar (']' :: tail) = (broken, []) := rfl
  rw [hbroken] at hread
  exact hne (congrArg Prod.snd hread).symm

/-- A mark may stand behind a value, with or without blanks before it. -/
theorem apart_mark {gap rest : List Char} {mark : Char} (hgap : Blank gap)
    (hmark : mark = ',' ∨ mark = ']' ∨ mark = '}') : Apart (gap ++ mark :: rest) := by
  refine .blank hgap fun c hc => ?_
  obtain rfl : mark = c := Option.some.inj hc
  rcases hmark with rfl | rfl | rfl <;> decide

theorem skipBlanks_mark {gap : List Char} {mark : Char} (hgap : Blank gap) (hmark : isBlank mark = false)
    (rest : List Char) : skipBlanks (gap ++ mark :: rest) = mark :: rest := by
  rw [skipBlanks_append hgap, skipBlanks_cons hmark]

/-- What is behind the first of several texts: a comma, or the mark behind all of them. -/
theorem exists_behind {α : Type} (text : α → List Char) (a : α) (as : List α) {after : List Char}
    (hafter : Blank after) (mark : Char) (rest : List Char) :
    ∃ gap m tail, Blank gap ∧ (m = ',' ∨ m = mark) ∧
      [','].intercalate ((a :: as).map text) ++ (after ++ mark :: rest) = text a ++ (gap ++ m :: tail) := by
  cases as with
  | nil => exact ⟨after, mark, rest, hafter, .inr rfl, by simp⟩
  | cons b as =>
      refine ⟨[], ',', [','].intercalate ((b :: as).map text) ++ (after ++ mark :: rest), blank_nil, .inl rfl, ?_⟩
      simp [List.intercalate_cons_cons]

section

variable {after : List Char} (hafter : Blank after) {text : Json → List Char}
include hafter

theorem readItems_intercalate {items : List Json} (hitems : ∀ j ∈ items, Reads j (text j)) (hne : items ≠ [])
    {rest : List Char} {steps : Nat} (hsteps : 2 * ([','].intercalate (items.map text)).length + 1 ≤ steps) :
    readItems steps ([','].intercalate (items.map text) ++ (after ++ ']' :: rest)) = (items, rest) := by
  induction items generalizing steps with
  | nil => exact absurd rfl hne
  | cons j js ih =>
      -- one step is for the list; the first item has all others, and so have the items behind it
      obtain ⟨steps, rfl⟩ : ∃ n, steps = n + 1 := ⟨steps - 1, by omega⟩
      have hj : Reads j (text j) := hitems j List.mem_cons_self
      cases js with
      | nil =>
          rw [List.map_cons, List.map_nil, List.intercalate_singleton] at hsteps ⊢
          exact readItems_bracket (hj (apart_mark hafter (by simp)) (by omega))
            (skipBlanks_mark hafter (by decide) rest)
      | cons j' js =>
          rw [List.map_cons, List.map_cons, List.intercalate_cons_cons, ← List.map_cons] at hsteps ⊢
          simp only [List.length_append, List.length_singleton] at hsteps
          rw [List.append_assoc, List.append_assoc, List.singleton_append]
          refine (readItems_comma (hj (apart_mark blank_nil (by simp)) (by omega))
            (skipBlanks_cons (by decide) _)).trans ?_
          rw [ih (fun i hi => hitems i (List.mem_cons_of_mem j hi)) (List.cons_ne_nil j' js) (by omega)]

/-- An array is read with its items one behind the other. -/
theorem Reads.array {items : List Json} (hitems : ∀ j ∈ items, Reads j (text j)) :
    Reads (array items) ('[' :: ([','].intercalate (items.map text) ++ (after ++ [']']))) := by
  intro rest steps _ hsteps
  obtain ⟨steps, rfl⟩ : ∃ n, steps = n + 1 := ⟨steps - 1, by rw [List.length_cons] at hsteps; omega⟩
  simp only [List.length_cons, List.length_append] at hsteps
  have htext : '[' :: ([','].intercalate (items.map text) ++ (after ++ [']'])) ++ rest =
      '[' :: ([','].intercalate (items.map text) ++ (after ++ ']' :: rest)) := by simp
  rw [htext]
  cases items with
  | nil => exact readValue_array_nil (skipBlanks_mark hafter (by decide) rest) steps
  | cons j js =>
      have hread : readItems steps ([','].intercalate ((j :: js).map text) ++ (after ++ ']' :: rest)) =
          (j :: js, rest) :=
        readItems_intercalate hafter hitems (List.cons_ne_nil j js) (by omega)
      rw [readValue_array, hread]
      obtain ⟨gap, mark, tail, hgap, hmark, hbehind⟩ := exists_behind text j js hafter ']' rest
      rw [hbehind]
      exact (hitems j List.mem_cons_self).not_bracket (apart_mark hgap (by tauto)) (by simp)

end

/-! ### Objects -/

theorem readValue_object_nil {cs tail : List Char} (h : skipBlanks cs = '}' :: tail) (steps : Nat) :
    readValue (steps + 1) ('{' :: cs) = (object [], tail) := by
  rw [readValue, skipBlanks_cons (by decide)]
  simp only [h]

theorem readValue_object {cs : List Char} (h : ∀ tail, skipBlanks cs ≠ '}' :: tail) (steps : Nat) :
    readValue (steps + 1) ('{' :: cs) = (object (readMembers steps cs).1, (readMembers steps cs).2) := by
  rw [readValue, skipBlanks_cons (by decide)]
  simp only [readMembers_skipBlanks]

/-- A member as it is spelt, behind a gap. -/
def memberText (gap : List Char) (text : Json → List Char) (member : String × Json) : List Char :=
  gap ++ (quoted member.1 ++ ':' :: text member.2)

section

variable {gap : List Char} (hgap : Blank gap) {text : Json → List Char} {key : String} {j : Json}
  {behind rest tail : List Char} {steps : Nat}
include hgap

theorem skipBlanks_memberText : skipBlanks (memberText gap text (key, j) ++ behind) =
    '"' :: (key.toList.flatMap escape ++ '"' :: ':' :: (text j ++ behind)) := by
  have htext : memberText gap text (key, j) ++ behind =
      gap ++ '"' :: (key.toList.flatMap escape ++ '"' :: ':' :: (text j ++ behind)) := by
    simp [memberText, quoted]
  rw [htext, skipBlanks_mark hgap (by decide)]

variable (hvalue : readValue steps (text j ++ behind) = (j, rest))
include hvalue

theorem readMembers_comma (hrest : skipBlanks rest = ',' :: tail) :
    readMembers (steps + 1) (memberText gap text (key, j) ++ behind) =
      ((some key, j) :: (readMembers steps tail).1, (readMembers steps tail).2) := by
  rw [readMembers, skipBlanks_memberText hgap]
  simp only [readString?_quoted, skipBlanks_cons (show isBlank ':' = false from rfl), hvalue, hrest]

theorem readMembers_brace (hrest : skipBlanks rest = '}' :: tail) :
    readMembers (steps + 1) (memberText gap text (key, j) ++ behind) = ([(some key, j)], tail) := by
  rw [readMembers, skipBlanks_memberText hgap]
  simp only [readString?_quoted, skipBlanks_cons (show isBlank ':' = false from rfl), hvalue, hrest]

end

section

variable {gap after : List Char} (hgap : Blank gap) (hafter : Blank after) {text : Json → List Char}
  {members : List (String × Json)} (hmembers : ∀ m ∈ members, Reads m.2 (text m.2))
include hgap hafter hmembers

theorem readMembers_intercalate (hne : members ≠ []) {rest : List Char} {steps : Nat}
    (hsteps : 2 * ([','].intercalate (members.map (memberText gap text))).length + 1 ≤ steps) :
    readMembers steps ([','].intercalate (members.map (memberText gap text)) ++ (after ++ '}' :: rest)) =
      (members.map fun (key, j) => (some key, j), rest) := by
  induction members generalizing steps with
  | nil => exact absurd rfl hne
  | cons m ms ih =>
      obtain ⟨key, j⟩ := m
      obtain ⟨steps, rfl⟩ : ∃ n, steps = n + 1 := ⟨steps - 1, by omega⟩
      have hj : Reads j (text j) := hmembers (key, j) List.mem_cons_self
      have hlength : (text j).length ≤ (memberText gap text (key, j)).length := by
        simp only [memberText, List.length_append, List.length_cons]
        omega
      cases ms with
      | nil =>
          rw [List.map_cons, List.map_nil, List.intercalate_singleton] at hsteps ⊢
          exact readMembers_brace hgap (hj (apart_mark hafter (by simp)) (by omega))
            (skipBlanks_mark hafter (by decide) rest)
      | cons m' ms =>
          rw [List.map_cons, List.map_cons, List.intercalate_cons_cons, ← List.map_cons] at hsteps ⊢
          simp only [List.length_append, List.length_singleton] at hsteps
          rw [List.append_assoc, List.append_assoc, List.singleton_append]
          refine (readMembers_comma hgap (hj (apart_mark blank_nil (by simp)) (by omega))
            (skipBlanks_cons (by decide) _)).trans ?_
          rw [ih (fun m hm => hmembers m (List.mem_cons_of_mem _ hm)) (List.cons_ne_nil m' ms) (by omega)]
          rfl

/-- An object is read with its members one behind the other. -/
theorem Reads.object :
    Reads (ofMembers members)
      ('{' :: ([','].intercalate (members.map (memberText gap text)) ++ (after ++ ['}']))) := by
  intro rest steps _ hsteps
  obtain ⟨steps, rfl⟩ : ∃ n, steps = n + 1 := ⟨steps - 1, by rw [List.length_cons] at hsteps; omega⟩
  simp only [List.length_cons, List.length_append] at hsteps
  rw [List.cons_append, List.append_assoc, List.append_assoc, List.singleton_append]
  cases members with
  | nil => exact readValue_object_nil (skipBlanks_mark hafter (by decide) rest) steps
  | cons m ms =>
      have hread : readMembers steps ([','].intercalate ((m :: ms).map (memberText gap text)) ++
          (after ++ '}' :: rest)) = ((m :: ms).map fun (key, j) => (some key, j), rest) :=
        readMembers_intercalate hgap hafter hmembers (List.cons_ne_nil m ms) (by omega)
      rw [readValue_object, hread]
      · rfl
      obtain ⟨_, _, _, -, -, hbehind⟩ := exists_behind (memberText gap text) m ms hafter '}' rest
      rw [hbehind, skipBlanks_memberText hgap]
      simp

end

/-- Blanks in front of a value are passed over. -/
theorem Reads.indented {gap cs : List Char} {j : Json} (hgap : Blank gap) (h : Reads j cs) : Reads j (gap ++ cs) := by
  intro rest steps hrest hsteps
  rw [List.length_append] at hsteps
  rw [← readValue_skipBlanks, List.append_assoc, skipBlanks_append hgap, readValue_skipBlanks]
  exact h hrest (by omega)

/-! ### Both layouts -/

/-- A tree without broken places and halves of surrogate pairs, whose numbers are natural numbers. -/
inductive Plain : Json → Prop where
  | null : Plain null
  | bool (b : Bool) : Plain (bool b)
  | number (n : Nat) : Plain (ofNat n)
  | string (s : String) : Plain (ofString s)
  | array {items : List Json} (h : ∀ j ∈ items, Plain j) : Plain (array items)
  | object {members : List (String × Json)} (h : ∀ m ∈ members, Plain m.2) : Plain (ofMembers members)

/-- What is written with a comma between one and the next is the texts of all, joined by commas. -/
theorem eq_intercalate {α : Type} {f : List α → List Char} {text : α → List Char} (hnil : f [] = [])
    (hone : ∀ a, f [a] = text a) (hmore : ∀ a b rest, f (a :: b :: rest) = text a ++ ',' :: f (b :: rest))
    (as : List α) : f as = [','].intercalate (as.map text) := by
  induction as with
  | nil => exact hnil
  | cons a rest ih =>
      cases rest with
      | nil => rw [hone, List.map_cons, List.map_nil, List.intercalate_singleton]
      | cons b rest =>
          rw [hmore, ih, List.map_cons, List.map_cons, List.map_cons, List.intercalate_cons_cons, List.append_assoc,
            List.singleton_append]

theorem lineItems_eq (items : List Json) : lineItems items = [','].intercalate (items.map line) :=
  eq_intercalate (by rw [lineItems]) (fun _ => by rw [lineItems]) (fun _ _ _ => by simp [lineItems]) items

theorem lineMembers_eq (members : List (String × Json)) :
    lineMembers (members.map fun (key, j) => (some key, j)) =
      [','].intercalate (members.map (memberText [] line)) :=
  eq_intercalate (f := fun ms => lineMembers (ms.map fun (key, j) => (some key, j))) rfl (fun _ => rfl)
    (fun _ _ _ => by simp [lineMembers, textOf]) members

theorem linesItems_eq (level : Nat) (items : List Json) :
    linesItems level items = [','].intercalate (items.map fun j => newLine level ++ lines level j) :=
  eq_intercalate (by rw [linesItems]) (fun _ => by rw [linesItems]) (fun _ _ _ => by simp [linesItems]) items

theorem linesMembers_eq (level : Nat) (members : List (String × Json)) :
    linesMembers level (members.map fun (key, j) => (some key, j)) =
      [','].intercalate (members.map (memberText (newLine level) fun j => [' '] ++ lines level j)) :=
  eq_intercalate (f := fun ms => linesMembers level (ms.map fun (key, j) => (some key, j))) rfl
    (fun _ => by simp [linesMembers, memberText, textOf]) (fun _ _ _ => by simp [linesMembers, memberText, textOf])
    members

/-- The text on one line gives the tree. -/
theorem Plain.reads_line {j : Json} (plain : Plain j) : Reads j j.line := by
  induction plain with
  | null => exact reads_null
  | bool b => exact reads_bool b
  | number n =>
      have hline : (ofNat n).line = digits n := by simp [ofNat, line, decimal]
      rw [hline]
      exact reads_number n
  | string s =>
      have hline : (ofString s).line = quoted s := by simp [ofString, line, textOf]
      rw [hline]
      exact reads_string s
  | @array items _ ih =>
      rw [line, lineItems_eq]
      exact .array blank_nil ih
  | @object members _ ih =>
      rw [ofMembers, line, lineMembers_eq]
      exact .object blank_nil blank_nil ih

/-- The text with an item or a member to a line gives the tree. -/
theorem Plain.reads_lines {j : Json} (plain : Plain j) (level : Nat) : Reads j (j.lines level) := by
  induction plain generalizing level with
  | null => exact reads_null
  | bool b => exact reads_bool b
  | number n => exact (Plain.number n).reads_line
  | string s => exact (Plain.string s).reads_line
  | @array items _ ih =>
      cases items with
      | nil =>
          have hempty : Plain (Json.array []) := .array nofun
          exact hempty.reads_line
      | cons j js =>
          rw [lines, linesItems_eq, List.cons_append, List.cons_append, List.append_assoc]
          · exact .array (blank_newLine level) fun i hi => (ih i hi (level + 1)).indented (blank_newLine _)
          · simp
  | @object members _ ih =>
      cases members with
      | nil =>
          have hempty : Plain (ofMembers []) := .object nofun
          exact hempty.reads_line
      | cons m ms =>
          rw [ofMembers, lines, linesMembers_eq, List.cons_append, List.cons_append, List.append_assoc]
          · exact .object (blank_newLine _) (blank_newLine level) fun m hm =>
              (ih m hm (level + 1)).indented blank_space
          · simp

theorem Reads.read {j : Json} {cs : List Char} (h : Reads j cs) : read (String.ofList cs) = (j, []) := by
  have hread : readValue (2 * cs.length + 2) (cs ++ []) = (j, []) := h nofun (by omega)
  rw [Json.read, String.toList_ofList, ← hread, List.append_nil]

/-- Both texts of a tree give the tree, and nothing is left of them. -/
theorem Plain.read_written {j : Json} (plain : Plain j) : read j.render = (j, []) ∧ read j.pretty = (j, []) :=
  ⟨plain.reads_line.read, (plain.reads_lines 0).read⟩

end Json

end ODataQuery
