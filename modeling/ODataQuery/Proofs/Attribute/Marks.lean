import ODataQuery.Number.Text
import ODataQuery.Proofs.Text.Trimmed
import ODataQuery.Proofs.Time.Moments
import ODataQuery.Time.Spelling

/-!
The marks of a text: its characters that are neither digits nor blanks. Numbers and moments are read with few marks,
whatever digits and blanks stand between them, so that the rows of marks that a text can have if it is read are
finite in number. Each piece of a reader takes one of a few runs of marks off the text and leaves the rest.
-/

namespace ODataQuery

namespace Text

def isMark (c : Char) : Bool := !(c.isDigit || isBlank c)

def marks (cs : List Char) : List Char := cs.filter isMark

/-- The rows that take a run from each list. -/
def rows : List (List (List Char)) → List (List Char)
  | [] => [[]]
  | runs :: rest => runs.flatMap fun run => (rows rest).map (run ++ ·)

/-- What is read of `cs` has one of the runs for its marks, and `rest` is left. -/
def Takes (runs : List (List Char)) (cs rest : List Char) : Prop := ∃ run ∈ runs, marks cs = run ++ marks rest

variable {cs rest : List Char}

theorem marks_append (as bs : List Char) : marks (as ++ bs) = marks as ++ marks bs := List.filter_append ..

theorem marks_digits {ds : List Char} (h : ∀ c ∈ ds, c.isDigit = true) : marks ds = [] := by
  refine List.filter_eq_nil_iff.mpr fun c hc => ?_
  simp [isMark, h c hc]

theorem marks_blanks (h : Blanks cs) : marks cs = [] := by
  refine List.filter_eq_nil_iff.mpr fun c hc => ?_
  simp [isMark, h c hc]

theorem marks_trim (cs : List Char) : marks (trim cs) = marks cs := by
  obtain ⟨before, after, hbefore, hafter, hcs⟩ := exists_around cs
  conv_rhs => rw [hcs, marks_append, marks_append, marks_blanks hbefore, marks_blanks hafter]
  rw [List.nil_append, List.append_nil]

theorem marks_trimStart (cs : List Char) : marks (trimStart cs) = marks cs := by
  conv_rhs => rw [← List.takeWhile_append_dropWhile (p := isBlank) (l := cs), marks_append]
  rw [marks_blanks fun c hc => List.mem_takeWhile_imp hc]
  rfl

theorem marks_dropDigits (cs : List Char) : marks (cs.dropWhile Char.isDigit) = marks cs := by
  conv_rhs => rw [← List.takeWhile_append_dropWhile (p := Char.isDigit) (l := cs), marks_append]
  rw [marks_digits fun c hc => List.mem_takeWhile_imp hc]
  rfl

theorem marks_digitsUpTo (most : Nat) (cs : List Char) : marks (digitsUpTo most cs).2 = marks cs := by
  fun_induction digitsUpTo most cs with
  | case1 most c cs hc ih => rw [ih, marks, marks, List.filter_cons_of_neg (by simp [isMark, hc])]
  | case2 => rfl
  | case3 => rfl

theorem append_mem_rows {run row : List Char} {runs : List (List Char)} {choices : List (List (List Char))}
    (hrun : run ∈ runs) (hrow : row ∈ rows choices) : run ++ row ∈ rows (runs :: choices) :=
  List.mem_flatMap.mpr ⟨run, hrun, List.mem_map_of_mem hrow⟩

theorem Takes.mem_rows {runs : List (List Char)} {choices : List (List (List Char))} (h : Takes runs cs rest)
    (hrest : marks rest ∈ rows choices) : marks cs ∈ rows (runs :: choices) := by
  obtain ⟨run, hrun, hcs⟩ := h
  exact hcs ▸ append_mem_rows hrun hrest

theorem Takes.mono {runs runs' : List (List Char)} (h : Takes runs cs rest) (hsub : runs ⊆ runs') :
    Takes runs' cs rest := by
  obtain ⟨run, hrun, hmarks⟩ := h
  exact ⟨run, hsub hrun, hmarks⟩

theorem takes_nothing (h : marks rest = marks cs) : Takes [[]] cs rest := ⟨[], List.mem_singleton_self _, h.symm⟩

theorem takes_all {runs : List (List Char)} (h : marks cs ∈ runs) : Takes runs cs [] :=
  ⟨marks cs, h, (List.append_nil _).symm⟩

end Text

open Text

/-! ### Numbers -/

namespace Decimal

variable {cs : List Char}

def signRuns : List (List Char) := [[], ['-'], ['+']]

def exponentRuns : List (List Char) := [[]] ++ rows [[['e'], ['E']], signRuns]

/-- The runs of marks of a numeral, piece by piece. -/
def runs : List (List (List Char)) := [signRuns, [[], ['.']], exponentRuns]

theorem takes_sign (cs : List Char) : Takes signRuns cs (readSign cs).2 := by
  fun_cases readSign cs with
  | case1 cs => exact ⟨['-'], by decide, rfl⟩
  | case2 cs => exact ⟨['+'], by decide, rfl⟩
  | case3 => exact ⟨[], by decide, rfl⟩

theorem takes_fraction (cs : List Char) : Takes [[], ['.']] cs (readFraction cs).2 := by
  fun_cases readFraction cs with
  | case1 cs => exact ⟨['.'], by decide, congrArg ('.' :: ·) (marks_dropDigits cs).symm⟩
  | case2 => exact ⟨[], by decide, rfl⟩

theorem takes_exponent {n : Int} (h : readExponent? cs = some n) : Takes exponentRuns cs [] := by
  cases cs with
  | nil => exact takes_all (by decide)
  | cons c cs =>
      rw [readExponent?] at h
      split at h
      · rename_i hc
        dsimp only [readDigits] at h
        split at h
        · cases h
        · rename_i hends
          rw [not_or, not_not] at hends
          have hletter : Takes [['e'], ['E']] (c :: cs) cs := by
            rcases hc with rfl | rfl
            · exact ⟨['e'], by decide, rfl⟩
            · exact ⟨['E'], by decide, rfl⟩
          have hdigits : marks (readSign cs).2 ∈ rows [] := by
            rw [← marks_dropDigits, hends.2]
            exact List.mem_singleton_self _
          apply takes_all
          exact List.mem_append_right _ (hletter.mem_rows ((takes_sign cs).mem_rows hdigits))
      · cases h

theorem marks_of_read? {d : Decimal} (h : read? cs = some d) : marks cs ∈ rows runs := by
  rw [read?] at h
  dsimp only at h
  split at h
  · cases h
  · obtain ⟨n, hexponent, -⟩ := Option.map_eq_some_iff.mp h
    refine (takes_sign cs).mem_rows ?_
    rw [← marks_dropDigits]
    exact (takes_fraction _).mem_rows ((takes_exponent hexponent).mem_rows (List.mem_singleton_self _))

end Decimal

namespace Time

variable {cs rest : List Char}

theorem marks_of_readNumber? {most n : Nat} (h : readNumber? most cs = some (n, rest)) : marks rest = marks cs := by
  have hmarks := marks_digitsUpTo most cs
  rw [readNumber?] at h
  split at h
  · cases h
  · rename_i heq
    cases h
    rwa [heq] at hmarks

theorem marks_of_map_readNumber? {α : Type} {most : Nat} {set : Nat × List Char → α × List Char}
    {a : α} (h : (readNumber? most cs).map set = some (a, rest)) (hset : ∀ p, (set p).2 = p.2) :
    marks rest = marks cs := by
  obtain ⟨⟨n, rest'⟩, hread, heq⟩ := Option.map_eq_some_iff.mp h
  have hrest : rest' = rest := (hset (n, rest')).symm.trans (congrArg Prod.snd heq)
  exact hrest ▸ marks_of_readNumber? hread

theorem marks_of_readExactly? {width n : Nat} (h : readExactly? width cs = some (n, rest)) :
    marks rest = marks cs := by
  have hmarks := marks_digitsUpTo width cs
  rw [readExactly?] at h
  split at h
  rename_i heq
  split at h
  · cases h
    rwa [heq] at hmarks
  · cases h

theorem takes_mark {mark : Char} (h : readMark? mark cs = some rest) : Takes [marks [mark]] cs rest := by
  cases cs with
  | nil => cases h
  | cons c cs =>
      rw [readMark?] at h
      split at h
      · rename_i hc
        cases h
        exact ⟨_, List.mem_singleton_self _, hc ▸ marks_append [c] rest⟩
      · cases h

theorem takes_fraction {n : Nat} (h : readFraction? cs = some (n, rest)) : Takes [[], ['.']] cs rest := by
  unfold readFraction? at h
  split at h
  · rename_i cs
    have hmarks := marks_digitsUpTo 9 cs
    dsimp only at h
    split at h
    · cases h
    · cases h
      refine ⟨['.'], by decide, congrArg ('.' :: ·) ?_⟩
      exact (marks_dropDigits _ |>.trans hmarks).symm
  · cases h
    exact ⟨[], by decide, rfl⟩

theorem takes_year {n : Int} (h : readYear? cs = some (n, rest)) : Takes Decimal.signRuns cs rest := by
  unfold readYear? at h
  split at h
  · exact ⟨['-'], by decide, congrArg ('-' :: ·) (marks_of_map_readNumber? h fun _ => rfl).symm⟩
  · exact ⟨['+'], by decide, congrArg ('+' :: ·) (marks_of_map_readNumber? h fun _ => rfl).symm⟩
  · exact ⟨[], by decide, (marks_of_map_readNumber? h fun _ => rfl).symm⟩

/-! ### Layouts -/

/-- The runs of marks that a piece of a layout takes. -/
def Piece.runs : Piece → List (List Char)
  | year => Decimal.signRuns
  | fraction => [[], ['.']]
  | mark c => [marks [c]]
  | month | day | hour | minute | second | gap => [[]]

variable {f f' : Fields}

theorem Piece.takes {piece : Piece} (h : piece.read? f cs = some (f', rest)) : Takes piece.runs cs rest := by
  have hblanks := marks_trimStart cs
  cases piece with
  | year =>
      obtain ⟨⟨n, rest'⟩, hread, heq⟩ := Option.map_eq_some_iff.mp h
      cases heq
      obtain ⟨run, hrun, hmarks⟩ := takes_year hread
      exact ⟨run, hrun, hblanks.symm.trans hmarks⟩
  | month | day | hour | minute | second =>
      exact takes_nothing ((marks_of_map_readNumber? h fun _ => rfl).trans hblanks)
  | fraction =>
      obtain ⟨⟨n, rest'⟩, hread, heq⟩ := Option.map_eq_some_iff.mp h
      cases heq
      exact takes_fraction hread
  | mark c =>
      obtain ⟨rest', hread, heq⟩ := Option.map_eq_some_iff.mp h
      cases heq
      exact takes_mark hread
  | gap =>
      cases h
      exact takes_nothing hblanks

/-- A text that a layout covers has the marks of the layout. -/
theorem marks_of_readPieces? {layout : List Piece} (h : readPieces? layout f cs = some f') :
    marks cs ∈ rows (layout.map Piece.runs) := by
  induction layout generalizing f cs with
  | nil =>
      rw [readPieces?] at h
      split at h
      · rename_i hcs
        exact hcs ▸ List.mem_singleton_self _
      · cases h
  | cons piece layout ih =>
      obtain ⟨⟨f, rest⟩, hpiece, hrest⟩ := Option.bind_eq_some_iff.mp h
      exact (Piece.takes hpiece).mem_rows (ih hrest)

theorem marks_of_readLayout? {layout : List Piece} {t : Instant} (h : readLayout? layout cs = some t) :
    marks cs ∈ rows (layout.map Piece.runs) := by
  obtain ⟨f, hread, -⟩ := Option.bind_eq_some_iff.mp h
  exact marks_of_readPieces? hread

/-! ### The strict spelling -/

def offsetSigns : List (List Char) := [['+'], ['-'], [Char.ofNat 0x2212]]

def offsetRuns : List (List Char) := [['Z'], ['z']] ++ rows [offsetSigns, [[':']]]

/-- The runs of marks of the strict spelling, piece by piece. -/
def strictRuns : List (List (List Char)) :=
  [[['-']], [['-']], [['T'], ['t'], []], [[':']], [[':']], [[], ['.']], offsetRuns]

/-- The letter T or a blank before the time of day. -/
theorem takes_clock (h : (readMark? 'T' cs <|> readMark? 't' cs <|> readMark? ' ' cs) = some rest) :
    Takes [['T'], ['t'], []] cs rest := by
  simp only [Option.orElse_eq_orElse, Option.orElse_eq_or, Option.or_eq_some_iff] at h
  rcases h with h | ⟨-, h | ⟨-, h⟩⟩
  · exact (takes_mark h).mono (by decide)
  · exact (takes_mark h).mono (by decide)
  · exact (takes_mark h).mono (by decide)

theorem takes_offsetSign {c : Char} (h : c = '+' ∨ isMinus c = true) : Takes offsetSigns (c :: cs) cs := by
  simp only [isMinus, Bool.or_eq_true, beq_iff_eq] at h
  rcases h with rfl | rfl | hc
  · exact ⟨['+'], by decide, rfl⟩
  · exact ⟨['-'], by decide, rfl⟩
  · have hsign : c = Char.ofNat 0x2212 := by rw [← hc, Char.ofNat_toNat]
    subst hsign
    exact ⟨[Char.ofNat 0x2212], by decide, rfl⟩

theorem takes_offset {ahead : Int} (h : readOffset? cs = some ahead) : Takes offsetRuns cs [] := by
  cases cs with
  | nil => cases h
  | cons c cs =>
      rw [readOffset?] at h
      split at h
      · rename_i hz
        obtain ⟨rfl | rfl, rfl⟩ := hz
        · exact takes_all (by decide)
        · exact takes_all (by decide)
      · split at h
        · rename_i hsign
          simp only [Option.bind_eq_bind, Option.bind_eq_some_iff, Prod.exists] at h
          obtain ⟨hours, cs₁, hhours, cs₂, hcolon, minutes, cs₃, hminutes, h⟩ := h
          split at h
          · rename_i hends
            have hrest : marks cs₂ ∈ rows [] := by
              rw [← marks_of_readExactly? hminutes, hends.2.2]
              exact List.mem_singleton_self _
            have hclock : marks cs ∈ rows [[[':']]] := by
              rw [← marks_of_readExactly? hhours]
              exact (takes_mark hcolon).mem_rows hrest
            apply takes_all
            exact List.mem_append_right _ ((takes_offsetSign hsign).mem_rows hclock)
          · cases h
        · cases h

/-- A field takes no marks: those up to the next field are of the mark between the two. -/
theorem Leads.takes {width n : Nat} {mark? : List Char → Option (List Char)} {runs : List (List Char)}
    (h : Leads width cs n mark? rest) (takes : ∀ {behind}, mark? behind = some rest → Takes runs behind rest) :
    Takes runs cs rest := by
  obtain ⟨behind, hfield, hmark⟩ := h
  obtain ⟨run, hrun, hbehind⟩ := takes hmark
  exact ⟨run, hrun, (marks_of_readExactly? hfield).symm.trans hbehind⟩

theorem marks_of_readStrict? {t : Instant} (h : readStrict? cs = some t) : marks cs ∈ rows strictRuns := by
  obtain ⟨p, spells, -⟩ := exists_strictParts h
  have hoffset : marks p.fromOffset ∈ rows [offsetRuns] :=
    (takes_offset spells.offset).mem_rows (List.mem_singleton_self _)
  have hsecond : marks p.fromSecond ∈ rows [[[], ['.']], offsetRuns] := by
    rw [← marks_of_readExactly? spells.second]
    exact (takes_fraction spells.fraction).mem_rows hoffset
  have hhour : marks p.fromHour ∈ rows [[[':']], [[':']], [[], ['.']], offsetRuns] :=
    (spells.hour.takes takes_mark).mem_rows ((spells.minute.takes takes_mark).mem_rows hsecond)
  have hmonth : marks p.fromMonth ∈ rows ([['-']] :: [['T'], ['t'], []] :: [[[':']], [[':']], [[], ['.']], offsetRuns]) :=
    (spells.month.takes takes_mark).mem_rows ((spells.day.takes takes_clock).mem_rows hhour)
  exact (spells.year.takes takes_mark).mem_rows hmonth

end Time

end ODataQuery
