import ODataQuery.Number.Text
import ODataQuery.Text.Join
import ODataQuery.Text.LowerCase
import ODataQuery.Text.Quoted
import ODataQuery.Time.Instant

/-!
The characters that formatting brings into a text. Numbers and moments consist of letters, digits and four
marks, lower case neither makes nor loses a character that stands before the letters, and a literal has no
characters but quotes and those of its value. So a separator that is none of these is found in a text only if
it was in what the text was made from.
-/

namespace ODataQuery

namespace Text

/-- A character that occurs in numbers or moments. -/
def isFigure (c : Char) : Bool := c.isAlphanum || c == '.' || c == '+' || c == '-' || c == ':'

def Figures (cs : List Char) : Prop := ∀ c ∈ cs, isFigure c = true

instance (cs : List Char) : Decidable (Figures cs) := decidable_of_iff (cs.all isFigure = true) List.all_eq_true

@[simp]
theorem figures_nil : Figures [] := nofun

@[simp]
theorem figures_cons {c : Char} {cs : List Char} : Figures (c :: cs) ↔ isFigure c = true ∧ Figures cs :=
  List.forall_mem_cons

@[simp]
theorem figures_append {as bs : List Char} : Figures (as ++ bs) ↔ Figures as ∧ Figures bs :=
  List.forall_mem_append

theorem Figures.not_mem {cs : List Char} (h : Figures cs) {c : Char} (hc : isFigure c = false) : c ∉ cs := by
  intro hmem
  cases hc.symm.trans (h c hmem)

theorem Figures.ite {p : Prop} [Decidable p] {as bs : List Char} (ha : Figures as) (hb : Figures bs) :
    Figures (if p then as else bs) := by
  split
  · exact ha
  · exact hb

theorem Figures.of_subset {as bs : List Char} (hb : Figures bs) (h : as ⊆ bs) : Figures as :=
  fun c hc => hb c (h hc)

theorem isAlphanum_iff {c : Char} : c.isAlphanum = true ↔
    ((65 ≤ c.toNat ∧ c.toNat ≤ 90) ∨ (97 ≤ c.toNat ∧ c.toNat ≤ 122)) ∨ (48 ≤ c.toNat ∧ c.toNat ≤ 57) := by
  have hruns : c.isAlphanum = ((decide (c.val ≥ 'A'.val ∧ c.val ≤ 'Z'.val) || (c.val ≥ 'a'.val && c.val ≤ 'z'.val)) ||
      (c.val ≥ '0'.val && c.val ≤ '9'.val)) := rfl
  simp only [hruns, Bool.or_eq_true, Bool.and_eq_true, decide_eq_true_eq, ge_iff_le, UInt32.le_iff_toNat_le]
  exact Iff.rfl

theorem bounds_of_isFigure {c : Char} (h : isFigure c = true) : 43 ≤ c.toNat ∧ c.toNat ≤ 122 := by
  simp only [isFigure, Bool.or_eq_true, beq_iff_eq, isAlphanum_iff] at h
  rcases h with (((h | rfl) | rfl) | rfl) | rfl
  · omega
  all_goals decide

theorem not_isFigure_of_isBlank {c : Char} (h : isBlank c = true) : isFigure c = false := by
  simp only [isBlank, Bool.or_eq_true, Bool.and_eq_true, decide_eq_true_eq, beq_iff_eq] at h
  refine Bool.eq_false_iff.mpr fun hfigure => ?_
  have hbounds := bounds_of_isFigure hfigure
  omega

theorem figures_replicate {c : Char} (hc : isFigure c = true) (n : Nat) : Figures (List.replicate n c) := by
  intro d hd
  rwa [List.eq_of_mem_replicate hd]

theorem isDigit_of_mem_digits {n : Nat} {c : Char} (h : c ∈ digits n) : c.isDigit = true :=
  Nat.isDigit_of_mem_toDigits (by decide) (by decide) h

theorem bounds_of_isDigit {c : Char} (h : c.isDigit = true) : 48 ≤ c.toNat ∧ c.toNat ≤ 57 := by
  simp only [Char.isDigit, Bool.and_eq_true, decide_eq_true_eq, ge_iff_le, UInt32.le_iff_toNat_le] at h
  exact h

theorem isFigure_of_isDigit {c : Char} (h : c.isDigit = true) : isFigure c = true := by
  rw [isFigure, Char.isAlphanum, h, Bool.or_true]
  rfl

theorem figures_digits (n : Nat) : Figures (digits n) := fun _ hc => isFigure_of_isDigit (isDigit_of_mem_digits hc)

theorem figures_padded (width n : Nat) : Figures (padded width n) :=
  figures_append.mpr ⟨figures_replicate (by decide) _, figures_digits n⟩

/-! ### Joined and quoted texts -/

theorem toList_join (separator : String) (texts : List String) :
    (join separator texts).toList = separator.toList.intercalate (texts.map String.toList) := by
  induction texts with
  | nil => rfl
  | cons s rest ih =>
      cases rest with
      | nil => simp [join]
      | cons s' rest =>
          have hjoin : join separator (s :: s' :: rest) = s ++ separator ++ join separator (s' :: rest) := rfl
          rw [hjoin, String.toList_append, String.toList_append, ih]
          simp only [List.map_cons, List.intercalate_cons_cons, List.append_assoc]

theorem mem_join {c : Char} {separator : String} (hs : c ∉ separator.toList) {texts : List String} :
    c ∈ (join separator texts).toList ↔ ∃ s ∈ texts, c ∈ s.toList := by
  induction texts with
  | nil => simp [join]
  | cons s rest ih =>
      cases rest with
      | nil => simp [join]
      | cons s' rest =>
          have hjoin : join separator (s :: s' :: rest) = s ++ separator ++ join separator (s' :: rest) := rfl
          rw [hjoin, String.toList_append, String.toList_append, List.mem_append, List.mem_append, ih]
          simp [hs]

theorem mem_doubleQuotes {c : Char} {cs : List Char} : c ∈ doubleQuotes cs ↔ c ∈ cs := by
  induction cs with
  | nil => rfl
  | cons d ds ih =>
      rw [doubleQuotes]
      split
      · simp only [List.mem_cons, ih, ← or_assoc, or_self]
      · simp only [List.mem_cons, ih]

theorem mem_quote {c : Char} (hc : c ≠ '\'') {s : String} : c ∈ (quote s).toList ↔ c ∈ s.toList := by
  simp only [quote, String.toList_ofList, List.mem_append, List.mem_cons, List.not_mem_nil, mem_doubleQuotes,
    hc, false_or, or_false]

/-! ### Lower case -/

theorem toLower_of_not_capital {c : Char} (h : ¬ (65 ≤ c.toNat ∧ c.toNat ≤ 90)) : c.toLower = c :=
  dif_neg fun ⟨hge, hle⟩ => h ⟨UInt32.le_iff_toNat_le.mp hge, UInt32.le_iff_toNat_le.mp hle⟩

theorem toNat_toLower {c : Char} (h : 65 ≤ c.toNat ∧ c.toNat ≤ 90) : c.toLower.toNat = c.toNat + 32 := by
  have hcapital : c.val ≥ 'A'.val ∧ c.val ≤ 'Z'.val := ⟨UInt32.le_iff_toNat_le.mpr h.1, UInt32.le_iff_toNat_le.mpr h.2⟩
  have hlower : c.toLower.val = c.val + 32 := congrArg Char.val (dif_pos hcapital)
  change c.toLower.val.toNat = _
  rw [hlower, UInt32.toNat_add]
  change (c.toNat + 32) % 2 ^ 32 = _
  omega

/-- Every image in the table is a letter or stands behind the letters. -/
theorem lt_of_caseRuns {n m : Nat} (h : caseRuns.findSome? (·.lower? n) = some m) : 64 < m := by
  have himages : ∀ r ∈ caseRuns, 64 < r.image := by decide +kernel
  obtain ⟨r, hr, hm⟩ := List.exists_of_findSome?_eq_some h
  have himage := himages r hr
  rw [CaseRun.lower?] at hm
  split at hm
  · cases hm
    omega
  · cases hm

section

variable {a : Char} (hpos : 0 < a.toNat) (hlt : a.toNat ≤ 64)
include hpos hlt

theorem ofNat_ne {n : Nat} (hn : 64 < n) : Char.ofNat n ≠ a := by
  intro h
  by_cases hvalid : n.isValidChar
  · have hchar : Char.ofNat n = Char.ofNatAux n hvalid := dif_pos hvalid
    have hnat : n = a.toNat := congrArg Char.toNat (hchar.symm.trans h)
    omega
  · have hchar : Char.ofNat n = '\x00' := dif_neg hvalid
    rw [← hchar.symm.trans h] at hpos
    cases hpos

omit hpos in
theorem toLower_eq_iff {c : Char} : c.toLower = a ↔ c = a := by
  by_cases hcapital : 65 ≤ c.toNat ∧ c.toNat ≤ 90
  · have hlower := toNat_toLower hcapital
    constructor
    · rintro rfl
      omega
    · rintro rfl
      omega
  · rw [toLower_of_not_capital hcapital]

theorem mem_lowerChar {c : Char} : a ∈ lowerChar c ↔ c = a := by
  rw [lowerChar]
  split
  · rw [List.mem_singleton, eq_comm, toLower_eq_iff hlt]
  · have hne : c ≠ a := by
      rintro rfl
      omega
    refine iff_of_false ?_ hne
    split
    · have hi : a ≠ 'i' := by
        rintro rfl
        exact absurd hlt (by decide)
      have hdot : a ≠ Char.ofNat 0x307 := (ofNat_ne hpos hlt (by decide)).symm
      simp [hi, hdot]
    · split
      · rename_i n hn
        rw [List.mem_singleton]
        exact (ofNat_ne hpos hlt (lt_of_caseRuns hn)).symm
      · rw [List.mem_singleton]
        exact hne.symm

theorem mem_lowerFrom {before cs : List Char} : a ∈ lowerFrom before cs ↔ a ∈ cs := by
  induction cs generalizing before with
  | nil => rfl
  | cons c cs ih =>
      rw [lowerFrom]
      split
      · rename_i hsigma
        have hc : c ≠ a := by
          rintro rfl
          omega
        have hlower : lowerSigma before cs ≠ a := by
          rw [lowerSigma]
          split <;> exact ofNat_ne hpos hlt (by omega)
        simp only [List.mem_cons, ih, hc.symm, hlower.symm, false_or]
      · rw [List.mem_append, mem_lowerChar hpos hlt, ih, List.mem_cons, eq_comm]

/-- Lower case keeps the characters before the letters. -/
theorem mem_lower {s : String} : a ∈ (lower s).toList ↔ a ∈ s.toList := by
  rw [lower, String.toList_ofList, mem_lowerFrom hpos hlt]

end

end Text

open Text

/-! ### Numbers -/

namespace Number

theorem figures_positional {ds : List Char} (h : Figures ds) (lead : Int) : Figures (positional ds lead) := by
  refine .ite ?_ (.ite ?_ ?_)
  · exact figures_append.mpr ⟨by simpa [isFigure] using figures_replicate (by decide) _, h⟩
  · exact figures_append.mpr ⟨h, figures_replicate (by decide) _⟩
  · simp only [figures_cons, figures_append]
    exact ⟨h.of_subset (List.take_subset _ _), by decide, h.of_subset (List.drop_subset _ _)⟩

theorem figures_scientific {ds : List Char} (h : Figures ds) (lead : Int) : Figures (scientific ds lead) := by
  simp only [scientific, figures_cons, figures_append]
  refine ⟨⟨h.of_subset (List.take_subset _ _), .ite ?_ figures_nil⟩, by decide, ?_, figures_digits _⟩
  · exact figures_cons.mpr ⟨by decide, h.of_subset (List.drop_subset _ _)⟩
  · split <;> decide

theorem figures_magnitudeText (m : Magnitude) : Figures (magnitudeText m) := by
  refine .ite (by decide) (.ite (by decide) ?_)
  generalize Shortest.decimal m = p
  obtain ⟨n, power⟩ := p
  exact .ite (figures_scientific (figures_digits n) _) (figures_positional (figures_digits n) _)

theorem figures_text (x : Binary64) : Figures (text x) := by
  cases x with
  | nan => decide
  | signed negative m => exact figures_append.mpr ⟨.ite (by decide) figures_nil, figures_magnitudeText m⟩

end Number

/-! ### Moments -/

namespace Instant

theorem figures_yearText (year : Int) : Figures (yearText year) := by
  refine .ite (figures_padded _ _) (figures_cons.mpr ⟨?_, figures_padded _ _⟩)
  split <;> decide

theorem figures_dateText (d : Date) : Figures (dateText d) := by
  simp only [dateText, figures_cons, figures_append]
  exact ⟨⟨figures_yearText _, by decide, figures_padded _ _⟩, by decide, figures_padded _ _⟩

theorem figures_text (t : Instant) : Figures t.text := by
  have hmark : ∀ {c : Char} {width n : Nat}, isFigure c = true → Figures (c :: padded width n) :=
    fun hc => figures_cons.mpr ⟨hc, figures_padded _ _⟩
  refine figures_append.mpr ⟨?_, by decide⟩
  refine figures_append.mpr ⟨?_, hmark (by decide)⟩
  refine figures_append.mpr ⟨?_, hmark (by decide)⟩
  refine figures_append.mpr ⟨?_, hmark (by decide)⟩
  exact figures_append.mpr ⟨figures_dateText _, hmark (by decide)⟩

end Instant

end ODataQuery
