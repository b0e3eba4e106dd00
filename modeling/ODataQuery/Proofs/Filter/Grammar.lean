import Mathlib.Data.List.SplitBy
import ODataQuery.Filter.Condition
import ODataQuery.Text.Join

/-!
The grammar of filters. A disjunction is a row of conjunctions with `or` between them, a conjunction a row
of terms with `and` between them, and a term is an atom, a negated term, or a disjunction in parentheses.
So `and` binds more tightly than `or`, and `not` more tightly than both. No row of tokens is read in two
ways: where a term ends can be told from its tokens alone, where a conjunction ends from the token that
comes after it.
-/

namespace ODataQuery.Grammar

inductive Token (α : Type) where
  | opening | closing | not | and | or
  | atom (a : α)

def Token.atom? {α : Type} : Token α → Option α
  | .atom a => some a
  | .opening | .closing | .not | .and | .or => none

mutual

inductive Disjunction (α : Type) where
  | one (c : Conjunction α)
  | more (c : Conjunction α) (d : Disjunction α)

inductive Conjunction (α : Type) where
  | one (t : Term α)
  | more (t : Term α) (c : Conjunction α)

inductive Term (α : Type) where
  | not (t : Term α)
  | parens (d : Disjunction α)
  | atom (a : α)

end

variable {α : Type}

mutual

def Disjunction.tokens : Disjunction α → List (Token α)
  | .one c => c.tokens
  | .more c d => c.tokens ++ .or :: d.tokens

def Conjunction.tokens : Conjunction α → List (Token α)
  | .one t => t.tokens
  | .more t c => t.tokens ++ .and :: c.tokens

def Term.tokens : Term α → List (Token α)
  | .not t => .not :: t.tokens
  | .parens d => .opening :: d.tokens ++ [.closing]
  | .atom a => [.atom a]

end

mutual

/-- The truth of a disjunction, given that of the atoms. -/
def Disjunction.eval (v : α → Bool) : Disjunction α → Bool
  | .one c => c.eval v
  | .more c d => c.eval v || d.eval v

def Conjunction.eval (v : α → Bool) : Conjunction α → Bool
  | .one t => t.eval v
  | .more t c => t.eval v && c.eval v

def Term.eval (v : α → Bool) : Term α → Bool
  | .not t => !t.eval v
  | .parens d => d.eval v
  | .atom a => v a

end

/-! ### No row of tokens is read in two ways -/

/-- A row of tokens does not begin with a token. -/
def Avoids (s : Token α) (ts : List (Token α)) : Prop := ∀ rest, ts ≠ s :: rest

mutual

theorem Disjunction.tokens_cancel {d d' : Disjunction α} {r r' : List (Token α)} (hand : Avoids .and r)
    (hor : Avoids .or r) (hand' : Avoids .and r') (hor' : Avoids .or r')
    (h : d.tokens ++ r = d'.tokens ++ r') : d = d' ∧ r = r' := by
  cases d with
  | one c =>
      cases d' with
      | one c' =>
          obtain ⟨rfl, rfl⟩ := Conjunction.tokens_cancel hand hand' h
          exact ⟨rfl, rfl⟩
      | more c' d' =>
          rw [Disjunction.tokens, Disjunction.tokens, List.append_assoc] at h
          obtain ⟨-, hr⟩ := Conjunction.tokens_cancel hand (by rintro _ ⟨⟩) h
          exact absurd hr (hor _)
  | more c d =>
      rw [Disjunction.tokens, List.append_assoc] at h
      cases d' with
      | one c' =>
          obtain ⟨-, hr⟩ := Conjunction.tokens_cancel (by rintro _ ⟨⟩) hand' h
          exact absurd hr.symm (hor' _)
      | more c' d' =>
          rw [Disjunction.tokens, List.append_assoc] at h
          obtain ⟨rfl, hr⟩ := Conjunction.tokens_cancel (by rintro _ ⟨⟩) (by rintro _ ⟨⟩) h
          obtain ⟨rfl, rfl⟩ := Disjunction.tokens_cancel hand hor hand' hor' (List.cons.inj hr).2
          exact ⟨rfl, rfl⟩

theorem Conjunction.tokens_cancel {c c' : Conjunction α} {r r' : List (Token α)} (hand : Avoids .and r)
    (hand' : Avoids .and r') (h : c.tokens ++ r = c'.tokens ++ r') : c = c' ∧ r = r' := by
  cases c with
  | one t =>
      cases c' with
      | one t' =>
          obtain ⟨rfl, rfl⟩ := Term.tokens_cancel h
          exact ⟨rfl, rfl⟩
      | more t' c' =>
          rw [Conjunction.tokens, Conjunction.tokens, List.append_assoc] at h
          obtain ⟨-, hr⟩ := Term.tokens_cancel h
          exact absurd hr (hand _)
  | more t c =>
      rw [Conjunction.tokens, List.append_assoc] at h
      cases c' with
      | one t' =>
          obtain ⟨-, hr⟩ := Term.tokens_cancel h
          exact absurd hr.symm (hand' _)
      | more t' c' =>
          rw [Conjunction.tokens, List.append_assoc] at h
          obtain ⟨rfl, hr⟩ := Term.tokens_cancel h
          obtain ⟨rfl, rfl⟩ := Conjunction.tokens_cancel hand hand' (List.cons.inj hr).2
          exact ⟨rfl, rfl⟩

theorem Term.tokens_cancel {t t' : Term α} {r r' : List (Token α)} (h : t.tokens ++ r = t'.tokens ++ r') :
    t = t' ∧ r = r' := by
  cases t with
  | not t =>
      cases t' with
      | not t' =>
          obtain ⟨rfl, rfl⟩ := Term.tokens_cancel (List.cons.inj h).2
          exact ⟨rfl, rfl⟩
      | parens d' => cases (List.cons.inj h).1
      | atom a' => cases (List.cons.inj h).1
  | parens d =>
      cases t' with
      | not t' => cases (List.cons.inj h).1
      | parens d' =>
          rw [Term.tokens, Term.tokens, List.cons_append, List.cons_append, List.cons_append,
            List.cons_append, List.append_assoc, List.append_assoc] at h
          obtain ⟨rfl, hr⟩ := Disjunction.tokens_cancel (by rintro _ ⟨⟩) (by rintro _ ⟨⟩) (by rintro _ ⟨⟩)
            (by rintro _ ⟨⟩) (List.cons.inj h).2
          exact ⟨rfl, (List.cons.inj hr).2⟩
      | atom a' => cases (List.cons.inj h).1
  | atom a =>
      cases t' with
      | not t' => cases (List.cons.inj h).1
      | parens d' => cases (List.cons.inj h).1
      | atom a' =>
          cases h
          exact ⟨rfl, rfl⟩

end

/-- A row of tokens is read in one way at most. -/
theorem Disjunction.tokens_injective {d d' : Disjunction α} (h : d.tokens = d'.tokens) : d = d' := by
  have hnil : ∀ s : Token α, Avoids s [] := by
    rintro s rest ⟨⟩
  exact (Disjunction.tokens_cancel (hnil _) (hnil _) (hnil _) (hnil _) (congrArg (· ++ []) h)).1

/-! ### Rows with joins -/

def Token.ofJoin : Join → Token α
  | .and => .and
  | .or => .or

/-- A row of terms has the tokens of a conjunction. -/
theorem exists_conjunction {β : Type} (term : β → Term α) {run : List β} (hrun : run ≠ []) :
    ∃ c : Conjunction α, c.tokens = List.intercalate [.and] (run.map fun b => (term b).tokens) ∧
      ∀ v, c.eval v = run.all fun b => (term b).eval v := by
  induction run with
  | nil => exact absurd rfl hrun
  | cons b rest ih =>
      cases rest with
      | nil =>
          refine ⟨.one (term b), ?_, fun v => ?_⟩
          · rw [List.map_singleton, List.intercalate_singleton, Conjunction.tokens]
          · rw [List.all_cons, List.all_nil, Bool.and_true, Conjunction.eval]
      | cons b' rest =>
          obtain ⟨c, htokens, heval⟩ := ih (List.cons_ne_nil b' rest)
          refine ⟨.more (term b) c, ?_, fun v => ?_⟩
          · rw [List.map_cons, List.map_cons, List.intercalate_cons_cons, Conjunction.tokens, htokens,
              List.map_cons, List.append_assoc]
            rfl
          · rw [List.all_cons, Conjunction.eval, heval]

/-- A row of rows of terms has the tokens of a disjunction. -/
theorem exists_disjunction {β : Type} (term : β → Term α) (runs : List (List β)) (hruns : runs ≠ [])
    (hrun : [] ∉ runs) :
    ∃ d : Disjunction α, d.tokens = List.intercalate [.or]
        (runs.map fun run => List.intercalate [.and] (run.map fun b => (term b).tokens)) ∧
      ∀ v, d.eval v = runs.any fun run => run.all fun b => (term b).eval v := by
  induction runs with
  | nil => exact absurd rfl hruns
  | cons run rest ih =>
      obtain ⟨hne, hrest⟩ := List.ne_and_not_mem_of_not_mem_cons hrun
      obtain ⟨c, hc, hceval⟩ := exists_conjunction term hne.symm
      cases rest with
      | nil =>
          refine ⟨.one c, ?_, fun v => ?_⟩
          · rw [List.map_singleton, List.intercalate_singleton, Disjunction.tokens, hc]
          · rw [List.any_cons, List.any_nil, Bool.or_false, Disjunction.eval, hceval]
      | cons run' rest =>
          obtain ⟨d, hd, hdeval⟩ := ih (List.cons_ne_nil run' rest) hrest
          refine ⟨.more c d, ?_, fun v => ?_⟩
          · rw [List.map_cons, List.map_cons, List.intercalate_cons_cons, Disjunction.tokens, hc, hd,
              List.map_cons, List.append_assoc]
            rfl
          · rw [List.any_cons, Disjunction.eval, hceval, hdeval]

/-- Two neighbours that are related are in one run. -/
theorem splitBy_cons_cons_of_pos {β : Type} {R : β → β → Bool} {a b : β} (hab : R a b = true) (l : List β) :
    ∃ run runs, (b :: l).splitBy R = (b :: run) :: runs ∧
      (a :: b :: l).splitBy R = (a :: b :: run) :: runs := by
  have hne : (b :: l).splitBy R ≠ [] := List.splitBy_ne_nil.mpr (List.cons_ne_nil b l)
  obtain ⟨hflatten, hnil, hchain, hlast⟩ := List.splitBy_eq_iff.mp (rfl : (b :: l).splitBy R = _)
  cases hsplit : (b :: l).splitBy R with
  | nil => exact absurd hsplit hne
  | cons first runs =>
      rw [hsplit] at hflatten hnil hchain hlast
      cases first with
      | nil => exact absurd List.mem_cons_self hnil
      | cons b' run =>
          obtain rfl : b = b' := (List.cons.inj hflatten).1
          refine ⟨run, runs, rfl, List.splitBy_eq_iff.mpr ⟨?_, ?_, ?_, ?_⟩⟩
          · rw [hflatten]
            rfl
          · simpa using hnil
          · intro m hm
            rcases List.mem_cons.mp hm with rfl | hm
            · exact List.isChain_cons_cons.mpr ⟨hab, hchain _ List.mem_cons_self⟩
            · exact hchain m (List.mem_cons_of_mem _ hm)
          · cases runs with
            | nil => exact List.isChain_singleton _
            | cons second runs =>
                obtain ⟨⟨h1, h2, h3⟩, hrest⟩ := List.isChain_cons_cons.mp hlast
                exact List.isChain_cons_cons.mpr ⟨⟨List.cons_ne_nil _ _, h2, by simpa using h3⟩, hrest⟩

theorem splitBy_cons_cons_of_neg {β : Type} {R : β → β → Bool} {a b : β} (hab : R a b = false) (l : List β) :
    (a :: b :: l).splitBy R = [a] :: (b :: l).splitBy R :=
  List.splitBy_append_cons l (l := [a]) (by simpa using hab)

/-- Whether a member of a row goes together with the one before it. -/
def joined {β : Type} (join : β → Join) : β → β → Bool := fun _ b => join b = .and

/-- The tokens of the runs of a row, put together, are those of the row with its joins. -/
theorem intercalate_runs {β : Type} (join : β → Join) (tokens : β → List (Token α)) (b : β) (rest : List β) :
    List.intercalate [.or] (((b :: rest).splitBy (joined join)).map fun run =>
        List.intercalate [.and] (run.map tokens)) =
      tokens b ++ rest.flatMap fun b => Token.ofJoin (join b) :: tokens b := by
  induction rest generalizing b with
  | nil =>
      change List.intercalate [.or] [List.intercalate [.and] [tokens b]] = tokens b ++ []
      rw [List.intercalate_singleton, List.intercalate_singleton, List.append_nil]
  | cons b' rest ih =>
      rw [List.flatMap_cons, List.cons_append, ← ih b']
      cases hj : join b' with
      | and =>
          obtain ⟨run, runs, hruns, hruns'⟩ :=
            splitBy_cons_cons_of_pos (R := joined join) (a := b) (decide_eq_true hj) rest
          rw [hruns, hruns']
          cases runs with
          | nil =>
              simp only [List.map_cons, List.map_nil, List.intercalate_singleton,
                List.intercalate_cons_cons, List.append_assoc, List.singleton_append, Token.ofJoin]
          | cons second runs =>
              simp only [List.map_cons, List.intercalate_cons_cons, List.append_assoc,
                List.cons_append, List.nil_append, Token.ofJoin]
      | or =>
          have hne : (b' :: rest).splitBy (joined join) ≠ [] :=
            List.splitBy_ne_nil.mpr (List.cons_ne_nil b' rest)
          have hb' : joined join b b' = false := decide_eq_false (by simp [hj])
          rw [splitBy_cons_cons_of_neg hb' rest, List.map_cons,
            List.intercalate_cons_of_ne_nil (List.map_eq_nil_iff.not.mpr hne), List.map_singleton,
            List.intercalate_singleton, List.append_assoc]
          rfl

/-- A row of terms with joins is read as a disjunction of its runs. -/
theorem exists_reading {β : Type} (join : β → Join) (term : β → Term α) (b : β) (rest : List β) :
    ∃ d : Disjunction α,
      d.tokens = (term b).tokens ++ rest.flatMap (fun b => Token.ofJoin (join b) :: (term b).tokens) ∧
      ∀ v, d.eval v = ((b :: rest).splitBy (joined join)).any fun run => run.all fun b => (term b).eval v := by
  obtain ⟨d, htokens, heval⟩ := exists_disjunction term _
    (List.splitBy_ne_nil.mpr (List.cons_ne_nil b rest)) (List.nil_notMem_splitBy (joined join) (b :: rest))
  refine ⟨d, ?_, heval⟩
  rw [htokens]
  exact intercalate_runs join (fun b => (term b).tokens) b rest

/-! ### Spelling -/

def Token.text (atom : α → String) : Token α → String
  | .opening => "("
  | .closing => ")"
  | .not => "not"
  | .and => "and"
  | .or => "or"
  | .atom a => atom a

/-- What stands between two tokens: a blank, but not on the inner side of a parenthesis. -/
def gap : Token α → Token α → String
  | .opening, _ => ""
  | _, .closing => ""
  | _, _ => " "

/-- A row of tokens, written out. -/
def spell (atom : α → String) : List (Token α) → String
  | [] => ""
  | [s] => s.text atom
  | s :: s' :: ts => s.text atom ++ gap s s' ++ spell atom (s' :: ts)

/-- A row of tokens that has a blank on either side when it stands in the middle. -/
structure Solid (ts : List (Token α)) : Prop where
  head : ∃ s rest, ts = s :: rest ∧ s ≠ .closing
  last : ∃ rest s, ts = rest ++ [s] ∧ s ≠ .opening

variable {atom : α → String} {ts us : List (Token α)}

theorem Solid.single {s : Token α} (hc : s ≠ .closing) (ho : s ≠ .opening) : Solid [s] :=
  ⟨⟨s, [], rfl, hc⟩, ⟨[], s, rfl, ho⟩⟩

theorem Solid.append (ht : Solid ts) (hu : Solid us) : Solid (ts ++ us) := by
  obtain ⟨s, rest, rfl, hs⟩ := ht.head
  obtain ⟨rest', s', rfl, hs'⟩ := hu.last
  exact ⟨⟨s, rest ++ (rest' ++ [s']), rfl, hs⟩, ⟨s :: rest ++ rest', s', (List.append_assoc ..).symm, hs'⟩⟩

theorem Solid.parens : Solid (.opening :: ts ++ [.closing] : List (Token α)) :=
  ⟨⟨.opening, ts ++ [.closing], rfl, by simp⟩, ⟨.opening :: ts, .closing, rfl, by simp⟩⟩

theorem gap_eq_blank {s s' : Token α} (ho : s ≠ .opening) (hc : s' ≠ .closing) : gap s s' = " " := by
  cases s with
  | opening => exact absurd rfl ho
  | _ =>
    cases s' with
    | closing => exact absurd rfl hc
    | _ => rfl

theorem spell_cons_cons {s s' : Token α} :
    spell atom (s :: s' :: ts) = s.text atom ++ gap s s' ++ spell atom (s' :: ts) := rfl

theorem spell_append {s s' : Token α} {rest : List (Token α)} :
    spell atom (ts ++ [s] ++ s' :: rest) =
      spell atom (ts ++ [s]) ++ gap s s' ++ spell atom (s' :: rest) := by
  induction ts with
  | nil => rfl
  | cons t ts ih =>
      cases ts with
      | nil =>
          simp only [List.cons_append, List.nil_append, spell_cons_cons, String.append_assoc, spell]
      | cons t' ts =>
          simp only [List.cons_append] at ih ⊢
          rw [spell_cons_cons, ih, spell_cons_cons]
          simp only [String.append_assoc]

theorem Solid.spell_append (ht : Solid ts) (hu : Solid us) :
    spell atom (ts ++ us) = spell atom ts ++ " " ++ spell atom us := by
  obtain ⟨rest, s, rfl, hs⟩ := ht.last
  obtain ⟨s', rest', rfl, hs'⟩ := hu.head
  rw [Grammar.spell_append, gap_eq_blank hs hs']

theorem Solid.spell_parens (ht : Solid ts) :
    spell atom (.opening :: ts ++ [.closing]) = "(" ++ spell atom ts ++ ")" := by
  obtain ⟨rest, s, rfl, hs⟩ := ht.last
  have hgap : gap s Token.closing = "" := by cases s <;> rfl
  have hinner : spell atom (.opening :: rest ++ [s]) = "(" ++ spell atom (rest ++ [s]) := by
    cases rest with
    | nil => rfl
    | cons t rest => rfl
  rw [← List.cons_append, Grammar.spell_append, hinner, hgap, String.append_empty]
  rfl

/-- Rows with a separator between them, written out. -/
theorem Solid.spell_intercalate {β : Type} (atom : α → String) (tokens : β → List (Token α)) {sep : Token α}
    (hc : sep ≠ .closing) (ho : sep ≠ .opening) {bs : List β} (hbs : bs ≠ [])
    (solid : ∀ b ∈ bs, Solid (tokens b)) :
    Solid (List.intercalate [sep] (bs.map tokens)) ∧
      spell atom (List.intercalate [sep] (bs.map tokens)) =
        Text.join (" " ++ sep.text atom ++ " ") (bs.map fun b => spell atom (tokens b)) := by
  induction bs with
  | nil => exact absurd rfl hbs
  | cons b rest ih =>
      have hb : Solid (tokens b) := solid b List.mem_cons_self
      cases rest with
      | nil =>
          rw [List.map_singleton, List.intercalate_singleton]
          exact ⟨hb, rfl⟩
      | cons b' rest =>
          obtain ⟨hsolid, hspell⟩ := ih (List.cons_ne_nil b' rest) fun d hd => solid d (List.mem_cons_of_mem b hd)
          have hsep : Solid [sep] := .single hc ho
          rw [List.map_cons, List.map_cons, List.intercalate_cons_cons, ← List.map_cons]
          refine ⟨(hb.append hsep).append hsolid, ?_⟩
          rw [(hb.append hsep).spell_append hsolid, hb.spell_append hsep, hspell]
          simp only [List.map_cons, Text.join, spell, String.append_assoc]

end ODataQuery.Grammar
