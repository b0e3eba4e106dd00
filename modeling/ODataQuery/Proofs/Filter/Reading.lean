import ODataQuery.Proofs.Filter.Grammar
import ODataQuery.Proofs.Filter.Kept

/-!
How a filter is read. Its text spells a row of tokens with one atom for each kept condition. By the grammar
the row has one reading, and that is what the groups mean: runs of groups joined by `and` are combined
first, and then the runs by `or`. No parentheses are missing, although single conditions and the chain of
groups have none.
-/

namespace ODataQuery

open Grammar

namespace Expression

/-- Whether a `not` stands before a function. -/
def isNegated : Expression → Bool
  | .function _ _ _ negated => negated
  | _ => false

/-- Without the `not` before a function. -/
def plain : Expression → Expression
  | .function f field value _ => .function f field value false
  | e => e

theorem render_eq (e : Expression) :
    e.render = if e.isNegated then "not " ++ e.plain.render else e.plain.render := by
  cases e with
  | function f field value negated =>
      cases negated with
      | true => simp only [isNegated, plain, render, if_true, Bool.false_eq_true, if_false, String.append_assoc,
          String.empty_append]
      | false => rfl
  | _ => rfl

end Expression

/-- Only one operator stands for a negated function. -/
theorem Condition.isNegated_of_expression? {c : Condition} {known : Option AttributeMap} {policy : NanPolicy}
    {e : Expression} (h : c.expression? known policy = some e) :
    e.isNegated = decide (c.operator = .notContains) := by
  cases form_of_expression? h with
  | nullTest hnull =>
      cases hop : c.operator <;> rw [hop] at hnull <;> first | rfl | cases hnull
  | function hf htype =>
      cases hop : c.operator <;> rw [hop] at hf <;> cases hf <;> rfl
  | comparison hnull hf hvalue =>
      cases hop : c.operator <;> rw [hop] at hf <;> first | rfl | cases hf

namespace Kept

variable (k : Kept)

def isNegated : Bool := k.condition.operator = .notContains

/-- The text of the condition's atom. -/
def text : String := k.expression.plain.render

def tokens : List (Token Kept) := if k.isNegated then [.not, .atom k] else [.atom k]

/-- The truth of the condition, given that of the atoms: its atom holds, or does not if the operator says
so. -/
def value (v : Kept → Bool) : Bool := if k.isNegated then !v k else v k

def term : Term Kept := if k.isNegated then .not (.atom k) else .atom k

theorem tokens_term : k.term.tokens = k.tokens := by
  rw [term, tokens]
  split <;> rfl

theorem eval_term (v : Kept → Bool) : k.term.eval v = k.value v := by
  rw [term, value]
  split <;> rfl

theorem solid_tokens : Solid k.tokens := by
  have hatom : Solid [Token.atom k] := .single (by simp) (by simp)
  rw [tokens]
  split
  · exact (Solid.single (s := Token.not) (by simp) (by simp)).append hatom
  · exact hatom

theorem spell_tokens {known : Option AttributeMap} {policy : NanPolicy} (hk : k.Compiled known policy) :
    spell text k.tokens = k.expression.render := by
  rw [Expression.render_eq, Condition.isNegated_of_expression? hk, tokens, isNegated]
  split
  · change "not" ++ " " ++ k.text = "not " ++ k.text
    rfl
  · rfl

end Kept

namespace KeptGroup

variable (g : KeptGroup)

/-- The tokens of the conditions with a separator between them. -/
def inner (sep : Token Kept) : List (Token Kept) := List.intercalate [sep] (g.conditions.map Kept.tokens)

def tokens : List (Token Kept) :=
  match g.kind, g.others with
  | .not, _ => .not :: (.opening :: g.inner .and ++ [.closing])
  | _, [] => g.first.tokens
  | .and, _ => .opening :: g.inner .and ++ [.closing]
  | .or, _ => .opening :: g.inner .or ++ [.closing]

/-- Whether the group holds: all its conditions do, or some, or not all. -/
def value (v : Kept → Bool) : Bool :=
  match g.kind with
  | .and => g.conditions.all (·.value v)
  | .or => g.conditions.any (·.value v)
  | .not => !g.conditions.all (·.value v)

/-- The conditions of a group are read as a conjunction if `and` stands between them. -/
theorem exists_all :
    ∃ d : Disjunction Kept, d.tokens = g.inner .and ∧ ∀ v, d.eval v = g.conditions.all (·.value v) := by
  obtain ⟨c, htokens, heval⟩ := exists_conjunction Kept.term (List.cons_ne_nil g.first g.others)
  refine ⟨.one c, ?_, fun v => ?_⟩
  · rw [Disjunction.tokens, htokens, inner, conditions]
    simp only [Kept.tokens_term]
  · rw [Disjunction.eval, heval, conditions]
    simp only [Kept.eval_term]

/-- They are read as a disjunction if `or` stands between them. -/
theorem exists_any :
    ∃ d : Disjunction Kept, d.tokens = g.inner .or ∧ ∀ v, d.eval v = g.conditions.any (·.value v) := by
  obtain ⟨d, htokens, heval⟩ := exists_disjunction Kept.term (g.conditions.map fun k => [k])
    (by simp [conditions]) (by simp)
  refine ⟨d, ?_, fun v => ?_⟩
  · rw [htokens, inner, List.map_map]
    congr 1
    apply List.map_congr_left
    intro k _
    rw [Function.comp_apply, List.map_singleton, List.intercalate_singleton, Kept.tokens_term]
  · rw [heval, List.any_map]
    congr 1
    funext k
    rw [Function.comp_apply, List.all_cons, List.all_nil, Bool.and_true, Kept.eval_term]

/-- A group is read as one term. -/
theorem exists_term : ∃ t : Term Kept, t.tokens = g.tokens ∧ ∀ v, t.eval v = g.value v := by
  obtain ⟨all, hall, hallv⟩ := g.exists_all
  obtain ⟨any, hany, hanyv⟩ := g.exists_any
  obtain ⟨kind, join, first, others⟩ := g
  cases kind with
  | not =>
      refine ⟨.not (.parens all), ?_, fun v => ?_⟩
      · rw [Term.tokens, Term.tokens, hall]
        rfl
      · rw [Term.eval, Term.eval, hallv]
        rfl
  | and =>
      cases others with
      | nil =>
          refine ⟨first.term, first.tokens_term, fun v => ?_⟩
          rw [first.eval_term]
          exact (Bool.and_true _).symm
      | cons second others =>
          refine ⟨.parens all, ?_, hallv⟩
          rw [Term.tokens, hall]
          rfl
  | or =>
      cases others with
      | nil =>
          refine ⟨first.term, first.tokens_term, fun v => ?_⟩
          rw [first.eval_term]
          exact (Bool.or_false _).symm
      | cons second others =>
          refine ⟨.parens any, ?_, hanyv⟩
          rw [Term.tokens, hany]
          rfl

variable {g} {known : Option AttributeMap} {policy : NanPolicy}

theorem spell_inner (hg : ∀ k ∈ g.conditions, k.Compiled known policy) (sep : Token Kept)
    (hc : sep ≠ .closing) (ho : sep ≠ .opening) :
    Solid (g.inner sep) ∧ spell Kept.text (g.inner sep) =
      Text.join (" " ++ sep.text Kept.text ++ " ") (g.conditions.map (·.expression.render)) := by
  obtain ⟨hsolid, hspell⟩ := Solid.spell_intercalate Kept.text Kept.tokens hc ho
    (List.cons_ne_nil g.first g.others) fun k _ => k.solid_tokens
  refine ⟨hsolid, hspell.trans ?_⟩
  congr 1
  exact List.map_congr_left fun k hk => k.spell_tokens (hg k hk)

/-- The tokens of a group spell its text. -/
theorem spell_tokens (hg : ∀ k ∈ g.conditions, k.Compiled known policy) :
    Solid g.tokens ∧ spell Kept.text g.tokens = g.expression.render := by
  obtain ⟨hand, hands⟩ := spell_inner hg .and (by simp) (by simp)
  obtain ⟨hor, hors⟩ := spell_inner hg .or (by simp) (by simp)
  have hnot : Solid [(Token.not : Token Kept)] := .single (by simp) (by simp)
  rw [render_expression]
  obtain ⟨kind, join, first, others⟩ := g
  cases kind with
  | not =>
      have hparens : Solid (.opening :: inner ⟨.not, join, first, others⟩ .and ++ [.closing]) := .parens
      refine ⟨hnot.append hparens, (hnot.spell_append hparens).trans ?_⟩
      rw [hand.spell_parens, hands, ← String.append_assoc, ← String.append_assoc]
      rfl
  | and =>
      cases others with
      | nil => exact ⟨first.solid_tokens, first.spell_tokens (hg first List.mem_cons_self)⟩
      | cons second others =>
          refine ⟨.parens, hand.spell_parens.trans ?_⟩
          rw [hands]
          rfl
  | or =>
      cases others with
      | nil => exact ⟨first.solid_tokens, first.spell_tokens (hg first List.mem_cons_self)⟩
      | cons second others =>
          refine ⟨.parens, hor.spell_parens.trans ?_⟩
          rw [hors]
          rfl

end KeptGroup

/-- Separators are no atoms. -/
theorem atoms_intercalate {α β : Type} {tokens : β → List (Token α)} {sep : Token α} (hsep : sep.atom? = none)
    (bs : List β) : (List.intercalate [sep] (bs.map tokens)).filterMap Token.atom? =
      bs.flatMap fun b => (tokens b).filterMap Token.atom? := by
  induction bs with
  | nil => rfl
  | cons b rest ih =>
      cases rest with
      | nil => rw [List.map_singleton, List.intercalate_singleton, List.flatMap_singleton]
      | cons b' rest =>
          rw [List.map_cons, List.map_cons, List.intercalate_cons_cons, ← List.map_cons, List.filterMap_append,
            List.filterMap_append, ih, List.filterMap_cons_none hsep, List.filterMap_nil, List.append_nil]
          rfl

theorem Kept.atoms_tokens (k : Kept) : k.tokens.filterMap Token.atom? = [k] := by
  rw [tokens]
  split <;> rfl

theorem KeptGroup.atoms_tokens (g : KeptGroup) : g.tokens.filterMap Token.atom? = g.conditions := by
  have hinner : ∀ sep : Token Kept, sep.atom? = none → (g.inner sep).filterMap Token.atom? = g.conditions := by
    intro sep hsep
    rw [inner, atoms_intercalate hsep]
    simp only [Kept.atoms_tokens, List.flatMap_singleton']
  have hparens : ∀ ts : List (Token Kept),
      (Token.opening :: ts ++ [Token.closing]).filterMap Token.atom? = ts.filterMap Token.atom? := by
    intro ts
    rw [List.cons_append, List.filterMap_cons_none rfl, List.filterMap_append]
    exact List.append_nil _
  obtain ⟨kind, join, first, others⟩ := g
  cases kind with
  | not => exact (hparens _).trans (hinner .and rfl)
  | and =>
      cases others with
      | nil => exact first.atoms_tokens
      | cons second others => exact (hparens _).trans (hinner .and rfl)
  | or =>
      cases others with
      | nil => exact first.atoms_tokens
      | cons second others => exact (hparens _).trans (hinner .or rfl)

namespace Query

variable (q : Query) (policy : NanPolicy)

/-- The tokens of the filter: those of the groups, each but the first with its join before it. -/
def tokens : List (Token Kept) :=
  match q.keptGroups policy with
  | [] => []
  | g :: rest => g.tokens ++ rest.flatMap fun g => Token.ofJoin g.join :: g.tokens

/-- What the filter means: of some run of groups joined by `and`, all groups hold. -/
def value (v : Kept → Bool) : Bool :=
  ((q.keptGroups policy).splitBy (joined (·.join))).any fun run => run.all (·.value v)

variable {q policy}

theorem keptGroups_ne_nil (h : q.kept policy ≠ []) : q.keptGroups policy ≠ [] := by
  intro hnil
  rw [kept_eq, hnil] at h
  exact h rfl

end Query

namespace Expression

/-- The groups after the first, each with its join, written out. -/
theorem spell_rest {known : Option AttributeMap} {policy : NanPolicy} {ts : List (Token Kept)} (ht : Solid ts)
    {rest : List KeptGroup} (hrest : ∀ g ∈ rest, ∀ k ∈ g.conditions, k.Compiled known policy) :
    spell Kept.text (ts ++ rest.flatMap fun g => Token.ofJoin g.join :: g.tokens) =
      spell Kept.text ts ++ renderRest (rest.map fun g => (g.join, g.expression)) := by
  induction rest generalizing ts with
  | nil =>
      rw [List.flatMap_nil, List.append_nil]
      exact String.append_empty.symm
  | cons g rest ih =>
      obtain ⟨hsolid, hspell⟩ := KeptGroup.spell_tokens (hrest g List.mem_cons_self)
      have hjoin : Solid [(Token.ofJoin g.join : Token Kept)] := by
        cases g.join with
        | and => exact .single (by simp [Token.ofJoin]) (by simp [Token.ofJoin])
        | or => exact .single (by simp [Token.ofJoin]) (by simp [Token.ofJoin])
      have htext : spell Kept.text [Token.ofJoin g.join] = g.join.text := by
        cases g.join <;> rfl
      have hrow : ts ++ (g :: rest).flatMap (fun g => Token.ofJoin g.join :: g.tokens) =
          (ts ++ [Token.ofJoin g.join] ++ g.tokens) ++
            rest.flatMap fun g => Token.ofJoin g.join :: g.tokens := by
        simp only [List.flatMap_cons, List.append_assoc, List.cons_append, List.nil_append]
      rw [hrow, ih ((ht.append hjoin).append hsolid) fun g' hg' => hrest g' (List.mem_cons_of_mem g hg'),
        (ht.append hjoin).spell_append hsolid, ht.spell_append hjoin, htext, hspell, List.map_cons, renderRest]
      simp only [String.append_assoc]

end Expression

namespace Query

variable {q : Query} {policy : NanPolicy}

/-- The tokens of the filter spell its text. -/
theorem spell_tokens {e : Expression} (h : q.filter? policy = some e) :
    spell Kept.text (q.tokens policy) = e.render := by
  obtain ⟨g, rest, hgroups, hrender⟩ := render_filter h
  have hcompiled : ∀ g' ∈ g :: rest, ∀ k ∈ g'.conditions, k.Compiled q.known policy := by
    intro g' hg'
    exact compiled_of_mem (hgroups ▸ hg')
  obtain ⟨hsolid, hspell⟩ := KeptGroup.spell_tokens (hcompiled g List.mem_cons_self)
  have hrest := Expression.spell_rest hsolid fun g' hg' => hcompiled g' (List.mem_cons_of_mem g hg')
  rw [tokens, hgroups, hrender, ← hspell]
  exact hrest

/-- The tokens of the filter have one atom for each kept condition. -/
theorem atoms_tokens : (q.tokens policy).filterMap Token.atom? = q.kept policy := by
  rw [kept_eq, tokens]
  cases q.keptGroups policy with
  | nil => rfl
  | cons g rest =>
      simp only [List.filterMap_append, KeptGroup.atoms_tokens, List.flatMap_cons]
      congr 1
      induction rest with
      | nil => rfl
      | cons g' rest ih =>
          rw [List.flatMap_cons, List.filterMap_append, ih, List.flatMap_cons,
            List.filterMap_cons_none (by cases g'.join <;> rfl), KeptGroup.atoms_tokens]

/-- The filter's tokens are read in one way, and it means what the groups do. -/
theorem exists_reading (h : q.kept policy ≠ []) :
    ∃ d : Disjunction Kept, d.tokens = q.tokens policy ∧ ∀ v, d.eval v = q.value policy v := by
  choose term htokens heval using KeptGroup.exists_term
  cases hgroups : q.keptGroups policy with
  | nil => exact absurd hgroups (keptGroups_ne_nil h)
  | cons g rest =>
      obtain ⟨d, hd, hdv⟩ := Grammar.exists_reading (·.join) term g rest
      refine ⟨d, ?_, fun v => ?_⟩
      · rw [hd, tokens, hgroups]
        simp only [htokens]
      · rw [hdv, value, hgroups]
        simp only [heval]

theorem filter?_isSome (h : q.kept policy ≠ []) : ∃ e, q.filter? policy = some e := by
  apply Option.ne_none_iff_exists'.mp
  intro hnone
  exact h (filter?_eq_none_iff.mp hnone)

/-- The filter of a query of which some condition is kept. Its text spells a row of tokens, with one atom for
each kept condition, in order; the row has exactly one reading; and whatever atoms are true, the filter so
read holds if all groups of some run joined by `and` hold. -/
theorem filter_reads_as_meant (q : Query) (policy : NanPolicy)
    (some_kept : ∃ g ∈ q.groups, ∃ c ∈ g.conditions, (c.expression? q.known policy).isSome) :
    ∃ e, q.filter? policy = some e ∧ e.render = spell Kept.text (q.tokens policy) ∧
      (q.tokens policy).filterMap Token.atom? = q.kept policy ∧
      ∃ d : Disjunction Kept, d.tokens = q.tokens policy ∧
        (∀ d' : Disjunction Kept, d'.tokens = q.tokens policy → d' = d) ∧
        ∀ v, d.eval v = q.value policy v := by
  have hkept : q.kept policy ≠ [] := by
    obtain ⟨g, hg, c, hc, he⟩ := some_kept
    obtain ⟨i, hi⟩ := List.getElem?_of_mem hg
    obtain ⟨j, hj⟩ := List.getElem?_of_mem hc
    obtain ⟨e, he⟩ := Option.isSome_iff_exists.mp he
    exact List.ne_nil_of_mem (mem_kept (k := ⟨i, j, c, e⟩).mpr ⟨g, hi, hj, he⟩)
  obtain ⟨e, he⟩ := filter?_isSome hkept
  obtain ⟨d, hd, hdv⟩ := exists_reading hkept
  refine ⟨e, he, (spell_tokens he).symm, atoms_tokens, d, hd, ?_, hdv⟩
  intro d' hd'
  exact Disjunction.tokens_injective (hd'.trans hd.symm)

/-- A chain of three groups, the last with a negated function in a negated group. -/
theorem filter_reads_as_meant_chain :
    let q : Query := { groups := [
      { conditions := [⟨"name", .contains, some "and"⟩] },
      { kind := .or, conditions := [⟨"age", .eqNull, none⟩, ⟨"age", .ge, some "18"⟩] },
      { kind := .not, conditions := [⟨"name", .notContains, some "x"⟩], join := some .or }] }
    (q.filter? .emit).map (·.render) =
      some "contains(name,'and') and (age eq null or age ge 18) or not (not contains(name,'x'))" ∧
    ∃ e, q.filter? .emit = some e ∧ e.render = spell Kept.text (q.tokens .emit) ∧
      (q.tokens .emit).filterMap Token.atom? = q.kept .emit ∧
      ∃ d : Disjunction Kept, d.tokens = q.tokens .emit ∧
        (∀ d' : Disjunction Kept, d'.tokens = q.tokens .emit → d' = d) ∧
        ∀ v, d.eval v = q.value .emit v := by
  intro q
  refine ⟨by decide +kernel, filter_reads_as_meant q .emit ?_⟩
  exact ⟨_, List.mem_cons_self, _, List.mem_cons_self, by decide +kernel⟩

end Query

end ODataQuery
