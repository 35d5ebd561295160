import Stencil.Proofs.Spelling

/-!
# Layouts

A layout is a text with open places, where any blanks may be put.  The layout of an expression
leaves open every place between two of its words that blanks do not change: inside parentheses and
brackets, around operators, commas and the two dots of a range, and behind an exclamation mark that
negates.  Nothing is open inside a reference chain, except in its brackets and parentheses.
-/

namespace Stencil

/-- Characters, with `none` for an open place. -/
abbrev Layout := List (Option Char)

namespace Layout

def ofText (cs : List Char) : Layout :=
  cs.map some

/-- The texts that come from putting blanks into the open places. -/
inductive Spaced : Layout → List Char → Prop where
  | nil : Spaced [] []
  | char (c : Char) {layout : Layout} {cs : List Char} :
      Spaced layout cs -> Spaced (some c :: layout) (c :: cs)
  | blanks (gap : List Char) {layout : Layout} {cs : List Char} :
      (∀ c ∈ gap, Text.isBlank c = true) -> Spaced layout cs ->
      Spaced (none :: layout) (gap ++ cs)

theorem spaced_append {front back : Layout} {cs : List Char} (h : Spaced (front ++ back) cs) :
    ∃ text rest, cs = text ++ rest ∧ Spaced front text ∧ Spaced back rest := by
  induction front generalizing cs with
  | nil => exact ⟨[], cs, rfl, .nil, h⟩
  | cons slot front ih =>
      cases h with
      | char c h =>
          rcases ih h with ⟨text, rest, hcs, hfront, hback⟩
          exact ⟨c :: text, rest, by rw [hcs, List.cons_append], .char c hfront, hback⟩
      | blanks gap hgap h =>
          rcases ih h with ⟨text, rest, hcs, hfront, hback⟩
          exact ⟨gap ++ text, rest, by rw [hcs, List.append_assoc], .blanks gap hgap hfront,
            hback⟩

theorem spaced_ofText_append {cs text : List Char} {back : Layout}
    (h : Spaced (ofText cs ++ back) text) : ∃ rest, text = cs ++ rest ∧ Spaced back rest := by
  induction cs generalizing text with
  | nil => exact ⟨text, rfl, h⟩
  | cons c cs ih =>
      cases h with
      | char _ h =>
          rcases ih h with ⟨rest, htext, hback⟩
          exact ⟨rest, by rw [htext, List.cons_append], hback⟩

theorem spaced_open {text : List Char} {back : Layout} (h : Spaced (none :: back) text) :
    ∃ gap rest, text = gap ++ rest ∧ (∀ c ∈ gap, Text.isBlank c = true) ∧ Spaced back rest := by
  cases h with
  | blanks gap hgap h => exact ⟨gap, _, rfl, hgap, h⟩

theorem spaced_ofText {cs text : List Char} (h : Spaced (ofText cs) text) : text = cs := by
  rw [← List.append_nil (ofText cs)] at h
  rcases spaced_ofText_append h with ⟨rest, htext, hrest⟩
  cases hrest
  rw [htext, List.append_nil]

theorem spaced_reduceOption (layout : Layout) : Spaced layout layout.reduceOption := by
  induction layout with
  | nil => exact .nil
  | cons slot rest ih =>
      cases slot with
      | none => exact .blanks [] (List.forall_mem_nil _) ih
      | some c => exact .char c ih

theorem reduceOption_ofText (cs : List Char) : (ofText cs).reduceOption = cs := by
  induction cs with
  | nil => rfl
  | cons c cs ih =>
      rw [ofText, List.map_cons, List.reduceOption_cons_of_some]
      exact congrArg (c :: ·) ih

/-!
## Layouts of expressions
-/

def parenthesize (needed : Bool) (layout : Layout) : Layout :=
  if needed then some '(' :: none :: (layout ++ [none, some ')']) else layout

def ofOperator (op : Operator) : Layout :=
  none :: some ' ' :: none :: (ofText op.symbol.toList ++ [none, some ' ', none])

def comma : Layout :=
  [none, some ',', none, some ' ', none]

theorem spaced_char {c : Char} {back : Layout} {cs : List Char} (h : Spaced (some c :: back) cs) :
    ∃ rest, cs = c :: rest ∧ Spaced back rest := by
  cases h with
  | char _ h => exact ⟨_, rfl, h⟩

theorem spaced_blank {back : Layout} {cs : List Char}
    (h : Spaced (none :: some ' ' :: none :: back) cs) :
    ∃ gap rest, cs = gap ++ rest ∧ (∀ c ∈ gap, Text.isBlank c = true) ∧ gap ≠ []
      ∧ Spaced back rest := by
  rcases spaced_open h with ⟨gap, _, rfl, hgap, hspace⟩
  rcases spaced_char hspace with ⟨_, rfl, hopen⟩
  rcases spaced_open hopen with ⟨gap', rest, rfl, hgap', hback⟩
  refine ⟨gap ++ ' ' :: gap', rest, by simp, ?_, by simp, hback⟩
  intro c hc
  rcases List.mem_append.mp hc with hc | hc
  · exact hgap c hc
  · rcases List.mem_cons.mp hc with rfl | hc
    · decide
    · exact hgap' c hc

theorem spaced_operator {op : Operator} {back : Layout} {cs : List Char}
    (h : Spaced (ofOperator op ++ back) cs) :
    ∃ before after rest, cs = before ++ (op.symbol.toList ++ (after ++ rest))
      ∧ ((∀ c ∈ before, Text.isBlank c = true) ∧ before ≠ [])
      ∧ ((∀ c ∈ after, Text.isBlank c = true) ∧ after ≠ []) ∧ Spaced back rest := by
  rcases spaced_blank h with ⟨before, _, rfl, hbefore, hbefore', hsymbol⟩
  rw [List.append_eq, List.append_assoc] at hsymbol
  rcases spaced_ofText_append hsymbol with ⟨_, rfl, hblank⟩
  rcases spaced_blank hblank with ⟨after, rest, rfl, hafter, hafter', hback⟩
  exact ⟨before, after, rest, rfl, ⟨hbefore, hbefore'⟩, ⟨hafter, hafter'⟩, hback⟩

theorem spaced_comma {back : Layout} {cs : List Char} (h : Spaced (comma ++ back) cs) :
    ∃ before after rest, cs = before ++ ',' :: (after ++ rest)
      ∧ (∀ c ∈ before, Text.isBlank c = true) ∧ (∀ c ∈ after, Text.isBlank c = true)
      ∧ Spaced back rest := by
  rcases spaced_open h with ⟨before, _, rfl, hbefore, hcomma⟩
  rcases spaced_char hcomma with ⟨_, rfl, hblank⟩
  rcases spaced_blank hblank with ⟨after, rest, rfl, hafter, _, hback⟩
  exact ⟨before, after, rest, rfl, hbefore, hafter, hback⟩

theorem spaced_closed {close : Char} {front : Layout} {cs : List Char}
    (h : Spaced (none :: (front ++ [none, some close])) cs) :
    ∃ gap text gap', cs = gap ++ (text ++ (gap' ++ [close]))
      ∧ (∀ c ∈ gap, Text.isBlank c = true) ∧ Spaced front text
      ∧ ∀ c ∈ gap', Text.isBlank c = true := by
  rcases spaced_open h with ⟨gap, _, rfl, hgap, hinside⟩
  rcases spaced_append hinside with ⟨text, _, rfl, hfront, hopen⟩
  rcases spaced_open hopen with ⟨gap', _, rfl, hgap', hclose⟩
  rcases spaced_char hclose with ⟨_, rfl, hnil⟩
  cases hnil
  exact ⟨gap, text, gap', rfl, hgap, hfront, hgap'⟩

end Layout

def Reference.sigil (silent : Bool) : List Char :=
  if silent then ['$', '!'] else ['$']

mutual

def Expr.layout : Expr → Layout
  | .literal value _ => Layout.ofText value.text.toList
  | .reference ref _ => ref.layout
  | .binary op lhs rhs _ =>
      Layout.parenthesize (lhs.bindsBelow op.precedence) lhs.layout
        ++ (Layout.ofOperator op
          ++ Layout.parenthesize (rhs.bindsBelow (op.precedence + 1)) rhs.layout)
  | .not operand _ => some '!' :: none :: Layout.parenthesize operand.isBinary operand.layout
  | .list items _ => some '[' :: none :: (Expr.listLayout items ++ [none, some ']'])
  | .range first last _ =>
      some '[' :: none ::
        (first.layout ++ none :: some '.' :: some '.' :: none :: (last.layout ++ [none, some ']']))

def Reference.layout : Reference → Layout
  | .plain name silent _ =>
      Layout.ofText (Reference.sigil silent) ++ Layout.ofText name.toList
  | .member lhs name _ _ => lhs.layout ++ some '.' :: Layout.ofText name.toList
  | .method lhs name args _ _ =>
      lhs.layout ++ some '.' :: (Layout.ofText name.toList
        ++ some '(' :: none :: (Expr.listLayout args ++ [none, some ')']))
  | .index lhs index _ _ =>
      lhs.layout ++ some '[' :: none :: (index.layout ++ [none, some ']'])

def Expr.listLayout : List Expr → Layout
  | [] => []
  | [e] => e.layout
  | e :: other :: rest => e.layout ++ (Layout.comma ++ Expr.listLayout (other :: rest))

end

/-!
With every open place left empty a layout is the source form.
-/

theorem Layout.reduceOption_parenthesize (needed : Bool) (layout : Layout) (s : String)
    (h : layout.reduceOption = s.toList) :
    (Layout.parenthesize needed layout).reduceOption
      = (Text.parenthesize needed s).toList := by
  cases needed with
  | false => exact h
  | true => simp [Layout.parenthesize, Text.parenthesize, List.reduceOption_append, h]

mutual

theorem Expr.reduceOption_layout : ∀ e : Expr, e.layout.reduceOption = e.source.toList
  | .literal value _ => by
      rw [Expr.layout, Expr.source, Layout.reduceOption_ofText]
  | .reference ref _ => by
      rw [Expr.layout, Expr.source, Reference.reduceOption_layout ref]
  | .binary op lhs rhs _ => by
      have hl := Layout.reduceOption_parenthesize (lhs.bindsBelow op.precedence) _ _
        (Expr.reduceOption_layout lhs)
      have hr := Layout.reduceOption_parenthesize (rhs.bindsBelow (op.precedence + 1)) _ _
        (Expr.reduceOption_layout rhs)
      simp [Expr.layout, Expr.source, Layout.ofOperator, List.reduceOption_append,
        Layout.reduceOption_ofText, hl, hr]
  | .not operand _ => by
      have h := Layout.reduceOption_parenthesize operand.isBinary _ _
        (Expr.reduceOption_layout operand)
      simp [Expr.layout, Expr.source, h]
  | .list items _ => by
      simp [Expr.layout, Expr.source, List.reduceOption_append, Expr.reduceOption_listLayout items]
  | .range first last _ => by
      simp [Expr.layout, Expr.source, List.reduceOption_append, Expr.reduceOption_layout first,
        Expr.reduceOption_layout last]

theorem Reference.reduceOption_layout : ∀ ref : Reference,
    ref.layout.reduceOption = ref.source.toList
  | .plain name silent _ => by
      cases silent <;>
        simp [Reference.layout, Reference.source, Reference.sigil, List.reduceOption_append,
          Layout.reduceOption_ofText]
  | .member lhs name _ _ => by
      simp [Reference.layout, Reference.source, List.reduceOption_append,
        Layout.reduceOption_ofText, Reference.reduceOption_layout lhs]
  | .method lhs name args _ _ => by
      simp [Reference.layout, Reference.source, List.reduceOption_append,
        Layout.reduceOption_ofText, Reference.reduceOption_layout lhs,
        Expr.reduceOption_listLayout args]
  | .index lhs index _ _ => by
      simp [Reference.layout, Reference.source, List.reduceOption_append,
        Reference.reduceOption_layout lhs, Expr.reduceOption_layout index]

theorem Expr.reduceOption_listLayout : ∀ es : List Expr,
    (Expr.listLayout es).reduceOption = (", ".intercalate (Expr.sources es)).toList
  | [] => by
      simp [Expr.listLayout, Expr.sources]
  | [e] => by
      simp [Expr.listLayout, Expr.sources, Expr.reduceOption_layout e]
  | e :: other :: rest => by
      have h := Expr.reduceOption_listLayout (other :: rest)
      rw [Expr.sources] at h
      simp [Expr.listLayout, Expr.sources, Layout.comma, List.reduceOption_append,
        Expr.reduceOption_layout e, h, String.intercalate_cons_cons]

end

end Stencil
