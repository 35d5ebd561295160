import Stencil.Proofs.ExprReader
import Stencil.Proofs.Grammar

/-!
# What expression readers read

Every reader of expressions passes over a text that the grammar allows for the expression it gives.
-/

namespace Stencil

open Attempt

/-!
## Integers and keywords
-/

namespace Literal

theorem passes_numeral (c : Cursor) :
    c.Passes (numeral c) ((c.accept '-').dropWhile Char.isDigit) := by
  have hdigits := Cursor.passes_dropWhile Char.isDigit (c.accept '-')
  rw [numeral]
  by_cases h : c.current = some '-'
  · rw [if_pos h]
    rw [Cursor.accept_of_current h] at hdigits ⊢
    exact (Cursor.passes_advance h).trans hdigits
  · rw [if_neg h]
    rw [Cursor.accept_of_ne h] at hdigits ⊢
    exact hdigits

theorem reads_integer (nullAllowed : Bool) (c : Cursor) (h : atInteger c = true) :
    (readInteger c h).Reads c fun value front _ => value.Written nullAllowed front := by
  rw [readInteger]
  split
  · next n heq =>
      refine Reads.ok (passes_numeral c) ?_
      rw [numeral] at heq ⊢
      refine .integer ?_ (Cursor.forall_takeWhile _ _) heq
      by_cases hsign : c.current = some '-'
      · exact Or.inr (if_pos hsign)
      · exact Or.inl (if_neg hsign)
  · exact .error _

theorem written_of_ofKeyword? {nullAllowed : Bool} {name : String} {value : Literal}
    (h : ofKeyword? nullAllowed name = some value) : value.Written nullAllowed name.toList := by
  rw [ofKeyword?] at h
  split at h
  · next hname =>
      cases h
      rw [hname]
      exact @Literal.Written.keyword _ (.bool true) (fun _ => Literal.noConfusion)
        Literal.noConfusion
  · split at h
    · next hname =>
        cases h
        rw [hname]
        exact @Literal.Written.keyword _ (.bool false) (fun _ => Literal.noConfusion)
          Literal.noConfusion
    · split at h
      · next hname =>
          cases h
          rw [hname.1]
          exact @Literal.Written.keyword _ .null (fun _ => Literal.noConfusion) fun _ => hname.2
      · cases h

theorem reads_keyword (nullAllowed : Bool) (c : Cursor) :
    (readKeyword nullAllowed c).Reads c fun value front _ => value.Written nullAllowed front := by
  have hname := Cursor.reads_identifier "identifier without $" c
  rw [readKeyword]
  split
  · exact .error _
  · next name rest h heq =>
      rw [heq] at hname
      rcases hname name rest rfl with ⟨front, hpass, _, hfront⟩
      split
      · next value hvalue =>
          refine Reads.ok hpass ?_
          rw [hfront]
          exact written_of_ofKeyword? hvalue
      · exact .error _

end Literal

/-!
## Lists and arguments

A list is read behind its bracket, and its first item before the others; the rules below put the
parts together in the order of the text.
-/

theorem Expr.WrittenArguments.cons {e : Expr} {args : List Expr} {cs separator ds : List Char}
    (h : e.WrittenPrimary true cs) (hseparator : separator = [] ∨ separator = [','])
    (hargs : Expr.WrittenArguments args ds) (hlast : args = [] -> separator = []) :
    Expr.WrittenArguments (e :: args) (cs ++ (separator ++ ds)) := by
  cases args with
  | nil =>
      cases hargs with
      | none hgap =>
          rw [hlast rfl]
          exact .one (h.append_blanks hgap)
  | cons other args => exact .more h hseparator hargs

theorem Expr.WrittenArguments.blanks_append {args : List Expr} {gap cs : List Char}
    (hgap : Text.Blanks gap) (h : Expr.WrittenArguments args cs) :
    Expr.WrittenArguments args (gap ++ cs) := by
  cases h with
  | none hgap' => exact .none (hgap.append hgap')
  | one h => exact .one (h.blanks_append hgap)
  | more h hseparator hargs =>
      rw [← List.append_assoc]
      exact .more (h.blanks_append hgap) hseparator hargs

theorem Reference.passes_of_takeDot? {c r : Cursor} {h : r.size < c.size}
    (hdot : takeDot? c = some ⟨r, h⟩) : c.Passes ['.'] r := by
  rw [takeDot?] at hdot
  split at hdot
  · next p htake =>
      split at hdot
      · cases hdot
        exact Cursor.passes_of_take? htake
      · cases hdot
  · cases hdot

mutual

theorem Expr.reads_primary (nullAllowed : Bool) (c : Cursor) :
    (Expr.readPrimary nullAllowed c).Reads c
      fun e front _ => e.WrittenPrimary nullAllowed front := by
  rw [Expr.readPrimary]
  refine Reads.spaced (Expr.reads_operand nullAllowed c.skipSpace) ?_
  exact fun _ _ _ _ _ hbefore hbehind h => .spaced hbefore h hbehind
termination_by 4 * c.size + 2
decreasing_by
  have := c.size_skipSpace_le
  omega

theorem Expr.reads_operand (nullAllowed : Bool) (c : Cursor) :
    (Expr.readOperand nullAllowed c).Reads c
      fun e front _ => e.WrittenOperand nullAllowed front := by
  rw [Expr.readOperand]
  split
  · exact .error _
  · next x c₁ h₁ heq =>
      have hpass : c.Passes [x] c₁ := Cursor.passes_of_next? heq
      split
      · next hx =>
          rw [hx] at hpass
          have href := Reference.reads_required c₁
          refine Reads.mapValue (Reads.after (.from_step hpass ?_) _)
          exact href.imp fun ref front _ h => .reference h
      · split
        · exact .error _
        · split
          · next integer =>
              refine Reads.mapValue ?_
              exact (Literal.reads_integer nullAllowed c integer).imp fun _ _ _ h => .literal h
          · split
            · next hx =>
                rw [hx] at hpass
                refine Reads.after (.from_step hpass ?_) _
                exact Expr.reads_list nullAllowed c.location c₁
            · split
              · refine Reads.mapValue ?_
                exact (Literal.reads_keyword nullAllowed c).imp fun _ _ _ h => .literal h
              · exact .error _
termination_by 4 * c.size + 1

theorem Expr.reads_list (nullAllowed : Bool) (location : Location) (c : Cursor) :
    (Expr.readList location c).Reads c
      fun e front _ => e.WrittenOperand nullAllowed ('[' :: front) := by
  rcases c.passes_skipSpace with ⟨gap, hgap, hpass⟩
  have hlist := Expr.reads_listHere nullAllowed location c.skipSpace
  rw [Expr.readList]
  refine Reads.within (.from_step hpass ?_) _
  exact hlist.imp fun e front _ h => h gap hgap
termination_by 4 * c.size + 4
decreasing_by
  have := c.size_skipSpace_le
  omega

theorem Expr.reads_listHere (nullAllowed : Bool) (location : Location) (c : Cursor) :
    (Expr.readListHere location c).Reads c
      fun e front _ => ∀ gap, Text.Blanks gap ->
        e.WrittenOperand nullAllowed ('[' :: (gap ++ front)) := by
  rw [Expr.readListHere]
  split
  · next c₁ h₁ htake =>
      exact Reads.ok (Cursor.passes_of_take? htake) fun gap hgap => .empty hgap
  · refine Reads.andThen (Expr.reads_primary false c) fun first cs c₁ h₁ hfirst => ?_
    split
    · next c₂ h₂ htake =>
        refine Reads.after (.from_step (Cursor.passes_of_take? htake) ?_) _
        refine (Expr.reads_rangeEnd first location c₂).imp fun e front _ h gap hgap => ?_
        rw [← List.append_assoc]
        exact h nullAllowed _ (hfirst.blanks_append hgap)
    · refine Reads.mapValue ((Expr.reads_items c₁).imp fun items front _ h gap hgap => ?_)
      rcases h first _ (hfirst.blanks_append hgap) with ⟨inside, heq, hitems⟩
      rw [← List.append_assoc, heq]
      exact .list hitems
termination_by 4 * c.size + 3

theorem Expr.reads_rangeEnd (first : Expr) (location : Location) (c : Cursor) :
    (Expr.readRangeEnd first location c).Reads c
      fun e front _ => ∀ nullAllowed cs, first.WrittenPrimary false cs ->
        e.WrittenOperand nullAllowed ('[' :: (cs ++ '.' :: front)) := by
  rw [Expr.readRangeEnd]
  refine Reads.andThen (Cursor.reads_require '.' _ c) fun _ dot c₁ h₁ hdot => ?_
  refine Reads.andThen (Expr.reads_primary false c₁) fun last ds c₂ h₂ hlast => ?_
  refine Reads.mapValue ((Cursor.reads_require ']' _ c₂).imp ?_)
  rintro _ close _ hclose nullAllowed cs hfirst
  rw [hdot, hclose]
  exact .range hfirst hlast
termination_by 4 * c.size

theorem Expr.reads_items (c : Cursor) :
    (Expr.readItems c).Reads c
      fun items front _ => ∀ first cs, first.WrittenPrimary false cs ->
        ∃ inside, cs ++ front = inside ++ [']'] ∧ Expr.WrittenItems (first :: items) inside := by
  rw [Expr.readItems]
  split
  · next c₁ h₁ htake =>
      refine Reads.after (.from_step (Cursor.passes_of_take? htake) ?_) _
      refine Reads.andThen (Expr.reads_primary false c₁) fun item ds c₂ h₂ hitem => ?_
      refine Reads.mapValue ((Expr.reads_items c₂).imp fun items front _ h first cs hfirst => ?_)
      rcases h item ds hitem with ⟨inside, heq, hitems⟩
      refine ⟨cs ++ ',' :: inside, ?_, .more hfirst hitems⟩
      rw [heq, List.append_assoc]
      rfl
  · refine Reads.mapValue ((Cursor.reads_require ']' _ c).imp ?_)
    rintro _ _ _ rfl first cs hfirst
    exact ⟨cs, rfl, .one hfirst⟩
termination_by 4 * c.size

theorem Reference.reads_required (c : Cursor) :
    (Reference.readRequired c).Reads c fun ref front _ => ref.Written ('$' :: front) := by
  rw [Reference.readRequired]
  split
  · next c₁ h₁ htake =>
      refine Reads.after (.from_step (Cursor.passes_of_take? htake) ?_) _
      exact Reference.reads_braced true c₁
  · exact Reference.reads_braced false c
termination_by 4 * c.size + 2

theorem Reference.reads_braced (silent : Bool) (c : Cursor) :
    (Reference.readBraced silent c).Reads c
      fun ref front _ => ref.Written (Reference.sigil silent ++ front) := by
  rw [Reference.readBraced]
  split
  · next c₁ h₁ htake =>
      refine Reads.after (.from_step (Cursor.passes_of_take? htake) ?_) _
      refine Reads.andThen (Reference.reads_named silent c₁) fun ref cs c₂ h₂ href => ?_
      refine Reads.mapValue ((Cursor.reads_expect '\x7d' c₂).imp ?_)
      rintro _ _ _ ⟨gap, hgap, rfl⟩
      exact .braced href hgap
  · exact (Reference.reads_named silent c).imp fun ref front _ h => .bare h
termination_by 4 * c.size + 1

theorem Reference.reads_named (silent : Bool) (c : Cursor) :
    (Reference.readNamed silent c).Reads c fun ref front _ => ref.WrittenChain silent front := by
  rw [Reference.readNamed]
  refine Reads.andMaybe (Cursor.reads_identifier _ c) fun name cs c₁ h₁ hname => ?_
  rw [hname.2]
  exact Reference.reads_suffixes (.plain hname.1) c₁
termination_by 4 * c.size

theorem Reference.reads_suffixes {silent : Bool} {lhs : Reference} {cs : List Char}
    (hlhs : lhs.WrittenChain silent cs) (c : Cursor) :
    (Reference.readSuffixes lhs c).Reads c
      fun ref front _ => ref.WrittenChain silent (cs ++ front) := by
  have hsilent : lhs.silent = silent := hlhs.wellFormed.2
  rw [Reference.readSuffixes]
  split
  · next c₁ h₁ hdot =>
      have hpass : c.Passes ['.'] c₁ := Reference.passes_of_takeDot? hdot
      refine Reads.weaken (Reads.after (.from_step hpass ?_) _)
      refine Reads.andMaybe (Cursor.reads_identifier _ c₁) fun name front c₂ h₂ hname => ?_
      rw [hname.2, hsilent]
      split
      · next c₃ h₃ htake =>
          refine Reads.weaken (Reads.after (.from_step (Cursor.passes_of_take? htake) ?_) _)
          refine Reads.andMaybe (Reference.reads_arguments c₃) fun args front c₄ h₄ hargs => ?_
          rcases hargs with ⟨⟨ds, rfl, hargs⟩, _⟩
          have hmethod : (lhs.method name args silent c.location).WrittenChain silent _ :=
            .method hlhs hname.1 hargs
          refine (Reference.reads_suffixes hmethod c₄).imp fun ref front _ h => ?_
          simpa using h
      · have hmember : (lhs.member name silent c.location).WrittenChain silent _ :=
          .member hlhs hname.1
        refine (Reference.reads_suffixes hmember c₂).imp fun ref front _ h => ?_
        simpa using h
  · split
    · next c₁ h₁ htake =>
        refine Reads.weaken (Reads.after (.from_step (Cursor.passes_of_take? htake) ?_) _)
        refine Reads.andThen (Expr.reads_primary false c₁) fun index ds c₂ h₂ hindex => ?_
        refine Reads.andMaybe (Cursor.reads_require ']' _ c₂) fun _ close c₃ h₃ hclose => ?_
        have hchain : (lhs.index index silent c.location).WrittenChain silent _ :=
          .index hlhs hindex
        rw [hclose, hsilent]
        refine (Reference.reads_suffixes hchain c₃).imp fun ref front _ h => ?_
        simpa using h
    · refine Reads.ok (.refl c) ?_
      rw [List.append_nil]
      exact hlhs
termination_by 4 * c.size

theorem Reference.reads_arguments (c : Cursor) :
    (Reference.readArguments c).Reads c
      fun args front _ => (∃ ds, front = ds ++ [')'] ∧ Expr.WrittenArguments args ds)
        ∧ (args = [] -> c.skipSpace.current = some ')') := by
  rcases c.passes_skipSpace with ⟨gap, hgap, hpass⟩
  have hhere := Reference.reads_argumentsHere c.skipSpace
  rw [Reference.readArguments]
  refine Reads.within (.from_step hpass ?_) _
  refine hhere.imp fun args front _ h => ⟨?_, h.2⟩
  rcases h.1 with ⟨ds, rfl, hargs⟩
  exact ⟨gap ++ ds, (List.append_assoc _ _ _).symm, hargs.blanks_append hgap⟩
termination_by 4 * c.size + 4
decreasing_by
  have := c.size_skipSpace_le
  omega

theorem Reference.reads_argumentsHere (c : Cursor) :
    (Reference.readArgumentsHere c).Reads c
      fun args front _ => (∃ ds, front = ds ++ [')'] ∧ Expr.WrittenArguments args ds)
        ∧ (args = [] -> c.current = some ')') := by
  rw [Reference.readArgumentsHere]
  split
  · next c₁ h₁ htake =>
      refine Reads.ok (Cursor.passes_of_take? htake) ⟨⟨[], rfl, .none .nil⟩, fun _ => ?_⟩
      exact Cursor.current_eq_of_take? htake
  · split
    · exact .error _
    · refine Reads.andThen (Expr.reads_primary true c) fun arg cs c₁ h₁ harg => ?_
      split
      · next c₂ h₂ htake =>
          split
          · exact .error _
          · next hclose =>
              refine Reads.after (.from_step (Cursor.passes_of_take? htake) ?_) _
              refine Reads.mapValue ((Reference.reads_arguments c₂).imp fun args front _ h => ?_)
              rcases h with ⟨⟨ds, rfl, hargs⟩, hempty⟩
              refine ⟨⟨cs ++ ([','] ++ ds), by simp, ?_⟩, fun h => by cases h⟩
              exact .cons harg (Or.inr rfl) hargs fun h => absurd (hempty h) hclose
      · refine Reads.mapValue ((Reference.reads_argumentsHere c₁).imp fun args front _ h => ?_)
        rcases h with ⟨⟨ds, rfl, hargs⟩, _⟩
        refine ⟨⟨cs ++ ([] ++ ds), by simp, ?_⟩, fun h => by cases h⟩
        exact .cons harg (Or.inl rfl) hargs fun _ => rfl
termination_by 4 * c.size + 3

end

/-!
## Operators
-/

namespace Operator

theorem symbol_of_longest? {x : Char} {next : Option Char} {op : Operator}
    (h : longest? x next = some op) :
    op ≠ .stop ∧ ((op.length = 2 ∧ ∃ y, next = some y ∧ op.symbol.toList = [x, y])
      ∨ (op.length ≠ 2 ∧ op.symbol.toList = [x])) := by
  have hfound : op ∈ startingWith x
      ∧ ((op.length = 2 ∧ op.second? = next) ∨ op.length = 1) := by
    rw [longest?] at h
    split at h
    · next other heq =>
        cases h
        exact ⟨List.mem_of_find?_eq_some heq, Or.inl (of_decide_eq_true (List.find?_some heq :))⟩
    · exact ⟨List.mem_of_find?_eq_some h, Or.inr (of_decide_eq_true (List.find?_some h :))⟩
  rcases hfound with ⟨hmem, hlength⟩
  rcases List.mem_filter.mp hmem with ⟨hall, hfirst⟩
  have hop : op ≠ .stop := mem_all_iff.mp hall
  have hfirst : op.symbol.toList[0]? = some x := of_decide_eq_true hfirst
  refine ⟨hop, ?_⟩
  rw [length, second?] at hlength
  rw [length]
  rcases symbol_chars hop with ⟨y, hsymbol⟩ | ⟨y, z, hsymbol⟩
  · rw [hsymbol] at hfirst ⊢
    cases hfirst
    exact Or.inr ⟨by simp, rfl⟩
  · rw [hsymbol] at hfirst hlength ⊢
    cases hfirst
    rcases hlength with ⟨_, hnext⟩ | hone
    · exact Or.inl ⟨rfl, z, hnext.symm, rfl⟩
    · cases hone

theorem passes_of_read {c : Cursor} {p : Parsed c.size Operator} (h : read c = .ok (some p)) :
    p.value ≠ .stop ∧ c.Passes p.value.symbol.toList p.rest := by
  rw [read] at h
  split at h
  · cases h
  · next front hnext =>
      have hpass := Cursor.passes_of_next? hnext
      split at h
      · next op hlongest =>
          rcases symbol_of_longest? hlongest with
            ⟨hop, ⟨hlength, y, hy, hsymbol⟩ | ⟨hlength, hsymbol⟩⟩
          · rw [if_pos hlength] at h
            cases h
            refine ⟨hop, ?_⟩
            change c.Passes op.symbol.toList front.rest.advance
            rw [hsymbol]
            exact hpass.trans (Cursor.passes_advance hy)
          · rw [if_neg hlength] at h
            cases h
            refine ⟨hop, ?_⟩
            change c.Passes op.symbol.toList front.rest
            rw [hsymbol]
            exact hpass
      · split at h
        · cases h
        · cases h

end Operator

/-!
## Chains
-/

mutual

theorem Expr.reads (c : Cursor) : (Expr.read c).Reads c fun e front _ => e.Written front := by
  rw [Expr.read]
  refine Reads.andMaybe (Expr.reads_unary c) fun first cs c₁ h₁ hfirst => ?_
  exact Reads.mapValue ((Expr.reads_links c₁).imp fun links ds _ hlinks => .chain hfirst hlinks)
termination_by 3 * c.size + 2

theorem Expr.reads_unary (c : Cursor) :
    (Expr.readUnary c).Reads c fun e front _ => e.WrittenUnary front := by
  rw [Expr.readUnary]
  refine Reads.spaced (Expr.reads_unaryHere c.skipSpace) ?_
  exact fun e before front behind _ hbefore hbehind h => h before behind hbefore hbehind
termination_by 3 * c.size + 1
decreasing_by
  have := c.size_skipSpace_le
  omega

theorem Expr.reads_unaryHere (c : Cursor) :
    (Expr.readUnaryHere c).Reads c
      fun e front _ => ∀ before behind, Text.Blanks before -> Text.Blanks behind ->
        e.WrittenUnary (before ++ (front ++ behind)) := by
  rw [Expr.readUnaryHere]
  split
  · next c₁ h₁ htake =>
      refine Reads.after (.from_step (Cursor.passes_of_take? htake) ?_) _
      refine Reads.andThen (Expr.reads c₁) fun inner cs c₂ h₂ hinner => ?_
      refine Reads.mapValue ((Cursor.reads_expect ')' c₂).imp ?_)
      rintro _ _ _ ⟨gap, hgap, rfl⟩ before behind hbefore hbehind
      have hgroup := Expr.WrittenUnary.group hbefore hinner hgap hbehind
      simpa using hgroup
  · split
    · next c₁ h₁ htake =>
        refine Reads.after (.from_step (Cursor.passes_of_take? htake) ?_) _
        refine Reads.mapValue ((Expr.reads_unary c₁).imp ?_)
        exact fun operand cs _ h before behind hbefore hbehind => .not hbefore h hbehind
    · refine (Expr.reads_primary false c).imp fun e front _ h before behind hbefore hbehind => ?_
      exact .primary ((h.append_blanks hbehind).blanks_append hbefore)
termination_by 3 * c.size

theorem Expr.reads_links (c : Cursor) :
    (Expr.readLinks c).Reads c fun links front _ => Expr.WrittenLinks links front := by
  rcases c.passes_skipSpace with ⟨gap, hgap, hpass⟩
  have hlinks := Expr.reads_linksHere c.skipSpace
  rw [Expr.readLinks]
  refine Reads.afterSpace (.from_step hpass ?_)
  exact hlinks.imp fun links front _ h => h gap hgap
termination_by 3 * c.size + 1
decreasing_by
  have := c.size_skipSpace_le
  omega

theorem Expr.reads_linksHere (c : Cursor) :
    (Expr.readLinksHere c).Reads c
      fun links front _ => ∀ gap, Text.Blanks gap -> Expr.WrittenLinks links (gap ++ front) := by
  rw [Expr.readLinksHere]
  split
  · exact .error _
  · refine Reads.ok (.refl c) fun gap hgap => ?_
    rw [List.append_nil]
    exact .none hgap
  · next op c₁ h₁ hread =>
      rcases Operator.passes_of_read hread with ⟨hop, hpass⟩
      refine Reads.weaken (Reads.after (.from_step hpass ?_) _)
      refine Reads.andMaybe (Expr.reads_unary c₁) fun operand cs c₂ h₂ hoperand => ?_
      refine Reads.mapValue ((Expr.reads_links c₂).imp fun links ds _ hlinks gap hgap => ?_)
      exact .more hgap hop hoperand hlinks
termination_by 3 * c.size

end

end Stencil
