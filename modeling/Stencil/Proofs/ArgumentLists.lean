import Stencil.Proofs.ExprForms
import Stencil.Proofs.HeadReader

/-!
# What separates arguments

The arguments of a call are read one after another; a comma behind an argument is taken, and so are
blanks, but neither is asked for.  Two arguments may touch wherever the text of the first one ends
by itself, as in front of a sign, a bracket or a dollar sign behind a literal.  A comma still stands
only between two arguments, and the arguments come out in the order of the text.
-/

namespace Stencil

open Attempt

theorem Attempt.Reads.and {x : Attempt (Parsed n α)} {c : Cursor}
    {P Q : α → List Char → List Char → Prop} (hp : x.Reads c P) (hq : x.Reads c Q) :
    x.Reads c fun value front after => P value front after ∧ Q value front after := by
  intro value rest hx
  rcases hp value rest hx with ⟨front, hpass, hp⟩
  rcases hq value rest hx with ⟨front', hpass', hq⟩
  have hsame : front = front' :=
    List.append_cancel_right (hpass.remaining_eq.symm.trans hpass'.remaining_eq)
  rw [← hsame] at hq
  exact ⟨front, hpass, hp, hq⟩

theorem Cursor.ends_identifier (what : String) (c : Cursor) :
    (c.identifier what).Reads c fun _ _ after =>
      ∀ x ∈ after.head?, Text.isIdentifierChar x = false := by
  rw [identifier]
  split
  · exact Reads.ok (passes_dropWhile Text.isIdentifierChar c) (head?_dropWhile _ c)
  · exact .error _

/-!
## Where operands end

Each operand is read as far as it goes, so the character behind it is one that it cannot go on with.
-/

namespace Literal

theorem ends_integer (c : Cursor) (h : atInteger c = true) :
    (readInteger c h).Reads c fun value _ after =>
      ∀ x ∈ after.head?, value.endsBefore x = true := by
  rw [readInteger]
  split
  · refine Reads.ok (passes_numeral c) fun x hx => ?_
    have hdigit := Cursor.head?_dropWhile Char.isDigit (c.accept '-') x hx
    simp [endsBefore, hdigit]
  · exact .error _

theorem ends_keyword (nullAllowed : Bool) (c : Cursor) :
    (readKeyword nullAllowed c).Reads c fun value _ after =>
      ∀ x ∈ after.head?, value.endsBefore x = true := by
  have hname := Cursor.ends_identifier "identifier without $" c
  rw [readKeyword]
  split
  · exact .error _
  · next name rest h heq =>
      rw [heq] at hname
      rcases hname name rest rfl with ⟨front, hpass, hends⟩
      split
      · exact Reads.ok hpass fun x hx => endsBefore_of_name _ (hends x hx)
      · exact .error _

end Literal

namespace Reference

/-- The character is not taken for a part of the reference that is written in front of it: nothing
goes on with a brace, only a bracket with a closed call or index, and more of a name with a name. -/
inductive EndsBefore : List Char → Char → Prop
  | braced {cs : List Char} {x : Char} : EndsBefore (cs ++ ['\x7d']) x
  | closed {cs : List Char} {y x : Char} : y = ')' ∨ y = ']' -> x ≠ '[' -> EndsBefore (cs ++ [y]) x
  | named {cs : List Char} {x : Char} : Text.isIdentifierChar x = false -> x ≠ '[' ->
      EndsBefore cs x

theorem EndsBefore.append {cs : List Char} {x : Char} (h : EndsBefore cs x) (front : List Char) :
    EndsBefore (front ++ cs) x := by
  cases h with
  | braced =>
      rw [← List.append_assoc]
      exact .braced
  | closed hy hx =>
      rw [← List.append_assoc]
      exact .closed hy hx
  | named hname hx => exact .named hname hx

/-- The text ends with a closed call or index, or a name ends in front of what follows. -/
def EndsLink (cs after : List Char) : Prop :=
  (∃ front y, cs = front ++ [y] ∧ (y = ')' ∨ y = ']'))
    ∨ ∀ x ∈ after.head?, Text.isIdentifierChar x = false

theorem EndsLink.endsBefore {cs after : List Char} (h : EndsLink cs after)
    (hindex : after.head? ≠ some '[') : ∀ x ∈ after.head?, EndsBefore cs x := by
  intro x hx
  have hne : x ≠ '[' := by
    rintro rfl
    exact hindex hx
  rcases h with ⟨front, y, rfl, hy⟩ | hname
  · exact .closed hy hne
  · exact .named (hname x hx) hne

theorem ends_suffixes (lhs : Reference) (c : Cursor) : ∀ cs, EndsLink cs c.remaining ->
    (readSuffixes lhs c).Reads c fun _ front after =>
      ∀ x ∈ after.head?, EndsBefore (cs ++ front) x := by
  -- `cs` is the text of the reference so far; only its end decides what may follow.
  intro cs hcs
  rw [readSuffixes]
  split
  · next c₁ h₁ hdot =>
      have hpass : c.Passes ['.'] c₁ := passes_of_takeDot? hdot
      refine Reads.weaken (Reads.after (.from_step hpass ?_) _)
      refine Reads.andMaybe (Cursor.ends_identifier _ c₁) fun name front c₂ h₂ hname => ?_
      split
      · next c₃ h₃ htake =>
          refine Reads.weaken (Reads.after (.from_step (Cursor.passes_of_take? htake) ?_) _)
          refine Reads.andMaybe (reads_arguments c₃) fun args inside c₄ h₄ hargs => ?_
          rcases hargs with ⟨⟨ds, rfl, _⟩, _⟩
          have hlink : EndsLink (cs ++ '.' :: (front ++ '(' :: (ds ++ [')']))) c₄.remaining :=
            Or.inl ⟨cs ++ '.' :: (front ++ '(' :: ds), ')', by simp, Or.inl rfl⟩
          refine (ends_suffixes _ c₄ _ hlink).imp fun ref back after h => ?_
          simpa using h
      · have hlink : EndsLink (cs ++ '.' :: front) c₂.remaining := Or.inr hname
        refine (ends_suffixes _ c₂ _ hlink).imp fun ref back after h => ?_
        simpa using h
  · split
    · next c₁ h₁ htake =>
        refine Reads.weaken (Reads.after (.from_step (Cursor.passes_of_take? htake) ?_) _)
        refine Reads.andThen (Expr.reads_primary false c₁) fun index ds c₂ h₂ _ => ?_
        refine Reads.andMaybe (Cursor.reads_require ']' _ c₂) fun _ close c₃ h₃ hclose => ?_
        have hlink : EndsLink (cs ++ '[' :: (ds ++ [']'])) c₃.remaining :=
          Or.inl ⟨cs ++ '[' :: ds, ']', by simp, Or.inr rfl⟩
        rw [hclose]
        refine (ends_suffixes _ c₃ _ hlink).imp fun ref back after h => ?_
        simpa using h
    · next htake =>
        refine Reads.ok (.refl c) ?_
        rw [List.append_nil]
        exact hcs.endsBefore (Cursor.current_ne_of_take? htake)
termination_by c.size

theorem ends_named (silent : Bool) (c : Cursor) :
    (readNamed silent c).Reads c fun _ front after =>
      ∀ x ∈ after.head?, EndsBefore front x := by
  rw [readNamed]
  refine Reads.andMaybe (Cursor.ends_identifier _ c) fun name front c₁ h₁ hname => ?_
  exact ends_suffixes _ c₁ front (Or.inr hname)

theorem ends_braced (silent : Bool) (c : Cursor) :
    (readBraced silent c).Reads c fun _ front after =>
      ∀ x ∈ after.head?, EndsBefore front x := by
  rw [readBraced]
  split
  · next c₁ h₁ htake =>
      refine Reads.after (.from_step (Cursor.passes_of_take? htake) ?_) _
      refine Reads.andThen (reads_named silent c₁) fun ref cs c₂ h₂ _ => ?_
      refine Reads.mapValue ((Cursor.reads_expect '\x7d' c₂).imp ?_)
      rintro _ _ _ ⟨gap, _, rfl⟩ x _
      rw [← List.append_assoc, ← List.append_assoc]
      exact .braced
  · exact ends_named silent c

theorem ends_required (c : Cursor) :
    (readRequired c).Reads c fun _ front after =>
      ∀ x ∈ after.head?, EndsBefore front x := by
  rw [readRequired]
  split
  · next c₁ h₁ htake =>
      refine Reads.after (.from_step (Cursor.passes_of_take? htake) ?_) _
      exact (ends_braced true c₁).imp fun _ _ _ h x hx => (h x hx).append _
  · exact ends_braced false c

end Reference

namespace Expr

inductive EndsBefore : Expr → List Char → Char → Prop
  | literal {value : Literal} {location : Location} {cs : List Char} {x : Char} :
      value.endsBefore x = true -> EndsBefore (.literal value location) cs x
  | reference {ref : Reference} {cs : List Char} {x : Char} :
      Reference.EndsBefore cs x -> EndsBefore (.ofReference ref) cs x
  | bracketed {e : Expr} {cs : List Char} {x : Char} : EndsBefore e ('[' :: cs) x

theorem ends_operand (nullAllowed : Bool) (c : Cursor) :
    (readOperand nullAllowed c).Reads c fun e front after =>
      ∀ x ∈ after.head?, e.EndsBefore front x := by
  rw [readOperand]
  split
  · exact .error _
  · next x c₁ h₁ heq =>
      have hpass : c.Passes [x] c₁ := Cursor.passes_of_next? heq
      split
      · refine Reads.mapValue (Reads.after (.from_step hpass ?_) _)
        exact (Reference.ends_required c₁).imp fun _ _ _ h y hy => .reference ((h y hy).append _)
      · split
        · exact .error _
        · split
          · next integer =>
              refine Reads.mapValue ?_
              exact (Literal.ends_integer c integer).imp fun _ _ _ h y hy => .literal (h y hy)
          · split
            · next hx =>
                rw [hx] at hpass
                refine Reads.after (.from_step hpass ?_) _
                exact (reads_list nullAllowed c.location c₁).imp fun _ _ _ _ y _ => .bracketed
            · split
              · refine Reads.mapValue ?_
                exact (Literal.ends_keyword nullAllowed c).imp fun _ _ _ h y hy =>
                  .literal (h y hy)
              · exact .error _

/-!
## Argument lists
-/

/-- Arguments from the first character of the first one to the last character of the last one.
Between two of them stands a comma with blanks around it, or blanks alone, or nothing at all if the
first one ends in front of the second. -/
inductive SeparatedArguments : List Expr → List Char → Prop
  | one {e : Expr} {cs : List Char} : e.WrittenOperand true cs -> SeparatedArguments [e] cs
  | comma {e other : Expr} {es : List Expr} {cs before behind ds : List Char} :
      e.WrittenOperand true cs -> Text.Blanks before -> Text.Blanks behind ->
      SeparatedArguments (other :: es) ds ->
      SeparatedArguments (e :: other :: es) (cs ++ (before ++ ',' :: (behind ++ ds)))
  | blanks {e other : Expr} {es : List Expr} {cs gap ds : List Char} :
      e.WrittenOperand true cs -> Text.Blanks gap -> gap ≠ [] ->
      SeparatedArguments (other :: es) ds ->
      SeparatedArguments (e :: other :: es) (cs ++ (gap ++ ds))
  | touching {e other : Expr} {es : List Expr} {cs ds : List Char} :
      e.WrittenOperand true cs -> (∀ x ∈ ds.head?, e.EndsBefore cs x) ->
      SeparatedArguments (other :: es) ds ->
      SeparatedArguments (e :: other :: es) (cs ++ ds)

inductive ArgumentText : List Expr → List Char → Prop
  | empty {gap : List Char} : Text.Blanks gap -> ArgumentText [] gap
  | spaced {args : List Expr} {before cs behind : List Char} :
      Text.Blanks before -> SeparatedArguments args cs -> Text.Blanks behind ->
      ArgumentText args (before ++ (cs ++ behind))

namespace ArgumentText

variable {e : Expr} {args : List Expr} {gap before cs behind ds : List Char}

theorem blanks_append (hgap : Text.Blanks gap) (h : ArgumentText args ds) :
    ArgumentText args (gap ++ ds) := by
  cases h with
  | empty hds => exact .empty (hgap.append hds)
  | spaced hbefore hargs hbehind =>
      rw [← List.append_assoc]
      exact .spaced (hgap.append hbefore) hargs hbehind

theorem cons_comma (hbefore : Text.Blanks before) (he : e.WrittenOperand true cs)
    (hbehind : Text.Blanks behind) (hargs : ArgumentText args ds) (hne : args ≠ []) :
    ArgumentText (e :: args) (before ++ (cs ++ behind) ++ ',' :: ds) := by
  cases hargs with
  | empty _ => exact absurd rfl hne
  | @spaced args gap inside gap' hgap hinside hgap' =>
      cases args with
      | nil => exact absurd rfl hne
      | cons other es =>
          have hlist := SeparatedArguments.comma he hbehind hgap hinside
          simpa using ArgumentText.spaced hbefore hlist hgap'

theorem cons (hbefore : Text.Blanks before) (he : e.WrittenOperand true cs)
    (hbehind : Text.Blanks behind) (hargs : ArgumentText args ds)
    (hends : ∀ x ∈ (behind ++ (ds ++ [')'])).head?, e.EndsBefore cs x) :
    ArgumentText (e :: args) (before ++ (cs ++ behind) ++ ds) := by
  cases hargs with
  | empty hds =>
      have hall := ArgumentText.spaced hbefore (.one he) (hbehind.append hds)
      simpa using hall
  | @spaced args gap inside gap' hgap hinside hgap' =>
      cases args with
      | nil => cases hinside
      | cons other es =>
          -- The blanks between two arguments may belong to either of them, or there are none.
          by_cases hnone : behind ++ gap = []
          · rcases List.append_eq_nil_iff.mp hnone with ⟨rfl, rfl⟩
            have hfirst : ∀ x ∈ inside.head?, e.EndsBefore cs x :=
              fun x hx => hends x (by simp [Option.mem_def.mp hx])
            have hlist := SeparatedArguments.touching he hfirst hinside
            simpa using ArgumentText.spaced hbefore hlist hgap'
          · have hlist := SeparatedArguments.blanks he (hbehind.append hgap) hnone hinside
            simpa using ArgumentText.spaced hbefore hlist hgap'

end ArgumentText

theorem reads_argument (c : Cursor) :
    (readPrimary true c).Reads c fun e front after =>
      ∃ before cs behind, front = before ++ (cs ++ behind) ∧ Text.Blanks before
        ∧ e.WrittenOperand true cs ∧ Text.Blanks behind
        ∧ ∀ x ∈ (behind ++ after).head?, e.EndsBefore cs x := by
  rw [readPrimary]
  refine Reads.spaced ((reads_operand true c.skipSpace).and (ends_operand true c.skipSpace)) ?_
  exact fun e before cs behind after hbefore hbehind h =>
    ⟨before, cs, behind, rfl, hbefore, h.1, hbehind, h.2⟩

end Expr

namespace Reference

mutual

theorem reads_argumentText (c : Cursor) :
    (readArguments c).Reads c fun args front _ =>
      ∃ ds, front = ds ++ [')'] ∧ Expr.ArgumentText args ds := by
  rcases c.passes_skipSpace with ⟨gap, hgap, hpass⟩
  have hhere := reads_argumentTextHere c.skipSpace
  rw [readArguments]
  refine Reads.within (.from_step hpass ?_) _
  refine hhere.imp fun args front _ h => ?_
  rcases h with ⟨ds, rfl, hargs⟩
  exact ⟨gap ++ ds, (List.append_assoc _ _ _).symm, hargs.blanks_append hgap⟩
termination_by 2 * c.size + 1
decreasing_by
  have := c.size_skipSpace_le
  omega

theorem reads_argumentTextHere (c : Cursor) :
    (readArgumentsHere c).Reads c fun args front _ =>
      ∃ ds, front = ds ++ [')'] ∧ Expr.ArgumentText args ds := by
  rw [readArgumentsHere]
  split
  · next c₁ h₁ htake =>
      exact Reads.ok (Cursor.passes_of_take? htake) ⟨[], rfl, .empty .nil⟩
  · split
    · exact .error _
    · refine Reads.andThen (Expr.reads_argument c) fun e front c₁ h₁ harg => ?_
      rcases harg with ⟨before, cs, behind, rfl, hbefore, he, hbehind, hends⟩
      split
      · next c₂ h₂ htake =>
          split
          · exact .error _
          · next hclose =>
              refine Reads.after (.from_step (Cursor.passes_of_take? htake) ?_) _
              refine Reads.mapValue ?_
              refine ((reads_argumentText c₂).and (reads_arguments c₂)).imp ?_
              rintro args _ _ ⟨⟨ds, rfl, hargs⟩, _, hempty⟩
              refine ⟨_, ?_, .cons_comma hbefore he hbehind hargs fun h => hclose (hempty h)⟩
              simp
      · refine Reads.mapValue ((reads_argumentTextHere c₁).whole.imp ?_)
        rintro args _ after ⟨hrest, ds, rfl, hargs⟩
        refine ⟨_, ?_, .cons hbefore he hbehind hargs fun x hx => hends x ?_⟩
        · simp
        · rw [hrest, ← List.append_assoc]
          exact List.mem_head?_append_of_mem_head? hx
termination_by 2 * c.size

end

end Reference

/-!
## Arguments without a separator
-/

theorem Expr.begins_operand {nullAllowed : Bool} {c behind : Cursor} {e : Expr}
    (h : (readOperand nullAllowed c).outcome = .ok (e, behind)) :
    ∃ x, c.current = some x ∧ Text.beginsPrimary x = true := by
  rw [readOperand] at h
  split at h
  · cases h
  · next x c₁ h₁ heq =>
      have hx : c.current = some x :=
        congrArg List.head? (Cursor.passes_of_next? heq).remaining_eq
      refine ⟨x, hx, ?_⟩
      split at h
      · next hdollar =>
          rw [hdollar]
          rfl
      · split at h
        · cases h
        · split at h
          · next integer =>
              rw [Literal.atInteger, hx, Option.any_some, Bool.or_eq_true] at integer
              rcases integer with hsign | hdigit
              · rw [of_decide_eq_true hsign]
                rfl
              · rw [Text.beginsPrimary, Text.isIdentifierChar_of_isDigit hdigit, Bool.or_true]
          · split at h
            · next hbracket =>
                rw [hbracket]
                rfl
            · split at h
              · next hletter =>
                  rw [Text.beginsPrimary, Text.isIdentifierChar_of_isAlpha hletter, Bool.or_true]
              · cases h

namespace Reference

theorem outcome_arguments_cons {c behind : Cursor} {e : Expr}
    (h : (Expr.readOperand true c).outcome = .ok (e, behind))
    (hblank : ∀ x ∈ behind.current, Text.isBlank x = false) (hcomma : behind.current ≠ some ',') :
    (readArguments c).outcome
      = (readArguments behind).outcome.map fun found => (e :: found.1, found.2) := by
  rcases Expr.begins_operand h with ⟨x, hx, hbegins⟩
  have hskip : c.skipSpace = c := by
    refine Cursor.skipSpace_of_stop fun y hy => ?_
    rw [hx] at hy
    cases hy
    exact Text.isBlank_of_beginsPrimary hbegins
  have hclose : c.current ≠ some ')' := by
    rw [hx]
    rintro ⟨⟩
    cases hbegins
  have hprimary : (Expr.readPrimary true c).outcome = .ok (e, behind) := by
    rw [Expr.readPrimary, outcome_skipSpace, outcome_within, hskip, h]
    exact congrArg (fun r => Except.ok (e, r)) (Cursor.skipSpace_of_stop hblank)
  rw [readArguments, outcome_within, hskip, readArgumentsHere, Cursor.take?_of_ne hclose]
  dsimp only
  rw [if_neg (by simp [hx])]
  refine outcome_andThen hprimary fun _ => ?_
  rw [Cursor.take?_of_ne hcomma]
  dsimp only
  rw [outcome_mapValue, readArguments, outcome_within, Cursor.skipSpace_of_stop hblank]

/-- Whatever arguments are read, they stand in the text in this order, and a comma stands only
between two of them.  A separator is not asked for: behind an operand the rest is read as if the
list began there, and so behind a literal wherever its text ends, be it in front of a sign, a
bracket or a dollar sign. -/
theorem arguments_touch (c : Cursor) :
    (∀ args behind, (readArguments c).outcome = .ok (args, behind) ->
      ∃ text, c.Passes (text ++ [')']) behind ∧ Expr.ArgumentText args text)
    ∧ (∀ e behind, (Expr.readOperand true c).outcome = .ok (e, behind) ->
      (∀ x ∈ behind.current, Text.isBlank x = false) -> behind.current ≠ some ',' ->
      (readArguments c).outcome
        = (readArguments behind).outcome.map fun found => (e :: found.1, found.2))
    ∧ ∀ (value : Literal) (x : Char) (ds : List Char),
      c.remaining = value.text.toList ++ x :: ds -> value.endsBefore x = true ->
      Text.isBlank x = false -> x ≠ ',' ->
      (readArguments c).outcome
        = (readArguments ⟨c.resource, x :: ds, c.line⟩).outcome.map
            fun found => (.literal value c.location :: found.1, found.2) := by
  refine ⟨?_, ?_, ?_⟩
  · intro args behind h
    rcases reads_argumentText c args behind h with ⟨_, hpass, text, rfl, htext⟩
    exact ⟨text, hpass, htext⟩
  · intro e behind h hblank hcomma
    exact outcome_arguments_cons h hblank hcomma
  · intro value x ds hremaining hends hblank hcomma
    rcases c with ⟨r, remaining, l⟩
    subst hremaining
    have hoperand : (Expr.readOperand true ⟨r, value.text.toList ++ x :: ds, l⟩).outcome
        = .ok (.literal value ⟨r, l⟩, ⟨r, x :: ds, l⟩) :=
      Expr.outcome_literal (fun _ => rfl) (Cursor.forall_head_cons hends)
    apply outcome_arguments_cons hoperand (Cursor.forall_head_cons hblank)
    intro hcurrent
    exact hcomma (Option.some.inj hcurrent)

/-- An integer and a negative one right behind it are two arguments. -/
theorem arguments_touch_sign :
    (readArguments ⟨"t", "1-2)".toList, 1⟩).outcome
        = .ok ([.literal (.int 1) ⟨"t", 1⟩, .literal (.int (-2)) ⟨"t", 1⟩], ⟨"t", [], 1⟩)
      ∧ ∃ text, (⟨"t", "1-2)".toList, 1⟩ : Cursor).Passes (text ++ [')']) ⟨"t", [], 1⟩
        ∧ Expr.ArgumentText [.literal (.int 1) ⟨"t", 1⟩, .literal (.int (-2)) ⟨"t", 1⟩] text := by
  have hskip : (⟨"t", [')'], 1⟩ : Cursor).skipSpace = ⟨"t", [')'], 1⟩ := by
    decide
  have hnone : (readArguments ⟨"t", [')'], 1⟩).outcome = .ok ([], ⟨"t", [], 1⟩) := by
    rw [readArguments, outcome_within, hskip, readArgumentsHere, Cursor.take?_cons]
    rfl
  have hsecond := (arguments_touch ⟨"t", ['-', '2', ')'], 1⟩).2.2 (.int (-2)) ')' [] (by decide)
    (by decide) (by decide) (by decide)
  rw [hnone] at hsecond
  have hfirst := (arguments_touch ⟨"t", "1-2)".toList, 1⟩).2.2 (.int 1) '-' ['2', ')'] (by decide)
    (by decide) (by decide) (by decide)
  rw [hsecond] at hfirst
  exact ⟨hfirst, (arguments_touch _).1 _ _ hfirst⟩

end Reference

end Stencil
