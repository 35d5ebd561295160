import Stencil.Proofs.ChainReader
import Stencil.Proofs.NodeReader

/-!
# Reading simple heads

The head of a directive is what stands between its name and the end of its parentheses.  In the
simplest heads an operand stands alone in them.  The rules for these keep lines exact, so that they
say where a directive ends.
-/

namespace Stencil

open Attempt

namespace Cursor

theorem skipSpace_of_stop {c : Cursor} (h : ∀ x ∈ c.current, Text.isBlank x = false) :
    c.skipSpace = c :=
  @skipSpace_append [] c.remaining c.resource c.line (List.forall_mem_nil _) h

end Cursor

/-!
## Variables and their members
-/

namespace Reference

variable {r : String} {l : Nat} {name cs : List Char} {lhs : Reference}

theorem outcome_suffixes_stop (hcs : Boundary cs) :
    (readSuffixes lhs ⟨r, cs, l⟩).outcome = .ok (lhs, ⟨r, cs, l⟩) := by
  have hindex : (⟨r, cs, l⟩ : Cursor).current ≠ some '[' := hcs.index
  rw [readSuffixes, takeDot?_boundary hcs]
  dsimp only
  rw [Cursor.take?_of_ne hindex]
  rfl

theorem outcome_suffixes_member (hname : Text.IsIdentifier name) (hcs : EndsName cs) :
    (readSuffixes lhs ⟨r, '.' :: (name ++ cs), l⟩).outcome
      = (readSuffixes (.member lhs (String.ofList name) lhs.silent ⟨r, l⟩) ⟨r, cs, l⟩).outcome := by
  have hcall : (⟨r, cs, l⟩ : Cursor).current ≠ some '(' := hcs.call
  rw [readSuffixes, takeDot?_letter hname]
  dsimp only
  rw [outcome_weaken, outcome_after]
  apply outcome_andMaybe (Cursor.outcome_identifier _ r l hname hcs.name)
  intro _
  rw [Cursor.take?_of_ne hcall]
  rfl

theorem outcome_named (silent : Bool) (hname : Text.IsIdentifier name)
    (hcs : ∀ c ∈ cs.head?, Text.isIdentifierChar c = false) :
    (readNamed silent ⟨r, name ++ cs, l⟩).outcome
      = (readSuffixes (.plain (String.ofList name) silent ⟨r, l⟩) ⟨r, cs, l⟩).outcome := by
  rw [readNamed]
  apply outcome_andMaybe (Cursor.outcome_identifier _ r l hname hcs)
  intro _
  rfl

end Reference

/-!
## Operands that stand alone
-/

namespace Expr

variable {nullAllowed : Bool} {r : String} {l l' : Nat} {gap cs rest : List Char} {e : Expr}

theorem outcome_primary {c : Cursor} (hgap : ∀ c ∈ gap, Text.isBlank c = true)
    (hcs : ∀ c ∈ cs.head?, Text.isBlank c = false)
    (h : (readOperand nullAllowed ⟨r, cs, l + Cursor.newlines gap⟩).outcome = .ok (e, c)) :
    (readPrimary nullAllowed ⟨r, gap ++ cs, l⟩).outcome = .ok (e, c.skipSpace) := by
  rw [readPrimary, outcome_skipSpace, outcome_within, Cursor.skipSpace_append hgap hcs, h]
  rfl

theorem readUnaryHere_primary {c : Cursor} (hparen : c.current ≠ some '(')
    (hbang : c.current ≠ some '!') : readUnaryHere c = readPrimary false c := by
  rw [readUnaryHere, Cursor.take?_of_ne hparen]
  dsimp only
  rw [Cursor.take?_of_ne hbang]

theorem outcome_links_close :
    (readLinks ⟨r, ')' :: rest, l⟩).outcome = .ok ([], ⟨r, ')' :: rest, l⟩) := by
  have hskip : (⟨r, ')' :: rest, l⟩ : Cursor).skipSpace = ⟨r, ')' :: rest, l⟩ :=
    Cursor.skipSpace_of_stop (Cursor.forall_head_cons (by decide))
  rw [readLinks, outcome_afterSpace, hskip, readLinksHere, Operator.read_close]
  rfl

theorem outcome_operand_reference {name : List Char} (hname : Text.IsIdentifier name) :
    (readOperand nullAllowed ⟨r, '$' :: (name ++ cs), l⟩).outcome
      = (Reference.readNamed false ⟨r, name ++ cs, l⟩).outcome.map
          fun found => (ofReference found.1, found.2) := by
  have hne (x : Char) (hx : x.isAlpha = false) :
      (⟨r, name ++ cs, l⟩ : Cursor).current ≠ some x := by
    intro hc
    have hletter := Cursor.atLetter_append hname r l cs
    rw [Cursor.atLetter, hc, Option.any_some, hx] at hletter
    cases hletter
  have hline : l + Cursor.newlines ['$'] = l := rfl
  rw [readOperand, Cursor.next?_cons]
  dsimp only
  rw [if_pos rfl, outcome_mapValue, outcome_after, hline, Reference.readRequired,
    Cursor.take?_of_ne (hne '!' rfl)]
  dsimp only
  rw [Reference.readBraced, Cursor.take?_of_ne (hne '\x7b' rfl)]

theorem outcome_unary_operand (hgap : ∀ c ∈ gap, Text.isBlank c = true)
    (hcs : ∀ c ∈ cs.head?, Text.beginsPrimary c = true) :
    (readUnary ⟨r, gap ++ cs, l⟩).outcome
      = (readOperand false ⟨r, cs, l + Cursor.newlines gap⟩).outcome.map
          fun found => (found.1, found.2.skipSpace.skipSpace) := by
  have hblank : ∀ c ∈ cs.head?, Text.isBlank c = false :=
    fun c hc => Text.isBlank_of_beginsPrimary (hcs c hc)
  have hne : ∀ x, Text.beginsPrimary x = false ->
      (⟨r, cs, l + Cursor.newlines gap⟩ : Cursor).current ≠ some x := by
    intro x hx hcurrent
    rw [hcs x hcurrent] at hx
    cases hx
  have hhere : (⟨r, cs, l + Cursor.newlines gap⟩ : Cursor).skipSpace
      = ⟨r, cs, l + Cursor.newlines gap⟩ := Cursor.skipSpace_of_stop hblank
  rw [readUnary, outcome_skipSpace, outcome_within, Cursor.skipSpace_append hgap hblank,
    readUnaryHere_primary (hne '(' rfl) (hne '!' rfl), readPrimary, outcome_skipSpace,
    outcome_within, hhere]
  cases (readOperand false ⟨r, cs, l + Cursor.newlines gap⟩).outcome <;> rfl

theorem outcome_read_operand (hgap : ∀ c ∈ gap, Text.isBlank c = true)
    (hcs : ∀ c ∈ cs.head?, Text.beginsPrimary c = true)
    (h : (readOperand false ⟨r, cs, l + Cursor.newlines gap⟩).outcome
      = .ok (e, ⟨r, ')' :: rest, l'⟩)) :
    (read ⟨r, gap ++ cs, l⟩).outcome = .ok (e, ⟨r, ')' :: rest, l'⟩) := by
  have hskip : (⟨r, ')' :: rest, l'⟩ : Cursor).skipSpace = ⟨r, ')' :: rest, l'⟩ :=
    Cursor.skipSpace_of_stop (Cursor.forall_head_cons (by decide))
  have hunary : (readUnary ⟨r, gap ++ cs, l⟩).outcome
      = .ok (e, (⟨r, ')' :: rest, l'⟩ : Cursor).skipSpace.skipSpace) := by
    rw [outcome_unary_operand hgap hcs, h]
    rfl
  rw [hskip, hskip] at hunary
  rw [read]
  refine outcome_andMaybe hunary fun _ => ?_
  rw [outcome_mapValue, outcome_links_close]
  rfl

theorem outcome_read_operand_error {error : Located ParseError}
    (hgap : ∀ c ∈ gap, Text.isBlank c = true) (hcs : ∀ c ∈ cs.head?, Text.beginsPrimary c = true)
    (h : (readOperand false ⟨r, cs, l + Cursor.newlines gap⟩).outcome = .error error) :
    (read ⟨r, gap ++ cs, l⟩).outcome = .error error := by
  rw [read]
  refine outcome_andMaybe_error ?_
  rw [outcome_unary_operand hgap hcs, h]
  rfl

theorem outcome_list_single (hcs : ∀ c ∈ cs.head?, Text.beginsPrimary c = true)
    (h : (readOperand false ⟨r, cs, l⟩).outcome = .ok (e, ⟨r, ']' :: rest, l'⟩)) :
    (readOperand nullAllowed ⟨r, '[' :: cs, l⟩).outcome
      = .ok (.list [e] ⟨r, l⟩, ⟨r, rest, l'⟩) := by
  have hinteger : ¬ Literal.atInteger ⟨r, '[' :: cs, l⟩ = true := by
    rw [Literal.atInteger, Cursor.current]
    exact Bool.false_ne_true
  have hblank : ∀ c ∈ cs.head?, Text.isBlank c = false :=
    fun c hc => Text.isBlank_of_beginsPrimary (hcs c hc)
  have hskip : (⟨r, ']' :: rest, l'⟩ : Cursor).skipSpace = ⟨r, ']' :: rest, l'⟩ :=
    Cursor.skipSpace_of_stop (Cursor.forall_head_cons (by decide))
  have hclose : (⟨r, cs, l⟩ : Cursor).current ≠ some ']' := by
    intro hc
    cases hcs ']' hc
  have hfirst : (readPrimary false ⟨r, cs, l⟩).outcome = .ok (e, ⟨r, ']' :: rest, l'⟩) := by
    rw [← hskip]
    exact outcome_primary (List.forall_mem_nil _) hblank h
  have hhere : (⟨r, cs, l⟩ : Cursor).skipSpace = ⟨r, cs, l⟩ := Cursor.skipSpace_of_stop hblank
  have hdot : (⟨r, ']' :: rest, l'⟩ : Cursor).current ≠ some '.' := by
    intro hc
    cases hc
  have hcomma : (⟨r, ']' :: rest, l'⟩ : Cursor).current ≠ some ',' := by
    intro hc
    cases hc
  have hline : l + Cursor.newlines ['['] = l := rfl
  rw [readOperand, Cursor.next?_cons]
  dsimp only
  rw [if_neg (by decide), if_neg (by decide), dif_neg hinteger, if_pos rfl, readList, hline,
    outcome_after, outcome_within, hhere, readListHere, Cursor.take?_of_ne hclose]
  refine outcome_andThen hfirst fun _ => ?_
  rw [Cursor.take?_of_ne hdot]
  dsimp only
  rw [outcome_mapValue, readItems, Cursor.take?_of_ne hcomma]
  dsimp only
  rw [outcome_mapValue, Cursor.outcome_require _ rfl]
  rfl

end Expr

/-!
## Heads with blanks as they are usually written
-/

namespace Node

variable {r : String} {l : Nat} {cs rest : List Char} {e : Expr}

theorem isBlank_space : ∀ c ∈ [' '], Text.isBlank c = true := by
  intro c hc
  rw [List.mem_singleton.mp hc]
  decide

theorem outcome_condition_simple (hcs : ∀ c ∈ cs.head?, Text.beginsPrimary c = true)
    (h : (Expr.readOperand false ⟨r, cs, l⟩).outcome = .ok (e, ⟨r, ')' :: rest, l⟩)) :
    (readCondition ⟨r, ' ' :: '(' :: cs, l⟩).outcome
      = .ok (e, (⟨r, rest, l⟩ : Cursor).accept '\n') :=
  @outcome_condition r l cs [' '] rest l e isBlank_space
    (@Expr.outcome_read_operand r l l [] cs rest e (List.forall_mem_nil _) hcs h)

theorem isIdentifier_set : Text.IsIdentifier ['s', 'e', 't'] := by
  decide

theorem outcome_set_value {name : List Char} {location : Location}
    (hname : Text.IsIdentifier name) :
    (readSet location ⟨r, ' ' :: '(' :: '$' :: (name ++ ' ' :: '=' :: cs), l⟩).outcome
      = ((Expr.read ⟨r, cs, l⟩).andThen fun value c _ =>
          ((c.expect ')').mapValue fun _ =>
            Node.set (String.ofList name) value location).accept '\n').outcome := by
  have hstop : ∀ c ∈ (' ' :: '=' :: cs).head?, Text.isIdentifierChar c = false :=
    Cursor.forall_head_cons (by decide)
  rw [readSet]
  refine outcome_andThen (@Cursor.outcome_expect '(' [' '] _ r l isBlank_space rfl) fun _ => ?_
  refine outcome_andThen (Cursor.outcome_expect_here r _ rfl) fun _ => ?_
  refine outcome_andThen (Cursor.outcome_identifier _ r _ hname hstop) fun _ => ?_
  exact outcome_andThen (@Cursor.outcome_expect '=' [' '] _ r _ isBlank_space rfl) fun _ => rfl

theorem outcome_set_simple {name : List Char} {location : Location}
    (hname : Text.IsIdentifier name) (hcs : ∀ c ∈ cs.head?, Text.beginsPrimary c = true)
    (h : (Expr.readOperand false ⟨r, cs, l⟩).outcome = .ok (e, ⟨r, ')' :: rest, l⟩)) :
    (readSet location ⟨r, ' ' :: '(' :: '$' :: (name ++ ' ' :: '=' :: ' ' :: cs), l⟩).outcome
      = .ok (.set (String.ofList name) e location, (⟨r, rest, l⟩ : Cursor).accept '\n') := by
  rw [outcome_set_value hname]
  refine outcome_andThen
    (@Expr.outcome_read_operand r l l [' '] cs rest e isBlank_space hcs h) fun _ => ?_
  exact outcome_closing _

theorem outcome_set_error {name : List Char} {location : Location} {error : Located ParseError}
    (hname : Text.IsIdentifier name) (hcs : ∀ c ∈ cs.head?, Text.beginsPrimary c = true)
    (h : (Expr.readOperand false ⟨r, cs, l⟩).outcome = .error error) :
    (readSet location ⟨r, ' ' :: '(' :: '$' :: (name ++ ' ' :: '=' :: ' ' :: cs), l⟩).outcome
      = .error error := by
  rw [outcome_set_value hname]
  exact outcome_andThen_error
    (@Expr.outcome_read_operand_error r l [' '] cs error isBlank_space hcs h)

theorem outcome_loopHead_simple {name : List Char} (hname : Text.IsIdentifier name)
    (hcs : ∀ c ∈ cs.head?, Text.beginsPrimary c = true)
    (h : (Expr.readOperand false ⟨r, cs, l⟩).outcome = .ok (e, ⟨r, ')' :: rest, l⟩)) :
    (readLoopHead ⟨r, ' ' :: '(' :: '$' :: (name ++ ' ' :: 'i' :: 'n' :: ' ' :: cs), l⟩).outcome
      = .ok ((String.ofList name, e), (⟨r, rest, l⟩ : Cursor).accept '\n') := by
  have hstop : ∀ c ∈ (' ' :: 'i' :: 'n' :: ' ' :: cs).head?, Text.isIdentifierChar c = false :=
    Cursor.forall_head_cons (by decide)
  have hin : ∀ c ∈ ('i' :: 'n' :: ' ' :: cs).head?, Text.isBlank c = false :=
    Cursor.forall_head_cons (by decide)
  have hvariable : ((⟨r, name ++ ' ' :: 'i' :: 'n' :: ' ' :: cs, l⟩ : Cursor).identifier
      "#foreach variable").skipSpace.outcome
        = .ok (String.ofList name, ⟨r, 'i' :: 'n' :: ' ' :: cs, l⟩) := by
    rw [outcome_skipSpace, Cursor.outcome_identifier _ r l hname hstop]
    exact congrArg (fun c => Except.ok (String.ofList name, c))
      (@Cursor.skipSpace_append [' '] ('i' :: 'n' :: ' ' :: cs) r l isBlank_space hin)
  have hkeyword : (readInKeyword ⟨r, 'i' :: 'n' :: ' ' :: cs, l⟩).outcome
      = .ok ((), ⟨r, ' ' :: cs, l⟩) := by
    rw [readInKeyword]
    refine outcome_andThen (Cursor.outcome_require _ rfl) fun _ => ?_
    exact Cursor.outcome_require _ rfl
  rw [readLoopHead]
  refine outcome_andThen (@Cursor.outcome_expect '(' [' '] _ r l isBlank_space rfl) fun _ => ?_
  refine outcome_andThen (Cursor.outcome_expect_here r _ rfl) fun _ => ?_
  refine outcome_andThen hvariable fun _ => ?_
  refine outcome_andThen hkeyword fun _ => ?_
  refine outcome_andThen
    (@Expr.outcome_read_operand r l l [' '] cs rest e isBlank_space hcs h) fun _ => ?_
  exact outcome_closing _

end Node

end Stencil
