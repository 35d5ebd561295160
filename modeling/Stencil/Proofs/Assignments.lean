import Stencil.Proofs.JoinedLists
import Stencil.Proofs.WellFormed
import Stencil.Variables

/-!
# Assignments from outside and in templates

An assignment on the command line has the form `name=value`.  Its name is one that a template can
refer to, and its value comes out of the template as it was given, apart from how an integer is
written.  A template reads signed digits as the same integer as an assignment does, and complains
about them just when the assignment takes them for a text.
-/

namespace Stencil

/-!
## The first equals sign
-/

namespace Text

variable {mark : Char} {cs front : List Char}

theorem splitAt?_eq_none_iff : splitAt? [mark] cs = none ↔ mark ∉ cs := by
  constructor
  · intro h hmem
    rcases List.append_of_mem hmem with ⟨front, back, rfl⟩
    refine not_infix_of_splitAt?_none (List.cons_ne_nil _ _) h ⟨front, back, ?_⟩
    rw [List.append_assoc, List.singleton_append]
  · intro h
    cases hsplit : splitAt? [mark] cs with
    | none => rfl
    | some parts =>
        rw [← append_of_splitAt? hsplit] at h
        exact absurd (List.mem_append_right _ List.mem_cons_self) h

theorem splitAt?_of_not_mem (h : mark ∉ front) (back : List Char) :
    splitAt? [mark] (front ++ mark :: back) = some (front, back) := by
  induction front with
  | nil =>
      rw [List.nil_append, splitAt?, afterMark?, if_pos rfl]
      rfl
  | cons x front ih =>
      have hx : mark ≠ x := fun hsame => h (hsame ▸ List.mem_cons_self)
      rw [List.cons_append, splitAt?, afterMark?, if_neg hx,
        ih fun hmem => h (List.mem_cons_of_mem _ hmem)]
      rfl

end Text

namespace Variables

open Integer (Spells Fits)

variable {arg name word : String}

theorem ofAssignment_of_not_mem (h : '=' ∉ arg.toList) :
    ofAssignment arg = .error (.missingEquals arg) := by
  rw [ofAssignment, Text.splitAt?_eq_none_iff.mpr h]

theorem ofAssignment_append (h : '=' ∉ name.toList) (word : String) :
    ofAssignment (name ++ "=" ++ word)
      = if Text.IsIdentifier name.toList then .ok (name, ofWord word.toList)
        else .error (.invalidName name) := by
  have hchars : (name ++ "=" ++ word).toList = name.toList ++ '=' :: word.toList := by
    rw [String.toList_append, String.toList_append, List.append_assoc]
    rfl
  rw [ofAssignment, hchars, Text.splitAt?_of_not_mem h]
  dsimp only
  rw [String.ofList_toList]

theorem ofAssignment_eq_missingEquals_iff :
    ofAssignment arg = .error (.missingEquals arg) ↔ '=' ∉ arg.toList := by
  refine ⟨fun h hmem => ?_, ofAssignment_of_not_mem⟩
  rw [ofAssignment] at h
  split at h
  · next hsplit => exact Text.splitAt?_eq_none_iff.mp hsplit hmem
  · split at h
    · cases h
    · cases h

/-!
## Words
-/

theorem ofWord_eq_int {word : List Char} {n : Int64} (h : Integer.ofText? word = some n) :
    ofWord word = .int n := by
  have hword : ∀ text : String, Integer.ofText? text.toList = none ->
      String.ofList word ≠ text := by
    rintro text hnone rfl
    rw [String.toList_ofList, h] at hnone
    cases hnone
  rw [ofWord, if_neg (hword "true" (by decide +kernel)),
    if_neg (hword "false" (by decide +kernel)), h]

theorem text_ofWord {word : List Char} (h : Integer.ofText? word = none) :
    (ofWord word).text = String.ofList word ∧ ofWord word ≠ .null := by
  rw [ofWord]
  split
  · next htrue =>
      refine ⟨?_, by rintro ⟨⟩⟩
      rw [htrue, Value.text, Value.write, String.empty_append]
  · split
    · next hfalse =>
        refine ⟨?_, by rintro ⟨⟩⟩
        rw [hfalse, Value.text, Value.write, String.empty_append]
    · rw [h]
      refine ⟨?_, by rintro ⟨⟩⟩
      rw [Value.text, Value.write, String.empty_append]

theorem ofText?_eq_none {word : List Char} (h : ∀ n, Spells word n -> ¬ Fits n) :
    Integer.ofText? word = none := by
  cases hread : Integer.ofText? word with
  | none => rfl
  | some n => exact absurd (Integer.fits_toInt n) (h _ (Integer.ofText?_eq_some_iff.mp hread))

theorem render_assigned {resource : String} {bindings : List (String × Value)}
    (hname : Text.IsIdentifier name.toList)
    (hbound : (Context.ofVariables bindings).get? name = some (ofWord word.toList)) :
    (∀ n, Spells word.toList n -> Fits n ->
        Template.render resource ("$\x7b" ++ name ++ "\x7d") bindings = .ok n.repr)
      ∧ ((∀ n, Spells word.toList n -> ¬ Fits n) ->
        Template.render resource ("$\x7b" ++ name ++ "\x7d") bindings = .ok word) := by
  constructor
  · intro n hspells hfits
    have hread : Integer.ofText? word.toList = some (Int64.ofInt n) := by
      rw [Integer.ofText?_of_spells hspells, Integer.ofInt?, if_pos hfits]
    rw [ofWord_eq_int hread] at hbound
    rw [Template.render_braced hname hbound (by rintro ⟨⟩), Value.text, Value.write,
      String.empty_append, Integer.text, Int64.toInt_ofInt_of_le hfits.1 hfits.2]
  · intro hnone
    rcases text_ofWord (ofText?_eq_none hnone) with ⟨htext, hnull⟩
    rw [Template.render_braced hname hbound hnull, htext, String.ofList_toList]

end Variables

/-!
## Assignments in templates
-/

namespace Template

open Attempt

def setText (name word : String) : String :=
  "#set ($" ++ name ++ " = " ++ word ++ ")"

def setHead (name : String) (word : List Char) : List Char :=
  ' ' :: '(' :: '$' :: (name.toList ++ ' ' :: '=' :: ' ' :: (word ++ [')']))

theorem ofText_setText (resource name : String) (word : List Char) :
    Cursor.ofText resource (setText name (String.ofList word))
      = ⟨resource, '#' :: (['s', 'e', 't'] ++ setHead name word), 1⟩ := by
  rw [Cursor.ofText, setText, setHead]
  simp only [String.toList_append, String.toList_ofList, List.append_assoc]
  rfl

section

variable {resource name : String} {word : List Char} {e : Expr} {error : Located ParseError}
  (hname : Text.IsIdentifier name.toList)
  (hbegins : ∀ c ∈ (word ++ [')']).head?, Text.beginsPrimary c = true)

theorem outcome_directive_setHead (resource name : String) (word : List Char) :
    (Node.readDirective ⟨resource, 1⟩ ⟨resource, ['s', 'e', 't'] ++ setHead name word, 1⟩).outcome
      = (Node.readSet ⟨resource, 1⟩ ⟨resource, setHead name word, 1⟩).outcome.map
          fun found => (.node found.1, found.2) :=
  Node.outcome_directive_set
    (Directive.outcome_readName resource 1 Node.isIdentifier_set
      (Cursor.forall_head_cons (by decide))) rfl

include hname hbegins

theorem parse_setText
    (h : (Expr.readOperand false ⟨resource, word ++ [')'], 1⟩).outcome
      = .ok (e, ⟨resource, [')'], 1⟩)) :
    parse resource (setText name (String.ofList word))
      = (ofNodes resource [.set name e ⟨resource, 1⟩]).checkMacros := by
  have haccept : (⟨resource, [], 1⟩ : Cursor).accept '\n' = ⟨resource, [], 1⟩ :=
    Cursor.accept_of_ne fun h => by cases h
  have hset : (Node.readSet ⟨resource, 1⟩ ⟨resource, setHead name word, 1⟩).outcome = _ :=
    Node.outcome_set_simple hname hbegins h
  rw [haccept, String.ofList_toList] at hset
  have hpiece : Node.ReadsPiece ⟨resource, '#' :: (['s', 'e', 't'] ++ setHead name word), 1⟩
      (.node (.set name e ⟨resource, 1⟩)) ⟨resource, [], 1⟩ :=
    Node.readsPiece_directive (Directive.beginsAt_append Node.isIdentifier_set resource 1)
      ((outcome_directive_setHead resource name word).trans (congrArg _ hset))
  have hbody : (Node.readBody .outside
      (Cursor.ofText resource (setText name (String.ofList word)))).outcome
        = .ok (⟨[.set name e ⟨resource, 1⟩], .endOfFile, rfl, ⟨resource, 1⟩⟩,
          ⟨resource, [], 1⟩) := by
    rw [ofText_setText, Node.outcome_body_node hpiece, Node.outcome_body_end rfl]
    rfl
  exact parse_of_body hbody

theorem parse_setText_error
    (h : (Expr.readOperand false ⟨resource, word ++ [')'], 1⟩).outcome = .error error) :
    parse resource (setText name (String.ofList word)) = .error error := by
  have hset : (Node.readSet ⟨resource, 1⟩ ⟨resource, setHead name word, 1⟩).outcome
      = .error error := Node.outcome_set_error hname hbegins h
  refine parse_of_body_error ?_
  rw [ofText_setText]
  exact Node.outcome_body_error (Node.readPiece_directive_error
    (Directive.beginsAt_append Node.isIdentifier_set resource 1)
    ((outcome_directive_setHead resource name word).trans (congrArg _ hset)))

end

theorem isIdentifier_iff_parse_braced (resource name : String) :
    Text.IsIdentifier name.toList
      ↔ ∃ template silent place location,
        parse resource ("$\x7b" ++ name ++ "\x7d") = .ok template
          ∧ template.nodes = [.output (.ofReference (.plain name silent place)) location] := by
  constructor
  · intro hname
    exact ⟨_, false, _, _, parse_braced resource hname, rfl⟩
  · rintro ⟨template, silent, place, location, hparse, hnodes⟩
    have hwf := wellFormed_of_parse hparse
    rw [hnodes] at hwf
    rcases hwf.1.2 with ⟨ref, href, hidentifier⟩
    cases (Expr.reference.inj href).1
    exact hidentifier

end Template

namespace Variables

open Integer (IsDigits Spells Fits signed signedValue)

theorem not_mem_of_isIdentifier {name : List Char} (h : Text.IsIdentifier name) : '=' ∉ name :=
  fun hmem => absurd (h.all_isIdentifierChar '=' hmem) (by decide)

theorem ofWord_signed (negative : Bool) {digits : List Char} (hdigits : IsDigits digits) :
    ofWord (signed negative digits)
      = match Integer.ofDigits? negative digits with
        | some n => .int n
        | none => .str (String.ofList (signed negative digits)) := by
  have hread := Integer.ofText?_signed negative hdigits
  cases hvalue : Integer.ofDigits? negative digits with
  | some n => exact ofWord_eq_int (hread.trans hvalue)
  | none =>
      -- Neither truth value begins with a sign or a digit.
      have hword : ∀ text : String, text.toList.head?.any Char.isAlpha = true ->
          String.ofList (signed negative digits) ≠ text := by
        rintro text halpha rfl
        rcases hdigits.exists_cons with ⟨c, more, rfl, hdigit⟩
        rw [String.toList_ofList] at halpha
        cases negative with
        | true => cases halpha
        | false =>
            have hletter : c.isAlpha = true := halpha
            rw [Text.isDigit_of_isAlpha hletter] at hdigit
            cases hdigit
      rw [ofWord, if_neg (hword "true" (by decide +kernel)),
        if_neg (hword "false" (by decide +kernel)), hread, hvalue]

section Signed

variable {resource name : String} {negative : Bool} {digits : List Char} {n : Int64}
  (hname : Text.IsIdentifier name.toList) (hdigits : IsDigits digits)

include hname hdigits

theorem ofAssignment_signed :
    ofAssignment (name ++ "=" ++ String.ofList (signed negative digits))
      = .ok (name, match Integer.ofDigits? negative digits with
        | some n => .int n
        | none => .str (String.ofList (signed negative digits))) := by
  rw [ofAssignment_append (not_mem_of_isIdentifier hname), if_pos hname, String.toList_ofList,
    ofWord_signed negative hdigits]

theorem parse_signed :
    Template.parse resource (Template.setText name (String.ofList (signed negative digits)))
      = match Integer.ofDigits? negative digits with
        | some n =>
            .ok ⟨[.set name (.literal (.int n) ⟨resource, 1⟩) ⟨resource, 1⟩], ⟨resource, 1⟩, []⟩
        | none =>
            .error ⟨.invalidInteger (String.ofList (signed negative digits)), ⟨resource, 1⟩⟩ := by
  have hbegins : ∀ c ∈ (signed negative digits ++ [')']).head?, Text.beginsPrimary c = true := by
    rcases Literal.begins_signed hdigits negative with ⟨c, more, hword, hc⟩
    rw [hword]
    exact Cursor.forall_head_cons hc
  have hoperand := @Expr.outcome_signed false resource 1 [')'] digits hdigits negative
    (Cursor.forall_head_cons (by decide))
  cases hvalue : Integer.ofDigits? negative digits with
  | some n =>
      rw [hvalue] at hoperand
      exact Template.parse_setText hname hbegins hoperand
  | none =>
      rw [hvalue] at hoperand
      exact Template.parse_setText_error hname hbegins hoperand

end Signed

theorem render_set {template : Template} {name : String} {n : Int64} {place : Location}
    (hnodes : template.nodes = [.set name (.literal (.int n) place) place]) (context : Context) :
    (template.root.render (.start context)).failure? = none
      ∧ (template.root.render (.start context)).session.context.get? name = some (.int n) := by
  have hrender : template.root.render (.start context)
      = ((Session.start context).assign name (.int n)).done := by
    rw [Template.root, hnodes, Node.render, Node.renderAll_singleton, Node.render, Expr.evaluate]
    rfl
  rw [hrender]
  exact ⟨rfl, (Context.get?_set context name name _).trans (if_pos rfl)⟩

/-- Names are valid for an assignment just when a template can refer to them, and an assignment
binds its name to what stands behind the first equals sign: the reference to it is written as that
word, or in the usual way if the word stands for an integer that fits.  From signed digits a
template assigns the same integer, or quotes them where an assignment has to take them for a
text. -/
theorem agree_with_templates :
    (∀ resource name : String, Text.IsIdentifier name.toList
        ↔ ∃ template silent place location,
          Template.parse resource ("$\x7b" ++ name ++ "\x7d") = .ok template
            ∧ template.nodes = [.output (.ofReference (.plain name silent place)) location])
      ∧ (∀ arg, (ofAssignment arg = .error (.missingEquals arg) ↔ '=' ∉ arg.toList)
        ∧ ∀ name word, arg = name ++ "=" ++ word -> '=' ∉ name.toList ->
          (ofAssignment arg = .error (.invalidName name) ↔ ¬ Text.IsIdentifier name.toList)
            ∧ (Text.IsIdentifier name.toList -> ∃ value, ofAssignment arg = .ok (name, value)
              ∧ ∀ resource bindings, (Context.ofVariables bindings).get? name = some value ->
                let output := Template.render resource ("$\x7b" ++ name ++ "\x7d") bindings
                (∀ n, Spells word.toList n -> Fits n -> output = .ok n.repr)
                  ∧ ((∀ n, Spells word.toList n -> ¬ Fits n) -> output = .ok word)))
      ∧ ∀ (resource name : String) (negative : Bool) (digits : List Char),
        Text.IsIdentifier name.toList -> IsDigits digits ->
        let word := String.ofList (signed negative digits)
        let value := signedValue negative digits
        (Fits value ∧ ∃ n template, n.toInt = value
            ∧ Template.parse resource (Template.setText name word) = .ok template
            ∧ (∀ bindings,
              let outcome := template.root.render (.start (.ofVariables bindings))
              outcome.failure? = none ∧ outcome.session.context.get? name = some (.int n))
            ∧ ofAssignment (name ++ "=" ++ word) = .ok (name, .int n))
          ∨ (¬ Fits value
            ∧ Template.parse resource (Template.setText name word)
              = .error ⟨.invalidInteger word, ⟨resource, 1⟩⟩
            ∧ ofAssignment (name ++ "=" ++ word) = .ok (name, .str word)) := by
  refine ⟨Template.isIdentifier_iff_parse_braced, ?_, ?_⟩
  · refine fun arg => ⟨ofAssignment_eq_missingEquals_iff, ?_⟩
    rintro name word rfl hsign
    rw [ofAssignment_append hsign]
    refine ⟨?_, fun hname => ⟨_, if_pos hname, fun resource bindings hbound =>
      render_assigned hname hbound⟩⟩
    by_cases hname : Text.IsIdentifier name.toList
    · rw [if_pos hname]
      constructor
      · intro h
        cases h
      · exact fun h => absurd hname h
    · rw [if_neg hname]
      exact ⟨fun _ => hname, fun _ => rfl⟩
  · intro resource name negative digits hname hdigits word value
    have hparse := @parse_signed resource name negative digits hname hdigits
    have hassignment := @ofAssignment_signed name negative digits hname hdigits
    have hread : Integer.ofDigits? negative digits = Integer.ofInt? value :=
      Integer.ofDigits?_eq negative hdigits
    cases hvalue : Integer.ofInt? value with
    | some n =>
        rw [hread, hvalue] at hparse hassignment
        have hn : n.toInt = value := Integer.ofInt?_eq_some_iff.mp hvalue
        exact Or.inl ⟨hn ▸ Integer.fits_toInt n, n, _, hn, hparse,
          fun bindings => render_set rfl (.ofVariables bindings), hassignment⟩
    | none =>
        rw [hread, hvalue] at hparse hassignment
        exact Or.inr ⟨Integer.ofInt?_eq_none_iff.mp hvalue, hparse, hassignment⟩

/-- A hyphen may stand in a name but not begin one, a plus sign is read and not written, and one
below the least integer is a text outside and a mistake in a template. -/
theorem agree_with_templates_limits :
    (∃ template, Template.parse "t" "$\x7ba-1\x7d" = .ok template)
      ∧ ofAssignment "-a=1" = .error (.invalidName "-a")
      ∧ (∃ value, ofAssignment "a-1=+007" = .ok ("a-1", value)
        ∧ Template.render "t" "$\x7ba-1\x7d" [("a-1", value)] = .ok "7")
      ∧ Template.parse "t" "#set ($x = -9223372036854775809)"
        = .error ⟨.invalidInteger "-9223372036854775809", ⟨"t", 1⟩⟩
      ∧ ofAssignment "x=-9223372036854775809" = .ok ("x", .str "-9223372036854775809") := by
  rcases agree_with_templates with ⟨hnames, hassignments, hnumerals⟩
  have hname : Text.IsIdentifier "a-1".toList := by
    decide +kernel
  have hbraced : "$\x7b" ++ "a-1" ++ "\x7d" = "$\x7ba-1\x7d" := by
    decide +kernel
  refine ⟨?_, ?_, ?_, ?_⟩
  · rcases (hnames "t" "a-1").mp hname with ⟨template, _, _, _, hparse, _⟩
    exact ⟨template, hbraced ▸ hparse⟩
  · refine ((hassignments "-a=1").2 "-a" "1" ?_ ?_).1.mpr ?_ <;> decide +kernel
  · have hword : Spells "+007".toList 7 := by
      have hdigits : IsDigits ['0', '0', '7'] := by
        decide +kernel
      exact Spells.plus hdigits
    rcases ((hassignments "a-1=+007").2 "a-1" "+007" (by decide +kernel)
      (by decide +kernel)).2 hname with ⟨value, hvalue, hrender⟩
    refine ⟨value, hvalue, ?_⟩
    have hbound : (Context.ofVariables [("a-1", value)]).get? "a-1" = some value := rfl
    have hseven := (hrender "t" _ hbound).1 7 hword (by decide)
    rw [hbraced] at hseven
    exact hseven
  · have hdigits : IsDigits "9223372036854775809".toList := by
      decide +kernel
    rcases hnumerals "t" "x" true _ (by decide +kernel) hdigits with ⟨hfits, _⟩ | ⟨_, hagree⟩
    · exact absurd hfits (by decide +kernel)
    · have hword : String.ofList (signed true "9223372036854775809".toList)
          = "-9223372036854775809" := by
        decide +kernel
      have htext : Template.setText "x" "-9223372036854775809"
          = "#set ($x = -9223372036854775809)" := by
        decide +kernel
      have hassignment : "x" ++ "=" ++ "-9223372036854775809" = "x=-9223372036854775809" := by
        decide +kernel
      rw [hword, htext, hassignment] at hagree
      exact hagree

end Variables
end Stencil
