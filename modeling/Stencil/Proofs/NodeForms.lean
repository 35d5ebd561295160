import Stencil.Proofs.ExprForms
import Stencil.Proofs.NodeGrammar
import Stencil.Proofs.NodeReader

/-!
# Every node is written as the grammar says

A reader that gives a node has passed over a segment that the grammar allows for it.  Text is what
is left where nothing begins, so the pieces are told apart by what the cursor stands in front of.
-/

namespace Stencil

open Attempt

/-!
## Opaque regions
-/

namespace Text

variable {mark cs inside after : List Char}

theorem afterMark?_append (mark after : List Char) :
    afterMark? mark (mark ++ after) = some after := by
  induction mark with
  | nil => rfl
  | cons x mark ih =>
      rw [List.cons_append, afterMark?, if_pos rfl]
      exact ih

theorem not_prefix_of_afterMark? (h : afterMark? mark cs = none) : ¬ mark <+: cs := by
  rintro ⟨after, rfl⟩
  rw [afterMark?_append] at h
  cases h

theorem not_infix_of_splitAt?_none (hmark : mark ≠ []) (h : splitAt? mark cs = none) :
    ¬ mark <:+: cs := by
  induction cs with
  | nil => exact fun hinfix => hmark (List.infix_nil.mp hinfix)
  | cons x rest ih =>
      rw [splitAt?] at h
      split at h
      · cases h
      · next hfront =>
          intro hinfix
          rcases List.infix_cons_iff.mp hinfix with hfound | hinfix
          · exact not_prefix_of_afterMark? hfront hfound
          · exact ih (Option.map_eq_none_iff.mp h) hinfix

theorem not_infix_of_splitAt? (hmark : mark ≠ []) (h : splitAt? mark cs = some (inside, after)) :
    ¬ mark <:+: inside := by
  induction cs generalizing inside with
  | nil => cases h
  | cons x rest ih =>
      rw [splitAt?] at h
      split at h
      · cases h
        exact fun hinfix => hmark (List.infix_nil.mp hinfix)
      · next hfront =>
          obtain ⟨⟨front, back⟩, hsplit, heq⟩ := Option.map_eq_some_iff.mp h
          cases heq
          intro hinfix
          rcases List.infix_cons_iff.mp hinfix with hfound | hinfix
          · refine not_prefix_of_afterMark? hfront (hfound.trans ?_)
            rw [← append_of_splitAt? hsplit]
            exact List.prefix_append (x :: front) _
          · exact ih hsplit hinfix

end Text

namespace Cursor

variable {c : Cursor} {mark inside : List Char}

theorem passes_of_splitAt? {r : { r : Cursor // r.size ≤ c.size }}
    (hmark : mark ≠ []) (h : c.splitAt? mark = some (inside, r)) :
    ¬ mark <:+: inside ∧ c.Passes (inside ++ mark) r.1 := by
  rw [splitAt?] at h
  split at h
  · cases h
  · next front after hsplit =>
      cases h
      refine ⟨Text.not_infix_of_splitAt? hmark hsplit, ?_, rfl, rfl⟩
      rw [List.append_assoc]
      exact (Text.append_of_splitAt? hsplit).symm

theorem not_infix_of_splitAt?_none (hmark : mark ≠ []) (h : c.splitAt? mark = none) :
    ¬ mark <:+: c.remaining := by
  rw [splitAt?] at h
  split at h
  · next hsplit => exact Text.not_infix_of_splitAt?_none hmark hsplit
  · cases h

theorem passes_skipPast (hmark : mark ≠ []) (c : Cursor) :
    ∃ region, c.Passes region (c.skipPast mark)
      ∧ Text.Region mark region (c.skipPast mark).remaining := by
  rw [skipPast]
  split
  · next inside r hsplit =>
      rcases passes_of_splitAt? hmark hsplit with ⟨hinside, hpass⟩
      exact ⟨_, hpass, .closed hinside⟩
  · next hsplit =>
      refine ⟨c.remaining, ⟨(List.append_nil _).symm, rfl, rfl⟩, ?_⟩
      exact .unclosed (not_infix_of_splitAt?_none hmark hsplit)

end Cursor

/-!
## Where nothing begins
-/

namespace Text

theorem not_opens_plain {x : Char} {cs : List Char} (hx : isPlain x = true) :
    ¬ Opens (x :: cs) := by
  intro h
  cases h <;> cases hx

/-- Nothing begins inside a text of plain characters, so only its first one matters. -/
theorem inertBefore_plain {x : Char} {more after : List Char} (h : ¬ Opens (x :: (more ++ after)))
    (hmore : ∀ c ∈ more, isPlain c = true) : InertBefore (x :: more) after := by
  intro back hback hne
  rcases List.suffix_cons_iff.mp hback with rfl | hback
  · exact h
  · cases back with
    | nil => exact absurd rfl hne
    | cons y back => exact not_opens_plain (hmore y (hback.subset List.mem_cons_self))

theorem head_of_opens {x : Char} {cs : List Char} (h : Opens (x :: cs)) : x = '$' ∨ x = '#' := by
  cases h with
  | reference => exact Or.inl rfl
  | _ => exact Or.inr rfl

end Text

namespace Cursor

variable {r : String} {l : Nat} {x : Char} {cs : List Char}

theorem take?_cons_of_ne {y : Char} (h : x ≠ y) : (⟨r, x :: cs, l⟩ : Cursor).take? y = none :=
  take?_of_ne fun hcurrent => h (Option.some.inj hcurrent)

theorem passes_cons (r : String) (x : Char) (cs : List Char) (l : Nat) :
    (⟨r, x :: cs, l⟩ : Cursor).Passes [x] ⟨r, cs, l + newlines [x]⟩ :=
  ⟨rfl, rfl, rfl⟩

theorem dropWhile_cons {p : Char → Bool} (hx : p x = true) :
    (⟨r, x :: cs, l⟩ : Cursor).dropWhile p = (⟨r, cs, l + newlines [x]⟩ : Cursor).dropWhile p := by
  rw [dropWhile, dropWhile, List.dropWhile_cons_of_pos hx, List.takeWhile_cons_of_pos hx,
    Nat.add_assoc, ← newlines_append]
  rfl

theorem takeWhile_cons {p : Char → Bool} (hx : p x = true) :
    (⟨r, x :: cs, l⟩ : Cursor).takeWhile p = x :: cs.takeWhile p :=
  List.takeWhile_cons_of_pos hx

end Cursor

namespace Node

variable {r : String} {l : Nat} {cs : List Char} {opening : List Char} {location : Location}

def inertText (opening : List Char) (location : Location) (c : Cursor) : Node × Cursor :=
  (.text (String.ofList (opening ++ c.takeWhile Text.isPlain)) location, c.dropWhile Text.isPlain)

theorem inertText_cons {x : Char} (hx : Text.isPlain x = true) :
    inertText opening location ⟨r, x :: cs, l⟩
      = inertText (opening ++ [x]) location ⟨r, cs, l + Cursor.newlines [x]⟩ := by
  rw [inertText, inertText, Cursor.takeWhile_cons hx, Cursor.dropWhile_cons hx, List.append_assoc]
  rfl

theorem atLetter_of_not_opens (hopening : opening ∈ Text.openings)
    (h : ¬ Text.Opens ('$' :: (opening ++ cs))) : (⟨r, cs, l⟩ : Cursor).atLetter = false := by
  cases cs with
  | nil => rfl
  | cons x rest =>
      refine Bool.eq_false_iff.mpr fun hx => h ?_
      exact .reference hopening hx

theorem outcome_output_inert (silent : Bool) {marks : List Char}
    (hmarks : marks ∈ Text.openings) (hbrace : marks ++ ['\x7b'] ∈ Text.openings)
    (h : ¬ Text.Opens ('$' :: (marks ++ cs))) :
    (readOutput silent opening location ⟨r, cs, l⟩).outcome
      = .ok (inertText opening location ⟨r, cs, l⟩) := by
  by_cases hcurrent : (⟨r, cs, l⟩ : Cursor).current = some '\x7b'
  · cases cs with
    | nil => cases hcurrent
    | cons x rest =>
        cases hcurrent
        rw [List.append_cons] at h
        rw [readOutput, Cursor.take?_cons]
        dsimp only
        rw [if_neg (Bool.eq_false_iff.mp (atLetter_of_not_opens hbrace h)),
          inertText_cons (by decide)]
        rfl
  · rw [readOutput, Cursor.take?_of_ne hcurrent]
    dsimp only
    rw [if_neg (Bool.eq_false_iff.mp (atLetter_of_not_opens hmarks h))]
    rfl

theorem outcome_dollar_inert (h : ¬ Text.Opens ('$' :: cs)) :
    (readDollar location ⟨r, cs, l⟩).outcome = .ok (inertText ['$'] location ⟨r, cs, l⟩) := by
  by_cases hcurrent : (⟨r, cs, l⟩ : Cursor).current = some '!'
  · cases cs with
    | nil => cases hcurrent
    | cons x rest =>
        cases hcurrent
        rw [readDollar, Cursor.take?_cons]
        dsimp only
        rw [outcome_weaken, outcome_afterStep, inertText_cons (by decide)]
        exact @outcome_output_inert r _ rest ['$', '!'] location true ['!'] (by decide)
          (by decide) h
  · rw [readDollar, Cursor.take?_of_ne hcurrent]
    exact @outcome_output_inert r l cs ['$'] location false [] (by decide) (by decide) h

theorem outcome_hash_inert (h : ¬ Text.Opens ('#' :: cs)) :
    (readHash location ⟨r, cs, l⟩).outcome = .ok (inertText ['#'] location ⟨r, cs, l⟩) := by
  have hhead : ∀ x, (∀ rest, Text.Opens ('#' :: x :: rest)) ->
      (⟨r, cs, l⟩ : Cursor).current ≠ some x := by
    intro x hopens hcurrent
    cases cs with
    | nil => cases hcurrent
    | cons y rest =>
        cases hcurrent
        exact h (hopens rest)
  rw [readHash, Cursor.take?_of_ne (hhead '#' fun _ => .lineComment)]
  dsimp only
  rw [Cursor.take?_of_ne (hhead '*' fun _ => .blockComment)]
  dsimp only
  by_cases hcurrent : (⟨r, cs, l⟩ : Cursor).current = some '['
  · cases cs with
    | nil => cases hcurrent
    | cons x rest =>
        cases hcurrent
        have hsecond : (⟨r, rest, l + Cursor.newlines ['[']⟩ : Cursor).current ≠ some '[' := by
          intro hcurrent
          cases rest with
          | nil => cases hcurrent
          | cons y rest =>
              cases hcurrent
              exact h .quotedBlock
        rw [Cursor.take?_cons]
        dsimp only
        rw [Cursor.take?_of_ne hsecond, inertText_cons (by decide)]
        rfl
  · rw [Cursor.take?_of_ne hcurrent]
    rfl

theorem readPiece_cons (r : String) (x : Char) (cs : List Char) (l : Nat) :
    ∃ found : Attempt (Parsed (⟨r, x :: cs, l⟩ : Cursor).size Piece),
      readPiece ⟨r, x :: cs, l⟩ = found.map some := by
  rw [readPiece, Cursor.next?_cons]
  dsimp only
  split
  · exact ⟨_, rfl⟩
  · split
    · split
      · exact ⟨_, rfl⟩
      · exact ⟨_, rfl⟩
    · exact ⟨.ok _, rfl⟩

theorem readPiece_dollar :
    readPiece ⟨r, '$' :: cs, l⟩
      = (((readDollar ⟨r, l⟩ ⟨r, cs, l⟩).afterStep Cursor.size_cons_lt).mapValue Piece.node).map
          some := by
  rw [readPiece, Cursor.next?_cons]
  dsimp only
  rw [if_pos rfl]
  rfl

theorem readPiece_hash (hbegins : Directive.beginsAt ⟨r, cs, l⟩ = false) :
    readPiece ⟨r, '#' :: cs, l⟩
      = (((readHash ⟨r, l⟩ ⟨r, cs, l⟩).afterStep Cursor.size_cons_lt).mapValue Piece.node).map
          some := by
  have hhash : '#' ≠ '$' := by
    decide
  rw [readPiece, Cursor.next?_cons]
  dsimp only
  rw [if_neg hhash, if_pos rfl]
  exact if_neg (Bool.eq_false_iff.mp hbegins)

theorem beginsAt_of_not_opens (h : ¬ Text.Opens ('#' :: cs)) :
    Directive.beginsAt ⟨r, cs, l⟩ = false := by
  cases cs with
  | nil => rfl
  | cons x rest =>
      refine Bool.eq_false_iff.mpr fun hbegins => h ?_
      rcases Bool.or_eq_true_iff.mp hbegins with hx | hx
      · cases of_decide_eq_true hx
        exact .brace
      · exact .letter hx

theorem written_text {x : Char} {location : Location} (h : ¬ Text.Opens (x :: cs)) :
    (Node.text (String.ofList (x :: cs.takeWhile Text.isPlain)) location).Written
      (x :: cs.takeWhile Text.isPlain) (cs.dropWhile Text.isPlain) := by
  have hinert : Text.InertBefore (x :: cs.takeWhile Text.isPlain) (cs.dropWhile Text.isPlain) := by
    refine Text.inertBefore_plain ?_ (List.all_eq_true.mp List.all_takeWhile)
    rw [List.takeWhile_append_dropWhile]
    exact h
  have hwritten := @Written.text (String.ofList (x :: cs.takeWhile Text.isPlain)) location
    (cs.dropWhile Text.isPlain)
  rw [String.toList_ofList] at hwritten
  exact hwritten (List.cons_ne_nil _ _) hinert

/-- Where nothing begins, there is a text that goes on up to the next hash or dollar sign. -/
theorem readsPiece_inert {x : Char} (h : ¬ Text.Opens (x :: cs)) :
    ReadsPiece ⟨r, x :: cs, l⟩
      (.node (.text (String.ofList (x :: cs.takeWhile Text.isPlain)) ⟨r, l⟩))
      ((⟨r, cs, l + Cursor.newlines [x]⟩ : Cursor).dropWhile Text.isPlain) := by
  by_cases hx : Text.isPlain x = true
  · exact readsPiece_of_outcome (readPiece_plain hx) rfl
  · have hx : x = '$' ∨ x = '#' := by
      grind [Text.isPlain]
    rcases hx with rfl | rfl
    · refine readsPiece_of_outcome readPiece_dollar ?_
      rw [outcome_mapValue, outcome_afterStep, outcome_dollar_inert h]
      rfl
    · refine readsPiece_of_outcome (readPiece_hash (beginsAt_of_not_opens h)) ?_
      rw [outcome_mapValue, outcome_afterStep, outcome_hash_inert h]
      rfl

end Node

/-!
## Where something begins
-/

inductive Piece.Written : Piece → (segment after : List Char) → Prop where
  | node {node : Node} {segment after : List Char} :
      node.Written segment after -> Piece.Written (.node node) segment after
  | stop {stop : Stop} {location : Location} {segment after : List Char} :
      stop.Written segment after -> Piece.Written (.stop stop location) segment after

namespace Node

variable {r : String} {l : Nat} {cs : List Char} {x : Char}

theorem reads_quotedBlock (location : Location) (c : Cursor) :
    (readQuotedBlock location c).Reads c
      fun node front after => node.Written ('#' :: '[' :: '[' :: front) after := by
  rw [readQuotedBlock]
  split
  · next inside r hsplit =>
      rcases Cursor.passes_of_splitAt? (List.cons_ne_nil _ _) hsplit with ⟨hinside, hpass⟩
      have hwritten := @Written.quotedBlock (String.ofList inside) location r.1.remaining
      rw [String.toList_ofList] at hwritten
      exact .ok hpass (hwritten hinside)
  · exact .error _

theorem beginsAt_letter (hx : x.isAlpha = true) : Directive.beginsAt ⟨r, x :: cs, l⟩ = true := by
  have hletter : (⟨r, x :: cs, l⟩ : Cursor).atLetter = true := hx
  rw [Directive.beginsAt, hletter, Bool.or_true]

theorem reads_hash (location : Location) (hbegins : Directive.beginsAt ⟨r, cs, l⟩ = false)
    (h : Text.Opens ('#' :: cs)) :
    (readHash location ⟨r, cs, l⟩).Reads ⟨r, cs, l⟩
      fun node front after => node.Written ('#' :: front) after := by
  cases h with
  | letter hx =>
      rw [beginsAt_letter hx] at hbegins
      cases hbegins
  | brace => cases hbegins
  | lineComment =>
      rcases Cursor.passes_skipPast (List.cons_ne_nil '\n' []) _ with ⟨region, hpass, hregion⟩
      rw [readHash, Cursor.take?_cons]
      exact .ok ((Cursor.passes_cons r _ _ l).trans hpass) (.lineComment hregion)
  | blockComment =>
      rcases Cursor.passes_skipPast (List.cons_ne_nil '*' ['#']) _ with ⟨region, hpass, hregion⟩
      rw [readHash, Cursor.take?_cons_of_ne (by decide)]
      dsimp only
      rw [Cursor.take?_cons]
      exact .ok ((Cursor.passes_cons r _ _ l).trans hpass) (.blockComment hregion)
  | quotedBlock =>
      rw [readHash, Cursor.take?_cons_of_ne (by decide)]
      dsimp only
      rw [Cursor.take?_cons_of_ne (by decide)]
      dsimp only
      rw [Cursor.take?_cons]
      dsimp only
      rw [Cursor.take?_cons]
      refine Reads.weaken (Reads.after (.from_step (Cursor.passes_cons r _ _ l) ?_) _)
      refine Reads.afterStep (.from_step (Cursor.passes_cons r _ _ _) ?_) _
      exact reads_quotedBlock location _

theorem reads_output_bare (silent : Bool) (opening : List Char) (location : Location)
    (hx : x.isAlpha = true) :
    (readOutput silent opening location ⟨r, x :: cs, l⟩).Reads ⟨r, x :: cs, l⟩
      fun node front after => node.Written (Reference.sigil silent ++ front) after := by
  have hletter : (⟨r, x :: cs, l⟩ : Cursor).atLetter = true := hx
  have hbrace : x ≠ '\x7b' := by
    rintro rfl
    cases hx
  rw [readOutput, Cursor.take?_cons_of_ne hbrace]
  dsimp only
  rw [if_pos hletter]
  refine Reads.weaken (Reads.mapValue ?_)
  exact (Reference.reads_named silent _).imp fun _ _ _ href => .reference (.bare href)

theorem reads_output_braced (silent : Bool) (opening : List Char) (location : Location)
    (hx : x.isAlpha = true) :
    (readOutput silent opening location ⟨r, '\x7b' :: x :: cs, l⟩).Reads ⟨r, '\x7b' :: x :: cs, l⟩
      fun node front after => node.Written (Reference.sigil silent ++ front) after := by
  have hletter : (⟨r, x :: cs, l + Cursor.newlines ['\x7b']⟩ : Cursor).atLetter = true := hx
  rw [readOutput, Cursor.take?_cons]
  dsimp only
  rw [if_pos hletter]
  refine Reads.weaken (Reads.after (.from_step (Cursor.passes_cons r _ _ l) ?_) _)
  refine Reads.andThen (Reference.reads_named silent _) fun ref cs c₂ h₂ href => ?_
  refine Reads.mapValue ((Cursor.reads_expect '\x7d' c₂).imp ?_)
  rintro _ _ _ ⟨gap, hgap, rfl⟩
  exact .reference (.braced href hgap)

theorem reads_dollar (location : Location) (h : Text.Opens ('$' :: cs)) :
    (readDollar location ⟨r, cs, l⟩).Reads ⟨r, cs, l⟩
      fun node front after => node.Written ('$' :: front) after := by
  cases h with
  | @reference opening x rest hopening hx =>
      have hbang : x ≠ '!' := by
        rintro rfl
        cases hx
      simp only [Text.openings, List.mem_cons, List.not_mem_nil, or_false] at hopening
      rcases hopening with rfl | rfl | rfl | rfl
      · rw [List.nil_append, readDollar, Cursor.take?_cons_of_ne hbang]
        exact reads_output_bare false _ location hx
      · rw [List.cons_append, readDollar, Cursor.take?_cons]
        refine Reads.weaken (Reads.afterStep (.from_step (Cursor.passes_cons r _ _ l) ?_) _)
        exact reads_output_bare true _ location hx
      · rw [List.cons_append, readDollar, Cursor.take?_cons_of_ne (by decide)]
        exact reads_output_braced false _ location hx
      · rw [List.cons_append, readDollar, Cursor.take?_cons]
        refine Reads.weaken (Reads.afterStep (.from_step (Cursor.passes_cons r _ _ l) ?_) _)
        exact reads_output_braced true _ location hx

end Node

/-!
## Heads
-/

namespace Directive

theorem reads_name (c : Cursor) :
    (readName c).Reads c fun name front _ => Directive.Written (ofName name) ('#' :: front) := by
  rw [readName]
  split
  · next c₁ h₁ htake =>
      refine Reads.after (.from_step (Cursor.passes_of_take? htake) ?_) _
      refine Reads.andThen (Cursor.reads_identifier _ c₁) fun name cs c₂ h₂ hname => ?_
      refine Reads.mapValue ((Cursor.reads_expect '\x7d' c₂).imp ?_)
      rintro _ _ _ ⟨gap, hgap, rfl⟩
      rw [hname.2]
      exact .braced hname.1 hgap
  · refine (Cursor.reads_identifier _ c).imp fun name front _ hname => ?_
    rw [hname.2]
    exact .plain hname.1

end Directive

namespace Node

theorem reads_closing (value : α) (c : Cursor) :
    (((c.expect ')').mapValue fun _ => value).accept '\n').Reads c fun found front after =>
      found = value ∧ ∃ right line, Text.Token ')' right ∧ Text.LineEnd line after
        ∧ front = right ++ line := by
  have hclose : ((c.expect ')').mapValue fun _ => value).Reads c fun found front _ =>
      found = value ∧ Text.Token ')' front :=
    Reads.mapValue ((Cursor.reads_expect ')' c).imp fun _ _ _ hright => ⟨rfl, hright⟩)
  refine Reads.accept_newline hclose ?_
  exact fun found right line after hline h => ⟨h.1, right, line, h.2, hline, rfl⟩

theorem reads_set {location : Location} {word : List Char} (hword : Directive.Written .set word)
    (c : Cursor) :
    (readSet location c).Reads c fun node front after => node.Written (word ++ front) after := by
  rw [readSet]
  refine Reads.andThen (Cursor.reads_expect '(' c) fun _ left c₁ h₁ hleft => ?_
  refine Reads.andThen (Cursor.reads_expect '$' c₁) fun _ dollar c₂ h₂ hdollar => ?_
  refine Reads.andThen (Cursor.reads_identifier _ c₂) fun name cs c₃ h₃ hname => ?_
  refine Reads.andThen (Cursor.reads_expect '=' c₃) fun _ equals c₄ h₄ hequals => ?_
  refine Reads.andThen (Expr.reads c₄) fun value ds c₅ h₅ hvalue => ?_
  refine (reads_closing _ c₅).imp ?_
  rintro _ _ after ⟨rfl, right, line, hright, hline, rfl⟩
  rw [hname.2]
  exact .set hword hleft hdollar hname.1 hequals hvalue hright hline

theorem reads_call {name : String} {location : Location} {word : List Char}
    (hword : Directive.Written (.call name) word) (c : Cursor) :
    (readCall name location c).Reads c
      fun node front after => node.Written (word ++ front) after := by
  rcases c.passes_skipSpace with ⟨gap, hgap, hpass⟩
  have hleft : ((c.skipSpace.require '(' ("`(` after macro name #" ++ name)).within
      c.size_skipSpace_le).Reads c fun _ front _ => Text.Token '(' front := by
    refine Reads.within (.from_step hpass ?_) _
    exact (Cursor.reads_require '(' _ _).imp fun _ front _ hfront => ⟨gap, hgap, by rw [hfront]⟩
  rw [readCall]
  refine Reads.andThen hleft fun _ left c₁ h₁ hleft => ?_
  have hargs : ((Reference.readArguments c₁).mapValue fun args =>
      Node.macroCall name args location).Reads c₁ fun node front after =>
        ∃ args ds, node = .macroCall name args location ∧ Expr.WrittenArguments args ds
          ∧ front = ds ++ [')'] := by
    refine Reads.mapValue ((Reference.reads_arguments c₁).imp ?_)
    rintro args front _ ⟨⟨ds, heq, hargs⟩, _⟩
    exact ⟨args, ds, rfl, hargs, heq⟩
  refine Reads.accept_newline hargs ?_
  rintro _ _ line after hline ⟨args, ds, rfl, hargs, rfl⟩
  rw [List.append_assoc]
  exact .macroCall hword hleft hargs hline

theorem reads_inKeyword (c : Cursor) :
    (readInKeyword c).Reads c fun _ front _ => front = ['i', 'n'] := by
  rw [readInKeyword]
  refine Reads.andThen (Cursor.reads_require 'i' _ c) fun _ front c₁ h₁ hfront => ?_
  rw [hfront]
  exact (Cursor.reads_require 'n' _ c₁).imp fun _ back _ hback => by rw [hback]; rfl

theorem reads_loopHead (c : Cursor) :
    (readLoopHead c).Reads c fun head front after => WrittenLoopHead head front after := by
  rw [readLoopHead]
  refine Reads.andThen (Cursor.reads_expect '(' c) fun _ left c₁ h₁ hleft => ?_
  refine Reads.andThen (Cursor.reads_expect '$' c₁) fun _ dollar c₂ h₂ hdollar => ?_
  have hname : (c₂.identifier "#foreach variable").skipSpace.Reads c₂ fun name front _ =>
      Text.IsIdentifier name.toList ∧ ∃ gap, Text.Blanks gap ∧ front = name.toList ++ gap := by
    refine Reads.skipSpace (Cursor.reads_identifier _ c₂) ?_
    rintro name _ gap _ hgap ⟨hname, rfl⟩
    exact ⟨hname, gap, hgap, rfl⟩
  refine Reads.andThen hname fun name cs c₃ h₃ hname => ?_
  rcases hname with ⟨hname, gap, hgap, rfl⟩
  refine Reads.andThen (reads_inKeyword c₃) fun _ keyword c₄ h₄ hkeyword => ?_
  refine Reads.andThen (Expr.reads c₄) fun collection ds c₅ h₅ hcollection => ?_
  refine (reads_closing _ c₅).imp ?_
  rintro _ _ after ⟨rfl, right, line, hright, hline, rfl⟩
  rw [hkeyword]
  exact .mk hleft hdollar hname hgap hcollection hright hline

theorem reads_condition (c : Cursor) :
    (readCondition c).Reads c
      fun condition front after => condition.WrittenCondition front after := by
  rw [readCondition]
  refine Reads.andThen (Cursor.reads_expect '(' c) fun _ left c₁ h₁ hleft => ?_
  refine Reads.andThen (Expr.reads c₁) fun condition cs c₂ h₂ hcondition => ?_
  refine (reads_closing _ c₂).imp ?_
  rintro _ _ after ⟨rfl, right, line, hright, hline, rfl⟩
  exact .mk hleft hcondition hright hline

/-!
## Pieces and bodies
-/

theorem reads_of_readsPiece {c : Cursor} {x : Attempt (Parsed c.size Piece)} {piece : Piece}
    {behind : Cursor} {P : Piece → List Char → List Char → Prop} (hx : x.Reads c P)
    (hc : readPiece c = x.map some) (h : ReadsPiece c piece behind) :
    ∃ front, c.Passes front behind ∧ P piece front behind.remaining := by
  rcases h with ⟨hlt, h⟩
  rw [hc] at h
  cases x with
  | error e => cases h
  | ok p =>
      cases h
      exact hx piece behind rfl

theorem remaining_of_readPiece_none {c : Cursor} (h : readPiece c = .ok none) :
    c.remaining = [] := by
  rcases c with ⟨r, remaining, l⟩
  cases remaining with
  | nil => rfl
  | cons x cs =>
      rcases readPiece_cons r x cs l with ⟨found, hfound⟩
      rw [hfound] at h
      cases found <;> cases h

theorem segment_ne_nil {c c₁ : Cursor} {segment : List Char} (hpass : c.Passes segment c₁)
    (hlt : c₁.size < c.size) : segment ≠ [] := by
  rintro rfl
  rw [Cursor.size, Cursor.size, hpass.remaining_eq] at hlt
  exact Nat.lt_irrefl _ hlt

theorem WrittenBody.of_stop {stop : Stop} {segment after : List Char}
    (h : stop.Written segment after) : WrittenBody [] stop segment after :=
  @WrittenBody.mk [] [] stop segment after .nil h

theorem WrittenBody.cons {node : Node} {nodes : List Node} {stop : Stop}
    {segment front after : List Char} (hne : segment ≠ [])
    (hnode : node.Written segment (front ++ after)) (h : WrittenBody nodes stop front after) :
    WrittenBody (node :: nodes) stop (segment ++ front) after := by
  cases h with
  | mk hsegments hstop =>
      rw [List.append_assoc] at hnode
      rw [← List.append_assoc, ← List.flatten_cons]
      exact .mk (.cons hne hnode hsegments) hstop

theorem eq_closing_of_accepts {opener : Opener} {line : Nat} {stop : Stop}
    (hopener : opener = .forEach ∨ opener = .elseBranch)
    (h : (Construct.inside opener line).accepts stop = true) : stop = .closing := by
  rcases hopener with rfl | rfl
  · cases stop <;> first | rfl | cases h
  · cases stop <;> first | rfl | cases h

/-- What is read in front of the cursor is a segment that the grammar allows. -/
theorem written_of_readsPiece {c : Cursor} {piece : Piece} {behind : Cursor}
    (hdirective : ∀ (location : Location) (r : Cursor), r.size < c.size ->
      (readDirective location r).Reads r
        fun piece front after => piece.Written ('#' :: front) after)
    (h : ReadsPiece c piece behind) :
    ∃ front, c.Passes front behind ∧ piece.Written front behind.remaining := by
  rcases c with ⟨r, remaining, l⟩
  cases remaining with
  | nil =>
      rcases h with ⟨hlt, h⟩
      rw [readPiece_nil] at h
      cases h
  | cons x cs =>
      by_cases hopens : Text.Opens (x :: cs)
      · rcases Text.head_of_opens hopens with rfl | rfl
        · refine reads_of_readsPiece (Reads.mapValue (Reads.afterStep ?_ _)) readPiece_dollar h
          refine .from_step (Cursor.passes_cons r _ _ l) ((reads_dollar _ hopens).imp ?_)
          exact fun node front after h => .node h
        · by_cases hbegins : Directive.beginsAt ⟨r, cs, l⟩ = true
          · refine reads_of_readsPiece (Reads.after ?_ _) (readPiece_directive hbegins) h
            exact .from_step (Cursor.passes_cons r _ _ l) (hdirective _ _ Cursor.size_cons_lt)
          · have hbegins := Bool.eq_false_iff.mpr hbegins
            refine reads_of_readsPiece (Reads.mapValue (Reads.afterStep ?_ _))
              (readPiece_hash hbegins) h
            refine .from_step (Cursor.passes_cons r _ _ l) ((reads_hash _ hbegins hopens).imp ?_)
            exact fun node front after h => .node h
      · rcases readsPiece_inert (r := r) (l := l) hopens with ⟨_, hinert⟩
        rcases h with ⟨_, h⟩
        rw [hinert] at h
        cases h
        have hpass := Cursor.passes_dropWhile Text.isPlain ⟨r, cs, l + Cursor.newlines [x]⟩
        refine ⟨_, (Cursor.passes_cons r x cs l).trans hpass, ?_⟩
        exact .node (written_text hopens)

mutual

theorem reads_directive (location : Location) (c : Cursor) :
    (readDirective location c).Reads c
      fun piece front after => piece.Written ('#' :: front) after := by
  rw [readDirective]
  refine Reads.andMaybe (Directive.reads_name c) fun name word c₁ h₁ hword => ?_
  split
  · next stop heq =>
      rw [heq] at hword
      rcases c₁.passes_accept_newline with ⟨line, hline, hend⟩
      exact .ok hline (.stop (.directive hword hend))
  · next heq =>
      rw [heq] at hword
      refine Reads.weaken (Reads.mapValue ((reads_conditional .conditional location c₁).imp ?_))
      exact fun node front after h => .node (.conditional hword h)
  · next heq =>
      rw [heq] at hword
      refine Reads.weaken (Reads.andMaybe (reads_loopHead c₁) fun head cs c₂ h₂ hhead => ?_)
      refine Reads.mapValue ((reads_body (.inside .forEach location.line) c₂).whole.imp ?_)
      rintro body front after ⟨hfront, hbody⟩
      rw [hfront] at hhead
      rw [eq_closing_of_accepts (Or.inl rfl) body.accepted] at hbody
      exact .node (.forEach hword hhead hbody)
  · next heq =>
      rw [heq] at hword
      exact Reads.weaken (Reads.mapValue ((reads_set hword c₁).imp fun _ _ _ h => .node h))
  · exact .error _
  · next name' heq =>
      rw [heq] at hword
      exact Reads.weaken (Reads.mapValue ((reads_call hword c₁).imp fun _ _ _ h => .node h))
termination_by 5 * c.size

theorem reads_conditional (opener : Opener) (location : Location) (c : Cursor) :
    (readConditional opener location c).Reads c
      fun node front after => node.WrittenConditional front after := by
  rw [readConditional]
  refine Reads.andMaybe (reads_condition c) fun condition head c₁ h₁ hhead => ?_
  refine Reads.andMaybe (reads_body _ c₁).whole fun body cs c₂ h₂ hbody => ?_
  rcases hbody with ⟨heq, hbody⟩
  rw [heq] at hhead
  dsimp only
  split
  · next hstop =>
      rw [hstop] at hbody
      refine Reads.ok (.refl c₂) ?_
      rw [List.append_nil]
      exact .closing hhead hbody
  · next hstop =>
      rw [hstop] at hbody
      refine Reads.weaken (Reads.mapValue ?_)
      refine (reads_conditional .elseIf body.location c₂).whole.imp ?_
      rintro other front after ⟨hfront, hother⟩
      rw [hfront] at hhead hbody
      exact .elseIf hhead hbody hother
  · next hstop =>
      rw [hstop] at hbody
      refine Reads.mapValue ?_
      refine (reads_body (.inside .elseBranch body.location.line) c₂).whole.imp ?_
      rintro other front after ⟨hfront, hother⟩
      rw [hfront] at hhead hbody
      rw [eq_closing_of_accepts (Or.inr rfl) other.accepted] at hother
      exact .elseBranch hhead hbody hother
  · next hstop => exact absurd hstop body.stop_ne_endOfFile
termination_by 5 * c.size

theorem reads_body (construct : Construct) (c : Cursor) :
    (readBody construct c).Reads c
      fun body front after => WrittenBody body.nodes body.stop front after := by
  have hdirective : ∀ (location : Location) (r : Cursor), r.size < c.size ->
      (readDirective location r).Reads r
        fun piece front after => piece.Written ('#' :: front) after :=
    fun location r _ => reads_directive location r
  rw [readBody]
  split
  · exact .error _
  · next hend =>
      split
      · have hwritten : WrittenBody [] .endOfFile [] c.remaining := by
          rw [remaining_of_readPiece_none hend]
          exact .of_stop .endOfFile
        exact .ok (.refl c) hwritten
      · exact .error _
  · next stop location c₁ h₁ hread =>
      rcases written_of_readsPiece hdirective ⟨h₁, hread⟩ with ⟨front, hpass, hwritten⟩
      cases hwritten with
      | stop hstop =>
          have hbody := WrittenBody.of_stop hstop
          split
          · exact Reads.weaken (.ok hpass hbody)
          · exact .error _
  · next node c₁ h₁ hread =>
      rcases written_of_readsPiece hdirective ⟨h₁, hread⟩ with ⟨segment, hpass, hwritten⟩
      cases hwritten with
      | node hnode =>
          refine Reads.weaken (Reads.afterStep (Reads.mapValue (.from_step hpass ?_)) _)
          refine (reads_body construct c₁).whole.imp ?_
          rintro body front after ⟨hfront, hbody⟩
          rw [hfront] at hnode
          exact hbody.cons (segment_ne_nil hpass h₁) hnode
termination_by 5 * c.size + 1

end

end Node

/-!
## Templates
-/

theorem Directive.ofName_ne_endOfFile (name : String) : ofName name ≠ .stop .endOfFile := by
  fun_cases ofName name <;> rintro ⟨⟩

theorem Stop.Written.eq_nil {segment after : List Char}
    (h : Stop.endOfFile.Written segment after) : segment = [] ∧ after = [] := by
  cases h with
  | endOfFile => exact ⟨rfl, rfl⟩
  | directive hword =>
      generalize hdirective : Directive.stop .endOfFile = directive at hword
      cases hword with
      | plain => exact absurd hdirective.symm (Directive.ofName_ne_endOfFile _)
      | braced => exact absurd hdirective.symm (Directive.ofName_ne_endOfFile _)

namespace Template

variable {resource text : String} {nodes : List Node} {template : Template}

theorem exists_body_of_readNodes (h : readNodes resource text = .ok nodes) :
    ∃ (body : Body .outside) (rest : Cursor), body.nodes = nodes
      ∧ (Node.readBody .outside (Cursor.ofText resource text)).outcome = .ok (body, rest) := by
  cases hbody : Node.readBody .outside (Cursor.ofText resource text) with
  | error e =>
      rw [readNodes, hbody] at h
      cases h
  | ok p =>
      rw [readNodes, hbody] at h
      exact ⟨p.value, p.rest, Except.ok.inj h, rfl⟩

theorem exists_nodes_of_parse (h : parse resource text = .ok template) :
    ∃ nodes, readNodes resource text = .ok nodes
      ∧ (ofNodes resource nodes).checkMacros = .ok template := by
  cases hnodes : readNodes resource text with
  | error e =>
      rw [parse, hnodes] at h
      cases h
  | ok nodes =>
      rw [parse, hnodes] at h
      exact ⟨nodes, rfl, h⟩

theorem eq_of_checkMacros {other : Template} (h : template.checkMacros = .ok other) :
    other = template ∧ template.root.firstUnknownMacro? template.macros = none := by
  rw [checkMacros] at h
  split at h
  · cases h
  · next hnone =>
      cases h
      exact ⟨rfl, hnone⟩

theorem segments_of_readNodes (h : readNodes resource text = .ok nodes) :
    ∃ segments, segments.flatten = text.toList ∧ Node.Segments nodes segments [] := by
  rcases exists_body_of_readNodes h with ⟨body, rest, rfl, hbody⟩
  rcases Node.reads_body .outside _ body rest hbody with ⟨front, hpass, hwritten⟩
  rw [of_decide_eq_true body.accepted] at hwritten
  cases hwritten with
  | @mk _ segments _ _ _ hsegments hstop =>
      rcases hstop.eq_nil with ⟨rfl, hrest⟩
      refine ⟨segments, ?_, ?_⟩
      · have hremaining := hpass.remaining_eq
        rw [hrest, List.append_nil, List.append_nil] at hremaining
        exact hremaining.symm
      · rw [hrest] at hsegments
        exact hsegments

/-- Parsing loses no character, takes none twice and keeps their order. -/
theorem parse_segments (h : parse resource text = .ok template) :
    ∃ nodes segments, readNodes resource text = .ok nodes
      ∧ template.nodes = Node.dropYielding (Node.tidyAll nodes)
      ∧ segments.flatten = text.toList ∧ Node.Segments nodes segments [] := by
  rcases exists_nodes_of_parse h with ⟨nodes, hnodes, hmacros⟩
  rcases segments_of_readNodes hnodes with ⟨segments, hflatten, hsegments⟩
  refine ⟨nodes, segments, hnodes, ?_, hflatten, hsegments⟩
  rw [(eq_of_checkMacros hmacros).1]
  rfl

theorem exists_of_isOk (h : (parse resource text).isOk = true) :
    ∃ template, parse resource text = .ok template := by
  cases hparse : parse resource text with
  | error e =>
      rw [hparse] at h
      cases h
  | ok template => exact ⟨template, rfl⟩

theorem parse_segments_mixed :
    ∃ template nodes segments,
      parse "t" "a$b.#if(true)\n#[[#]]##end\n" = .ok template
      ∧ readNodes "t" "a$b.#if(true)\n#[[#]]##end\n" = .ok nodes
      ∧ template.nodes = Node.dropYielding (Node.tidyAll nodes)
      ∧ segments.flatten = "a$b.#if(true)\n#[[#]]##end\n".toList
      ∧ Node.Segments nodes segments [] := by
  have hok : (parse "t" "a$b.#if(true)\n#[[#]]##end\n").isOk = true := by
    decide +kernel
  rcases exists_of_isOk hok with ⟨template, h⟩
  rcases parse_segments h with ⟨nodes, segments, hparts⟩
  exact ⟨template, nodes, segments, h, hparts⟩

end Template

end Stencil
