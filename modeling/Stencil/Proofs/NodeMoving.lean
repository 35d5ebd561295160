import Stencil.Proofs.ExprMoving
import Stencil.Proofs.NodeForms
import Stencil.Proofs.Relocation

/-!
# Reading nodes further on

Pieces and bodies are read the same further down and with more behind the text.  An error, which may
be blamed on the end of the text, is only compared when nothing follows.
-/

namespace Stencil

open Attempt

/-!
## Opaque regions
-/

namespace Text

variable {mark cs inside after : List Char}

theorem prefix_of_afterMark? (h : afterMark? mark cs = some after) : mark <+: cs :=
  ⟨after, append_of_afterMark? h⟩

theorem afterMark?_of_not_prefix (h : ¬ mark <+: cs) : afterMark? mark cs = none := by
  cases hmark : afterMark? mark cs with
  | none => rfl
  | some after => exact absurd (prefix_of_afterMark? hmark) h

theorem splitAt?_append (h : splitAt? mark cs = some (inside, after)) (more : List Char) :
    splitAt? mark (cs ++ more) = some (inside, after ++ more) := by
  induction cs generalizing inside with
  | nil => cases h
  | cons x rest ih =>
      rw [splitAt?] at h
      rw [List.cons_append, splitAt?]
      split at h
      · next found hfront =>
          cases h
          rw [← List.cons_append, ← append_of_afterMark? hfront, List.append_assoc,
            afterMark?_append]
      · next hfront =>
          obtain ⟨⟨front, back⟩, hsplit, heq⟩ := Option.map_eq_some_iff.mp h
          cases heq
          have hlength : mark.length ≤ (x :: rest).length := by
            rw [← append_of_splitAt? hsplit]
            simp only [List.length_cons, List.length_append]
            omega
          have hnone : afterMark? mark (x :: (rest ++ more)) = none := by
            refine afterMark?_of_not_prefix fun hfound => not_prefix_of_afterMark? hfront ?_
            have hfront := List.prefix_append (x :: rest) more
            exact List.prefix_of_prefix_length_le hfound hfront hlength
          rw [hnone, ih hsplit]
          rfl

end Text

section

variable {d : Nat} {more : List Char} {c : Cursor}

namespace Cursor

variable {mark inside : List Char}

theorem splitAt?_of_text {after : List Char}
    (h : Text.splitAt? mark c.remaining = some (inside, after)) :
    ∃ hr, c.splitAt? mark
      = some (inside, ⟨⟨c.resource, after, c.line + newlines (inside ++ mark)⟩, hr⟩) := by
  rw [splitAt?]
  split
  · next hnone =>
      rw [h] at hnone
      cases hnone
  · next front back hsplit =>
      rw [h] at hsplit
      cases hsplit
      have hsize : after.length ≤ c.remaining.length := by
        rw [← Text.append_of_splitAt? h, List.length_append, List.length_append]
        omega
      exact ⟨hsize, rfl⟩

theorem splitAt?_of_text_none (h : Text.splitAt? mark c.remaining = none) :
    c.splitAt? mark = none := by
  rw [splitAt?]
  split
  · rfl
  · next hsplit =>
      rw [h] at hsplit
      cases hsplit

/-- Whether the mark is found does not depend on what follows it, not even at the very end. -/
theorem splitAt?_move {r : { r : Cursor // r.size ≤ c.size }} (d : Nat) (more : List Char)
    (h : c.splitAt? mark = some (inside, r)) :
    ∃ hr, (c.move d more).splitAt? mark = some (inside, ⟨r.1.move d more, hr⟩) := by
  rw [splitAt?] at h
  split at h
  · cases h
  · next front after hsplit =>
      cases h
      have hfound := splitAt?_of_text (c := c.move d more) (Text.splitAt?_append hsplit more)
      rw [move, Nat.add_right_comm] at hfound
      exact hfound

theorem splitAt?_move_nil (h : c.splitAt? mark = none) :
    (c.move d []).splitAt? mark = none := by
  rw [splitAt?] at h
  split at h
  · next hnone =>
      refine splitAt?_of_text_none ?_
      rw [move, List.append_nil]
      exact hnone
  · cases h

theorem skipPast_move (h : Text.Decided more (c.skipPast mark).remaining) :
    (c.move d more).skipPast mark = (c.skipPast mark).move d more := by
  rw [skipPast] at h ⊢
  cases hsplit : c.splitAt? mark with
  | some found =>
      rcases splitAt?_move d more hsplit with ⟨hr, hmove⟩
      rw [skipPast, hmove, hsplit]
  | none =>
      rw [hsplit] at h
      rcases h with rfl | hne
      · rw [skipPast, splitAt?_move_nil hsplit, hsplit]
        dsimp only
        rw [finish, finish, move, move, List.append_nil, Nat.add_right_comm]
        rfl
      · exact absurd rfl hne

theorem skipPast_suffix (mark : List Char) (hmark : mark ≠ []) (c : Cursor) :
    (c.skipPast mark).remaining <:+ c.remaining := by
  rcases passes_skipPast hmark c with ⟨region, hpass, _⟩
  exact hpass.suffix

end Cursor

namespace Node

variable {opening : List Char} {location : Location}

abbrev shifted (d : Nat) : Node → Node :=
  Node.relocate (Location.shift d)

theorem carries_text (hfirm : Text.Firm more c.remaining) (opening : List Char)
    (location : Location) :
    Carries d more (shifted d) (.ok (readText opening location c))
      (.ok (readText opening (location.shift d) (c.move d more))) := by
  refine .done (hfirm.of_suffix (List.dropWhile_suffix _)) fun hrest => ?_
  refine outcome_eq ?_ (Cursor.dropWhile_move hrest)
  rw [readText, Cursor.takeWhile_move hrest]
  rfl

theorem carries_lineComment (hfirm : Text.Firm more c.remaining) (location : Location) :
    Carries d more (shifted d) (.ok (readLineComment location c))
      (.ok (readLineComment (location.shift d) (c.move d more))) := by
  refine .done (hfirm.of_suffix (Cursor.skipPast_suffix _ (List.cons_ne_nil _ _) c)) fun hrest => ?_
  exact outcome_eq rfl (Cursor.skipPast_move hrest)

theorem carries_blockComment (hfirm : Text.Firm more c.remaining) (location : Location) :
    Carries d more (shifted d) (.ok (readBlockComment location c))
      (.ok (readBlockComment (location.shift d) (c.move d more))) := by
  refine .done (hfirm.of_suffix (Cursor.skipPast_suffix _ (List.cons_ne_nil _ _) c)) fun hrest => ?_
  exact outcome_eq rfl (Cursor.skipPast_move hrest)

theorem carries_quotedBlock (hfirm : Text.Firm more c.remaining) (location : Location) :
    Carries d more (shifted d) (readQuotedBlock location c)
      (readQuotedBlock (location.shift d) (c.move d more)) := by
  rw [readQuotedBlock, readQuotedBlock]
  cases hsplit : c.splitAt? [']', ']', '#'] with
  | some found =>
      rcases found with ⟨inside, r⟩
      rcases Cursor.splitAt?_move d more hsplit with ⟨hr, hmove⟩
      refine .done (hfirm.of_suffix ?_) fun _ => ?_
      · exact (Cursor.passes_of_splitAt? (List.cons_ne_nil _ _) hsplit).2.suffix
      · rw [hmove]
        rfl
  | none =>
      refine .failed rfl fun hmore => ?_
      rw [hmore, Cursor.splitAt?_move_nil hsplit]
      rfl

theorem carries_hash (hfirm : Text.Firm more c.remaining) (location : Location) :
    Carries d more (shifted d) (readHash location c)
      (readHash (location.shift d) (c.move d more)) := by
  refine Carries.settle (c := c) (Nat.le_refl _) fun hdecided => ?_
  rw [readHash, readHash]
  rcases Cursor.take?_move_cases hdecided hfirm d '#' with
    ⟨c₁, h₁, h₁', htake, htake', hc₁⟩ | ⟨htake, htake'⟩
  · rw [htake, htake']
    exact Carries.weaken (Carries.afterStep (carries_lineComment hc₁ location) h₁ h₁')
  · rw [htake, htake']
    dsimp only
    rcases Cursor.take?_move_cases hdecided hfirm d '*' with
      ⟨c₁, h₁, h₁', htake, htake', hc₁⟩ | ⟨htake, htake'⟩
    · rw [htake, htake']
      exact Carries.weaken (Carries.afterStep (carries_blockComment hc₁ location) h₁ h₁')
    · rw [htake, htake']
      dsimp only
      rcases Cursor.take?_move_cases hdecided hfirm d '[' with
        ⟨c₁, h₁, h₁', htake, htake', hc₁⟩ | ⟨htake, htake'⟩
      · rw [htake, htake']
        dsimp only
        by_cases hrest : Text.Decided more c₁.remaining
        · rcases Cursor.take?_move_cases hrest hc₁ d '[' with
            ⟨c₂, h₂, h₂', htake, htake', hc₂⟩ | ⟨htake, htake'⟩
          · rw [htake, htake']
            refine Carries.weaken (Carries.after (Carries.afterStep ?_ h₂ h₂') h₁ h₁')
            exact carries_quotedBlock hc₂ location
          · rw [htake, htake']
            exact Carries.weaken (Carries.afterStep (carries_text hc₁ _ location) h₁ h₁')
        · rw [Cursor.take?_of_not_decided hrest]
          exact .ended (Cursor.size_dropWhile_le _ c₁) hrest
      · rw [htake, htake']
        exact carries_text hfirm _ location

theorem carries_output (hfirm : Text.Firm more c.remaining) (silent : Bool) (opening : List Char)
    (location : Location) :
    Carries d more (shifted d) (readOutput silent opening location c)
      (readOutput silent opening (location.shift d) (c.move d more)) := by
  refine Carries.settle (c := c) (Nat.le_refl _) fun hdecided => ?_
  rw [readOutput, readOutput]
  rcases Cursor.take?_move_cases hdecided hfirm d '\x7b' with
    ⟨c₁, h₁, h₁', htake, htake', hc₁⟩ | ⟨htake, htake'⟩
  · rw [htake, htake']
    dsimp only
    by_cases hrest : Text.Decided more c₁.remaining
    · rw [Cursor.atLetter_move hrest]
      split
      · refine Carries.weaken (Carries.after
          (Carries.andThen (Reference.carries_named hc₁ silent) ?_) h₁ h₁')
        intro ref c₂ h₂ h₂' hc₂
        refine Carries.mapValue (Cursor.carries_expect hc₂ '\x7d') fun _ => ?_
        exact congrArg (Node.output · (location.shift d)) (Expr.ofReference_relocate ref).symm
      · exact Carries.weaken (Carries.afterStep (carries_text hc₁ _ location) h₁ h₁')
    · rw [if_neg (Bool.eq_false_iff.mp (Cursor.atLetter_of_not_decided hrest))]
      exact .ended (Cursor.size_dropWhile_le _ c₁) hrest
  · rw [htake, htake']
    dsimp only
    rw [Cursor.atLetter_move hdecided]
    split
    · refine Carries.weaken (Carries.mapValue (Reference.carries_named hfirm silent) fun ref => ?_)
      exact congrArg (Node.output · (location.shift d)) (Expr.ofReference_relocate ref).symm
    · exact carries_text hfirm _ location

theorem carries_dollar (hfirm : Text.Firm more c.remaining) (location : Location) :
    Carries d more (shifted d) (readDollar location c)
      (readDollar (location.shift d) (c.move d more)) := by
  refine Carries.settle (c := c) (Nat.le_refl _) fun hdecided => ?_
  rw [readDollar, readDollar]
  rcases Cursor.take?_move_cases hdecided hfirm d '!' with
    ⟨c₁, h₁, h₁', htake, htake', hc₁⟩ | ⟨htake, htake'⟩
  · rw [htake, htake']
    exact Carries.weaken (Carries.afterStep (carries_output hc₁ true _ location) h₁ h₁')
  · rw [htake, htake']
    exact carries_output hfirm false _ location

end Node

/-!
## Heads
-/

namespace Directive

theorem beginsAt_move (hdecided : Text.Decided more c.remaining) :
    beginsAt (c.move d more) = beginsAt c := by
  rw [beginsAt, beginsAt, Cursor.current_move hdecided, Cursor.atLetter_move hdecided]

theorem carries_name (hfirm : Text.Firm more c.remaining) :
    Carries d more id (readName c) (readName (c.move d more)) := by
  refine Carries.settle (c := c) (Nat.le_succ _) fun hdecided => ?_
  rw [readName, readName]
  rcases Cursor.take?_move_cases hdecided hfirm d '\x7b' with
    ⟨c₁, h₁, h₁', htake, htake', hc₁⟩ | ⟨htake, htake'⟩
  · rw [htake, htake']
    refine Carries.after (Carries.andThen (Cursor.carries_identifier hc₁ _) ?_) h₁ h₁'
    intro name c₂ h₂ h₂' hc₂
    exact Carries.mapValue (Cursor.carries_expect hc₂ '\x7d') fun _ => rfl
  · rw [htake, htake']
    exact Cursor.carries_identifier hfirm _

end Directive

namespace Node

theorem carries_closing {rel : α → β} (hfirm : Text.Firm more c.remaining) {value : α} {moved : β}
    (hmoved : moved = rel value) :
    Carries d more rel (((c.expect ')').mapValue fun _ => value).accept '\n')
      ((((c.move d more).expect ')').mapValue fun _ => moved).accept '\n') := by
  refine Carries.accept (Carries.mapValue (Cursor.carries_expect hfirm ')') ?_) '\n'
  exact fun _ => hmoved

theorem carries_set (hfirm : Text.Firm more c.remaining) (location : Location) :
    Carries d more (shifted d) (readSet location c)
      (readSet (location.shift d) (c.move d more)) := by
  rw [readSet, readSet]
  refine Carries.andThen (Cursor.carries_expect hfirm '(') fun _ c₁ h₁ h₁' hc₁ => ?_
  refine Carries.andThen (Cursor.carries_expect hc₁ '$') fun _ c₂ h₂ h₂' hc₂ => ?_
  refine Carries.andThen (Cursor.carries_identifier hc₂ _) fun name c₃ h₃ h₃' hc₃ => ?_
  refine Carries.andThen (Cursor.carries_expect hc₃ '=') fun _ c₄ h₄ h₄' hc₄ => ?_
  refine Carries.andThen (Expr.carries hc₄) fun value c₅ h₅ h₅' hc₅ => ?_
  exact carries_closing hc₅ rfl

theorem carries_call (hfirm : Text.Firm more c.remaining) (name : String) (location : Location) :
    Carries d more (shifted d) (readCall name location c)
      (readCall name (location.shift d) (c.move d more)) := by
  have hleft := Cursor.carries_require (d := d) (Cursor.firm_skipSpace hfirm) '('
    ("`(` after macro name #" ++ name)
  rw [readCall, readCall]
  refine Carries.andThen (Carries.within (Carries.atSpace (Nat.le_succ _) hleft) _ _) ?_
  intro _ c₁ h₁ h₁' hc₁
  refine Carries.accept (Carries.mapValue (Reference.carries_arguments hc₁) ?_) '\n'
  exact fun _ => rfl

theorem carries_inKeyword (hfirm : Text.Firm more c.remaining) :
    Carries d more id (readInKeyword c) (readInKeyword (c.move d more)) := by
  rw [readInKeyword, readInKeyword]
  refine Carries.andThen (Cursor.carries_require hfirm 'i' _) fun _ c₁ h₁ h₁' hc₁ => ?_
  exact Cursor.carries_require hc₁ 'n' _

theorem carries_loopHead (hfirm : Text.Firm more c.remaining) :
    Carries d more (fun head => (head.1, head.2.relocate (Location.shift d))) (readLoopHead c)
      (readLoopHead (c.move d more)) := by
  rw [readLoopHead, readLoopHead]
  refine Carries.andThen (Cursor.carries_expect hfirm '(') fun _ c₁ h₁ h₁' hc₁ => ?_
  refine Carries.andThen (Cursor.carries_expect hc₁ '$') fun _ c₂ h₂ h₂' hc₂ => ?_
  refine Carries.andThen (Carries.skipSpace (Cursor.carries_identifier hc₂ _)) ?_
  intro name c₃ h₃ h₃' hc₃
  refine Carries.andThen (carries_inKeyword hc₃) fun _ c₄ h₄ h₄' hc₄ => ?_
  refine Carries.andThen (Expr.carries hc₄) fun collection c₅ h₅ h₅' hc₅ => ?_
  exact carries_closing hc₅ rfl

theorem carries_condition (hfirm : Text.Firm more c.remaining) :
    Carries d more (Expr.relocate (Location.shift d)) (readCondition c)
      (readCondition (c.move d more)) := by
  rw [readCondition, readCondition]
  refine Carries.andThen (Cursor.carries_expect hfirm '(') fun _ c₁ h₁ h₁' hc₁ => ?_
  refine Carries.andThen (Expr.carries hc₁) fun condition c₂ h₂ h₂' hc₂ => ?_
  exact carries_closing hc₂ rfl

end Node

/-!
## Pieces and bodies
-/

def Piece.shift (d : Nat) : Piece → Piece
  | node inner => node (inner.relocate (Location.shift d))
  | stop kind location => stop kind (location.shift d)

def Body.shift (d : Nat) {construct : Construct} (body : Body construct) :
    Body (construct.shift d) :=
  ⟨Node.relocateAll (Location.shift d) body.nodes, body.stop,
    (construct.accepts_shift d body.stop).trans body.accepted, body.location.shift d⟩

namespace Node

structure CarriesPiece (d : Nat) (more : List Char) (c : Cursor) : Prop where
  ok : ∀ piece behind, ReadsPiece c piece behind ->
    Text.Firm more behind.remaining
      ∧ (Text.Decided more behind.remaining ->
        ReadsPiece (c.move d more) (piece.shift d) (behind.move d more))
  error : ∀ e, readPiece c = .error e -> more = [] ->
    readPiece (c.move d more) = .error (e.shift d)

theorem carriesPiece_of_carries {x : Attempt (Parsed c.size Piece)}
    {y : Attempt (Parsed (c.move d more).size Piece)} (hx : readPiece c = x.map some)
    (hy : readPiece (c.move d more) = y.map some) (h : Carries d more (Piece.shift d) x y) :
    CarriesPiece d more c where
  ok := fun piece behind hpiece => by
    rcases hpiece with ⟨hlt, hpiece⟩
    rw [hx] at hpiece
    cases x with
    | error e => cases hpiece
    | ok p =>
        cases hpiece
        rcases h.ok piece behind rfl with ⟨hfirm, hmove⟩
        exact ⟨hfirm, fun hdecided => readsPiece_of_outcome hy (hmove hdecided)⟩
  error := fun e he hmore => by
    rw [hx] at he
    cases x with
    | ok p => cases he
    | error found =>
        cases he
        rw [hy, eq_error_of_outcome (h.error e rfl hmore)]
        rfl

theorem carries_node {x : Attempt (Parsed n Node)} {y : Attempt (Parsed m Node)}
    (h : Carries d more (shifted d) x y) :
    Carries d more (Piece.shift d) (x.mapValue Piece.node) (y.mapValue Piece.node) :=
  Carries.mapValue h fun _ => rfl

/-- Directives call for pieces again, so what is known about them comes as an assumption. -/
theorem carriesPiece (hfirm : Text.Firm more c.remaining)
    (hdirective : ∀ (location : Location) (r : Cursor), r.size < c.size ->
      Text.Firm more r.remaining ->
      Carries d more (Piece.shift d) (readDirective location r)
        (readDirective (location.shift d) (r.move d more))) : CarriesPiece d more c := by
  rcases c with ⟨r, remaining, l⟩
  cases remaining with
  | nil =>
      refine ⟨fun piece behind hpiece => ?_, fun e he => ?_⟩
      · rcases hpiece with ⟨hlt, _⟩
        exact absurd hlt (Nat.not_lt_zero _)
      · rw [readPiece_nil] at he
        cases he
  | cons x cs =>
      have hcs : Text.Firm more cs := hfirm.of_suffix (List.suffix_cons x cs)
      by_cases hx : Text.isPlain x = true
      · refine carriesPiece_of_carries (readPiece_plain hx) (readPiece_plain hx) ?_
        have htext := carries_text (c := ⟨r, cs, l + Cursor.newlines [x]⟩) hcs [x] ⟨r, l⟩ (d := d)
        rw [Cursor.move, Nat.add_right_comm] at htext
        exact carries_node (Carries.afterStep htext Cursor.size_cons_lt Cursor.size_cons_lt)
      · have hx : x = '$' ∨ x = '#' := by
          grind [Text.isPlain]
        rcases hx with rfl | rfl
        · refine carriesPiece_of_carries readPiece_dollar readPiece_dollar ?_
          have hdollar := carries_dollar (c := ⟨r, cs, l⟩) hcs ⟨r, l⟩ (d := d)
          exact carries_node (Carries.afterStep hdollar Cursor.size_cons_lt Cursor.size_cons_lt)
        · by_cases hrest : Text.Decided more cs
          · have hbegins := Directive.beginsAt_move (c := ⟨r, cs, l⟩) (d := d) hrest
            cases h : Directive.beginsAt ⟨r, cs, l⟩ with
            | true =>
                refine carriesPiece_of_carries (readPiece_directive h)
                  (readPiece_directive (hbegins.trans h)) ?_
                exact Carries.after (hdirective _ ⟨r, cs, l⟩ Cursor.size_cons_lt hcs)
                  Cursor.size_cons_lt Cursor.size_cons_lt
            | false =>
                refine carriesPiece_of_carries (readPiece_hash h)
                  (readPiece_hash (hbegins.trans h)) ?_
                have hhash := carries_hash (c := ⟨r, cs, l⟩) hcs ⟨r, l⟩ (d := d)
                exact carries_node (Carries.afterStep hhash Cursor.size_cons_lt Cursor.size_cons_lt)
          · refine ⟨fun piece behind hpiece => ?_, fun e _ hmore => absurd (Or.inl hmore) hrest⟩
            rcases hpiece with ⟨hlt, _⟩
            have hbehind : ¬ Text.Decided more behind.remaining :=
              fun h => hrest (h.mono (Nat.le_of_lt_succ hlt))
            exact ⟨Text.firm_of_not_decided hbehind, fun h => absurd h hbehind⟩

mutual

theorem carries_directive {c : Cursor} (hfirm : Text.Firm more c.remaining)
    (location : Location) :
    Carries d more (Piece.shift d) (readDirective location c)
      (readDirective (location.shift d) (c.move d more)) := by
  rw [readDirective, readDirective]
  refine Carries.andMaybe (Directive.carries_name hfirm) fun name c₁ h₁ h₁' hc₁ => ?_
  dsimp only [id]
  cases Directive.ofName name with
  | stop stop =>
      exact .done (hc₁.of_suffix (Cursor.accept_suffix _ c₁)) fun hrest =>
        outcome_eq rfl (Cursor.accept_move hrest)
  | conditional =>
      exact Carries.weaken (carries_node (carries_conditional hc₁ .conditional location))
  | forEach =>
      refine Carries.weaken (Carries.andMaybe (carries_loopHead hc₁) ?_)
      intro head c₂ h₂ h₂' hc₂
      refine Carries.mapValue (carries_body hc₂ (.inside .forEach location.line)) ?_
      exact fun _ => rfl
  | set => exact Carries.weaken (carries_node (carries_set hc₁ location))
  | unsupported feature => exact .failed rfl fun _ => rfl
  | call name => exact Carries.weaken (carries_node (carries_call hc₁ name location))
termination_by 5 * c.size

theorem carries_conditional {c : Cursor} (hfirm : Text.Firm more c.remaining) (opener : Opener)
    (location : Location) :
    Carries d more (shifted d) (readConditional opener location c)
      (readConditional opener (location.shift d) (c.move d more)) := by
  rw [readConditional, readConditional]
  refine Carries.andMaybe (carries_condition hfirm) fun condition c₁ h₁ h₁' hc₁ => ?_
  refine Carries.andMaybe (carries_body hc₁ (.inside opener location.line)) ?_
  intro body c₂ h₂ h₂' hc₂
  rcases body with ⟨nodes, stop, accepted, stopLocation⟩
  cases stop with
  | closing => exact .done hc₂ fun _ => rfl
  | elseIf =>
      refine Carries.weaken (Carries.mapValue (carries_conditional hc₂ .elseIf stopLocation) ?_)
      exact fun _ => rfl
  | elseBranch =>
      refine Carries.mapValue (carries_body hc₂ (.inside .elseBranch stopLocation.line)) ?_
      exact fun _ => rfl
  | endOfFile =>
      rw [Construct.accepts_endOfFile_inside] at accepted
      cases accepted
termination_by 5 * c.size

theorem carries_body {c : Cursor} (hfirm : Text.Firm more c.remaining) (construct : Construct) :
    Carries d more (Body.shift d) (readBody construct c)
      (readBody (construct.shift d) (c.move d more)) := by
  have hdirective : ∀ (location : Location) (r : Cursor), r.size < c.size ->
      Text.Firm more r.remaining ->
      Carries d more (Piece.shift d) (readDirective location r)
        (readDirective (location.shift d) (r.move d more)) :=
    fun location r _ hr => carries_directive hr location
  have hpiece := carriesPiece hfirm hdirective
  refine Carries.settle (c := c) (Nat.le_refl _) fun hdecided => ?_
  rw [readBody]
  split
  · next e he =>
      refine .failed rfl fun hmore => ?_
      exact eq_error_of_outcome (outcome_body_error (hpiece.error e he hmore))
  · next hend =>
      rcases c with ⟨r, remaining, l⟩
      cases (remaining_of_readPiece_none hend : remaining = [])
      cases (hdecided.resolve_right (not_not.mpr rfl) : more = [])
      split
      · next haccepts =>
          have haccepts' := (construct.accepts_shift d .endOfFile).trans haccepts
          exact .done hfirm fun _ => outcome_body_end haccepts'
      · next hrejects =>
          have hrejects' := (construct.accepts_shift d .endOfFile).trans
            (Bool.eq_false_iff.mpr hrejects)
          exact .failed rfl fun _ => eq_error_of_outcome (outcome_body_unfinished hrejects')
  · next stop location c₁ h₁ hread =>
      rcases hpiece.ok _ _ ⟨h₁, hread⟩ with ⟨hfirm₁, hmove⟩
      split
      · next haccepts =>
          have haccepts' := (construct.accepts_shift d stop).trans haccepts
          exact .done hfirm₁ fun hrest => outcome_body_stop (hmove hrest) haccepts'
      · next hrejects =>
          have hrejects' := (construct.accepts_shift d stop).trans
            (Bool.eq_false_iff.mpr hrejects)
          refine .failed rfl fun hmore => ?_
          exact eq_error_of_outcome (outcome_body_rejects (hmove (Or.inl hmore)) hrejects')
  · next node c₁ h₁ hread =>
      rcases hpiece.ok _ _ ⟨h₁, hread⟩ with ⟨hfirm₁, hmove⟩
      have hbody : Carries d more (Body.shift d)
          ((readBody construct c₁).mapValue (Body.cons node))
          ((readBody (construct.shift d) (c₁.move d more)).mapValue
            (Body.cons (node.relocate _))) :=
        Carries.mapValue (carries_body hfirm₁ construct) fun _ => rfl
      refine Carries.of_outcome ((outcome_weaken _).trans (outcome_afterStep h₁ _)) rfl ?_
      refine Carries.settle (c := c₁) (Nat.le_refl _) fun hrest => ?_
      refine Carries.of_outcome rfl ?_ hbody
      rw [outcome_mapValue]
      exact outcome_body_node (hmove hrest)
termination_by 5 * c.size + 1

end

end Node

end

end Stencil
