import Stencil.Proofs.NodeMoving

/-!
# Texts joined behind a closed end

A closed node shows its end itself: a reference in braces, a quoted block, a block comment with its
closing mark or a line comment with its line end.  When the last node of a text is closed, the text
is read as the same nodes whatever is put behind it.
-/

namespace Stencil

theorem Attempt.exists_of_outcome_andThen {x : Attempt (Parsed n α)}
    {next : α → (r : Cursor) → r.size < n → Attempt (Parsed r.size β)} {found : β × Cursor}
    (h : (x.andThen next).outcome = .ok found) :
    ∃ value r hlt, x.outcome = .ok (value, r) ∧ (next value r hlt).outcome = .ok found := by
  cases x with
  | error e => cases h
  | ok p =>
      have hlt := p.size_rest_lt
      exact ⟨p.value, p.rest, hlt, rfl, (outcome_after hlt (next p.value p.rest hlt)).symm.trans h⟩

theorem Location.shift_zero (location : Location) : location.shift 0 = location :=
  rfl

open Attempt

/-!
## Marks

A mark of which no end is also its beginning is found where it has been written, and not earlier.
-/

namespace Text

variable {mark cs after : List Char}

def Unbordered (mark : List Char) : Prop :=
  ∀ k < mark.length, 0 < k -> ¬ mark.drop k <+: mark

theorem Unbordered.not_prefix_append (hmark : Unbordered mark) (hcs : cs ≠ [])
    (h : ¬ mark <:+: cs) (after : List Char) : ¬ mark <+: cs ++ (mark ++ after) := by
  intro hfound
  rcases Nat.lt_or_ge cs.length mark.length with hlt | hle
  · rcases List.prefix_of_prefix_length_le (List.prefix_append cs _) hfound (Nat.le_of_lt hlt) with
      ⟨back, rfl⟩
    have hback : back <+: (cs ++ back) ++ after := (List.prefix_append_right_inj cs).mp hfound
    refine hmark cs.length hlt (List.length_pos_iff.mpr hcs) ?_
    rw [List.drop_left]
    refine List.prefix_of_prefix_length_le hback (List.prefix_append _ after) ?_
    rw [List.length_append]
    exact Nat.le_add_left _ _
  · refine h (List.IsPrefix.isInfix ?_)
    exact List.prefix_of_prefix_length_le hfound (List.prefix_append cs _) hle

theorem splitAt?_of_not_infix (hmark : Unbordered mark) (h : ¬ mark <:+: cs) (after : List Char) :
    splitAt? mark (cs ++ (mark ++ after)) = some (cs, after) := by
  induction cs with
  | nil =>
      cases mark with
      | nil => exact absurd (List.infix_refl []) h
      | cons x mark =>
          rw [List.nil_append, List.cons_append, splitAt?, ← List.cons_append, afterMark?_append]
  | cons x cs ih =>
      have hnone : afterMark? mark (x :: (cs ++ (mark ++ after))) = none :=
        afterMark?_of_not_prefix (hmark.not_prefix_append (List.cons_ne_nil x cs) h after)
      rw [List.cons_append, splitAt?, hnone,
        ih fun hfound => h (hfound.trans (List.suffix_cons x cs).isInfix)]
      rfl

theorem unbordered_quotedEnd : Unbordered [']', ']', '#'] := by
  unfold Unbordered
  decide

end Text

section

variable {d : Nat} {more : List Char} {c r behind : Cursor} {x : Char}

namespace Cursor

variable {mark : List Char}

theorem exists_splitAt? (hmark : mark ≠ []) (h : mark <:+: c.remaining) :
    ∃ inside r, c.splitAt? mark = some (inside, r) := by
  cases hsplit : c.splitAt? mark with
  | none => exact absurd h (not_infix_of_splitAt?_none hmark hsplit)
  | some found => exact ⟨found.1, found.2, rfl⟩

theorem skipPast_move_of_infix (hmark : mark ≠ []) (h : mark <:+: c.remaining) :
    (c.move d more).skipPast mark = (c.skipPast mark).move d more := by
  rcases exists_splitAt? hmark h with ⟨inside, r, hsplit⟩
  rcases splitAt?_move d more hsplit with ⟨hr, hmove⟩
  rw [skipPast, skipPast, hmove, hsplit]

theorem remaining_ne_nil_of_current (h : c.current = some x) : c.remaining ≠ [] := by
  intro hnil
  rw [current, hnil] at h
  cases h

theorem outcome_expect_move (d : Nat) (more : List Char)
    (h : (c.expect x).outcome = .ok ((), r)) :
    c.remaining ≠ [] ∧ ((c.move d more).expect x).outcome = .ok ((), r.move d more) := by
  by_cases hcurrent : c.skipSpace.current = some x
  · have hne := remaining_ne_nil_of_current hcurrent
    rw [expect, outcome_within, outcome_require _ hcurrent] at h
    cases h
    refine ⟨fun hnil => hne (List.suffix_nil.mp ?_), ?_⟩
    · rw [← hnil]
      exact List.dropWhile_suffix _
    · rw [expect, outcome_within, skipSpace_move (Or.inr hne),
        outcome_require _ (current_move_of_current hcurrent), advance_move hcurrent]
  · rw [expect, outcome_within, require, take?_of_ne hcurrent] at h
    cases h

end Cursor

/-!
## Closed nodes
-/

namespace Node

/-- The node, written as the segment, shows its end itself. -/
inductive Closed : Node → (segment : List Char) → Prop where
  | reference {expr : Expr} {location : Location} {silent : Bool} {inside : List Char} :
      Closed (.output expr location) (Reference.sigil silent ++ '\x7b' :: (inside ++ ['\x7d']))
  | quotedBlock {content : String} {location : Location} {inside : List Char} :
      Closed (.text content location) ('#' :: '[' :: '[' :: (inside ++ [']', ']', '#']))
  | blockComment {location : Location} {inside : List Char} :
      Closed (.comment location) ('#' :: '*' :: (inside ++ ['*', '#']))
  | lineComment {location : Location} {inside : List Char} :
      Closed (.comment location) ('#' :: '#' :: (inside ++ ['\n']))

theorem Closed.exists_seal {node : Node} {segment : List Char} (h : node.Closed segment) :
    ∃ x ∈ Text.seals, segment.getLast? = some x := by
  cases h with
  | reference => exact ⟨'\x7d', by decide, by simp [List.getLast?_cons]⟩
  | quotedBlock => exact ⟨'#', by decide, by simp [List.getLast?_cons]⟩
  | blockComment => exact ⟨'#', by decide, by simp [List.getLast?_cons]⟩
  | lineComment => exact ⟨'\n', by decide, by simp [List.getLast?_cons]⟩

theorem Closed.ne_nil {node : Node} {segment : List Char} (h : node.Closed segment) :
    segment ≠ [] := by
  rintro rfl
  rcases h.exists_seal with ⟨x, _, hlast⟩
  cases hlast

theorem Closed.firm {node : Node} {segment : List Char} (h : node.Closed segment)
    (front more : List Char) : Text.Firm more (front ++ segment) := by
  rcases h.exists_seal with ⟨x, hx, hlast⟩
  refine Or.inr fun y hy => ?_
  rw [List.getLast?_append, hlast] at hy
  cases hy
  exact hx

theorem ReadsPiece.unique {piece piece' : Piece} {behind' : Cursor} (h : ReadsPiece c piece behind)
    (h' : ReadsPiece c piece' behind') : piece = piece' ∧ behind = behind' := by
  rcases h with ⟨hlt, h⟩
  rcases h' with ⟨hlt', h'⟩
  rw [h] at h'
  cases h'
  exact ⟨rfl, rfl⟩

section

variable {resource : String} {cs inside : List Char} {l : Nat}

theorem readsPiece_lineComment :
    ReadsPiece ⟨resource, '#' :: '#' :: cs, l⟩ (.node (.comment ⟨resource, l⟩))
      ((⟨resource, cs, l⟩ : Cursor).skipPast ['\n']) := by
  refine readsPiece_of_outcome (readPiece_hash rfl) ?_
  rw [outcome_mapValue, outcome_afterStep, readHash, Cursor.take?_cons]
  rfl

theorem readsPiece_blockComment :
    ReadsPiece ⟨resource, '#' :: '*' :: cs, l⟩ (.node (.comment ⟨resource, l⟩))
      ((⟨resource, cs, l⟩ : Cursor).skipPast ['*', '#']) := by
  refine readsPiece_of_outcome (readPiece_hash rfl) ?_
  rw [outcome_mapValue, outcome_afterStep, readHash, Cursor.take?_cons_of_ne (by decide)]
  dsimp only
  rw [Cursor.take?_cons]
  rfl

theorem outcome_quotedBlock {location : Location} {r : { r : Cursor // r.size ≤ c.size }}
    (h : c.splitAt? [']', ']', '#'] = some (inside, r)) :
    (readQuotedBlock location c).outcome = .ok (.text (String.ofList inside) location, r.1) := by
  rw [readQuotedBlock, h]
  rfl

theorem outcome_hash_brackets (location : Location) :
    (readHash location ⟨resource, '[' :: '[' :: cs, l⟩).outcome
      = (readQuotedBlock location ⟨resource, cs, l⟩).outcome := by
  rw [readHash, Cursor.take?_cons_of_ne (by decide)]
  dsimp only
  rw [Cursor.take?_cons_of_ne (by decide)]
  dsimp only
  rw [Cursor.take?_cons]
  dsimp only
  rw [Cursor.take?_cons]
  dsimp only
  rw [outcome_weaken, outcome_after, outcome_afterStep]
  rfl

theorem readsPiece_quotedBlock
    {r : { r : Cursor // r.size ≤ (⟨resource, cs, l⟩ : Cursor).size }}
    (h : (⟨resource, cs, l⟩ : Cursor).splitAt? [']', ']', '#'] = some (inside, r)) :
    ReadsPiece ⟨resource, '#' :: '[' :: '[' :: cs, l⟩
      (.node (.text (String.ofList inside) ⟨resource, l⟩)) r.1 := by
  refine readsPiece_of_outcome (readPiece_hash rfl) ?_
  rw [outcome_mapValue, outcome_afterStep, outcome_hash_brackets, outcome_quotedBlock h]
  rfl

/-- A quoted block ends where its closing mark is written if none stands inside. -/
theorem readsPiece_quotedBlock_closed (h : ¬ [']', ']', '#'] <:+: inside)
    (after : List Char) :
    ReadsPiece ⟨resource, '#' :: '[' :: '[' :: (inside ++ ([']', ']', '#'] ++ after)), l⟩
      (.node (.text (String.ofList inside) ⟨resource, l⟩))
      ⟨resource, after, l + Cursor.newlines inside⟩ := by
  have hlines : Cursor.newlines (inside ++ [']', ']', '#']) = Cursor.newlines inside :=
    Cursor.newlines_append _ _
  have hsplit := Text.splitAt?_of_not_infix Text.unbordered_quotedEnd h after
  rcases Cursor.splitAt?_of_text (c := ⟨resource, _, l⟩) hsplit with ⟨hr, hfound⟩
  rw [← hlines]
  exact readsPiece_quotedBlock hfound

end

/-!
### References in braces
-/

theorem outcome_dollar_brace {resource : String} {cs : List Char} {l : Nat} (location : Location) :
    (readDollar location ⟨resource, '\x7b' :: cs, l⟩).outcome
      = (readOutput false ['$'] location ⟨resource, '\x7b' :: cs, l⟩).outcome := by
  rw [readDollar, Cursor.take?_cons_of_ne (by decide)]

theorem outcome_dollar_bang {resource : String} {cs : List Char} {l : Nat} (location : Location) :
    (readDollar location ⟨resource, '!' :: cs, l⟩).outcome
      = (readOutput true ['$', '!'] location ⟨resource, cs, l⟩).outcome := by
  rw [readDollar, Cursor.take?_cons]
  dsimp only
  rw [outcome_weaken, outcome_afterStep]
  rfl

/-- A reference in front of its closing brace does not reach what is behind that. -/
theorem outcome_braced_move {silent : Bool} {location : Location} {node : Node}
    (hfirm : Text.Firm more c.remaining)
    (h : ((Reference.readNamed silent c).andThen fun ref c₁ _ =>
      (c₁.expect '\x7d').mapValue fun _ => Node.output (.ofReference ref) location).outcome
        = .ok (node, behind)) :
    ((Reference.readNamed silent (c.move d more)).andThen fun ref c₁ _ =>
      (c₁.expect '\x7d').mapValue fun _ =>
        Node.output (.ofReference ref) (location.shift d)).outcome
        = .ok (shifted d node, behind.move d more) := by
  rcases exists_of_outcome_andThen h with ⟨ref, c₁, h₁, href, hclose⟩
  rw [outcome_mapValue] at hclose
  cases hbrace : (c₁.expect '\x7d').outcome with
  | error e =>
      rw [hbrace] at hclose
      cases hclose
  | ok found =>
      rw [hbrace] at hclose
      cases hclose
      rcases Cursor.outcome_expect_move d more hbrace with ⟨hne, hbrace'⟩
      have hcarries := Reference.carries_named (d := d) hfirm silent
      refine outcome_andThen ((hcarries.ok ref c₁ href).2 (Or.inr hne)) fun _ => ?_
      rw [outcome_mapValue, hbrace', shifted, relocate, Expr.ofReference_relocate]
      rfl

theorem outcome_output_braced_move {silent : Bool} {opening : List Char} {expr : Expr}
    {location location' : Location} (hfirm : Text.Firm more c.remaining)
    (hcurrent : c.current = some '\x7b')
    (h : (readOutput silent opening location c).outcome = .ok (.output expr location', behind)) :
    (readOutput silent opening (location.shift d) (c.move d more)).outcome
      = .ok (shifted d (.output expr location'), behind.move d more) := by
  have hdecided : Text.Decided more c.remaining :=
    Or.inr (Cursor.remaining_ne_nil_of_current hcurrent)
  rcases Cursor.take?_move_cases hdecided hfirm d '\x7b' with
    ⟨c₁, h₁, h₁', htake, htake', hc₁⟩ | ⟨htake, _⟩
  · rw [readOutput, htake] at h
    rw [readOutput, htake']
    dsimp only at h ⊢
    split at h
    · next hletter =>
        have hdecided₁ : Text.Decided more c₁.remaining := by
          by_contra hend
          rw [Cursor.atLetter_of_not_decided hend] at hletter
          cases hletter
        rw [outcome_weaken, outcome_after] at h
        rw [if_pos ((Cursor.atLetter_move hdecided₁).trans hletter), outcome_weaken, outcome_after]
        exact outcome_braced_move hc₁ h
    · cases h
  · exact absurd hcurrent (Cursor.current_ne_of_take? htake)

theorem outcome_dollar_of_readsPiece {resource : String} {cs : List Char} {l : Nat} {node : Node}
    (h : ReadsPiece ⟨resource, '$' :: cs, l⟩ (.node node) behind) :
    (readDollar ⟨resource, l⟩ ⟨resource, cs, l⟩).outcome = .ok (node, behind) := by
  rcases h with ⟨hlt, h⟩
  rw [readPiece_dollar] at h
  cases hdollar : readDollar ⟨resource, l⟩ ⟨resource, cs, l⟩ with
  | error e =>
      rw [hdollar] at h
      cases h
  | ok p =>
      rw [hdollar] at h
      cases h
      rfl

theorem readsPiece_dollar {resource : String} {cs : List Char} {l : Nat} {node : Node}
    (h : (readDollar ⟨resource, l⟩ ⟨resource, cs, l⟩).outcome = .ok (node, behind)) :
    ReadsPiece ⟨resource, '$' :: cs, l⟩ (.node node) behind := by
  refine readsPiece_of_outcome readPiece_dollar ?_
  rw [outcome_mapValue, outcome_afterStep, h]
  rfl

theorem Closed.readsPiece_move {node : Node} (d : Nat) (more : List Char)
    (hclosed : node.Closed c.remaining) (h : ReadsPiece c (.node node) behind) :
    ReadsPiece (c.move d more) (.node (shifted d node)) (behind.move d more) := by
  have hfirm : Text.Firm more c.remaining := hclosed.firm [] more
  rcases c with ⟨resource, remaining, l⟩
  change node.Closed remaining at hclosed
  cases hclosed with
  | @reference expr location silent inside =>
      have hinside : Text.Firm more ('\x7b' :: (inside ++ ['\x7d'])) :=
        hfirm.of_suffix (List.suffix_append _ _)
      cases silent with
      | false =>
          have hdollar := (outcome_dollar_brace _).symm.trans (outcome_dollar_of_readsPiece h)
          refine readsPiece_dollar ((outcome_dollar_brace _).trans ?_)
          exact outcome_output_braced_move hinside rfl hdollar
      | true =>
          have hdollar := (outcome_dollar_bang _).symm.trans (outcome_dollar_of_readsPiece h)
          refine readsPiece_dollar ((outcome_dollar_bang _).trans ?_)
          exact outcome_output_braced_move hinside rfl hdollar
  | @quotedBlock content location inside =>
      have hmark : [']', ']', '#'] <:+: inside ++ [']', ']', '#'] :=
        (List.suffix_append _ _).isInfix
      rcases Cursor.exists_splitAt? (c := ⟨resource, _, l⟩) (List.cons_ne_nil _ _) hmark with
        ⟨found, r, hsplit⟩
      rcases h.unique (readsPiece_quotedBlock hsplit) with ⟨hnode, rfl⟩
      cases hnode
      rcases Cursor.splitAt?_move d more hsplit with ⟨hr, hmove⟩
      exact readsPiece_quotedBlock hmove
  | @blockComment location inside =>
      rcases h.unique readsPiece_blockComment with ⟨hnode, rfl⟩
      cases hnode
      have hmark : ['*', '#'] <:+: inside ++ ['*', '#'] := (List.suffix_append _ _).isInfix
      rw [← Cursor.skipPast_move_of_infix (List.cons_ne_nil _ _) hmark]
      exact readsPiece_blockComment
  | @lineComment location inside =>
      rcases h.unique readsPiece_lineComment with ⟨hnode, rfl⟩
      cases hnode
      have hmark : ['\n'] <:+: inside ++ ['\n'] := (List.suffix_append _ _).isInfix
      rw [← Cursor.skipPast_move_of_infix (List.cons_ne_nil _ _) hmark]
      exact readsPiece_lineComment

/-!
## Runs
-/

inductive Run : Cursor → List Node → Cursor → Prop where
  | nil {c : Cursor} : Run c [] c
  | cons {c c₁ r : Cursor} {node : Node} {nodes : List Node} :
      ReadsPiece c (.node node) c₁ -> Run c₁ nodes r -> Run c (node :: nodes) r

namespace Run

variable {nodes others : List Node}

theorem append (h : Run c nodes r) (h' : Run r others behind) : Run c (nodes ++ others) behind := by
  induction h with
  | nil => exact h'
  | cons hpiece _ ih => exact .cons hpiece (ih h')

theorem passes (h : Run c nodes r) : ∃ front, c.Passes front r := by
  induction h with
  | nil => exact ⟨[], .refl _⟩
  | cons hpiece _ ih =>
      rcases written_of_readsPiece (fun location r _ => reads_directive location r) hpiece with
        ⟨segment, hsegment, _⟩
      rcases ih with ⟨front, hfront⟩
      exact ⟨segment ++ front, hsegment.trans hfront⟩

theorem outcome_body (h : Run c nodes r) (construct : Construct) :
    (readBody construct c).outcome
      = (readBody construct r).outcome.map fun found =>
          ({ found.1 with nodes := nodes ++ found.1.nodes }, found.2) := by
  induction h with
  | @nil c => cases (readBody construct c).outcome <;> rfl
  | @cons _ _ r _ _ hpiece _ ih =>
      rw [outcome_body_node hpiece, ih]
      cases (readBody construct r).outcome <;> rfl

theorem move (h : Run c nodes r) (hfirm : Text.Firm more c.remaining)
    (hdecided : Text.Decided more r.remaining) :
    Run (c.move d more) (relocateAll (Location.shift d) nodes) (r.move d more) := by
  induction h with
  | nil => exact .nil
  | cons hpiece hrun ih =>
      have hmove := carriesPiece (d := d) hfirm fun location _ _ hr => carries_directive hr location
      rcases hmove.ok _ _ hpiece with ⟨hfirm₁, hpiece'⟩
      rcases hrun.passes with ⟨front, hpass⟩
      exact .cons (hpiece' (hdecided.mono hpass.suffix.length_le)) (ih hfirm₁ hdecided)

end Run

end Node

end

/-!
## Templates
-/

namespace Template

variable {resource text other : String} {nodes front : List Node}

/-- The last node of the text is closed, and the text ends with it. -/
def EndsClosed (resource text : String) : Prop :=
  ∃ nodes c node behind, Node.Run (Cursor.ofText resource text) nodes c
    ∧ Node.ReadsPiece c (.node node) behind ∧ node.Closed c.remaining ∧ behind.remaining = []

theorem readNodes_eq_outcome (resource text : String) :
    readNodes resource text
      = (Node.readBody .outside (Cursor.ofText resource text)).outcome.map fun found =>
          found.1.nodes := by
  rw [readNodes]
  cases Node.readBody .outside (Cursor.ofText resource text) <;> rfl

theorem readNodes_of_run {l : Nat}
    (h : Node.Run (Cursor.ofText resource text) nodes ⟨resource, [], l⟩) :
    readNodes resource text = .ok nodes := by
  rw [readNodes_eq_outcome, h.outcome_body, Node.outcome_body_end rfl]
  exact congrArg Except.ok (List.append_nil nodes)

theorem readNodes_of_run_append {d : Nat}
    (h : Node.Run (Cursor.ofText resource text) front ⟨resource, other.toList, 1 + d⟩) :
    readNodes resource text
      = ((readNodes resource other).map fun nodes =>
          front ++ Node.relocateAll (Location.shift d) nodes).mapError (Located.shift d) := by
  have hcursor : (Cursor.ofText resource other).move d [] = ⟨resource, other.toList, 1 + d⟩ := by
    rw [Cursor.move, List.append_nil]
    rfl
  have hcarries := @Node.carries_body d [] (Cursor.ofText resource other) (Or.inl rfl) .outside
  rw [hcursor] at hcarries
  rw [readNodes_eq_outcome, readNodes_eq_outcome resource other, h.outcome_body]
  cases hbody : (Node.readBody .outside (Cursor.ofText resource other)).outcome with
  | ok found =>
      have hmove := (hcarries.ok found.1 found.2 hbody).2 (Or.inl rfl)
      exact congrArg (Except.map _) (congrArg (Except.map _) hmove)
  | error e => exact congrArg (Except.map _) (congrArg (Except.map _) (hcarries.error e hbody rfl))

theorem EndsClosed.run_append (h : EndsClosed resource text) (other : String) :
    ∃ nodes,
      Node.Run (Cursor.ofText resource text) nodes ⟨resource, [], 1 + Cursor.newlines text.toList⟩
      ∧ Node.Run (Cursor.ofText resource (text ++ other)) nodes
          ⟨resource, other.toList, 1 + Cursor.newlines text.toList⟩ := by
  rcases h with ⟨nodes, c, node, ⟨r, remaining, l⟩, hrun, hpiece, hclosed, hend⟩
  cases (hend : remaining = [])
  have hwhole := hrun.append (.cons hpiece .nil)
  rcases hwhole.passes with ⟨front, hpass⟩
  cases (hpass.resource_eq : r = resource)
  have hfront : text.toList = front := hpass.remaining_eq.trans (List.append_nil front)
  cases (hpass.line_eq : l = 1 + Cursor.newlines front)
  rw [← hfront] at hwhole hpiece
  refine ⟨nodes ++ [node], hwhole, ?_⟩
  have hmove : (Cursor.ofText resource text).move 0 other.toList
      = Cursor.ofText resource (text ++ other) := by
    rw [Cursor.ofText, Cursor.ofText, String.toList_append]
    rfl
  have hfirm : Text.Firm other.toList (Cursor.ofText resource text).remaining := by
    rcases hrun.passes with ⟨before, hbefore⟩
    rw [hbefore.remaining_eq]
    exact hclosed.firm before _
  have hfirst := hrun.move (d := 0) hfirm (Or.inr hclosed.ne_nil)
  have hlast := hclosed.readsPiece_move 0 other.toList hpiece
  rw [hmove, Node.relocateAll_id Location.shift_zero] at hfirst
  rw [Node.shifted, Node.relocate_id Location.shift_zero] at hlast
  exact hfirst.append (.cons hlast .nil)

end Template

end Stencil
