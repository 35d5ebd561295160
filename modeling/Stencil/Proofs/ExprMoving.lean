import Stencil.Proofs.Moving

/-!
# Reading expressions further on

Every reader of expressions gives the same further down and with more behind the text, with its
locations moved along.
-/

namespace Stencil

open Attempt

section

variable {d : Nat} {more : List Char} {c : Cursor}

/-!
## Integers and keywords
-/

namespace Literal

theorem atInteger_move (hdecided : Text.Decided more c.remaining) :
    atInteger (c.move d more) = atInteger c := by
  rw [atInteger, atInteger, Cursor.current_move hdecided]

theorem numeral_move
    (h : Text.Decided more ((c.accept '-').dropWhile Char.isDigit).remaining) :
    numeral (c.move d more) = numeral c
      ∧ ((c.move d more).accept '-').dropWhile Char.isDigit
        = ((c.accept '-').dropWhile Char.isDigit).move d more := by
  have haccept := h.mono (List.dropWhile_suffix _).length_le
  have hdecided := haccept.mono (Cursor.accept_suffix '-' c).length_le
  have hmove := Cursor.accept_move (d := d) haccept
  refine ⟨?_, ?_⟩
  · rw [numeral, numeral, hmove, Cursor.takeWhile_move h, Cursor.current_move hdecided]
  · rw [hmove, Cursor.dropWhile_move h]

theorem carries_integer (hfirm : Text.Firm more c.remaining) (h : atInteger c = true)
    (h' : atInteger (c.move d more) = true) :
    Carries d more id (readInteger c h) (readInteger (c.move d more) h') := by
  have hsuffix := (List.dropWhile_suffix Char.isDigit).trans (Cursor.accept_suffix '-' c)
  rw [readInteger, readInteger]
  cases hnumeral : Integer.ofText? (numeral c) with
  | none =>
      refine .failed rfl fun hmore => ?_
      rw [(numeral_move (Or.inl hmore)).1, hnumeral]
      exact congrArg Except.error (Cursor.fail_move _ rfl)
  | some n =>
      refine .done (hfirm.of_suffix hsuffix) fun hrest => ?_
      rw [(numeral_move hrest).1, hnumeral]
      exact outcome_eq rfl (numeral_move hrest).2

theorem carries_keyword (hfirm : Text.Firm more c.remaining) (nullAllowed : Bool) :
    Carries d more id (readKeyword nullAllowed c) (readKeyword nullAllowed (c.move d more)) := by
  have hname := Cursor.carries_identifier (d := d) hfirm "identifier without $"
  rw [readKeyword, readKeyword]
  cases h : c.identifier "identifier without $" with
  | error e =>
      refine .failed rfl fun hmore => ?_
      rw [eq_error_of_outcome (hname.error e (by rw [h]; rfl) hmore)]
  | ok p =>
      rcases p with ⟨name, rest, hlt⟩
      rcases hname.ok name rest (by rw [h]; rfl) with ⟨hrest, hmove⟩
      dsimp only
      cases hvalue : ofKeyword? nullAllowed name with
      | none =>
          refine .failed rfl fun hmore => ?_
          rcases eq_ok_of_outcome (hmove (Or.inl hmore)) with ⟨hlt', heq⟩
          rw [heq, id]
          dsimp only
          rw [hvalue]
          exact congrArg Except.error (Cursor.fail_move _ rfl)
      | some value =>
          refine .done hrest fun hdecided => ?_
          rcases eq_ok_of_outcome (hmove hdecided) with ⟨hlt', heq⟩
          rw [heq, id]
          dsimp only
          rw [hvalue]
          rfl

end Literal

/-!
## Operands
-/

namespace Reference

theorem takeDot?_move_cases (hdecided : Text.Decided more c.remaining)
    (hfirm : Text.Firm more c.remaining) (d : Nat) :
    (∃ r h h', takeDot? c = some ⟨r, h⟩ ∧ takeDot? (c.move d more) = some ⟨r.move d more, h'⟩
      ∧ Text.Firm more r.remaining)
    ∨ (takeDot? c = none ∧ takeDot? (c.move d more) = none) := by
  rw [takeDot?, takeDot?]
  rcases Cursor.take?_move_cases hdecided hfirm d '.' with
    ⟨r, h, h', htake, htake', hr⟩ | ⟨htake, htake'⟩
  · have hrest := Cursor.decided_of_passes hfirm (Cursor.passes_of_take? htake) (by decide)
    rw [htake, htake']
    dsimp only
    rw [Cursor.atLetter_move hrest]
    by_cases hletter : r.atLetter = true
    · rw [if_pos hletter, if_pos hletter]
      exact Or.inl ⟨r, h, h', rfl, rfl, hr⟩
    · rw [if_neg hletter, if_neg hletter]
      exact Or.inr ⟨rfl, rfl⟩
  · rw [htake, htake']
    exact Or.inr ⟨rfl, rfl⟩

end Reference

theorem Expr.ofReference_relocate {f : Location → Location} (ref : Reference) :
    (Expr.ofReference ref).relocate f = .ofReference (ref.relocate f) := by
  rw [ofReference, ofReference, relocate, Reference.location_relocate]

mutual

theorem Expr.carries_primary {c : Cursor} (hfirm : Text.Firm more c.remaining)
    (nullAllowed : Bool) :
    Carries d more (Expr.relocate (Location.shift d)) (Expr.readPrimary nullAllowed c)
      (Expr.readPrimary nullAllowed (c.move d more)) := by
  have hhere := Expr.carries_operand (Cursor.firm_skipSpace hfirm) nullAllowed
  rw [Expr.readPrimary, Expr.readPrimary]
  exact Carries.skipSpace (Carries.within (Carries.atSpace (Nat.le_succ _) hhere) _ _)
termination_by 4 * c.size + 2
decreasing_by
  have := c.size_skipSpace_le
  omega

theorem Expr.carries_operand {c : Cursor} (hfirm : Text.Firm more c.remaining)
    (nullAllowed : Bool) :
    Carries d more (Expr.relocate (Location.shift d)) (Expr.readOperand nullAllowed c)
      (Expr.readOperand nullAllowed (c.move d more)) := by
  refine Carries.settle (c := c) (Nat.le_succ _) fun hdecided => ?_
  rw [Expr.readOperand, Expr.readOperand]
  rcases Cursor.next?_move_cases hdecided hfirm d with
    ⟨x, r, h, h', hnext, hnext', hr⟩ | ⟨hnext, hnext'⟩
  · rw [hnext, hnext']
    dsimp only
    split
    · refine Carries.mapValue (Carries.after (Reference.carries_required hr) h h') fun ref => ?_
      exact (Expr.ofReference_relocate ref).symm
    · split
      · exact .failed rfl fun _ => congrArg Except.error (Cursor.fail_move _ rfl)
      · by_cases integer : Literal.atInteger c = true
        · rw [dif_pos integer, dif_pos ((Literal.atInteger_move hdecided).trans integer)]
          exact Carries.mapValue (Literal.carries_integer hfirm integer _) fun _ => rfl
        · rw [dif_neg integer,
            dif_neg fun h => integer ((Literal.atInteger_move hdecided).symm.trans h)]
          split
          · exact Carries.after (Expr.carries_list hr c.location) h h'
          · split
            · exact Carries.mapValue (Literal.carries_keyword hfirm nullAllowed) fun _ => rfl
            · exact .failed rfl fun _ => congrArg Except.error (Cursor.unexpected_move hdecided _)
  · rw [hnext, hnext']
    exact .failed rfl fun _ => congrArg Except.error (Cursor.unexpected_move hdecided _)
termination_by 4 * c.size + 1

theorem Expr.carries_list {c : Cursor} (hfirm : Text.Firm more c.remaining)
    (location : Location) :
    Carries d more (Expr.relocate (Location.shift d)) (Expr.readList location c)
      (Expr.readList (location.shift d) (c.move d more)) := by
  have hhere := Expr.carries_listHere (Cursor.firm_skipSpace hfirm) location
  rw [Expr.readList, Expr.readList]
  exact Carries.within (Carries.atSpace (Nat.le_succ _) hhere) _ _
termination_by 4 * c.size + 4
decreasing_by
  have := c.size_skipSpace_le
  omega

theorem Expr.carries_listHere {c : Cursor} (hfirm : Text.Firm more c.remaining)
    (location : Location) :
    Carries d more (Expr.relocate (Location.shift d)) (Expr.readListHere location c)
      (Expr.readListHere (location.shift d) (c.move d more)) := by
  refine Carries.settle (c := c) (Nat.le_succ _) fun hdecided => ?_
  rw [Expr.readListHere, Expr.readListHere]
  rcases Cursor.take?_move_cases hdecided hfirm d ']' with
    ⟨r, h, h', htake, htake', hr⟩ | ⟨htake, htake'⟩
  · rw [htake, htake']
    exact .done hr fun _ => rfl
  · rw [htake, htake']
    refine Carries.andThen (Expr.carries_primary hfirm false) fun first c₁ h₁ h₁' hc₁ => ?_
    refine Carries.settle (c := c₁) (Nat.le_succ _) fun hdecided => ?_
    rcases Cursor.take?_move_cases hdecided hc₁ d '.' with
      ⟨c₂, h₂, h₂', htake, htake', hc₂⟩ | ⟨htake, htake'⟩
    · rw [htake, htake']
      exact Carries.after (Expr.carries_rangeEnd hc₂ first location) h₂ h₂'
    · rw [htake, htake']
      exact Carries.mapValue (Expr.carries_items hc₁) fun _ => rfl
termination_by 4 * c.size + 3

theorem Expr.carries_rangeEnd {c : Cursor} (hfirm : Text.Firm more c.remaining) (first : Expr)
    (location : Location) :
    Carries d more (Expr.relocate (Location.shift d)) (Expr.readRangeEnd first location c)
      (Expr.readRangeEnd (first.relocate (Location.shift d)) (location.shift d)
        (c.move d more)) := by
  rw [Expr.readRangeEnd, Expr.readRangeEnd]
  refine Carries.andThen (Cursor.carries_require hfirm '.' _) fun _ c₁ h₁ h₁' hc₁ => ?_
  refine Carries.andThen (Expr.carries_primary hc₁ false) fun last c₂ h₂ h₂' hc₂ => ?_
  exact Carries.mapValue (Cursor.carries_require hc₂ ']' _) fun _ => rfl
termination_by 4 * c.size

theorem Expr.carries_items {c : Cursor} (hfirm : Text.Firm more c.remaining) :
    Carries d more (Expr.relocateAll (Location.shift d)) (Expr.readItems c)
      (Expr.readItems (c.move d more)) := by
  refine Carries.settle (c := c) (Nat.le_succ _) fun hdecided => ?_
  rw [Expr.readItems, Expr.readItems]
  rcases Cursor.take?_move_cases hdecided hfirm d ',' with
    ⟨c₁, h₁, h₁', htake, htake', hc₁⟩ | ⟨htake, htake'⟩
  · rw [htake, htake']
    refine Carries.after (Carries.andThen (Expr.carries_primary hc₁ false) ?_) h₁ h₁'
    intro item c₂ h₂ h₂' hc₂
    exact Carries.mapValue (Expr.carries_items hc₂) fun _ => rfl
  · rw [htake, htake']
    exact Carries.mapValue (Cursor.carries_require hfirm ']' _) fun _ => rfl
termination_by 4 * c.size

theorem Reference.carries_required {c : Cursor} (hfirm : Text.Firm more c.remaining) :
    Carries d more (Reference.relocate (Location.shift d)) (Reference.readRequired c)
      (Reference.readRequired (c.move d more)) := by
  refine Carries.settle (c := c) (Nat.le_succ _) fun hdecided => ?_
  rw [Reference.readRequired, Reference.readRequired]
  rcases Cursor.take?_move_cases hdecided hfirm d '!' with
    ⟨c₁, h₁, h₁', htake, htake', hc₁⟩ | ⟨htake, htake'⟩
  · rw [htake, htake']
    exact Carries.after (Reference.carries_braced hc₁ true) h₁ h₁'
  · rw [htake, htake']
    exact Reference.carries_braced hfirm false
termination_by 4 * c.size + 2

theorem Reference.carries_braced {c : Cursor} (hfirm : Text.Firm more c.remaining)
    (silent : Bool) :
    Carries d more (Reference.relocate (Location.shift d)) (Reference.readBraced silent c)
      (Reference.readBraced silent (c.move d more)) := by
  refine Carries.settle (c := c) (Nat.le_succ _) fun hdecided => ?_
  rw [Reference.readBraced, Reference.readBraced]
  rcases Cursor.take?_move_cases hdecided hfirm d '\x7b' with
    ⟨c₁, h₁, h₁', htake, htake', hc₁⟩ | ⟨htake, htake'⟩
  · rw [htake, htake']
    refine Carries.after (Carries.andThen (Reference.carries_named hc₁ silent) ?_) h₁ h₁'
    intro ref c₂ h₂ h₂' hc₂
    exact Carries.mapValue (Cursor.carries_expect hc₂ '\x7d') fun _ => rfl
  · rw [htake, htake']
    exact Reference.carries_named hfirm silent
termination_by 4 * c.size + 1

theorem Reference.carries_named {c : Cursor} (hfirm : Text.Firm more c.remaining)
    (silent : Bool) :
    Carries d more (Reference.relocate (Location.shift d)) (Reference.readNamed silent c)
      (Reference.readNamed silent (c.move d more)) := by
  rw [Reference.readNamed, Reference.readNamed]
  refine Carries.andMaybe (Cursor.carries_identifier hfirm _) fun name c₁ h₁ h₁' hc₁ => ?_
  exact Reference.carries_suffixes hc₁ (.plain name silent c.location)
termination_by 4 * c.size

theorem Reference.carries_suffixes {c : Cursor} (hfirm : Text.Firm more c.remaining)
    (lhs : Reference) :
    Carries d more (Reference.relocate (Location.shift d)) (Reference.readSuffixes lhs c)
      (Reference.readSuffixes (lhs.relocate (Location.shift d)) (c.move d more)) := by
  refine Carries.settle (c := c) (Nat.le_refl _) fun hdecided => ?_
  rw [Reference.readSuffixes, Reference.readSuffixes, Reference.silent_relocate]
  rcases Reference.takeDot?_move_cases hdecided hfirm d with
    ⟨c₁, h₁, h₁', hdot, hdot', hc₁⟩ | ⟨hdot, hdot'⟩
  · rw [hdot, hdot']
    refine Carries.weaken (Carries.after
      (Carries.andMaybe (Cursor.carries_identifier hc₁ _) ?_) h₁ h₁')
    intro name c₂ h₂ h₂' hc₂
    refine Carries.settle (c := c₂) (Nat.le_refl _) fun hdecided => ?_
    rcases Cursor.take?_move_cases hdecided hc₂ d '(' with
      ⟨c₃, h₃, h₃', htake, htake', hc₃⟩ | ⟨htake, htake'⟩
    · rw [htake, htake']
      refine Carries.weaken (Carries.after
        (Carries.andMaybe (Reference.carries_arguments hc₃) ?_) h₃ h₃')
      intro args c₄ h₄ h₄' hc₄
      exact Reference.carries_suffixes hc₄ (.method lhs name args lhs.silent c.location)
    · rw [htake, htake']
      exact Reference.carries_suffixes hc₂ (.member lhs name lhs.silent c.location)
  · rw [hdot, hdot']
    dsimp only
    rcases Cursor.take?_move_cases hdecided hfirm d '[' with
      ⟨c₁, h₁, h₁', htake, htake', hc₁⟩ | ⟨htake, htake'⟩
    · rw [htake, htake']
      refine Carries.weaken (Carries.after
        (Carries.andThen (Expr.carries_primary hc₁ false) ?_) h₁ h₁')
      intro index c₂ h₂ h₂' hc₂
      refine Carries.andMaybe (Cursor.carries_require hc₂ ']' _) fun _ c₃ h₃ h₃' hc₃ => ?_
      exact Reference.carries_suffixes hc₃ (.index lhs index lhs.silent c.location)
    · rw [htake, htake']
      exact .done hfirm fun _ => rfl
termination_by 4 * c.size

theorem Reference.carries_arguments {c : Cursor} (hfirm : Text.Firm more c.remaining) :
    Carries d more (Expr.relocateAll (Location.shift d)) (Reference.readArguments c)
      (Reference.readArguments (c.move d more)) := by
  have hhere := Reference.carries_argumentsHere (Cursor.firm_skipSpace hfirm)
  rw [Reference.readArguments, Reference.readArguments]
  exact Carries.within (Carries.atSpace (Nat.le_succ _) hhere) _ _
termination_by 4 * c.size + 4
decreasing_by
  have := c.size_skipSpace_le
  omega

theorem Reference.carries_argumentsHere {c : Cursor} (hfirm : Text.Firm more c.remaining) :
    Carries d more (Expr.relocateAll (Location.shift d)) (Reference.readArgumentsHere c)
      (Reference.readArgumentsHere (c.move d more)) := by
  refine Carries.settle (c := c) (Nat.le_succ _) fun hdecided => ?_
  rw [Reference.readArgumentsHere, Reference.readArgumentsHere]
  rcases Cursor.take?_move_cases hdecided hfirm d ')' with
    ⟨r, h, h', htake, htake', hr⟩ | ⟨htake, htake'⟩
  · rw [htake, htake']
    exact .done hr fun _ => rfl
  · rw [htake, htake', Cursor.current_move hdecided]
    dsimp only
    split
    · exact .failed rfl fun _ => congrArg Except.error (Cursor.unexpected_move hdecided _)
    · refine Carries.andThen (Expr.carries_primary hfirm true) fun arg c₁ h₁ h₁' hc₁ => ?_
      refine Carries.settle (c := c₁) (Nat.le_succ _) fun hdecided => ?_
      rcases Cursor.take?_move_cases hdecided hc₁ d ',' with
        ⟨c₂, h₂, h₂', htake, htake', hc₂⟩ | ⟨htake, htake'⟩
      · rw [htake, htake']
        dsimp only
        by_cases hspace : Text.Decided more c₂.skipSpace.remaining
        · rw [Cursor.skipSpace_move hspace, Cursor.current_move hspace]
          split
          · exact .failed rfl fun _ => congrArg Except.error (Cursor.unexpected_move hspace _)
          · refine Carries.after (Carries.mapValue (Reference.carries_arguments hc₂) ?_) h₂ h₂'
            exact fun _ => rfl
        · -- Nothing but blanks follows the comma, and more text may follow them.
          have hend : c₂.skipSpace.current ≠ some ')' := by
            rw [Cursor.current, not_not.mp (not_or.mp hspace).2]
            exact nofun
          have hread : (((Reference.readArguments c₂).mapValue fun args => arg :: args).after
              h₂ : Attempt (Parsed c₁.size _)).outcome
              = ((Reference.readArgumentsHere c₂.skipSpace).mapValue fun args =>
                arg :: args).outcome := by
            rw [outcome_after, outcome_mapValue, outcome_mapValue, Reference.readArguments,
              outcome_within]
          rw [if_neg hend]
          exact Carries.of_outcome hread rfl
            (Carries.settle (c := c₂.skipSpace) (Nat.le_succ _) fun h => absurd h hspace)
      · rw [htake, htake']
        exact Carries.mapValue (Reference.carries_argumentsHere hc₁) fun _ => rfl
termination_by 4 * c.size + 3

end

/-!
## Chains
-/

namespace Operator

theorem longest?_of_seal {x : Char} (hx : x ∈ Text.seals) (next : Option Char) :
    startingWith x = [] ∧ longest? x next = none := by
  have hstart : startingWith x = [] := by
    simp only [Text.seals, List.mem_cons, List.not_mem_nil, or_false] at hx
    rcases hx with rfl | rfl | rfl | rfl <;> decide
  refine ⟨hstart, ?_⟩
  rw [longest?, hstart]
  rfl

theorem read_move_cases (hdecided : Text.Decided more c.remaining)
    (hfirm : Text.Firm more c.remaining) (d : Nat) :
    (∃ op r h h', read c = .ok (some ⟨op, r, h⟩)
      ∧ read (c.move d more) = .ok (some ⟨op, r.move d more, h'⟩) ∧ Text.Firm more r.remaining)
    ∨ (read c = .ok none ∧ read (c.move d more) = .ok none)
    ∨ ∃ e, read c = .error e ∧ (more = [] -> read (c.move d more) = .error (e.shift d)) := by
  rw [read, read]
  rcases Cursor.next?_move_cases hdecided hfirm d with
    ⟨x, r, h, h', hnext, hnext', hr⟩ | ⟨hnext, hnext'⟩
  · rw [hnext, hnext']
    dsimp only
    by_cases hrest : Text.Decided more r.remaining
    · rw [Cursor.current_move hrest]
      cases longest? x r.current with
      | some op =>
          by_cases hlength : op.length = 2
          · refine Or.inl ⟨op, r.advance, _, ?_, if_pos hlength, ?_,
              hr.of_suffix (Cursor.advance_suffix r)⟩
            · rw [← Cursor.advance_move_of_decided hrest]
              exact Nat.lt_of_le_of_lt (Cursor.size_advance_le _) h'
            · refine (if_pos hlength).trans (congrArg (fun p => Except.ok (some p)) ?_)
              exact Parsed.eq_of rfl (Cursor.advance_move_of_decided hrest)
          · exact Or.inl ⟨op, r, h, h', if_neg hlength, if_neg hlength, hr⟩
      | none =>
          by_cases hstart : startingWith x = []
          · exact Or.inr (Or.inl ⟨if_pos hstart, if_pos hstart⟩)
          · refine Or.inr (Or.inr ⟨_, if_neg hstart, fun _ => (if_neg hstart).trans ?_⟩)
            exact congrArg Except.error (Cursor.fail_move _ rfl)
    · have hseal : x ∈ Text.seals := by
        by_contra hx
        exact hrest (Cursor.decided_of_passes hfirm (Cursor.passes_of_next? hnext) hx)
      refine Or.inr (Or.inl ⟨?_, ?_⟩)
      · rw [(longest?_of_seal hseal _).2]
        exact if_pos (longest?_of_seal hseal none).1
      · rw [(longest?_of_seal hseal _).2]
        exact if_pos (longest?_of_seal hseal none).1
  · rw [hnext, hnext']
    exact Or.inr (Or.inl ⟨rfl, rfl⟩)

end Operator

def Expr.relocateLinks (f : Location → Location) (links : List (Operator × Expr)) :
    List (Operator × Expr) :=
  links.map fun link => (link.1, link.2.relocate f)

theorem Grouping.relocate_ofChain (f : Location → Location) (first : Expr)
    (links : List (Operator × Expr)) :
    (ofChain first links).toExpr.relocate f
      = (ofChain (first.relocate f) (Expr.relocateLinks f links)).toExpr := by
  rw [relocate_toExpr, map_ofChain]
  rfl

mutual

theorem Expr.carries {c : Cursor} (hfirm : Text.Firm more c.remaining) :
    Carries d more (Expr.relocate (Location.shift d)) (Expr.read c)
      (Expr.read (c.move d more)) := by
  rw [Expr.read, Expr.read]
  refine Carries.andMaybe (Expr.carries_unary hfirm) fun first c₁ h₁ h₁' hc₁ => ?_
  refine Carries.mapValue (Expr.carries_links hc₁) fun links => ?_
  exact (Grouping.relocate_ofChain _ first links).symm
termination_by 3 * c.size + 2

theorem Expr.carries_unary {c : Cursor} (hfirm : Text.Firm more c.remaining) :
    Carries d more (Expr.relocate (Location.shift d)) (Expr.readUnary c)
      (Expr.readUnary (c.move d more)) := by
  have hhere := Expr.carries_unaryHere (Cursor.firm_skipSpace hfirm)
  rw [Expr.readUnary, Expr.readUnary]
  exact Carries.skipSpace (Carries.within (Carries.atSpace (Nat.le_succ _) hhere) _ _)
termination_by 3 * c.size + 1
decreasing_by
  have := c.size_skipSpace_le
  omega

theorem Expr.carries_unaryHere {c : Cursor} (hfirm : Text.Firm more c.remaining) :
    Carries d more (Expr.relocate (Location.shift d)) (Expr.readUnaryHere c)
      (Expr.readUnaryHere (c.move d more)) := by
  refine Carries.settle (c := c) (Nat.le_succ _) fun hdecided => ?_
  rw [Expr.readUnaryHere, Expr.readUnaryHere]
  rcases Cursor.take?_move_cases hdecided hfirm d '(' with
    ⟨c₁, h₁, h₁', htake, htake', hc₁⟩ | ⟨htake, htake'⟩
  · rw [htake, htake']
    refine Carries.after (Carries.andThen (Expr.carries hc₁) ?_) h₁ h₁'
    intro inner c₂ h₂ h₂' hc₂
    exact Carries.mapValue (Cursor.carries_expect hc₂ ')') fun _ => rfl
  · rw [htake, htake']
    dsimp only
    rcases Cursor.take?_move_cases hdecided hfirm d '!' with
      ⟨c₁, h₁, h₁', htake, htake', hc₁⟩ | ⟨htake, htake'⟩
    · rw [htake, htake']
      refine Carries.after (Carries.mapValue (Expr.carries_unary hc₁) ?_) h₁ h₁'
      exact fun _ => rfl
    · rw [htake, htake']
      exact Expr.carries_primary hfirm false
termination_by 3 * c.size

theorem Expr.carries_links {c : Cursor} (hfirm : Text.Firm more c.remaining) :
    Carries d more (Expr.relocateLinks (Location.shift d)) (Expr.readLinks c)
      (Expr.readLinks (c.move d more)) := by
  have hhere := Expr.carries_linksHere (Cursor.firm_skipSpace hfirm)
  rw [Expr.readLinks, Expr.readLinks]
  exact Carries.afterSpace (Carries.atSpace (Nat.le_refl _) hhere)
termination_by 3 * c.size + 1
decreasing_by
  have := c.size_skipSpace_le
  omega

theorem Expr.carries_linksHere {c : Cursor} (hfirm : Text.Firm more c.remaining) :
    Carries d more (Expr.relocateLinks (Location.shift d)) (Expr.readLinksHere c)
      (Expr.readLinksHere (c.move d more)) := by
  refine Carries.settle (c := c) (Nat.le_refl _) fun hdecided => ?_
  rw [Expr.readLinksHere, Expr.readLinksHere]
  rcases Operator.read_move_cases hdecided hfirm d with
    ⟨op, c₁, h₁, h₁', hread, hread', hc₁⟩ | ⟨hread, hread'⟩ | ⟨e, hread, hread'⟩
  · rw [hread, hread']
    refine Carries.weaken (Carries.after (Carries.andMaybe (Expr.carries_unary hc₁) ?_) h₁ h₁')
    intro operand c₂ h₂ h₂' hc₂
    exact Carries.mapValue (Expr.carries_links hc₂) fun _ => rfl
  · rw [hread, hread']
    exact .done hfirm fun _ => rfl
  · rw [hread]
    refine .failed rfl fun hmore => ?_
    rw [hread' hmore]
termination_by 3 * c.size

end

end

end Stencil
