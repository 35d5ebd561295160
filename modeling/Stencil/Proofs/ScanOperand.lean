import Stencil.Expr.Primary
import Stencil.Proofs.Scanner

/-!
# Scanning references and literals

The operands of expressions as the parser scans them, each compared with its reader.  The fuel that
a scan needs grows with the text in front of it: four units for each character, and a few for the
calls that come before the next character is taken.
-/

namespace Stencil

namespace Scan

/-!
## The scans

Each of them starts where its reader does: behind the mark that has told what comes.
-/

def integer (sign : List Char) (location : Location) (fuel : Nat) : Scan Literal := do
  let numeral := sign ++ (← collect Char.isDigit fuel)
  match Integer.ofText? numeral with
  | some n => return .int n
  | none => reject ⟨.invalidInteger (String.ofList numeral), location⟩

def keyword (nullAllowed : Bool) (location : Location) (fuel : Nat) : Scan Literal := do
  let name ← identifier "identifier without $" fuel
  match Literal.ofKeyword? nullAllowed name with
  | some value => return value
  | none => reject ⟨.bareIdentifier name nullAllowed, location⟩

mutual

def primary (nullAllowed : Bool) : Nat → Scan Expr
  | 0 => exhaust
  | fuel + 1 => do
      skipSpace fuel
      let expr ← operand nullAllowed fuel
      skipSpace fuel
      return expr

def operand (nullAllowed : Bool) : Nat → Scan Expr
  | 0 => exhaust
  | fuel + 1 => do
      let location ← location
      match ← current with
      | none => unexpected "a reference or a literal"
      | some x =>
          if x = '$' then
            advance
            return .ofReference (← requiredReference fuel)
          else if x = '"' ∨ x = '\'' then
            fail (.unsupported "string literals")
          else if x = '-' then
            advance
            return .literal (← integer ['-'] location fuel) location
          else if x = '[' then
            advance
            list location fuel
          else if x.isDigit then
            return .literal (← integer [] location fuel) location
          else if x.isAlpha then
            return .literal (← keyword nullAllowed location fuel) location
          else
            unexpected "a reference or a literal"

def list (location : Location) : Nat → Scan Expr
  | 0 => exhaust
  | fuel + 1 => do
      skipSpace fuel
      if ← take ']' then
        return .list [] location
      else
        let first ← primary false fuel
        if ← take '.' then
          range first location fuel
        else
          let items ← items fuel
          return .list (first :: items) location

def range (first : Expr) (location : Location) : Nat → Scan Expr
  | 0 => exhaust
  | fuel + 1 => do
      require '.' "two dots (..) in range literal"
      skipSpace fuel
      let last ← primary false fuel
      require ']' "`]` at end of range literal"
      return .range first last location

def items : Nat → Scan (List Expr)
  | 0 => exhaust
  | fuel + 1 => do
      if ← take ',' then
        let item ← primary false fuel
        let others ← items fuel
        return item :: others
      else
        require ']' "`]` at end of list literal"
        return []

def requiredReference : Nat → Scan Reference
  | 0 => exhaust
  | fuel + 1 => do
      let silent ← take '!'
      bracedReference silent fuel

def bracedReference (silent : Bool) : Nat → Scan Reference
  | 0 => exhaust
  | fuel + 1 => do
      if ← take '\x7b' then
        let ref ← namedReference silent fuel
        expect '\x7d' fuel
        return ref
      else
        namedReference silent fuel

def namedReference (silent : Bool) : Nat → Scan Reference
  | 0 => exhaust
  | fuel + 1 => do
      let location ← location
      let name ← identifier "reference" fuel
      suffixes (.plain name silent location) fuel

/-- The links of a reference.  A dot in front of anything but a letter is put back. -/
def suffixes (lhs : Reference) : Nat → Scan Reference
  | 0 => exhaust
  | fuel + 1 => do
      let location ← location
      if ← take '.' then
        if ← atLetter then
          let name ← identifier "member" fuel
          if ← take '(' then
            let args ← arguments fuel
            suffixes (.method lhs name args lhs.silent location) fuel
          else
            suffixes (.member lhs name lhs.silent location) fuel
        else
          pushBack '.'
          return lhs
      else if ← take '[' then
        let index ← primary false fuel
        require ']' "`]`"
        suffixes (.index lhs index lhs.silent location) fuel
      else
        return lhs

def arguments : Nat → Scan (List Expr)
  | 0 => exhaust
  | fuel + 1 => do
      skipSpace fuel
      argumentList fuel

def argumentList : Nat → Scan (List Expr)
  | 0 => exhaust
  | fuel + 1 => do
      if ← take ')' then
        return []
      else if (← current) = none then
        unexpected "`)` to close the argument list"
      else
        let arg ← primary true fuel
        if ← take ',' then
          skipSpace fuel
          if (← current) = some ')' then
            unexpected "an argument after `,`"
          else
            let others ← argumentList fuel
            return arg :: others
        else
          let others ← argumentList fuel
          return arg :: others

end

/-!
## Agreement

The induction is on the fuel.
-/

variable {s : Scanner} {fuel : Nat}

theorem agrees_integer {c : Cursor} {sign : List Char} (hinteger : Literal.atInteger c = true)
    (hsign : sign = if c.current = some '-' then ['-'] else []) (hrest : s.cursor = c.accept '-')
    (ready : s.Ready) (hfuel : s.cursor.size < fuel) :
    Agrees (integer sign c.location fuel) s (Literal.readInteger c hinteger) := by
  rcases run_collect Char.isDigit fuel s ready hfuel with ⟨s', hrun, hs', ready'⟩
  have hnumeral : sign ++ s.cursor.takeWhile Char.isDigit = Literal.numeral c := by
    rw [hsign, hrest]
    rfl
  refine .step hrun ?_
  rw [hnumeral, Literal.readInteger]
  dsimp only
  cases Integer.ofText? (Literal.numeral c) with
  | none => exact .reject _
  | some n => exact .ok rfl (hs'.trans (congrArg (Cursor.dropWhile Char.isDigit) hrest)) ready'

theorem agrees_integer_signed {c₁ : Cursor} {hlt : c₁.size < s.cursor.size}
    (hinteger : Literal.atInteger s.cursor = true) (hnext : s.cursor.next? = some ⟨'-', c₁, hlt⟩)
    (ready : s.Ready) (hfuel : s.cursor.size < fuel) :
    Agrees (do advance; integer ['-'] s.location fuel) s
      (Literal.readInteger s.cursor hinteger) := by
  rcases Cursor.eq_of_next? hnext with ⟨hcurrent, hc₁⟩
  refine .advance ready hnext fun s₁ hs₁ ready₁ => ?_
  refine agrees_integer hinteger (if_pos hcurrent).symm ?_ ready₁ ?_
  · rw [Cursor.accept_of_current hcurrent, hs₁, hc₁]
  · rw [hs₁]
    exact Nat.lt_trans hlt hfuel

theorem agrees_integer_unsigned (hinteger : Literal.atInteger s.cursor = true)
    (hcurrent : s.cursor.current ≠ some '-') (ready : s.Ready) (hfuel : s.cursor.size < fuel) :
    Agrees (integer [] s.location fuel) s (Literal.readInteger s.cursor hinteger) :=
  agrees_integer hinteger (if_neg hcurrent).symm (Cursor.accept_of_ne hcurrent).symm ready hfuel

theorem outcome_readPrimary_skipSpace (nullAllowed : Bool) (c : Cursor) :
    (Expr.readPrimary nullAllowed c.skipSpace).outcome
      = (Expr.readPrimary nullAllowed c).outcome := by
  rw [Expr.readPrimary, Expr.readPrimary, Attempt.outcome_skipSpace, Attempt.outcome_skipSpace,
    Attempt.outcome_within, Attempt.outcome_within, Cursor.skipSpace_skipSpace]

theorem agrees_keyword (nullAllowed : Bool) (ready : s.Ready) (hfuel : s.cursor.size < fuel) :
    Agrees (keyword nullAllowed s.location fuel) s
      (Literal.readKeyword nullAllowed s.cursor) := by
  have hname := agrees_identifier "identifier without $" ready hfuel
  rw [Literal.readKeyword]
  split
  · next e heq =>
      rw [heq] at hname
      exact bind_of_error hname
  · next name rest hlt heq =>
      rw [heq] at hname
      rcases hname with ⟨s', hrun, hrest, ready'⟩
      refine .step hrun ?_
      cases Literal.ofKeyword? nullAllowed name with
      | none => exact .reject _
      | some value => exact .ok rfl hrest ready'

mutual

theorem agrees_primary (nullAllowed : Bool) : ∀ (fuel : Nat) (s : Scanner), s.Ready ->
    4 * s.cursor.size + 3 < fuel ->
    Agrees (primary nullAllowed fuel) s (Expr.readPrimary nullAllowed s.cursor)
  | 0, _, _, hfuel => absurd hfuel (Nat.not_lt_zero _)
  | fuel + 1, s, ready, hfuel => by
      have hle := s.cursor.size_skipSpace_le
      rw [primary, Expr.readPrimary]
      refine .skipSpace ready (by omega) fun s₁ hs₁ ready₁ => ?_
      refine .thenSkipSpace (.within ?_ _) (Attempt.mapValue_id _).symm (by omega)
      rw [← hs₁] at hle ⊢
      exact agrees_operand nullAllowed fuel s₁ ready₁ (by omega)

theorem agrees_operand (nullAllowed : Bool) : ∀ (fuel : Nat) (s : Scanner), s.Ready ->
    4 * s.cursor.size + 2 < fuel ->
    Agrees (operand nullAllowed fuel) s (Expr.readOperand nullAllowed s.cursor)
  | 0, _, _, hfuel => absurd hfuel (Nat.not_lt_zero _)
  | fuel + 1, s, ready, hfuel => by
      rw [Expr.readOperand]
      split
      · next hnext =>
          rw [operand]
          exact .step rfl (.current_none ready hnext (agrees_unexpected _ ready))
      · next x c₁ h₁ hnext =>
          rw [operand]
          refine .step rfl (.current_some ready hnext ?_)
          dsimp only
          have hcurrent := (Cursor.eq_of_next? hnext).1
          by_cases hdollar : x = '$'
          · rw [if_pos hdollar, if_pos hdollar]
            refine .advance ready hnext ?_
            rintro s₁ rfl ready₁
            exact ((agrees_required fuel s₁ ready₁ (by omega)).after _).mapValue
          rw [if_neg hdollar, if_neg hdollar]
          by_cases hquote : x = '"' ∨ x = '\''
          · rw [if_pos hquote, if_pos hquote]
            rfl
          rw [if_neg hquote, if_neg hquote]
          by_cases hsign : x = '-'
          · cases hsign
            have hinteger : Literal.atInteger s.cursor = true := by
              rw [Literal.atInteger, hcurrent]
              rfl
            rw [if_pos rfl, dif_pos hinteger, ← bind_assoc]
            exact (agrees_integer_signed hinteger hnext ready (by omega)).mapValue
          have hplain : s.cursor.current ≠ some '-' := by
            rw [hcurrent]
            exact fun h => hsign (Option.some.inj h)
          have hinteger : Literal.atInteger s.cursor = x.isDigit := by
            rw [Literal.atInteger, hcurrent, Option.any_some, decide_eq_false hsign, Bool.false_or]
          rw [if_neg hsign]
          by_cases hbracket : x = '['
          · cases hbracket
            rw [if_pos rfl, if_pos rfl, dif_neg (hinteger ▸ by decide)]
            refine .advance ready hnext ?_
            rintro s₁ rfl ready₁
            exact (agrees_list s.location fuel s₁ ready₁ (by omega)).after _
          rw [if_neg hbracket, if_neg hbracket]
          by_cases hdigit : x.isDigit = true
          · rw [if_pos hdigit, dif_pos (hinteger.trans hdigit)]
            exact (agrees_integer_unsigned _ hplain ready (by omega)).mapValue
          rw [if_neg hdigit, dif_neg (hinteger ▸ hdigit)]
          by_cases hletter : x.isAlpha = true
          · rw [if_pos hletter, if_pos hletter]
            exact (agrees_keyword nullAllowed ready (by omega)).mapValue
          · rw [if_neg hletter, if_neg hletter]
            exact agrees_unexpected _ ready

theorem agrees_list (location : Location) : ∀ (fuel : Nat) (s : Scanner), s.Ready ->
    4 * s.cursor.size + 5 < fuel ->
    Agrees (list location fuel) s (Expr.readList location s.cursor)
  | 0, _, _, hfuel => absurd hfuel (Nat.not_lt_zero _)
  | fuel + 1, s, ready, hfuel => by
      have hle := s.cursor.size_skipSpace_le
      rw [Expr.readList, list]
      refine .skipSpace ready (by omega) fun s₁ hs₁ ready₁ => .within ?_ _
      rw [← hs₁] at hle ⊢
      rw [Expr.readListHere]
      split
      · next c₂ h₂ htake =>
          refine .take_some ready₁ htake ?_
          rintro s₂ rfl ready₂ _
          exact .ok rfl rfl ready₂
      · next htake =>
          refine .take_none ready₁ htake ?_
          refine (agrees_primary false fuel s₁ ready₁ (by omega)).andThen
            fun first s₂ h₂ ready₂ => ?_
          split
          · next c₃ h₃ hdot =>
              refine .take_some ready₂ hdot ?_
              rintro s₃ rfl ready₃ _
              exact (agrees_range first location fuel s₃ ready₃ (by omega)).after _
          · next hdot =>
              refine .take_none ready₂ hdot ?_
              exact (agrees_items fuel s₂ ready₂ (by omega)).mapValue

theorem agrees_range (first : Expr) (location : Location) : ∀ (fuel : Nat) (s : Scanner), s.Ready ->
    4 * s.cursor.size + 1 < fuel ->
    Agrees (range first location fuel) s (Expr.readRangeEnd first location s.cursor)
  | 0, _, _, hfuel => absurd hfuel (Nat.not_lt_zero _)
  | fuel + 1, s, ready, hfuel => by
      rw [range, Expr.readRangeEnd]
      refine (agrees_require '.' _ ready).andThen fun _ s₁ h₁ ready₁ => ?_
      rw [← bind_assoc]
      have hskip : Agrees (do skipSpace fuel; primary false fuel) s₁
          (Expr.readPrimary false s₁.cursor) := by
        refine .spaced (outcome_readPrimary_skipSpace false s₁.cursor) ready₁ (by omega) ?_
        intro s₂ ready₂ hle
        exact agrees_primary false fuel s₂ ready₂ (by omega)
      refine hskip.andThen fun last s₂ h₂ ready₂ => ?_
      exact (agrees_require ']' _ ready₂).mapValue

theorem agrees_items : ∀ (fuel : Nat) (s : Scanner), s.Ready -> 4 * s.cursor.size + 1 < fuel ->
    Agrees (items fuel) s (Expr.readItems s.cursor)
  | 0, _, _, hfuel => absurd hfuel (Nat.not_lt_zero _)
  | fuel + 1, s, ready, hfuel => by
      rw [items, Expr.readItems]
      split
      · next c₁ h₁ htake =>
          refine .take_some ready htake ?_
          rintro s₁ rfl ready₁ _
          refine .after ?_ _
          refine (agrees_primary false fuel s₁ ready₁ (by omega)).andThen
            fun item s₂ h₂ ready₂ => ?_
          exact (agrees_items fuel s₂ ready₂ (by omega)).mapValue
      · next htake => exact .take_none ready htake (agrees_require ']' _ ready).mapValue

theorem agrees_required : ∀ (fuel : Nat) (s : Scanner), s.Ready -> 4 * s.cursor.size + 3 < fuel ->
    Agrees (requiredReference fuel) s (Reference.readRequired s.cursor)
  | 0, _, _, hfuel => absurd hfuel (Nat.not_lt_zero _)
  | fuel + 1, s, ready, hfuel => by
      rw [requiredReference, Reference.readRequired]
      split
      · next c₁ h₁ htake =>
          refine .take_some ready htake ?_
          rintro s₁ rfl ready₁ _
          exact (agrees_braced true fuel s₁ ready₁ (by omega)).after _
      · next htake =>
          exact .take_none ready htake (agrees_braced false fuel s ready (by omega))

theorem agrees_braced (silent : Bool) : ∀ (fuel : Nat) (s : Scanner), s.Ready ->
    4 * s.cursor.size + 2 < fuel ->
    Agrees (bracedReference silent fuel) s (Reference.readBraced silent s.cursor)
  | 0, _, _, hfuel => absurd hfuel (Nat.not_lt_zero _)
  | fuel + 1, s, ready, hfuel => by
      rw [bracedReference, Reference.readBraced]
      split
      · next c₁ h₁ htake =>
          refine .take_some ready htake ?_
          rintro s₁ rfl ready₁ _
          refine .after ?_ _
          refine (agrees_named silent fuel s₁ ready₁ (by omega)).andThen fun ref s₂ h₂ ready₂ => ?_
          exact (agrees_expect '\x7d' ready₂ (by omega)).mapValue
      · next htake => exact .take_none ready htake (agrees_named silent fuel s ready (by omega))

theorem agrees_named (silent : Bool) : ∀ (fuel : Nat) (s : Scanner), s.Ready ->
    4 * s.cursor.size + 1 < fuel ->
    Agrees (namedReference silent fuel) s (Reference.readNamed silent s.cursor)
  | 0, _, _, hfuel => absurd hfuel (Nat.not_lt_zero _)
  | fuel + 1, s, ready, hfuel => by
      rw [namedReference, Reference.readNamed]
      refine .step rfl ?_
      refine (agrees_identifier _ ready (by omega)).andMaybe fun name s₁ h₁ ready₁ => ?_
      exact agrees_suffixes _ fuel s₁ ready₁ (by omega)

theorem agrees_suffixes (lhs : Reference) : ∀ (fuel : Nat) (s : Scanner), s.Ready ->
    4 * s.cursor.size + 1 < fuel ->
    Agrees (suffixes lhs fuel) s (Reference.readSuffixes lhs s.cursor)
  | 0, _, _, hfuel => absurd hfuel (Nat.not_lt_zero _)
  | fuel + 1, s, ready, hfuel => by
      rw [suffixes, Reference.readSuffixes]
      refine .step rfl ?_
      cases hdot : s.cursor.take? '.' with
      | some p =>
          rcases p with ⟨c₁, h₁⟩
          refine .take_some ready hdot ?_
          rintro s₁ rfl ready₁ hfree
          refine .step (run_atLetter ready₁) ?_
          by_cases hletter : s₁.cursor.atLetter = true
          · rw [show Reference.takeDot? s.cursor = some ⟨s₁.cursor, h₁⟩ by
              rw [Reference.takeDot?, hdot]
              exact if_pos hletter]
            dsimp only
            rw [if_pos hletter]
            refine .weaken (.after ?_ _)
            refine (agrees_identifier _ ready₁ (by omega)).andMaybe fun name s₂ h₂ ready₂ => ?_
            split
            · next c₃ h₃ htake =>
                refine .take_some ready₂ htake ?_
                rintro s₃ rfl ready₃ _
                refine .weaken (.after ?_ _)
                refine (agrees_arguments fuel s₃ ready₃ (by omega)).andMaybe
                  fun args s₄ h₄ ready₄ => ?_
                exact agrees_suffixes _ fuel s₄ ready₄ (by omega)
            · next htake =>
                exact .take_none ready₂ htake (agrees_suffixes _ fuel s₂ ready₂ (by omega))
          · have hcurrent := Cursor.current_eq_of_take? hdot
            rw [show Reference.takeDot? s.cursor = none by
              rw [Reference.takeDot?, hdot]
              exact if_neg hletter]
            have hbracket : s.cursor.take? '[' = none := by
              rw [Cursor.take?_of_ne]
              rw [hcurrent]
              decide
            rcases run_pushBack ready hcurrent (by decide) (Cursor.eq_advance_of_take? hdot) hfree
              with ⟨s₂, hrun, hs₂, ready₂⟩
            rw [hbracket]
            dsimp only
            rw [if_neg hletter]
            exact .step hrun (.ok rfl hs₂ ready₂)
      | none =>
          rw [show Reference.takeDot? s.cursor = none by rw [Reference.takeDot?, hdot]]
          dsimp only
          split
          · next c₁ h₁ htake =>
              refine .take_none ready hdot (.take_some ready htake ?_)
              rintro s₁ rfl ready₁ _
              refine .weaken (.after ?_ _)
              refine (agrees_primary false fuel s₁ ready₁ (by omega)).andThen
                fun index s₂ h₂ ready₂ => ?_
              refine (agrees_require ']' _ ready₂).andMaybe fun _ s₃ h₃ ready₃ => ?_
              exact agrees_suffixes _ fuel s₃ ready₃ (by omega)
          · next htake =>
              exact .take_none ready hdot (.take_none ready htake (.ok rfl rfl ready))

theorem agrees_arguments : ∀ (fuel : Nat) (s : Scanner), s.Ready -> 4 * s.cursor.size + 5 < fuel ->
    Agrees (arguments fuel) s (Reference.readArguments s.cursor)
  | 0, _, _, hfuel => absurd hfuel (Nat.not_lt_zero _)
  | fuel + 1, s, ready, hfuel => by
      have hle := s.cursor.size_skipSpace_le
      rw [arguments, Reference.readArguments]
      refine .skipSpace ready (by omega) fun s₁ hs₁ ready₁ => .within ?_ _
      rw [← hs₁] at hle ⊢
      exact agrees_argumentList fuel s₁ ready₁ (by omega)

theorem agrees_argumentList : ∀ (fuel : Nat) (s : Scanner), s.Ready ->
    4 * s.cursor.size + 4 < fuel ->
    Agrees (argumentList fuel) s (Reference.readArgumentsHere s.cursor)
  | 0, _, _, hfuel => absurd hfuel (Nat.not_lt_zero _)
  | fuel + 1, s, ready, hfuel => by
      rw [argumentList, Reference.readArgumentsHere]
      split
      · next c₁ h₁ htake =>
          refine .take_some ready htake ?_
          rintro s₁ rfl ready₁ _
          exact .ok rfl rfl ready₁
      · next htake =>
          refine .take_none ready htake (.step rfl ?_)
          rw [← ready.current_eq]
          by_cases hend : s.cursor.current = none
          · rw [if_pos hend, if_pos hend]
            exact agrees_unexpected _ ready
          rw [if_neg hend, if_neg hend]
          refine (agrees_primary true fuel s ready (by omega)).andThen fun arg s₁ h₁ ready₁ => ?_
          split
          · next c₂ h₂ hcomma =>
              refine .take_some ready₁ hcomma ?_
              rintro s₂ rfl ready₂ _
              refine .skipSpace ready₂ (by omega) fun s₃ hs₃ ready₃ => .step rfl ?_
              have hle := s₂.cursor.size_skipSpace_le
              rw [← hs₃] at hle
              rw [← ready₃.current_eq, ← hs₃]
              by_cases hclose : s₃.cursor.current = some ')'
              · rw [if_pos hclose, if_pos hclose]
                exact agrees_unexpected _ ready₃
              rw [if_neg hclose, if_neg hclose, Reference.readArguments]
              refine .after (.mapValue (.within ?_ _)) _
              rw [← hs₃]
              exact agrees_argumentList fuel s₃ ready₃ (by omega)
          · next hcomma =>
              refine .take_none ready₁ hcomma ?_
              exact (agrees_argumentList fuel s₁ ready₁ (by omega)).mapValue

end

end Scan

end Stencil
