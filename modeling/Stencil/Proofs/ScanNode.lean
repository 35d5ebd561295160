import Stencil.Proofs.Joining
import Stencil.Proofs.ScanChain
import Stencil.Template

/-!
# Scanning nodes

The parser on the level of nodes.  A block comment is closed by a hash sign behind an asterisk, so
the scan remembers one character; a quoted block is closed by a hash sign when what has been
collected ends in brackets, which are cut off afterwards.  Both find the first occurrence of the
closing mark.
-/

namespace Stencil

namespace Scan

/-!
## Texts and opaque regions

The scans start behind the characters that open a region, a line comment in front of the second one.
-/

def text (opening : List Char) (location : Location) (fuel : Nat) : Scan Node := do
  let more ← collect Text.isPlain fuel
  return .text (String.ofList (opening ++ more)) location

def lineComment (location : Location) (fuel : Nat) : Scan Node := do
  let _ ← collect (fun x => x != '\n') fuel
  advance
  return .comment location

/-- Goes on to the character that closes a block comment, `last` being the one before. -/
def skipComment (last : Option Char) : Nat → Scan Unit
  | 0 => exhaust
  | fuel + 1 => do
      match ← current with
      | none => return
      | some x =>
          if last = some '*' ∧ x = '#' then
            return
          else
            advance
            skipComment (some x) fuel

def blockComment (location : Location) (fuel : Nat) : Scan Node := do
  skipComment none fuel
  advance
  return .comment location

def quotation (location : Location) (content : List Char) : Nat → Scan (List Char)
  | 0 => exhaust
  | fuel + 1 => do
      match ← current with
      | none => reject ⟨.unterminatedQuotedBlock, location⟩
      | some x =>
          advance
          if x = '#' ∧ [']', ']'] <:+ content then
            return content
          else
            quotation location (content ++ [x]) fuel

/-- What is left of a text without its first `n` bytes, which have to be whole characters. -/
def dropBytes? : Nat → List Char → Option (List Char)
  | 0, cs => some cs
  | _, [] => none
  | n, x :: rest => if x.utf8Size ≤ n then dropBytes? (n - x.utf8Size) rest else none

def truncate (n : Nat) (content : List Char) : Scan (List Char) :=
  match dropBytes? n content.reverse with
  | some rest => return rest.reverse
  | none => crash .cutTooLong

def quotedBlock (location : Location) (fuel : Nat) : Scan Node := do
  let content ← truncate 2 (← quotation location [] fuel)
  return .text (String.ofList content) location

def hash (location : Location) (fuel : Nat) : Scan Node := do
  if (← current) = some '#' then
    lineComment location fuel
  else if ← take '*' then
    blockComment location fuel
  else if ← take '[' then
    if ← take '[' then
      quotedBlock location fuel
    else
      text ['#', '['] location fuel
  else
    text ['#'] location fuel

/-!
## References in text
-/

def output (silent : Bool) (opening : List Char) (location : Location) (fuel : Nat) :
    Scan Node := do
  if ← take '\x7b' then
    if ← atLetter then
      let ref ← namedReference silent fuel
      expect '\x7d' fuel
      return .output (.ofReference ref) location
    else
      text (opening ++ ['\x7b']) location fuel
  else if ← atLetter then
    let ref ← namedReference silent fuel
    return .output (.ofReference ref) location
  else
    text opening location fuel

def dollar (location : Location) (fuel : Nat) : Scan Node := do
  if ← take '!' then
    output true ['$', '!'] location fuel
  else
    output false ['$'] location fuel

/-!
## Heads
-/

def skipNewline : Scan Unit := do
  let _ ← take '\n'
  return

def directiveName (fuel : Nat) : Scan String := do
  if ← take '\x7b' then
    let name ← identifier "directive inside #\x7b...\x7d" fuel
    expect '\x7d' fuel
    return name
  else
    identifier "directive" fuel

def set (location : Location) (fuel : Nat) : Scan Node := do
  expect '(' fuel
  expect '$' fuel
  let name ← identifier "#set variable" fuel
  expect '=' fuel
  let value ← expression fuel
  expect ')' fuel
  skipNewline
  return .set name value location

def call (name : String) (location : Location) (fuel : Nat) : Scan Node := do
  skipSpace fuel
  require '(' ("`(` after macro name #" ++ name)
  let args ← arguments fuel
  skipNewline
  return .macroCall name args location

def inKeyword : Scan Unit := do
  require 'i' "`in` after the #foreach variable"
  require 'n' "`in` after the #foreach variable"

def loopHead (fuel : Nat) : Scan (String × Expr) := do
  expect '(' fuel
  expect '$' fuel
  let name ← identifier "#foreach variable" fuel
  skipSpace fuel
  inKeyword
  let collection ← expression fuel
  expect ')' fuel
  skipNewline
  return (name, collection)

def condition (fuel : Nat) : Scan Expr := do
  expect '(' fuel
  let condition ← expression fuel
  expect ')' fuel
  skipNewline
  return condition

/-!
## Pieces and bodies
-/

structure Stopped where
  nodes : List Node
  stop : Stop
  location : Location

def Stopped.ofBody (body : Body construct) : Stopped :=
  ⟨body.nodes, body.stop, body.location⟩

def atDirective : Scan Bool := do
  let c ← current
  return c = some '\x7b' || c.any Char.isAlpha

mutual

def piece : Nat → Scan Piece
  | 0 => exhaust
  | fuel + 1 => do
      let location ← location
      match ← current with
      | none => return .stop .endOfFile location
      | some x =>
          advance
          if x = '$' then
            return .node (← dollar location fuel)
          else if x = '#' then
            if ← atDirective then
              directive location fuel
            else
              return .node (← hash location fuel)
          else
            return .node (← text [x] location fuel)

def directive (location : Location) : Nat → Scan Piece
  | 0 => exhaust
  | fuel + 1 => do
      let name ← directiveName fuel
      match Directive.ofName name with
      | .stop stop =>
          skipNewline
          return .stop stop location
      | .conditional => return .node (← conditional .conditional location fuel)
      | .forEach =>
          let head ← loopHead fuel
          let part ← body (.inside .forEach location.line) fuel
          return .node (.forEach head.1 head.2 (.sequence part.nodes location) location)
      | .set => return .node (← set location fuel)
      | .unsupported feature => reject ⟨.unsupported feature, location⟩
      | .call name => return .node (← call name location fuel)

/-- A conditional from its condition to its closing directive.  The end of the text must not come
out as the stop of a branch. -/
def conditional (opener : Opener) (location : Location) : Nat → Scan Node
  | 0 => exhaust
  | fuel + 1 => do
      let condition ← condition fuel
      let part ← body (.inside opener location.line) fuel
      let thenBranch := .sequence part.nodes location
      match part.stop with
      | .closing =>
          return .conditional condition thenBranch (.sequence [] part.location) location
      | .elseIf =>
          let other ← conditional .elseIf part.location fuel
          return .conditional condition thenBranch other location
      | .elseBranch =>
          let other ← body (.inside .elseBranch part.location.line) fuel
          return .conditional condition thenBranch (.sequence other.nodes part.location) location
      | .endOfFile => crash .endOfFileInConditional

def body (construct : Construct) : Nat → Scan Stopped
  | 0 => exhaust
  | fuel + 1 => do
      match ← piece fuel with
      | .stop stop location =>
          if construct.accepts stop = true then
            return ⟨[], stop, location⟩
          else
            reject ⟨.unexpectedStop stop construct, location⟩
      | .node node =>
          let part ← body construct fuel
          return { part with nodes := node :: part.nodes }

end

def template (resource : String) (fuel : Nat) : Scan Template := do
  let part ← body .outside fuel
  match (Template.ofNodes resource part.nodes).checkMacros with
  | .ok template => return template
  | .error e => reject e

def parse (fuel : Nat) (resource text : String) : Except Halt Template :=
  (template resource fuel (.ofText resource text)).map fun result => result.1

end Scan

/-!
## Closing marks
-/

theorem Text.not_infix_snoc {front q : List Char} {x y : Char} (hq : ¬ front ++ [y] <:+: q)
    (hx : ¬ (x = y ∧ front <:+ q)) : ¬ front ++ [y] <:+: q ++ [x] := by
  intro hinfix
  rcases List.infix_concat_iff.mp hinfix with hsuffix | hinfix
  · rcases List.suffix_concat_iff.mp hsuffix with hnil | ⟨rest, heq, hrest⟩
    · exact List.cons_ne_nil _ _ (List.append_eq_nil_iff.mp hnil).2
    · rcases List.append_inj' heq rfl with ⟨hfront, hlast⟩
      cases hlast
      exact hx ⟨rfl, hfront ▸ hrest⟩
  · exact hq hinfix

theorem Text.unbordered_newline : Text.Unbordered ['\n'] := by
  unfold Text.Unbordered
  decide

theorem Text.unbordered_commentEnd : Text.Unbordered ['*', '#'] := by
  unfold Text.Unbordered
  decide

namespace Cursor

variable {c r : Cursor} {mark inside q : List Char}

theorem splitAt?_of_passes (hmark : Text.Unbordered mark) (hinside : ¬ mark <:+: inside)
    (hpass : c.Passes (inside ++ mark) r) :
    ∃ hle, c.splitAt? mark = some (inside, ⟨r, hle⟩) := by
  have hle : r.size ≤ c.size := hpass.suffix.length_le
  have hsplit := Text.splitAt?_of_not_infix hmark hinside r.remaining
  rw [← List.append_assoc, ← hpass.remaining_eq] at hsplit
  rw [splitAt?]
  split
  · next hnone =>
      rw [hsplit] at hnone
      cases hnone
  · next front after hsome =>
      rw [hsplit] at hsome
      cases hsome
      rcases r with ⟨resource, remaining, line⟩
      cases hpass.resource_eq
      cases hpass.line_eq
      exact ⟨hle, rfl⟩

theorem splitAt?_of_end (hmark : mark ≠ []) (hq : ¬ mark <:+: q) (hpass : c.Passes q r)
    (hend : r.remaining = []) : c.splitAt? mark = none := by
  cases hsplit : c.splitAt? mark with
  | none => rfl
  | some found =>
      rcases found with ⟨inside, r'⟩
      have hfound := (passes_of_splitAt? hmark hsplit).2.remaining_eq
      rw [hpass.remaining_eq, hend, List.append_nil] at hfound
      exact absurd ⟨inside, r'.1.remaining, hfound.symm⟩ hq

theorem skipPast_of_passes (hmark : Text.Unbordered mark) (hinside : ¬ mark <:+: inside)
    (hpass : c.Passes (inside ++ mark) r) : c.skipPast mark = r := by
  rcases splitAt?_of_passes hmark hinside hpass with ⟨hle, hsplit⟩
  rw [skipPast, hsplit]

theorem skipPast_of_end (hmark : mark ≠ []) (hq : ¬ mark <:+: q) (hpass : c.Passes q r)
    (hend : r.remaining = []) : c.skipPast mark = r := by
  rw [skipPast, splitAt?_of_end hmark hq hpass hend]
  rcases r with ⟨resource, remaining, line⟩
  have hremaining := hpass.remaining_eq
  have hresource := hpass.resource_eq
  have hline := hpass.line_eq
  dsimp only at hend hremaining hresource hline
  rw [hend, List.append_nil] at hremaining
  rw [finish, hremaining, hend, hresource, hline]

theorem skipPast_newline (c : Cursor) :
    c.skipPast ['\n'] = (c.dropWhile fun x => x != '\n').advance := by
  have hpass := passes_dropWhile (fun x => x != '\n') c
  have hinside : ¬ ['\n'] <:+: c.takeWhile fun x => x != '\n' := by
    intro hfound
    have hline := forall_takeWhile _ c '\n' (hfound.mem List.mem_cons_self)
    cases hline
  cases hcurrent : (c.dropWhile fun x => x != '\n').current with
  | none =>
      have hend := List.head?_eq_none_iff.mp hcurrent
      rw [advance, hend]
      exact skipPast_of_end (List.cons_ne_nil _ _) hinside hpass hend
  | some x =>
      have hx := head?_dropWhile (fun x => x != '\n') c x hcurrent
      rw [bne_eq_false_iff_eq] at hx
      cases hx
      have hall := hpass.trans (passes_advance hcurrent)
      exact skipPast_of_passes Text.unbordered_newline hinside hall

end Cursor

namespace Scan

variable {s : Scanner} {fuel : Nat} {location : Location}

theorem run_skipComment (c : Cursor) : ∀ (fuel : Nat) (s : Scanner) (q : List Char), s.Ready ->
    s.cursor.size < fuel -> c.Passes q s.cursor -> ¬ ['*', '#'] <:+: q ->
    ∃ s', skipComment q.getLast? fuel s = .ok ((), s') ∧
      s'.cursor.advance = c.skipPast ['*', '#'] ∧ s'.Ready
  | 0, _, _, _, hfuel, _, _ => absurd hfuel (Nat.not_lt_zero _)
  | fuel + 1, s, q, ready, hfuel, hpass, hq => by
      rw [skipComment, bind_current, ← ready.current_eq]
      cases hcurrent : s.cursor.current with
      | none =>
          have hend := List.head?_eq_none_iff.mp hcurrent
          refine ⟨s, rfl, ?_, ready⟩
          rw [Cursor.skipPast_of_end (List.cons_ne_nil _ _) hq hpass hend, Cursor.advance, hend]
      | some x =>
          dsimp only
          by_cases hclose : q.getLast? = some '*' ∧ x = '#'
          · rw [if_pos hclose]
            rcases hclose with ⟨hlast, rfl⟩
            rcases List.getLast?_eq_some_iff.mp hlast with ⟨inside, rfl⟩
            have hinside : ¬ ['*', '#'] <:+: inside :=
              fun h => hq (h.trans (List.prefix_append inside ['*']).isInfix)
            have hall := hpass.trans (Cursor.passes_advance hcurrent)
            rw [List.append_assoc] at hall
            refine ⟨s, rfl, ?_, ready⟩
            exact (Cursor.skipPast_of_passes Text.unbordered_commentEnd hinside hall).symm
          · rw [if_neg hclose]
            rcases run_advance ready with ⟨s₁, hadvance, hs₁, ready₁, _⟩
            have hlt := Cursor.size_advance_lt hcurrent
            rw [bind_of_ok hadvance]
            have hpass₁ := hpass.trans (Cursor.passes_advance hcurrent)
            rw [← hs₁] at hlt hpass₁
            have hq₁ : ¬ ['*'] ++ ['#'] <:+: q ++ [x] := by
              refine Text.not_infix_snoc hq fun h => hclose ⟨?_, h.1⟩
              rcases h.2 with ⟨front, rfl⟩
              exact List.getLast?_concat
            rw [← show (q ++ [x]).getLast? = some x from List.getLast?_concat]
            exact run_skipComment c fuel s₁ (q ++ [x]) ready₁ (by omega) hpass₁ hq₁

theorem run_quotation (c : Cursor) (location : Location) : ∀ (fuel : Nat) (s : Scanner)
    (q : List Char), s.Ready -> s.cursor.size < fuel -> c.Passes q s.cursor ->
    ¬ [']', ']', '#'] <:+: q ->
    match c.splitAt? [']', ']', '#'] with
    | none => quotation location q fuel s = .error (.rejected ⟨.unterminatedQuotedBlock, location⟩)
    | some (inside, r) => ∃ s', quotation location q fuel s = .ok (inside ++ [']', ']'], s') ∧
        s'.cursor = r.1 ∧ s'.Ready
  | 0, _, _, _, hfuel, _, _ => absurd hfuel (Nat.not_lt_zero _)
  | fuel + 1, s, q, ready, hfuel, hpass, hq => by
      rw [quotation, bind_current, ← ready.current_eq]
      cases hcurrent : s.cursor.current with
      | none =>
          have hend := List.head?_eq_none_iff.mp hcurrent
          rw [Cursor.splitAt?_of_end (List.cons_ne_nil _ _) hq hpass hend]
          rfl
      | some x =>
          rcases run_advance ready with ⟨s₁, hadvance, hs₁, ready₁, _⟩
          have hlt := Cursor.size_advance_lt hcurrent
          have hpass₁ := hpass.trans (Cursor.passes_advance hcurrent)
          rw [← hs₁] at hlt hpass₁
          dsimp only
          rw [bind_of_ok hadvance]
          by_cases hclose : x = '#' ∧ [']', ']'] <:+ q
          · rw [if_pos hclose]
            rcases hclose with ⟨rfl, inside, rfl⟩
            have hinside : ¬ [']', ']', '#'] <:+: inside :=
              fun h => hq (h.trans (List.prefix_append inside [']', ']']).isInfix)
            rw [List.append_assoc] at hpass₁
            rcases Cursor.splitAt?_of_passes Text.unbordered_quotedEnd hinside hpass₁ with
              ⟨hle, hsplit⟩
            rw [hsplit]
            exact ⟨s₁, rfl, rfl, ready₁⟩
          · rw [if_neg hclose]
            have hq₁ : ¬ [']', ']'] ++ ['#'] <:+: q ++ [x] := Text.not_infix_snoc hq hclose
            exact run_quotation c location fuel s₁ (q ++ [x]) ready₁ (by omega) hpass₁ hq₁

theorem dropBytes?_zero (cs : List Char) : dropBytes? 0 cs = some cs := by
  cases cs <;> rfl

theorem run_truncate (inside : List Char) (s : Scanner) :
    truncate 2 (inside ++ [']', ']']) s = .ok (inside, s) := by
  have hdrop : dropBytes? 2 (inside ++ [']', ']']).reverse = some inside.reverse := by
    rw [List.reverse_append]
    have hbracket : ']'.utf8Size = 1 := rfl
    simp [dropBytes?, hbracket, dropBytes?_zero]
  rw [truncate, hdrop]
  dsimp only
  rw [List.reverse_reverse]
  rfl

theorem agrees_text (opening : List Char) (location : Location) (ready : s.Ready)
    (hfuel : s.cursor.size < fuel) :
    Agrees (text opening location fuel) s (.ok (Node.readText opening location s.cursor)) := by
  rcases run_collect Text.isPlain fuel s ready hfuel with ⟨s', hrun, hrest, ready'⟩
  exact .step hrun (.ok rfl hrest ready')

theorem agrees_blockComment (location : Location) (ready : s.Ready) (hfuel : s.cursor.size < fuel) :
    Agrees (blockComment location fuel) s (.ok (Node.readBlockComment location s.cursor)) := by
  rcases run_skipComment s.cursor fuel s [] ready hfuel (.refl _) (by decide) with
    ⟨s₁, hrun, hs₁, ready₁⟩
  rcases run_advance ready₁ with ⟨s₂, hadvance, hs₂, ready₂, _⟩
  exact .step hrun (.step hadvance (.ok rfl (hs₂.trans hs₁) ready₂))

theorem agrees_quotedBlock (location : Location) (ready : s.Ready) (hfuel : s.cursor.size < fuel) :
    Agrees (quotedBlock location fuel) s (Node.readQuotedBlock location s.cursor) := by
  have hquotation := run_quotation s.cursor location fuel s [] ready hfuel (.refl _) (by decide)
  rw [Node.readQuotedBlock]
  split
  · next inside r hsplit =>
      rw [hsplit] at hquotation
      rcases hquotation with ⟨s', hrun, hs', ready'⟩
      exact .step hrun (.step (run_truncate inside s') (.ok rfl hs' ready'))
  · next hsplit =>
      rw [hsplit] at hquotation
      exact bind_of_error hquotation

theorem agrees_lineComment (location : Location) {c₁ : Cursor} {hlt : c₁.size < s.cursor.size}
    (htake : s.cursor.take? '#' = some ⟨c₁, hlt⟩) (ready : s.Ready)
    (hfuel : s.cursor.size < fuel) :
    Agrees (lineComment location fuel) s (.ok (Node.readLineComment location c₁)) := by
  rcases run_collect (fun x => x != '\n') fuel s ready hfuel with ⟨s₁, hrun, hs₁, ready₁⟩
  rcases run_advance ready₁ with ⟨s₂, hadvance, hs₂, ready₂, _⟩
  refine .step hrun (.step hadvance (.ok rfl ?_ ready₂))
  rw [hs₂, hs₁, Cursor.dropWhile_of_advance (Cursor.current_eq_of_take? htake) rfl,
    ← Cursor.eq_advance_of_take? htake]
  exact (c₁.skipPast_newline).symm

theorem agrees_hash (location : Location) (ready : s.Ready) (hfuel : s.cursor.size < fuel) :
    Agrees (hash location fuel) s (Node.readHash location s.cursor) := by
  rw [Node.readHash, hash]
  refine .step rfl ?_
  rw [← ready.current_eq]
  cases hhash : s.cursor.take? '#' with
  | some p =>
      rw [if_pos (Cursor.current_eq_of_take? hhash)]
      exact agrees_lineComment location hhash ready hfuel
  | none =>
      rw [if_neg (Cursor.current_ne_of_take? hhash)]
      dsimp only
      split
      · next c₁ h₁ hstar =>
          refine .take_some ready hstar ?_
          rintro s₁ rfl ready₁ _
          exact agrees_blockComment location ready₁ (by omega)
      · next hstar =>
          split
          · next c₁ h₁ hbracket =>
              split
              · next c₂ h₂ hsecond =>
                  refine .take_none ready hstar (.take_some ready hbracket ?_)
                  rintro s₁ rfl ready₁ _
                  refine .take_some ready₁ hsecond ?_
                  rintro s₂ rfl ready₂ _
                  refine .weaken (.after (.afterStep ?_ _) _)
                  exact agrees_quotedBlock location ready₂ (by omega)
              · next hsecond =>
                  refine .take_none ready hstar (.take_some ready hbracket ?_)
                  rintro s₁ rfl ready₁ _
                  exact .take_none ready₁ hsecond (agrees_text _ location ready₁ (by omega))
          · next hbracket =>
              refine .take_none ready hstar (.take_none ready hbracket ?_)
              exact agrees_text _ location ready hfuel

/-!
## Outputs and heads
-/

theorem agrees_output (silent : Bool) (opening : List Char) (location : Location) (ready : s.Ready)
    (hfuel : 4 * s.cursor.size + 1 < fuel) :
    Agrees (output silent opening location fuel) s
      (Node.readOutput silent opening location s.cursor) := by
  rw [Node.readOutput, output]
  cases hbrace : s.cursor.take? '\x7b' with
  | some p =>
      rcases p with ⟨c₁, h₁⟩
      refine .take_some ready hbrace ?_
      rintro s₁ rfl ready₁ _
      refine .step (run_atLetter ready₁) ?_
      dsimp only
      by_cases hletter : s₁.cursor.atLetter = true
      · rw [if_pos hletter, if_pos hletter]
        refine .weaken (.after ?_ _)
        refine (agrees_named silent fuel s₁ ready₁ (by omega)).andThen fun ref s₂ h₂ ready₂ => ?_
        exact (agrees_expect '\x7d' ready₂ (by omega)).mapValue
      · rw [if_neg hletter, if_neg hletter]
        exact agrees_text _ location ready₁ (by omega)
  | none =>
      refine .take_none ready hbrace (.step (run_atLetter ready) ?_)
      dsimp only
      by_cases hletter : s.cursor.atLetter = true
      · rw [if_pos hletter, if_pos hletter]
        exact .weaken (agrees_named silent fuel s ready hfuel).mapValue
      · rw [if_neg hletter, if_neg hletter]
        exact agrees_text _ location ready (by omega)

theorem agrees_dollar (location : Location) (ready : s.Ready)
    (hfuel : 4 * s.cursor.size + 1 < fuel) :
    Agrees (dollar location fuel) s (Node.readDollar location s.cursor) := by
  rw [Node.readDollar, dollar]
  split
  · next c₁ h₁ htake =>
      refine .take_some ready htake ?_
      rintro s₁ rfl ready₁ _
      exact .weaken (.afterStep (agrees_output true _ location ready₁ (by omega)) _)
  · next htake => exact .take_none ready htake (agrees_output false _ location ready hfuel)

theorem agrees_directiveName (ready : s.Ready) (hfuel : s.cursor.size < fuel) :
    Agrees (directiveName fuel) s (Directive.readName s.cursor) := by
  rw [Directive.readName, directiveName]
  split
  · next c₁ h₁ htake =>
      refine .take_some ready htake ?_
      rintro s₁ rfl ready₁ _
      refine .after ?_ _
      refine (agrees_identifier _ ready₁ (by omega)).andThen fun name s₂ h₂ ready₂ => ?_
      exact (agrees_expect '\x7d' ready₂ (by omega)).mapValue
  · next htake => exact .take_none ready htake (agrees_identifier _ ready hfuel)

theorem run_skipNewline (ready : s.Ready) :
    ∃ s', skipNewline s = .ok ((), s') ∧ s'.cursor = s.cursor.accept '\n' ∧ s'.Ready := by
  by_cases hcurrent : s.cursor.current = some '\n'
  · rcases run_take hcurrent ready with ⟨s', hrun, hs', ready', _⟩
    refine ⟨s', bind_of_ok hrun, ?_, ready'⟩
    rw [hs', Cursor.accept_of_current hcurrent]
  · refine ⟨s, bind_of_ok (run_take_false hcurrent ready), ?_, ready⟩
    rw [Cursor.accept_of_ne hcurrent]

theorem Agrees.thenSkipNewline {m : Scan α} {f : α → β} {x : Attempt (Parsed n α)}
    (hx : Agrees m s x) :
    Agrees (m >>= fun value => skipNewline >>= fun _ => pure (f value)) s
      ((x.mapValue f).accept '\n') := by
  cases x with
  | error e => exact bind_of_error hx
  | ok p =>
      rcases hx with ⟨s₁, hrun, hs₁, ready₁⟩
      rcases run_skipNewline ready₁ with ⟨s₂, hskip, hs₂, ready₂⟩
      rw [hs₁] at hs₂
      exact .step hrun (.step hskip (.ok rfl hs₂ ready₂))

theorem agrees_set (location : Location) (ready : s.Ready) (hfuel : 4 * s.cursor.size + 6 < fuel) :
    Agrees (set location fuel) s (Node.readSet location s.cursor) := by
  rw [Node.readSet, set]
  refine (agrees_expect '(' ready (by omega)).andThen fun _ s₁ h₁ ready₁ => ?_
  refine (agrees_expect '$' ready₁ (by omega)).andThen fun _ s₂ h₂ ready₂ => ?_
  refine (agrees_identifier _ ready₂ (by omega)).andThen fun name s₃ h₃ ready₃ => ?_
  refine (agrees_expect '=' ready₃ (by omega)).andThen fun _ s₄ h₄ ready₄ => ?_
  refine (agrees_expression fuel s₄ ready₄ (by omega)).andThen fun value s₅ h₅ ready₅ => ?_
  exact .thenSkipNewline (agrees_expect ')' ready₅ (by omega))

theorem agrees_call (name : String) (location : Location) (ready : s.Ready)
    (hfuel : 4 * s.cursor.size + 6 < fuel) :
    Agrees (call name location fuel) s (Node.readCall name location s.cursor) := by
  have hle := s.cursor.size_skipSpace_le
  rw [Node.readCall, call, ← bind_assoc]
  have hopen : Agrees (do skipSpace fuel; require '(' ("`(` after macro name #" ++ name)) s
      ((s.cursor.skipSpace.require '(' ("`(` after macro name #" ++ name)).within hle) := by
    refine .skipSpace ready (by omega) fun s₁ hs₁ ready₁ => .within ?_ _
    rw [← hs₁]
    exact agrees_require '(' _ ready₁
  refine hopen.andThen fun _ s₁ h₁ ready₁ => ?_
  exact .thenSkipNewline (agrees_arguments fuel s₁ ready₁ (by omega))

theorem agrees_inKeyword (ready : s.Ready) : Agrees inKeyword s (Node.readInKeyword s.cursor) := by
  rw [Node.readInKeyword, inKeyword]
  refine (agrees_require 'i' _ ready).andThen fun _ s₁ h₁ ready₁ => ?_
  exact agrees_require 'n' _ ready₁

theorem agrees_loopHead (ready : s.Ready) (hfuel : 4 * s.cursor.size + 6 < fuel) :
    Agrees (loopHead fuel) s (Node.readLoopHead s.cursor) := by
  rw [Node.readLoopHead, loopHead]
  refine (agrees_expect '(' ready (by omega)).andThen fun _ s₁ h₁ ready₁ => ?_
  refine (agrees_expect '$' ready₁ (by omega)).andThen fun _ s₂ h₂ ready₂ => ?_
  have hname := @agrees_identifier s₂ fuel "#foreach variable" ready₂ (by omega)
  refine hname.skipSpace_andThen (by omega) fun name s₃ h₃ ready₃ => ?_
  refine (agrees_inKeyword ready₃).andThen fun _ s₄ h₄ ready₄ => ?_
  refine (agrees_expression fuel s₄ ready₄ (by omega)).andThen fun collection s₅ h₅ ready₅ => ?_
  exact .thenSkipNewline (agrees_expect ')' ready₅ (by omega))

theorem agrees_condition (ready : s.Ready) (hfuel : 4 * s.cursor.size + 6 < fuel) :
    Agrees (condition fuel) s (Node.readCondition s.cursor) := by
  rw [Node.readCondition, condition]
  refine (agrees_expect '(' ready (by omega)).andThen fun _ s₁ h₁ ready₁ => ?_
  refine (agrees_expression fuel s₁ ready₁ (by omega)).andThen fun value s₂ h₂ ready₂ => ?_
  exact .thenSkipNewline (agrees_expect ')' ready₂ (by omega))

/-!
## Pieces and bodies
-/

/-- A step on the level of nodes agrees with the reader of pieces.  At the end of the text it says
so and stays where it is. -/
def PieceAgrees (m : Scan Piece) (s : Scanner) : Attempt (Option (Parsed n Piece)) → Prop
  | .error e => m s = .error (.rejected e)
  | .ok none => m s = .ok (.stop .endOfFile s.location, s)
  | .ok (some p) => Agrees m s (.ok p : Attempt (Parsed n Piece))

theorem pieceAgrees_map_some {m : Scan Piece} {x : Attempt (Parsed n Piece)} (hx : Agrees m s x) :
    PieceAgrees m s (x.map some) := by
  cases x with
  | error e => exact hx
  | ok p => exact hx

theorem run_atDirective (ready : s.Ready) :
    atDirective s = .ok (Directive.beginsAt s.cursor, s) := by
  rw [Directive.beginsAt, ready.atLetter_eq, ready.current_eq]
  rfl

mutual

theorem agrees_piece : ∀ (fuel : Nat) (s : Scanner), s.Ready -> 4 * s.cursor.size + 8 < fuel ->
    PieceAgrees (piece fuel) s (Node.readPiece s.cursor)
  | 0, _, _, hfuel => absurd hfuel (Nat.not_lt_zero _)
  | fuel + 1, s, ready, hfuel => by
      rw [Node.readPiece]
      split
      · next hnext =>
          have hcurrent := ready.current_eq.symm.trans (Cursor.current_of_next?_none hnext)
          change piece (fuel + 1) s = _
          rw [piece, bind_location, bind_current, hcurrent]
          rfl
      · next x c₁ h₁ hnext =>
          rw [piece]
          by_cases hdollar : x = '$'
          · rw [if_pos hdollar]
            refine pieceAgrees_map_some (.step rfl (.current_some ready hnext ?_))
            refine .advance ready hnext ?_
            rintro s₁ rfl ready₁
            rw [if_pos hdollar]
            exact ((agrees_dollar s.location ready₁ (by omega)).afterStep _).mapValue
          rw [if_neg hdollar]
          by_cases hhash : x = '#'
          · rw [if_pos hhash]
            by_cases hdirective : Directive.beginsAt c₁ = true
            · rw [if_pos hdirective]
              refine pieceAgrees_map_some (.step rfl (.current_some ready hnext ?_))
              refine .advance ready hnext ?_
              rintro s₁ rfl ready₁
              rw [if_neg hdollar, if_pos hhash]
              refine .step (run_atDirective ready₁) ?_
              rw [if_pos hdirective]
              exact (agrees_directive s.location fuel s₁ ready₁ (by omega)).after _
            · rw [if_neg hdirective]
              refine pieceAgrees_map_some (.step rfl (.current_some ready hnext ?_))
              refine .advance ready hnext ?_
              rintro s₁ rfl ready₁
              rw [if_neg hdollar, if_pos hhash]
              refine .step (run_atDirective ready₁) ?_
              rw [if_neg hdirective]
              exact ((agrees_hash s.location ready₁ (by omega)).afterStep _).mapValue
          · rw [if_neg hhash]
            refine pieceAgrees_map_some (x := .ok _) (.step rfl (.current_some ready hnext ?_))
            refine .advance ready hnext ?_
            rintro s₁ rfl ready₁
            rw [if_neg hdollar, if_neg hhash]
            exact ((agrees_text [x] s.location ready₁ (by omega)).afterStep _).mapValue

theorem agrees_directive (location : Location) : ∀ (fuel : Nat) (s : Scanner), s.Ready ->
    4 * s.cursor.size + 9 < fuel ->
    Agrees (directive location fuel) s (Node.readDirective location s.cursor)
  | 0, _, _, hfuel => absurd hfuel (Nat.not_lt_zero _)
  | fuel + 1, s, ready, hfuel => by
      rw [Node.readDirective, directive]
      refine (agrees_directiveName ready (by omega)).andMaybe fun name s₁ h₁ ready₁ => ?_
      cases Directive.ofName name with
      | stop stop =>
          rcases run_skipNewline ready₁ with ⟨s₂, hskip, hs₂, ready₂⟩
          exact .step hskip (.ok rfl hs₂ ready₂)
      | conditional =>
          refine .weaken (Agrees.mapValue ?_)
          exact agrees_conditional .conditional location fuel s₁ ready₁ (by omega)
      | forEach =>
          refine .weaken ((agrees_loopHead ready₁ (by omega)).andMaybe fun head s₂ h₂ ready₂ => ?_)
          exact (agrees_body _ fuel s₂ ready₂ (by omega)).mapValue_mapValue
      | set => exact .weaken (agrees_set location ready₁ (by omega)).mapValue
      | unsupported feature => exact .reject _
      | call name => exact .weaken (agrees_call name location ready₁ (by omega)).mapValue

theorem agrees_conditional (opener : Opener) (location : Location) : ∀ (fuel : Nat) (s : Scanner),
    s.Ready -> 4 * s.cursor.size + 9 < fuel ->
    Agrees (conditional opener location fuel) s (Node.readConditional opener location s.cursor)
  | 0, _, _, hfuel => absurd hfuel (Nat.not_lt_zero _)
  | fuel + 1, s, ready, hfuel => by
      rw [Node.readConditional, conditional]
      refine (agrees_condition ready (by omega)).andMaybe fun condition s₁ h₁ ready₁ => ?_
      have hbody := agrees_body (.inside opener location.line) fuel s₁ ready₁ (by omega)
      refine hbody.mapValue_andMaybe fun part s₂ h₂ ready₂ => ?_
      rcases part with ⟨nodes, stop, accepted, partLocation⟩
      cases stop with
      | closing => exact .ok rfl rfl ready₂
      | elseIf =>
          refine .weaken (Agrees.mapValue ?_)
          exact agrees_conditional .elseIf partLocation fuel s₂ ready₂ (by omega)
      | elseBranch => exact (agrees_body _ fuel s₂ ready₂ (by omega)).mapValue_mapValue
      | endOfFile =>
          rw [Construct.accepts_endOfFile_inside] at accepted
          cases accepted

theorem agrees_body (construct : Construct) : ∀ (fuel : Nat) (s : Scanner), s.Ready ->
    4 * s.cursor.size + 9 < fuel ->
    Agrees (body construct fuel) s ((Node.readBody construct s.cursor).mapValue Stopped.ofBody)
  | 0, _, _, hfuel => absurd hfuel (Nat.not_lt_zero _)
  | fuel + 1, s, ready, hfuel => by
      have hpiece := agrees_piece fuel s ready (by omega)
      rw [Node.readBody]
      split
      · next e hread =>
          rw [hread] at hpiece
          exact bind_of_error hpiece
      · next hread =>
          rw [hread] at hpiece
          split
          · next haccepts =>
              refine .step hpiece ?_
              dsimp only
              rw [if_pos haccepts]
              exact .ok rfl rfl ready
          · next haccepts =>
              refine .step hpiece ?_
              dsimp only
              rw [if_neg haccepts]
              exact .reject _
      · next stop location c₁ h₁ hread =>
          rw [hread] at hpiece
          rcases hpiece with ⟨s₁, hrun, rfl, ready₁⟩
          split
          · next haccepts =>
              refine .step hrun ?_
              dsimp only
              rw [if_pos haccepts]
              exact .ok rfl rfl ready₁
          · next haccepts =>
              refine .step hrun ?_
              dsimp only
              rw [if_neg haccepts]
              exact .reject _
      · next node c₁ h₁ hread =>
          rw [hread] at hpiece
          rcases hpiece with ⟨s₁, hrun, rfl, ready₁⟩
          refine .step hrun ?_
          have hrest := agrees_body construct fuel s₁ ready₁ (by omega)
          refine .of_outcome ?_ hrest.mapValue_mapValue
          cases Node.readBody construct s₁.cursor <;> rfl

end

end Scan

end Stencil
