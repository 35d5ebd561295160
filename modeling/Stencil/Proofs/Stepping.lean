import Stencil.Parsing.Move
import Stencil.Proofs.Scanner

/-!
# Stepping through a text

A scanner has what is left of its text in three places, and what the slot holds depends on how it
got there.  Whoever sends it through a text step by step sees a list of characters with a line: a
step drops characters from the front of the list or puts one there, and the line counts the newlines
that were dropped.  This module says what each step does to such a list and shows that cursors and
scanners do just that, for all sequences of steps that put back one character at a time.
-/

namespace Stencil

/-!
## Steps on a list of characters
-/

namespace Cursor

structure DropsHead (c : Cursor) (gone : List Char) (rest : Cursor) : Prop where
  passes : c.Passes gone rest
  gone_eq : gone = c.remaining.head?.toList

structure DropsBlanks (c : Cursor) (gap : List Char) (rest : Cursor) : Prop where
  passes : c.Passes gap rest
  blanks : Text.Blanks gap
  stops : ∀ x ∈ rest.remaining.head?, Text.isBlank x = false

end Cursor

namespace Move

/-- The step brings the cursor from `c` to `rest`, drops `gone` and may report an error. -/
inductive Brings : Move → (c : Cursor) → (gone : List Char) → (rest : Cursor) →
    Option (Located ParseError) → Prop where
  | advance {c rest : Cursor} {gone : List Char} :
      c.DropsHead gone rest -> Brings .advance c gone rest none
  | skipSpace {c rest : Cursor} {gap : List Char} :
      c.DropsBlanks gap rest -> Brings .skipSpace c gap rest none
  | nextNonSpace {c next rest : Cursor} {front gap : List Char} :
      c.DropsHead front next -> next.DropsBlanks gap rest ->
      Brings .nextNonSpace c (front ++ gap) rest none
  | pushBack (x : Char) (c : Cursor) :
      Brings (.pushBack x) c [] ⟨c.resource, x :: c.remaining, c.line⟩ none
  | found {x : Char} {c next rest : Cursor} {gap : List Char} :
      c.DropsBlanks gap next -> next.Passes [x] rest ->
      Brings (.expect x) c (gap ++ [x]) rest none
  | missing {x : Char} {c rest : Cursor} {gap : List Char} :
      c.DropsBlanks gap rest -> rest.remaining.head? ≠ some x ->
      Brings (.expect x) c gap rest
        (some ⟨.expected (ParseError.quoted x) rest.remaining.head?, rest.location⟩)
  | report (what : String) (c : Cursor) :
      Brings (.report what) c [] c (some ⟨.expected what c.remaining.head?, c.location⟩)

inductive BringsAll : List Move → (c : Cursor) → (gone : List Char) → (rest : Cursor) →
    List (Option (Located ParseError)) → Prop where
  | nil (c : Cursor) : BringsAll [] c [] c []
  | cons {move : Move} {moves : List Move} {c next rest : Cursor} {front gone : List Char}
      {report : Option (Located ParseError)} {reports : List (Option (Located ParseError))} :
      move.Brings c front next report -> BringsAll moves next gone rest reports ->
      BringsAll (move :: moves) c (front ++ gone) rest (report :: reports)

def isPushBack : Move → Bool
  | pushBack _ => true
  | _ => false

/-- Whether a character is held back by one that was put in front of it.  It is until a step moves
on; at the end of the text there is none to be held back. -/
def holds (held : Bool) (c : Cursor) : Move → Bool
  | pushBack _ => c.current.isSome
  | move => held && move.apply c = c

end Move

namespace Cursor

/-- No character is put back while another one is held back. -/
def PutsBackOne : (held : Bool) → Cursor → List Move → Prop
  | _, _, [] => True
  | held, c, move :: moves =>
      (move.isPushBack = true -> held = false) ∧
        PutsBackOne (move.holds held c) (move.apply c) moves

instance decidablePutsBackOne (held : Bool) (c : Cursor) :
    (moves : List Move) → Decidable (c.PutsBackOne held moves)
  | [] => inferInstanceAs (Decidable True)
  | move :: moves =>
      have := decidablePutsBackOne (move.holds held c) (move.apply c) moves
      inferInstanceAs (Decidable (_ ∧ _))

def follow : List Move → Cursor → List (Option (Located ParseError)) × Cursor
  | [], c => ([], c)
  | move :: moves, c =>
      (move.failure? c :: (follow moves (move.apply c)).1, (follow moves (move.apply c)).2)

end Cursor

namespace Move

variable {c rest : Cursor} {gone : List Char} {report : Option (Located ParseError)}
  {reports : List (Option (Located ParseError))} {move : Move} {moves : List Move}

/-- Only a character that is put back is no part of the text in front of the cursor. -/
theorem Brings.passes (h : move.Brings c gone rest report) (hmove : move.isPushBack = false) :
    c.Passes gone rest := by
  cases h with
  | advance hdrop => exact hdrop.passes
  | skipSpace hskip => exact hskip.passes
  | nextNonSpace hdrop hskip => exact hdrop.passes.trans hskip.passes
  | pushBack x c => cases hmove
  | found hskip hpass => exact hskip.passes.trans hpass
  | missing hskip _ => exact hskip.passes
  | report what c => exact .refl c

theorem Brings.location_eq (h : move.Brings c gone rest report) :
    rest.location = ⟨c.resource, c.line + Cursor.newlines gone⟩ := by
  cases hmove : move.isPushBack with
  | false =>
      have hpass := h.passes hmove
      rw [Cursor.location, hpass.resource_eq, hpass.line_eq]
  | true =>
      cases h with
      | pushBack x c => rfl
      | _ => cases hmove

theorem BringsAll.location_eq (h : BringsAll moves c gone rest reports) :
    rest.location = ⟨c.resource, c.line + Cursor.newlines gone⟩ := by
  induction h with
  | nil c => rfl
  | cons hmove _ ih =>
      have hnext := hmove.location_eq
      rw [Cursor.location, Location.mk.injEq] at hnext
      rw [ih, hnext.1, hnext.2, Cursor.newlines_append, Nat.add_assoc]

theorem BringsAll.passes (h : BringsAll moves c gone rest reports)
    (hmoves : ∀ x, pushBack x ∉ moves) : c.Passes gone rest := by
  induction h with
  | nil c => exact .refl c
  | @cons move moves _ _ _ _ _ _ _ hmove _ ih =>
      have hfirst : move.isPushBack = false := by
        cases move with
        | pushBack x => exact absurd List.mem_cons_self (hmoves x)
        | _ => rfl
      exact (hmove.passes hfirst).trans
        (ih fun x hx => hmoves x (List.mem_cons_of_mem _ hx))

end Move

/-!
## Steps of a cursor
-/

namespace Cursor

theorem dropsHead_advance (c : Cursor) : c.DropsHead c.current.toList c.advance := by
  refine ⟨?_, rfl⟩
  cases hcurrent : c.current with
  | none =>
      rw [advance_atEnd hcurrent]
      exact .refl c
  | some x => exact passes_advance hcurrent

theorem dropsBlanks_skipSpace (c : Cursor) :
    c.DropsBlanks (c.takeWhile Text.isBlank) c.skipSpace where
  passes := passes_dropWhile _ c
  blanks := forall_takeWhile _ c
  stops := head?_dropWhile _ c

end Cursor

namespace Move

section

variable {c : Cursor} {x : Char}

theorem apply_expect (hx : c.skipSpace.current = some x) :
    (expect x).apply c = c.skipSpace.advance ∧ (expect x).failure? c = none := by
  rw [apply, failure?, Cursor.expect, Cursor.require, Cursor.take?_of_current hx]
  exact ⟨rfl, rfl⟩

theorem apply_expect_of_ne (hx : c.skipSpace.current ≠ some x) :
    (expect x).apply c = c.skipSpace ∧
      (expect x).failure? c = some (c.skipSpace.unexpected (ParseError.quoted x)) := by
  rw [apply, failure?, Cursor.expect, Cursor.require, Cursor.take?_of_ne hx]
  exact ⟨rfl, rfl⟩

end

theorem exists_brings (move : Move) (c : Cursor) :
    ∃ gone, move.Brings c gone (move.apply c) (move.failure? c) := by
  cases move with
  | advance => exact ⟨_, .advance c.dropsHead_advance⟩
  | skipSpace => exact ⟨_, .skipSpace c.dropsBlanks_skipSpace⟩
  | nextNonSpace =>
      exact ⟨_, .nextNonSpace c.dropsHead_advance c.advance.dropsBlanks_skipSpace⟩
  | pushBack x => exact ⟨_, .pushBack x c⟩
  | expect x =>
      by_cases hx : c.skipSpace.current = some x
      · rw [(apply_expect hx).1, (apply_expect hx).2]
        exact ⟨_, .found c.dropsBlanks_skipSpace (Cursor.passes_advance hx)⟩
      · rw [(apply_expect_of_ne hx).1, (apply_expect_of_ne hx).2]
        exact ⟨_, .missing c.dropsBlanks_skipSpace hx⟩
  | report what => exact ⟨_, .report what c⟩

theorem exists_bringsAll (moves : List Move) (c : Cursor) :
    ∃ gone, BringsAll moves c gone (c.follow moves).2 (c.follow moves).1 := by
  induction moves generalizing c with
  | nil => exact ⟨_, .nil c⟩
  | cons move moves ih =>
      rcases exists_brings move c with ⟨front, hmove⟩
      rcases ih (move.apply c) with ⟨gone, hmoves⟩
      exact ⟨_, .cons hmove hmoves⟩

theorem holds_eq {move : Move} (hmove : move.isPushBack = false) (held : Bool) (c : Cursor) :
    move.holds held c = (held && move.apply c = c) := by
  cases move with
  | pushBack x => cases hmove
  | _ => rfl

theorem line_le_line_apply (move : Move) (c : Cursor) : c.line ≤ (move.apply c).line := by
  rcases exists_brings move c with ⟨gone, h⟩
  have hline := congrArg Location.line h.location_eq
  exact Nat.le.intro hline.symm

theorem size_apply_le (move : Move) (c : Cursor) : (move.apply c).size ≤ c.size + 1 := by
  rcases exists_brings move c with ⟨gone, h⟩
  cases hmove : move.isPushBack with
  | false => exact Nat.le_succ_of_le (h.passes hmove).suffix.length_le
  | true =>
      cases move with
      | pushBack x => exact Nat.le_refl _
      | _ => cases hmove

end Move

theorem Cursor.line_le_line_follow (moves : List Move) (c : Cursor) :
    c.line ≤ (c.follow moves).2.line := by
  rcases Move.exists_bringsAll moves c with ⟨gone, h⟩
  exact Nat.le.intro (congrArg Location.line h.location_eq).symm

theorem Cursor.PutsBackOne.of_before {held : Bool} {c : Cursor} {before moves : List Move}
    (h : c.PutsBackOne held moves) (hbefore : before <+: moves) : c.PutsBackOne held before := by
  rcases hbefore with ⟨after, rfl⟩
  induction before generalizing held c with
  | nil => exact trivial
  | cons move before ih => exact ⟨h.1, ih h.2⟩

/-!
## Steps of a scanner
-/

namespace Scan

def make (fuel : Nat) : Move → Scan (Option (Located ParseError))
  | .advance => do
      advance
      return none
  | .skipSpace => do
      skipSpace fuel
      return none
  | .nextNonSpace => do
      advance
      skipSpace fuel
      return none
  | .pushBack x => do
      pushBack x
      return none
  | .expect x => do
      skipSpace fuel
      if ← take x then
        return none
      else
        return some ⟨.expected (ParseError.quoted x) (← current), ← location⟩
  | .report what => do
      return some ⟨.expected what (← current), ← location⟩

/-- A parser asks for a character by the same step, and ends with the error. -/
theorem expect_eq_make (x : Char) (fuel : Nat) :
    expect x fuel = (make fuel (.expect x) >>= fun report =>
      match report with
      | none => pure ()
      | some error => reject error) := by
  rw [expect, make, bind_assoc]
  refine bind_congr fun _ => ?_
  rw [require, bind_assoc]
  refine bind_congr fun taken => ?_
  cases taken <;> rfl

def follow (fuel : Nat) : List Move → Scan (List (Option (Located ParseError)))
  | [] => return []
  | move :: moves => do
      let report ← make fuel move
      return report :: (← follow fuel moves)

section

variable {s : Scanner} {c : Cursor} {held : Bool} {fuel : Nat}

theorem reaches_advance (h : s.Shows c held) :
    Reaches advance s () c.advance (held && c.advance = c) := by
  cases hcurrent : c.current with
  | none =>
      rw [Cursor.advance_atEnd hcurrent, Reaches, if_pos h.line_lt]
      have hstay := advance_atEnd (h.current_eq.trans hcurrent)
      exact ⟨s, hstay, h.mono fun hheld => by simp [hheld]⟩
  | some x => exact (reaches_advance_of_some h hcurrent).of_free

theorem reaches_skipSpace (h : s.Shows c held) (hfuel : c.size < fuel) :
    Reaches (skipSpace fuel) s () c.skipSpace (held && c.skipSpace = c) :=
  (reaches_collect Text.isBlank h hfuel).bind (Nat.le_refl _) fun _ hs' => .here hs' ()

theorem reaches_pushBack (x : Char) (h : s.Shows c false) :
    Reaches (pushBack x) s () (c.pushBack x) c.current.isSome := by
  rcases h with ⟨rfl, atEnd, hline, free⟩
  rw [Reaches, pushBack, bind_get, free rfl, Scanner.current_cursor atEnd]
  refine (if_pos hline).mpr ⟨_, rfl, ?_, ?_, hline, ?_⟩
  · rw [Scanner.cursor, Scanner.cursor, Scanner.remaining, Scanner.remaining, free rfl]
    rfl
  · exact fun hnone => absurd hnone (Option.some_ne_none x)
  · exact fun hfree => Option.not_isSome_iff_eq_none.mp (Bool.eq_false_iff.mp hfree)

theorem reaches_take {x : Char} (h : s.Shows c held) (hx : c.current = some x) :
    Reaches (take x) s true c.advance false := by
  rw [take]
  refine .look h ?_
  rw [if_pos hx]
  exact (reaches_advance_of_some h hx).bind (Nat.le_refl _) fun _ hs' => .here hs' true

theorem reaches_take_of_ne {x : Char} (h : s.Shows c held) (hx : c.current ≠ some x) :
    Reaches (take x) s false c held := by
  rw [take]
  refine .look h ?_
  rw [if_neg hx]
  exact .here h false

theorem reaches_make (move : Move) (h : s.Shows c held) (hfuel : c.size < fuel)
    (hone : move.isPushBack = true -> held = false) :
    Reaches (make fuel move) s (move.failure? c) (move.apply c) (move.holds held c) := by
  cases move with
  | advance => exact (reaches_advance h).bind (Nat.le_refl _) fun _ hs' => .here hs' none
  | skipSpace => exact (reaches_skipSpace h hfuel).bind (Nat.le_refl _) fun _ hs' => .here hs' none
  | nextNonSpace =>
      refine (reaches_advance h).bind (Nat.le_add_right _ _) fun s₁ hs₁ => ?_
      have hsize := Nat.lt_of_le_of_lt c.size_advance_le hfuel
      refine (reaches_skipSpace hs₁ hsize).bind (Nat.le_refl _) fun s₂ hs₂ => ?_
      refine .here (hs₂.mono fun hstay => ?_) none
      simp only [Bool.and_eq_true, decide_eq_true_eq] at hstay
      rw [Move.holds_eq rfl, Move.apply, Cursor.nextNonSpace, hstay.2, hstay.1.1, hstay.1.2,
        decide_eq_true rfl]
      rfl
  | pushBack x =>
      cases hone rfl
      exact (reaches_pushBack x h).bind (Nat.le_refl _) fun _ hs' => .here hs' none
  | expect x =>
      by_cases hx : c.skipSpace.current = some x
      · rw [Move.holds_eq rfl, (Move.apply_expect hx).1, (Move.apply_expect hx).2]
        have hline := Move.line_le_line_apply .advance c.skipSpace
        refine (reaches_skipSpace h hfuel).bind hline fun s₁ hs₁ => ?_
        refine (reaches_take hs₁ hx).bind (Nat.le_refl _) fun s₂ hs₂ => ?_
        exact .here hs₂.of_free none
      · rw [Move.holds_eq rfl, (Move.apply_expect_of_ne hx).1, (Move.apply_expect_of_ne hx).2]
        refine (reaches_skipSpace h hfuel).bind (Nat.le_refl _) fun s₁ hs₁ => ?_
        refine (reaches_take_of_ne hs₁ hx).bind (Nat.le_refl _) fun s₂ hs₂ => ?_
        exact .look hs₂ (.locate hs₂ (.here hs₂ _))
  | report what =>
      refine .look h (.locate h (.here (h.mono fun hheld => ?_) _))
      rw [hheld, Move.holds_eq rfl, Move.apply, decide_eq_true rfl]
      rfl

theorem reaches_follow (moves : List Move) (h : s.Shows c held) (hone : c.PutsBackOne held moves)
    (hfuel : c.size + moves.length < fuel) :
    Reaches (follow fuel moves) s (c.follow moves).1 (c.follow moves).2 true := by
  -- What is held back changes from step to step; it tells whether the slot has room for another.
  induction moves generalizing s c held with
  | nil => exact .here (h.mono fun _ => rfl) []
  | cons move moves ih =>
      have hline := (move.apply c).line_le_line_follow moves
      have hsize := move.size_apply_le c
      rw [List.length_cons] at hfuel
      refine (reaches_make move h (by omega) hone.1).bind hline fun s₁ hs₁ => ?_
      refine (ih hs₁ hone.2 (by omega)).bind (Nat.le_refl _) fun s₂ hs₂ => ?_
      exact .here hs₂ _

end

/-- For all steps that put back one character at a time, and after each of them, a scanner is a list
of characters with a line, and so is a cursor: every step does to that list what it should, the
current character is the head of the list, the line counts the newlines that were dropped, and the
text is what was dropped with what is left behind it, as long as nothing was put back.  Only a
scanner may have to give up, when there are more lines than it can count. -/
theorem follow_refines_list (resource text : String) (moves : List Move) (fuel : Nat)
    (hone : (Cursor.ofText resource text).PutsBackOne false moves)
    (hfuel : text.length + moves.length < fuel) (before : List Move) (hbefore : before <+: moves) :
    ∃ gone rest reports,
      Move.BringsAll before (.ofText resource text) gone rest reports
      ∧ rest.location = ⟨resource, 1 + Cursor.newlines gone⟩
      ∧ ((∀ x, Move.pushBack x ∉ before) -> gone ++ rest.remaining = text.toList)
      ∧ (Cursor.ofText resource text).follow before = (reports, rest)
      ∧ if rest.line < Scanner.lineBound then
          ∃ s, follow fuel before (.ofText resource text) = .ok (reports, s)
            ∧ s.cursor = rest ∧ s.current = rest.remaining.head?
        else follow fuel before (.ofText resource text) = .error (.crashed .lineOverflow) := by
  rcases Move.exists_bringsAll before (.ofText resource text) with ⟨gone, hbrings⟩
  refine ⟨gone, _, _, hbrings, hbrings.location_eq, ?_, rfl, ?_⟩
  · intro hforward
    exact (hbrings.passes hforward).remaining_eq.symm
  · have hsize : (Cursor.ofText resource text).size = text.length := String.length_toList
    have hlength := hbefore.length_le
    have hfuel' : (Cursor.ofText resource text).size + before.length < fuel := by omega
    have hreach := reaches_follow before (.ofText resource text) (hone.of_before hbefore) hfuel'
    rw [Reaches] at hreach
    split
    · next hline =>
        rw [if_pos hline] at hreach
        rcases hreach with ⟨s, hrun, hs⟩
        exact ⟨s, hrun, hs.cursor_eq, hs.current_eq⟩
    · next hline =>
        rw [if_neg hline] at hreach
        exact hreach

/-- A character is put back in front of a newline, and another one at the end of the text. -/
theorem follow_refines_list_dot :
    let moves : List Move :=
      [.advance, .advance, .pushBack '.', .nextNonSpace, .expect ')', .expect ']', .pushBack '!',
        .advance, .advance]
    let reports : List (Option (Located ParseError)) :=
      [none, none, none, none, some ⟨.expected (ParseError.quoted ')') (some ']'), ⟨"t", 2⟩⟩,
        none, none, none, none]
    (Cursor.ofText "t" "a.\n ]").PutsBackOne false moves ∧ "a.\n ]".length + moves.length < 15
      ∧ moves <+: moves
      ∧ (∃ gone, Move.BringsAll moves (.ofText "t" "a.\n ]") gone ⟨"t", [], 2⟩ reports)
      ∧ ∃ s, follow 15 moves (.ofText "t" "a.\n ]") = .ok (reports, s)
          ∧ s.cursor = ⟨"t", [], 2⟩ ∧ s.current = none := by
  intro moves reports
  have hone : (Cursor.ofText "t" "a.\n ]").PutsBackOne false moves := by decide
  have hfuel : "a.\n ]".length + moves.length < 15 := by decide
  have hend : (Cursor.ofText "t" "a.\n ]").follow moves = (reports, ⟨"t", [], 2⟩) := by decide
  rcases follow_refines_list "t" "a.\n ]" moves 15 hone hfuel moves List.prefix_rfl with
    ⟨gone, rest, found, hbrings, _, _, hfollow, hscan⟩
  rw [hend] at hfollow
  cases hfollow
  rw [if_pos (by decide)] at hscan
  exact ⟨hone, hfuel, List.prefix_rfl, ⟨gone, hbrings⟩, hscan⟩

end Scan

end Stencil
