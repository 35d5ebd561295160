import Stencil.Expr.Reader
import Stencil.Proofs.Consuming
import Stencil.Proofs.Spelling

/-!
# Reading further on

What a reader gives does not depend on the line it starts on, except that its locations move with
it, and hardly on what follows the text: as long as something is left, more text behind it is just
left as well.  Only in front of the last character may a reader look at the end of the text, so that
character has to be one that nothing behind it can add to.
-/

namespace Stencil

/-!
## Shifted lines
-/

def Location.shift (d : Nat) (location : Location) : Location :=
  ⟨location.resource, location.line + d⟩

def Construct.shift (d : Nat) : Construct → Construct
  | outside => outside
  | inside opener line => inside opener (line + d)

def ParseError.shift (d : Nat) : ParseError → ParseError
  | unexpectedStop stop construct => unexpectedStop stop (construct.shift d)
  | cause => cause

def Located.shift (d : Nat) (e : Located ParseError) : Located ParseError :=
  ⟨e.cause.shift d, e.location.shift d⟩

theorem Construct.accepts_shift (d : Nat) (construct : Construct) (stop : Stop) :
    (construct.shift d).accepts stop = construct.accepts stop := by
  cases construct <;> rfl

/-!
## Firm texts
-/

namespace Text

/-- The characters that nothing behind them can add to. -/
def seals : List Char :=
  ['\x7d', '#', '\n', ')']

/-- If there is more to follow, the text does not end in the middle of anything. -/
def Firm (more cs : List Char) : Prop :=
  more = [] ∨ ∀ x ∈ cs.getLast?, x ∈ seals

/-- There is something left, or nothing follows. -/
def Decided (more cs : List Char) : Prop :=
  more = [] ∨ cs ≠ []

theorem Firm.of_suffix {more cs back : List Char} (h : Firm more cs) (hback : back <:+ cs) :
    Firm more back := by
  rcases h with h | h
  · exact Or.inl h
  · refine Or.inr fun x hx => h x ?_
    rcases hback with ⟨front, rfl⟩
    rw [List.getLast?_append, Option.mem_def.mp hx]
    rfl

theorem Decided.mono {more cs ds : List Char} (h : Decided more ds)
    (hlength : ds.length ≤ cs.length) : Decided more cs := by
  refine h.imp_right fun hne => ?_
  rintro rfl
  exact hne (List.eq_nil_of_length_eq_zero (Nat.le_zero.mp hlength))

theorem firm_of_not_decided {more cs : List Char} (h : ¬ Decided more cs) : Firm more cs := by
  rcases not_or.mp h with ⟨_, hcs⟩
  rw [not_not.mp hcs]
  exact Or.inr fun x hx => by cases hx

end Text

namespace Cursor

/-- The cursor `d` lines further down, with `more` behind its text. -/
def move (d : Nat) (more : List Char) (c : Cursor) : Cursor :=
  ⟨c.resource, c.remaining ++ more, c.line + d⟩

variable {d : Nat} {more : List Char} {c r : Cursor} {x : Char}

theorem current_move (h : Text.Decided more c.remaining) : (c.move d more).current = c.current := by
  rcases c with ⟨resource, remaining, line⟩
  cases remaining with
  | nil =>
      rcases h with rfl | h
      · rfl
      · exact absurd rfl h
  | cons x rest => rfl

theorem current_move_of_current (h : c.current = some x) : (c.move d more).current = some x := by
  rcases c with ⟨resource, remaining, line⟩
  cases remaining with
  | nil => cases h
  | cons y rest => exact h

theorem advance_move (h : c.current = some x) :
    (c.move d more).advance = c.advance.move d more := by
  rcases c with ⟨resource, remaining, line⟩
  cases remaining with
  | nil => cases h
  | cons y rest =>
      change (⟨resource, rest ++ more, line + d + newlines [y]⟩ : Cursor)
        = ⟨resource, rest ++ more, line + newlines [y] + d⟩
      rw [Nat.add_right_comm]

theorem advance_move_of_decided (h : Text.Decided more c.remaining) :
    (c.move d more).advance = c.advance.move d more := by
  rcases c with ⟨resource, remaining, line⟩
  cases remaining with
  | nil =>
      rcases h with rfl | h
      · rfl
      · exact absurd rfl h
  | cons x rest => exact advance_move rfl

theorem fail_move (cause : ParseError) (h : cause.shift d = cause) :
    (c.move d more).fail cause = (c.fail cause).shift d := by
  rw [fail, fail, Located.shift, h]
  rfl

section

variable {p : Char → Bool}

theorem head?_dropWhile_append (h : Text.Decided more (c.dropWhile p).remaining) :
    ∀ x ∈ ((c.dropWhile p).remaining ++ more).head?, p x = false := by
  intro x hx
  refine head?_dropWhile p c x ?_
  rcases h with rfl | h
  · rw [List.append_nil] at hx
    exact hx
  · rw [List.head?_append_of_ne_nil _ h] at hx
    exact hx

theorem remaining_move_eq (p : Char → Bool) :
    (c.move d more).remaining = c.takeWhile p ++ ((c.dropWhile p).remaining ++ more) := by
  rw [← List.append_assoc, ← (passes_dropWhile p c).remaining_eq]
  rfl

theorem takeWhile_move (h : Text.Decided more (c.dropWhile p).remaining) :
    (c.move d more).takeWhile p = c.takeWhile p := by
  rw [takeWhile, remaining_move_eq p]
  exact takeWhile_append_stop (forall_takeWhile p c) (head?_dropWhile_append h)

theorem dropWhile_move (h : Text.Decided more (c.dropWhile p).remaining) :
    (c.move d more).dropWhile p = (c.dropWhile p).move d more := by
  have hdrop : (c.move d more).remaining.dropWhile p = (c.dropWhile p).remaining ++ more := by
    rw [remaining_move_eq p]
    exact dropWhile_append_stop (forall_takeWhile p c) (head?_dropWhile_append h)
  have htake : (c.move d more).remaining.takeWhile p = c.takeWhile p := takeWhile_move h
  rw [dropWhile, hdrop, htake, move, move, Nat.add_right_comm]
  rfl

theorem skipSpace_move (h : Text.Decided more c.skipSpace.remaining) :
    (c.move d more).skipSpace = c.skipSpace.move d more :=
  dropWhile_move h

theorem accept_move (h : Text.Decided more (c.accept x).remaining) :
    (c.move d more).accept x = (c.accept x).move d more := by
  by_cases hcurrent : c.current = some x
  · rw [accept_of_current hcurrent, ← advance_move hcurrent]
    exact accept_of_current (current_move_of_current hcurrent)
  · rw [accept_of_ne hcurrent] at h ⊢
    refine accept_of_ne ?_
    rw [current_move h]
    exact hcurrent

theorem advance_suffix (c : Cursor) : c.advance.remaining <:+ c.remaining := by
  rcases c with ⟨resource, remaining, line⟩
  cases remaining with
  | nil => exact List.suffix_refl _
  | cons x rest => exact List.suffix_cons x rest

theorem accept_suffix (x : Char) (c : Cursor) : (c.accept x).remaining <:+ c.remaining := by
  rw [accept]
  split
  · next hcurrent => exact (passes_advance hcurrent).suffix
  · exact List.suffix_refl _

end

end Cursor

theorem Parsed.eq_of {p p' : Parsed n α} (hvalue : p.value = p'.value) (hrest : p.rest = p'.rest) :
    p = p' := by
  cases p
  cases p'
  cases hvalue
  cases hrest
  rfl

namespace Attempt

theorem outcome_eq {p : Parsed n α} {value : α} {rest : Cursor} (hvalue : p.value = value)
    (hrest : p.rest = rest) : outcome (.ok p : Attempt (Parsed n α)) = .ok (value, rest) := by
  rw [outcome_ok, hvalue, hrest]

/-- Further down, and with more behind the text, the same is read. -/
structure Carries (d : Nat) (more : List Char) (rel : α → β) (x : Attempt (Parsed n α))
    (y : Attempt (Parsed m β)) : Prop where
  ok : ∀ value rest, x.outcome = .ok (value, rest) ->
    Text.Firm more rest.remaining
      ∧ (Text.Decided more rest.remaining -> y.outcome = .ok (rel value, rest.move d more))
  error : ∀ e, x.outcome = .error e -> more = [] -> y.outcome = .error (e.shift d)

namespace Carries

variable {d : Nat} {more : List Char} {c r : Cursor} {rel : α → β}

theorem of_outcome {x : Attempt (Parsed n α)} {x' : Attempt (Parsed n' α)}
    {y : Attempt (Parsed m β)} {y' : Attempt (Parsed m' β)} (hx : x.outcome = x'.outcome)
    (hy : y.outcome = y'.outcome) (h : Carries d more rel x' y') : Carries d more rel x y where
  ok := fun value rest hvalue => by
    rw [hx] at hvalue
    rw [hy]
    exact h.ok value rest hvalue
  error := fun e he hmore => by
    rw [hx] at he
    rw [hy]
    exact h.error e he hmore

/-- Where the text ends and more follows, nothing has to be shown. -/
theorem settle {x : Attempt (Parsed n α)} {y : Attempt (Parsed m β)} (hsize : n ≤ c.size + 1)
    (h : Text.Decided more c.remaining -> Carries d more rel x y) : Carries d more rel x y := by
  by_cases hdecided : Text.Decided more c.remaining
  · exact h hdecided
  · refine ⟨fun value rest hvalue => ?_, fun e he hnil => absurd (Or.inl hnil) hdecided⟩
    rcases eq_ok_of_outcome hvalue with ⟨hlt, _⟩
    have hrest : ¬ Text.Decided more rest.remaining :=
      fun hrest => hdecided (hrest.mono (Nat.le_of_lt_succ (Nat.lt_of_lt_of_le hlt hsize)))
    exact ⟨Text.firm_of_not_decided hrest, fun hfound => absurd hfound hrest⟩

theorem within {x : Attempt (Parsed k α)} {y : Attempt (Parsed k' β)}
    (hx : Carries d more rel x y) (h : k ≤ n) (h' : k' ≤ m) :
    Carries d more rel (x.within h : Attempt (Parsed n α)) (y.within h' : Attempt (Parsed m β)) :=
  of_outcome (outcome_within h x) (outcome_within h' y) hx

theorem weaken {x : Attempt (Parsed n α)} {y : Attempt (Parsed m β)}
    (hx : Carries d more rel x y) : Carries d more rel x.weaken y.weaken :=
  of_outcome (outcome_weaken x) (outcome_weaken y) hx

theorem after {r' : Cursor} {x : Attempt (Parsed r.size α)} {y : Attempt (Parsed r'.size β)}
    (hx : Carries d more rel x y) (h : r.size < n) (h' : r'.size < m) :
    Carries d more rel (x.after h) (y.after h') :=
  of_outcome (outcome_after h x) (outcome_after h' y) hx

theorem afterStep {r' : Cursor} {x : Attempt (Parsed (r.size + 1) α)}
    {y : Attempt (Parsed (r'.size + 1) β)} (hx : Carries d more rel x y) (h : r.size < n)
    (h' : r'.size < m) : Carries d more rel (x.afterStep h) (y.afterStep h') :=
  of_outcome (outcome_afterStep h x) (outcome_afterStep h' y) hx

theorem afterSpace {r' : Cursor} {x : Attempt (Parsed (r.skipSpace.size + 1) α)}
    {y : Attempt (Parsed (r'.skipSpace.size + 1) β)} (hx : Carries d more rel x y) :
    Carries d more rel x.afterSpace y.afterSpace :=
  of_outcome (outcome_afterSpace x) (outcome_afterSpace y) hx

theorem mapValue {f : α → α'} {f' : β → β'} {rel' : α' → β'} {x : Attempt (Parsed n α)}
    {y : Attempt (Parsed m β)} (hx : Carries d more rel x y)
    (hf : ∀ value, f' (rel value) = rel' (f value)) :
    Carries d more rel' (x.mapValue f) (y.mapValue f') where
  ok := fun value rest hvalue => by
    rw [outcome_mapValue] at hvalue
    cases h : x.outcome with
    | error e =>
        rw [h] at hvalue
        cases hvalue
    | ok found =>
        rw [h] at hvalue
        cases hvalue
        rcases hx.ok found.1 found.2 h with ⟨hfirm, hy⟩
        refine ⟨hfirm, fun hdecided => ?_⟩
        rw [outcome_mapValue, hy hdecided, ← hf]
        rfl
  error := fun e he hmore => by
    rw [outcome_mapValue] at he
    cases h : x.outcome with
    | ok found =>
        rw [h] at he
        cases he
    | error found =>
        rw [h] at he
        cases he
        rw [outcome_mapValue, hx.error _ h hmore]
        rfl

theorem drop {f : Cursor → Cursor} {x x' : Attempt (Parsed n α)} {y y' : Attempt (Parsed m β)}
    (hx : Carries d more rel x y)
    (hout : x'.outcome = x.outcome.map fun found => (found.1, f found.2))
    (hout' : y'.outcome = y.outcome.map fun found => (found.1, f found.2))
    (hsuffix : ∀ c : Cursor, (f c).remaining <:+ c.remaining)
    (hf : ∀ c : Cursor, Text.Decided more (f c).remaining ->
      f (c.move d more) = (f c).move d more) :
    Carries d more rel x' y' where
  ok := fun value rest hvalue => by
    rw [hout] at hvalue
    cases h : x.outcome with
    | error e =>
        rw [h] at hvalue
        cases hvalue
    | ok found =>
        rw [h] at hvalue
        cases hvalue
        rcases hx.ok found.1 found.2 h with ⟨hfirm, hy⟩
        refine ⟨hfirm.of_suffix (hsuffix _), fun hdecided => ?_⟩
        rw [hout', hy (hdecided.mono (hsuffix _).length_le), ← hf _ hdecided]
        rfl
  error := fun e he hmore => by
    rw [hout] at he
    cases h : x.outcome with
    | ok found =>
        rw [h] at he
        cases he
    | error found =>
        rw [h] at he
        cases he
        rw [hout', hx.error _ h hmore]
        rfl

theorem skipSpace {x : Attempt (Parsed n α)} {y : Attempt (Parsed m β)}
    (hx : Carries d more rel x y) : Carries d more rel x.skipSpace y.skipSpace :=
  hx.drop (outcome_skipSpace x) (outcome_skipSpace y) (fun _ => List.dropWhile_suffix _)
    fun _ => Cursor.skipSpace_move

theorem accept {x : Attempt (Parsed n α)} {y : Attempt (Parsed m β)}
    (hx : Carries d more rel x y) (z : Char) : Carries d more rel (x.accept z) (y.accept z) :=
  hx.drop (outcome_accept z x) (outcome_accept z y) (Cursor.accept_suffix z)
    fun _ => Cursor.accept_move

theorem atSpace {k k' : Cursor → Nat} {f : (c : Cursor) → Attempt (Parsed (k c) α)}
    {f' : (c : Cursor) → Attempt (Parsed (k' c) β)} (hsize : k c.skipSpace ≤ c.skipSpace.size + 1)
    (h : Carries d more rel (f c.skipSpace) (f' (c.skipSpace.move d more))) :
    Carries d more rel (f c.skipSpace) (f' (c.move d more).skipSpace) := by
  refine settle hsize fun hdecided => ?_
  rw [Cursor.skipSpace_move hdecided]
  exact h

theorem andThen {rel' : α' → β'} {x : Attempt (Parsed n α)} {y : Attempt (Parsed m β)}
    {next : α → (r : Cursor) → r.size < n → Attempt (Parsed r.size α')}
    {next' : β → (r : Cursor) → r.size < m → Attempt (Parsed r.size β')}
    (hx : Carries d more rel x y)
    (hnext : ∀ value r h h', Text.Firm more r.remaining ->
      Carries d more rel' (next value r h) (next' (rel value) (r.move d more) h')) :
    Carries d more rel' (x.andThen next) (y.andThen next') := by
  cases x with
  | error e =>
      refine ⟨fun value rest hvalue => (by cases hvalue), fun found he hmore => ?_⟩
      cases he
      rw [eq_error_of_outcome (hx.error e rfl hmore)]
      rfl
  | ok p =>
      rcases p with ⟨value, r, hlt⟩
      rcases hx.ok value r rfl with ⟨hfirm, hy⟩
      refine of_outcome (outcome_after hlt _) rfl ?_
      refine settle (c := r) (Nat.le_succ _) fun hdecided => ?_
      rcases eq_ok_of_outcome (hy hdecided) with ⟨hlt', rfl⟩
      exact of_outcome rfl (outcome_after hlt' _) (hnext value r hlt hlt' hfirm)

theorem andMaybe {rel' : α' → β'} {x : Attempt (Parsed n α)} {y : Attempt (Parsed m β)}
    {next : α → (r : Cursor) → r.size < n → Attempt (Parsed (r.size + 1) α')}
    {next' : β → (r : Cursor) → r.size < m → Attempt (Parsed (r.size + 1) β')}
    (hx : Carries d more rel x y)
    (hnext : ∀ value r h h', Text.Firm more r.remaining ->
      Carries d more rel' (next value r h) (next' (rel value) (r.move d more) h')) :
    Carries d more rel' (x.andMaybe next) (y.andMaybe next') := by
  cases x with
  | error e =>
      refine ⟨fun value rest hvalue => (by cases hvalue), fun found he hmore => ?_⟩
      cases he
      rw [eq_error_of_outcome (hx.error e rfl hmore)]
      rfl
  | ok p =>
      rcases p with ⟨value, r, hlt⟩
      rcases hx.ok value r rfl with ⟨hfirm, hy⟩
      refine of_outcome (outcome_afterStep hlt _) rfl ?_
      refine settle (c := r) (Nat.le_refl _) fun hdecided => ?_
      rcases eq_ok_of_outcome (hy hdecided) with ⟨hlt', rfl⟩
      exact of_outcome rfl (outcome_afterStep hlt' _) (hnext value r hlt hlt' hfirm)

theorem done {p : Parsed n α} {y : Attempt (Parsed m β)}
    (hfirm : Text.Firm more p.rest.remaining)
    (h : Text.Decided more p.rest.remaining ->
      y.outcome = .ok (rel p.value, p.rest.move d more)) :
    Carries d more rel (.ok p) y where
  ok := fun value rest hvalue => by
    cases hvalue
    exact ⟨hfirm, h⟩
  error := fun e he _ => by cases he

theorem ended {p : Parsed n α} {y : Attempt (Parsed m β)} (hsize : p.rest.size ≤ c.size)
    (h : ¬ Text.Decided more c.remaining) : Carries d more rel (.ok p) y := by
  have hrest : ¬ Text.Decided more p.rest.remaining := fun hrest => h (hrest.mono hsize)
  exact .done (Text.firm_of_not_decided hrest) fun hdecided => absurd hdecided hrest

theorem failed {x : Attempt (Parsed n α)} {e : Located ParseError} {y : Attempt (Parsed m β)}
    (hx : x = .error e) (h : more = [] -> y = .error (e.shift d)) : Carries d more rel x y where
  ok := fun value rest hvalue => by
    rw [hx] at hvalue
    cases hvalue
  error := fun found he hmore => by
    rw [hx] at he
    cases he
    rw [h hmore]
    rfl

end Carries

end Attempt

/-!
## The smallest readers
-/

namespace Cursor

open Attempt

variable {d : Nat} {more : List Char} {c r : Cursor} {x : Char}

theorem next?_of_current (h : c.current = some x) :
    c.next? = some ⟨x, c.advance, size_advance_lt h⟩ := by
  rcases c with ⟨resource, remaining, line⟩
  cases remaining with
  | nil => cases h
  | cons y rest =>
      cases h
      rfl

theorem next?_of_none (h : c.current = none) : c.next? = none := by
  rcases c with ⟨resource, remaining, line⟩
  cases remaining with
  | nil => rfl
  | cons y rest => cases h

theorem take?_move_cases (hdecided : Text.Decided more c.remaining)
    (hfirm : Text.Firm more c.remaining) (d : Nat) (x : Char) :
    (∃ r h h', c.take? x = some ⟨r, h⟩ ∧ (c.move d more).take? x = some ⟨r.move d more, h'⟩
      ∧ Text.Firm more r.remaining)
    ∨ (c.take? x = none ∧ (c.move d more).take? x = none) := by
  by_cases hcurrent : c.current = some x
  · refine Or.inl ⟨c.advance, size_advance_lt hcurrent, ?_, take?_of_current hcurrent, ?_, ?_⟩
    · rw [← advance_move hcurrent]
      exact size_advance_lt (current_move_of_current hcurrent)
    · rw [take?_of_current (current_move_of_current hcurrent)]
      exact congrArg some (Subtype.ext (advance_move hcurrent))
    · exact hfirm.of_suffix (passes_advance hcurrent).suffix
  · refine Or.inr ⟨take?_of_ne hcurrent, take?_of_ne ?_⟩
    rw [current_move hdecided]
    exact hcurrent

theorem unexpected_move (hdecided : Text.Decided more c.remaining) (what : String) :
    (c.move d more).unexpected what = (c.unexpected what).shift d := by
  rw [unexpected, unexpected, current_move hdecided]
  exact fail_move _ rfl

theorem next?_move_cases (hdecided : Text.Decided more c.remaining)
    (hfirm : Text.Firm more c.remaining) (d : Nat) :
    (∃ x r h h', c.next? = some ⟨x, r, h⟩ ∧ (c.move d more).next? = some ⟨x, r.move d more, h'⟩
      ∧ Text.Firm more r.remaining)
    ∨ (c.next? = none ∧ (c.move d more).next? = none) := by
  cases hcurrent : c.current with
  | none =>
      have hmove := (current_move (d := d) hdecided).trans hcurrent
      exact Or.inr ⟨next?_of_none hcurrent, next?_of_none hmove⟩
  | some x =>
      have hmove : (c.move d more).current = some x := current_move_of_current hcurrent
      have hlt := size_advance_lt hmove
      rw [advance_move hcurrent] at hlt
      refine Or.inl ⟨x, c.advance, size_advance_lt hcurrent, hlt, next?_of_current hcurrent, ?_, ?_⟩
      · rw [next?_of_current hmove]
        exact congrArg some (Parsed.eq_of rfl (advance_move hcurrent))
      · exact hfirm.of_suffix (passes_advance hcurrent).suffix

theorem carries_require (hfirm : Text.Firm more c.remaining) (x : Char) (what : String) :
    Carries d more id (c.require x what) ((c.move d more).require x what) := by
  refine Carries.settle (c := c) (Nat.le_succ _) fun hdecided => ?_
  rw [require, require]
  rcases take?_move_cases hdecided hfirm d x with ⟨r, h, h', htake, htake', hr⟩ | ⟨htake, htake'⟩
  · rw [htake, htake']
    exact .done hr fun _ => rfl
  · rw [htake, htake']
    exact .failed rfl fun _ => congrArg Except.error (unexpected_move hdecided what)

theorem firm_skipSpace (hfirm : Text.Firm more c.remaining) :
    Text.Firm more c.skipSpace.remaining :=
  hfirm.of_suffix (List.dropWhile_suffix _)

theorem carries_expect (hfirm : Text.Firm more c.remaining) (x : Char) :
    Carries d more id (c.expect x) ((c.move d more).expect x) := by
  refine Carries.within (Carries.atSpace (Nat.le_succ _) ?_) _ _
  exact carries_require (firm_skipSpace hfirm) x _

theorem take?_of_not_decided (h : ¬ Text.Decided more c.remaining) (x : Char) :
    c.take? x = none := by
  refine take?_of_ne fun hcurrent => ?_
  rw [current, not_not.mp (not_or.mp h).2] at hcurrent
  cases hcurrent

theorem atLetter_of_not_decided (h : ¬ Text.Decided more c.remaining) : c.atLetter = false := by
  rw [atLetter, current, not_not.mp (not_or.mp h).2]
  rfl

theorem atLetter_move (hdecided : Text.Decided more c.remaining) :
    (c.move d more).atLetter = c.atLetter := by
  rw [atLetter, atLetter, current_move hdecided]

theorem carries_identifier (hfirm : Text.Firm more c.remaining) (what : String) :
    Carries d more id (c.identifier what) ((c.move d more).identifier what) := by
  refine Carries.settle (c := c) (Nat.le_succ _) fun hdecided => ?_
  rw [identifier, identifier]
  by_cases hletter : c.atLetter = true
  · rw [dif_pos hletter, dif_pos ((atLetter_move hdecided).trans hletter)]
    refine .done (hfirm.of_suffix (List.dropWhile_suffix _)) fun hrest => ?_
    refine outcome_eq ?_ (dropWhile_move hrest)
    exact congrArg String.ofList (takeWhile_move hrest)
  · rw [dif_neg hletter, dif_neg (fun h => hletter ((atLetter_move hdecided).symm.trans h))]
    refine .failed rfl fun _ => congrArg Except.error ?_
    rw [current_move hdecided]
    exact fail_move _ rfl

theorem decided_of_passes (hfirm : Text.Firm more c.remaining) (hpass : c.Passes [x] r)
    (hx : x ∉ Text.seals) : Text.Decided more r.remaining := by
  refine hfirm.imp_right fun hseal hnil => hx (hseal x ?_)
  rw [hpass.remaining_eq, hnil]
  rfl

end Cursor

end Stencil
