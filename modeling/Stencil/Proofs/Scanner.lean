import Stencil.Proofs.Consuming

/-!
# A parser over a stream of characters

A reader has the whole rest of the text in its hands.  A parser that is fed one character after the
other sees only the next one, has a single slot for a character that it puts back, and counts lines
in a machine word.  A scanner is the state of such a parser and a scan is a part of its work, which
may end with a value or with a parse error, may crash because the parser breaks one of its own
rules, or may go on for ever.  So that it can be told whether a scan ends, its loops and calls are
given fuel: one unit is used up by every call and by every turn of a loop, and without fuel the scan
stops.

The rules of this module compare scans with readers.  A scan agrees with a reader if it ends,
without a crash, with what the reader gives.
-/

namespace Stencil

structure Scanner where
  resource : String
  current : Option Char
  /-- The character behind the current one, if one has been put back. -/
  pushed : Option Char
  unread : List Char
  line : Nat
deriving DecidableEq, Repr

namespace Scanner

def lineBound : Nat :=
  UInt32.size

def ofText (resource text : String) : Scanner :=
  ⟨resource, text.toList.head?, none, text.toList.tail, 1⟩

/-- What is still to come: the current character, the one put back and the unread ones. -/
def remaining (s : Scanner) : List Char :=
  s.current.toList ++ (s.pushed.toList ++ s.unread)

def size (s : Scanner) : Nat :=
  s.remaining.length

def location (s : Scanner) : Location :=
  ⟨s.resource, s.line⟩

/-- Where a reader of the same text would be. -/
def cursor (s : Scanner) : Cursor :=
  ⟨s.resource, s.remaining, s.line⟩

/-- The scanner is at the end of the text only if nothing is left, and can count the lines left. -/
structure Ready (s : Scanner) : Prop where
  atEnd : s.current = none -> s.remaining = []
  line_lt : s.line + Cursor.newlines s.remaining < lineBound

/-- A character that was put back comes before the unread ones. -/
def refill (s : Scanner) : Scanner :=
  match s.pushed with
  | some x => { s with current := some x, pushed := none }
  | none => { s with current := s.unread.head?, unread := s.unread.tail }

end Scanner

/-- The rules that the parser must not break. -/
inductive Crash where
  | slotInUse
  | lineOverflow
  | endOfFileInConditional
  | cutTooLong
deriving DecidableEq, Repr

inductive Halt where
  | rejected (error : Located ParseError)
  | crashed (crash : Crash)
  | exhausted
deriving DecidableEq, Repr

abbrev Scan :=
  StateT Scanner (Except Halt)

namespace Scan

/-!
## Steps
-/

def crash (rule : Crash) : Scan α :=
  throw (.crashed rule)

def exhaust : Scan α :=
  throw .exhausted

def reject (error : Located ParseError) : Scan α :=
  throw (.rejected error)

def current : Scan (Option Char) := do
  return (← get).current

def location : Scan Location := do
  return (← get).location

def fail (cause : ParseError) : Scan α := do
  reject ⟨cause, ← location⟩

def unexpected (what : String) : Scan α := do
  fail (.expected what (← current))

def advance : Scan Unit := do
  let s ← get
  match s.current with
  | none => return
  | some x =>
      let line := s.line + Cursor.newlines [x]
      if line < Scanner.lineBound then set { s.refill with line } else crash .lineOverflow

def pushBack (x : Char) : Scan Unit := do
  let s ← get
  match s.pushed with
  | none => set { s with current := some x, pushed := s.current }
  | some _ => crash .slotInUse

def take (x : Char) : Scan Bool := do
  if (← current) = some x then
    advance
    return true
  else
    return false

def collect (p : Char → Bool) : Nat → Scan (List Char)
  | 0 => exhaust
  | fuel + 1 => do
      match ← current with
      | none => return []
      | some x =>
          if p x then
            advance
            return x :: (← collect p fuel)
          else
            return []

def skipSpace (fuel : Nat) : Scan Unit := do
  let _ ← collect Text.isBlank fuel
  return

def require (x : Char) (what : String) : Scan Unit := do
  if ← take x then return else unexpected what

def expect (x : Char) (fuel : Nat) : Scan Unit := do
  skipSpace fuel
  require x (ParseError.quoted x)

def atLetter : Scan Bool := do
  return (← current).any Char.isAlpha

def identifier (what : String) (fuel : Nat) : Scan String := do
  if ← atLetter then
    return String.ofList (← collect Text.isIdentifierChar fuel)
  else
    fail (.invalidIdentifier what (← current))

/-!
## The judgment
-/

/-- The scan ends as the reader does, and leaves the scanner where the reader stops. -/
def Agrees (m : Scan α) (s : Scanner) (x : Attempt (Parsed n α)) : Prop :=
  match x.outcome with
  | .ok (value, rest) => ∃ s', m s = .ok (value, s') ∧ s'.cursor = rest ∧ s'.Ready
  | .error e => m s = .error (.rejected e)

section Bind

variable {m : Scan α} {k : α → Scan β} {s s' : Scanner} {value : α}

theorem bind_of_ok (hrun : m s = .ok (value, s')) : (m >>= k) s = k value s' := by
  change Except.bind (m s) _ = _
  rw [hrun]
  rfl

theorem bind_of_error {halt : Halt} (hrun : m s = .error halt) :
    (m >>= k) s = .error halt := by
  change Except.bind (m s) _ = _
  rw [hrun]
  rfl

theorem exists_of_bind_eq_ok {result : β × Scanner}
    (hrun : (m >>= k) s = .ok result) :
    ∃ value s₁, m s = .ok (value, s₁) ∧ k value s₁ = .ok result := by
  cases hfirst : m s with
  | error halt =>
      rw [bind_of_error hfirst] at hrun
      cases hrun
  | ok found =>
      rw [bind_of_ok hfirst] at hrun
      exact ⟨found.1, found.2, rfl, hrun⟩

theorem bind_get {k : Scanner → Scan β} {s : Scanner} : (get >>= k) s = k s s :=
  rfl

theorem bind_location {k : Location → Scan β} {s : Scanner} :
    (location >>= k) s = k s.location s :=
  rfl

theorem bind_current {k : Option Char → Scan β} {s : Scanner} :
    (current >>= k) s = k s.current s :=
  rfl

end Bind

namespace Agrees

variable {m : Scan α} {k : α → Scan β} {s s' : Scanner} {r : Cursor} {f : α → β}

theorem of_outcome {x : Attempt (Parsed n α)} {y : Attempt (Parsed l α)}
    (h : x.outcome = y.outcome) (hy : Agrees m s y) : Agrees m s x := by
  rw [Agrees, h]
  exact hy

theorem ok {p : Parsed n α} (hrun : m s = .ok (p.value, s')) (hrest : s'.cursor = p.rest)
    (ready : s'.Ready) : Agrees m s (.ok p : Attempt (Parsed n α)) :=
  ⟨s', hrun, hrest, ready⟩

theorem reject (e : Located ParseError) :
    Agrees (Scan.reject e) s (.error e : Attempt (Parsed n α)) :=
  rfl

theorem within {x : Attempt (Parsed l α)} (hx : Agrees m s x) (h : l ≤ n) :
    Agrees m s (x.within h) :=
  of_outcome (Attempt.outcome_within h x) hx

theorem weaken {x : Attempt (Parsed n α)} (hx : Agrees m s x) : Agrees m s x.weaken :=
  of_outcome (Attempt.outcome_weaken x) hx

theorem after {x : Attempt (Parsed r.size α)} (hx : Agrees m s x) (h : r.size < n) :
    Agrees m s (x.after h) :=
  of_outcome (Attempt.outcome_after h x) hx

theorem afterStep {x : Attempt (Parsed (r.size + 1) α)} (hx : Agrees m s x) (h : r.size < n) :
    Agrees m s (x.afterStep h) :=
  of_outcome (Attempt.outcome_afterStep h x) hx

theorem step {x : Attempt (Parsed n β)} {value : α} (hrun : m s = .ok (value, s'))
    (hx : Agrees (k value) s' x) : Agrees (m >>= k) s x := by
  rw [Agrees, bind_of_ok hrun]
  exact hx

theorem andThen {x : Attempt (Parsed n α)}
    {next : α → (r : Cursor) → r.size < n → Attempt (Parsed r.size β)} (hx : Agrees m s x)
    (hnext : ∀ value s' h, s'.Ready -> Agrees (k value) s' (next value s'.cursor h)) :
    Agrees (m >>= k) s (x.andThen next) := by
  cases x with
  | error e => exact bind_of_error hx
  | ok p =>
      rcases p with ⟨value, rest, hlt⟩
      rcases hx with ⟨s', hrun, rfl, ready⟩
      exact step hrun ((hnext value s' hlt ready).after hlt)

theorem andMaybe {x : Attempt (Parsed n α)}
    {next : α → (r : Cursor) → r.size < n → Attempt (Parsed (r.size + 1) β)} (hx : Agrees m s x)
    (hnext : ∀ value s' h, s'.Ready -> Agrees (k value) s' (next value s'.cursor h)) :
    Agrees (m >>= k) s (x.andMaybe next) := by
  cases x with
  | error e => exact bind_of_error hx
  | ok p =>
      rcases p with ⟨value, rest, hlt⟩
      rcases hx with ⟨s', hrun, rfl, ready⟩
      exact step hrun ((hnext value s' hlt ready).afterStep hlt)

theorem mapValue {x : Attempt (Parsed n α)} (hx : Agrees m s x) :
    Agrees (m >>= fun value => pure (f value)) s (x.mapValue f) := by
  cases x with
  | error e => exact bind_of_error hx
  | ok p =>
      rcases hx with ⟨s', hrun, hrest, ready⟩
      exact step hrun (ok rfl hrest ready)

theorem mapValue_mapValue {g : α → γ} {f : γ → β} {m : Scan γ} {x : Attempt (Parsed n α)}
    (hx : Agrees m s (x.mapValue g)) :
    Agrees (m >>= fun value => pure (f value)) s (x.mapValue fun value => f (g value)) := by
  have hmap := hx.mapValue (f := f)
  cases x <;> exact hmap

theorem mapValue_andMaybe {g : α → γ} {m : Scan γ} {k : γ → Scan β} {x : Attempt (Parsed n α)}
    {next : α → (r : Cursor) → r.size < n → Attempt (Parsed (r.size + 1) β)}
    (hx : Agrees m s (x.mapValue g))
    (hnext : ∀ value s' h, s'.Ready -> Agrees (k (g value)) s' (next value s'.cursor h)) :
    Agrees (m >>= k) s (x.andMaybe next) := by
  cases x with
  | error e => exact bind_of_error hx
  | ok p =>
      rcases p with ⟨value, rest, hlt⟩
      rcases hx with ⟨s', hrun, rfl, ready⟩
      exact step hrun ((hnext value s' hlt ready).afterStep hlt)

end Agrees

end Scan

/-!
## Runs of characters
-/

namespace Attempt

variable {x : Attempt (Parsed n α)}

theorem mapValue_id (x : Attempt (Parsed n α)) : x.mapValue (fun value => value) = x := by
  cases x <;> rfl

theorem skipSpace_within (h : n ≤ l) : (x.within h).skipSpace = x.skipSpace.within h := by
  cases x <;> rfl

theorem skipSpace_after {r : Cursor} (h : r.size < n) (x : Attempt (Parsed r.size α)) :
    (x.after h).skipSpace = x.skipSpace.after h := by
  cases x <;> rfl

theorem skipSpace_andThen {next : α → (r : Cursor) → r.size < n → Attempt (Parsed r.size β)} :
    (x.andThen next).skipSpace = x.andThen fun value r h => (next value r h).skipSpace := by
  cases x with
  | error e => rfl
  | ok p => exact skipSpace_after _ _

end Attempt

namespace Cursor

variable {c : Cursor} {p : Char → Bool} {x : Char}

theorem advance_atEnd (h : c.current = none) : c.advance = c := by
  rcases c with ⟨resource, _ | ⟨y, rest⟩, line⟩
  · rfl
  · cases h

theorem eq_cons_of_current (h : c.current = some x) :
    c = ⟨c.resource, x :: c.remaining.tail, c.line⟩ := by
  rcases c with ⟨resource, _ | ⟨y, rest⟩, line⟩
  · cases h
  · cases h
    rfl

theorem current_of_next?_none (h : c.next? = none) : c.current = none := by
  rw [next?] at h
  split at h
  · cases h
  · next hcurrent => exact hcurrent

theorem eq_of_next? {r : Cursor} {hlt : r.size < c.size} (h : c.next? = some ⟨x, r, hlt⟩) :
    c.current = some x ∧ r = c.advance := by
  rw [next?] at h
  split at h
  · next y hcurrent =>
      cases h
      exact ⟨hcurrent, rfl⟩
  · cases h

theorem eq_advance_of_take? {r : Cursor} {hlt : r.size < c.size} (h : c.take? x = some ⟨r, hlt⟩) :
    r = c.advance := by
  rw [take?_of_current (current_eq_of_take? h)] at h
  cases h
  rfl

theorem pushBack_advance (h : c.current = some x) (hx : x ≠ '\n') : c.advance.pushBack x = c := by
  have hline : newlines [x] = 0 :=
    List.count_eq_zero.mpr fun hmem => hx (List.mem_singleton.mp hmem).symm
  rw [eq_cons_of_current h, advance_cons, hline]
  rfl

theorem takeWhile_of_advance (h : c.current = some x) (hx : p x = true) :
    c.takeWhile p = x :: c.advance.takeWhile p := by
  rw [eq_cons_of_current h, advance_cons, takeWhile, List.takeWhile_cons_of_pos hx]
  rfl

theorem dropWhile_of_advance (h : c.current = some x) (hx : p x = true) :
    c.dropWhile p = c.advance.dropWhile p := by
  rw [eq_cons_of_current h, advance_cons, dropWhile, dropWhile]
  dsimp only
  rw [List.takeWhile_cons_of_pos hx, List.dropWhile_cons_of_pos hx, ← List.singleton_append,
    newlines_append, Nat.add_assoc]

end Cursor

/-!
## What the steps do
-/

namespace Scanner

variable {s : Scanner}

theorem current_cursor (atEnd : s.current = none -> s.remaining = []) :
    s.cursor.current = s.current := by
  change s.remaining.head? = s.current
  cases hcurrent : s.current with
  | none => rw [atEnd hcurrent, List.head?_nil]
  | some x => rw [remaining, hcurrent, Option.toList_some, List.cons_append, List.head?_cons]

theorem Ready.current_eq (ready : s.Ready) : s.cursor.current = s.current :=
  current_cursor ready.atEnd

theorem Ready.atLetter_eq (ready : s.Ready) : s.cursor.atLetter = s.current.any Char.isAlpha := by
  rw [Cursor.atLetter, ready.current_eq]

theorem remaining_refill (s : Scanner) : s.refill.remaining = s.pushed.toList ++ s.unread := by
  rw [refill]
  cases s.pushed with
  | none =>
      change s.unread.head?.toList ++ s.unread.tail = s.unread
      cases s.unread <;> rfl
  | some x => rfl

theorem pushed_refill (s : Scanner) : s.refill.pushed = none := by
  rw [refill]
  cases s.pushed <;> rfl

theorem resource_refill (s : Scanner) : s.refill.resource = s.resource := by
  rw [refill]
  cases s.pushed <;> rfl

theorem atEnd_refill (hcurrent : s.refill.current = none) : s.refill.remaining = [] := by
  rw [remaining_refill]
  rw [refill] at hcurrent
  cases hpushed : s.pushed with
  | none =>
      rw [hpushed] at hcurrent
      exact List.head?_eq_none_iff.mp hcurrent
  | some x =>
      rw [hpushed] at hcurrent
      cases hcurrent

theorem cursor_of_some {x : Char} (hcurrent : s.current = some x) :
    s.cursor = ⟨s.resource, x :: s.refill.remaining, s.line⟩ := by
  rw [cursor, remaining, hcurrent, remaining_refill]
  rfl

theorem cursor_ofText (resource text : String) :
    (ofText resource text).cursor = Cursor.ofText resource text := by
  rw [cursor, remaining, ofText, Cursor.ofText]
  cases text.toList <;> rfl

theorem remaining_ofText (resource text : String) :
    (ofText resource text).remaining = text.toList :=
  congrArg Cursor.remaining (cursor_ofText resource text)

theorem atEnd_ofText {resource text : String} (hcurrent : (ofText resource text).current = none) :
    (ofText resource text).remaining = [] := by
  rw [remaining_ofText]
  exact List.head?_eq_none_iff.mp hcurrent

theorem ready_ofText {resource text : String}
    (hlines : Cursor.newlines text.toList + 1 < lineBound) : (ofText resource text).Ready := by
  refine ⟨atEnd_ofText, ?_⟩
  rw [remaining_ofText, Nat.add_comm]
  exact hlines

/-- The scanner stands for the list of characters that `c` has.  Only if a character is held back,
which `held` tells, there may be one in the slot. -/
structure Shows (s : Scanner) (c : Cursor) (held : Bool) : Prop where
  cursor_eq : s.cursor = c
  atEnd : s.current = none -> s.remaining = []
  countable : s.line < lineBound
  free : held = false -> s.pushed = none

namespace Shows

variable {c : Cursor} {held held' : Bool}

theorem mono (h : s.Shows c held) (himp : held = true -> held' = true) : s.Shows c held' where
  cursor_eq := h.cursor_eq
  atEnd := h.atEnd
  countable := h.countable
  free := by
    intro hfree
    refine h.free (Bool.eq_false_iff.mpr fun hheld => ?_)
    rw [himp hheld] at hfree
    cases hfree

/-- With a free slot it does not matter what is held back. -/
theorem of_free (h : s.Shows c false) : s.Shows c held :=
  h.mono fun hfalse => absurd hfalse Bool.false_ne_true

theorem current_eq (h : s.Shows c held) : s.current = c.current := by
  rw [← h.cursor_eq, current_cursor h.atEnd]

theorem line_lt (h : s.Shows c held) : c.line < lineBound := by
  rw [← h.cursor_eq]
  exact h.countable

theorem ofText (resource text : String) :
    (Scanner.ofText resource text).Shows (.ofText resource text) false where
  cursor_eq := cursor_ofText resource text
  atEnd := atEnd_ofText
  countable := show 1 < UInt32.size by decide
  free := fun _ => rfl

end Shows

theorem Ready.shows (ready : s.Ready) : s.Shows s.cursor true where
  cursor_eq := rfl
  atEnd := ready.atEnd
  countable := Nat.lt_of_le_of_lt (Nat.le_add_right _ _) ready.line_lt
  free := fun hfalse => absurd hfalse.symm Bool.false_ne_true

end Scanner

namespace Scan

variable {s : Scanner}

/-- The scan ends where `rest` is, unless the lines up to there are too many for the counter. -/
def Reaches (m : Scan α) (s : Scanner) (value : α) (rest : Cursor) (held : Bool) : Prop :=
  if rest.line < Scanner.lineBound then ∃ s', m s = .ok (value, s') ∧ s'.Shows rest held
  else m s = .error (.crashed .lineOverflow)

namespace Reaches

variable {m : Scan α} {k : α → Scan β} {s : Scanner} {value : α} {result : β} {c rest : Cursor}
  {held held' : Bool}

theorem here (h : s.Shows c held) (value : α) : Reaches (pure value) s value c held := by
  rw [Reaches, if_pos h.line_lt]
  exact ⟨s, rfl, h⟩

theorem mono (h : Reaches m s value c held) (himp : held = true -> held' = true) :
    Reaches m s value c held' := by
  rw [Reaches] at h ⊢
  split
  · next hline =>
      rw [if_pos hline] at h
      rcases h with ⟨s', hrun, hs'⟩
      exact ⟨s', hrun, hs'.mono himp⟩
  · next hline =>
      rw [if_neg hline] at h
      exact h

theorem of_free (h : Reaches m s value c false) : Reaches m s value c held :=
  h.mono fun hfalse => absurd hfalse Bool.false_ne_true

theorem bind (h : Reaches m s value c held) (hline : c.line ≤ rest.line)
    (hnext : ∀ s', s'.Shows c held -> Reaches (k value) s' result rest held') :
    Reaches (m >>= k) s result rest held' := by
  rw [Reaches] at h
  by_cases hc : c.line < Scanner.lineBound
  · rw [if_pos hc] at h
    rcases h with ⟨s', hrun, hs'⟩
    rw [Reaches, bind_of_ok hrun]
    exact hnext s' hs'
  · rw [if_neg hc] at h
    rw [Reaches, if_neg (by omega), bind_of_error h]

theorem look {k : Option Char → Scan α} (h : s.Shows c held)
    (hnext : Reaches (k c.current) s value rest held') :
    Reaches (current >>= k) s value rest held' := by
  rw [Reaches, bind_current, h.current_eq]
  exact hnext

theorem locate {k : Location → Scan α} (h : s.Shows c held)
    (hnext : Reaches (k c.location) s value rest held') :
    Reaches (location >>= k) s value rest held' := by
  rw [← h.cursor_eq] at hnext
  exact hnext

/-- Where all lines left can be counted, a scan that moves on does end, and they still can be. -/
theorem run {gone : List Char} (h : Reaches m s value rest held) (ready : s.Ready)
    (hpass : s.cursor.Passes gone rest) :
    ∃ s', m s = .ok (value, s') ∧ s'.Shows rest held ∧ s'.Ready := by
  have hremaining : Cursor.newlines s.remaining
      = Cursor.newlines gone + Cursor.newlines rest.remaining := by
    rw [← Cursor.newlines_append, ← hpass.remaining_eq]
    rfl
  have hline : rest.line = s.line + Cursor.newlines gone := hpass.line_eq
  have hlines : rest.line + Cursor.newlines rest.remaining < Scanner.lineBound := by
    have hready := ready.line_lt
    omega
  rw [Reaches, if_pos (Nat.lt_of_le_of_lt (Nat.le_add_right _ _) hlines)] at h
  rcases h with ⟨s', hrun, hs'⟩
  refine ⟨s', hrun, hs', hs'.atEnd, ?_⟩
  rw [← hs'.cursor_eq] at hlines
  exact hlines

end Reaches

section

variable {c : Cursor} {held : Bool}

theorem advance_atEnd (hcurrent : s.current = none) : advance s = .ok ((), s) := by
  rw [advance, bind_get, hcurrent]
  rfl

theorem reaches_advance_of_some {x : Char} (h : s.Shows c held) (hcurrent : c.current = some x) :
    Reaches advance s () c.advance false := by
  have hx : s.current = some x := h.current_eq.trans hcurrent
  rw [← h.cursor_eq, Scanner.cursor_of_some hx, Cursor.advance_cons, Reaches, advance, bind_get, hx]
  dsimp only
  split
  · next hline =>
      refine ⟨_, rfl, ?_, Scanner.atEnd_refill, hline, fun _ => s.pushed_refill⟩
      rw [← s.resource_refill]
      rfl
  · rfl

theorem reaches_collect (p : Char → Bool) (h : s.Shows c held) (hfuel : c.size < fuel) :
    Reaches (collect p fuel) s (c.takeWhile p) (c.dropWhile p) (held && c.dropWhile p = c) := by
  induction fuel generalizing s c held with
  | zero => exact absurd hfuel (Nat.not_lt_zero _)
  | succ fuel ih =>
      have hstop : c.current.any p = false ->
          Reaches (pure []) s (c.takeWhile p) (c.dropWhile p) (held && c.dropWhile p = c) := by
        intro hfront
        rw [Cursor.takeWhile_eq_nil hfront, Cursor.dropWhile_eq_self hfront]
        exact .here (h.mono fun hheld => by simp [hheld]) _
      rw [collect]
      refine .look h ?_
      cases hcurrent : c.current with
      | none => exact hstop (by rw [hcurrent]; rfl)
      | some x =>
          dsimp only
          split
          · next hx =>
              rw [Cursor.takeWhile_of_advance hcurrent hx, Cursor.dropWhile_of_advance hcurrent hx]
              have hlt := Cursor.size_advance_lt hcurrent
              refine (reaches_advance_of_some h hcurrent).bind (Nat.le_add_right _ _) ?_
              intro s₁ hs₁
              refine (ih hs₁ (by omega)).bind (Nat.le_refl _) fun s₂ hs₂ => ?_
              exact .here hs₂.of_free _
          · next hx =>
              exact hstop (by rw [hcurrent]; exact Bool.eq_false_iff.mpr hx)

end

theorem run_advance (ready : s.Ready) : ∃ s', advance s = .ok ((), s') ∧
    s'.cursor = s.cursor.advance ∧ s'.Ready ∧ s'.pushed = none := by
  cases hcurrent : s.current with
  | none =>
      have hremaining := ready.atEnd hcurrent
      rw [Scanner.remaining, List.append_eq_nil_iff, List.append_eq_nil_iff] at hremaining
      rw [Cursor.advance_atEnd (ready.current_eq.trans hcurrent)]
      exact ⟨s, advance_atEnd hcurrent, rfl, ready, Option.toList_eq_nil_iff.mp hremaining.2.1⟩
  | some x =>
      have hfront : s.cursor.current = some x := ready.current_eq.trans hcurrent
      rcases (reaches_advance_of_some ready.shows hfront).run ready (Cursor.passes_advance hfront)
        with ⟨s', hrun, hs', ready'⟩
      exact ⟨s', hrun, hs'.cursor_eq, ready', hs'.free rfl⟩

/-- Right behind a step the slot is free, and putting the character back undoes the step. -/
theorem run_pushBack {s₁ : Scanner} {x : Char} (ready : s.Ready)
    (hcurrent : s.cursor.current = some x) (hx : x ≠ '\n') (hs₁ : s₁.cursor = s.cursor.advance)
    (hfree : s₁.pushed = none) :
    ∃ s₂, pushBack x s₁ = .ok ((), s₂) ∧ s₂.cursor = s.cursor ∧ s₂.Ready := by
  rw [pushBack, bind_get, hfree]
  have hback : ({ s₁ with current := some x, pushed := s₁.current } : Scanner).cursor
      = s.cursor := by
    rw [← Cursor.pushBack_advance hcurrent hx, ← hs₁, Scanner.cursor, Scanner.cursor,
      Scanner.remaining, Scanner.remaining, hfree]
    rfl
  refine ⟨_, rfl, hback, nofun, ?_⟩
  have hline := ready.line_lt
  rw [← show _ = s.line from congrArg Cursor.line hback,
    ← show _ = s.remaining from congrArg Cursor.remaining hback] at hline
  exact hline

/-- A second character has no room. -/
example : pushBack '.' ⟨"t", some 'a', some 'b', [], 1⟩ = .error (.crashed .slotInUse) :=
  rfl

theorem run_atLetter (ready : s.Ready) : atLetter s = .ok (s.cursor.atLetter, s) := by
  rw [ready.atLetter_eq]
  rfl

theorem run_take {x : Char} (hcurrent : s.cursor.current = some x) (ready : s.Ready) :
    ∃ s', take x s = .ok (true, s') ∧ s'.cursor = s.cursor.advance ∧ s'.Ready ∧
      s'.pushed = none := by
  rcases run_advance ready with ⟨s', hrun, hadvance⟩
  rw [take, bind_current, if_pos (ready.current_eq.symm.trans hcurrent), bind_of_ok hrun]
  exact ⟨s', rfl, hadvance⟩

theorem run_take_false {x : Char} (hcurrent : s.cursor.current ≠ some x) (ready : s.Ready) :
    take x s = .ok (false, s) := by
  rw [take, bind_current, if_neg fun hx => hcurrent (ready.current_eq.trans hx)]
  rfl

/-- The scanner sees one character at a time where a cursor splits off the whole run. -/
theorem run_collect (p : Char → Bool) (fuel : Nat) (s : Scanner) (ready : s.Ready)
    (hfuel : s.cursor.size < fuel) :
    ∃ s', collect p fuel s = .ok (s.cursor.takeWhile p, s') ∧
      s'.cursor = s.cursor.dropWhile p ∧ s'.Ready := by
  rcases (reaches_collect p ready.shows hfuel).run ready (Cursor.passes_dropWhile p s.cursor)
    with ⟨s', hrun, hs', ready'⟩
  exact ⟨s', hrun, hs'.cursor_eq, ready'⟩

theorem run_skipSpace {fuel : Nat} (ready : s.Ready) (hfuel : s.cursor.size < fuel) :
    ∃ s', skipSpace fuel s = .ok ((), s') ∧ s'.cursor = s.cursor.skipSpace ∧ s'.Ready := by
  rcases run_collect Text.isBlank fuel s ready hfuel with ⟨s', hrun, hskip⟩
  refine ⟨s', ?_, hskip⟩
  rw [skipSpace, bind_of_ok hrun]
  rfl

/-!
## Rules

The rules of the judgment for the steps, in front of anything else that is scanned.
-/

namespace Agrees

variable {x : Char} {r : Cursor} {y : Attempt (Parsed n β)} {fuel : Nat}

theorem current_none {k : Option Char → Scan β} (ready : s.Ready) (hnext : s.cursor.next? = none)
    (h : Agrees (k none) s y) : Agrees (current >>= k) s y := by
  refine step rfl ?_
  rw [← ready.current_eq, Cursor.current_of_next?_none hnext]
  exact h

theorem current_some {k : Option Char → Scan β} {hlt : r.size < s.cursor.size} (ready : s.Ready)
    (hnext : s.cursor.next? = some ⟨x, r, hlt⟩) (h : Agrees (k (some x)) s y) :
    Agrees (current >>= k) s y := by
  refine step rfl ?_
  rw [← ready.current_eq, (Cursor.eq_of_next? hnext).1]
  exact h

theorem advance {k : Unit → Scan β} {hlt : r.size < s.cursor.size} (ready : s.Ready)
    (hnext : s.cursor.next? = some ⟨x, r, hlt⟩)
    (h : ∀ s', s'.cursor = r -> s'.Ready -> Agrees (k ()) s' y) :
    Agrees (Scan.advance >>= k) s y := by
  rcases run_advance ready with ⟨s', hrun, hadvance, ready', _⟩
  exact step hrun (h s' (hadvance.trans (Cursor.eq_of_next? hnext).2.symm) ready')

theorem take_some {k : Bool → Scan β} {hlt : r.size < s.cursor.size} (ready : s.Ready)
    (htake : s.cursor.take? x = some ⟨r, hlt⟩)
    (h : ∀ s', s'.cursor = r -> s'.Ready -> s'.pushed = none -> Agrees (k true) s' y) :
    Agrees (take x >>= k) s y := by
  have hcurrent := Cursor.current_eq_of_take? htake
  rw [Cursor.take?_of_current hcurrent] at htake
  cases htake
  rcases run_take hcurrent ready with ⟨s', hrun, hadvance, ready', hfree⟩
  exact step hrun (h s' hadvance ready' hfree)

theorem take_none {k : Bool → Scan β} (ready : s.Ready) (htake : s.cursor.take? x = none)
    (h : Agrees (k false) s y) : Agrees (take x >>= k) s y :=
  step (run_take_false (Cursor.current_ne_of_take? htake) ready) h

theorem skipSpace {k : Unit → Scan β} (ready : s.Ready) (hfuel : s.cursor.size < fuel)
    (h : ∀ s', s'.cursor = s.cursor.skipSpace -> s'.Ready -> Agrees (k ()) s' y) :
    Agrees (Scan.skipSpace fuel >>= k) s y := by
  rcases run_skipSpace ready hfuel with ⟨s', hrun, hskip, ready'⟩
  exact step hrun (h s' hskip ready')

theorem spaced {m : Scan α} {read : (c : Cursor) → Attempt (Parsed c.size α)}
    (hread : (read s.cursor.skipSpace).outcome = (read s.cursor).outcome) (ready : s.Ready)
    (hfuel : s.cursor.size < fuel)
    (h : ∀ s', s'.Ready -> s'.cursor.size ≤ s.cursor.size -> Agrees m s' (read s'.cursor)) :
    Agrees (Scan.skipSpace fuel >>= fun _ => m) s (read s.cursor) := by
  refine skipSpace ready hfuel fun s' hskip ready' => of_outcome hread.symm ?_
  have hle := s.cursor.size_skipSpace_le
  rw [← hskip] at hle ⊢
  exact h s' ready' hle

theorem thenSkipSpace {m : Scan α} {f : α → β} {x : Attempt (Parsed n α)} {z : Attempt (Parsed n β)}
    (hx : Agrees m s x) (hz : z = x.mapValue f) (hfuel : n ≤ fuel) :
    Agrees (m >>= fun value => Scan.skipSpace fuel >>= fun _ => pure (f value)) s z.skipSpace := by
  subst hz
  cases x with
  | error e => exact bind_of_error hx
  | ok p =>
      rcases hx with ⟨s', hrun, hrest, ready⟩
      have hlt : s'.cursor.size < fuel := by
        rw [hrest]
        exact Nat.lt_of_lt_of_le p.size_rest_lt hfuel
      refine step hrun (skipSpace ready hlt fun s₂ hskip ready₂ => ?_)
      exact ok rfl (hskip.trans (congrArg Cursor.skipSpace hrest)) ready₂

theorem skipSpace_andThen {m : Scan α} {k : α → Scan β} {x : Attempt (Parsed n α)}
    {next : α → (r : Cursor) → r.size < n → Attempt (Parsed r.size β)} (hx : Agrees m s x)
    (hfuel : n ≤ fuel)
    (hnext : ∀ value s' h, s'.Ready -> Agrees (k value) s' (next value s'.cursor h)) :
    Agrees (m >>= fun value => Scan.skipSpace fuel >>= fun _ => k value) s
      (x.skipSpace.andThen next) := by
  have hskip := (hx.thenSkipSpace (Attempt.mapValue_id x).symm hfuel).andThen hnext
  simp only [bind_assoc, pure_bind] at hskip
  exact hskip

end Agrees

section

variable {fuel : Nat}

theorem agrees_unexpected (what : String) (ready : s.Ready) :
    Agrees (unexpected what) s
      (.error (s.cursor.unexpected what) : Attempt (Parsed n β)) := by
  rw [Cursor.unexpected, ready.current_eq]
  rfl

theorem agrees_require (x : Char) (what : String) (ready : s.Ready) :
    Agrees (require x what) s (s.cursor.require x what) := by
  rw [require, Cursor.require]
  split
  · next r hlt htake =>
      refine .take_some ready htake ?_
      rintro s' rfl ready' _
      exact .ok rfl rfl ready'
  · next htake => exact .take_none ready htake (agrees_unexpected what ready)

theorem agrees_expect (x : Char) (ready : s.Ready) (hfuel : s.cursor.size < fuel) :
    Agrees (expect x fuel) s (s.cursor.expect x) := by
  refine .skipSpace ready hfuel fun s' hskip ready' => ?_
  rw [Cursor.expect]
  refine .within ?_ _
  rw [← hskip]
  exact agrees_require x _ ready'

theorem agrees_identifier (what : String) (ready : s.Ready) (hfuel : s.cursor.size < fuel) :
    Agrees (identifier what fuel) s (s.cursor.identifier what) := by
  rw [Cursor.identifier]
  split
  · next hletter =>
      rcases run_collect Text.isIdentifierChar fuel s ready hfuel with ⟨s', hrun, hrest, ready'⟩
      refine .step (run_atLetter ready) ?_
      rw [hletter]
      exact .step hrun (.ok rfl hrest ready')
  · next hletter =>
      refine .step (run_atLetter ready) ?_
      rw [Bool.eq_false_iff.mpr hletter, ready.current_eq]
      rfl

end

end Scan

end Stencil
