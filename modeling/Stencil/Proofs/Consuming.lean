import Stencil.Parsing.Region
import Stencil.Proofs.Reading

/-!
# What readers pass over

A reader that succeeds has passed over a front of the text, and what it gives tells something about
that front and about what is left.  The rules of this module put such facts together along the
combinators, so that a statement about a reader only has to follow the reader itself.
-/

namespace Stencil

namespace Text

def Blanks (cs : List Char) : Prop :=
  ∀ c ∈ cs, isBlank c = true

namespace Blanks

theorem nil : Blanks [] :=
  List.forall_mem_nil _

theorem append {cs ds : List Char} (hcs : Blanks cs) (hds : Blanks ds) : Blanks (cs ++ ds) := by
  intro c hc
  rcases List.mem_append.mp hc with hc | hc
  · exact hcs c hc
  · exact hds c hc

end Blanks

def Token (x : Char) (cs : List Char) : Prop :=
  ∃ gap, Blanks gap ∧ cs = gap ++ [x]

/-- The line end right behind something belongs to it; `after` is what follows then. -/
inductive LineEnd : (line after : List Char) → Prop where
  | taken (after : List Char) : LineEnd ['\n'] after
  | absent {after : List Char} : after.head? ≠ some '\n' -> LineEnd [] after

end Text

namespace Cursor

/-- `front` is the text between the two cursors. -/
structure Passes (c : Cursor) (front : List Char) (rest : Cursor) : Prop where
  remaining_eq : c.remaining = front ++ rest.remaining
  resource_eq : rest.resource = c.resource
  line_eq : rest.line = c.line + newlines front

namespace Passes

variable {c r rest : Cursor} {front back : List Char}

theorem refl (c : Cursor) : c.Passes [] c where
  remaining_eq := rfl
  resource_eq := rfl
  line_eq := rfl

theorem trans (h : c.Passes front r) (h' : r.Passes back rest) :
    c.Passes (front ++ back) rest where
  remaining_eq := by
    rw [h.remaining_eq, h'.remaining_eq, List.append_assoc]
  resource_eq := h'.resource_eq.trans h.resource_eq
  line_eq := by
    rw [h'.line_eq, h.line_eq, newlines_append, Nat.add_assoc]

theorem suffix (h : c.Passes front rest) : rest.remaining <:+ c.remaining :=
  ⟨front, h.remaining_eq.symm⟩

end Passes

/-!
## Steps
-/

section

variable {c r : Cursor} {x : Char}

theorem passes_advance (h : c.current = some x) : c.Passes [x] c.advance := by
  rcases c with ⟨resource, remaining, line⟩
  cases remaining with
  | nil => cases h
  | cons y rest =>
      cases h
      exact ⟨rfl, rfl, rfl⟩

theorem passes_dropWhile (p : Char → Bool) (c : Cursor) :
    c.Passes (c.takeWhile p) (c.dropWhile p) where
  remaining_eq := (List.takeWhile_append_dropWhile).symm
  resource_eq := rfl
  line_eq := rfl

theorem forall_takeWhile (p : Char → Bool) (c : Cursor) : ∀ x ∈ c.takeWhile p, p x = true :=
  List.all_eq_true.mp List.all_takeWhile

theorem head?_dropWhile (p : Char → Bool) (c : Cursor) :
    ∀ x ∈ (c.dropWhile p).remaining.head?, p x = false := by
  intro x hx
  have hdrop := List.head?_dropWhile_not p c.remaining
  rw [show (c.remaining.dropWhile p).head? = some x from hx] at hdrop
  exact hdrop

theorem passes_skipSpace (c : Cursor) : ∃ gap, Text.Blanks gap ∧ c.Passes gap c.skipSpace :=
  ⟨_, forall_takeWhile _ c, passes_dropWhile _ c⟩

theorem takeWhile_eq_nil {p : Char → Bool} (h : c.current.any p = false) :
    c.takeWhile p = [] := by
  rcases c with ⟨resource, _ | ⟨y, rest⟩, line⟩
  · rfl
  · exact List.takeWhile_cons_of_neg (Bool.eq_false_iff.mp h)

theorem dropWhile_eq_self {p : Char → Bool} (h : c.current.any p = false) : c.dropWhile p = c := by
  have hrun := takeWhile_eq_nil h
  rcases c with ⟨resource, _ | ⟨y, rest⟩, line⟩
  · rfl
  · have hy : ¬ p y = true := Bool.eq_false_iff.mp h
    rw [takeWhile] at hrun
    rw [dropWhile, hrun]
    exact congrArg (Cursor.mk resource · line) (List.dropWhile_cons_of_neg hy)

theorem skipSpace_skipSpace (c : Cursor) : c.skipSpace.skipSpace = c.skipSpace := by
  refine dropWhile_eq_self ?_
  cases hcurrent : c.skipSpace.current with
  | none => rfl
  | some x => exact head?_dropWhile Text.isBlank c x hcurrent

theorem current_eq_of_take? {p : { r : Cursor // r.size < c.size }} (h : c.take? x = some p) :
    c.current = some x := by
  rw [take?] at h
  split at h
  · next hcurrent => exact hcurrent
  · cases h

theorem current_ne_of_take? (h : c.take? x = none) : c.current ≠ some x := by
  intro hcurrent
  rw [take?_of_current hcurrent] at h
  cases h

theorem passes_of_take? {h : r.size < c.size} (htake : c.take? x = some ⟨r, h⟩) :
    c.Passes [x] r := by
  have hcurrent := current_eq_of_take? htake
  rw [take?_of_current hcurrent] at htake
  cases htake
  exact passes_advance hcurrent

theorem passes_of_next? {p : Parsed c.size Char} (h : c.next? = some p) :
    c.Passes [p.value] p.rest := by
  rw [next?] at h
  split at h
  · next x hcurrent =>
      cases h
      exact passes_advance hcurrent
  · cases h

theorem passes_accept_newline (c : Cursor) :
    ∃ line, c.Passes line (c.accept '\n') ∧ Text.LineEnd line (c.accept '\n').remaining := by
  by_cases h : c.current = some '\n'
  · rw [accept_of_current h]
    exact ⟨['\n'], passes_advance h, .taken _⟩
  · rw [accept_of_ne h]
    exact ⟨[], .refl c, .absent h⟩

end

end Cursor

/-!
## Readers
-/

namespace Attempt

theorem outcome_skipSpace_skipSpace (x : Attempt (Parsed n α)) :
    x.skipSpace.skipSpace.outcome = x.skipSpace.outcome := by
  cases x with
  | error e => rfl
  | ok p => exact congrArg (fun r => Except.ok (p.value, r)) p.rest.skipSpace_skipSpace

/-- A success has passed over some text that has the property, together with the value that is
given and the text that is left. -/
def Reads (x : Attempt (Parsed n α)) (c : Cursor) (P : α → (front after : List Char) → Prop) :
    Prop :=
  ∀ value rest, x.outcome = .ok (value, rest) ->
    ∃ front, c.Passes front rest ∧ P value front rest.remaining

namespace Reads

variable {c r : Cursor} {P P' : α → List Char → List Char → Prop}
  {Q : β → List Char → List Char → Prop} {step : List Char}

theorem of_outcome {x : Attempt (Parsed n α)} {y : Attempt (Parsed m α)}
    (h : x.outcome = y.outcome) (hy : y.Reads c P) : x.Reads c P := by
  intro value rest hx
  exact hy value rest (h.symm.trans hx)

theorem ok {p : Parsed n α} {front : List Char} (h : c.Passes front p.rest)
    (hp : P p.value front p.rest.remaining) : Reads (.ok p : Attempt (Parsed n α)) c P := by
  intro value rest hx
  cases hx
  exact ⟨front, h, hp⟩

theorem error (e : Located ParseError) : Reads (.error e : Attempt (Parsed n α)) c P := by
  intro value rest hx
  cases hx

theorem imp {x : Attempt (Parsed n α)} (hx : x.Reads c P)
    (h : ∀ value front after, P value front after -> P' value front after) : x.Reads c P' := by
  intro value rest hout
  rcases hx value rest hout with ⟨front, hpass, hp⟩
  exact ⟨front, hpass, h value front _ hp⟩

theorem whole {x : Attempt (Parsed n α)} (hx : x.Reads c P) :
    x.Reads c fun value front after => c.remaining = front ++ after ∧ P value front after := by
  intro value rest hout
  rcases hx value rest hout with ⟨front, hpass, hp⟩
  exact ⟨front, hpass, hpass.remaining_eq, hp⟩

theorem from_step {x : Attempt (Parsed n α)} (h : c.Passes step r)
    (hx : x.Reads r fun value back after => P value (step ++ back) after) : x.Reads c P := by
  intro value rest hout
  rcases hx value rest hout with ⟨back, hpass, hp⟩
  exact ⟨step ++ back, h.trans hpass, hp⟩

theorem within {x : Attempt (Parsed m α)} (hx : x.Reads c P) (h : m ≤ n) :
    (x.within h).Reads c P :=
  of_outcome (outcome_within h x) hx

theorem weaken {x : Attempt (Parsed n α)} (hx : x.Reads c P) : x.weaken.Reads c P :=
  of_outcome (outcome_weaken x) hx

theorem after {x : Attempt (Parsed r.size α)} (hx : x.Reads c P) (h : r.size < n) :
    (x.after h).Reads c P :=
  of_outcome (outcome_after h x) hx

theorem afterStep {x : Attempt (Parsed (r.size + 1) α)} (hx : x.Reads c P) (h : r.size < n) :
    (x.afterStep h).Reads c P :=
  of_outcome (outcome_afterStep h x) hx

theorem afterSpace {x : Attempt (Parsed (r.skipSpace.size + 1) α)} (hx : x.Reads c P) :
    x.afterSpace.Reads c P :=
  of_outcome (outcome_afterSpace x) hx

theorem mapValue {x : Attempt (Parsed n α)} {f : α → β}
    (hx : x.Reads c fun value front after => Q (f value) front after) :
    (x.mapValue f).Reads c Q := by
  intro found rest hout
  rw [outcome_mapValue] at hout
  cases h : x.outcome with
  | error e =>
      rw [h] at hout
      cases hout
  | ok p =>
      rw [h] at hout
      cases hout
      exact hx p.1 p.2 h

theorem skipSpace {x : Attempt (Parsed n α)} (hx : x.Reads c P)
    (h : ∀ value front gap after, Text.Blanks gap -> P value front (gap ++ after) ->
      P' value (front ++ gap) after) : x.skipSpace.Reads c P' := by
  intro value rest hout
  rw [outcome_skipSpace] at hout
  cases hfound : x.outcome with
  | error e =>
      rw [hfound] at hout
      cases hout
  | ok p =>
      rw [hfound] at hout
      cases hout
      rcases hx p.1 p.2 hfound with ⟨front, hpass, hp⟩
      rcases p.2.passes_skipSpace with ⟨gap, hgap, hspace⟩
      rw [hspace.remaining_eq] at hp
      exact ⟨front ++ gap, hpass.trans hspace, h _ _ _ _ hgap hp⟩

theorem spaced {x : Attempt (Parsed c.skipSpace.size α)} (hx : x.Reads c.skipSpace P)
    (h : ∀ value before front behind after, Text.Blanks before -> Text.Blanks behind ->
      P value front (behind ++ after) -> P' value (before ++ (front ++ behind)) after) :
    (x.within c.size_skipSpace_le).skipSpace.Reads c P' := by
  rcases c.passes_skipSpace with ⟨before, hbefore, hpass⟩
  have hfront : x.Reads c fun value front after =>
      ∃ cs, front = before ++ cs ∧ P value cs after :=
    from_step hpass (hx.imp fun _ cs _ hp => ⟨cs, rfl, hp⟩)
  refine skipSpace (hfront.within _) ?_
  rintro value _ behind after hbehind ⟨cs, rfl, hp⟩
  rw [List.append_assoc]
  exact h value before cs behind after hbefore hbehind hp

theorem accept_newline {x : Attempt (Parsed n α)} (hx : x.Reads c P)
    (h : ∀ value front line after, Text.LineEnd line after -> P value front (line ++ after) ->
      P' value (front ++ line) after) : (x.accept '\n').Reads c P' := by
  intro value rest hout
  rw [outcome_accept] at hout
  cases hfound : x.outcome with
  | error e =>
      rw [hfound] at hout
      cases hout
  | ok p =>
      rw [hfound] at hout
      cases hout
      rcases hx p.1 p.2 hfound with ⟨front, hpass, hp⟩
      rcases p.2.passes_accept_newline with ⟨line, hline, hend⟩
      rw [hline.remaining_eq] at hp
      exact ⟨front ++ line, hpass.trans hline, h _ _ _ _ hend hp⟩

theorem andThen {x : Attempt (Parsed n α)}
    {next : α → (r : Cursor) → r.size < n → Attempt (Parsed r.size β)} (hx : x.Reads c P)
    (hnext : ∀ value front r h, P value front r.remaining ->
      (next value r h).Reads r fun found back after => Q found (front ++ back) after) :
    (x.andThen next).Reads c Q := by
  intro found rest hout
  cases x with
  | error e => cases hout
  | ok p =>
      rcases p with ⟨value, r, hlt⟩
      rcases hx value r rfl with ⟨front, hpass, hp⟩
      have hfound := (outcome_after hlt (next value r hlt)).symm.trans hout
      rcases hnext value front r hlt hp found rest hfound with ⟨back, hpass', hq⟩
      exact ⟨front ++ back, hpass.trans hpass', hq⟩

/-- The second reader may also rely on how far the first one has come. -/
theorem andMaybe_passes {x : Attempt (Parsed n α)}
    {next : α → (r : Cursor) → r.size < n → Attempt (Parsed (r.size + 1) β)} (hx : x.Reads c P)
    (hnext : ∀ value front r h, c.Passes front r -> P value front r.remaining ->
      (next value r h).Reads r fun found back after => Q found (front ++ back) after) :
    (x.andMaybe next).Reads c Q := by
  intro found rest hout
  cases x with
  | error e => cases hout
  | ok p =>
      rcases p with ⟨value, r, hlt⟩
      rcases hx value r rfl with ⟨front, hpass, hp⟩
      have hfound := (outcome_afterStep hlt (next value r hlt)).symm.trans hout
      rcases hnext value front r hlt hpass hp found rest hfound with ⟨back, hpass', hq⟩
      exact ⟨front ++ back, hpass.trans hpass', hq⟩

theorem andMaybe {x : Attempt (Parsed n α)}
    {next : α → (r : Cursor) → r.size < n → Attempt (Parsed (r.size + 1) β)} (hx : x.Reads c P)
    (hnext : ∀ value front r h, P value front r.remaining ->
      (next value r h).Reads r fun found back after => Q found (front ++ back) after) :
    (x.andMaybe next).Reads c Q :=
  andMaybe_passes hx fun value front r h _ hp => hnext value front r h hp

end Reads

end Attempt

/-!
## The smallest readers
-/

namespace Cursor

open Attempt

theorem reads_require (x : Char) (what : String) (c : Cursor) :
    (c.require x what).Reads c fun _ front _ => front = [x] := by
  rw [require]
  split
  · next r h htake => exact .ok (passes_of_take? htake) rfl
  · exact .error _

theorem reads_expect (x : Char) (c : Cursor) :
    (c.expect x).Reads c fun _ front _ => Text.Token x front := by
  rcases c.passes_skipSpace with ⟨gap, hgap, hpass⟩
  refine Reads.within (.from_step hpass ?_) _
  exact (reads_require x _ _).imp fun _ front _ hfront => ⟨gap, hgap, by rw [hfront]⟩

theorem isIdentifier_takeWhile {c : Cursor} (h : c.atLetter = true) :
    Text.IsIdentifier (c.takeWhile Text.isIdentifierChar) := by
  rcases c with ⟨resource, remaining, line⟩
  cases remaining with
  | nil => cases h
  | cons x rest =>
      have hx : x.isAlpha = true := h
      rw [takeWhile, List.takeWhile_cons_of_pos (Text.isIdentifierChar_of_isAlpha hx)]
      exact ⟨hx, List.all_eq_true.mp List.all_takeWhile⟩

theorem reads_identifier (what : String) (c : Cursor) :
    (c.identifier what).Reads c fun name front _ =>
      Text.IsIdentifier name.toList ∧ front = name.toList := by
  rw [identifier]
  split
  · next h =>
      refine Reads.ok (passes_dropWhile Text.isIdentifierChar c) ?_
      rw [String.toList_ofList]
      exact ⟨isIdentifier_takeWhile h, rfl⟩
  · exact .error _

end Cursor

end Stencil
