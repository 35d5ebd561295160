import Stencil.Parsing.Reading

/-!
# What readers give

The result of a reader carries a proof about its size.  Statements about readers leave it out:
they speak of the outcome of an attempt, which is a value with the cursor behind it, or an error.
The lemmas of this module say what each combinator does to outcomes, and what the smallest readers
give on a text whose beginning is known.
-/

namespace Stencil
namespace Attempt

/-!
## Outcomes
-/

def outcome (x : Attempt (Parsed n α)) : Attempt (α × Cursor) :=
  x.map fun p => (p.value, p.rest)

@[simp] theorem outcome_ok (p : Parsed n α) :
    outcome (.ok p : Attempt (Parsed n α)) = .ok (p.value, p.rest) :=
  rfl

@[simp] theorem outcome_within (h : m ≤ n) (x : Attempt (Parsed m α)) :
    (x.within h).outcome = x.outcome := by
  cases x <;> rfl

@[simp] theorem outcome_weaken (x : Attempt (Parsed n α)) :
    x.weaken.outcome = x.outcome := by
  cases x <;> rfl

@[simp] theorem outcome_after {r : Cursor} (h : r.size < n) (x : Attempt (Parsed r.size α)) :
    (x.after h).outcome = x.outcome := by
  cases x <;> rfl

@[simp] theorem outcome_afterStep {r : Cursor} (h : r.size < n)
    (x : Attempt (Parsed (r.size + 1) α)) :
    (x.afterStep h).outcome = x.outcome := by
  cases x <;> rfl

@[simp] theorem outcome_afterSpace {c : Cursor}
    (x : Attempt (Parsed (c.skipSpace.size + 1) α)) :
    x.afterSpace.outcome = x.outcome := by
  cases x <;> rfl

theorem eq_ok_of_outcome {x : Attempt (Parsed n α)} (h : x.outcome = .ok (value, rest)) :
    ∃ hlt, x = .ok ⟨value, rest, hlt⟩ := by
  cases x with
  | error e => cases h
  | ok p =>
      cases p with
      | mk found left hlt =>
          cases h
          exact ⟨hlt, rfl⟩

theorem eq_error_of_outcome {x : Attempt (Parsed n α)} (h : x.outcome = .error e) :
    x = .error e := by
  cases x with
  | error found =>
      cases h
      rfl
  | ok p => cases h

theorem outcome_mapValue (f : α → β) (x : Attempt (Parsed n α)) :
    (x.mapValue f).outcome = x.outcome.map fun found => (f found.1, found.2) := by
  cases x <;> rfl

theorem outcome_skipSpace (x : Attempt (Parsed n α)) :
    x.skipSpace.outcome = x.outcome.map fun found => (found.1, found.2.skipSpace) := by
  cases x <;> rfl

theorem outcome_accept (y : Char) (x : Attempt (Parsed n α)) :
    (x.accept y).outcome = x.outcome.map fun found => (found.1, found.2.accept y) := by
  cases x <;> rfl

/-!
## Going on

A second reader starts from the cursor that the first one left.  Its promise depends on a proof
about that cursor, so the lemmas ask for its outcome under every such proof.
-/

section Continuation

variable {x : Attempt (Parsed n α)} {result : Attempt (β × Cursor)}

theorem outcome_andThen {next : α → (r : Cursor) → r.size < n → Attempt (Parsed r.size β)}
    (hx : x.outcome = .ok (value, rest))
    (hnext : ∀ h, (next value rest h).outcome = result) :
    (x.andThen next).outcome = result := by
  rcases eq_ok_of_outcome hx with ⟨h, rfl⟩
  exact (outcome_after h _).trans (hnext h)

theorem outcome_andThen_error {next : α → (r : Cursor) → r.size < n → Attempt (Parsed r.size β)}
    (hx : x.outcome = .error e) :
    (x.andThen next).outcome = .error e := by
  rw [eq_error_of_outcome hx]
  rfl

theorem outcome_andMaybe
    {next : α → (r : Cursor) → r.size < n → Attempt (Parsed (r.size + 1) β)}
    (hx : x.outcome = .ok (value, rest))
    (hnext : ∀ h, (next value rest h).outcome = result) :
    (x.andMaybe next).outcome = result := by
  rcases eq_ok_of_outcome hx with ⟨h, rfl⟩
  exact (outcome_afterStep h _).trans (hnext h)

theorem outcome_andMaybe_error
    {next : α → (r : Cursor) → r.size < n → Attempt (Parsed (r.size + 1) β)}
    (hx : x.outcome = .error e) :
    (x.andMaybe next).outcome = .error e := by
  rw [eq_error_of_outcome hx]
  rfl

end Continuation

/-!
## Readers in front of a known text

Where lines do not matter, a reader is described by what it leaves unread and by a property of its
value.
-/

def Gives (x : Attempt (Parsed n α)) (r : String) (rest : List Char) (P : α → Prop) : Prop :=
  ∃ value line, x.outcome = .ok (value, ⟨r, rest, line⟩) ∧ P value

namespace Gives

variable {r : String} {rest tail : List Char} {P : α → Prop} {Q : β → Prop}

theorem of_outcome {x : Attempt (Parsed n α)} {y : Attempt (Parsed m α)}
    (h : x.outcome = y.outcome) (hy : y.Gives r rest P) : x.Gives r rest P := by
  rw [Gives, h]
  exact hy

theorem imp {x : Attempt (Parsed n α)} {P' : α → Prop} (hx : x.Gives r rest P)
    (h : ∀ value, P value → P' value) : x.Gives r rest P' := by
  rcases hx with ⟨value, line, hx, hp⟩
  exact ⟨value, line, hx, h value hp⟩

theorem within {x : Attempt (Parsed m α)} (hx : x.Gives r rest P) (h : m ≤ n) :
    (x.within h).Gives r rest P :=
  of_outcome (outcome_within h x) hx

theorem weaken {x : Attempt (Parsed n α)} (hx : x.Gives r rest P) : x.weaken.Gives r rest P :=
  of_outcome (outcome_weaken x) hx

theorem after {c : Cursor} {x : Attempt (Parsed c.size α)} (hx : x.Gives r rest P)
    (h : c.size < n) : (x.after h).Gives r rest P :=
  of_outcome (outcome_after h x) hx

theorem afterSpace {c : Cursor} {x : Attempt (Parsed (c.skipSpace.size + 1) α)}
    (hx : x.Gives r rest P) : x.afterSpace.Gives r rest P :=
  of_outcome (outcome_afterSpace x) hx

theorem mapValue {x : Attempt (Parsed n α)} {f : α → β} (hx : x.Gives r rest P)
    (hf : ∀ value, P value → Q (f value)) : (x.mapValue f).Gives r rest Q := by
  rcases hx with ⟨value, line, hx, hp⟩
  refine ⟨f value, line, ?_, hf value hp⟩
  rw [outcome_mapValue, hx]
  rfl

theorem skipSpace {x : Attempt (Parsed n α)} (hx : x.Gives r rest P) :
    x.skipSpace.Gives r (rest.dropWhile Text.isBlank) P := by
  rcases hx with ⟨value, line, hx, hp⟩
  refine ⟨value, line + Cursor.newlines (rest.takeWhile Text.isBlank), ?_, hp⟩
  rw [outcome_skipSpace, hx]
  rfl

theorem andThen {x : Attempt (Parsed n α)}
    {next : α → (c : Cursor) → c.size < n → Attempt (Parsed c.size β)}
    (hx : x.Gives r rest P)
    (hnext : ∀ value line h, P value → (next value ⟨r, rest, line⟩ h).Gives r tail Q) :
    (x.andThen next).Gives r tail Q := by
  rcases hx with ⟨value, line, hx, hp⟩
  rcases eq_ok_of_outcome hx with ⟨hlt, _⟩
  rcases hnext value line hlt hp with ⟨found, last, hfound, hq⟩
  exact ⟨found, last, outcome_andThen hx fun _ => hfound, hq⟩

theorem andMaybe {x : Attempt (Parsed n α)}
    {next : α → (c : Cursor) → c.size < n → Attempt (Parsed (c.size + 1) β)}
    (hx : x.Gives r rest P)
    (hnext : ∀ value line h, P value → (next value ⟨r, rest, line⟩ h).Gives r tail Q) :
    (x.andMaybe next).Gives r tail Q := by
  rcases hx with ⟨value, line, hx, hp⟩
  rcases eq_ok_of_outcome hx with ⟨hlt, _⟩
  rcases hnext value line hlt hp with ⟨found, last, hfound, hq⟩
  exact ⟨found, last, outcome_andMaybe hx fun _ => hfound, hq⟩

end Gives

end Attempt

/-!
## The front of a text

A run of characters with a property is known to end where the next character lacks it.
-/

namespace Cursor

variable {p : Char → Bool} {front rest : List Char}

theorem forall_head_nil {q : Char → Prop} : ∀ c ∈ ([] : List Char).head?, q c := by
  intro c hc
  cases hc

theorem forall_head_cons {q : Char → Prop} {x : Char} (hx : q x) :
    ∀ c ∈ (x :: rest).head?, q c := by
  intro c hc
  cases hc
  exact hx

theorem takeWhile_append_stop (hfront : ∀ c ∈ front, p c = true)
    (hrest : ∀ c ∈ rest.head?, p c = false) :
    (front ++ rest).takeWhile p = front := by
  rw [List.takeWhile_append_of_pos hfront]
  cases rest with
  | nil => rw [List.takeWhile_nil, List.append_nil]
  | cons c rest =>
      rw [List.takeWhile_cons_of_neg, List.append_nil]
      exact Bool.eq_false_iff.mp (hrest c rfl)

theorem dropWhile_append_stop (hfront : ∀ c ∈ front, p c = true)
    (hrest : ∀ c ∈ rest.head?, p c = false) :
    (front ++ rest).dropWhile p = rest := by
  rw [List.dropWhile_append_of_pos hfront]
  cases rest with
  | nil => rfl
  | cons c rest =>
      rw [List.dropWhile_cons_of_neg]
      exact Bool.eq_false_iff.mp (hrest c rfl)

theorem dropWhile_of_stop (hrest : ∀ c ∈ rest.head?, p c = false) :
    rest.dropWhile p = rest :=
  dropWhile_append_stop (List.forall_mem_nil _) hrest

theorem newlines_append (cs ds : List Char) : newlines (cs ++ ds) = newlines cs + newlines ds :=
  List.count_append

theorem newlines_eq_zero (hp : p '\n' = false) (hfront : ∀ c ∈ front, p c = true) :
    newlines front = 0 := by
  refine List.count_eq_zero.mpr fun mem => ?_
  rw [hfront '\n' mem] at hp
  cases hp

/-!
## Single characters
-/

section

variable {r : String} {x y : Char} {cs : List Char} {l : Nat}

theorem advance_cons : (⟨r, x :: cs, l⟩ : Cursor).advance = ⟨r, cs, l + newlines [x]⟩ :=
  rfl

theorem take?_of_current {c : Cursor} (h : c.current = some x) :
    c.take? x = some ⟨c.advance, size_advance_lt h⟩ :=
  dif_pos h

theorem take?_of_ne {c : Cursor} (h : c.current ≠ some x) : c.take? x = none :=
  dif_neg h

theorem size_cons_lt {l' : Nat} :
    (⟨r, cs, l'⟩ : Cursor).size < (⟨r, x :: cs, l⟩ : Cursor).size :=
  Nat.lt_succ_self cs.length

theorem take?_cons :
    (⟨r, x :: cs, l⟩ : Cursor).take? x = some ⟨⟨r, cs, l + newlines [x]⟩, size_cons_lt⟩ :=
  take?_of_current rfl

theorem next?_cons :
    (⟨r, x :: cs, l⟩ : Cursor).next? = some ⟨x, ⟨r, cs, l + newlines [x]⟩, size_cons_lt⟩ :=
  rfl

theorem accept_of_current {c : Cursor} (h : c.current = some x) : c.accept x = c.advance :=
  if_pos h

theorem accept_of_ne {c : Cursor} (h : c.current ≠ some x) : c.accept x = c :=
  if_neg h

theorem outcome_require {c : Cursor} (what : String) (h : c.current = some x) :
    (c.require x what).outcome = .ok ((), c.advance) := by
  rw [require, take?_of_current h]
  rfl

theorem gives_require (what : String) :
    ((⟨r, x :: cs, l⟩ : Cursor).require x what).Gives r cs fun _ => True :=
  ⟨(), _, outcome_require what rfl, trivial⟩

end

theorem ofText_ofList (resource : String) (cs : List Char) :
    ofText resource (String.ofList cs) = ⟨resource, cs, 1⟩ := by
  rw [ofText, String.toList_ofList]

theorem skipSpace_append {gap rest : List Char} {r : String} {l : Nat}
    (hgap : ∀ c ∈ gap, Text.isBlank c = true) (hrest : ∀ c ∈ rest.head?, Text.isBlank c = false) :
    (⟨r, gap ++ rest, l⟩ : Cursor).skipSpace = ⟨r, rest, l + newlines gap⟩ := by
  rw [skipSpace, dropWhile, dropWhile_append_stop hgap hrest, takeWhile_append_stop hgap hrest]

theorem skipSpace_blanks_append {gap cs : List Char} (r : String) (l : Nat)
    (hgap : ∀ c ∈ gap, Text.isBlank c = true) :
    (⟨r, gap ++ cs, l⟩ : Cursor).skipSpace
      = (⟨r, cs, l + newlines gap⟩ : Cursor).skipSpace := by
  simp only [skipSpace, dropWhile, List.dropWhile_append_of_pos hgap,
    List.takeWhile_append_of_pos hgap, newlines_append, Nat.add_assoc]

theorem outcome_expect {x : Char} {gap cs : List Char} (r : String) (l : Nat)
    (hgap : ∀ c ∈ gap, Text.isBlank c = true) (hx : Text.isBlank x = false) :
    ((⟨r, gap ++ x :: cs, l⟩ : Cursor).expect x).outcome
      = .ok ((), ⟨r, cs, l + newlines gap + newlines [x]⟩) := by
  have hcs : ∀ c ∈ (x :: cs).head?, Text.isBlank c = false :=
    Cursor.forall_head_cons hx
  have hskip := skipSpace_append (r := r) (l := l) hgap hcs
  have hcurrent : (⟨r, gap ++ x :: cs, l⟩ : Cursor).skipSpace.current = some x := by
    rw [hskip]
    rfl
  rw [expect, Attempt.outcome_within, outcome_require _ hcurrent, hskip]
  rfl

theorem outcome_expect_here {x : Char} {cs : List Char} (r : String) (l : Nat)
    (hx : Text.isBlank x = false) :
    ((⟨r, x :: cs, l⟩ : Cursor).expect x).outcome = .ok ((), ⟨r, cs, l + newlines [x]⟩) :=
  @outcome_expect x [] cs r l (List.forall_mem_nil _) hx

theorem gives_expect {x : Char} {cs : List Char} {r : String} {l : Nat}
    (hx : Text.isBlank x = false) :
    ((⟨r, x :: cs, l⟩ : Cursor).expect x).Gives r cs fun _ => True :=
  ⟨(), _, outcome_expect_here r l hx, trivial⟩

/-!
## Identifiers
-/

theorem atLetter_append {name : List Char} (hname : Text.IsIdentifier name) (r : String) (l : Nat)
    (rest : List Char) : (⟨r, name ++ rest, l⟩ : Cursor).atLetter = true := by
  cases name with
  | nil => exact absurd hname id
  | cons c more => exact hname.1

theorem isIdentifierChar_newline : Text.isIdentifierChar '\n' = false := by
  decide

theorem outcome_identifier {name : List Char} (what r : String) (l : Nat)
    (hname : Text.IsIdentifier name)
    (hrest : ∀ c ∈ rest.head?, Text.isIdentifierChar c = false) :
    ((⟨r, name ++ rest, l⟩ : Cursor).identifier what).outcome
      = .ok (String.ofList name, ⟨r, rest, l⟩) := by
  have hall := hname.all_isIdentifierChar
  rw [identifier, dif_pos (atLetter_append hname r l rest)]
  simp only [Attempt.outcome_ok, takeWhile, dropWhile]
  rw [takeWhile_append_stop hall hrest, dropWhile_append_stop hall hrest,
    newlines_eq_zero isIdentifierChar_newline hall]
  rfl

theorem gives_identifier {name : List Char} (what : String) {r : String} {l : Nat}
    (hname : Text.IsIdentifier name)
    (hrest : ∀ c ∈ rest.head?, Text.isIdentifierChar c = false) :
    ((⟨r, name ++ rest, l⟩ : Cursor).identifier what).Gives r rest
      fun found => found = String.ofList name :=
  ⟨_, l, outcome_identifier what r l hname hrest, rfl⟩

end Cursor

end Stencil
