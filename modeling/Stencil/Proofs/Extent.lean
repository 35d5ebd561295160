import Stencil.Proofs.ExprForms

/-!
# Readers keep to the lines of a text

A cursor in a text stands on one of its lines, and what is left unread has the remaining ones.
Every reader keeps this up.  What it gives is located on lines of the text, and so is its error if
it fails, whether that is blamed on the place the reader has come to or on one that it has
remembered.
-/

namespace Stencil

/-!
## Locations of an expression
-/

mutual

def Expr.locations : Expr → List Location
  | .literal _ location => [location]
  | .reference ref location => location :: ref.locations
  | .binary _ lhs rhs location => location :: (lhs.locations ++ rhs.locations)
  | .not operand location => location :: operand.locations
  | .list items location => location :: Expr.locationsAll items
  | .range first last location => location :: (first.locations ++ last.locations)

def Reference.locations : Reference → List Location
  | .plain _ _ location => [location]
  | .member lhs _ _ location => location :: lhs.locations
  | .method lhs _ args _ location => location :: (lhs.locations ++ Expr.locationsAll args)
  | .index lhs index _ location => location :: (lhs.locations ++ index.locations)

def Expr.locationsAll : List Expr → List Location
  | [] => []
  | e :: rest => e.locations ++ Expr.locationsAll rest

end

theorem Expr.location_mem_locations (e : Expr) : e.location ∈ e.locations := by
  cases e <;> exact List.mem_cons_self

theorem Reference.location_mem_locations (ref : Reference) : ref.location ∈ ref.locations := by
  cases ref <;> exact List.mem_cons_self

/-!
## Extents
-/

/-- How many lines a text has, and the resource it belongs to. -/
structure Extent where
  resource : String
  lines : Nat

def Extent.ofText (resource text : String) : Extent :=
  ⟨resource, Cursor.newlines text.toList + 1⟩

structure Location.Inside (extent : Extent) (location : Location) : Prop where
  resource_eq : location.resource = extent.resource
  one_le : 1 ≤ location.line
  line_le : location.line ≤ extent.lines

def Location.AllInside (extent : Extent) (locations : List Location) : Prop :=
  ∀ location ∈ locations, location.Inside extent

/-- The lines that are left are the last ones of the text. -/
structure Cursor.Inside (extent : Extent) (c : Cursor) : Prop where
  resource_eq : c.resource = extent.resource
  one_le : 1 ≤ c.line
  lines_eq : c.line + newlines c.remaining = extent.lines

namespace Location

variable {extent : Extent} {location : Location} {locations others : List Location}

@[simp] theorem allInside_nil : AllInside extent [] :=
  List.forall_mem_nil _

@[simp] theorem allInside_cons :
    AllInside extent (location :: locations)
      ↔ location.Inside extent ∧ AllInside extent locations :=
  List.forall_mem_cons

@[simp] theorem allInside_append :
    AllInside extent (locations ++ others)
      ↔ AllInside extent locations ∧ AllInside extent others :=
  List.forall_mem_append

end Location

open Location

variable {extent : Extent}

namespace Cursor

variable {c r : Cursor}

theorem inside_ofText (resource text : String) :
    (ofText resource text).Inside (.ofText resource text) where
  resource_eq := rfl
  one_le := Nat.le_refl 1
  lines_eq := Nat.add_comm _ _

theorem Inside.location (h : c.Inside extent) : c.location.Inside extent where
  resource_eq := h.resource_eq
  one_le := h.one_le
  line_le := by
    rw [← h.lines_eq]
    exact Nat.le_add_right _ _

theorem Passes.inside {front : List Char} (hpass : c.Passes front r) (h : c.Inside extent) :
    r.Inside extent where
  resource_eq := hpass.resource_eq.trans h.resource_eq
  one_le := by
    rw [hpass.line_eq]
    exact Nat.le_trans h.one_le (Nat.le_add_right _ _)
  lines_eq := by
    rw [← h.lines_eq, hpass.line_eq, hpass.remaining_eq, newlines_append, Nat.add_assoc]

theorem Inside.skipSpace (h : c.Inside extent) : c.skipSpace.Inside extent := by
  rcases c.passes_skipSpace with ⟨gap, _, hpass⟩
  exact hpass.inside h

theorem Inside.accept_newline (h : c.Inside extent) : (c.accept '\n').Inside extent := by
  rcases c.passes_accept_newline with ⟨line, hpass, _⟩
  exact hpass.inside h

theorem Inside.take? {x : Char} {hlt : r.size < c.size} (h : c.Inside extent)
    (htake : c.take? x = some ⟨r, hlt⟩) : r.Inside extent :=
  (passes_of_take? htake).inside h

end Cursor

/-!
## The judgment
-/

namespace Attempt

/-- A success leaves a cursor in the text and gives a value with the property; an error is located
in the text. -/
def KeepsTo (extent : Extent) (x : Attempt (Parsed n α)) (P : α → Prop) : Prop :=
  match x.outcome with
  | .ok (value, rest) => rest.Inside extent ∧ P value
  | .error e => e.location.Inside extent

namespace KeepsTo

variable {P : α → Prop} {Q : β → Prop} {r : Cursor}

theorem of_outcome {x : Attempt (Parsed n α)} {y : Attempt (Parsed m α)}
    (h : x.outcome = y.outcome) (hy : y.KeepsTo extent P) : x.KeepsTo extent P := by
  rw [KeepsTo, h]
  exact hy

theorem ok {p : Parsed n α} (hrest : p.rest.Inside extent) (hp : P p.value) :
    KeepsTo extent (.ok p : Attempt (Parsed n α)) P :=
  ⟨hrest, hp⟩

theorem error {e : Located ParseError} (h : e.location.Inside extent) :
    KeepsTo extent (.error e : Attempt (Parsed n α)) P :=
  h

theorem within {x : Attempt (Parsed m α)} (hx : x.KeepsTo extent P) (h : m ≤ n) :
    (x.within h).KeepsTo extent P :=
  of_outcome (outcome_within h x) hx

theorem weaken {x : Attempt (Parsed n α)} (hx : x.KeepsTo extent P) :
    x.weaken.KeepsTo extent P :=
  of_outcome (outcome_weaken x) hx

theorem after {x : Attempt (Parsed r.size α)} (hx : x.KeepsTo extent P) (h : r.size < n) :
    (x.after h).KeepsTo extent P :=
  of_outcome (outcome_after h x) hx

theorem afterStep {x : Attempt (Parsed (r.size + 1) α)} (hx : x.KeepsTo extent P)
    (h : r.size < n) : (x.afterStep h).KeepsTo extent P :=
  of_outcome (outcome_afterStep h x) hx

theorem afterSpace {x : Attempt (Parsed (r.skipSpace.size + 1) α)} (hx : x.KeepsTo extent P) :
    x.afterSpace.KeepsTo extent P :=
  of_outcome (outcome_afterSpace x) hx

theorem mapValue {x : Attempt (Parsed n α)} {f : α → β} (hx : x.KeepsTo extent P)
    (h : ∀ value, P value -> Q (f value)) : (x.mapValue f).KeepsTo extent Q := by
  cases x with
  | error e => exact hx
  | ok p => exact ⟨hx.1, h p.value hx.2⟩

theorem skipSpace {x : Attempt (Parsed n α)} (hx : x.KeepsTo extent P) :
    x.skipSpace.KeepsTo extent P := by
  cases x with
  | error e => exact hx
  | ok p => exact ⟨hx.1.skipSpace, hx.2⟩

theorem accept_newline {x : Attempt (Parsed n α)} (hx : x.KeepsTo extent P) :
    (x.accept '\n').KeepsTo extent P := by
  cases x with
  | error e => exact hx
  | ok p => exact ⟨hx.1.accept_newline, hx.2⟩

theorem andThen {x : Attempt (Parsed n α)}
    {next : α → (r : Cursor) → r.size < n → Attempt (Parsed r.size β)} (hx : x.KeepsTo extent P)
    (hnext : ∀ value r h, r.Inside extent -> P value -> (next value r h).KeepsTo extent Q) :
    (x.andThen next).KeepsTo extent Q := by
  cases x with
  | error e => exact hx
  | ok p => exact (hnext p.value p.rest p.size_rest_lt hx.1 hx.2).after _

theorem andMaybe {x : Attempt (Parsed n α)}
    {next : α → (r : Cursor) → r.size < n → Attempt (Parsed (r.size + 1) β)}
    (hx : x.KeepsTo extent P)
    (hnext : ∀ value r h, r.Inside extent -> P value -> (next value r h).KeepsTo extent Q) :
    (x.andMaybe next).KeepsTo extent Q := by
  cases x with
  | error e => exact hx
  | ok p => exact (hnext p.value p.rest p.size_rest_lt hx.1 hx.2).afterStep _

end KeepsTo

end Attempt

open Attempt

/-!
## The smallest readers
-/

namespace Cursor

variable {c : Cursor}

theorem keepsTo_require (x : Char) (what : String) (h : c.Inside extent) :
    (c.require x what).KeepsTo extent fun _ => True := by
  rw [require]
  split
  · next r hlt htake => exact .ok (h.take? htake) trivial
  · exact .error h.location

theorem keepsTo_expect (x : Char) (h : c.Inside extent) :
    (c.expect x).KeepsTo extent fun _ => True :=
  (keepsTo_require x _ h.skipSpace).within _

theorem keepsTo_identifier (what : String) (h : c.Inside extent) :
    (c.identifier what).KeepsTo extent fun _ => True := by
  rw [identifier]
  split
  · exact .ok ((passes_dropWhile _ c).inside h) trivial
  · exact .error h.location

end Cursor

namespace Literal

variable {c : Cursor}

theorem keepsTo_integer (hinteger : atInteger c = true) (h : c.Inside extent) :
    (readInteger c hinteger).KeepsTo extent fun _ => True := by
  rw [readInteger]
  split
  · exact .ok ((passes_numeral c).inside h) trivial
  · exact .error h.location

theorem keepsTo_keyword (nullAllowed : Bool) (h : c.Inside extent) :
    (readKeyword nullAllowed c).KeepsTo extent fun _ => True := by
  have hname := c.keepsTo_identifier "identifier without $" h
  rw [readKeyword]
  split
  · next e heq =>
      rw [heq] at hname
      exact hname
  · next name rest hlt heq =>
      rw [heq] at hname
      split
      · exact .ok hname.1 trivial
      · exact .error h.location

end Literal

/-!
## Operands
-/

abbrev Expr.Inside (extent : Extent) (e : Expr) : Prop :=
  AllInside extent e.locations

abbrev Expr.ItemsInside (extent : Extent) (es : List Expr) : Prop :=
  AllInside extent (Expr.locationsAll es)

abbrev Reference.Inside (extent : Extent) (ref : Reference) : Prop :=
  AllInside extent ref.locations

theorem Reference.Inside.ofReference {ref : Reference} (h : ref.Inside extent) :
    (Expr.ofReference ref).Inside extent :=
  allInside_cons.mpr ⟨h _ ref.location_mem_locations, h⟩

theorem Expr.itemsInside_cons {e : Expr} {es : List Expr} (h : e.Inside extent)
    (hes : Expr.ItemsInside extent es) : Expr.ItemsInside extent (e :: es) :=
  allInside_append.mpr ⟨h, hes⟩

theorem Reference.inside_of_takeDot? {c r : Cursor} {hlt : r.size < c.size}
    (hdot : Reference.takeDot? c = some ⟨r, hlt⟩) (h : c.Inside extent) : r.Inside extent :=
  (Reference.passes_of_takeDot? hdot).inside h

mutual

theorem Expr.keepsTo_primary (nullAllowed : Bool) (c : Cursor) (h : c.Inside extent) :
    (Expr.readPrimary nullAllowed c).KeepsTo extent (Expr.Inside extent) := by
  rw [Expr.readPrimary]
  exact ((Expr.keepsTo_operand nullAllowed c.skipSpace h.skipSpace).within _).skipSpace
termination_by 4 * c.size + 2
decreasing_by
  have := c.size_skipSpace_le
  omega

theorem Expr.keepsTo_operand (nullAllowed : Bool) (c : Cursor) (h : c.Inside extent) :
    (Expr.readOperand nullAllowed c).KeepsTo extent (Expr.Inside extent) := by
  have hliteral : ∀ value : Literal, (Expr.literal value c.location).Inside extent :=
    fun _ => allInside_cons.mpr ⟨h.location, allInside_nil⟩
  rw [Expr.readOperand]
  split
  · exact .error h.location
  · next x c₁ h₁ heq =>
      have hinner : c₁.Inside extent := (Cursor.passes_of_next? heq).inside h
      split
      · have href := Reference.keepsTo_required c₁ hinner
        exact (href.after _).mapValue fun ref hinside => hinside.ofReference
      · split
        · exact .error h.location
        · split
          · next integer =>
              exact (Literal.keepsTo_integer integer h).mapValue fun value _ => hliteral value
          · split
            · exact (Expr.keepsTo_list c₁ h.location hinner).after _
            · split
              · exact (Literal.keepsTo_keyword nullAllowed h).mapValue fun value _ => hliteral value
              · exact .error h.location
termination_by 4 * c.size + 1

theorem Expr.keepsTo_list {location : Location} (c : Cursor) (hlocation : location.Inside extent)
    (h : c.Inside extent) :
    (Expr.readList location c).KeepsTo extent (Expr.Inside extent) := by
  rw [Expr.readList]
  exact (Expr.keepsTo_listHere c.skipSpace hlocation h.skipSpace).within _
termination_by 4 * c.size + 4
decreasing_by
  have := c.size_skipSpace_le
  omega

theorem Expr.keepsTo_listHere {location : Location} (c : Cursor)
    (hlocation : location.Inside extent) (h : c.Inside extent) :
    (Expr.readListHere location c).KeepsTo extent (Expr.Inside extent) := by
  rw [Expr.readListHere]
  split
  · next c₁ h₁ htake =>
      exact .ok (h.take? htake) (allInside_cons.mpr ⟨hlocation, allInside_nil⟩)
  · refine (Expr.keepsTo_primary false c h).andThen fun first c₁ h₁ hc₁ hfirst => ?_
    split
    · next c₂ h₂ htake =>
        exact (Expr.keepsTo_rangeEnd c₂ hfirst hlocation (hc₁.take? htake)).after _
    · refine (Expr.keepsTo_items c₁ hc₁).mapValue fun items hitems => ?_
      exact allInside_cons.mpr ⟨hlocation, Expr.itemsInside_cons hfirst hitems⟩
termination_by 4 * c.size + 3

theorem Expr.keepsTo_rangeEnd {first : Expr} {location : Location} (c : Cursor)
    (hfirst : first.Inside extent) (hlocation : location.Inside extent) (h : c.Inside extent) :
    (Expr.readRangeEnd first location c).KeepsTo extent (Expr.Inside extent) := by
  rw [Expr.readRangeEnd]
  refine (Cursor.keepsTo_require '.' _ h).andThen fun _ c₁ h₁ hc₁ _ => ?_
  refine (Expr.keepsTo_primary false c₁ hc₁).andThen fun last c₂ h₂ hc₂ hlast => ?_
  refine (Cursor.keepsTo_require ']' _ hc₂).mapValue fun _ _ => ?_
  exact allInside_cons.mpr ⟨hlocation, allInside_append.mpr ⟨hfirst, hlast⟩⟩
termination_by 4 * c.size

theorem Expr.keepsTo_items (c : Cursor) (h : c.Inside extent) :
    (Expr.readItems c).KeepsTo extent (Expr.ItemsInside extent) := by
  rw [Expr.readItems]
  split
  · next c₁ h₁ htake =>
      refine KeepsTo.after ?_ _
      refine (Expr.keepsTo_primary false c₁ (h.take? htake)).andThen fun item c₂ h₂ hc₂ hitem => ?_
      exact (Expr.keepsTo_items c₂ hc₂).mapValue fun items => Expr.itemsInside_cons hitem
  · exact (Cursor.keepsTo_require ']' _ h).mapValue fun _ _ => allInside_nil
termination_by 4 * c.size

theorem Reference.keepsTo_required (c : Cursor) (h : c.Inside extent) :
    (Reference.readRequired c).KeepsTo extent (Reference.Inside extent) := by
  rw [Reference.readRequired]
  split
  · next c₁ h₁ htake => exact (Reference.keepsTo_braced true c₁ (h.take? htake)).after _
  · exact Reference.keepsTo_braced false c h
termination_by 4 * c.size + 2

theorem Reference.keepsTo_braced (silent : Bool) (c : Cursor) (h : c.Inside extent) :
    (Reference.readBraced silent c).KeepsTo extent (Reference.Inside extent) := by
  rw [Reference.readBraced]
  split
  · next c₁ h₁ htake =>
      refine KeepsTo.after ?_ _
      refine (Reference.keepsTo_named silent c₁ (h.take? htake)).andThen
        fun ref c₂ h₂ hc₂ href => ?_
      exact (Cursor.keepsTo_expect '\x7d' hc₂).mapValue fun _ _ => href
  · exact Reference.keepsTo_named silent c h
termination_by 4 * c.size + 1

theorem Reference.keepsTo_named (silent : Bool) (c : Cursor) (h : c.Inside extent) :
    (Reference.readNamed silent c).KeepsTo extent (Reference.Inside extent) := by
  rw [Reference.readNamed]
  refine (c.keepsTo_identifier _ h).andMaybe fun name c₁ h₁ hc₁ _ => ?_
  have hplain : (Reference.plain name silent c.location).Inside extent :=
    allInside_cons.mpr ⟨h.location, allInside_nil⟩
  exact Reference.keepsTo_suffixes c₁ hplain hc₁
termination_by 4 * c.size

/-- A link is blamed on the line of its dot or bracket. -/
theorem Reference.keepsTo_suffixes {lhs : Reference} (c : Cursor) (hlhs : lhs.Inside extent)
    (h : c.Inside extent) :
    (Reference.readSuffixes lhs c).KeepsTo extent (Reference.Inside extent) := by
  rw [Reference.readSuffixes]
  split
  · next c₁ h₁ hdot =>
      refine KeepsTo.weaken (KeepsTo.after ?_ _)
      have hc₁ := Reference.inside_of_takeDot? hdot h
      refine (c₁.keepsTo_identifier _ hc₁).andMaybe fun name c₂ h₂ hc₂ _ => ?_
      split
      · next c₃ h₃ htake =>
          refine KeepsTo.weaken (KeepsTo.after ?_ _)
          have hargs := Reference.keepsTo_arguments c₃ (hc₂.take? htake)
          refine hargs.andMaybe fun args c₄ h₄ hc₄ hargs => ?_
          have hmethod : (lhs.method name args lhs.silent c.location).Inside extent :=
            allInside_cons.mpr ⟨h.location, allInside_append.mpr ⟨hlhs, hargs⟩⟩
          exact Reference.keepsTo_suffixes c₄ hmethod hc₄
      · have hmember : (lhs.member name lhs.silent c.location).Inside extent :=
          allInside_cons.mpr ⟨h.location, hlhs⟩
        exact Reference.keepsTo_suffixes c₂ hmember hc₂
  · split
    · next c₁ h₁ htake =>
        refine KeepsTo.weaken (KeepsTo.after ?_ _)
        have hindex := Expr.keepsTo_primary false c₁ (h.take? htake)
        refine hindex.andThen fun index c₂ h₂ hc₂ hindex => ?_
        refine (Cursor.keepsTo_require ']' _ hc₂).andMaybe fun _ c₃ h₃ hc₃ _ => ?_
        have hchain : (lhs.index index lhs.silent c.location).Inside extent :=
          allInside_cons.mpr ⟨h.location, allInside_append.mpr ⟨hlhs, hindex⟩⟩
        exact Reference.keepsTo_suffixes c₃ hchain hc₃
    · exact .ok h hlhs
termination_by 4 * c.size

theorem Reference.keepsTo_arguments (c : Cursor) (h : c.Inside extent) :
    (Reference.readArguments c).KeepsTo extent (Expr.ItemsInside extent) := by
  rw [Reference.readArguments]
  exact (Reference.keepsTo_argumentsHere c.skipSpace h.skipSpace).within _
termination_by 4 * c.size + 4
decreasing_by
  have := c.size_skipSpace_le
  omega

theorem Reference.keepsTo_argumentsHere (c : Cursor) (h : c.Inside extent) :
    (Reference.readArgumentsHere c).KeepsTo extent (Expr.ItemsInside extent) := by
  rw [Reference.readArgumentsHere]
  split
  · next c₁ h₁ htake => exact .ok (h.take? htake) allInside_nil
  · split
    · exact .error h.location
    · refine (Expr.keepsTo_primary true c h).andThen fun arg c₁ h₁ hc₁ harg => ?_
      split
      · next c₂ h₂ htake =>
          have hc₂ := hc₁.take? htake
          split
          · exact .error hc₂.skipSpace.location
          · refine KeepsTo.after ?_ _
            exact (Reference.keepsTo_arguments c₂ hc₂).mapValue fun args =>
              Expr.itemsInside_cons harg
      · exact (Reference.keepsTo_argumentsHere c₁ hc₁).mapValue fun args =>
          Expr.itemsInside_cons harg
termination_by 4 * c.size + 3

end

/-!
## Chains
-/

namespace Grouping

theorem inside_apply {op : Operator} {lhs rhs : Grouping} :
    (apply op lhs rhs).toExpr.Inside extent
      ↔ lhs.toExpr.Inside extent ∧ rhs.toExpr.Inside extent := by
  have hlocation : lhs.toExpr.Inside extent -> lhs.toExpr.location.Inside extent :=
    fun h => h _ lhs.toExpr.location_mem_locations
  constructor
  · intro h
    exact allInside_append.mp (allInside_cons.mp h).2
  · intro h
    exact allInside_cons.mpr ⟨hlocation h.1, allInside_append.mpr h⟩

theorem inside_append {grouping : Grouping} (h : grouping.toExpr.Inside extent) (op : Operator)
    {e : Expr} (he : e.Inside extent) : (grouping.append op e).toExpr.Inside extent := by
  induction grouping with
  | operand first => exact inside_apply.mpr ⟨h, he⟩
  | apply outer lhs rhs _ ih =>
      rw [append]
      split
      · exact inside_apply.mpr ⟨(inside_apply.mp h).1, ih (inside_apply.mp h).2⟩
      · exact inside_apply.mpr ⟨h, he⟩

theorem inside_foldl {links : List (Operator × Expr)}
    (hlinks : ∀ link ∈ links, link.2.Inside extent) {grouping : Grouping}
    (h : grouping.toExpr.Inside extent) :
    (links.foldl (fun grouping link => grouping.append link.1 link.2) grouping).toExpr.Inside
      extent := by
  induction links generalizing grouping with
  | nil => exact h
  | cons link rest ih =>
      rw [List.forall_mem_cons] at hlinks
      exact ih hlinks.2 (inside_append h link.1 hlinks.1)

end Grouping

theorem Operator.inside_of_read {c : Cursor} {p : Parsed c.size Operator}
    (hread : Operator.read c = .ok (some p)) (h : c.Inside extent) : p.rest.Inside extent :=
  (Operator.passes_of_read hread).2.inside h

/-- An unknown operator is blamed on the line behind its character. -/
theorem Operator.inside_of_read_error {c : Cursor} {e : Located ParseError}
    (hread : Operator.read c = .error e) (h : c.Inside extent) : e.location.Inside extent := by
  rw [Operator.read] at hread
  split at hread
  · cases hread
  · next p hnext =>
      have hrest : p.rest.Inside extent := (Cursor.passes_of_next? hnext).inside h
      split at hread
      · split at hread <;> cases hread
      · split at hread
        · cases hread
        · cases hread
          exact hrest.location

mutual

theorem Expr.keepsTo (c : Cursor) (h : c.Inside extent) :
    (Expr.read c).KeepsTo extent (Expr.Inside extent) := by
  rw [Expr.read]
  refine (Expr.keepsTo_unary c h).andMaybe fun first c₁ h₁ hc₁ hfirst => ?_
  refine (Expr.keepsTo_links c₁ hc₁).mapValue fun links hlinks => ?_
  exact Grouping.inside_foldl hlinks hfirst
termination_by 3 * c.size + 2

theorem Expr.keepsTo_unary (c : Cursor) (h : c.Inside extent) :
    (Expr.readUnary c).KeepsTo extent (Expr.Inside extent) := by
  rw [Expr.readUnary]
  exact ((Expr.keepsTo_unaryHere c.skipSpace h.skipSpace).within _).skipSpace
termination_by 3 * c.size + 1
decreasing_by
  have := c.size_skipSpace_le
  omega

theorem Expr.keepsTo_unaryHere (c : Cursor) (h : c.Inside extent) :
    (Expr.readUnaryHere c).KeepsTo extent (Expr.Inside extent) := by
  rw [Expr.readUnaryHere]
  split
  · next c₁ h₁ htake =>
      refine KeepsTo.after ?_ _
      refine (Expr.keepsTo c₁ (h.take? htake)).andThen fun inner c₂ h₂ hc₂ hinner => ?_
      exact (Cursor.keepsTo_expect ')' hc₂).mapValue fun _ _ => hinner
  · split
    · next c₁ h₁ htake =>
        refine KeepsTo.after ?_ _
        refine (Expr.keepsTo_unary c₁ (h.take? htake)).mapValue fun operand hoperand => ?_
        exact allInside_cons.mpr ⟨h.location, hoperand⟩
    · exact Expr.keepsTo_primary false c h
termination_by 3 * c.size

theorem Expr.keepsTo_links (c : Cursor) (h : c.Inside extent) :
    (Expr.readLinks c).KeepsTo extent fun links => ∀ link ∈ links, link.2.Inside extent := by
  rw [Expr.readLinks]
  exact (Expr.keepsTo_linksHere c.skipSpace h.skipSpace).afterSpace
termination_by 3 * c.size + 1
decreasing_by
  have := c.size_skipSpace_le
  omega

theorem Expr.keepsTo_linksHere (c : Cursor) (h : c.Inside extent) :
    (Expr.readLinksHere c).KeepsTo extent fun links => ∀ link ∈ links, link.2.Inside extent := by
  rw [Expr.readLinksHere]
  split
  · next e hread => exact .error (Operator.inside_of_read_error hread h)
  · exact .ok h (List.forall_mem_nil _)
  · next op c₁ h₁ hread =>
      have hc₁ : c₁.Inside extent := Operator.inside_of_read hread h
      refine KeepsTo.weaken (KeepsTo.after ?_ _)
      refine (Expr.keepsTo_unary c₁ hc₁).andMaybe fun operand c₂ h₂ hc₂ hoperand => ?_
      refine (Expr.keepsTo_links c₂ hc₂).mapValue fun links hlinks => ?_
      exact List.forall_mem_cons.mpr ⟨hoperand, hlinks⟩
termination_by 3 * c.size

end

end Stencil
