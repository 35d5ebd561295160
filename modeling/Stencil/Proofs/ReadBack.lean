import Stencil.Proofs.ChainReader

/-!
# Reading spelled expressions

Every text that spells a well-formed expression is read as that expression, up to lines.  The
induction is on the expression: a primary is read by the rule of its form, a reference chain from
its variable on, and an application of an operator as part of a chain.
-/

namespace Stencil

open Attempt

/-!
## Primaries
-/

namespace Expr

/-- The texts of the layout begin as a primary does, and are read as the operand `e`. -/
def ReadsOperand (nullAllowed : Bool) (e : Expr) : Prop :=
  ∀ text, Layout.Spaced e.layout text ->
    (∃ c more, text = c :: more ∧ Text.beginsPrimary c = true)
      ∧ ∀ (r : String) (rest : List Char), Boundary rest -> ∀ l,
        (readOperand nullAllowed ⟨r, text ++ rest, l⟩).Gives r rest (e.SameUpToLines r)

def SameAll (resource : String) (es found : List Expr) : Prop :=
  relocateAll Location.lineless found = relocateAll (fun _ => ⟨resource, 0⟩) es

theorem SameAll.cons {r : String} {e found : Expr} {es others : List Expr}
    (he : e.SameUpToLines r found) (hes : SameAll r es others) :
    SameAll r (e :: es) (found :: others) := by
  rw [SameAll, relocateAll, relocateAll, he, hes]

variable {nullAllowed : Bool} {r : String} {e : Expr} {es : List Expr}
  {text gap gap' rest : List Char}

theorem head_of_beginsPrimary {c : Char} (h : Text.beginsPrimary c = true) (more : List Char) :
    ∀ x ∈ (c :: more).head?, Text.isBlank x = false := by
  intro x hx
  cases hx
  exact Text.isBlank_of_beginsPrimary h

theorem ReadsOperand.gives_primary {x : Char} (h : e.ReadsOperand nullAllowed)
    (htext : Layout.Spaced e.layout text) (hgap : ∀ c ∈ gap, Text.isBlank c = true)
    (hgap' : ∀ c ∈ gap', Text.isBlank c = true) (hx : Text.isBlank x = false)
    (hrest : Boundary (x :: rest)) (l : Nat) :
    (readPrimary nullAllowed ⟨r, gap ++ (text ++ (gap' ++ x :: rest)), l⟩).Gives r (x :: rest)
      (e.SameUpToLines r) := by
  rcases h text htext with ⟨⟨c, more, rfl, hc⟩, hread⟩
  have hboundary := Boundary.blanks_append hgap' hrest
  have hprimary := Expr.gives_primary (l := l) hgap (head_of_beginsPrimary hc _)
    (hread r (gap' ++ x :: rest) hboundary)
  have hstop : ∀ c ∈ (x :: rest).head?, Text.isBlank c = false :=
    Cursor.forall_head_cons hx
  rw [Cursor.dropWhile_append_stop hgap' hstop] at hprimary
  exact hprimary

theorem ReadsOperand.unary (h : e.ReadsOperand false) (htext : Layout.Spaced e.layout text) :
    e.ReadsUnary text := by
  intro r gap rest hgap hrest hboundary l
  rcases h text htext with ⟨⟨c, more, rfl, hc⟩, hread⟩
  have hparen : c ≠ '(' := by
    rintro rfl
    cases hc
  have hbang : c ≠ '!' := by
    rintro rfl
    cases hc
  have hhead := head_of_beginsPrimary hc (more ++ (gap ++ rest))
  have hprimary : ∀ l', (readPrimary false ⟨r, [] ++ c :: (more ++ (gap ++ rest)), l'⟩).Gives r
      ((gap ++ rest).dropWhile Text.isBlank) (e.SameUpToLines r) := fun l' =>
    Expr.gives_primary (List.forall_mem_nil _) hhead (hread r (gap ++ rest) hboundary)
  have hunary := gives_unary (r := r) (l := l) (List.forall_mem_nil _) hhead fun l' =>
    gives_unaryHere_primary (fun h => hparen (Option.some.inj h))
      (fun h => hbang (Option.some.inj h)) (hprimary l')
  rw [Cursor.dropWhile_append_stop hgap hrest, Cursor.dropWhile_of_stop hrest] at hunary
  exact hunary

/-!
## Lists
-/

theorem gives_spaced_items (h : ∀ e ∈ es, e.ReadsOperand false) (he : e.ReadsOperand false)
    (htext : Layout.Spaced (listLayout (e :: es)) text)
    (hgap : ∀ c ∈ gap, Text.isBlank c = true) (hgap' : ∀ c ∈ gap', Text.isBlank c = true) :
    ∃ mid, mid.head? ≠ some '.'
      ∧ (∀ l, (readPrimary false ⟨r, gap ++ (text ++ (gap' ++ ']' :: rest)), l⟩).Gives r mid
        (e.SameUpToLines r))
      ∧ ∀ l, (readItems ⟨r, mid, l⟩).Gives r rest (SameAll r es) := by
  induction es generalizing e text gap with
  | nil =>
      refine ⟨']' :: rest, by simp, fun l => ?_, fun l => ?_⟩
      · exact he.gives_primary htext hgap hgap' (by decide)
          (Boundary.of_head (by decide) (by decide)) l
      · refine gives_items_nil.imp fun found hfound => ?_
        rw [hfound]
        rfl
  | cons other es ih =>
      rcases Layout.spaced_append htext with ⟨first, _, rfl, hfirst, hcomma⟩
      rcases Layout.spaced_comma hcomma with ⟨before, after, others, rfl, hbefore, hafter, hothers⟩
      rcases ih (fun e he => h e (List.mem_cons_of_mem _ he)) (h other List.mem_cons_self) hothers
        hafter with ⟨mid, _, hother, hitems⟩
      refine ⟨',' :: (after ++ (others ++ (gap' ++ ']' :: rest))), by simp, fun l => ?_,
        fun l => ?_⟩
      · have htext : first ++ (before ++ ',' :: (after ++ others)) ++ (gap' ++ ']' :: rest)
            = first ++ (before ++ ',' :: (after ++ (others ++ (gap' ++ ']' :: rest)))) := by
          simp
        rw [htext]
        exact he.gives_primary hfirst hgap hbefore (by decide)
          (Boundary.of_head (by decide) (by decide)) l
      · exact gives_items_cons hother hitems fun item items hitem hsame => SameAll.cons hitem hsame

theorem begins_listLayout (he : e.ReadsOperand nullAllowed)
    (htext : Layout.Spaced (listLayout (e :: es)) text) :
    ∃ c more, text = c :: more ∧ Text.beginsPrimary c = true := by
  cases es with
  | nil => exact (he text htext).1
  | cons other es =>
      rcases Layout.spaced_append htext with ⟨first, rest, rfl, hfirst, _⟩
      rcases (he first hfirst).1 with ⟨c, more, rfl, hc⟩
      exact ⟨c, more ++ rest, rfl, hc⟩

theorem head_listLayout (he : e.ReadsOperand nullAllowed)
    (htext : Layout.Spaced (listLayout (e :: es)) text) (rest : List Char) :
    (∀ c ∈ (text ++ rest).head?, Text.isBlank c = false)
      ∧ (text ++ rest).head? ≠ some ')' ∧ (text ++ rest).head? ≠ some ']'
      ∧ (text ++ rest).head? ≠ none := by
  rcases begins_listLayout he htext with ⟨c, more, rfl, hc⟩
  refine ⟨head_of_beginsPrimary hc _, ?_, ?_, by simp⟩
  · intro h
    cases h
    cases hc
  · intro h
    cases h
    cases hc

theorem gives_spaced_arguments (h : ∀ e ∈ es, e.ReadsOperand true) (he : e.ReadsOperand true)
    (htext : Layout.Spaced (listLayout (e :: es)) text)
    (hgap' : ∀ c ∈ gap', Text.isBlank c = true) (l : Nat) :
    (Reference.readArgumentsHere ⟨r, text ++ (gap' ++ ')' :: rest), l⟩).Gives r rest
      (SameAll r (e :: es)) := by
  induction es generalizing e text l with
  | nil =>
      rcases head_listLayout he htext (gap' ++ ')' :: rest)
        with ⟨_, hparen, _, hnone⟩
      have harg : (readPrimary true ⟨r, [] ++ (text ++ (gap' ++ ')' :: rest)), l⟩).Gives r
          (')' :: rest) (e.SameUpToLines r) :=
        he.gives_primary htext (List.forall_mem_nil _) hgap' (by decide)
          (Boundary.of_head (by decide) (by decide)) l
      exact Reference.gives_argumentsHere_last hparen hnone harg fun arg hsame =>
        SameAll.cons hsame rfl
  | cons other es ih =>
      rcases head_listLayout he htext (gap' ++ ')' :: rest)
        with ⟨_, hparen, _, hnone⟩
      rcases Layout.spaced_append htext with ⟨first, _, rfl, hfirst, hcomma⟩
      rcases Layout.spaced_comma hcomma with ⟨before, after, others, rfl, hbefore, hafter, hothers⟩
      have hother : other.ReadsOperand true := h other List.mem_cons_self
      rcases head_listLayout hother hothers (gap' ++ ')' :: rest)
        with ⟨hblank, hclosed, _, _⟩
      have harg : (readPrimary true ⟨r, [] ++ (first ++ (before ++ ',' ::
          (after ++ (others ++ (gap' ++ ')' :: rest))))), l⟩).Gives r
          (',' :: (after ++ (others ++ (gap' ++ ')' :: rest)))) (e.SameUpToLines r) :=
        he.gives_primary hfirst (List.forall_mem_nil _) hbefore (by decide)
          (Boundary.of_head (by decide) (by decide)) l
      have htext : first ++ (before ++ ',' :: (after ++ others)) ++ (gap' ++ ')' :: rest)
          = first ++ (before ++ ',' :: (after ++ (others ++ (gap' ++ ')' :: rest)))) := by
        simp
      rw [htext] at hparen hnone ⊢
      exact Reference.gives_argumentsHere_cons hparen hnone harg hafter hblank hclosed
        (ih (fun e he => h e (List.mem_cons_of_mem _ he)) hother hothers)
        fun arg args harg hargs => SameAll.cons harg hargs

theorem gives_spaced_call (h : ∀ e ∈ es, e.ReadsOperand true)
    (htext : Layout.Spaced (listLayout es) text) (hgap : ∀ c ∈ gap, Text.isBlank c = true)
    (hgap' : ∀ c ∈ gap', Text.isBlank c = true) (l : Nat) :
    (Reference.readArguments ⟨r, gap ++ (text ++ (gap' ++ ')' :: rest)), l⟩).Gives r rest
      (SameAll r es) := by
  cases es with
  | nil =>
      cases htext
      have hclose : ∀ c ∈ (')' :: rest).head?, Text.isBlank c = false :=
        Cursor.forall_head_cons (by decide)
      have hgaps : ∀ c ∈ gap ++ gap', Text.isBlank c = true := by
        intro c hc
        exact (List.mem_append.mp hc).elim (hgap c) (hgap' c)
      rw [List.nil_append, ← List.append_assoc]
      refine (Reference.gives_arguments hgaps hclose fun l' =>
        Reference.gives_argumentsHere_nil).imp fun found hfound => ?_
      rw [hfound]
      rfl
  | cons e es =>
      have he : e.ReadsOperand true := h e List.mem_cons_self
      rcases head_listLayout he htext (gap' ++ ')' :: rest) with ⟨hblank, _⟩
      exact Reference.gives_arguments hgap hblank
        (gives_spaced_arguments (fun e he => h e (List.mem_cons_of_mem _ he)) he htext hgap')

end Expr

/-!
## Reference chains

A chain is read from its variable on, so what is known about its beginning is said for every way
to go on behind it.
-/

namespace Reference

def SameUpToLines (resource : String) (ref found : Reference) : Prop :=
  found.relocate Location.lineless = ref.relocate fun _ => ⟨resource, 0⟩

def ReadsNamed (ref : Reference) (text : List Char) : Prop :=
  ∀ (r : String) (mid rest : List Char) (S : Reference → Prop), EndsName mid ->
    (∀ found l, ref.SameUpToLines r found -> (readSuffixes found ⟨r, mid, l⟩).Gives r rest S) ->
    ∀ l, (readNamed ref.silent ⟨r, text ++ mid, l⟩).Gives r rest S

/-- The texts of the layout are the marks of a reference and a name with suffixes. -/
def ReadsBack (ref : Reference) : Prop :=
  ∀ text, Layout.Spaced ref.layout text ->
    ∃ c more, text = sigil ref.silent ++ c :: more ∧ c.isAlpha = true
      ∧ ref.ReadsNamed (c :: more)

variable {ref lhs : Reference} {r : String} {name : String} {silent : Bool} {location : Location}

theorem silent_of_same {found : Reference} (h : lhs.SameUpToLines r found) :
    found.silent = lhs.silent := by
  rw [← silent_relocate Location.lineless found, h, silent_relocate]

theorem sameUpToLines_ofReference {found : Reference} (h : ref.SameUpToLines r found) :
    (Expr.reference ref location).SameUpToLines r (.ofReference found) := by
  have hlocation : found.location.lineless = ⟨r, 0⟩ := by
    rw [← location_relocate Location.lineless found, h, location_relocate]
  rw [Expr.SameUpToLines, Expr.ofReference, Expr.relocate, Expr.relocate, h, hlocation]

theorem endsName_of_head {c : Char} (hname : Text.isIdentifierChar c = false) (hcall : c ≠ '(')
    (rest : List Char) : EndsName (c :: rest) where
  name := by
    intro found hfound
    cases hfound
    exact hname
  call := fun h => hcall (Option.some.inj h)

theorem readsBack_plain (hname : Text.IsIdentifier name.toList) :
    (plain name silent location).ReadsBack := by
  intro text htext
  rcases Layout.spaced_ofText_append htext with ⟨body, rfl, hbody⟩
  have hbody := Layout.spaced_ofText hbody
  cases hcases : name.toList with
  | nil =>
      rw [hcases] at hname
      exact absurd hname id
  | cons c more =>
      rw [hcases] at hbody hname
      refine ⟨c, more, by rw [hbody]; rfl, hname.1, ?_⟩
      intro r mid rest S hmid hgo l
      refine gives_named hname hmid.name fun l' => hgo _ l' ?_
      rw [← hcases, String.ofList_toList, SameUpToLines, relocate, relocate]
      rfl

theorem readsBack_member (hlhs : lhs.ReadsBack) (hname : Text.IsIdentifier name.toList)
    (hsilent : silent = lhs.silent) : (member lhs name silent location).ReadsBack := by
  intro text htext
  rcases Layout.spaced_append htext with ⟨front, _, rfl, hfront, hdot⟩
  rcases Layout.spaced_char hdot with ⟨body, rfl, hbody⟩
  have hbody := Layout.spaced_ofText hbody
  rcases hlhs front hfront with ⟨c, more, rfl, hc, hread⟩
  refine ⟨c, more ++ '.' :: body, by simp [Reference.silent, hsilent], hc, ?_⟩
  intro r mid rest S hmid hgo l
  have htext : c :: (more ++ '.' :: body) ++ mid = c :: more ++ '.' :: (name.toList ++ mid) := by
    simp [hbody]
  rw [htext]
  refine hsilent ▸ hread r _ rest S (endsName_of_head (by decide) (by decide) _) ?_ l
  intro found l' hfound
  refine gives_suffixes_member hname hmid fun l'' => hgo _ l'' ?_
  rw [String.ofList_toList, SameUpToLines, relocate, relocate, hfound, silent_of_same hfound,
    hsilent]
  rfl

theorem readsBack_method {args : List Expr} (hlhs : lhs.ReadsBack)
    (hname : Text.IsIdentifier name.toList) (hsilent : silent = lhs.silent)
    (hargs : ∀ e ∈ args, e.ReadsOperand true) :
    (method lhs name args silent location).ReadsBack := by
  intro text htext
  rcases Layout.spaced_append htext with ⟨front, _, rfl, hfront, hdot⟩
  rcases Layout.spaced_char hdot with ⟨_, rfl, hbody⟩
  rcases Layout.spaced_ofText_append hbody with ⟨_, rfl, hparen⟩
  rcases Layout.spaced_char hparen with ⟨_, rfl, hclosed⟩
  rcases Layout.spaced_closed hclosed with ⟨gap, body, gap', rfl, hgap, hbody, hgap'⟩
  rcases hlhs front hfront with ⟨c, more, rfl, hc, hread⟩
  refine ⟨c, more ++ '.' :: (name.toList ++ '(' :: (gap ++ (body ++ (gap' ++ [')'])))),
    by simp [Reference.silent, hsilent], hc, ?_⟩
  intro r mid rest S hmid hgo l
  have htext : c :: (more ++ '.' :: (name.toList ++ '(' :: (gap ++ (body ++ (gap' ++ [')'])))))
      ++ mid
      = c :: more ++ '.' :: (name.toList ++ '(' :: (gap ++ (body ++ (gap' ++ ')' :: mid)))) := by
    simp
  rw [htext]
  refine hsilent ▸ hread r _ rest S (endsName_of_head (by decide) (by decide) _) ?_ l
  intro found l' hfound
  refine gives_suffixes_method hname (Expr.gives_spaced_call hargs hbody hgap hgap')
    fun found' l'' hfound' => hgo _ l'' ?_
  rw [String.ofList_toList, SameUpToLines, relocate, relocate, hfound, hfound',
    silent_of_same hfound, hsilent]
  rfl

theorem readsBack_index {index : Expr} (hlhs : lhs.ReadsBack) (hsilent : silent = lhs.silent)
    (hindex : index.ReadsOperand false) :
    (Reference.index lhs index silent location).ReadsBack := by
  intro text htext
  rcases Layout.spaced_append htext with ⟨front, _, rfl, hfront, hbracket⟩
  rcases Layout.spaced_char hbracket with ⟨_, rfl, hclosed⟩
  rcases Layout.spaced_closed hclosed with ⟨gap, body, gap', rfl, hgap, hbody, hgap'⟩
  rcases hlhs front hfront with ⟨c, more, rfl, hc, hread⟩
  refine ⟨c, more ++ '[' :: (gap ++ (body ++ (gap' ++ [']']))),
    by simp [Reference.silent, hsilent], hc, ?_⟩
  intro r mid rest S hmid hgo l
  have htext : c :: (more ++ '[' :: (gap ++ (body ++ (gap' ++ [']'])))) ++ mid
      = c :: more ++ '[' :: (gap ++ (body ++ (gap' ++ ']' :: mid))) := by
    simp
  rw [htext]
  refine hsilent ▸ hread r _ rest S (endsName_of_head (by decide) (by decide) _) ?_ l
  intro found l' hfound
  refine gives_suffixes_index (hindex.gives_primary hbody hgap hgap' (by decide)
    (Boundary.of_head (by decide) (by decide))) fun found' l'' hfound' => hgo _ l'' ?_
  rw [SameUpToLines, relocate, relocate, hfound, hfound', silent_of_same hfound, hsilent]
  rfl

end Reference

/-!
## Forms of operands
-/

namespace Expr

variable {location : Location}

theorem readsOperand_literal {value : Literal} {nullAllowed : Bool}
    (hnull : value = .null -> nullAllowed = true) :
    (literal value location).ReadsOperand nullAllowed := by
  intro text htext
  have htext := Layout.spaced_ofText htext
  refine ⟨htext ▸ Literal.begins_text value, fun r rest hrest l => ?_⟩
  · rw [htext]
    refine (gives_literal hnull hrest.toEndsName).imp fun found hfound => ?_
    rw [hfound]
    rfl

theorem readsOperand_reference {ref : Reference} {nullAllowed : Bool} (h : ref.ReadsBack) :
    (reference ref location).ReadsOperand nullAllowed := by
  intro text htext
  rcases h text htext with ⟨c, more, rfl, hc, hread⟩
  have hsigil : Reference.sigil ref.silent ++ c :: more
      = '$' :: ((if ref.silent then ['!'] else []) ++ c :: more) := by
    cases ref.silent <;> rfl
  rw [hsigil]
  refine ⟨⟨_, _, rfl, rfl⟩, fun r rest hrest l => ?_⟩
  rw [List.cons_append, List.append_assoc]
  refine gives_dollar fun l' => Reference.gives_required hc fun l'' => ?_
  refine hread r rest rest _ hrest.toEndsName (fun found l₁ hfound => ?_) l''
  refine (Reference.gives_suffixes_stop hrest).imp fun last hlast => ?_
  rw [hlast]
  exact Reference.sameUpToLines_ofReference hfound

theorem readsOperand_list {items : List Expr} {nullAllowed : Bool}
    (hitems : ∀ e ∈ items, e.ReadsOperand false) :
    (list items location).ReadsOperand nullAllowed := by
  intro text htext
  rcases Layout.spaced_char htext with ⟨_, rfl, hclosed⟩
  rcases Layout.spaced_closed hclosed with ⟨gap, body, gap', rfl, hgap, hbody, hgap'⟩
  refine ⟨⟨_, _, rfl, rfl⟩, fun r rest _ l => ?_⟩
  rw [List.cons_append, List.append_assoc, List.append_assoc, List.append_assoc]
  cases items with
  | nil =>
      cases hbody
      have hclose : ∀ c ∈ (']' :: rest).head?, Text.isBlank c = false :=
        Cursor.forall_head_cons (by decide)
      have hgaps : ∀ c ∈ gap ++ gap', Text.isBlank c = true := by
        intro c hc
        exact (List.mem_append.mp hc).elim (hgap c) (hgap' c)
      rw [List.nil_append, ← List.append_assoc gap]
      refine gives_bracket (fun l' => gives_listHere_nil.imp fun found hfound => ?_) hclose hgaps
      rw [hfound]
      rfl
  | cons e es =>
      have he : e.ReadsOperand false := hitems e List.mem_cons_self
      rcases head_listLayout he hbody (gap' ++ ']' :: rest) with ⟨hblank, _, hclosed, _⟩
      rcases gives_spaced_items (fun e he => hitems e (List.mem_cons_of_mem _ he)) he hbody
        (List.forall_mem_nil _) hgap' with ⟨mid, hdot, hfirst, hothers⟩
      refine gives_bracket (fun l' => gives_listHere_cons hclosed hdot (hfirst l') hothers
        fun first others hsame hall => ?_) hblank hgap
      rw [SameUpToLines, relocate, relocate, SameAll.cons hsame hall]
      rfl

theorem readsOperand_range {first last : Expr} {nullAllowed : Bool}
    (hfirst : first.ReadsOperand false) (hlast : last.ReadsOperand false) :
    (range first last location).ReadsOperand nullAllowed := by
  intro text htext
  rcases Layout.spaced_char htext with ⟨_, rfl, hopen⟩
  rcases Layout.spaced_open hopen with ⟨gap, _, rfl, hgap, hbounds⟩
  rcases Layout.spaced_append hbounds with ⟨front, _, rfl, hfront, hdots⟩
  rcases Layout.spaced_open hdots with ⟨before, _, rfl, hbefore, hdot⟩
  rcases Layout.spaced_char hdot with ⟨_, rfl, hdot'⟩
  rcases Layout.spaced_char hdot' with ⟨_, rfl, hclosed⟩
  rcases Layout.spaced_closed hclosed with ⟨after, back, gap', rfl, hafter, hback, hgap'⟩
  refine ⟨⟨_, _, rfl, rfl⟩, fun r rest _ l => ?_⟩
  have htext : '[' :: (gap ++ (front ++ (before ++ '.' :: '.' ::
      (after ++ (back ++ (gap' ++ [']'])))))) ++ rest
      = '[' :: (gap ++ (front ++ (before ++ '.' :: '.' ::
          (after ++ (back ++ (gap' ++ ']' :: rest)))))) := by
    simp
  rcases hfirst front hfront with ⟨⟨c, more, rfl, hc⟩, _⟩
  have hclose : ∀ l', (⟨r, c :: more ++ (before ++ '.' :: '.' ::
      (after ++ (back ++ (gap' ++ ']' :: rest)))), l'⟩ : Cursor).current ≠ some ']' := by
    intro l' h
    cases h
    cases hc
  rw [htext]
  refine gives_bracket (fun l' => gives_listHere_range (hclose l')
    (hfirst.gives_primary hfront (List.forall_mem_nil _) hbefore (by decide)
      (Boundary.dots _) l')
    (hlast.gives_primary hback hafter hgap' (by decide)
      (Boundary.of_head (by decide) (by decide)))
    fun found found' hsame hsame' => ?_) (head_of_beginsPrimary hc _) hgap
  rw [SameUpToLines, relocate, relocate, hsame, hsame']
  rfl

end Expr

/-!
## The induction
-/

/-- What reading a spelled expression gives, in each place where it may stand. -/
structure Expr.ReadsBack (e : Expr) : Prop where
  operand : ∀ nullAllowed, e.isPrimary = true -> e.WellFormed nullAllowed ->
    e.ReadsOperand nullAllowed
  unary : e.isBinary = false -> e.WellFormed false -> ∀ text, Layout.Spaced e.layout text ->
    e.ReadsUnary text
  chain : e.WellFormed false -> ∀ text, Layout.Spaced e.layout text ->
    Expr.ReadsChain e.chain text

namespace Expr.ReadsBack

theorem of_unary {e : Expr} (hprimary : e.isPrimary = false) (hbinary : e.isBinary = false)
    (h : e.WellFormed false -> ∀ text, Layout.Spaced e.layout text -> e.ReadsUnary text) :
    e.ReadsBack where
  operand := fun _ hprimary' => absurd (hprimary.symm.trans hprimary') Bool.false_ne_true
  unary := fun _ => h
  chain := by
    intro hwell text htext
    rw [chain_of_not_binary hbinary]
    exact (h hwell text htext).chain

theorem of_operand {e : Expr} (hbinary : e.isBinary = false)
    (h : ∀ nullAllowed, e.WellFormed nullAllowed -> e.ReadsOperand nullAllowed) :
    e.ReadsBack where
  operand := fun nullAllowed _ => h nullAllowed
  unary := fun _ hwell text htext => (h false hwell).unary htext
  chain := by
    intro hwell text htext
    rw [chain_of_not_binary hbinary]
    exact ((h false hwell).unary htext).chain

theorem parenthesized {e : Expr} (h : e.ReadsBack) (hwell : e.WellFormed false)
    {text : List Char} (htext : Layout.Spaced (Layout.parenthesize true e.layout) text) :
    e.ReadsUnary text := by
  rcases Layout.spaced_char htext with ⟨_, rfl, hclosed⟩
  rcases Layout.spaced_closed hclosed with ⟨gap, inner, gap', rfl, hgap, hinner, hgap'⟩
  exact (h.chain hwell inner hinner).group hgap hgap'

theorem side {e : Expr} (h : e.ReadsBack) (hwell : e.WellFormed false) (needed : Bool)
    {text : List Char} (htext : Layout.Spaced (Layout.parenthesize needed e.layout) text) :
    Expr.ReadsChain (if needed then .operand e else e.chain) text := by
  cases needed with
  | true => exact (h.parenthesized hwell htext).chain
  | false => exact h.chain hwell text htext

theorem binary {op : Operator} {lhs rhs : Expr} {location : Location} (hl : lhs.ReadsBack)
    (hr : rhs.ReadsBack) : (Expr.binary op lhs rhs location).ReadsBack where
  operand := fun _ hprimary => absurd hprimary Bool.false_ne_true
  unary := fun hbinary => absurd hbinary.symm Bool.false_ne_true
  chain := by
    rintro ⟨hop, hlwell, hrwell⟩ text htext
    rw [layout] at htext
    rcases Layout.spaced_append htext with ⟨front, _, rfl, hfront, hoperator⟩
    rcases Layout.spaced_operator hoperator
      with ⟨before, after, back, rfl, ⟨hbefore, hbefore'⟩, ⟨hafter, hafter'⟩, hback⟩
    rw [Expr.chain]
    exact (hl.side hlwell _ hfront).apply (hr.side hrwell _ hback) hop hbefore hbefore' hafter
      hafter'

theorem not {operand : Expr} {location : Location} (h : operand.ReadsBack) :
    (Expr.not operand location).ReadsBack := by
  refine of_unary rfl rfl fun hwell text htext => ?_
  rcases Layout.spaced_char htext with ⟨_, rfl, hopen⟩
  rcases Layout.spaced_open hopen with ⟨gap, body, rfl, hgap, hbody⟩
  have hunary : operand.ReadsUnary body := by
    cases hbinary : operand.isBinary with
    | true =>
        rw [hbinary] at hbody
        exact h.parenthesized hwell hbody
    | false =>
        rw [hbinary] at hbody
        exact h.unary hbinary hwell body hbody
  exact hunary.negation hgap location

end Expr.ReadsBack

mutual

theorem Expr.readsBack : ∀ e : Expr, e.ReadsBack
  | .literal _ _ => .of_operand rfl fun _ hnull => Expr.readsOperand_literal hnull
  | .reference ref _ => .of_operand rfl fun _ hwell =>
      Expr.readsOperand_reference (Reference.readsBack ref hwell)
  | .binary _ lhs rhs _ => .binary (Expr.readsBack lhs) (Expr.readsBack rhs)
  | .not operand _ => .not (Expr.readsBack operand)
  | .list items _ => .of_operand rfl fun _ hwell =>
      Expr.readsOperand_list (Expr.readsBack_primaries items false hwell)
  | .range first last _ => .of_operand rfl fun _ hwell =>
      Expr.readsOperand_range ((Expr.readsBack first).operand false hwell.1.1 hwell.1.2)
        ((Expr.readsBack last).operand false hwell.2.1 hwell.2.2)

theorem Reference.readsBack : ∀ ref : Reference, ref.WellFormed -> ref.ReadsBack
  | .plain _ _ _, hname => Reference.readsBack_plain hname
  | .member lhs _ _ _, hwell =>
      Reference.readsBack_member (Reference.readsBack lhs hwell.1) hwell.2.1 hwell.2.2
  | .method lhs _ args _ _, hwell =>
      Reference.readsBack_method (Reference.readsBack lhs hwell.1) hwell.2.1 hwell.2.2.1
        (Expr.readsBack_primaries args true hwell.2.2.2)
  | .index lhs index _ _, hwell =>
      Reference.readsBack_index (Reference.readsBack lhs hwell.1) hwell.2.1
        ((Expr.readsBack index).operand false hwell.2.2.1 hwell.2.2.2)

theorem Expr.readsBack_primaries : ∀ (es : List Expr) (nullAllowed : Bool),
    Expr.Primaries nullAllowed es -> ∀ e ∈ es, e.ReadsOperand nullAllowed
  | [], _, _ => List.forall_mem_nil _
  | e :: rest, nullAllowed, hwell =>
      List.forall_mem_cons.mpr
        ⟨(Expr.readsBack e).operand nullAllowed hwell.1.1 hwell.1.2,
          Expr.readsBack_primaries rest nullAllowed hwell.2⟩

end

end Stencil
