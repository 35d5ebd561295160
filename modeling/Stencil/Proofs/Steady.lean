import Stencil.Proofs.Composition
import Stencil.Proofs.ScanNode

/-!
# Parsing comes to an end

The parser ends for every text, however it is malformed or wherever it breaks off, and breaks none
of its own rules.  What makes it end is that every step on the level of nodes takes something from
the text.  Characters that were put back count as text that is left, so a step that ends with a dot
put back has still taken the name in front of it.
-/

namespace Stencil

namespace Scan

/-!
## Scans that complete
-/

/-- The scan ends and does not crash.  If it ends with a value, the scanner can go on, and both are
as described; else it ends with a parse error. -/
def Completes (m : Scan α) (s : Scanner) (described : α → Scanner → Prop) : Prop :=
  match m s with
  | .ok (value, s') => s'.Ready ∧ described value s'
  | .error (.rejected _) => True
  | .error _ => False

section

variable {m : Scan α} {s s' : Scanner} {described : α → Scanner → Prop}

theorem completes_of_ok {value : α} (hrun : m s = .ok (value, s')) (ready : s'.Ready)
    (h : described value s') : Completes m s described := by
  rw [Completes, hrun]
  exact ⟨ready, h⟩

theorem completes_of_rejected {e : Located ParseError} (hrun : m s = .error (.rejected e)) :
    Completes m s described := by
  rw [Completes, hrun]
  trivial

theorem Completes.mono {other : α → Scanner → Prop} (h : Completes m s described)
    (himp : ∀ value s', described value s' -> other value s') : Completes m s other := by
  rw [Completes] at h ⊢
  split at h
  · exact ⟨h.1, himp _ _ h.2⟩
  · trivial
  · exact h

/-- A reader tells by the type of its outcome how much it leaves. -/
theorem Agrees.completes {x : Attempt (Parsed n α)} (h : Agrees m s x) :
    Completes m s fun _ s' => s'.size < n := by
  cases x with
  | error e => exact completes_of_rejected h
  | ok p =>
      rcases h with ⟨s', hrun, hrest, ready⟩
      refine completes_of_ok hrun ready ?_
      change s'.cursor.size < n
      rw [hrest]
      exact p.size_rest_lt

theorem Agrees.keeps {x : Attempt (Parsed (s.size + 1) α)} (h : Agrees m s x) :
    Completes m s fun _ s' => s'.size ≤ s.size :=
  h.completes.mono fun _ _ hlt => Nat.le_of_lt_succ hlt

theorem Climbs.completes {m : Scan (Expr × Operator)} {g : Grouping}
    {x : Attempt (List (Operator × Expr) × Cursor)} (h : Climbs (m s) g x n level) :
    Completes m s fun _ s' => s'.size < n := by
  cases h with
  | failed e hrun _ => exact completes_of_rejected hrun
  | reached links next s' hrun ready _ _ _ _ hlt => exact completes_of_ok hrun ready hlt

end

/-- Every loop and every recursion of the parser completes, wherever the scanner is, and none leaves
more than there was. -/
structure Steady (fuel : Nat) (s : Scanner) : Prop where
  /-- A step on the level of nodes is at the end of the text or takes something from it. -/
  step : Completes (piece fuel) s fun found s' =>
    found = .stop .endOfFile s.location ∧ s.remaining = [] ∨ s'.size < s.size
  nodes (construct : Construct) :
    Completes (body construct fuel) s fun _ s' => s'.size ≤ s.size
  branches (opener : Opener) (location : Location) :
    Completes (conditional opener location fuel) s fun _ s' => s'.size < s.size
  links (lhs : Reference) : Completes (suffixes lhs fuel) s fun _ s' => s'.size ≤ s.size
  callArguments : Completes (arguments fuel) s fun _ s' => s'.size < s.size
  moreArguments : Completes (argumentList fuel) s fun _ s' => s'.size < s.size
  listItems : Completes (items fuel) s fun _ s' => s'.size < s.size
  climbing (op : Operator) (lhs : Expr) (level : Nat) : 1 ≤ level ->
    Completes (climb op lhs level fuel) s fun _ s' =>
      s'.size ≤ s.size ∧ (level ≤ op.precedence -> s'.size < s.size)
  tightening (op : Operator) (rhs : Expr) (next : Operator) :
    Completes (tighten op rhs next fuel) s fun _ s' => s'.size ≤ s.size
  chain : Completes (expression fuel) s fun _ s' => s'.size < s.size
  chainOperand : Completes (unary fuel) s fun _ s' => s'.size < s.size
  commentLine (location : Location) :
    Completes (lineComment location fuel) s fun _ s' => s'.size ≤ s.size
  comment (location : Location) :
    Completes (blockComment location fuel) s fun _ s' => s'.size ≤ s.size
  quoted (location : Location) :
    Completes (quotedBlock location fuel) s fun _ s' => s'.size ≤ s.size
  characters (p : Char → Bool) :
    Completes (collect p fuel) s fun _ s' => s'.size ≤ s.size

section

variable {s : Scanner} {fuel : Nat}

theorem completes_piece (ready : s.Ready) (hfuel : 4 * s.size + 8 < fuel) :
    Completes (piece fuel) s fun found s' =>
      found = .stop .endOfFile s.location ∧ s.remaining = [] ∨ s'.size < s.size := by
  have hpiece := agrees_piece fuel s ready hfuel
  cases hread : Node.readPiece s.cursor with
  | error e =>
      rw [hread] at hpiece
      exact completes_of_rejected hpiece
  | ok found =>
      rw [hread] at hpiece
      cases found with
      | none =>
          have hend : s.remaining = [] := Node.remaining_of_readPiece_none hread
          exact completes_of_ok hpiece ready (Or.inl ⟨rfl, hend⟩)
      | some p => exact (Agrees.completes (x := .ok p) hpiece).mono fun _ _ hlt => Or.inr hlt

/-- A climb that goes on takes an operand; one that does not leaves everything where it is. -/
theorem completes_climb (op : Operator) (lhs : Expr) (level : Nat) (hpos : 1 ≤ level)
    (ready : s.Ready) (hfuel : 4 * s.size + 6 < fuel) :
    Completes (climb op lhs level fuel) s fun _ s' =>
      s'.size ≤ s.size ∧ (level ≤ op.precedence -> s'.size < s.size) := by
  by_cases hlevel : level ≤ op.precedence
  · have hclimb : Climbs (climb op lhs level fuel s) (.operand lhs)
        (linksBehind op s.cursor).outcome s.size level :=
      climbs_climb op (.operand lhs) level trivial fuel s ready hpos hfuel (Nat.le_refl _)
        fun hweaker => absurd hlevel (Nat.not_le.mpr hweaker)
    exact hclimb.completes.mono fun _ _ hlt => ⟨Nat.le_of_lt hlt, fun _ => hlt⟩
  · have hclimb : Climbs (climb op lhs level fuel s) (.operand lhs)
        (linksBehind op s.cursor).outcome (s.size + 1) level :=
      climbs_climb op (.operand lhs) level trivial fuel s ready hpos hfuel (Nat.le_succ _)
        fun _ => Nat.lt_succ_self _
    exact hclimb.completes.mono fun _ _ hlt =>
      ⟨Nat.le_of_lt_succ hlt, fun htighter => absurd htighter hlevel⟩

theorem completes_tighten (op : Operator) (rhs : Expr) (next : Operator) (ready : s.Ready)
    (hfuel : 4 * s.size + 7 < fuel) :
    Completes (tighten op rhs next fuel) s fun _ s' => s'.size ≤ s.size := by
  have htighten : Climbs (tighten op rhs next fuel s) (.operand rhs)
      (linksBehind next s.cursor).outcome (s.size + 1) (op.precedence + 1) :=
    climbs_tighten op next (.operand rhs) trivial fuel s ready hfuel (Nat.lt_succ_self _)
  exact htighten.completes.mono fun _ _ hlt => Nat.le_of_lt_succ hlt

theorem completes_collect (p : Char → Bool) (ready : s.Ready) (hfuel : s.size < fuel) :
    Completes (collect p fuel) s fun _ s' => s'.size ≤ s.size := by
  rcases run_collect p fuel s ready hfuel with ⟨s', hrun, hs', ready'⟩
  refine completes_of_ok hrun ready' ?_
  change s'.cursor.size ≤ s.cursor.size
  rw [hs']
  exact s.cursor.size_dropWhile_le p

theorem completes_lineComment (location : Location) (ready : s.Ready) (hfuel : s.size < fuel) :
    Completes (lineComment location fuel) s fun _ s' => s'.size ≤ s.size := by
  rcases run_collect (fun x => x != '\n') fuel s ready hfuel with ⟨s₁, hrun, hs₁, ready₁⟩
  rcases run_advance ready₁ with ⟨s₂, hadvance, hs₂, ready₂, _⟩
  have hline : lineComment location fuel s = .ok (.comment location, s₂) := by
    rw [lineComment, bind_of_ok hrun, bind_of_ok hadvance]
    rfl
  refine completes_of_ok hline ready₂ ?_
  change s₂.cursor.size ≤ s.cursor.size
  rw [hs₂, hs₁]
  exact Nat.le_trans (Cursor.size_advance_le _) (s.cursor.size_dropWhile_le _)

/-- The fuel that a scan needs is linear in what is left of the text. -/
theorem steady (ready : s.Ready) (hfuel : 4 * s.size + 10 ≤ fuel) : Steady fuel s := by
  have hsize : s.cursor.size = s.size := rfl
  exact {
    step := completes_piece ready (by omega)
    nodes := fun construct => (agrees_body construct fuel s ready (by omega)).keeps
    branches := fun opener location =>
      (agrees_conditional opener location fuel s ready (by omega)).completes
    links := fun lhs => (agrees_suffixes lhs fuel s ready (by omega)).keeps
    callArguments := (agrees_arguments fuel s ready (by omega)).completes
    moreArguments := (agrees_argumentList fuel s ready (by omega)).completes
    listItems := (agrees_items fuel s ready (by omega)).completes
    climbing := fun op lhs level hpos => completes_climb op lhs level hpos ready (by omega)
    tightening := fun op rhs next => completes_tighten op rhs next ready (by omega)
    chain := (agrees_expression fuel s ready (by omega)).completes
    chainOperand := (agrees_unary fuel s ready (by omega)).completes
    commentLine := fun location => completes_lineComment location ready (by omega)
    comment := fun location => (agrees_blockComment location ready (by omega)).keeps
    quoted := fun location => (agrees_quotedBlock location ready (by omega)).keeps
    characters := fun p => completes_collect p ready (by omega) }

end

/-!
## Whole texts
-/

section

variable {fuel : Nat} (resource text : String)
  (hlines : Cursor.newlines text.toList < UInt32.size - 1)
  (hfuel : 4 * text.length + 10 ≤ fuel)

include hlines hfuel

theorem agrees_body_ofText : Agrees (body .outside fuel) (.ofText resource text)
    ((Node.readBody .outside (Cursor.ofText resource text)).mapValue Stopped.ofBody) := by
  have hready : (Scanner.ofText resource text).Ready := Scanner.ready_ofText (by
    rw [Scanner.lineBound]
    omega)
  have hcursor := Scanner.cursor_ofText resource text
  rw [← hcursor]
  apply agrees_body .outside fuel (.ofText resource text) hready
  rw [hcursor]
  exact hfuel

theorem parse_eq :
    parse fuel resource text = (Template.parse resource text).mapError .rejected := by
  have hbody := agrees_body_ofText resource text hlines hfuel
  rw [parse, template]
  cases hread : Node.readBody .outside (Cursor.ofText resource text) with
  | error e =>
      rw [hread] at hbody
      have hnodes : Template.readNodes resource text = .error e := by
        rw [Template.readNodes, hread]
        rfl
      rw [bind_of_error hbody, Template.parse_of_readNodes_error hnodes]
      rfl
  | ok p =>
      rw [hread] at hbody
      rcases hbody with ⟨s', hrun, _, _⟩
      have hnodes : Template.readNodes resource text = .ok p.value.nodes := by
        rw [Template.readNodes, hread]
        rfl
      have hpart : (p.map Stopped.ofBody).value.nodes = p.value.nodes := rfl
      rw [bind_of_ok hrun, Template.parse_eq_checkMacros hnodes, hpart]
      cases (Template.ofNodes resource p.value.nodes).checkMacros <;> rfl

end

/-- Every loop of the parser ends on every input, and so does the parser: neither its fuel runs
out nor does it crash, and its outcome is that of the readers. -/
theorem parse_terminates :
    (∀ fuel s, s.Ready -> 4 * s.size + 10 ≤ fuel -> Steady fuel s) ∧
      ∀ fuel resource text, Cursor.newlines text.toList < UInt32.size - 1 ->
        4 * text.length + 10 ≤ fuel ->
        parse fuel resource text = (Template.parse resource text).mapError .rejected :=
  ⟨fun _ _ ready hfuel => steady ready hfuel,
    fun _ resource text hlines hfuel => parse_eq resource text hlines hfuel⟩

/-- The slot of the first scanner is in use; the text ends in a dot that is put back. -/
theorem parse_terminates_dots :
    Steady 30 ⟨"t", some '.', some '!', ['$', 'a', '.'], 1⟩ ∧
      parse 200 "t" "#if($a.b(1) == 2)x#elseif(!($c))y#end$d."
        = (Template.parse "t" "#if($a.b(1) == 2)x#elseif(!($c))y#end$d.").mapError .rejected ∧
      ((parse 200 "t" "#if($a.b(1) == 2)x#elseif(!($c))y#end$d.").map Template.length).toOption
        = some 3 := by
  refine ⟨?_, ?_, by decide +kernel⟩
  · exact parse_terminates.1 30 _ ⟨by decide, by decide⟩ (by decide)
  · exact parse_terminates.2 200 "t" _ (by decide) (by decide)

end Scan

end Stencil
