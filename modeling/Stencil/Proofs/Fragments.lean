import Stencil.Node.Reader

/-!
# Fragments

Templates are put together from fragments: texts and directives of a fixed form.  The grammar says
which sequences of fragments nest properly, and what tree each of them stands for.  A stack of open
constructs says where the others go wrong.
-/

namespace Stencil

inductive Fragment where
  | text (content : String) (plain : ∀ c ∈ content.toList, Text.isPlain c = true)
  | set
  | conditional
  | elseIf
  | elseBranch
  | forEach
  | closing

namespace Fragment

def spelling : Fragment → String
  | text content _ => content
  | set => "#set ($x = 1)"
  | conditional => "#if (true)"
  | elseIf => "#elseif (true)"
  | elseBranch => "#\x7belse\x7d"
  | forEach => "#foreach ($i in [1])"
  | closing => "#\x7bend\x7d"

def source : List Fragment → String
  | [] => ""
  | fragment :: rest => fragment.spelling ++ source rest

def stop? : Fragment → Option Stop
  | elseIf => some .elseIf
  | elseBranch => some .elseBranch
  | closing => some .closing
  | _ => none

def opener? : Fragment → Option Opener
  | conditional => some .conditional
  | elseIf => some .elseIf
  | elseBranch => some .elseBranch
  | forEach => some .forEach
  | _ => none

theorem eq_closing {fragment : Fragment} (h : fragment.stop? = some .closing) :
    fragment = closing := by
  cases fragment with
  | closing => rfl
  | _ => cases h

theorem eq_elseIf {fragment : Fragment} (h : fragment.stop? = some .elseIf) :
    fragment = elseIf := by
  cases fragment with
  | elseIf => rfl
  | _ => cases h

theorem eq_elseBranch {fragment : Fragment} (h : fragment.stop? = some .elseBranch) :
    fragment = elseBranch := by
  cases fragment with
  | elseBranch => rfl
  | _ => cases h

theorem stop?_ne_endOfFile (fragment : Fragment) : fragment.stop? ≠ some .endOfFile := by
  cases fragment <;> intro h <;> cases h

end Fragment

abbrev Placed := Fragment × Location

namespace Fragment

def place (resource : String) : Nat → List Fragment → List Placed
  | _, [] => []
  | line, fragment :: rest =>
      (fragment, ⟨resource, line⟩)
        :: place resource (line + Cursor.newlines fragment.spelling.toList) rest

def finish (resource : String) (line : Nat) (fragments : List Fragment) : Location :=
  ⟨resource, line + Cursor.newlines (source fragments).toList⟩

/-!
## Balanced sequences

A sequence comes with the outline of the tree that it stands for.
-/

def assignment (location : Location) : Node :=
  .set "x" (.literal (.int 1) location) location

def loop (location : Location) (nodes : List Node) : Node :=
  .forEach "i" (.list [.literal (.int 1) location] location) (.sequence nodes location) location

def choice (location : Location) (nodes : List Node) (other : Node) : Node :=
  .conditional (.literal (.bool true) location) (.sequence nodes location) other location

end Fragment

open Fragment (assignment loop choice)

mutual

inductive Balanced : List Placed → List Node → Prop where
  | nil : Balanced [] []
  | text {content : String} {plain : ∀ c ∈ content.toList, Text.isPlain c = true}
      {location : Location} {rest : List Placed} {nodes : List Node} :
      Balanced rest nodes -> Balanced ((.text content plain, location) :: rest) nodes
  | set {location : Location} {rest : List Placed} {nodes : List Node} :
      Balanced rest nodes -> Balanced ((.set, location) :: rest) (assignment location :: nodes)
  | conditional {location : Location} {branches rest : List Placed} {node : Node}
      {nodes : List Node} :
      Branches location branches node -> Balanced rest nodes ->
      Balanced ((.conditional, location) :: (branches ++ rest)) (node :: nodes)
  | forEach {location last : Location} {body rest : List Placed} {inner nodes : List Node} :
      Balanced body inner -> Balanced rest nodes ->
      Balanced ((.forEach, location) :: (body ++ (.closing, last) :: rest))
        (loop location inner :: nodes)

/-- What follows a condition: its body, and either the end or other branches. -/
inductive Branches : Location → List Placed → Node → Prop where
  | closing {location last : Location} {body : List Placed} {inner : List Node} :
      Balanced body inner ->
      Branches location (body ++ [(.closing, last)]) (choice location inner (.sequence [] last))
  | elseIf {location other : Location} {body branches : List Placed} {inner : List Node}
      {node : Node} :
      Balanced body inner -> Branches other branches node ->
      Branches location (body ++ (.elseIf, other) :: branches) (choice location inner node)
  | elseBranch {location other last : Location} {body others : List Placed}
      {inner nodes : List Node} :
      Balanced body inner -> Balanced others nodes ->
      Branches location (body ++ (.elseBranch, other) :: (others ++ [(.closing, last)]))
        (choice location inner (.sequence nodes other))

end

/-!
## The first rejected stop
-/

namespace Fragment

def innermost (opened : List Construct) : Construct :=
  opened.headD .outside

def opens (fragment : Fragment) (location : Location) : List Construct :=
  match fragment.opener? with
  | some opener => [.inside opener location.line]
  | none => []

/-- The first stop that the innermost open construct does not accept.  An accepted stop ends that
construct, and may open another one. -/
def firstRejected (last : Location) : List Construct → List Placed → Option (Located ParseError)
  | opened, [] =>
      if (innermost opened).accepts .endOfFile then none
      else some ⟨.unexpectedStop .endOfFile (innermost opened), last⟩
  | opened, (fragment, location) :: rest =>
      match fragment.stop? with
      | none => firstRejected last (fragment.opens location ++ opened) rest
      | some stop =>
          if (innermost opened).accepts stop then
            firstRejected last (fragment.opens location ++ opened.tail) rest
          else some ⟨.unexpectedStop stop (innermost opened), location⟩

section

variable {last location : Location} {opened : List Construct} {fragment : Fragment} {stop : Stop}
  {rest : List Placed}

theorem firstRejected_accepted {construct : Construct} (hstop : fragment.stop? = some stop)
    (haccepts : construct.accepts stop = true) :
    firstRejected last (construct :: opened) ((fragment, location) :: rest)
      = firstRejected last (fragment.opens location ++ opened) rest := by
  rw [firstRejected, hstop]
  exact if_pos haccepts

theorem firstRejected_rejected (hstop : fragment.stop? = some stop)
    (hrejects : (innermost opened).accepts stop = false) :
    firstRejected last opened ((fragment, location) :: rest)
      = some ⟨.unexpectedStop stop (innermost opened), location⟩ := by
  rw [firstRejected, hstop]
  exact if_neg (Bool.eq_false_iff.mp hrejects)

end

end Fragment

open Fragment (firstRejected)

/-!
## Balanced sequences are not rejected
-/

theorem accepts_of_branching {opener : Opener} (hopener : opener = .conditional ∨ opener = .elseIf)
    {line : Nat} {stop : Stop} (hstop : stop ≠ .endOfFile) :
    (Construct.inside opener line).accepts stop = true := by
  cases stop with
  | endOfFile => exact absurd rfl hstop
  | _ => rcases hopener with rfl | rfl <;> rfl

section

variable (last : Location)

mutual

theorem Balanced.firstRejected_append : ∀ {placed : List Placed} {nodes : List Node},
    Balanced placed nodes -> ∀ (opened : List Construct) (rest : List Placed),
      firstRejected last opened (placed ++ rest) = firstRejected last opened rest
  | _, _, .nil, _, _ => rfl
  | _, _, .text h, opened, rest => Balanced.firstRejected_append h opened rest
  | _, _, .set h, opened, rest => Balanced.firstRejected_append h opened rest
  | _, _, @Balanced.conditional _ branches others _ _ h h', opened, rest => by
      rw [List.cons_append, List.append_assoc]
      refine (Branches.firstRejected_append h .conditional (Or.inl rfl) opened
        (others ++ rest)).trans ?_
      exact Balanced.firstRejected_append h' opened rest
  | _, _, @Balanced.forEach location last' body others _ _ h h', opened, rest => by
      rw [List.cons_append, List.append_assoc, List.cons_append]
      refine (Balanced.firstRejected_append h (.inside .forEach location.line :: opened)
        ((.closing, last') :: (others ++ rest))).trans ?_
      exact Balanced.firstRejected_append h' opened rest

theorem Branches.firstRejected_append : ∀ {location : Location} {placed : List Placed}
    {node : Node}, Branches location placed node ->
      ∀ (opener : Opener), opener = .conditional ∨ opener = .elseIf ->
      ∀ (opened : List Construct) (rest : List Placed),
      firstRejected last (.inside opener location.line :: opened) (placed ++ rest)
        = firstRejected last opened rest
  | location, _, _, @Branches.closing _ last' body _ h, opener, hopener, opened, rest => by
      rw [List.append_assoc]
      refine (Balanced.firstRejected_append h _ _).trans ?_
      exact Fragment.firstRejected_accepted rfl (accepts_of_branching hopener (by decide))
  | location, _, _, @Branches.elseIf _ other body branches _ _ h h', opener, hopener, opened,
      rest => by
      rw [List.append_assoc, List.cons_append]
      refine (Balanced.firstRejected_append h _ _).trans ?_
      refine Eq.trans ?_ (Branches.firstRejected_append h' .elseIf (Or.inr rfl) opened rest)
      exact Fragment.firstRejected_accepted rfl (accepts_of_branching hopener (by decide))
  | location, _, _, @Branches.elseBranch _ other last' body others _ _ h h', opener, hopener,
      opened, rest => by
      rw [List.append_assoc, List.cons_append, List.append_assoc]
      refine (Balanced.firstRejected_append h _ _).trans ?_
      refine Eq.trans ?_ ((Balanced.firstRejected_append h'
        (.inside .elseBranch other.line :: opened) ((.closing, last') :: rest)).trans rfl)
      exact Fragment.firstRejected_accepted rfl (accepts_of_branching hopener (by decide))

end

end

theorem Balanced.append : ∀ {placed others : List Placed} {nodes more : List Node},
    Balanced placed nodes -> Balanced others more -> Balanced (placed ++ others) (nodes ++ more)
  | _, _, _, _, .nil, h' => h'
  | _, _, _, _, .text h, h' => .text (Balanced.append h h')
  | _, _, _, _, .set h, h' => .set (Balanced.append h h')
  | _, _, _, _, .conditional hbranches h, h' => by
      rw [List.cons_append, List.append_assoc]
      exact .conditional hbranches (Balanced.append h h')
  | _, _, _, _, .forEach hbody h, h' => by
      rw [List.cons_append, List.append_assoc, List.cons_append]
      exact .forEach hbody (Balanced.append h h')

/-!
## There is one way to read a sequence

Two readings of the same sequence agree as far as the first stop that belongs to neither of them.
-/

def Ends (placed : List Placed) : Prop :=
  ∀ next ∈ placed.head?, next.1.stop?.isSome = true

theorem Ends.nil : Ends [] := by
  intro next hnext
  cases hnext

theorem Ends.closing (location : Location) (rest : List Placed) :
    Ends ((.closing, location) :: rest) := by
  intro next hnext
  cases hnext
  rfl

theorem Ends.elseIf (location : Location) (rest : List Placed) :
    Ends ((.elseIf, location) :: rest) := by
  intro next hnext
  cases hnext
  rfl

theorem Ends.elseBranch (location : Location) (rest : List Placed) :
    Ends ((.elseBranch, location) :: rest) := by
  intro next hnext
  cases hnext
  rfl

theorem not_ends {fragment : Fragment} (h : fragment.stop? = none) {location : Location}
    {rest others : List Placed} (heq : (fragment, location) :: rest = others) : ¬ Ends others := by
  intro hends
  rw [← heq] at hends
  have hstop := hends _ rfl
  rw [h] at hstop
  cases hstop

mutual

theorem Balanced.unique : ∀ {placed placed' rest rest' : List Placed} {nodes nodes' : List Node},
    Balanced placed nodes -> Balanced placed' nodes' -> Ends rest -> Ends rest' ->
    placed ++ rest = placed' ++ rest' -> nodes = nodes' ∧ rest = rest'
  | _, _, _, _, _, _, .nil, h', hends, _, heq => by
      cases h' with
      | nil => exact ⟨rfl, heq⟩
      | text h' => exact absurd hends (not_ends rfl heq.symm)
      | set h' => exact absurd hends (not_ends rfl heq.symm)
      | conditional hbranches' h' => exact absurd hends (not_ends rfl heq.symm)
      | forEach hbody' h' => exact absurd hends (not_ends rfl heq.symm)
  | _, _, _, _, _, _, .text h, h', hends, hends', heq => by
      cases h' with
      | nil => exact absurd hends' (not_ends rfl heq)
      | text h' => exact Balanced.unique h h' hends hends' (List.cons.inj heq).2
      | set h' => cases (List.cons.inj heq).1
      | conditional hbranches' h' => cases (List.cons.inj heq).1
      | forEach hbody' h' => cases (List.cons.inj heq).1
  | _, _, _, _, _, _, .set h, h', hends, hends', heq => by
      cases h' with
      | nil => exact absurd hends' (not_ends rfl heq)
      | text h' => cases (List.cons.inj heq).1
      | set h' =>
          cases (List.cons.inj heq).1
          rcases Balanced.unique h h' hends hends' (List.cons.inj heq).2 with ⟨rfl, hrest⟩
          exact ⟨rfl, hrest⟩
      | conditional hbranches' h' => cases (List.cons.inj heq).1
      | forEach hbody' h' => cases (List.cons.inj heq).1
  | _, _, _, _, _, _, .conditional hbranches h, h', hends, hends', heq => by
      cases h' with
      | nil => exact absurd hends' (not_ends rfl heq)
      | text h' => cases (List.cons.inj heq).1
      | set h' => cases (List.cons.inj heq).1
      | conditional hbranches' h' =>
          have hhead := (List.cons.inj heq).1
          have htail := (List.cons.inj heq).2
          rw [List.append_eq, List.append_eq, List.append_assoc, List.append_assoc] at htail
          cases hhead
          rcases Branches.unique hbranches hbranches' htail with ⟨rfl, hrests⟩
          rcases Balanced.unique h h' hends hends' hrests with ⟨rfl, hrest⟩
          exact ⟨rfl, hrest⟩
      | forEach hbody' h' => cases (List.cons.inj heq).1
  | _, _, _, _, _, _, .forEach hbody h, h', hends, hends', heq => by
      cases h' with
      | nil => exact absurd hends' (not_ends rfl heq)
      | text h' => cases (List.cons.inj heq).1
      | set h' => cases (List.cons.inj heq).1
      | conditional hbranches' h' => cases (List.cons.inj heq).1
      | forEach hbody' h' =>
          have hhead := (List.cons.inj heq).1
          have htail := (List.cons.inj heq).2
          rw [List.append_eq, List.append_eq, List.append_assoc, List.append_assoc,
            List.cons_append, List.cons_append] at htail
          cases hhead
          rcases Balanced.unique hbody hbody' (.closing _ _) (.closing _ _) htail
            with ⟨rfl, hrests⟩
          rcases Balanced.unique h h' hends hends' (List.cons.inj hrests).2 with ⟨rfl, hrest⟩
          exact ⟨rfl, hrest⟩

theorem Branches.unique : ∀ {location : Location} {placed placed' rest rest' : List Placed}
    {node node' : Node}, Branches location placed node -> Branches location placed' node' ->
    placed ++ rest = placed' ++ rest' -> node = node' ∧ rest = rest'
  | _, _, _, _, _, _, _, .closing hbody, h', heq => by
      cases h' with
      | closing hbody' =>
          rw [List.append_assoc, List.append_assoc] at heq
          rcases Balanced.unique hbody hbody' (.closing _ _) (.closing _ _) heq with ⟨rfl, hrests⟩
          cases hrests
          exact ⟨rfl, rfl⟩
      | elseIf hbody' h' =>
          rw [List.append_assoc, List.append_assoc] at heq
          cases (Balanced.unique hbody hbody' (.closing _ _) (.elseIf _ _) heq).2
      | elseBranch hbody' h' =>
          rw [List.append_assoc, List.append_assoc] at heq
          cases (Balanced.unique hbody hbody' (.closing _ _) (.elseBranch _ _) heq).2
  | _, _, _, _, _, _, _, .elseIf hbody h, h', heq => by
      cases h' with
      | closing hbody' =>
          rw [List.append_assoc, List.append_assoc] at heq
          cases (Balanced.unique hbody hbody' (.elseIf _ _) (.closing _ _) heq).2
      | elseIf hbody' h' =>
          rw [List.append_assoc, List.append_assoc] at heq
          rcases Balanced.unique hbody hbody' (.elseIf _ _) (.elseIf _ _) heq with ⟨rfl, hrests⟩
          cases (List.cons.inj hrests).1
          rcases Branches.unique h h' (List.cons.inj hrests).2 with ⟨rfl, hrest⟩
          exact ⟨rfl, hrest⟩
      | elseBranch hbody' h' =>
          rw [List.append_assoc, List.append_assoc] at heq
          cases (Balanced.unique hbody hbody' (.elseIf _ _) (.elseBranch _ _) heq).2
  | _, _, _, _, _, _, _, .elseBranch hbody h, h', heq => by
      cases h' with
      | closing hbody' =>
          rw [List.append_assoc, List.append_assoc] at heq
          cases (Balanced.unique hbody hbody' (.elseBranch _ _) (.closing _ _) heq).2
      | elseIf hbody' h' =>
          rw [List.append_assoc, List.append_assoc] at heq
          cases (Balanced.unique hbody hbody' (.elseBranch _ _) (.elseIf _ _) heq).2
      | elseBranch hbody' h' =>
          rw [List.append_assoc, List.append_assoc] at heq
          rcases Balanced.unique hbody hbody' (.elseBranch _ _) (.elseBranch _ _) heq
            with ⟨rfl, hrests⟩
          have htail := (List.cons.inj hrests).2
          rw [List.append_eq, List.append_eq, List.append_assoc, List.append_assoc] at htail
          cases (List.cons.inj hrests).1
          rcases Balanced.unique h h' (.closing _ _) (.closing _ _) htail with ⟨rfl, hlast⟩
          cases hlast
          exact ⟨rfl, rfl⟩

end

end Stencil
