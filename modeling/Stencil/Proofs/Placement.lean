import Stencil.Proofs.NodeForms
import Stencil.Proofs.Outline

/-!
# Where nodes stand

A node is located on the line of its first character.  A conditional that begins with `#elseif`, and
an else-branch, are located at the stop that ends the branch before, and so is the empty else-branch
in front of `#end`.  The lines of a tree therefore increase in source order.
-/

namespace Stencil

open Attempt

/-!
## Places
-/

def Cursor.lineBehind (before : List Char) : Nat :=
  1 + newlines before

def Location.behind (resource : String) (before : List Char) : Location :=
  ⟨resource, Cursor.lineBehind before⟩

namespace Node

def isLeaf : Node → Bool
  | sequence .. => false
  | conditional .. => false
  | forEach .. => false
  | _ => true

end Node

mutual

/-- The node is written as `segment`, with `before` in front of it and `after` behind it, and
located where it begins. -/
inductive Node.Placed (resource : String) :
    (before : List Char) → Node → (segment after : List Char) → Prop where
  | leaf {node : Node} {before segment after : List Char} :
      node.isLeaf = true -> node.Written segment after ->
      node.location = .behind resource before ->
      Node.Placed resource before node segment after
  | conditional {node : Node} {before word rest after : List Char} :
      Directive.Written .conditional word ->
      Node.PlacedConditional resource (.behind resource before) (before ++ word) node rest after ->
      Node.Placed resource before node (word ++ rest) after
  | forEach {name : String} {collection : Expr} {nodes : List Node} {stop : Location}
      {before word head body after : List Char} :
      Directive.Written .forEach word ->
      Node.WrittenLoopHead (name, collection) head (body ++ after) ->
      Node.PlacedBody resource (before ++ (word ++ head)) nodes .closing stop body after ->
      Node.Placed resource before
        (.forEach name collection (.sequence nodes (.behind resource before))
          (.behind resource before))
        (word ++ (head ++ body)) after

/-- A conditional from its condition on; its location is that of the directive in front. -/
inductive Node.PlacedConditional (resource : String) :
    Location → (before : List Char) → Node → (segment after : List Char) → Prop where
  | closing {condition : Expr} {nodes : List Node} {location stop : Location}
      {before head body after : List Char} :
      condition.WrittenCondition head (body ++ after) ->
      Node.PlacedBody resource (before ++ head) nodes .closing stop body after ->
      Node.PlacedConditional resource location before
        (.conditional condition (.sequence nodes location) (.sequence [] stop) location)
        (head ++ body) after
  | elseIf {condition : Expr} {nodes : List Node} {other : Node} {location stop : Location}
      {before head body rest after : List Char} :
      condition.WrittenCondition head (body ++ (rest ++ after)) ->
      Node.PlacedBody resource (before ++ head) nodes .elseIf stop body (rest ++ after) ->
      Node.PlacedConditional resource stop (before ++ (head ++ body)) other rest after ->
      Node.PlacedConditional resource location before
        (.conditional condition (.sequence nodes location) other location)
        (head ++ (body ++ rest)) after
  | elseBranch {condition : Expr} {nodes others : List Node} {location stop stop' : Location}
      {before head body rest after : List Char} :
      condition.WrittenCondition head (body ++ (rest ++ after)) ->
      Node.PlacedBody resource (before ++ head) nodes .elseBranch stop body (rest ++ after) ->
      Node.PlacedBody resource (before ++ (head ++ body)) others .closing stop' rest after ->
      Node.PlacedConditional resource location before
        (.conditional condition (.sequence nodes location) (.sequence others stop) location)
        (head ++ (body ++ rest)) after

inductive Node.PlacedBody (resource : String) :
    (before : List Char) → List Node → Stop → Location → (segment after : List Char) → Prop where
  | mk {nodes : List Node} {stop : Stop} {before cs last after : List Char} :
      Node.PlacedAll resource before nodes cs (last ++ after) -> stop.Written last after ->
      Node.PlacedBody resource before nodes stop (.behind resource (before ++ cs)) (cs ++ last)
        after

/-- Nodes one behind the other; texts may have been dropped between them. -/
inductive Node.PlacedAll (resource : String) :
    (before : List Char) → List Node → (segment after : List Char) → Prop where
  | nil {before after : List Char} : Node.PlacedAll resource before [] [] after
  | cons {node : Node} {nodes : List Node} {before segment cs after : List Char} :
      Node.Placed resource before node segment (cs ++ after) ->
      Node.PlacedAll resource (before ++ segment) nodes cs after ->
      Node.PlacedAll resource before (node :: nodes) (segment ++ cs) after
  | dropped {space : Node} {nodes : List Node} {before segment cs after : List Char} :
      space.isText = true -> Node.Placed resource before space segment (cs ++ after) ->
      Node.PlacedAll resource (before ++ segment) nodes cs after ->
      Node.PlacedAll resource before nodes (segment ++ cs) after

end

variable {resource : String}

/-!
## Increasing lines
-/

structure Ascending (first last : Nat) (lines : List Nat) : Prop where
  sorted : lines.Pairwise (· ≤ ·)
  bounds : ∀ line ∈ lines, first ≤ line ∧ line ≤ last

namespace Ascending

variable {first last middle line : Nat} {lines others : List Nat}

theorem nil : Ascending first last [] :=
  ⟨.nil, List.forall_mem_nil _⟩

theorem cons (hfirst : first ≤ line) (hlast : line ≤ last) (h : Ascending line last lines) :
    Ascending first last (line :: lines) where
  sorted := List.pairwise_cons.mpr ⟨fun other hother => (h.bounds other hother).1, h.sorted⟩
  bounds := by
    intro other hother
    rcases List.mem_cons.mp hother with rfl | hother
    · exact ⟨hfirst, hlast⟩
    · exact ⟨Nat.le_trans hfirst (h.bounds other hother).1, (h.bounds other hother).2⟩

theorem mono {first' last' : Nat} (h : Ascending first last lines) (hfirst : first' ≤ first)
    (hlast : last ≤ last') : Ascending first' last' lines where
  sorted := h.sorted
  bounds := by
    intro line hline
    exact ⟨Nat.le_trans hfirst (h.bounds line hline).1,
      Nat.le_trans (h.bounds line hline).2 hlast⟩

theorem append (h : Ascending first middle lines) (h' : Ascending middle last others)
    (hfirst : first ≤ middle) (hlast : middle ≤ last) : Ascending first last (lines ++ others) where
  sorted := by
    refine List.pairwise_append.mpr ⟨h.sorted, h'.sorted, fun line hline other hother => ?_⟩
    exact Nat.le_trans (h.bounds line hline).2 (h'.bounds other hother).1
  bounds := by
    intro line hline
    rcases List.mem_append.mp hline with hline | hline
    · exact ⟨(h.bounds line hline).1, Nat.le_trans (h.bounds line hline).2 hlast⟩
    · exact ⟨Nat.le_trans hfirst (h'.bounds line hline).1, (h'.bounds line hline).2⟩

/-- A conditional and its first branch are located alike; the other branch begins at the stop. -/
theorem branches {location stop : Nat} (hlocation : location ≤ first)
    (h : Ascending first stop lines) (hstop : first ≤ stop) (hlast : stop ≤ last)
    (h' : Ascending stop last others) :
    Ascending location last (location :: (location :: lines ++ others)) := by
  have hle := Nat.le_trans hlocation hstop
  have hthen : Ascending location stop (location :: lines) :=
    .cons (Nat.le_refl _) hle (h.mono hlocation (Nat.le_refl _))
  exact .cons (Nat.le_refl _) (Nat.le_trans hle hlast) (hthen.append h' hle hlast)

end Ascending

theorem Cursor.lineBehind_le_append (before cs : List Char) :
    lineBehind before ≤ lineBehind (before ++ cs) := by
  rw [lineBehind, lineBehind, newlines_append]
  omega

open Cursor

namespace Node

def lines (node : Node) (depth : Nat) : List Nat :=
  (node.preorderFrom depth).map fun entry => entry.2.location.line

def linesAll (nodes : List Node) (depth : Nat) : List Nat :=
  (preorderAllFrom depth nodes).map fun entry => entry.2.location.line

variable {depth : Nat}

theorem lines_sequence (nodes : List Node) (location : Location) :
    (sequence nodes location).lines depth = location.line :: linesAll nodes (depth + 1) :=
  rfl

theorem lines_conditional (condition : Expr) (thenBranch elseBranch : Node) (location : Location) :
    (conditional condition thenBranch elseBranch location).lines depth
      = location.line :: (thenBranch.lines (depth + 1) ++ elseBranch.lines (depth + 1)) := by
  rw [lines, preorderFrom, List.map_cons, List.map_append]
  rfl

theorem lines_forEach (name : String) (collection : Expr) (body : Node) (location : Location) :
    (forEach name collection body location).lines depth
      = location.line :: body.lines (depth + 1) :=
  rfl

theorem lines_leaf {node : Node} (h : node.isLeaf = true) :
    node.lines depth = [node.location.line] := by
  cases node with
  | sequence | conditional | forEach => cases h
  | _ => rfl

theorem linesAll_cons (node : Node) (nodes : List Node) :
    linesAll (node :: nodes) depth = node.lines depth ++ linesAll nodes depth := by
  rw [linesAll, preorderAllFrom, List.map_append]
  rfl

end Node

mutual

theorem Node.Placed.ascending : ∀ {node : Node} {before segment after : List Char},
    node.Placed resource before segment after -> ∀ depth,
    Ascending (lineBehind before) (lineBehind (before ++ segment)) (node.lines depth)
  | _, before, segment, _, .leaf hleaf _ hlocation, depth => by
      rw [Node.lines_leaf hleaf, hlocation]
      exact .cons (Nat.le_refl _) (lineBehind_le_append before segment) .nil
  | _, before, _, _, @Node.Placed.conditional _ _ _ word _ _ _ h, depth => by
      have hall := Node.PlacedConditional.ascending h (lineBehind_le_append before word) depth
      rw [List.append_assoc] at hall
      exact hall
  | _, before, _, _, @Node.Placed.forEach _ _ _ _ _ _ word head body _ _ _ hbody, depth => by
      rcases Node.PlacedBody.ascending hbody (depth + 2) with ⟨hnodes, _, hlast⟩
      have hfirst := lineBehind_le_append before (word ++ head)
      have hwhole := lineBehind_le_append before (word ++ (head ++ body))
      rw [List.append_assoc, List.append_assoc] at hlast
      rw [Node.lines_forEach, Node.lines_sequence]
      refine .cons (Nat.le_refl _) hwhole (.cons (Nat.le_refl _) hwhole ?_)
      exact hnodes.mono hfirst hlast

theorem Node.PlacedConditional.ascending : ∀ {location : Location} {node : Node}
    {before segment after : List Char},
    node.PlacedConditional resource location before segment after ->
    location.line ≤ lineBehind before -> ∀ depth,
    Ascending location.line (lineBehind (before ++ segment)) (node.lines depth)
  | _, _, before, _, _, @Node.PlacedConditional.closing _ _ _ _ _ _ head _ _ _ hbody,
      hlocation, depth => by
      rcases Node.PlacedBody.ascending hbody (depth + 2) with ⟨hnodes, hfirst, hlast⟩
      have hstart := Nat.le_trans hlocation (lineBehind_le_append before head)
      rw [List.append_assoc] at hlast
      rw [Node.lines_conditional, Node.lines_sequence, Node.lines_sequence]
      exact hnodes.branches hstart hfirst hlast (.cons (Nat.le_refl _) hlast .nil)
  | _, _, before, _, _, @Node.PlacedConditional.elseIf _ _ _ _ _ _ _ head body rest _ _ hbody
      hother, hlocation, depth => by
      rcases Node.PlacedBody.ascending hbody (depth + 2) with ⟨hnodes, hfirst, hlast⟩
      have hstart := Nat.le_trans hlocation (lineBehind_le_append before head)
      rw [List.append_assoc] at hlast
      have helse := Node.PlacedConditional.ascending hother hlast (depth + 1)
      have hrest := lineBehind_le_append (before ++ (head ++ body)) rest
      rw [List.append_assoc, List.append_assoc] at helse hrest
      rw [Node.lines_conditional, Node.lines_sequence]
      exact hnodes.branches hstart hfirst (Nat.le_trans hlast hrest) helse
  | _, _, before, _, _, @Node.PlacedConditional.elseBranch _ _ _ _ _ _ _ _ head body rest _ _
      hbody hother, hlocation, depth => by
      rcases Node.PlacedBody.ascending hbody (depth + 2) with ⟨hnodes, hfirst, hlast⟩
      rcases Node.PlacedBody.ascending hother (depth + 2) with ⟨hothers, hfirst', hlast'⟩
      have hstart := Nat.le_trans hlocation (lineBehind_le_append before head)
      have hrest := Nat.le_trans hfirst' hlast'
      rw [List.append_assoc] at hlast
      rw [List.append_assoc, List.append_assoc] at hlast' hrest
      have hstop := Nat.le_trans hlast hrest
      rw [Node.lines_conditional, Node.lines_sequence, Node.lines_sequence]
      refine hnodes.branches hstart hfirst hstop (.cons (Nat.le_refl _) hstop ?_)
      exact hothers.mono hlast hlast'

theorem Node.PlacedBody.ascending : ∀ {nodes : List Node} {stop : Stop} {location : Location}
    {before segment after : List Char},
    Node.PlacedBody resource before nodes stop location segment after -> ∀ depth,
    Ascending (lineBehind before) location.line (Node.linesAll nodes depth)
      ∧ lineBehind before ≤ location.line
      ∧ location.line ≤ lineBehind (before ++ segment)
  | _, _, _, before, _, _, @Node.PlacedBody.mk _ _ _ _ cs last _ hnodes _, depth => by
      refine ⟨Node.PlacedAll.ascending hnodes depth, lineBehind_le_append before cs, ?_⟩
      rw [← List.append_assoc]
      exact lineBehind_le_append (before ++ cs) last

theorem Node.PlacedAll.ascending : ∀ {nodes : List Node} {before segment after : List Char},
    Node.PlacedAll resource before nodes segment after -> ∀ depth,
    Ascending (lineBehind before) (lineBehind (before ++ segment)) (Node.linesAll nodes depth)
  | _, _, _, _, .nil, depth => .nil
  | _, before, _, _, @Node.PlacedAll.cons _ _ _ _ segment cs _ hnode hrest, depth => by
      have hfirst := Node.Placed.ascending hnode depth
      have hothers := Node.PlacedAll.ascending hrest depth
      have hlast := lineBehind_le_append (before ++ segment) cs
      rw [List.append_assoc] at hothers hlast
      rw [Node.linesAll_cons]
      exact hfirst.append hothers (lineBehind_le_append before segment) hlast
  | _, before, _, _, @Node.PlacedAll.dropped _ _ _ _ segment _ _ _ _ hrest, depth => by
      have hothers := Node.PlacedAll.ascending hrest depth
      rw [List.append_assoc] at hothers
      exact hothers.mono (lineBehind_le_append before segment) (Nat.le_refl _)

end

/-!
## Dropping blank text
-/

namespace Node

variable {node space : Node} {nodes others : List Node}

theorem tidy_of_isLeaf (h : node.isLeaf = true) : node.tidy = node := by
  cases node with
  | sequence | conditional | forEach => cases h
  | _ => rfl

theorem PlacedAll.drop_text (htext : space.isText = true) :
    ∀ {all : List Node} {before cs after : List Char}, PlacedAll resource before all cs after ->
      all = space :: nodes -> PlacedAll resource before nodes cs after
  | _, _, _, _, .nil, heq => by cases heq
  | _, _, _, _, .cons hspace hrest, heq => by
      cases heq
      exact .dropped htext hspace hrest
  | _, _, _, _, .dropped htext' hspace' hrest, heq =>
      .dropped htext' hspace' (hrest.drop_text htext heq)

theorem PlacedAll.tail (htail : ∀ {before cs after : List Char},
      PlacedAll resource before nodes cs after -> PlacedAll resource before others cs after) :
    ∀ {all : List Node} {before cs after : List Char}, PlacedAll resource before all cs after ->
      all = node :: nodes -> PlacedAll resource before (node :: others) cs after
  | _, _, _, _, .nil, heq => by cases heq
  | _, _, _, _, .cons hnode hrest, heq => by
      cases heq
      exact .cons hnode (htail hrest)
  | _, _, _, _, .dropped htext hspace hrest, heq => .dropped htext hspace (hrest.tail htail heq)

theorem placedAll_dropYielding {before cs after : List Char}
    (h : PlacedAll resource before nodes cs after) :
    PlacedAll resource before (dropYielding nodes) cs after := by
  induction nodes using dropYielding.induct generalizing before cs after with
  | case1 front space next rest hdrops ih =>
      have htext : space.isText = true := isText_of_yields (Bool.and_eq_true_iff.mp hdrops).2
      rw [dropYielding, if_pos hdrops]
      exact h.tail (fun hrest => ih (hrest.drop_text htext rfl)) rfl
  | case2 front space next rest hkeeps ih =>
      rw [dropYielding, if_neg hkeeps]
      exact h.tail ih rfl
  | case3 nodes hshort =>
      rw [dropYielding]
      · exact h
      · exact hshort

end Node

mutual

theorem Node.Placed.tidy : ∀ {node : Node} {before segment after : List Char},
    node.Placed resource before segment after -> node.tidy.Placed resource before segment after
  | _, _, _, _, .leaf hleaf hwritten hlocation => by
      rw [Node.tidy_of_isLeaf hleaf]
      exact .leaf hleaf hwritten hlocation
  | _, _, _, _, .conditional hword h => .conditional hword (Node.PlacedConditional.tidy h)
  | _, _, _, _, .forEach hword hhead hbody =>
      .forEach hword hhead (Node.PlacedBody.tidy hbody)

theorem Node.PlacedConditional.tidy : ∀ {location : Location} {node : Node}
    {before segment after : List Char},
    node.PlacedConditional resource location before segment after ->
    node.tidy.PlacedConditional resource location before segment after
  | _, _, _, _, _, .closing hcondition hbody => .closing hcondition (Node.PlacedBody.tidy hbody)
  | _, _, _, _, _, .elseIf hcondition hbody hother =>
      .elseIf hcondition (Node.PlacedBody.tidy hbody) (Node.PlacedConditional.tidy hother)
  | _, _, _, _, _, .elseBranch hcondition hbody hothers =>
      .elseBranch hcondition (Node.PlacedBody.tidy hbody) (Node.PlacedBody.tidy hothers)

theorem Node.PlacedBody.tidy : ∀ {nodes : List Node} {stop : Stop} {location : Location}
    {before segment after : List Char},
    Node.PlacedBody resource before nodes stop location segment after ->
    Node.PlacedBody resource before (Node.dropYielding (Node.tidyAll nodes)) stop location segment
      after
  | _, _, _, _, _, _, .mk hnodes hstop =>
      .mk (Node.placedAll_dropYielding (Node.PlacedAll.tidyAll hnodes)) hstop

theorem Node.PlacedAll.tidyAll : ∀ {nodes : List Node} {before segment after : List Char},
    Node.PlacedAll resource before nodes segment after ->
    Node.PlacedAll resource before (Node.tidyAll nodes) segment after
  | _, _, _, _, .nil => .nil
  | _, _, _, _, .cons hnode hrest => .cons (Node.Placed.tidy hnode) (Node.PlacedAll.tidyAll hrest)
  | _, _, _, _, .dropped htext hspace hrest =>
      .dropped htext hspace (Node.PlacedAll.tidyAll hrest)

end

/-!
## Reading

What a reader takes for the location of a node it has from the cursor in front of the node, and the
cursor knows how many line ends it has passed.
-/

theorem Cursor.Passes.location_eq_behind {c r : Cursor} {front before : List Char}
    (hpass : c.Passes front r) (hc : c.location = .behind resource before) :
    r.location = .behind resource (before ++ front) := by
  have hresource : c.resource = resource := congrArg Location.resource hc
  have hline : c.line = lineBehind before := congrArg Location.line hc
  rw [Cursor.location, hpass.resource_eq, hpass.line_eq, hresource, hline, lineBehind,
    Nat.add_assoc, ← newlines_append]
  rfl

namespace Attempt

def Yields (x : Attempt (Parsed n α)) (P : α → Prop) : Prop :=
  ∀ value rest, x.outcome = .ok (value, rest) -> P value

namespace Yields

variable {P : α → Prop} {Q : β → Prop}

theorem of_outcome {x : Attempt (Parsed n α)} {y : Attempt (Parsed m α)}
    (h : x.outcome = y.outcome) (hy : y.Yields P) : x.Yields P := by
  intro value rest hx
  exact hy value rest (h.symm.trans hx)

theorem ok {p : Parsed n α} (h : P p.value) : Yields (.ok p : Attempt (Parsed n α)) P := by
  intro value rest hx
  cases hx
  exact h

theorem error (e : Located ParseError) : Yields (.error e : Attempt (Parsed n α)) P := by
  intro value rest hx
  cases hx

theorem mapValue {x : Attempt (Parsed n α)} {f : α → β} (h : ∀ value, Q (f value)) :
    (x.mapValue f).Yields Q := by
  cases x with
  | error e => exact error e
  | ok p => exact ok (h p.value)

theorem andThen {x : Attempt (Parsed n α)}
    {next : α → (r : Cursor) → r.size < n → Attempt (Parsed r.size β)}
    (h : ∀ value r hlt, (next value r hlt).Yields Q) : (x.andThen next).Yields Q := by
  cases x with
  | error e => exact error e
  | ok p => exact of_outcome (outcome_after _ _) (h p.value p.rest p.size_rest_lt)

theorem accept {x : Attempt (Parsed n α)} (h : x.Yields P) (y : Char) : (x.accept y).Yields P := by
  cases x with
  | error e => exact error e
  | ok p => exact ok (h p.value p.rest rfl)

end Yields

end Attempt

namespace Node

def LeafAt (location : Location) (node : Node) : Prop :=
  node.isLeaf = true ∧ node.location = location

variable {location : Location}

theorem yields_hash (location : Location) (c : Cursor) :
    (readHash location c).Yields (LeafAt location) := by
  rw [readHash]
  split
  · exact .ok ⟨rfl, rfl⟩
  · split
    · exact .ok ⟨rfl, rfl⟩
    · split
      · next c₁ h₁ _ =>
          split
          · next c₂ h₂ _ =>
              have hblock : (readQuotedBlock location c₂).Yields (LeafAt location) := by
                rw [readQuotedBlock]
                split
                · exact .ok ⟨rfl, rfl⟩
                · exact .error _
              refine Yields.of_outcome ?_ hblock
              rw [outcome_weaken, outcome_after, outcome_afterStep]
          · exact .ok ⟨rfl, rfl⟩
      · exact .ok ⟨rfl, rfl⟩

theorem yields_output (silent : Bool) (opening : List Char) (location : Location) (c : Cursor) :
    (readOutput silent opening location c).Yields (LeafAt location) := by
  rw [readOutput]
  split
  · next c₁ h₁ _ =>
      split
      · refine Yields.of_outcome (outcome_weaken _) (.of_outcome (outcome_after _ _) ?_)
        exact .andThen fun ref c₂ h₂ => .mapValue fun _ => ⟨rfl, rfl⟩
      · exact .ok ⟨rfl, rfl⟩
  · split
    · exact .of_outcome (outcome_weaken _) (.mapValue fun ref => ⟨rfl, rfl⟩)
    · exact .ok ⟨rfl, rfl⟩

theorem yields_dollar (location : Location) (c : Cursor) :
    (readDollar location c).Yields (LeafAt location) := by
  rw [readDollar]
  split
  · next c₁ h₁ _ =>
      refine Yields.of_outcome ?_ (yields_output true ['$', '!'] location c₁)
      rw [outcome_weaken, outcome_afterStep]
  · exact yields_output false _ location c

theorem yields_set (location : Location) (c : Cursor) :
    (readSet location c).Yields (LeafAt location) := by
  rw [readSet]
  refine .andThen fun _ c₁ h₁ => .andThen fun _ c₂ h₂ => .andThen fun name c₃ h₃ => ?_
  refine .andThen fun _ c₄ h₄ => .andThen fun value c₅ h₅ => .accept ?_ _
  exact .mapValue fun _ => ⟨rfl, rfl⟩

theorem yields_call (name : String) (location : Location) (c : Cursor) :
    (readCall name location c).Yields (LeafAt location) := by
  rw [readCall]
  refine .andThen fun _ c₁ h₁ => .accept ?_ _
  exact .mapValue fun args => ⟨rfl, rfl⟩

theorem leafAt_of_readsPiece {c behind : Cursor} {piece : Piece} {x : Attempt (Parsed c.size Node)}
    (hx : x.Yields (LeafAt location)) (hc : readPiece c = (x.mapValue Piece.node).map some)
    (h : ReadsPiece c piece behind) : ∃ node, piece = .node node ∧ node.LeafAt location := by
  rcases h with ⟨hlt, h⟩
  rw [hc] at h
  cases x with
  | error e => cases h
  | ok p =>
      cases h
      exact ⟨p.value, rfl, hx p.value p.rest rfl⟩

end Node

inductive Piece.Placed (resource : String) (before : List Char) :
    Piece → (segment after : List Char) → Prop where
  | node {node : Node} {segment after : List Char} :
      node.Placed resource before segment after ->
      Piece.Placed resource before (.node node) segment after
  | stop {stop : Stop} {segment after : List Char} :
      stop.Written segment after ->
      Piece.Placed resource before (.stop stop (.behind resource before)) segment after

namespace Node

theorem PlacedBody.of_stop {stop : Stop} {before segment after : List Char}
    (h : stop.Written segment after) :
    PlacedBody resource before [] stop (.behind resource before) segment after := by
  have hbody : PlacedBody resource before [] stop (.behind resource (before ++ [])) ([] ++ segment)
      after := .mk .nil h
  rw [List.append_nil] at hbody
  exact hbody

theorem PlacedBody.cons {node : Node} {nodes : List Node} {stop : Stop} {location : Location}
    {before segment front after : List Char}
    (hnode : node.Placed resource before segment (front ++ after))
    (h : PlacedBody resource (before ++ segment) nodes stop location front after) :
    PlacedBody resource before (node :: nodes) stop location (segment ++ front) after := by
  cases h with
  | mk hnodes hstop =>
      rw [List.append_assoc] at hnode
      rw [List.append_assoc, ← List.append_assoc segment]
      exact .mk (.cons hnode hnodes) hstop

theorem PlacedBody.whole {nodes : List Node} {location : Location}
    {before segment after : List Char}
    (h : PlacedBody resource before nodes .endOfFile location segment after) :
    after = [] ∧ PlacedAll resource before nodes segment [] := by
  cases h with
  | mk hnodes hstop =>
      rcases hstop.eq_nil with ⟨rfl, rfl⟩
      rw [List.append_nil]
      exact ⟨rfl, hnodes⟩

theorem placed_of_yields {x : Attempt (Parsed n Node)} {c : Cursor} {before word : List Char}
    (hx : x.Reads c fun node front after => node.Written (word ++ front) after)
    (hleaf : x.Yields (LeafAt (.behind resource before))) :
    x.Reads c fun node front after => node.Placed resource before (word ++ front) after := by
  intro node rest hout
  rcases hx node rest hout with ⟨front, hpass, hwritten⟩
  rcases hleaf node rest hout with ⟨hleaf, hlocation⟩
  exact ⟨front, hpass, .leaf hleaf hwritten hlocation⟩

theorem placed_of_leaf {c behind : Cursor} {piece : Piece} {before : List Char}
    (hc : c.location = .behind resource before) (h : ReadsPiece c piece behind)
    (hleaf : ∃ node, piece = .node node ∧ node.LeafAt c.location) :
    ∃ front, c.Passes front behind ∧ piece.Placed resource before front behind.remaining := by
  rcases hleaf with ⟨node, rfl, hleaf, hlocation⟩
  rcases written_of_readsPiece (fun location r _ => reads_directive location r) h with
    ⟨front, hpass, hwritten⟩
  cases hwritten with
  | node hnode => exact ⟨front, hpass, .node (.leaf hleaf hnode (hlocation.trans hc))⟩

theorem placed_of_readsPiece {c behind : Cursor} {piece : Piece} {before : List Char}
    (hdirective : ∀ r : Cursor, r.size < c.size ->
      r.location = .behind resource (before ++ ['#']) ->
      (readDirective (.behind resource before) r).Reads r
        fun piece front after => piece.Placed resource before ('#' :: front) after)
    (hc : c.location = .behind resource before) (h : ReadsPiece c piece behind) :
    ∃ front, c.Passes front behind ∧ piece.Placed resource before front behind.remaining := by
  rcases c with ⟨r, remaining, l⟩
  cases remaining with
  | nil =>
      rcases h with ⟨hlt, h⟩
      rw [readPiece_nil] at h
      cases h
  | cons x cs =>
      by_cases hdollar : x = '$'
      · cases hdollar
        refine placed_of_leaf hc h (leafAt_of_readsPiece ?_ readPiece_dollar h)
        exact .of_outcome (outcome_afterStep _ _) (yields_dollar _ _)
      · by_cases hhash : x = '#'
        · cases hhash
          by_cases hbegins : Directive.beginsAt ⟨r, cs, l⟩ = true
          · have hstep : (⟨r, '#' :: cs, l⟩ : Cursor).Passes ['#'] ⟨r, cs, l⟩ :=
              Cursor.passes_cons r '#' cs l
            have hplace : (⟨r, l⟩ : Location) = .behind resource before := hc
            refine reads_of_readsPiece (Reads.after ?_ _) (readPiece_directive hbegins) h
            rw [hplace]
            exact .from_step hstep (hdirective _ Cursor.size_cons_lt (hstep.location_eq_behind hc))
          · have hbegins := Bool.eq_false_iff.mpr hbegins
            refine placed_of_leaf hc h (leafAt_of_readsPiece ?_ (readPiece_hash hbegins) h)
            exact .of_outcome (outcome_afterStep _ _) (yields_hash _ _)
        · have hplain : Text.isPlain x = true := by
            simp [Text.isPlain, hdollar, hhash]
          have hpiece := @readPiece_plain r l cs x hplain
          rcases h with ⟨hlt, h⟩
          have hread := h
          rw [hpiece] at hread
          cases hread
          exact placed_of_leaf hc ⟨_, h⟩ ⟨_, rfl, rfl, rfl⟩

mutual

theorem placed_directive {before : List Char} (c : Cursor)
    (hc : c.location = .behind resource (before ++ ['#'])) :
    (readDirective (.behind resource before) c).Reads c
      fun piece front after => piece.Placed resource before ('#' :: front) after := by
  rw [readDirective]
  refine Reads.andMaybe_passes (Directive.reads_name c) fun name word c₁ h₁ hpass hword => ?_
  have hc₁ : c₁.location = .behind resource (before ++ '#' :: word) := by
    rw [hpass.location_eq_behind hc, List.append_assoc]
    rfl
  split
  · next stop heq =>
      rw [heq] at hword
      rcases c₁.passes_accept_newline with ⟨line, hline, hend⟩
      exact .ok hline (.stop (.directive hword hend))
  · next heq =>
      rw [heq] at hword
      refine Reads.weaken (Reads.mapValue ((placed_conditional .conditional _ c₁ hc₁).imp ?_))
      exact fun node front after h => .node (.conditional hword h)
  · next heq =>
      rw [heq] at hword
      refine Reads.weaken (Reads.andMaybe_passes (reads_loopHead c₁) ?_)
      intro head cs c₂ h₂ hpass' hhead
      have hc₂ := hpass'.location_eq_behind hc₁
      rw [List.append_assoc] at hc₂
      refine Reads.mapValue ((placed_body _ c₂ hc₂).whole.imp ?_)
      rintro body front after ⟨hfront, hbody⟩
      rw [hfront] at hhead
      rw [eq_closing_of_accepts (Or.inl rfl) body.accepted] at hbody
      exact .node (.forEach hword hhead hbody)
  · next heq =>
      rw [heq] at hword
      refine Reads.weaken (Reads.mapValue (Reads.imp ?_ fun node front after h => .node h))
      exact placed_of_yields (reads_set hword c₁) (yields_set _ c₁)
  · exact .error _
  · next name' heq =>
      rw [heq] at hword
      refine Reads.weaken (Reads.mapValue (Reads.imp ?_ fun node front after h => .node h))
      exact placed_of_yields (reads_call hword c₁) (yields_call name' _ c₁)
termination_by 5 * c.size

theorem placed_conditional (opener : Opener) (location : Location) {before : List Char} (c : Cursor)
    (hc : c.location = .behind resource before) :
    (readConditional opener location c).Reads c
      fun node front after => node.PlacedConditional resource location before front after := by
  rw [readConditional]
  refine Reads.andMaybe_passes (reads_condition c) fun condition head c₁ h₁ hpass hhead => ?_
  have hc₁ := hpass.location_eq_behind hc
  refine Reads.andMaybe_passes (placed_body _ c₁ hc₁).whole fun body cs c₂ h₂ hpass' hbody => ?_
  have hc₂ := hpass'.location_eq_behind hc₁
  rw [List.append_assoc] at hc₂
  rcases hbody with ⟨heq, hbody⟩
  rw [heq] at hhead
  dsimp only
  split
  · next hstop =>
      rw [hstop] at hbody
      refine Reads.ok (.refl c₂) ?_
      rw [List.append_nil]
      exact .closing hhead hbody
  · next hstop =>
      rw [hstop] at hbody
      refine Reads.weaken (Reads.mapValue ?_)
      refine (placed_conditional .elseIf body.location c₂ hc₂).whole.imp ?_
      rintro other front after ⟨hfront, hother⟩
      rw [hfront] at hhead hbody
      exact .elseIf hhead hbody hother
  · next hstop =>
      rw [hstop] at hbody
      refine Reads.mapValue ?_
      refine (placed_body _ c₂ hc₂).whole.imp ?_
      rintro other front after ⟨hfront, hother⟩
      rw [hfront] at hhead hbody
      rw [eq_closing_of_accepts (Or.inr rfl) other.accepted] at hother
      exact .elseBranch hhead hbody hother
  · next hstop => exact absurd hstop body.stop_ne_endOfFile
termination_by 5 * c.size

theorem placed_body (construct : Construct) {before : List Char} (c : Cursor)
    (hc : c.location = .behind resource before) :
    (readBody construct c).Reads c fun body front after =>
      PlacedBody resource before body.nodes body.stop body.location front after := by
  have hdirective : ∀ r : Cursor, r.size < c.size ->
      r.location = .behind resource (before ++ ['#']) ->
      (readDirective (.behind resource before) r).Reads r
        fun piece front after => piece.Placed resource before ('#' :: front) after :=
    fun r _ hr => placed_directive r hr
  rw [readBody]
  split
  · exact .error _
  · next hend =>
      split
      · have hstop : PlacedBody resource before [] .endOfFile c.location [] c.remaining := by
          rw [remaining_of_readPiece_none hend, hc]
          exact .of_stop .endOfFile
        exact .ok (.refl c) hstop
      · exact .error _
  · next stop location c₁ h₁ hread =>
      rcases placed_of_readsPiece hdirective hc ⟨h₁, hread⟩ with ⟨front, hpass, hplaced⟩
      cases hplaced with
      | stop hstop =>
          have hbody := @PlacedBody.of_stop resource stop before _ _ hstop
          split
          · exact Reads.weaken (.ok hpass hbody)
          · exact .error _
  · next node c₁ h₁ hread =>
      rcases placed_of_readsPiece hdirective hc ⟨h₁, hread⟩ with ⟨segment, hpass, hplaced⟩
      cases hplaced with
      | node hnode =>
          have hc₁ := hpass.location_eq_behind hc
          refine Reads.weaken (Reads.afterStep (Reads.mapValue (.from_step hpass ?_)) _)
          refine (placed_body construct c₁ hc₁).whole.imp ?_
          rintro body front after ⟨hfront, hbody⟩
          rw [hfront] at hnode
          exact hbody.cons hnode
termination_by 5 * c.size + 1

end

end Node

namespace Template

variable {text : String} {nodes : List Node}

theorem placedAll_of_readNodes (h : readNodes resource text = .ok nodes) :
    Node.PlacedAll resource [] nodes text.toList [] := by
  have hstart : (Cursor.ofText resource text).location = .behind resource [] := rfl
  rcases exists_body_of_readNodes h with ⟨body, rest, rfl, hbody⟩
  rcases Node.placed_body .outside _ hstart body rest hbody with ⟨front, hpass, hplaced⟩
  rw [of_decide_eq_true body.accepted] at hplaced
  rcases hplaced.whole with ⟨hrest, hall⟩
  have hwhole := hpass.remaining_eq
  rw [hrest, List.append_nil] at hwhole
  rw [show text.toList = front from hwhole]
  exact hall

theorem placedAll_of_parse {template : Template} (h : parse resource text = .ok template) :
    Node.PlacedAll resource [] template.nodes text.toList [] := by
  rcases exists_nodes_of_parse h with ⟨nodes, hnodes, hmacros⟩
  rw [(eq_of_checkMacros hmacros).1]
  exact Node.placedAll_dropYielding (placedAll_of_readNodes hnodes).tidyAll

theorem sorted_lines_of_parse {template : Template} (h : parse resource text = .ok template) :
    (template.root.preorder.map fun entry => entry.2.location.line).Pairwise (· ≤ ·) := by
  have hroot : template.location = .behind resource [] := by
    rcases exists_nodes_of_parse h with ⟨nodes, _, hmacros⟩
    rw [(eq_of_checkMacros hmacros).1]
    rfl
  have hlines := (placedAll_of_parse h).ascending 1
  have hwhole : Ascending 1 (lineBehind text.toList) (template.root.lines 0) := by
    rw [root, Node.lines_sequence, hroot]
    exact .cons (Nat.le_refl _) (lineBehind_le_append [] _) hlines
  exact hwhole.sorted

end Template

end Stencil
