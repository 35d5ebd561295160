import Stencil.Proofs.Extent
import Stencil.Proofs.NodeForms
import Stencil.Proofs.Outline

/-!
# Nodes keep to the lines of a text

Every part of a tree is located in the text it was read from, and so is every mistake that is found
while it is read.  Dropping blank text from the tree adds no locations.
-/

namespace Stencil

open Attempt Location

/-!
## Locations of a tree
-/

mutual

def Node.locations : Node → List Location
  | .sequence children location => location :: Node.locationsAll children
  | .text _ location => [location]
  | .output expr location => location :: expr.locations
  | .conditional condition thenBranch elseBranch location =>
      location :: (condition.locations ++ (thenBranch.locations ++ elseBranch.locations))
  | .forEach _ collection body location => location :: (collection.locations ++ body.locations)
  | .set _ value location => location :: value.locations
  | .comment location => [location]
  | .macroCall _ args location => location :: Expr.locationsAll args

def Node.locationsAll : List Node → List Location
  | [] => []
  | node :: rest => node.locations ++ Node.locationsAll rest

end

variable {extent : Extent}

abbrev Node.Inside (extent : Extent) (node : Node) : Prop :=
  AllInside extent node.locations

abbrev Node.NodesInside (extent : Extent) (nodes : List Node) : Prop :=
  AllInside extent (Node.locationsAll nodes)

theorem Node.nodesInside_cons {node : Node} {nodes : List Node} (h : node.Inside extent)
    (hnodes : Node.NodesInside extent nodes) : Node.NodesInside extent (node :: nodes) :=
  allInside_append.mpr ⟨h, hnodes⟩

def Piece.Inside (extent : Extent) : Piece → Prop
  | node inner => inner.Inside extent
  | stop _ location => location.Inside extent

structure Body.Inside (extent : Extent) (body : Body construct) : Prop where
  nodes : Node.NodesInside extent body.nodes
  location : body.location.Inside extent

namespace Node

variable {location : Location} {c : Cursor}

/-!
## Texts and opaque regions
-/

theorem keepsTo_text (opening : List Char) (hlocation : location.Inside extent)
    (h : c.Inside extent) :
    KeepsTo extent (.ok (readText opening location c)) (Node.Inside extent) :=
  .ok ((Cursor.passes_dropWhile _ c).inside h) (allInside_cons.mpr ⟨hlocation, allInside_nil⟩)

theorem inside_skipPast {mark : List Char} (hmark : mark ≠ []) (h : c.Inside extent) :
    (c.skipPast mark).Inside extent := by
  rcases c.passes_skipPast hmark with ⟨region, hpass, _⟩
  exact hpass.inside h

theorem keepsTo_quotedBlock (hlocation : location.Inside extent) (h : c.Inside extent) :
    (readQuotedBlock location c).KeepsTo extent (Node.Inside extent) := by
  rw [readQuotedBlock]
  split
  · next inside r hsplit =>
      have hpass := (Cursor.passes_of_splitAt? (List.cons_ne_nil _ _) hsplit).2
      exact .ok (hpass.inside h) (allInside_cons.mpr ⟨hlocation, allInside_nil⟩)
  · exact .error hlocation

theorem keepsTo_hash (hlocation : location.Inside extent) (h : c.Inside extent) :
    (readHash location c).KeepsTo extent (Node.Inside extent) := by
  have hcomment : (comment location).Inside extent := allInside_cons.mpr ⟨hlocation, allInside_nil⟩
  rw [readHash]
  split
  · next c₁ h₁ htake =>
      exact .ok (inside_skipPast (List.cons_ne_nil _ _) (h.take? htake)) hcomment
  · split
    · next c₁ h₁ htake =>
        exact .ok (inside_skipPast (List.cons_ne_nil _ _) (h.take? htake)) hcomment
    · split
      · next c₁ h₁ htake =>
          have hc₁ := h.take? htake
          split
          · next c₂ h₂ htake' =>
              refine KeepsTo.weaken (KeepsTo.after (KeepsTo.afterStep ?_ _) _)
              exact keepsTo_quotedBlock hlocation (hc₁.take? htake')
          · exact keepsTo_text _ hlocation hc₁
      · exact keepsTo_text _ hlocation h

/-!
## References in text
-/

theorem keepsTo_output (silent : Bool) (opening : List Char) (hlocation : location.Inside extent)
    (h : c.Inside extent) :
    (readOutput silent opening location c).KeepsTo extent (Node.Inside extent) := by
  have houtput : ∀ ref : Reference, ref.Inside extent ->
      (output (.ofReference ref) location).Inside extent :=
    fun ref href => allInside_cons.mpr ⟨hlocation, href.ofReference⟩
  rw [readOutput]
  split
  · next c₁ h₁ htake =>
      have hc₁ := h.take? htake
      split
      · refine KeepsTo.weaken (KeepsTo.after ?_ _)
        refine (Reference.keepsTo_named silent c₁ hc₁).andThen fun ref c₂ h₂ hc₂ href => ?_
        exact (Cursor.keepsTo_expect '\x7d' hc₂).mapValue fun _ _ => houtput ref href
      · exact keepsTo_text _ hlocation hc₁
  · split
    · exact KeepsTo.weaken ((Reference.keepsTo_named silent c h).mapValue houtput)
    · exact keepsTo_text _ hlocation h

theorem keepsTo_dollar (hlocation : location.Inside extent) (h : c.Inside extent) :
    (readDollar location c).KeepsTo extent (Node.Inside extent) := by
  rw [readDollar]
  split
  · next c₁ h₁ htake =>
      exact KeepsTo.weaken ((keepsTo_output true _ hlocation (h.take? htake)).afterStep _)
  · exact keepsTo_output false _ hlocation h

/-!
## Heads
-/

theorem keepsTo_name (h : c.Inside extent) :
    (Directive.readName c).KeepsTo extent fun _ => True := by
  rw [Directive.readName]
  split
  · next c₁ h₁ htake =>
      refine KeepsTo.after ?_ _
      refine (c₁.keepsTo_identifier _ (h.take? htake)).andThen fun name c₂ h₂ hc₂ _ => ?_
      exact (Cursor.keepsTo_expect '\x7d' hc₂).mapValue fun _ _ => trivial
  · exact c.keepsTo_identifier _ h

theorem keepsTo_closing {P : α → Prop} {value : α} (hvalue : P value) (h : c.Inside extent) :
    (((c.expect ')').mapValue fun _ => value).accept '\n').KeepsTo extent P :=
  ((Cursor.keepsTo_expect ')' h).mapValue fun _ _ => hvalue).accept_newline

theorem keepsTo_set (hlocation : location.Inside extent) (h : c.Inside extent) :
    (readSet location c).KeepsTo extent (Node.Inside extent) := by
  rw [readSet]
  refine (Cursor.keepsTo_expect '(' h).andThen fun _ c₁ h₁ hc₁ _ => ?_
  refine (Cursor.keepsTo_expect '$' hc₁).andThen fun _ c₂ h₂ hc₂ _ => ?_
  refine (c₂.keepsTo_identifier _ hc₂).andThen fun name c₃ h₃ hc₃ _ => ?_
  refine (Cursor.keepsTo_expect '=' hc₃).andThen fun _ c₄ h₄ hc₄ _ => ?_
  refine (Expr.keepsTo c₄ hc₄).andThen fun value c₅ h₅ hc₅ hvalue => ?_
  exact keepsTo_closing (allInside_cons.mpr ⟨hlocation, hvalue⟩) hc₅

theorem keepsTo_call (name : String) (hlocation : location.Inside extent) (h : c.Inside extent) :
    (readCall name location c).KeepsTo extent (Node.Inside extent) := by
  rw [readCall]
  have hopen := (Cursor.keepsTo_require '(' ("`(` after macro name #" ++ name) h.skipSpace).within
    c.size_skipSpace_le
  refine hopen.andThen fun _ c₁ h₁ hc₁ _ => ?_
  refine KeepsTo.accept_newline ((Reference.keepsTo_arguments c₁ hc₁).mapValue fun args hargs => ?_)
  exact allInside_cons.mpr ⟨hlocation, hargs⟩

theorem keepsTo_loopHead (h : c.Inside extent) :
    (readLoopHead c).KeepsTo extent fun head => head.2.Inside extent := by
  rw [readLoopHead]
  refine (Cursor.keepsTo_expect '(' h).andThen fun _ c₁ h₁ hc₁ _ => ?_
  refine (Cursor.keepsTo_expect '$' hc₁).andThen fun _ c₂ h₂ hc₂ _ => ?_
  refine (c₂.keepsTo_identifier _ hc₂).skipSpace.andThen fun name c₃ h₃ hc₃ _ => ?_
  have hkeyword : (readInKeyword c₃).KeepsTo extent fun _ => True := by
    refine (Cursor.keepsTo_require 'i' _ hc₃).andThen fun _ c₄ h₄ hc₄ _ => ?_
    exact Cursor.keepsTo_require 'n' _ hc₄
  refine hkeyword.andThen fun _ c₄ h₄ hc₄ _ => ?_
  refine (Expr.keepsTo c₄ hc₄).andThen fun collection c₅ h₅ hc₅ hcollection => ?_
  exact keepsTo_closing hcollection hc₅

theorem keepsTo_condition (h : c.Inside extent) :
    (readCondition c).KeepsTo extent (Expr.Inside extent) := by
  rw [readCondition]
  refine (Cursor.keepsTo_expect '(' h).andThen fun _ c₁ h₁ hc₁ _ => ?_
  refine (Expr.keepsTo c₁ hc₁).andThen fun condition c₂ h₂ hc₂ hcondition => ?_
  exact keepsTo_closing hcondition hc₂

/-!
## Pieces and bodies
-/

/-- What reading a piece gives; at the end of the text there is nothing to say. -/
def PieceKeepsTo (extent : Extent) {c : Cursor} : Attempt (Option (Parsed c.size Piece)) → Prop
  | .error e => e.location.Inside extent
  | .ok none => True
  | .ok (some p) => p.rest.Inside extent ∧ p.value.Inside extent

theorem pieceKeepsTo_map_some {x : Attempt (Parsed c.size Piece)}
    (hx : x.KeepsTo extent (Piece.Inside extent)) : PieceKeepsTo extent (x.map some) := by
  cases x with
  | error e => exact hx
  | ok p => exact hx

mutual

theorem keepsTo_piece (c : Cursor) (h : c.Inside extent) : PieceKeepsTo extent (readPiece c) := by
  rw [readPiece]
  split
  · trivial
  · next x c₁ h₁ heq =>
      have hc₁ : c₁.Inside extent := (Cursor.passes_of_next? heq).inside h
      split
      · have hdollar := keepsTo_dollar h.location hc₁
        exact pieceKeepsTo_map_some ((hdollar.afterStep _).mapValue fun node hnode => hnode)
      · split
        · split
          · exact pieceKeepsTo_map_some ((keepsTo_directive c₁ h.location hc₁).after _)
          · have hhash := keepsTo_hash h.location hc₁
            exact pieceKeepsTo_map_some ((hhash.afterStep _).mapValue fun node hnode => hnode)
        · exact keepsTo_text [x] h.location hc₁
termination_by 5 * c.size

theorem keepsTo_directive {location : Location} (c : Cursor) (hlocation : location.Inside extent)
    (h : c.Inside extent) :
    (readDirective location c).KeepsTo extent (Piece.Inside extent) := by
  rw [readDirective]
  refine (keepsTo_name h).andMaybe fun name c₁ h₁ hc₁ _ => ?_
  split
  · exact .ok hc₁.accept_newline hlocation
  · refine KeepsTo.weaken (KeepsTo.mapValue (keepsTo_conditional .conditional c₁ hlocation hc₁) ?_)
    exact fun node hnode => hnode
  · refine KeepsTo.weaken ((keepsTo_loopHead hc₁).andMaybe fun head c₂ h₂ hc₂ hhead => ?_)
    refine (keepsTo_body _ c₂ hc₂).mapValue fun body hbody => ?_
    have hsequence : (sequence body.nodes location).Inside extent :=
      allInside_cons.mpr ⟨hlocation, hbody.nodes⟩
    exact allInside_cons.mpr ⟨hlocation, allInside_append.mpr ⟨hhead, hsequence⟩⟩
  · exact KeepsTo.weaken ((keepsTo_set hlocation hc₁).mapValue fun node hnode => hnode)
  · exact .error hlocation
  · exact KeepsTo.weaken ((keepsTo_call _ hlocation hc₁).mapValue fun node hnode => hnode)
termination_by 5 * c.size

theorem keepsTo_conditional (opener : Opener) {location : Location} (c : Cursor)
    (hlocation : location.Inside extent) (h : c.Inside extent) :
    (readConditional opener location c).KeepsTo extent (Node.Inside extent) := by
  rw [readConditional]
  refine (keepsTo_condition h).andMaybe fun condition c₁ h₁ hc₁ hcondition => ?_
  refine (keepsTo_body _ c₁ hc₁).andMaybe fun body c₂ h₂ hc₂ hbody => ?_
  have hthen : (sequence body.nodes location).Inside extent :=
    allInside_cons.mpr ⟨hlocation, hbody.nodes⟩
  have hwhole : ∀ other : Node, other.Inside extent ->
      (conditional condition (.sequence body.nodes location) other location).Inside extent := by
    intro other hother
    refine allInside_cons.mpr ⟨hlocation, allInside_append.mpr ⟨hcondition, ?_⟩⟩
    exact allInside_append.mpr ⟨hthen, hother⟩
  dsimp only
  split
  · exact .ok hc₂ (hwhole _ (allInside_cons.mpr ⟨hbody.location, allInside_nil⟩))
  · refine KeepsTo.weaken (KeepsTo.mapValue ?_ hwhole)
    exact keepsTo_conditional .elseIf c₂ hbody.location hc₂
  · refine (keepsTo_body _ c₂ hc₂).mapValue fun other hother => ?_
    exact hwhole _ (allInside_cons.mpr ⟨hbody.location, hother.nodes⟩)
  · next hstop => exact absurd hstop body.stop_ne_endOfFile
termination_by 5 * c.size

theorem keepsTo_body (construct : Construct) (c : Cursor) (h : c.Inside extent) :
    (readBody construct c).KeepsTo extent (Body.Inside extent) := by
  have hpiece := keepsTo_piece c h
  rw [readBody]
  split
  · next e hread =>
      rw [hread] at hpiece
      exact .error hpiece
  · split
    · exact .ok h ⟨allInside_nil, h.location⟩
    · exact .error h.location
  · next stop location c₁ h₁ hread =>
      rw [hread] at hpiece
      split
      · exact .ok hpiece.1 ⟨allInside_nil, hpiece.2⟩
      · exact .error hpiece.2
  · next node c₁ h₁ hread =>
      rw [hread] at hpiece
      refine KeepsTo.weaken (KeepsTo.afterStep ?_ _)
      refine (keepsTo_body construct c₁ hpiece.1).mapValue fun body hbody => ?_
      exact ⟨nodesInside_cons hpiece.2 hbody.nodes, hbody.location⟩
termination_by 5 * c.size + 1

end

/-!
## Dropping blank text
-/

theorem nodesInside_dropYielding {nodes : List Node} (h : NodesInside extent nodes) :
    NodesInside extent (dropYielding nodes) := by
  induction nodes using dropYielding.induct with
  | case1 before space next rest hdrops ih =>
      rw [dropYielding, if_pos hdrops]
      have hparts := allInside_append.mp h
      exact nodesInside_cons hparts.1 (ih (allInside_append.mp hparts.2).2)
  | case2 before space next rest hkeeps ih =>
      rw [dropYielding, if_neg hkeeps]
      have hparts := allInside_append.mp h
      exact nodesInside_cons hparts.1 (ih hparts.2)
  | case3 nodes hshort =>
      rw [dropYielding]
      · exact h
      · exact hshort

mutual

theorem inside_tidy : ∀ {node : Node}, node.Inside extent -> node.tidy.Inside extent
  | sequence children location, h => by
      have hparts := allInside_cons.mp h
      refine allInside_cons.mpr ⟨hparts.1, ?_⟩
      exact nodesInside_dropYielding (nodesInside_tidyAll hparts.2)
  | text _ _, h => h
  | output _ _, h => h
  | conditional _ thenBranch elseBranch _, h => by
      simp only [Node.Inside, locations, allInside_cons, allInside_append] at h
      rcases h with ⟨hlocation, hcondition, hthen, helse⟩
      refine allInside_cons.mpr ⟨hlocation, allInside_append.mpr ⟨hcondition, ?_⟩⟩
      exact allInside_append.mpr ⟨inside_tidy hthen, inside_tidy helse⟩
  | forEach _ _ body _, h => by
      simp only [Node.Inside, locations, allInside_cons, allInside_append] at h
      rcases h with ⟨hlocation, hcollection, hbody⟩
      exact allInside_cons.mpr ⟨hlocation, allInside_append.mpr ⟨hcollection, inside_tidy hbody⟩⟩
  | set _ _ _, h => h
  | comment _, h => h
  | macroCall _ _ _, h => h

theorem nodesInside_tidyAll : ∀ {nodes : List Node},
    NodesInside extent nodes -> NodesInside extent (tidyAll nodes)
  | [], h => h
  | node :: rest, h => by
      have hparts := allInside_append.mp h
      exact nodesInside_cons (inside_tidy hparts.1) (nodesInside_tidyAll hparts.2)

end

/-!
## Macro calls
-/

mutual

theorem location_mem_of_call : ∀ {node : Node} {call : Located String}, call ∈ node.calls ->
    call.location ∈ node.locations
  | sequence children _, _, h => List.mem_cons_of_mem _ (location_mem_of_callAll h)
  | text _ _, _, h => by cases h
  | output _ _, _, h => by cases h
  | conditional _ thenBranch elseBranch _, _, h => by
      simp only [locations, List.mem_cons, List.mem_append]
      rcases List.mem_append.mp h with h | h
      · exact Or.inr (Or.inr (Or.inl (location_mem_of_call h)))
      · exact Or.inr (Or.inr (Or.inr (location_mem_of_call h)))
  | forEach _ _ body _, _, h => by
      simp only [locations, List.mem_cons, List.mem_append]
      rw [calls] at h
      exact Or.inr (Or.inr (location_mem_of_call h))
  | set _ _ _, _, h => by cases h
  | comment _, _, h => by cases h
  | macroCall _ _ _, _, h => by
      cases List.mem_singleton.mp h
      exact List.mem_cons_self

theorem location_mem_of_callAll : ∀ {nodes : List Node} {call : Located String},
    call ∈ callsAll nodes -> call.location ∈ locationsAll nodes
  | [], _, h => by cases h
  | node :: rest, _, h => by
      rw [locationsAll, List.mem_append]
      rcases List.mem_append.mp h with h | h
      · exact Or.inl (location_mem_of_call h)
      · exact Or.inr (location_mem_of_callAll h)

end

end Node

/-!
## Templates
-/

namespace Template

variable {resource text : String}

theorem keepsTo_nodes (resource text : String) :
    match readNodes resource text with
    | .ok nodes => Node.NodesInside (.ofText resource text) nodes
    | .error e => e.location.Inside (.ofText resource text) := by
  have hbody := Node.keepsTo_body .outside _ (Cursor.inside_ofText resource text)
  rw [readNodes]
  cases hread : Node.readBody .outside (Cursor.ofText resource text) with
  | error e =>
      rw [hread] at hbody
      exact hbody
  | ok p =>
      rw [hread] at hbody
      exact hbody.2.nodes

theorem inside_root_ofNodes {nodes : List Node}
    (h : Node.NodesInside (.ofText resource text) nodes) :
    (ofNodes resource nodes).root.Inside (.ofText resource text) := by
  refine allInside_cons.mpr ⟨⟨rfl, Nat.le_refl 1, Nat.le_add_left 1 _⟩, ?_⟩
  exact Node.nodesInside_dropYielding (Node.nodesInside_tidyAll h)

theorem parse_inside (resource text : String) :
    match parse resource text with
    | .ok template => template.root.Inside (.ofText resource text)
    | .error e => e.location.Inside (.ofText resource text) := by
  have hnodes := keepsTo_nodes resource text
  rw [parse]
  cases hread : readNodes resource text with
  | error e =>
      rw [hread] at hnodes
      exact hnodes
  | ok nodes =>
      rw [hread] at hnodes
      have hroot := inside_root_ofNodes hnodes
      change match (ofNodes resource nodes).checkMacros with
        | .ok template => template.root.Inside (.ofText resource text)
        | .error e => e.location.Inside (.ofText resource text)
      rw [checkMacros, Node.firstUnknownMacro?_eq_find?]
      cases hcall : (ofNodes resource nodes).root.calls.find?
          fun call => call.cause ∉ (ofNodes resource nodes).macros with
      | some call => exact hroot _ (Node.location_mem_of_call (List.mem_of_find?_eq_some hcall))
      | none => exact hroot

end Template

end Stencil
