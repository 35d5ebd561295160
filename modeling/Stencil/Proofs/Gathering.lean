import Stencil.Proofs.Gaps
import Stencil.Proofs.Steady

/-!
# Gathering nodes

The parser closes the gaps in front of assignments while it gathers the nodes of a part: every node
that a step gives goes to the end of a list, or takes the place of the last node there.  Gathering
in this way gives what tidying the tree of all nodes gives.
-/

namespace Stencil

def Piece.tidy : Piece → Piece
  | .node found => .node found.tidy
  | .stop found location => .stop found location

namespace Scan

/-!
## Scans that gather
-/

mutual

def gatherPiece : Nat → Scan Piece
  | 0 => exhaust
  | fuel + 1 => do
      let location ← location
      match ← current with
      | none => return .stop .endOfFile location
      | some x =>
          advance
          if x = '$' then
            return .node (← dollar location fuel)
          else if x = '#' then
            if ← atDirective then
              gatherDirective location fuel
            else
              return .node (← hash location fuel)
          else
            return .node (← text [x] location fuel)

def gatherDirective (location : Location) : Nat → Scan Piece
  | 0 => exhaust
  | fuel + 1 => do
      let name ← directiveName fuel
      match Directive.ofName name with
      | .stop stop =>
          skipNewline
          return .stop stop location
      | .conditional => return .node (← gatherConditional .conditional location fuel)
      | .forEach =>
          let head ← loopHead fuel
          let part ← gather (.inside .forEach location.line) fuel []
          return .node (.forEach head.1 head.2 (.sequence part.nodes location) location)
      | .set => return .node (← set location fuel)
      | .unsupported feature => reject ⟨.unsupported feature, location⟩
      | .call name => return .node (← call name location fuel)

def gatherConditional (opener : Opener) (location : Location) : Nat → Scan Node
  | 0 => exhaust
  | fuel + 1 => do
      let condition ← condition fuel
      let part ← gather (.inside opener location.line) fuel []
      let thenBranch := .sequence part.nodes location
      match part.stop with
      | .closing =>
          return .conditional condition thenBranch (.sequence [] part.location) location
      | .elseIf =>
          let other ← gatherConditional .elseIf part.location fuel
          return .conditional condition thenBranch other location
      | .elseBranch =>
          let other ← gather (.inside .elseBranch part.location.line) fuel []
          return .conditional condition thenBranch (.sequence other.nodes part.location) location
      | .endOfFile => crash .endOfFileInConditional

def gather (construct : Construct) : Nat → List Node → Scan Stopped
  | 0, _ => exhaust
  | fuel + 1, nodes => do
      match ← gatherPiece fuel with
      | .stop stop location =>
          if construct.accepts stop = true then
            return ⟨nodes, stop, location⟩
          else
            reject ⟨.unexpectedStop stop construct, location⟩
      | .node node => gather construct fuel (Node.push nodes node)

end

def gatherTemplate (resource : String) (fuel : Nat) : Scan Template := do
  let part ← gather .outside fuel []
  match Template.checkMacros { nodes := part.nodes, location := ⟨resource, 1⟩ } with
  | .ok template => return template
  | .error e => reject e

def gatherParse (fuel : Nat) (resource text : String) : Except Halt Template :=
  (gatherTemplate resource fuel (.ofText resource text)).map fun result => result.1

/-!
## What a part is gathered from
-/

/-- One step after the other gives these nodes, and then a stop. -/
inductive Produces : Nat → Scanner → List Node → Stop → Location → Scanner → Prop
  | stop {fuel : Nat} {s s' : Scanner} {stop : Stop} {location : Location} :
      gatherPiece fuel s = .ok (.stop stop location, s') ->
      Produces (fuel + 1) s [] stop location s'
  | node {fuel : Nat} {s between s' : Scanner} {node : Node} {rest : List Node} {stop : Stop}
      {location : Location} :
      gatherPiece fuel s = .ok (.node node, between) ->
      Produces fuel between rest stop location s' ->
      Produces (fuel + 1) s (node :: rest) stop location s'

section

variable {construct : Construct} {fuel : Nat} {s s' : Scanner}

theorem exists_produces {nodes : List Node} {part : Stopped}
    (h : gather construct fuel nodes s = .ok (part, s')) :
    construct.accepts part.stop = true
      ∧ ∃ raw, Produces fuel s raw part.stop part.location s'
        ∧ part.nodes = raw.foldl Node.push nodes := by
  induction fuel generalizing nodes s with
  | zero => cases h
  | succ fuel ih =>
      rw [gather] at h
      rcases exists_of_bind_eq_ok h with ⟨found, between, hpiece, h⟩
      cases found with
      | stop stop location =>
          dsimp only at h
          split at h
          · next haccepts =>
              cases h
              exact ⟨haccepts, [], .stop hpiece, rfl⟩
          · cases h
      | node node =>
          rcases ih h with ⟨haccepts, raw, hraw, hkept⟩
          exact ⟨haccepts, node :: raw, .node hpiece hraw, hkept⟩

theorem gather_of_produces {raw : List Node} {stop : Stop} {location : Location}
    (h : Produces fuel s raw stop location s') (haccepts : construct.accepts stop = true)
    (nodes : List Node) :
    gather construct fuel nodes s = .ok (⟨raw.foldl Node.push nodes, stop, location⟩, s') := by
  induction h generalizing nodes with
  | stop hpiece =>
      rw [gather, bind_of_ok hpiece]
      exact congrFun (if_pos haccepts) _
  | node hpiece _ ih =>
      rw [gather, bind_of_ok hpiece]
      exact ih haccepts _

/-- What is gathered is the list of all nodes without its gaps. -/
theorem gather_eq_ok_iff (part : Stopped) :
    gather construct fuel [] s = .ok (part, s') ↔
      construct.accepts part.stop = true
        ∧ ∃ raw, Produces fuel s raw part.stop part.location s'
          ∧ part.nodes = Node.withoutGaps raw := by
  have hfold : ∀ raw : List Node, raw.foldl Node.push [] = Node.withoutGaps raw := by
    intro raw
    rw [← Node.dropYielding_eq_withoutGaps]
    exact Node.foldl_push [] raw
  constructor
  · intro h
    rcases exists_produces h with ⟨haccepts, raw, hraw, hkept⟩
    exact ⟨haccepts, raw, hraw, hkept.trans (hfold raw)⟩
  · intro h
    rcases part with ⟨kept, stop, location⟩
    rcases h with ⟨haccepts, raw, hraw, hkept⟩
    rw [← hfold] at hkept
    cases hkept
    exact gather_of_produces hraw haccepts []

end

/-!
## Gathering and tidying
-/

def Stopped.gathered (nodes : List Node) (part : Stopped) : Stopped :=
  { part with nodes := (Node.tidyAll part.nodes).foldl Node.push nodes }

section

variable (location : Location) (fuel : Nat)

theorem map_tidy_text (opening : List Char) :
    Node.tidy <$> text opening location fuel = text opening location fuel := by
  rw [text, map_bind]
  rfl

theorem map_tidy_quotedBlock :
    Node.tidy <$> quotedBlock location fuel = quotedBlock location fuel := by
  rw [quotedBlock, map_bind]
  apply bind_congr
  intro content
  rw [map_bind]
  rfl

theorem map_tidy_lineComment :
    Node.tidy <$> lineComment location fuel = lineComment location fuel := by
  rw [lineComment, map_bind]
  apply bind_congr
  intro skipped
  rw [map_bind]
  rfl

theorem map_tidy_blockComment :
    Node.tidy <$> blockComment location fuel = blockComment location fuel := by
  rw [blockComment, map_bind]
  apply bind_congr
  intro skipped
  rw [map_bind]
  rfl

theorem map_tidy_hash : Node.tidy <$> hash location fuel = hash location fuel := by
  simp only [hash, map_bind, apply_ite, map_tidy_lineComment, map_tidy_blockComment,
    map_tidy_quotedBlock, map_tidy_text]

theorem map_tidy_output (silent : Bool) (opening : List Char) :
    Node.tidy <$> output silent opening location fuel = output silent opening location fuel := by
  simp only [output, map_bind, apply_ite, map_tidy_text, map_pure, Node.tidy]

theorem map_tidy_dollar : Node.tidy <$> dollar location fuel = dollar location fuel := by
  simp only [dollar, map_bind, apply_ite, map_tidy_output]

theorem map_tidy_set : Node.tidy <$> set location fuel = set location fuel := by
  simp only [set, map_bind, map_pure, Node.tidy]

theorem map_tidy_call (name : String) :
    Node.tidy <$> call name location fuel = call name location fuel := by
  simp only [call, map_bind, map_pure, Node.tidy]

end

theorem bind_eq_map {f : β → γ} {g : α → δ} {m : Scan α} {m' : Scan δ} {k : α → Scan β}
    {k' : δ → Scan γ} (hm : m' = g <$> m) (hk : ∀ a, k' (g a) = f <$> k a) :
    m' >>= k' = f <$> (m >>= k) := by
  rw [hm, bind_map_left, map_bind]
  exact bind_congr hk

theorem bind_eq_map_bind {f : β → γ} {m : Scan α} {k : α → Scan β} {k' : α → Scan γ}
    (hk : ∀ a, k' a = f <$> k a) : m >>= k' = f <$> (m >>= k) := by
  rw [map_bind]
  exact bind_congr hk

theorem map_tidy_node {m m' : Scan Node} (h : m' = Node.tidy <$> m) :
    (do return .node (← m') : Scan Piece) = Piece.tidy <$> do return .node (← m) := by
  apply bind_eq_map h
  intro node
  rfl

theorem sequence_gathered (part : Stopped) (location : Location) :
    Node.sequence (part.gathered []).nodes location = (Node.sequence part.nodes location).tidy :=
  congrArg (Node.sequence · location) (Node.foldl_push [] (Node.tidyAll part.nodes))

mutual

/-- The scans that gather use up their fuel in the same places, so that they agree also where it
runs out. -/
theorem gatherPiece_eq : ∀ fuel : Nat, gatherPiece fuel = Piece.tidy <$> piece fuel
  | 0 => rfl
  | fuel + 1 => by
      rw [gatherPiece, piece]
      apply bind_eq_map_bind
      intro location
      apply bind_eq_map_bind
      intro current
      cases current with
      | none => rfl
      | some x =>
          apply bind_eq_map_bind
          intro advanced
          split
          · exact map_tidy_node (map_tidy_dollar location fuel).symm
          · split
            · apply bind_eq_map_bind
              intro atDirective
              split
              · exact gatherDirective_eq location fuel
              · exact map_tidy_node (map_tidy_hash location fuel).symm
            · exact map_tidy_node (map_tidy_text location fuel [x]).symm

theorem gatherDirective_eq (location : Location) : ∀ fuel : Nat,
    gatherDirective location fuel = Piece.tidy <$> directive location fuel
  | 0 => rfl
  | fuel + 1 => by
      rw [gatherDirective, directive]
      apply bind_eq_map_bind
      intro name
      cases Directive.ofName name with
      | stop stop =>
          apply bind_eq_map_bind
          intro skipped
          rfl
      | conditional => exact map_tidy_node (gatherConditional_eq .conditional location fuel)
      | forEach =>
          apply bind_eq_map_bind
          intro head
          apply bind_eq_map (gather_eq _ fuel [])
          intro part
          rw [sequence_gathered]
          rfl
      | set => exact map_tidy_node (map_tidy_set location fuel).symm
      | unsupported feature => rfl
      | call name => exact map_tidy_node (map_tidy_call location fuel name).symm

theorem gatherConditional_eq (opener : Opener) (location : Location) : ∀ fuel : Nat,
    gatherConditional opener location fuel = Node.tidy <$> conditional opener location fuel
  | 0 => rfl
  | fuel + 1 => by
      rw [gatherConditional, conditional]
      apply bind_eq_map_bind
      intro condition
      apply bind_eq_map (gather_eq _ fuel [])
      intro part
      rw [sequence_gathered]
      rcases part with ⟨nodes, stop, stopLocation⟩
      cases stop with
      | closing => rfl
      | elseIf =>
          apply bind_eq_map (gatherConditional_eq .elseIf stopLocation fuel)
          intro other
          rfl
      | elseBranch =>
          apply bind_eq_map (gather_eq _ fuel [])
          intro other
          rw [sequence_gathered]
          rfl
      | endOfFile => rfl

theorem gather_eq (construct : Construct) : ∀ (fuel : Nat) (nodes : List Node),
    gather construct fuel nodes = Stopped.gathered nodes <$> body construct fuel
  | 0, _ => rfl
  | fuel + 1, nodes => by
      rw [gather, body]
      apply bind_eq_map (gatherPiece_eq fuel)
      intro found
      cases found with
      | stop stop location =>
          dsimp only [Piece.tidy]
          split
          · rfl
          · rfl
      | node node =>
          dsimp only [Piece.tidy]
          rw [gather_eq construct fuel, map_bind, map_eq_pure_bind]
          rfl

end

/-- The steps give the nodes that a body is read as, with nothing tidied but what is inside them. -/
theorem produces_of_body {construct : Construct} {fuel : Nat} {s s' : Scanner} {part : Stopped}
    (h : body construct fuel s = .ok (part, s')) :
    Produces fuel s (Node.tidyAll part.nodes) part.stop part.location s' := by
  induction fuel generalizing s part with
  | zero => cases h
  | succ fuel ih =>
      rw [body] at h
      rcases exists_of_bind_eq_ok h with ⟨found, between, hpiece, h⟩
      have hgathered : gatherPiece fuel s = .ok (found.tidy, between) := by
        rw [gatherPiece_eq, map_eq_pure_bind, bind_of_ok hpiece]
        rfl
      cases found with
      | stop stop location =>
          dsimp only at h
          split at h
          · cases h
            exact .stop hgathered
          · cases h
      | node node =>
          rcases exists_of_bind_eq_ok h with ⟨rest, last, hrest, h⟩
          cases h
          exact .node hgathered (ih hrest)

/-!
## Whole texts
-/

theorem gatherTemplate_eq (resource : String) (fuel : Nat) :
    gatherTemplate resource fuel = template resource fuel := by
  rw [gatherTemplate, template, gather_eq .outside fuel [], bind_map_left]
  apply bind_congr
  intro part
  have hnodes := Node.foldl_push [] (Node.tidyAll part.nodes)
  exact congrArg (fun nodes =>
    match Template.checkMacros { nodes, location := ⟨resource, 1⟩ } with
    | .ok template => return template
    | .error e => reject e) hnodes

section

variable {fuel : Nat} (resource text : String)
  (hlines : Cursor.newlines text.toList < UInt32.size - 1)
  (hfuel : 4 * text.length + 10 ≤ fuel)

include hlines hfuel

theorem gatherParse_eq :
    gatherParse fuel resource text = (Template.parse resource text).mapError .rejected := by
  rw [gatherParse, gatherTemplate_eq]
  exact parse_eq resource text hlines hfuel

theorem produces_of_readNodes {raw : List Node}
    (h : Template.readNodes resource text = .ok raw) :
    ∃ location s',
      Produces fuel (.ofText resource text) (Node.tidyAll raw) .endOfFile location s' := by
  have hbody := agrees_body_ofText resource text hlines hfuel
  cases hread : Node.readBody .outside (Cursor.ofText resource text) with
  | error e =>
      rw [Template.readNodes, hread] at h
      cases h
  | ok p =>
      rw [Template.readNodes, hread] at h
      cases h
      rw [hread] at hbody
      rcases hbody with ⟨s', hrun, _⟩
      have hstop : p.value.stop = .endOfFile := of_decide_eq_true p.value.accepted
      have hsteps := produces_of_body hrun
      rw [← hstop]
      exact ⟨_, s', hsteps⟩

end

end Scan

end Stencil
