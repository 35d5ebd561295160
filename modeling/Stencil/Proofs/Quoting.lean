import Stencil.Proofs.Joining
import Stencil.Proofs.WellFormed
import Stencil.Rendering

/-!
# Quoted blocks between templates

A quoted block is rendered as what it contains, between what the texts around it are rendered as.
There is one exception: the content has become an ordinary text, so a blank one is dropped like any
other blank text that stands between a comment, a directive or a reference and an assignment.
-/

namespace Stencil

namespace Node

/-!
## Blank texts between two parts
-/

/-- Whether a text with this content is dropped between the two parts. -/
def swallows (front : List Node) (content : String) (back : List Node) : Bool :=
  back.head?.any isSet
    && front.getLast?.any fun before => yields before (.text content before.location)

theorem dropYielding_text_cons (content : String) (location : Location) (back : List Node) :
    dropYielding (.text content location :: back)
      = .text content location :: dropYielding back := by
  match back with
  | [] => rfl
  | [_] => rfl
  | space :: next :: rest =>
      have hkeeps : (next.isSet && yields (.text content location) space) = false :=
        Bool.and_false _
      rw [dropYielding, hkeeps, if_neg Bool.false_ne_true]

theorem dropYielding_cons_text (before : Node) (content : String) (location : Location)
    (back : List Node) :
    dropYielding (before :: .text content location :: back)
      = before :: ((if swallows [before] content back then [] else [.text content location])
          ++ dropYielding back) := by
  cases back with
  | nil => rfl
  | cons next rest =>
      have hcontent : swallows [before] content (next :: rest)
          = (next.isSet && yields before (.text content location)) := rfl
      rw [dropYielding, hcontent, dropYielding_text_cons]
      split
      · rfl
      · rfl

/-- A text between two parts is kept or dropped, and the parts are tidied on their own. -/
theorem dropYielding_append_text (front : List Node) (content : String) (location : Location)
    (back : List Node) :
    dropYielding (front ++ .text content location :: back)
      = dropYielding front
        ++ ((if swallows front content back then [] else [.text content location])
          ++ dropYielding back) := by
  induction front using dropYielding.induct with
  | case1 before space next rest hdrops ih =>
      rw [dropYielding, if_pos hdrops]
      exact Eq.trans (if_pos hdrops) (congrArg (before :: ·) ih)
  | case2 before space next rest hkeeps ih =>
      rw [dropYielding, if_neg hkeeps]
      exact Eq.trans (if_neg hkeeps) (congrArg (before :: ·) ih)
  | case3 front hshort =>
      rcases front with _ | ⟨first, _ | ⟨before, _ | ⟨next, rest⟩⟩⟩
      · have hnone : swallows [] content back = false := Bool.and_false _
        rw [hnone]
        exact dropYielding_text_cons content location back
      · exact dropYielding_cons_text first content location back
      · exact congrArg (first :: ·) (dropYielding_cons_text before content location back)
      · exact absurd rfl (hshort first before next rest)

theorem head?_dropYielding (nodes : List Node) : (dropYielding nodes).head? = nodes.head? := by
  fun_cases dropYielding nodes with
  | case1 => rfl
  | case2 => rfl
  | case3 => rfl

theorem getLast?_dropYielding (nodes : List Node) :
    (dropYielding nodes).getLast? = nodes.getLast? := by
  induction nodes using dropYielding.induct with
  | case1 before space next rest hdrops ih =>
      rw [dropYielding, if_pos hdrops, List.getLast?_cons, ih]
      rfl
  | case2 before space next rest hkeeps ih =>
      rw [dropYielding, if_neg hkeeps, List.getLast?_cons, ih]
      rfl
  | case3 nodes hshort =>
      rw [dropYielding]
      exact hshort

theorem swallows_dropYielding (front : List Node) (content : String) (back : List Node) :
    swallows (dropYielding front) content (dropYielding back) = swallows front content back := by
  rw [swallows, swallows, head?_dropYielding, getLast?_dropYielding]

theorem swallows_relocateAll (f : Location → Location) (front : List Node) (content : String)
    (back : List Node) :
    swallows front content (relocateAll f back) = swallows front content back := by
  cases back with
  | nil => rfl
  | cons next rest =>
      rw [swallows, swallows, relocateAll, List.head?_cons, List.head?_cons, Option.any_some,
        Option.any_some, isSet_relocate]

theorem tidyAll_append (nodes others : List Node) :
    tidyAll (nodes ++ others) = tidyAll nodes ++ tidyAll others := by
  rw [tidyAll_eq_map, tidyAll_eq_map, tidyAll_eq_map, List.map_append]

theorem callsAll_append (nodes others : List Node) :
    callsAll (nodes ++ others) = callsAll nodes ++ callsAll others := by
  induction nodes with
  | nil => rfl
  | cons node rest ih => rw [List.cons_append, callsAll, callsAll, ih, List.append_assoc]

end Node

/-!
## Rendering one part after another
-/

def Outcome.andThen (outcome : Outcome) (next : Session → Outcome) : Outcome :=
  match outcome with
  | ⟨session, none⟩ => next session
  | failed => failed

theorem Session.write_empty (session : Session) : session.write "" = session :=
  congrArg (Session.mk session.context) String.append_empty

namespace Outcome

theorem andThen_assoc (outcome : Outcome) (next last : Session → Outcome) :
    (outcome.andThen next).andThen last
      = outcome.andThen fun session => (next session).andThen last := by
  rcases outcome with ⟨session, _ | error⟩
  · rfl
  · rfl

theorem andThen_congr {outcome : Outcome} {next next' : Session → Outcome}
    (h : next outcome.session = next' outcome.session) :
    outcome.andThen next = outcome.andThen next' := by
  rcases outcome with ⟨session, _ | error⟩
  · exact h
  · rfl

end Outcome

theorem Node.renderAll_cons (node : Node) (rest : List Node) (session : Session) :
    renderAll (node :: rest) session = (node.render session).andThen (renderAll rest) := by
  rw [renderAll]
  rcases node.render session with ⟨after, _ | error⟩
  · rfl
  · rfl

theorem Node.renderAll_append (nodes others : List Node) (session : Session) :
    renderAll (nodes ++ others) session
      = (renderAll nodes session).andThen (renderAll others) := by
  induction nodes generalizing session with
  | nil =>
      rw [renderAll]
      rfl
  | cons node rest ih =>
      rw [List.cons_append, renderAll_cons, renderAll_cons, Outcome.andThen_assoc]
      exact Outcome.andThen_congr (ih _)

theorem Node.renderAll_singleton (node : Node) (session : Session) :
    renderAll [node] session = node.render session := by
  rw [renderAll_cons]
  rcases node.render session with ⟨after, _ | error⟩
  · show renderAll [] after = ⟨after, none⟩
    rw [renderAll]
    rfl
  · rfl

/-- A text that may have been dropped leaves nothing then. -/
theorem Node.renderAll_text (dropped : Bool) (content : String) (location : Location)
    (others : List Node) (session : Session) :
    renderAll ((if dropped then [] else [.text content location]) ++ others) session
      = renderAll others (session.write (if dropped then "" else content)) := by
  cases dropped with
  | true => exact congrArg (renderAll others) session.write_empty.symm
  | false =>
      rw [if_neg Bool.false_ne_true, if_neg Bool.false_ne_true, List.singleton_append, renderAll,
        render]
      rfl

/-!
## Reading a quoted block
-/

theorem Node.run_quotedBlock {content : String} (h : ¬ [']', ']', '#'] <:+: content.toList)
    (resource after : String) (l : Nat) :
    Run ⟨resource, ("#[[" ++ content ++ "]]#" ++ after).toList, l⟩
      [.text content ⟨resource, l⟩]
      ⟨resource, after.toList, l + Cursor.newlines content.toList⟩ := by
  have htext : ("#[[" ++ content ++ "]]#" ++ after).toList
      = '#' :: '[' :: '[' :: (content.toList ++ ([']', ']', '#'] ++ after.toList)) := by
    rw [String.toList_append, String.toList_append, String.toList_append, List.append_assoc,
      List.append_assoc]
    rfl
  have hpiece := @readsPiece_quotedBlock_closed resource content.toList l h after.toList
  rw [String.ofList_toList] at hpiece
  rw [htext]
  exact .cons hpiece .nil

/-!
## Templates
-/

namespace Template

variable {resource p s q : String} {before after : Template}

theorem exists_run_append (h : p = "" ∨ EndsClosed resource p) (other : String) :
    ∃ nodes, readNodes resource p = .ok nodes
      ∧ Node.Run (Cursor.ofText resource (p ++ other)) nodes
          ⟨resource, other.toList, 1 + Cursor.newlines p.toList⟩ := by
  rcases h with rfl | h
  · refine ⟨[], readNodes_of_run .nil, ?_⟩
    rw [String.empty_append]
    exact .nil
  · rcases h.run_append other with ⟨nodes, hrun, hrun'⟩
    exact ⟨nodes, readNodes_of_run hrun, hrun'⟩

theorem parse_of_readNodes {text : String} {nodes : List Node}
    (h : readNodes resource text = .ok nodes) (hcalls : Node.callsAll nodes = []) :
    parse resource text = .ok (ofNodes resource nodes) := by
  rw [← Node.callsAll_outlineAll] at hcalls
  rw [parse, h]
  exact (checkMacros_ofNodes resource hcalls).1

theorem exists_tidied_of_parse {text : String} {template : Template}
    (h : parse resource text = .ok template) :
    ∃ nodes, readNodes resource text = .ok nodes ∧ Node.callsAll nodes = []
      ∧ template = ofNodes resource nodes := by
  rcases exists_nodes_of_parse h with ⟨nodes, hnodes, hmacros⟩
  exact ⟨nodes, hnodes, calls_of_checkMacros hmacros, (eq_of_checkMacros hmacros).1⟩

theorem nodes_ofNodes_append_text (resource content : String) (location : Location)
    (f : Location → Location) (front back : List Node) :
    (ofNodes resource (front ++ .text content location :: Node.relocateAll f back)).nodes
      = (ofNodes resource front).nodes
        ++ ((if Node.swallows (ofNodes resource front).nodes content (ofNodes resource back).nodes
              then [] else [.text content location])
          ++ Node.relocateAll f (ofNodes resource back).nodes) := by
  have htidy : Node.tidyAll (front ++ .text content location :: Node.relocateAll f back)
      = Node.tidyAll front ++ .text content location :: Node.relocateAll f (Node.tidyAll back) := by
    rw [Node.tidyAll_append, ← Node.tidyAll_relocateAll]
    rfl
  rw [ofNodes, ofNodes, ofNodes, htidy, Node.dropYielding_append_text, Node.swallows_relocateAll,
    Node.dropYielding_relocateAll, Node.swallows_dropYielding]

/-- A quoted block behind a closed end is rendered as what it contains, unless that is a blank text
in a place where a blank text is dropped. -/
theorem render_quotedBlock (hs : ¬ [']', ']', '#'] <:+: s.toList)
    (hbefore : parse resource p = .ok before) (hclosed : p = "" ∨ EndsClosed resource p)
    (hafter : parse resource q = .ok after) :
    ∃ whole, parse resource (p ++ "#[[" ++ s ++ "]]#" ++ q) = .ok whole
      ∧ ∀ session, whole.root.render session
        = (before.root.render session).andThen fun reached =>
            (after.root.render (reached.write
              (if Node.swallows before.nodes s after.nodes then "" else s))).relocate
                (Location.shift (Cursor.newlines (p ++ s).toList)) := by
  rcases exists_tidied_of_parse hbefore with ⟨front, hfront, hfrontCalls, rfl⟩
  rcases exists_tidied_of_parse hafter with ⟨back, hback, hbackCalls, rfl⟩
  let d := Cursor.newlines (p ++ s).toList
  let block := Node.text s ⟨resource, 1 + Cursor.newlines p.toList⟩
  have hread : readNodes resource (p ++ "#[[" ++ s ++ "]]#" ++ q)
      = .ok (front ++ block :: Node.relocateAll (Location.shift d) back) := by
    rcases exists_run_append hclosed ("#[[" ++ s ++ "]]#" ++ q) with ⟨nodes, hnodes, hrun⟩
    cases hfront.symm.trans hnodes
    have hwhole := hrun.append (Node.run_quotedBlock hs resource q _)
    have hlines : 1 + Cursor.newlines p.toList + Cursor.newlines s.toList = 1 + d := by
      rw [Nat.add_assoc, ← Cursor.newlines_append, ← String.toList_append]
    have htext : p ++ "#[[" ++ s ++ "]]#" ++ q = p ++ ("#[[" ++ s ++ "]]#" ++ q) := by
      simp only [String.append_assoc]
    rw [hlines] at hwhole
    rw [htext, readNodes_of_run_append hwhole, hback]
    exact congrArg Except.ok (List.append_assoc front [block] _)
  have hcalls :
      Node.callsAll (front ++ block :: Node.relocateAll (Location.shift d) back) = [] := by
    rw [Node.callsAll_append, hfrontCalls, Node.callsAll, Node.callsAll_relocateAll, hbackCalls]
    rfl
  refine ⟨_, parse_of_readNodes hread hcalls, fun session => ?_⟩
  rw [root, Node.render, nodes_ofNodes_append_text, Node.renderAll_append]
  refine congrArg (Outcome.andThen _) (funext fun reached => ?_)
  rw [Node.renderAll_text, Node.renderAll_relocate]
  rfl

theorem render_quotedBlock_blank :
    ∃ before after whole, parse "t" "#**#" = .ok before ∧ parse "t" "#set($x = 1)" = .ok after
      ∧ parse "t" "#**##[[ ]]##set($x = 1)" = .ok whole
      ∧ Node.swallows before.nodes " " after.nodes = true
      ∧ ∀ session, whole.root.render session
        = (before.root.render session).andThen fun reached =>
            (after.root.render (reached.write "")).relocate (Location.shift 0) := by
  have hclosed : EndsClosed "t" "#**#" :=
    ⟨[], _, _, _, .nil, Node.readsPiece_blockComment, @Node.Closed.blockComment _ [], rfl⟩
  have hok : (parse "t" "#**#").isOk = true ∧ (parse "t" "#set($x = 1)").isOk = true := by
    decide +kernel
  have hswallows : ((parse "t" "#**#").bind fun before =>
      (parse "t" "#set($x = 1)").map fun after =>
        Node.swallows before.nodes " " after.nodes).toOption = some true := by
    decide +kernel
  rcases exists_of_isOk hok.1 with ⟨before, hbefore⟩
  rcases exists_of_isOk hok.2 with ⟨after, hafter⟩
  rw [hbefore, hafter] at hswallows
  have hswallows : Node.swallows before.nodes " " after.nodes = true := Option.some.inj hswallows
  rcases render_quotedBlock (s := " ") (by decide) hbefore (Or.inr hclosed) hafter with
    ⟨whole, hwhole, hrender⟩
  rw [hswallows] at hrender
  exact ⟨before, after, whole, hbefore, hafter, hwhole, hswallows, hrender⟩

end Template

end Stencil
