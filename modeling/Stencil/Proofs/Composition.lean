import Stencil.Proofs.Quoting

/-!
# Templates put together

A text whose last node is closed can stand in front of any other text.  A mistake in the second text
is reported as on its own, only further down, and otherwise the nodes of the two texts stand one
behind the other.  The one thing that reaches over the seam is an assignment among the first two
nodes of the second text, which can take a blank text in front of it away.
-/

namespace Stencil

namespace Node

/-!
## Blank texts next to a seam
-/

/-- An assignment looks back at two nodes, so none of them lies beyond the seam. -/
theorem dropYielding_append {back : List Node} (front : List Node)
    (hback : ∀ node ∈ back.take 2, node.isSet = false) :
    dropYielding (front ++ back) = dropYielding front ++ dropYielding back := by
  have hone : ∀ before : Node, dropYielding (before :: back) = before :: dropYielding back := by
    intro before
    rcases back with _ | ⟨space, _ | ⟨next, rest⟩⟩
    · rfl
    · rfl
    · have hnext : next.isSet = false := hback next (List.mem_cons_of_mem _ List.mem_cons_self)
      rw [dropYielding, hnext, Bool.false_and, if_neg Bool.false_ne_true]
  induction front using dropYielding.induct with
  | case1 before space next rest hdrops ih =>
      rw [dropYielding, if_pos hdrops]
      exact Eq.trans (if_pos hdrops) (congrArg (before :: ·) ih)
  | case2 before space next rest hkeeps ih =>
      rw [dropYielding, if_neg hkeeps]
      exact Eq.trans (if_neg hkeeps) (congrArg (before :: ·) ih)
  | case3 front hshort =>
      rcases front with _ | ⟨before, _ | ⟨space, _ | ⟨next, rest⟩⟩⟩
      · rfl
      · exact hone before
      · refine Eq.trans ?_ (congrArg (before :: ·) (hone space))
        cases back with
        | nil => rfl
        | cons next rest =>
            have hnext : next.isSet = false := hback next List.mem_cons_self
            rw [List.cons_append, List.cons_append, List.nil_append, dropYielding, hnext,
              Bool.false_and, if_neg Bool.false_ne_true]
      · exact absurd rfl (hshort before space next rest)

theorem exists_dropYielding_cons (node : Node) (rest : List Node) :
    ∃ others, dropYielding (node :: rest) = node :: others := by
  have hhead := head?_dropYielding (node :: rest)
  cases hfront : dropYielding (node :: rest) with
  | nil =>
      rw [hfront] at hhead
      cases hhead
  | cons first others =>
      rw [hfront] at hhead
      cases hhead
      exact ⟨others, rfl⟩

theorem isSet_of_dropYielding {nodes : List Node}
    (h : ∀ node ∈ (dropYielding nodes).take 2, node.isSet = false) :
    ∀ node ∈ nodes.take 2, node.isSet = false := by
  rcases nodes with _ | ⟨before, _ | ⟨space, _ | ⟨next, rest⟩⟩⟩
  · exact h
  · exact h
  · exact h
  · by_cases hdrops : (next.isSet && yields before space) = true
    · rcases exists_dropYielding_cons next rest with ⟨others, hothers⟩
      rw [dropYielding, if_pos hdrops, hothers] at h
      have hset := (Bool.and_eq_true_iff.mp hdrops).1
      rw [h next (List.mem_cons_of_mem _ List.mem_cons_self)] at hset
      cases hset
    · rcases exists_dropYielding_cons space (next :: rest) with ⟨others, hothers⟩
      rw [dropYielding, if_neg hdrops, hothers] at h
      exact h

theorem isSet_relocateAll {nodes : List Node} (f : Location → Location)
    (h : ∀ node ∈ nodes.take 2, node.isSet = false) :
    ∀ node ∈ (relocateAll f nodes).take 2, node.isSet = false := by
  rcases nodes with _ | ⟨first, _ | ⟨second, rest⟩⟩
  · exact h
  · rintro _ (_ | ⟨_, hmem⟩)
    · exact (isSet_relocate f first).trans (h first List.mem_cons_self)
    · cases hmem
  · rintro _ (_ | ⟨_, _ | ⟨_, hmem⟩⟩)
    · exact (isSet_relocate f first).trans (h first List.mem_cons_self)
    · refine (isSet_relocate f second).trans (h second ?_)
      exact List.mem_cons_of_mem _ List.mem_cons_self
    · cases hmem

end Node

/-!
## Templates
-/

namespace Template

variable {resource text other : String} {nodes : List Node} {e : Located ParseError}

/-- The first call that is written decides, also when blank texts around it are dropped. -/
theorem checkMacros_ofNodes_eq (resource : String) (nodes : List Node) :
    (ofNodes resource nodes).checkMacros
      = match (Node.callsAll nodes).head? with
        | some call => .error ⟨.undefinedMacro call.cause, call.location⟩
        | none => .ok (ofNodes resource nodes) := by
  have hknown : ∀ call : Located String, call.cause ∉ (ofNodes resource nodes).macros :=
    fun call => List.not_mem_nil
  rw [checkMacros, Node.firstUnknownMacro?_eq_find?, calls_ofNodes]
  cases Node.callsAll nodes with
  | nil => rfl
  | cons call rest =>
      have hfind : (call :: rest).find?
          (fun call => call.cause ∉ (ofNodes resource nodes).macros) = some call :=
        List.find?_cons_of_pos (decide_eq_true (hknown call))
      rw [hfind]
      rfl

theorem parse_of_readNodes_error (h : readNodes resource text = .error e) :
    parse resource text = .error e := by
  rw [parse, h]
  rfl

theorem parse_eq_checkMacros (h : readNodes resource text = .ok nodes) :
    parse resource text = (ofNodes resource nodes).checkMacros := by
  rw [parse, h]
  rfl

section

variable {front : List Node} {d : Nat}
  (hread : readNodes resource (text ++ other)
    = ((readNodes resource other).map fun nodes =>
        front ++ Node.relocateAll (Location.shift d) nodes).mapError (Located.shift d))
  (hcalls : Node.callsAll front = [])

include hread hcalls

theorem parse_append_error (h : parse resource other = .error e) :
    parse resource (text ++ other) = .error (e.shift d) := by
  cases hother : readNodes resource other with
  | error found =>
      rw [parse_of_readNodes_error hother] at h
      cases h
      rw [hother] at hread
      exact parse_of_readNodes_error hread
  | ok back =>
      rw [parse_eq_checkMacros hother, checkMacros_ofNodes_eq] at h
      rw [hother] at hread
      have hwhole : parse resource (text ++ other) = _ :=
        (parse_eq_checkMacros hread).trans (checkMacros_ofNodes_eq _ _)
      rw [hwhole, Node.callsAll_append, hcalls, List.nil_append, Node.callsAll_relocateAll,
        List.head?_map]
      cases hhead : (Node.callsAll back).head? with
      | none =>
          rw [hhead] at h
          cases h
      | some call =>
          rw [hhead] at h
          cases h
          rfl

theorem parse_append_ok {second : Template} (h : parse resource other = .ok second)
    (hset : ∀ node ∈ second.nodes.take 2, node.isSet = false) :
    ∃ whole, parse resource (text ++ other) = .ok whole
      ∧ whole.nodes
        = (ofNodes resource front).nodes ++ Node.relocateAll (Location.shift d) second.nodes := by
  rcases exists_tidied_of_parse h with ⟨back, hback, hbackCalls, rfl⟩
  rw [hback] at hread
  have hwhole : Node.callsAll (front ++ Node.relocateAll (Location.shift d) back) = [] := by
    rw [Node.callsAll_append, hcalls, Node.callsAll_relocateAll, hbackCalls]
    rfl
  refine ⟨_, parse_of_readNodes hread hwhole, ?_⟩
  have hseam := Node.isSet_relocateAll (Location.shift d) (Node.isSet_of_dropYielding hset)
  rw [ofNodes, ofNodes, ofNodes, Node.tidyAll_append, Node.tidyAll_relocateAll,
    Node.dropYielding_append _ hseam, Node.dropYielding_relocateAll]

end

theorem render_append {first second whole : Template} {f : Location → Location}
    (h : whole.nodes = first.nodes ++ Node.relocateAll f second.nodes) (session : Session) :
    whole.root.render session
      = (first.root.render session).andThen fun reached =>
          (second.root.render reached).relocate f := by
  rw [root, Node.render, h, Node.renderAll_append]
  refine congrArg (Outcome.andThen _) (funext fun reached => ?_)
  rw [Node.renderAll_relocate]
  rfl

/-- A text with a closed end can be put in front of another one.  Mistakes in the second text are
reported as many lines further down as the first one has; otherwise the nodes are put together and
rendered one after another. -/
theorem parse_append {first : Template} (hfirst : parse resource text = .ok first)
    (hclosed : EndsClosed resource text) (other : String) :
    let d := Cursor.newlines text.toList
    (∀ e, parse resource other = .error e -> parse resource (text ++ other) = .error (e.shift d))
    ∧ ∀ second, parse resource other = .ok second ->
        (∀ node ∈ second.nodes.take 2, node.isSet = false) ->
        ∃ whole, parse resource (text ++ other) = .ok whole
          ∧ whole.nodes = first.nodes ++ Node.relocateAll (Location.shift d) second.nodes
          ∧ ∀ session, whole.root.render session
            = (first.root.render session).andThen fun reached =>
                (second.root.render reached).relocate (Location.shift d) := by
  rcases exists_tidied_of_parse hfirst with ⟨front, hfront, hcalls, rfl⟩
  rcases hclosed.run_append other with ⟨nodes, hrun, hrun'⟩
  cases hfront.symm.trans (readNodes_of_run hrun)
  have hread := readNodes_of_run_append hrun'
  refine ⟨fun e he => parse_append_error hread hcalls he, fun second hsecond hset => ?_⟩
  rcases parse_append_ok hread hcalls hsecond hset with ⟨whole, hwhole, hnodes⟩
  exact ⟨whole, hwhole, hnodes, render_append hnodes⟩

theorem parse_append_lineComment :
    ∃ first e second whole, parse "t" "a\n## b\n" = .ok first ∧ EndsClosed "t" "a\n## b\n"
      ∧ parse "t" "\n#foreach($i in $x)" = .error e
      ∧ parse "t" ("a\n## b\n" ++ "\n#foreach($i in $x)") = .error (e.shift 2)
      ∧ parse "t" " $x#set($x = 1)" = .ok second
      ∧ (∀ node ∈ second.nodes.take 2, node.isSet = false)
      ∧ parse "t" ("a\n## b\n" ++ " $x#set($x = 1)") = .ok whole
      ∧ whole.nodes = first.nodes ++ Node.relocateAll (Location.shift 2) second.nodes
      ∧ ∀ session, whole.root.render session
        = (first.root.render session).andThen fun reached =>
            (second.root.render reached).relocate (Location.shift 2) := by
  have hclosed : EndsClosed "t" "a\n## b\n" := by
    have hchars : "a\n## b\n".toList = ['a', '\n', '#', '#', ' ', 'b', '\n'] := by
      decide +kernel
    have htext : Node.ReadsPiece ⟨"t", 'a' :: (['\n'] ++ ['#', '#', ' ', 'b', '\n']), 1⟩
        (.node (.text (String.ofList ['a', '\n']) ⟨"t", 1⟩)) ⟨"t", ['#', '#', ' ', 'b', '\n'], 2⟩ :=
      Node.readsPiece_text rfl (List.forall_mem_singleton.mpr rfl) (Cursor.forall_head_cons rfl)
    have hcomment : Node.Closed (.comment ⟨"t", 2⟩) ('#' :: '#' :: ([' ', 'b'] ++ ['\n'])) :=
      .lineComment
    rw [EndsClosed, Cursor.ofText, hchars]
    exact ⟨_, _, _, _, .cons htext .nil, Node.readsPiece_lineComment, hcomment, rfl⟩
  have hok : (parse "t" "a\n## b\n").isOk = true ∧ (parse "t" " $x#set($x = 1)").isOk = true
      ∧ (parse "t" "\n#foreach($i in $x)").isOk = false := by
    decide +kernel
  have hset : ((parse "t" " $x#set($x = 1)").map fun second =>
      (second.nodes.take 2).any Node.isSet).toOption = some false := by
    decide +kernel
  rcases exists_of_isOk hok.1 with ⟨first, hfirst⟩
  rcases exists_of_isOk hok.2.1 with ⟨second, hsecond⟩
  rw [hsecond] at hset
  have hset : ∀ node ∈ second.nodes.take 2, node.isSet = false :=
    fun node hnode => Bool.eq_false_iff.mpr (List.any_eq_false.mp (Option.some.inj hset) node hnode)
  cases herror : parse "t" "\n#foreach($i in $x)" with
  | ok template =>
      rw [herror] at hok
      cases hok.2.2
  | error e =>
      have hrejected := (parse_append hfirst hclosed "\n#foreach($i in $x)").1 e herror
      rcases (parse_append hfirst hclosed " $x#set($x = 1)").2 second hsecond hset with
        ⟨whole, hwhole⟩
      exact ⟨first, e, second, whole, hfirst, hclosed, rfl, hrejected, hsecond, hset, hwhole⟩

end Template

end Stencil
