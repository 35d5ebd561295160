import Mathlib.Data.List.Forall2
import Stencil.Proofs.Gathering

/-!
# Outputs without their blanks

The ink of a text is what is left of it without its blank characters.  Closing a gap takes away
nothing but a text without ink, in the loop bodies and branches of a template as well as on its top
level.  So a template with its gaps and the template as it is parsed are rendered alike, up to the
blanks in the output.
-/

namespace Stencil

/-!
## Ink
-/

namespace Text

def ink (text : String) : List Char :=
  text.toList.filter fun c => !isBlank c

theorem ink_append (text other : String) : ink (text ++ other) = ink text ++ ink other := by
  rw [ink, String.toList_append, List.filter_append]
  rfl

theorem ink_of_all {text : String} (h : text.toList.all isBlank = true) : ink text = [] := by
  apply List.filter_eq_nil_iff.mpr
  intro c hc
  rw [List.all_eq_true.mp h c hc]
  exact Bool.false_ne_true

end Text

/-- The sessions have the same context, and outputs that differ in blanks only. -/
structure Session.SameInk (session other : Session) : Prop where
  context_eq : session.context = other.context
  ink_eq : Text.ink session.output = Text.ink other.output

structure Outcome.SameInk (outcome other : Outcome) : Prop where
  session : outcome.session.SameInk other.session
  failure?_eq : outcome.failure? = other.failure?

/-- Nothing but blanks tells from the output which of the two nodes has been rendered. -/
def Node.SameInk (node other : Node) : Prop :=
  ∀ session session' : Session, session.SameInk session' ->
    (node.render session).SameInk (other.render session')

namespace Session.SameInk

variable {session other : Session}

theorem refl (session : Session) : SameInk session session where
  context_eq := rfl
  ink_eq := rfl

theorem trans {last : Session} (h : SameInk session other) (h' : SameInk other last) :
    SameInk session last where
  context_eq := h.context_eq.trans h'.context_eq
  ink_eq := h.ink_eq.trans h'.ink_eq

theorem done (h : SameInk session other) : Outcome.SameInk session.done other.done :=
  ⟨h, rfl⟩

theorem fail (h : SameInk session other) (error : Located EvalError) :
    Outcome.SameInk (session.fail error) (other.fail error) :=
  ⟨h, rfl⟩

theorem write (h : SameInk session other) (text : String) :
    SameInk (session.write text) (other.write text) where
  context_eq := h.context_eq
  ink_eq := by
    show Text.ink (session.output ++ text) = Text.ink (other.output ++ text)
    rw [Text.ink_append, Text.ink_append, h.ink_eq]

theorem writeValue (h : SameInk session other) (value : Value) :
    SameInk (session.writeValue value) (other.writeValue value) where
  context_eq := h.context_eq
  ink_eq := by
    show Text.ink (value.write session.output) = Text.ink (value.write other.output)
    rw [Value.write_eq_append_text, Value.write_eq_append_text, Text.ink_append, Text.ink_append,
      h.ink_eq]

theorem assign (h : SameInk session other) (name : String) (value : Value) :
    SameInk (session.assign name value) (other.assign name value) where
  context_eq := congrArg (·.set name value) h.context_eq
  ink_eq := h.ink_eq

theorem enter (h : SameInk session other) (name : String) (item metadata : Value) :
    SameInk (session.enter session.context.mark name item metadata)
      (other.enter other.context.mark name item metadata) where
  context_eq := congrArg (fun context : Context =>
    (context.shadow context.mark name item).shadow context.mark loopVariable metadata) h.context_eq
  ink_eq := h.ink_eq

theorem leave (h : SameInk session other) (mark : Nat) :
    SameInk (session.leave mark) (other.leave mark) where
  context_eq := congrArg (·.restore mark) h.context_eq
  ink_eq := h.ink_eq

end Session.SameInk

namespace Outcome.SameInk

variable {outcome other : Outcome}

theorem trans {last : Outcome} (h : SameInk outcome other) (h' : SameInk other last) :
    SameInk outcome last where
  session := h.session.trans h'.session
  failure?_eq := h.failure?_eq.trans h'.failure?_eq

theorem andThen {next next' : Session → Outcome} (h : SameInk outcome other)
    (hnext : ∀ session session', session.SameInk session' ->
      (next session).SameInk (next' session')) :
    SameInk (outcome.andThen next) (other.andThen next') := by
  rcases outcome with ⟨session, failure?⟩
  rcases other with ⟨session', failure?'⟩
  have hsame : failure? = failure?' := h.failure?_eq
  cases hsame
  cases failure? with
  | none => exact hnext session session' h.session
  | some error => exact h

end Outcome.SameInk

/-!
## Rendering with and without gaps
-/

theorem sameInk_renderEach {name : String} {body body' : Session → Outcome}
    (hbody : ∀ session session', session.SameInk session' ->
      (body session).SameInk (body' session'))
    (items : List Value) (index : Nat) {session session' : Session}
    (h : session.SameInk session') :
    (renderEach name body index items session).SameInk
      (renderEach name body' index items session') := by
  induction items generalizing index session session' with
  | nil => exact h.done
  | cons item rest ih =>
      let metadata := loopMetadata index !rest.isEmpty
      have hmark : session'.context.mark = session.context.mark :=
        congrArg Context.mark h.context_eq.symm
      have hrun := hbody _ _ (h.enter name item metadata)
      have hleave := hrun.session.leave session.context.mark
      have hfailure := hrun.failure?_eq
      rw [renderEach, renderEach, hmark]
      rw [hmark] at hleave hfailure
      generalize body (session.enter session.context.mark name item metadata) = outcome
        at hleave hfailure ⊢
      generalize body' (session'.enter session.context.mark name item metadata) = outcome'
        at hleave hfailure ⊢
      rcases outcome with ⟨after, failure?⟩
      rcases outcome' with ⟨after', failure?'⟩
      cases hfailure
      cases failure? with
      | none => exact ih (index + 1) hleave
      | some error => exact hleave.fail error

namespace Node

theorem sameInk_done_of_isBlank {space : Node} (h : space.isBlank = true) (session : Session) :
    (space.render session).SameInk session.done := by
  cases space with
  | text content location =>
      have hink : Text.ink content = [] := Text.ink_of_all h
      constructor
      · constructor
        · rw [render]
          rfl
        · rw [render]
          show Text.ink (session.output ++ content) = Text.ink session.output
          rw [Text.ink_append, hink, List.append_nil]
      · rw [render]
        rfl
  | _ => cases h

/-- A gap may be missing from the second list. -/
theorem sameInk_renderAll {nodes others : List Node} (hnodes : List.Forall₂ SameInk nodes others)
    {session session' : Session} (h : session.SameInk session') :
    (renderAll nodes session).SameInk (renderAll (dropYielding others) session') := by
  induction others using dropYielding.induct generalizing nodes session session' with
  | case1 before space next rest hdrops ih =>
      rcases hnodes with _ | ⟨hbefore, _ | ⟨hspace, hrest⟩⟩
      have hblank : space.isBlank = true := isBlank_of_isGap ((isGap_eq _ _ _).trans hdrops)
      rw [dropYielding, if_pos hdrops, renderAll_cons, renderAll_cons]
      apply (hbefore session session' h).andThen
      intro reached reached' hreached
      -- The gap writes no ink, so without it the run has come just as far.
      have hdone := (hspace reached reached' hreached).trans
        (sameInk_done_of_isBlank hblank reached')
      rw [renderAll_cons]
      apply hdone.andThen
      intro behind behind' hbehind
      exact ih hrest hbehind
  | case2 before space next rest hkeeps ih =>
      rcases hnodes with _ | ⟨hbefore, hrest⟩
      rw [dropYielding, if_neg hkeeps, renderAll_cons, renderAll_cons]
      apply (hbefore session session' h).andThen
      intro reached reached' hreached
      exact ih hrest hreached
  | case3 others hshort =>
      rw [dropYielding]
      · clear hshort
        induction hnodes generalizing session session' with
        | nil =>
            rw [renderAll, renderAll]
            exact h.done
        | cons hnode _ ih =>
            rw [renderAll_cons, renderAll_cons]
            apply (hnode session session' h).andThen
            intro reached reached' hreached
            exact ih hreached
      · exact hshort

section

variable (location : Location)

theorem sameInk_text (content : String) :
    SameInk (text content location) (text content location) := by
  intro session session' h
  rw [render, render]
  exact (h.write content).done

theorem sameInk_output (expr : Expr) : SameInk (output expr location) (output expr location) := by
  intro session session' h
  rw [render, render, h.context_eq]
  split
  · exact h.fail _
  · split
    · exact h.done
    · exact h.fail _
  · exact (h.writeValue _).done

theorem sameInk_set (name : String) (expr : Expr) :
    SameInk (set name expr location) (set name expr location) := by
  intro session session' h
  rw [render, render, h.context_eq]
  split
  · exact h.fail _
  · exact (h.assign name _).done

theorem sameInk_comment : SameInk (comment location) (comment location) := by
  intro session session' h
  rw [render, render]
  exact h.done

theorem sameInk_macroCall (name : String) (args : List Expr) :
    SameInk (macroCall name args location) (macroCall name args location) := by
  intro session session' h
  rw [render, render]
  exact h.fail _

end

mutual

theorem sameInk_tidy : ∀ node : Node, node.SameInk node.tidy
  | .sequence children _ => by
      intro session session' h
      rw [tidy, render, render]
      exact sameInk_renderAll (sameInk_tidyAll children) h
  | .text content location => sameInk_text location content
  | .output expr location => sameInk_output location expr
  | .conditional condition thenBranch elseBranch _ => by
      intro session session' h
      rw [tidy, render, render, h.context_eq]
      split
      · exact h.fail _
      · exact sameInk_tidy thenBranch session session' h
      · exact sameInk_tidy elseBranch session session' h
  | .forEach name collection body _ => by
      intro session session' h
      rw [tidy, render, render, h.context_eq]
      split
      · exact h.fail _
      · split
        · exact h.fail _
        · exact sameInk_renderEach (sameInk_tidy body) _ 0 h
  | .set name expr location => sameInk_set location name expr
  | .comment location => sameInk_comment location
  | .macroCall name args location => sameInk_macroCall location name args

theorem sameInk_tidyAll : ∀ nodes : List Node, List.Forall₂ SameInk nodes (tidyAll nodes)
  | [] => .nil
  | node :: rest => .cons (sameInk_tidy node) (sameInk_tidyAll rest)

end

end Node

/-!
## Templates
-/

namespace Template

open Scan

theorem exists_raw_of_parse {resource text : String} {template : Template}
    (h : parse resource text = .ok template) :
    ∃ raw, readNodes resource text = .ok raw
      ∧ template.nodes = Node.withoutGaps (Node.tidyAll raw)
      ∧ ∀ session, (({ template with nodes := raw } : Template).root.render session).SameInk
          (template.root.render session) := by
  rcases exists_tidied_of_parse h with ⟨raw, hraw, _, rfl⟩
  refine ⟨raw, hraw, Node.dropYielding_eq_withoutGaps _, ?_⟩
  intro session
  exact Node.sameInk_tidy (.sequence raw ⟨resource, 1⟩) session session (.refl session)

/-- Whatever part of a text the parser reads, the nodes it gathers are all nodes but the gaps.  Only
blank texts are lost, at most one for each assignment, and no gap is left.  The whole parser gives
what the readers give, and its template differs from the one with all nodes only in the blanks that
are put out. -/
theorem closes_gaps :
    (∀ construct fuel s s' part, gather construct fuel [] s = .ok (part, s') ↔
      construct.accepts part.stop = true
        ∧ ∃ raw, Produces fuel s raw part.stop part.location s'
          ∧ part.nodes = Node.withoutGaps raw)
    ∧ (∀ raw : List Node,
        (Node.withoutGaps raw).filter (fun node => !node.isBlank)
            = raw.filter (fun node => !node.isBlank)
          ∧ raw.length ≤ (Node.withoutGaps raw).length + raw.countP Node.isSet
          ∧ ∀ i, Node.gapAt (Node.withoutGaps raw) i = false)
    ∧ (∀ fuel resource text, Cursor.newlines text.toList < UInt32.size - 1 ->
        4 * text.length + 10 ≤ fuel ->
        gatherParse fuel resource text = (parse resource text).mapError .rejected
          ∧ ∀ raw, readNodes resource text = .ok raw ->
            ∃ location s',
              Produces fuel (.ofText resource text) (Node.tidyAll raw) .endOfFile location s')
    ∧ ∀ resource text template, parse resource text = .ok template ->
        ∃ raw, readNodes resource text = .ok raw
          ∧ template.nodes = Node.withoutGaps (Node.tidyAll raw)
          ∧ ∀ session, (({ template with nodes := raw } : Template).root.render session).SameInk
              (template.root.render session) := by
  constructor
  · intro construct fuel s s' part
    exact gather_eq_ok_iff part
  constructor
  · intro raw
    rw [← Node.dropYielding_eq_withoutGaps]
    constructor
    · exact Node.filter_dropYielding raw
    constructor
    · have htail := (List.tail_sublist raw).countP_le (p := Node.isSet)
      apply Nat.le_trans (Node.length_le_length_dropYielding raw)
      exact Nat.add_le_add_left htail _
    · exact Node.gapAt_dropYielding raw
  constructor
  · intro fuel resource text hlines hfuel
    constructor
    · exact gatherParse_eq resource text hlines hfuel
    · intro raw hraw
      exact produces_of_readNodes resource text hlines hfuel hraw
  · intro resource text template h
    exact exists_raw_of_parse h

/-- There are gaps behind a reference in a branch, and behind a comment on the top level.  The blank
text between the comments is none. -/
theorem closes_gaps_nested :
    ∃ template raw, parse "t" "#if($a)$a #set($b = $a)#end#**# #**#\n#set($c = 1)$c" = .ok template
      ∧ readNodes "t" "#if($a)$a #set($b = $a)#end#**# #**#\n#set($c = 1)$c" = .ok raw
      ∧ template.nodes = Node.withoutGaps (Node.tidyAll raw)
      ∧ raw.length = 7 ∧ template.nodes.length = 6
      ∧ (∀ session, (({ template with nodes := raw } : Template).root.render session).SameInk
          (template.root.render session))
      ∧ gatherParse 300 "t" "#if($a)$a #set($b = $a)#end#**# #**#\n#set($c = 1)$c"
        = .ok template := by
  have hok : (parse "t" "#if($a)$a #set($b = $a)#end#**# #**#\n#set($c = 1)$c").isOk = true := by
    decide +kernel
  have hkept : ((parse "t" "#if($a)$a #set($b = $a)#end#**# #**#\n#set($c = 1)$c").map
      Template.length).toOption = some 6 := by
    decide +kernel
  have hall : ((readNodes "t" "#if($a)$a #set($b = $a)#end#**# #**#\n#set($c = 1)$c").map
      List.length).toOption = some 7 := by
    decide +kernel
  rcases exists_of_isOk hok with ⟨template, htemplate⟩
  rcases closes_gaps.2.2.2 "t" _ template htemplate with ⟨raw, hraw, hnodes, hrender⟩
  rw [htemplate] at hkept
  rw [hraw] at hall
  have hparse := (closes_gaps.2.2.1 300 "t"
    "#if($a)$a #set($b = $a)#end#**# #**#\n#set($c = 1)$c" (by decide) (by decide)).1
  rw [htemplate] at hparse
  exact ⟨template, raw, htemplate, hraw, hnodes, Option.some.inj hall, Option.some.inj hkept,
    hrender, hparse⟩

end Template

end Stencil
