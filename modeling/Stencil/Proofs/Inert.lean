import Stencil.Proofs.NodeForms
import Stencil.Proofs.Outline
import Stencil.Rendering

/-!
# Inert texts

A text in which nothing begins is read as text and rendered as it is.  In every other text something
is read that is no plain text, and then the texts of the nodes do not make up the whole.
-/

namespace Stencil

namespace Text

/-- Nothing begins anywhere in the text. -/
def Inert (cs : List Char) : Prop :=
  ∀ back, back <:+ cs -> ¬ Opens back

theorem Inert.of_suffix {cs back : List Char} (h : Inert cs) (hback : back <:+ cs) : Inert back :=
  fun inner hinner => h inner (hinner.trans hback)

theorem inert_of_inertBefore {cs : List Char} (h : InertBefore cs []) : Inert cs := by
  intro back hback hopens
  refine h back hback ?_ ?_
  · rintro rfl
    cases hopens
  · rw [List.append_nil]
    exact hopens

theorem InertBefore.append {cs ds after : List Char} (hcs : InertBefore cs (ds ++ after))
    (hds : InertBefore ds after) : InertBefore (cs ++ ds) after := by
  intro back hback hne
  rcases List.suffix_or_suffix_of_suffix hback (List.suffix_append cs ds) with hshort | ⟨front, rfl⟩
  · exact hds back hshort hne
  · cases front with
    | nil => exact hds ds (List.suffix_refl ds) hne
    | cons x front =>
        rcases hback with ⟨lead, heq⟩
        rw [← List.append_assoc] at heq
        rw [List.append_assoc]
        exact hcs (x :: front) ⟨lead, List.append_cancel_right heq⟩ (List.cons_ne_nil _ _)

end Text

namespace Node

def characters : Node → List Char
  | text content _ => content.toList
  | _ => []

/-!
## Texts among the nodes
-/

variable {nodes : List Node}

theorem outlineAll_eq_nil_iff :
    outlineAll nodes = [] ↔ ∀ node ∈ nodes, node.isText = true := by
  induction nodes with
  | nil => exact ⟨fun _ => List.forall_mem_nil _, fun _ => rfl⟩
  | cons node rest ih =>
      rw [outlineAll, List.forall_mem_cons]
      split
      · next htext => rw [ih, and_iff_right htext]
      · next hother => exact ⟨fun h => (List.cons_ne_nil _ _ h).elim, fun h => absurd h.1 hother⟩

theorem tidyAll_of_isText (h : ∀ node ∈ nodes, node.isText = true) : tidyAll nodes = nodes := by
  induction nodes with
  | nil => rfl
  | cons node rest ih =>
      rcases List.forall_mem_cons.mp h with ⟨hnode, hrest⟩
      rw [tidyAll, ih hrest]
      cases node with
      | text content location => rfl
      | _ => cases hnode

theorem dropYielding_of_isText (h : ∀ node ∈ nodes, node.isText = true) :
    dropYielding nodes = nodes := by
  induction nodes using dropYielding.induct with
  | case1 before space next rest hdrops ih =>
      have hnext := h next (by simp)
      cases next with
      | set name value location => cases hnext
      | _ => cases hdrops
  | case2 before space next rest hkeeps ih =>
      rw [dropYielding, if_neg hkeeps, ih (List.forall_mem_cons.mp h).2]
  | case3 nodes hshort =>
      rw [dropYielding]
      exact hshort

/-- The rule for blank text changes nothing where there are only texts. -/
theorem tidied_of_isText (h : ∀ node ∈ nodes, node.isText = true) :
    dropYielding (tidyAll nodes) = nodes := by
  rw [tidyAll_of_isText h, dropYielding_of_isText h]

theorem isText_of_tidied (h : ∀ node ∈ dropYielding (tidyAll nodes), node.isText = true) :
    ∀ node ∈ nodes, node.isText = true := by
  rw [← outlineAll_eq_nil_iff] at h ⊢
  rw [← outlineAll_tidyAll, ← outlineAll_dropYielding]
  exact h

/-!
## Texts that make up the whole
-/

theorem Written.inertBefore {node : Node} {segment after : List Char}
    (h : node.Written segment after) (htext : node.isText = true) :
    node.characters.length ≤ segment.length
      ∧ (node.characters.length = segment.length -> Text.InertBefore segment after) := by
  cases h with
  | text hne hinert => exact ⟨Nat.le_refl _, fun _ => hinert⟩
  | @quotedBlock content location after hinside =>
      have hlength : content.toList.length
          < ('#' :: '[' :: '[' :: (content.toList ++ [']', ']', '#'])).length := by
        simp only [List.length_cons, List.length_append]
        omega
      exact ⟨Nat.le_of_lt hlength, fun heq => absurd heq (Nat.ne_of_lt hlength)⟩
  | conditional _ h => cases h <;> cases htext
  | _ => cases htext

theorem Segments.inertBefore : ∀ {nodes : List Node} {segments : List (List Char)}
    {after : List Char}, Segments nodes segments after -> (∀ node ∈ nodes, node.isText = true) ->
    (nodes.flatMap characters).length ≤ segments.flatten.length
      ∧ ((nodes.flatMap characters).length = segments.flatten.length ->
        Text.InertBefore segments.flatten after)
  | _, _, _, .nil, _ => by
      refine ⟨Nat.le_refl _, fun _ back hback hne => ?_⟩
      exact absurd (List.suffix_nil.mp hback) hne
  | _, _, _, .cons _ hnode hrest, htext => by
      rcases List.forall_mem_cons.mp htext with ⟨hfirst, htext⟩
      rcases hnode.inertBefore hfirst with ⟨hle, hinert⟩
      rcases Segments.inertBefore hrest htext with ⟨hle', hinert'⟩
      rw [List.flatMap_cons, List.flatten_cons, List.length_append, List.length_append]
      refine ⟨Nat.add_le_add hle hle', fun heq => ?_⟩
      exact (hinert (by omega)).append (hinert' (by omega))

/-!
## Reading inert texts
-/

theorem readBody_of_inert (r : String) (cs : List Char) (l : Nat) (h : Text.Inert cs) :
    ∃ (body : Body .outside) (rest : Cursor),
      (readBody .outside ⟨r, cs, l⟩).outcome = .ok (body, rest)
      ∧ (∀ node ∈ body.nodes, node.isText = true) ∧ body.nodes.flatMap characters = cs := by
  match cs with
  | [] => exact ⟨_, _, outcome_body_end rfl, List.forall_mem_nil _, rfl⟩
  | x :: cs =>
      have hback : cs.dropWhile Text.isPlain <:+ x :: cs :=
        (List.dropWhile_suffix _).trans (List.suffix_cons x cs)
      have hpiece := readsPiece_inert (r := r) (l := l) (h (x :: cs) (List.suffix_refl _))
      rcases readBody_of_inert r (cs.dropWhile Text.isPlain) _ (h.of_suffix hback) with
        ⟨body, rest, hbody, htext, hcharacters⟩
      let text := Node.text (String.ofList (x :: cs.takeWhile Text.isPlain)) ⟨r, l⟩
      refine ⟨body.cons text, rest, ?_, List.forall_mem_cons.mpr ⟨rfl, htext⟩, ?_⟩
      · rw [outcome_body_node hpiece, Cursor.dropWhile, hbody]
        rfl
      · rw [Body.cons, List.flatMap_cons, hcharacters, characters, String.toList_ofList,
          List.cons_append, List.takeWhile_append_dropWhile]
termination_by cs.length
decreasing_by
  exact Nat.lt_succ_of_le (List.dropWhile_sublist _).length_le

/-!
## Rendering texts
-/

theorem renderAll_of_isText (h : ∀ node ∈ nodes, node.isText = true) (session : Session) :
    renderAll nodes session
      = (session.write (String.ofList (nodes.flatMap characters))).done := by
  induction nodes generalizing session with
  | nil =>
      rw [renderAll, List.flatMap_nil, Session.write, String.ofList_nil, String.append_empty]
  | cons node rest ih =>
      rcases List.forall_mem_cons.mp h with ⟨hnode, hrest⟩
      cases node with
      | text content location =>
          rw [renderAll, render]
          refine (ih hrest _).trans ?_
          rw [List.flatMap_cons, String.ofList_append, characters, String.ofList_toList,
            Session.write, Session.write, Session.write, String.append_assoc]
      | _ => cases hnode

end Node

namespace Template

/-- A text is parsed into texts that make it up if and only if nothing begins in it, and then it is
rendered as it is. -/
theorem inert_iff (resource text : String) :
    ((∃ template, parse resource text = .ok template
        ∧ (∀ node ∈ template.nodes, node.isText = true)
        ∧ template.nodes.flatMap Node.characters = text.toList)
      ↔ Text.Inert text.toList)
    ∧ (Text.Inert text.toList ->
      (∀ bindings, render resource text bindings = .ok text)
      ∧ ∃ template, parse resource text = .ok template
        ∧ ∀ session, template.root.render session = (session.write text).done) := by
  have hread : Text.Inert text.toList -> ∃ template, parse resource text = .ok template
      ∧ (∀ node ∈ template.nodes, node.isText = true)
      ∧ template.nodes.flatMap Node.characters = text.toList := by
    intro hinert
    rcases Node.readBody_of_inert resource text.toList 1 hinert with
      ⟨body, rest, hbody, htext, hcharacters⟩
    have hcalls : Node.callsAll (Node.outlineAll body.nodes) = [] := by
      rw [Node.outlineAll_eq_nil_iff.mpr htext]
      rfl
    have hmacros := (checkMacros_ofNodes resource hcalls).1
    refine ⟨ofNodes resource body.nodes, (parse_of_body hbody).trans hmacros, ?_⟩
    rw [ofNodes, Node.tidied_of_isText htext]
    exact ⟨htext, hcharacters⟩
  refine ⟨⟨?_, hread⟩, fun hinert => ?_⟩
  · rintro ⟨template, hparse, htext, hcharacters⟩
    rcases parse_segments hparse with ⟨nodes, segments, _, htidied, hflatten, hsegments⟩
    rw [htidied] at htext hcharacters
    have hraw := Node.isText_of_tidied htext
    rw [Node.tidied_of_isText hraw, ← hflatten] at hcharacters
    have hinert := (hsegments.inertBefore hraw).2 (congrArg List.length hcharacters)
    rw [hflatten] at hinert
    exact Text.inert_of_inertBefore hinert
  · rcases hread hinert with ⟨template, hparse, htext, hcharacters⟩
    have hrender : ∀ session, template.root.render session = (session.write text).done := by
      intro session
      rw [root, Node.render, Node.renderAll_of_isText htext, hcharacters, String.ofList_toList]
    refine ⟨fun bindings => ?_, template, hparse, hrender⟩
    rw [render, hparse]
    dsimp only
    rw [evaluate, hrender]
    exact congrArg Except.ok String.empty_append

theorem inert_iff_signs :
    Text.Inert "$!5#[".toList
      ∧ (∃ template, parse "t" "$!5#[" = .ok template
        ∧ (∀ node ∈ template.nodes, node.isText = true)
        ∧ template.nodes.flatMap Node.characters = "$!5#[".toList)
      ∧ ∀ bindings, render "t" "$!5#[" bindings = .ok "$!5#[" := by
  have hinert : Text.Inert "$!5#[".toList := by
    intro back hback hopens
    have hcases : back = ['$', '!', '5', '#', '['] ∨ back = ['!', '5', '#', '[']
        ∨ back = ['5', '#', '['] ∨ back = ['#', '['] ∨ back = ['['] ∨ back = [] := by
      simpa [List.suffix_cons_iff] using hback
    rcases hcases with rfl | rfl | rfl | rfl | rfl | rfl
    · generalize heq : ['$', '!', '5', '#', '['] = cs at hopens
      cases hopens with
      | @reference opening x rest hopening hx =>
          simp only [Text.openings, List.mem_cons, List.not_mem_nil, or_false] at hopening
          rcases hopening with rfl | rfl | rfl | rfl <;> cases heq <;> cases hx
      | _ => cases heq
    · cases hopens
    · cases hopens
    · cases hopens with
      | letter hx => cases hx
    · cases hopens
    · cases hopens
  have hiff := inert_iff "t" "$!5#["
  exact ⟨hinert, hiff.1.mpr hinert, (hiff.2 hinert).1⟩

end Template

end Stencil
