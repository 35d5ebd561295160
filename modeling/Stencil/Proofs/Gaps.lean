import Stencil.Proofs.Composition

/-!
# Gaps in front of assignments

A gap is a blank text in front of an assignment that the output can do without.  Whether a text is
one can be told from its two neighbours.  The parser closes gaps while it collects nodes: an
assignment takes the place of the last node if that is a gap.  The list it looks at has then lost
some of its nodes already.  The result is still the list of all nodes without the gaps that this
list has, since a node that stands next to a gap is itself none.
-/

namespace Stencil

theorem Text.all_isHorizontalBlank (cs : List Char) :
    cs.all isHorizontalBlank = (cs.all isBlank && !cs.any fun c => c == '\n' || c == '\r') := by
  induction cs with
  | nil => rfl
  | cons c rest ih =>
      rw [List.all_cons, List.all_cons, List.any_cons, ih, isHorizontalBlank, bne, bne]
      cases isBlank c
      · rfl
      · cases c == '\n'
        · cases c == '\r'
          · rfl
          · exact (Bool.and_false _).symm
        · exact (Bool.and_false _).symm

namespace Node

/-!
## Gaps and their neighbours
-/

def breaksLine : Node → Bool
  | text content _ => content.toList.any fun c => c == '\n' || c == '\r'
  | _ => false

/-- Whether a node between two others is a gap.  A reference and the blank text behind it have to
stand on one line. -/
def isGap (before space next : Node) : Bool :=
  space.isBlank && next.isSet
    && (before.isComment || before.isDirective || before.isReference && !space.breaksLine)

theorem isHorizontalBlank_eq (node : Node) :
    node.isHorizontalBlank = (node.isBlank && !node.breaksLine) := by
  cases node with
  | text content location => exact Text.all_isHorizontalBlank content.toList
  | _ => rfl

theorem isGap_eq (before space next : Node) :
    isGap before space next = (next.isSet && yields before space) := by
  rw [isGap, yields, isHorizontalBlank_eq, Bool.and_comm space.isBlank, Bool.and_assoc]
  apply congrArg (next.isSet && ·)
  by_cases href : before.isReference = true
  · have hcomment : before.isComment = false := by
      cases before <;> first | rfl | cases href
    have hdirective : before.isDirective = false := by
      cases before <;> first | rfl | cases href
    rw [if_pos href, href, hcomment, hdirective]
    rfl
  · rw [if_neg href, Bool.eq_false_iff.mpr href, Bool.false_and, Bool.or_false, Bool.and_comm]

theorem isBlank_of_isSet {node : Node} (h : node.isSet = true) : node.isBlank = false := by
  cases node <;> first | rfl | cases h

theorem isGap_of_isBlank {space : Node} (h : space.isBlank = false) (before next : Node) :
    isGap before space next = false := by
  rw [isGap, h]
  rfl

theorem isBlank_of_isGap {before space next : Node} (h : isGap before space next = true) :
    space.isBlank = true := by
  rw [isGap, Bool.and_eq_true, Bool.and_eq_true] at h
  exact h.1.1

/-!
## All gaps of a list
-/

def gapAt (nodes : List Node) : Nat → Bool
  | 0 => false
  | i + 1 =>
      match nodes[i]?, nodes[i + 1]?, nodes[i + 2]? with
      | some before, some space, some next => isGap before space next
      | _, _, _ => false

def withoutGaps (nodes : List Node) : List Node :=
  (nodes.zipIdx.filter fun place => !gapAt nodes place.2).map Prod.fst

def withoutGapsBehind (before : Node) (nodes : List Node) : List Node :=
  (nodes.zipIdx.filter fun place => !gapAt (before :: nodes) (place.2 + 1)).map Prod.fst

theorem gapAt_one (before space : Node) (nodes : List Node) :
    gapAt (before :: space :: nodes) 1 = nodes.head?.any (isGap before space) := by
  cases nodes <;> rfl

theorem withoutGaps_cons (before : Node) (nodes : List Node) :
    withoutGaps (before :: nodes) = before :: withoutGapsBehind before nodes := by
  rw [withoutGaps, withoutGapsBehind, List.zipIdx_cons', List.filter_cons, if_pos (by rfl),
    List.map_cons, List.filter_map, List.map_map]
  rfl

theorem withoutGapsBehind_cons (before space : Node) (nodes : List Node) :
    withoutGapsBehind before (space :: nodes)
      = (if gapAt (before :: space :: nodes) 1 then [] else [space])
        ++ withoutGapsBehind space nodes := by
  rw [withoutGapsBehind, withoutGapsBehind, List.zipIdx_cons', List.filter_cons]
  cases gapAt (before :: space :: nodes) 1 with
  | true =>
      rw [Bool.not_true, if_neg Bool.false_ne_true, if_pos rfl, List.filter_map, List.map_map]
      rfl
  | false =>
      rw [Bool.not_false, if_pos rfl, if_neg Bool.false_ne_true, List.map_cons, List.filter_map,
        List.map_map]
      rfl

/-- Dropping the gaps one after another drops the gaps of the list as it was. -/
theorem dropYielding_eq_withoutGaps (nodes : List Node) :
    dropYielding nodes = withoutGaps nodes := by
  induction nodes using dropYielding.induct with
  | case1 before space next rest hdrops ih =>
      rw [dropYielding, if_pos hdrops, ih, withoutGaps_cons, withoutGaps_cons,
        withoutGapsBehind_cons before, withoutGapsBehind_cons space, gapAt_one, gapAt_one]
      have hgap : isGap before space next = true := (isGap_eq _ _ _).trans hdrops
      -- The assignment is no gap, so it does not matter which node is taken to stand before it.
      have hnext : next.isBlank = false := isBlank_of_isSet (Bool.and_eq_true_iff.mp hdrops).1
      have hkept : rest.head?.any (isGap space next) = false := by
        cases rest with
        | nil => rfl
        | cons first others => exact isGap_of_isBlank hnext space first
      rw [List.head?_cons, Option.any_some, hgap, if_pos rfl, hkept, if_neg Bool.false_ne_true]
      rfl
  | case2 before space next rest hkeeps ih =>
      have hgap : isGap before space next = false :=
        (isGap_eq _ _ _).trans (Bool.eq_false_iff.mpr hkeeps)
      rw [dropYielding, if_neg hkeeps, ih, withoutGaps_cons, withoutGaps_cons,
        withoutGapsBehind_cons before, gapAt_one, List.head?_cons, Option.any_some, hgap,
        if_neg Bool.false_ne_true]
      rfl
  | case3 nodes hshort =>
      rcases nodes with _ | ⟨before, _ | ⟨space, _ | ⟨next, rest⟩⟩⟩
      · rfl
      · rfl
      · rfl
      · exact absurd rfl (hshort before space next rest)

/-- The assignment that closes the first gap stands in front of the second one. -/
example (place : Location) (value : Expr) :
    withoutGaps [.comment place, .text " " place, .set "a" value place, .text "\n" place,
        .set "b" value place]
      = [.comment place, .set "a" value place, .set "b" value place] := by
  rfl

/-!
## What the gaps leave
-/

theorem filter_dropYielding (nodes : List Node) :
    (dropYielding nodes).filter (fun node => !node.isBlank)
      = nodes.filter fun node => !node.isBlank := by
  induction nodes using dropYielding.induct with
  | case1 before space next rest hdrops ih =>
      have hspace : space.isBlank = true := isBlank_of_isGap ((isGap_eq _ _ _).trans hdrops)
      have hdropped : ¬ (!space.isBlank) = true := by
        rw [hspace]
        exact Bool.false_ne_true
      rw [dropYielding, if_pos hdrops, List.filter_cons, ih]
      simp only [List.filter_cons, if_neg hdropped]
  | case2 before space next rest hkeeps ih =>
      rw [dropYielding, if_neg hkeeps, List.filter_cons, ih]
      simp only [List.filter_cons]
  | case3 nodes hshort =>
      rw [dropYielding]
      exact hshort

/-- Each gap has an assignment of its own behind it. -/
theorem length_le_length_dropYielding (nodes : List Node) :
    nodes.length ≤ (dropYielding nodes).length + nodes.tail.countP isSet := by
  induction nodes using dropYielding.induct with
  | case1 before space next rest hdrops ih =>
      have hset : next.isSet = true := (Bool.and_eq_true_iff.mp hdrops).1
      have hmore : rest.countP isSet + 1 ≤ (space :: next :: rest).countP isSet := by
        rw [← List.countP_cons_of_pos hset]
        exact (List.sublist_cons_self space (next :: rest)).countP_le
      rw [dropYielding, if_pos hdrops]
      simp only [List.length_cons, List.tail_cons] at ih ⊢
      omega
  | case2 before space next rest hkeeps ih =>
      have hmore : (next :: rest).countP isSet ≤ (space :: next :: rest).countP isSet :=
        (List.sublist_cons_self space (next :: rest)).countP_le
      rw [dropYielding, if_neg hkeeps]
      simp only [List.length_cons, List.tail_cons] at ih ⊢
      omega
  | case3 nodes hshort =>
      rw [dropYielding]
      · exact Nat.le_add_right _ _
      · exact hshort

theorem dropYielding_cons_of_isBlank {space : Node} (h : space.isBlank = true)
    (nodes : List Node) : dropYielding (space :: nodes) = space :: dropYielding nodes := by
  cases space with
  | text content location => exact dropYielding_text_cons content location nodes
  | _ => cases h

theorem gapAt_nil (i : Nat) : gapAt [] i = false := by
  cases i with
  | zero => rfl
  | succ i => rfl

theorem gapAt_cons {before : Node} {nodes : List Node} (hfirst : gapAt (before :: nodes) 1 = false)
    (hrest : ∀ i, gapAt nodes i = false) (i : Nat) : gapAt (before :: nodes) i = false := by
  cases i with
  | zero => rfl
  | succ i =>
      cases i with
      | zero => exact hfirst
      | succ i => exact hrest (i + 1)

/-- No gap comes into being where another one was. -/
theorem gapAt_dropYielding (nodes : List Node) (i : Nat) :
    gapAt (dropYielding nodes) i = false := by
  induction nodes using dropYielding.induct generalizing i with
  | case1 before space next rest hdrops ih =>
      have hnext : next.isBlank = false := isBlank_of_isSet (Bool.and_eq_true_iff.mp hdrops).1
      rw [dropYielding, if_pos hdrops]
      apply gapAt_cons
      · rcases exists_dropYielding_cons next rest with ⟨others, hothers⟩
        rw [hothers, gapAt_one]
        cases others with
        | nil => rfl
        | cons first more => exact isGap_of_isBlank hnext before first
      · exact ih
  | case2 before space next rest hkeeps ih =>
      have hgap : isGap before space next = false :=
        (isGap_eq _ _ _).trans (Bool.eq_false_iff.mpr hkeeps)
      rw [dropYielding, if_neg hkeeps]
      apply gapAt_cons
      -- Only behind a blank text is the next node sure to stay where it is.
      · by_cases hspace : space.isBlank = true
        · rcases exists_dropYielding_cons next rest with ⟨others, hothers⟩
          rw [dropYielding_cons_of_isBlank hspace, hothers]
          exact hgap
        · rcases exists_dropYielding_cons space (next :: rest) with ⟨others, hothers⟩
          rw [hothers, gapAt_one]
          cases others with
          | nil => rfl
          | cons first more => exact isGap_of_isBlank (Bool.eq_false_iff.mpr hspace) before first
      · exact ih
  | case3 nodes hshort =>
      rcases nodes with _ | ⟨before, _ | ⟨space, _ | ⟨next, rest⟩⟩⟩
      · exact gapAt_nil i
      · exact gapAt_cons rfl gapAt_nil i
      · exact gapAt_cons rfl (gapAt_cons rfl gapAt_nil) i
      · exact absurd rfl (hshort before space next rest)

/-!
## Closing gaps one at a time
-/

def yieldsToSet (nodes : List Node) : Bool :=
  match nodes.reverse with
  | space :: before :: _ => yields before space
  | _ => false

/-- Collects one more node.  An assignment takes the place of a gap. -/
def push (nodes : List Node) (node : Node) : List Node :=
  if node.isSet && yieldsToSet nodes then nodes.dropLast ++ [node] else nodes ++ [node]

theorem yieldsToSet_cons {nodes : List Node} (h : 2 ≤ nodes.length) (first : Node) :
    yieldsToSet (first :: nodes) = yieldsToSet nodes := by
  rw [← List.length_reverse] at h
  rw [yieldsToSet, yieldsToSet, List.reverse_cons]
  generalize nodes.reverse = backward at h ⊢
  rcases backward with _ | ⟨space, _ | ⟨before, rest⟩⟩
  · cases h
  · exact absurd h (Nat.lt_irrefl 1)
  · rfl

theorem push_cons {nodes : List Node} (h : 2 ≤ nodes.length) (first node : Node) :
    push (first :: nodes) node = first :: push nodes node := by
  have hne : nodes ≠ [] := List.ne_nil_of_length_pos (Nat.lt_of_lt_of_le Nat.two_pos h)
  rw [push, push, yieldsToSet_cons h, List.dropLast_cons_of_ne_nil hne]
  split
  · rfl
  · rfl

theorem push_pair_of_isSet {last : Node} (h : last.isSet = true) (first node : Node) :
    push [first, last] node = first :: push [last] node := by
  have hkept : (node.isSet && yields first last) = false := by
    rw [← isGap_eq]
    exact isGap_of_isBlank (isBlank_of_isSet h) first node
  have hpair : (node.isSet && yieldsToSet [first, last]) = false := hkept
  have hsingle : (node.isSet && yieldsToSet [last]) = false := Bool.and_false _
  rw [push, push, hpair, hsingle, if_neg Bool.false_ne_true, if_neg Bool.false_ne_true]
  rfl

theorem two_le_length_dropYielding (first second : Node) (nodes : List Node) :
    2 ≤ (dropYielding (first :: second :: nodes)).length := by
  have hrest : ∀ node others, 1 ≤ (dropYielding (node :: others)).length := by
    intro node others
    rcases exists_dropYielding_cons node others with ⟨kept, hkept⟩
    rw [hkept]
    exact Nat.le_add_left _ _
  cases nodes with
  | nil => exact Nat.le_refl _
  | cons next rest =>
      rw [dropYielding]
      split
      · exact Nat.succ_le_succ (hrest next rest)
      · exact Nat.succ_le_succ (hrest second (next :: rest))

/-- One more node meets the list with its gaps closed as it would meet the list of all nodes. -/
theorem dropYielding_concat (nodes : List Node) (node : Node) :
    dropYielding (nodes ++ [node]) = push (dropYielding nodes) node := by
  induction nodes using dropYielding.induct with
  | case1 before space next rest hdrops ih =>
      have hset : next.isSet = true := (Bool.and_eq_true_iff.mp hdrops).1
      have hstep : dropYielding (before :: space :: next :: rest ++ [node])
          = before :: dropYielding (next :: rest ++ [node]) := if_pos hdrops
      rw [hstep, ih, dropYielding, if_pos hdrops]
      cases rest with
      | nil => exact (push_pair_of_isSet hset before node).symm
      | cons first others => exact (push_cons (two_le_length_dropYielding _ _ _) _ _).symm
  | case2 before space next rest hkeeps ih =>
      have hstep : dropYielding (before :: space :: next :: rest ++ [node])
          = before :: dropYielding (space :: next :: rest ++ [node]) := if_neg hkeeps
      rw [hstep, ih, dropYielding, if_neg hkeeps]
      exact (push_cons (two_le_length_dropYielding _ _ _) _ _).symm
  | case3 nodes hshort =>
      rcases nodes with _ | ⟨before, _ | ⟨space, _ | ⟨next, rest⟩⟩⟩
      · exact (if_neg (Bool.eq_false_iff.mp (Bool.and_false _))).symm
      · exact (if_neg (Bool.eq_false_iff.mp (Bool.and_false _))).symm
      · rfl
      · exact absurd rfl (hshort before space next rest)

theorem foldl_push (front nodes : List Node) :
    nodes.foldl push (dropYielding front) = dropYielding (front ++ nodes) := by
  induction nodes generalizing front with
  | nil => rw [List.append_nil, List.foldl_nil]
  | cons node rest ih => rw [List.foldl_cons, ← dropYielding_concat, ih, List.append_assoc,
      List.singleton_append]

end Node

end Stencil
