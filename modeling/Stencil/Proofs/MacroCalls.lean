import Stencil.Proofs.Composition
import Stencil.Proofs.Placement
import Stencil.Proofs.Violations

/-!
# Calls of macros in a text

No macro can be defined, so a template that calls one is refused, but only when the whole text has
been read without a violation of the grammar.  The calls of a tree are listed branch by branch, and
this is the order they have in the text: every call stands where it is located, further back than
the calls listed before it.  The first one in the list is the one that is blamed.
-/

namespace Stencil

/-!
## Sites of calls
-/

/-- A macro call in a text: what stands in front of it, and the name of the macro. -/
structure CallSite where
  front : List Char
  name : String

namespace CallSite

def call (resource : String) (site : CallSite) : Located String :=
  ⟨site.name, .behind resource site.front⟩

def StandsIn (text : List Char) (site : CallSite) : Prop :=
  ∃ args location segment after,
    text = site.front ++ (segment ++ after)
      ∧ (Node.macroCall site.name args location).Written segment after

end CallSite

/-- Each of the calls stands in the text, in their order, between the offsets `first` and `last`. -/
structure CallSites (resource : String) (text : List Char) (first last : Nat)
    (calls : List (Located String)) (sites : List CallSite) : Prop where
  calls_eq : sites.map (CallSite.call resource) = calls
  stands : ∀ site ∈ sites, site.StandsIn text
  increasing : sites.Pairwise fun site other => site.front.length < other.front.length
  bounds : ∀ site ∈ sites, first ≤ site.front.length ∧ site.front.length < last

namespace CallSites

variable {resource : String} {text : List Char} {first middle last : Nat}
  {calls others : List (Located String)} {sites sites' : List CallSite}

theorem nil : CallSites resource text first last [] [] :=
  ⟨rfl, List.forall_mem_nil _, .nil, List.forall_mem_nil _⟩

theorem mono {first' last' : Nat} (h : CallSites resource text first last calls sites)
    (hfirst : first' ≤ first) (hlast : last ≤ last') :
    CallSites resource text first' last' calls sites where
  calls_eq := h.calls_eq
  stands := h.stands
  increasing := h.increasing
  bounds := by
    intro site hsite
    rcases h.bounds site hsite with ⟨hle, hlt⟩
    exact ⟨Nat.le_trans hfirst hle, Nat.lt_of_lt_of_le hlt hlast⟩

theorem append (h : CallSites resource text first middle calls sites)
    (h' : CallSites resource text middle last others sites') (hfirst : first ≤ middle)
    (hlast : middle ≤ last) :
    CallSites resource text first last (calls ++ others) (sites ++ sites') where
  calls_eq := by rw [List.map_append, h.calls_eq, h'.calls_eq]
  stands := List.forall_mem_append.mpr ⟨h.stands, h'.stands⟩
  increasing := by
    refine List.pairwise_append.mpr ⟨h.increasing, h'.increasing, ?_⟩
    intro site hsite other hother
    exact Nat.lt_of_lt_of_le (h.bounds site hsite).2 (h'.bounds other hother).1
  bounds :=
    List.forall_mem_append.mpr
      ⟨(h.mono (Nat.le_refl _) hlast).bounds, (h'.mono hfirst (Nat.le_refl _)).bounds⟩

end CallSites

/-- The calls have sites in the part of the text that `segment` takes up behind `before`. -/
def HasSites (resource : String) (text before segment : List Char)
    (calls : List (Located String)) : Prop :=
  ∃ sites, CallSites resource text before.length (before ++ segment).length calls sites

namespace HasSites

variable {resource : String} {text before left right : List Char}
  {calls others : List (Located String)}

theorem nil (segment : List Char) : HasSites resource text before segment [] :=
  ⟨[], .nil⟩

theorem append (h : HasSites resource text before left calls)
    (h' : HasSites resource text (before ++ left) right others) :
    HasSites resource text before (left ++ right) (calls ++ others) := by
  rcases h with ⟨sites, h⟩
  rcases h' with ⟨sites', h'⟩
  refine ⟨sites ++ sites', h.append ?_ ?_ ?_⟩
  · rw [← List.append_assoc]
    exact h'
  · simp
  · simp

theorem behind (h : HasSites resource text (before ++ left) right calls) :
    HasSites resource text before (left ++ right) calls :=
  (nil left).append h

theorem inFront (h : HasSites resource text before left calls) :
    HasSites resource text before (left ++ right) calls := by
  have hwhole := h.append (nil right)
  rw [List.append_nil] at hwhole
  exact hwhole

end HasSites

/-!
## The calls of a tree in the text
-/

variable {resource : String} {text : List Char}

theorem Node.sites_leaf {node : Node} {before segment after : List Char}
    (hleaf : node.isLeaf = true) (hwritten : node.Written segment after)
    (hlocation : node.location = .behind resource before)
    (htext : text = before ++ (segment ++ after)) :
    HasSites resource text before segment node.calls := by
  cases node with
  | sequence | conditional | forEach => cases hleaf
  | text | output | set | comment => exact .nil segment
  | macroCall name args location =>
      have hplace : location = .behind resource before := hlocation
      have hnonempty : 0 < segment.length := by
        cases hwritten with
        | macroCall =>
            simp only [List.length_append, List.length_cons]
            omega
        | conditional _ h => cases h
      refine ⟨[⟨before, name⟩], ?_, ?_, List.pairwise_singleton _ _, ?_⟩
      · rw [hplace]
        rfl
      · exact List.forall_mem_singleton.mpr ⟨args, location, segment, after, htext, hwritten⟩
      · refine List.forall_mem_singleton.mpr ⟨Nat.le_refl _, ?_⟩
        rw [List.length_append]
        exact Nat.lt_add_of_pos_right hnonempty

mutual

theorem Node.Placed.sites : ∀ {node : Node} {before segment after : List Char},
    node.Placed resource before segment after -> text = before ++ (segment ++ after) ->
    HasSites resource text before segment node.calls
  | _, _, _, _, .leaf hleaf hwritten hlocation, htext =>
      sites_leaf hleaf hwritten hlocation htext
  | _, _, _, _, .conditional _ h, htext =>
      (Node.PlacedConditional.sites h (by rw [htext]; simp)).behind
  | _, _, _, _, .forEach _ _ hbody, htext => by
      have h := (Node.PlacedBody.sites hbody (by rw [htext]; simp)).behind
      rw [List.append_assoc] at h
      exact h

theorem Node.PlacedConditional.sites : ∀ {location : Location} {node : Node}
    {before segment after : List Char},
    node.PlacedConditional resource location before segment after ->
    text = before ++ (segment ++ after) -> HasSites resource text before segment node.calls
  | _, _, _, _, _, .closing _ hbody, htext => by
      have h := (Node.PlacedBody.sites hbody (by rw [htext]; simp)).behind
      rw [Node.calls, Node.calls, Node.calls, Node.callsAll, List.append_nil]
      exact h
  | _, _, _, _, _, .elseIf _ hbody hother, htext => by
      have h := (Node.PlacedBody.sites hbody (by rw [htext]; simp)).behind
      have hwhole := h.append (Node.PlacedConditional.sites hother (by rw [htext]; simp))
      rw [List.append_assoc] at hwhole
      exact hwhole
  | _, _, _, _, _, .elseBranch _ hbody hothers, htext => by
      have h := (Node.PlacedBody.sites hbody (by rw [htext]; simp)).behind
      have hwhole := h.append (Node.PlacedBody.sites hothers (by rw [htext]; simp))
      rw [List.append_assoc] at hwhole
      exact hwhole

theorem Node.PlacedBody.sites : ∀ {nodes : List Node} {stop : Stop} {location : Location}
    {before segment after : List Char},
    Node.PlacedBody resource before nodes stop location segment after ->
    text = before ++ (segment ++ after) ->
    HasSites resource text before segment (Node.callsAll nodes)
  | _, _, _, _, _, _, .mk hnodes _, htext =>
      (Node.PlacedAll.sites hnodes (by rw [htext]; simp)).inFront

theorem Node.PlacedAll.sites : ∀ {nodes : List Node} {before segment after : List Char},
    Node.PlacedAll resource before nodes segment after -> text = before ++ (segment ++ after) ->
    HasSites resource text before segment (Node.callsAll nodes)
  | _, _, _, _, .nil, _ => .nil []
  | _, _, _, _, .cons hnode hrest, htext =>
      (Node.Placed.sites hnode (by rw [htext]; simp)).append
        (Node.PlacedAll.sites hrest (by rw [htext]; simp))
  | _, _, _, _, .dropped _ _ hrest, htext =>
      (Node.PlacedAll.sites hrest (by rw [htext]; simp)).behind

end

/-!
## Whole texts
-/

namespace Template

theorem exists_sites {text : String} {nodes : List Node}
    (h : readNodes resource text = .ok nodes) :
    ∃ sites, CallSites resource text.toList 0 text.toList.length (Node.callsAll nodes) sites := by
  have hplaced := placedAll_of_readNodes h
  exact hplaced.sites (by rw [List.append_nil, List.nil_append])

/-- A violation of the grammar is reported wherever it is, and only without one the first call. -/
theorem parse_reports_first_call (resource text : String) :
    (∀ violation, readNodes resource text = .error violation ->
        violation.cause.isViolation = true ∧ parse resource text = .error violation)
      ∧ ∀ nodes, readNodes resource text = .ok nodes ->
        (ofNodes resource nodes).root.calls = Node.callsAll nodes
          ∧ ∃ sites,
            CallSites resource text.toList 0 text.toList.length (Node.callsAll nodes) sites
              ∧ parse resource text
                = match sites with
                  | [] => .ok (ofNodes resource nodes)
                  | site :: _ =>
                      .error ⟨.undefinedMacro site.name, .behind resource site.front⟩ := by
  constructor
  · intro violation h
    exact ⟨complains_nodes resource text violation h, parse_of_readNodes_error h⟩
  · intro nodes h
    rcases exists_sites h with ⟨sites, hsites⟩
    refine ⟨calls_ofNodes resource nodes, sites, hsites, ?_⟩
    rw [parse_eq_checkMacros h, checkMacros_ofNodes_eq, ← hsites.calls_eq]
    cases sites with
    | nil => rfl
    | cons site rest => rfl

/-- A stray `#end` wins over the call in front of it; the call in an `#elseif` branch inside a loop
stands in front of the one behind the loop. -/
theorem parse_reports_first_call_nested :
    (∃ violation, readNodes "t" "#a()#end" = .error violation
        ∧ violation.cause.isViolation = true ∧ parse "t" "#a()#end" = .error violation)
      ∧ ∃ nodes site rest,
        readNodes "t" "#foreach ($x in [])#if(true)#elseif(true)\n#b()#end#end#a()" = .ok nodes
          ∧ (site :: rest).map (CallSite.call "t") = [⟨"b", ⟨"t", 2⟩⟩, ⟨"a", ⟨"t", 2⟩⟩]
          ∧ parse "t" "#foreach ($x in [])#if(true)#elseif(true)\n#b()#end#end#a()"
            = .error ⟨.undefinedMacro site.name, .behind "t" site.front⟩ := by
  have hstray : (readNodes "t" "#a()#end").isOk = false := by decide +kernel
  have hcalls : (readNodes "t"
      "#foreach ($x in [])#if(true)#elseif(true)\n#b()#end#end#a()").toOption.map
      Node.callsAll = some [⟨"b", ⟨"t", 2⟩⟩, ⟨"a", ⟨"t", 2⟩⟩] := by
    decide +kernel
  constructor
  · cases h : readNodes "t" "#a()#end" with
    | ok nodes =>
        rw [h] at hstray
        cases hstray
    | error violation => exact ⟨violation, rfl, (parse_reports_first_call "t" _).1 violation h⟩
  · cases h : readNodes "t" "#foreach ($x in [])#if(true)#elseif(true)\n#b()#end#end#a()" with
    | error e =>
        rw [h] at hcalls
        cases hcalls
    | ok nodes =>
        rw [h] at hcalls
        rcases ((parse_reports_first_call "t" _).2 nodes h).2 with ⟨sites, hsites, hparse⟩
        have hlist := hsites.calls_eq.trans (Option.some.inj hcalls)
        cases sites with
        | nil => cases hlist
        | cons site rest => exact ⟨nodes, site, rest, rfl, hlist, hparse⟩

end Template

end Stencil
