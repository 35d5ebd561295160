import Stencil.Evaluation.Rendering
import Stencil.Proofs.NodeForms

/-!
# Silent references

Making every link of a reference silent turns some of its failures into absence and changes nothing
else: where the loud reference has a value, the silent one has the same, and where it fails, the
silent one either fails alike or is null, which it is exactly when something it builds on is absent.
The parser sets the flag on all the links of a reference or on none.
-/

namespace Stencil

namespace Reference

def Uniform (flag : Bool) : Reference → Prop
  | plain _ silent _ => silent = flag
  | member lhs _ silent _ => lhs.Uniform flag ∧ silent = flag
  | method lhs _ _ silent _ => lhs.Uniform flag ∧ silent = flag
  | index lhs _ silent _ => lhs.Uniform flag ∧ silent = flag

/-- The chain with every link silent.  Arguments and indexes stay as they are. -/
def silence : Reference → Reference
  | plain name _ location => plain name true location
  | member lhs name _ location => member lhs.silence name true location
  | method lhs name args _ location => method lhs.silence name args true location
  | index lhs key _ location => index lhs.silence key true location

/-- The shorter chains that a chain extends, from the longest to its variable. -/
def prefixes : Reference → List Reference
  | plain _ _ _ => []
  | member lhs _ _ _ => lhs :: lhs.prefixes
  | method lhs _ _ _ _ => lhs :: lhs.prefixes
  | index lhs _ _ _ => lhs :: lhs.prefixes

theorem uniform_silence (ref : Reference) : ref.silence.Uniform true := by
  cases ref with
  | plain name silent location => rfl
  | member lhs name silent location => exact ⟨uniform_silence lhs, rfl⟩
  | method lhs name args silent location => exact ⟨uniform_silence lhs, rfl⟩
  | index lhs key silent location => exact ⟨uniform_silence lhs, rfl⟩

theorem silent_of_uniform {flag : Bool} {ref : Reference} (h : ref.Uniform flag) :
    ref.silent = flag := by
  cases ref with
  | plain name silent location => exact h
  | member lhs name silent location => exact h.2
  | method lhs name args silent location => exact h.2
  | index lhs key silent location => exact h.2

/-!
## Links

A member, a call and an index all build on the value of the chain in front of them.  The silent flag
is looked at before anything else, arguments included, and nothing can be got from null.
-/

abbrev Access := Value → Except (Located EvalError) Value

/-- What a link comes to, `access` being what it does to the value it builds on. -/
def follow (silent : Bool) (access : Access) (target : Except (Located EvalError) Value) :
    Except (Located EvalError) Value := do
  let value ← target
  if value.isNull && silent then
    return .null
  else
    access value

def memberAccess (name : String) (location : Location) : Access := fun value =>
  locate location (value.member name)

def methodAccess (context : Context) (name : String) (args : List Expr) (location : Location) :
    Access := fun value => do
  let values ← Expr.evaluateAll context args
  locate location (value.call name values)

def indexAccess (context : Context) (key : Expr) (location : Location) : Access := fun value => do
  let found ← key.evaluate context
  locate location (value.index found)

structure Extends (context : Context) (lhs : Reference) (access : Access) (ref : Reference) :
    Prop where
  root_eq : ref.root = lhs.root
  prefixes_eq : ref.prefixes = lhs :: lhs.prefixes
  prefixes_silence : ref.silence.prefixes = lhs.silence :: lhs.silence.prefixes
  uniform_iff : ∀ flag, ref.Uniform flag ↔ lhs.Uniform flag ∧ ref.silent = flag
  resolve_eq : ref.resolve context = follow ref.silent access (lhs.resolve context)
  resolve_silence : ref.silence.resolve context = follow true access (lhs.silence.resolve context)
  access_null : ∃ e, access .null = .error e

section

variable (context : Context) (lhs : Reference) (name : String) (args : List Expr) (key : Expr)
  (silent : Bool) (location : Location)

theorem methodAccess_null : ∃ e, methodAccess context name args location .null = .error e := by
  have hnone : Method.find? .null name = none := by
    cases hfind : Method.find? .null name with
    | none => rfl
    | some method =>
        have haccepts := (Method.find?_eq_some_iff.mp hfind).2
        rw [Method.accepts_null] at haccepts
        cases haccepts
  have hkind : Value.null.kind = .null := rfl
  rw [methodAccess]
  cases Expr.evaluateAll context args with
  | error e => exact ⟨e, rfl⟩
  | ok values =>
      change ∃ e, locate location (Value.null.call name values) = .error e
      rw [Value.call, hkind, hnone]
      exact ⟨_, rfl⟩

theorem indexAccess_null : ∃ e, indexAccess context key location .null = .error e := by
  rw [indexAccess]
  cases key.evaluate context with
  | error e => exact ⟨e, rfl⟩
  | ok value => exact ⟨_, rfl⟩

theorem extends_member :
    Extends context lhs (memberAccess name location) (member lhs name silent location) where
  root_eq := rfl
  prefixes_eq := rfl
  prefixes_silence := rfl
  uniform_iff _ := Iff.rfl
  resolve_eq := by
    rw [resolve]
    rfl
  resolve_silence := by
    rw [silence, resolve]
    rfl
  access_null := ⟨_, rfl⟩

theorem extends_method : Extends context lhs (methodAccess context name args location)
    (method lhs name args silent location) where
  root_eq := rfl
  prefixes_eq := rfl
  prefixes_silence := rfl
  uniform_iff _ := Iff.rfl
  resolve_eq := by
    rw [resolve]
    rfl
  resolve_silence := by
    rw [silence, resolve]
    rfl
  access_null := methodAccess_null context name args location

theorem extends_index :
    Extends context lhs (indexAccess context key location) (index lhs key silent location) where
  root_eq := rfl
  prefixes_eq := rfl
  prefixes_silence := rfl
  uniform_iff _ := Iff.rfl
  resolve_eq := by
    rw [resolve]
    rfl
  resolve_silence := by
    rw [silence, resolve]
    rfl
  access_null := indexAccess_null context key location

end

theorem inductionOn {motive : Reference → Prop} (context : Context)
    (root : ∀ name silent location, motive (plain name silent location))
    (link : ∀ lhs access ref, Extends context lhs access ref -> motive lhs -> motive ref)
    (ref : Reference) : motive ref := by
  cases ref with
  | plain name silent location => exact root name silent location
  | member lhs name silent location =>
      apply link _ _ _ (extends_member context lhs name silent location)
      exact inductionOn context root link lhs
  | method lhs name args silent location =>
      apply link _ _ _ (extends_method context lhs name args silent location)
      exact inductionOn context root link lhs
  | index lhs key silent location =>
      apply link _ _ _ (extends_index context lhs key silent location)
      exact inductionOn context root link lhs

/-!
## Softening
-/

section

variable {silent : Bool} {access : Access} {loud quiet : Except (Located EvalError) Value}
  {value : Value} {e : Located EvalError}

theorem follow_null : follow true access (.ok .null) = .ok .null :=
  rfl

theorem follow_loud : follow false access (.ok value) = access value := by
  cases value <;> rfl

theorem follow_of_ne_null (h : value ≠ .null) :
    follow silent access (.ok value) = access value := by
  cases value with
  | null => exact absurd rfl h
  | _ => rfl

/-- A value stays, and a failure stays or becomes null. -/
def Softens (loud quiet : Except (Located EvalError) Value) : Prop :=
  match loud with
  | .ok value => quiet = .ok value
  | .error e => quiet = .error e ∨ quiet = .ok .null

theorem Softens.follow (h : Softens loud quiet) (hnull : ∃ e, access .null = .error e) :
    Softens (follow false access loud) (follow true access quiet) := by
  cases loud with
  | error e =>
      rcases h with rfl | rfl
      · exact Or.inl rfl
      · exact Or.inr rfl
  | ok value =>
      have hsame : quiet = .ok value := h
      subst hsame
      by_cases hvalue : value = .null
      · subst hvalue
        rcases hnull with ⟨e, he⟩
        rw [follow_loud, he]
        exact Or.inr rfl
      · rw [follow_of_ne_null hvalue, follow_of_ne_null hvalue]
        cases access value with
        | ok found => exact rfl
        | error e => exact Or.inl rfl

/-- Where a link fails that would be null if it were silent, what it builds on is null then. -/
theorem Softens.null_of_follow (h : Softens loud quiet)
    (hloud : Reference.follow false access loud = .error e)
    (hquiet : Reference.follow true access quiet = .ok .null) : quiet = .ok .null := by
  cases loud with
  | error e =>
      rcases h with rfl | rfl
      · cases hquiet
      · rfl
  | ok value =>
      have hsame : quiet = .ok value := h
      subst hsame
      by_cases hvalue : value = .null
      · rw [hvalue]
      · rw [follow_of_ne_null hvalue] at hloud hquiet
        rw [hloud] at hquiet
        cases hquiet

end

variable {context : Context} {ref front : Reference}

theorem softens_silence (h : ref.Uniform false) :
    Softens (ref.resolve context) (ref.silence.resolve context) := by
  induction ref using inductionOn context with
  | root name silent location =>
      have hsilent : silent = false := h
      rw [silence, resolve, resolve, hsilent]
      cases context.get? name with
      | some value => exact rfl
      | none => exact Or.inr rfl
  | link lhs access ref hext ih =>
      rcases (hext.uniform_iff false).mp h with ⟨hlhs, hsilent⟩
      rw [hext.resolve_eq, hext.resolve_silence, hsilent]
      exact (ih hlhs).follow hext.access_null

/-!
## Absence
-/

/-- The variable of the chain is undefined, or something that the chain goes on from is null. -/
def Absent (context : Context) (ref : Reference) : Prop :=
  context.get? ref.root = none ∨ ∃ lhs ∈ ref.prefixes, lhs.resolve context = .ok .null

theorem resolve_of_root (h : ref.Uniform true)
    (hroot : ∀ value ∈ context.get? ref.root, value = .null) : ref.resolve context = .ok .null := by
  induction ref using inductionOn context with
  | root name silent location =>
      have hsilent : silent = true := h
      rw [resolve, hsilent]
      cases hget : context.get? name with
      | none => rfl
      | some value =>
          have hvalue : value = .null := hroot value hget
          rw [hvalue]
  | link lhs access ref hext ih =>
      rcases (hext.uniform_iff true).mp h with ⟨hlhs, hsilent⟩
      rw [hext.root_eq] at hroot
      rw [hext.resolve_eq, ih hlhs hroot, hsilent]
      exact follow_null

theorem resolve_of_prefix (h : ref.Uniform true) (hmem : front ∈ ref.prefixes)
    (hfront : front.resolve context = .ok .null) : ref.resolve context = .ok .null := by
  induction ref using inductionOn context with
  | root name silent location => cases hmem
  | link lhs access ref hext ih =>
      rcases (hext.uniform_iff true).mp h with ⟨hlhs, hsilent⟩
      have hnull : lhs.resolve context = .ok .null := by
        rw [hext.prefixes_eq] at hmem
        rcases List.mem_cons.mp hmem with rfl | hmem
        · exact hfront
        · exact ih hlhs hmem
      rw [hext.resolve_eq, hnull, hsilent]
      exact follow_null

theorem resolve_of_absent (h : ref.Uniform true) (habsent : ref.Absent context) :
    ref.resolve context = .ok .null := by
  rcases habsent with hroot | ⟨front, hmem, hfront⟩
  · apply resolve_of_root h
    intro value hvalue
    rw [hroot] at hvalue
    cases hvalue
  · exact resolve_of_prefix h hmem hfront

theorem absent_of_silence {e : Located EvalError} (h : ref.Uniform false)
    (hloud : ref.resolve context = .error e) (hquiet : ref.silence.resolve context = .ok .null) :
    ref.silence.Absent context := by
  induction ref using inductionOn context with
  | root name silent location =>
      refine Or.inl ?_
      rw [resolve] at hloud
      cases hget : context.get? name with
      | none => exact hget
      | some value =>
          rw [hget] at hloud
          cases hloud
  | link lhs access ref hext _ =>
      rcases (hext.uniform_iff false).mp h with ⟨hlhs, hsilent⟩
      rw [hext.resolve_eq, hsilent] at hloud
      rw [hext.resolve_silence] at hquiet
      have hnull : lhs.silence.resolve context = .ok .null :=
        (softens_silence hlhs).null_of_follow hloud hquiet
      refine Or.inr ⟨lhs.silence, ?_, hnull⟩
      rw [hext.prefixes_silence]
      exact List.mem_cons_self

/-!
## References in the text
-/

open Attempt

theorem keeps_suffixes {flag : Bool} (lhs : Reference) (h : lhs.Uniform flag) (c : Cursor) :
    (readSuffixes lhs c).Reads c fun ref _ _ => ref.root = lhs.root ∧ ref.Uniform flag := by
  have hsilent : lhs.silent = flag := silent_of_uniform h
  rw [readSuffixes]
  split
  · next c₁ h₁ hdot =>
      refine Reads.weaken (Reads.after (.from_step (passes_of_takeDot? hdot) ?_) _)
      refine Reads.andMaybe (Cursor.reads_identifier _ c₁) fun name front c₂ h₂ _ => ?_
      split
      · next c₃ h₃ htake =>
          refine Reads.weaken (Reads.after (.from_step (Cursor.passes_of_take? htake) ?_) _)
          refine Reads.andMaybe (reads_arguments c₃) fun args front c₄ h₄ _ => ?_
          exact keeps_suffixes (.method lhs name args lhs.silent c.location) ⟨h, hsilent⟩ c₄
      · exact keeps_suffixes (.member lhs name lhs.silent c.location) ⟨h, hsilent⟩ c₂
  · split
    · next c₁ h₁ htake =>
        refine Reads.weaken (Reads.after (.from_step (Cursor.passes_of_take? htake) ?_) _)
        refine Reads.andThen (Expr.reads_primary false c₁) fun key front c₂ h₂ _ => ?_
        refine Reads.andMaybe (Cursor.reads_require ']' _ c₂) fun _ close c₃ h₃ _ => ?_
        exact keeps_suffixes (.index lhs key lhs.silent c.location) ⟨h, hsilent⟩ c₃
    · exact Reads.ok (.refl c) ⟨rfl, h⟩
termination_by c.size

section

variable {name rest : List Char} (hname : Text.IsIdentifier name)
  (hrest : ∀ x ∈ rest.head?, Text.isIdentifierChar x = false)
include hname hrest

theorem keeps_named (flag : Bool) (r : String) (l : Nat) :
    (readNamed flag ⟨r, name ++ rest, l⟩).Reads ⟨r, name ++ rest, l⟩ fun ref _ _ =>
      ref.root = String.ofList name ∧ ref.Uniform flag := by
  have hidentifier : ((⟨r, name ++ rest, l⟩ : Cursor).identifier "reference").Reads
      ⟨r, name ++ rest, l⟩ fun found _ _ => found = String.ofList name := by
    intro found behind hout
    rcases Cursor.reads_identifier _ _ found behind hout with ⟨front, hpass, _⟩
    rw [Cursor.outcome_identifier _ r l hname hrest] at hout
    cases hout
    exact ⟨front, hpass, rfl⟩
  rw [readNamed]
  refine Reads.andMaybe hidentifier fun found front c₁ h₁ hfound => ?_
  subst hfound
  exact keeps_suffixes (.plain (String.ofList name) flag _) rfl c₁

theorem keeps_silent (location : Location) (r : String) (l : Nat) {brace : List Char}
    (hbrace : brace = [] ∨ brace = ['\x7b']) :
    (Node.readDollar location ⟨r, '!' :: (brace ++ (name ++ rest)), l⟩).Reads
      ⟨r, '!' :: (brace ++ (name ++ rest)), l⟩ fun node _ _ => ∃ ref,
        node = .output (.ofReference ref) location ∧ ref.root = String.ofList name
          ∧ ref.Uniform true := by
  rw [Node.readDollar, Cursor.take?_cons]
  dsimp only
  refine Reads.weaken (Reads.afterStep (.from_step (Cursor.passes_cons r _ _ l) ?_) _)
  rcases hbrace with rfl | rfl
  · have hletter := Cursor.atLetter_append hname r (l + Cursor.newlines ['!']) rest
    have hopen : (⟨r, name ++ rest, l + Cursor.newlines ['!']⟩ : Cursor).take? '\x7b' = none := by
      cases name with
      | nil => cases hname
      | cons x more =>
          apply Cursor.take?_cons_of_ne
          rintro rfl
          cases hname.1
    rw [List.nil_append, Node.readOutput, hopen]
    dsimp only
    rw [if_pos hletter]
    refine Reads.weaken (Reads.mapValue ?_)
    exact (keeps_named hname hrest true r _).imp fun ref _ _ h => ⟨ref, rfl, h⟩
  · rw [List.singleton_append, Node.readOutput, Cursor.take?_cons]
    dsimp only
    rw [if_pos (Cursor.atLetter_append hname r _ rest)]
    refine Reads.weaken (Reads.after (.from_step (Cursor.passes_cons r _ _ _) ?_) _)
    refine Reads.andThen (keeps_named hname hrest true r _) fun ref front c₁ h₁ href => ?_
    exact Reads.mapValue ((Cursor.reads_expect '\x7d' c₁).imp fun _ _ _ _ => ⟨ref, rfl, href⟩)

theorem silent_of_readsPiece {r : String} {l : Nat} {brace : List Char} {piece : Piece}
    {behind : Cursor} (hbrace : brace = [] ∨ brace = ['\x7b'])
    (h : Node.ReadsPiece ⟨r, '$' :: '!' :: (brace ++ (name ++ rest)), l⟩ piece behind) :
    ∃ ref, piece = .node (.output (.ofReference ref) ⟨r, l⟩) ∧ ref.root = String.ofList name
      ∧ ref.Uniform true := by
  have hnode := keeps_silent hname hrest ⟨r, l⟩ r (l + Cursor.newlines ['$']) hbrace
  have hfound := Node.reads_of_readsPiece
    (P := fun found _ _ => ∃ node, found = .node node ∧ ∃ ref,
      node = .output (.ofReference ref) ⟨r, l⟩ ∧ ref.root = String.ofList name ∧ ref.Uniform true)
    (Reads.mapValue (Reads.afterStep (.from_step (Cursor.passes_cons r _ _ l)
      (hnode.imp fun node _ _ hsilent => ⟨node, rfl, hsilent⟩)) _))
    Node.readPiece_dollar h
  rcases hfound with ⟨_, _, node, rfl, ref, rfl, href⟩
  exact ⟨ref, rfl, href⟩

end

theorem render_of_resolve_null {ref : Reference} {location : Location} {session : Session}
    (h : ref.Uniform true) (hnull : ref.resolve session.context = .ok .null) :
    (Node.output (.ofReference ref) location).render session = session.done := by
  have hevaluate : (Expr.ofReference ref).evaluate session.context = .ok .null := by
    rw [Expr.ofReference, Expr.evaluate]
    exact hnull
  have hsilent : (Expr.ofReference ref).isSilent = true := silent_of_uniform h
  rw [Node.render, hevaluate]
  exact if_pos hsilent

/-!
## The two together
-/

/-- A loud reference and the silent one compared, in every context: values stay, and so do failures
unless something that the silent reference builds on is absent, which makes it null.  What the
parser reads behind `$!` is silent all along and puts out nothing where its variable is absent. -/
theorem silence_softens :
    (∀ (context : Context) (ref : Reference), ref.Uniform false ->
      (∀ value, ref.resolve context = .ok value -> ref.silence.resolve context = .ok value) ∧
      ∀ e, ref.resolve context = .error e ->
        (ref.silence.resolve context = .error e ∨ ref.silence.resolve context = .ok .null) ∧
        (ref.silence.resolve context = .ok .null ↔ ref.silence.Absent context)) ∧
    ∀ (r : String) (l : Nat) (brace name rest : List Char) (piece : Piece) (behind : Cursor),
      brace = [] ∨ brace = ['\x7b'] -> Text.IsIdentifier name ->
      (∀ x ∈ rest.head?, Text.isIdentifierChar x = false) ->
      Node.ReadsPiece ⟨r, '$' :: '!' :: (brace ++ (name ++ rest)), l⟩ piece behind ->
      ∃ ref, piece = .node (.output (.ofReference ref) ⟨r, l⟩) ∧
        ref.root = String.ofList name ∧ ref.Uniform true ∧
        ∀ session : Session,
          (∀ value ∈ session.context.get? (String.ofList name), value = .null) ->
          (Node.output (.ofReference ref) ⟨r, l⟩).render session = session.done := by
  constructor
  · intro context ref hloud
    have hsoft : Softens (ref.resolve context) (ref.silence.resolve context) :=
      softens_silence hloud
    constructor
    · intro value hvalue
      rw [hvalue] at hsoft
      exact hsoft
    · intro e he
      constructor
      · rw [he] at hsoft
        exact hsoft
      · constructor
        · exact absent_of_silence hloud he
        · exact resolve_of_absent (uniform_silence ref)
  · intro r l brace name rest piece behind hbrace hname hrest hpiece
    rcases silent_of_readsPiece hname hrest hbrace hpiece with ⟨ref, hnode, hroot, hsilent⟩
    refine ⟨ref, hnode, hroot, hsilent, fun session habsent => ?_⟩
    rw [← hroot] at habsent
    exact render_of_resolve_null hsilent (resolve_of_root hsilent habsent)

theorem exists_piece_of_isSome {c : Cursor}
    (h : ((Node.readPiece c).toOption.bind id).isSome = true) :
    ∃ piece behind, Node.ReadsPiece c piece behind := by
  cases hpiece : Node.readPiece c with
  | error e =>
      rw [hpiece] at h
      cases h
  | ok found =>
      cases found with
      | none =>
          rw [hpiece] at h
          cases h
      | some p => exact ⟨p.value, p.rest, p.size_rest_lt, hpiece⟩

/-- The variable is null.  The loud call fails in its argument, which the silent one never sees. -/
theorem silence_softens_call :
    let context := Context.ofVariables [("a", .null)]
    let loud : Reference := .method (.plain "a" false ⟨"t", 1⟩) "b"
      [.ofReference (.plain "c" false ⟨"t", 1⟩)] false ⟨"t", 1⟩
    let rest : List Char := '.' :: "b($c)[$d].e\x7d.".toList
    loud.Uniform false ∧ loud.resolve context = .error ⟨.undefinedReference "c", ⟨"t", 1⟩⟩ ∧
      loud.silence.resolve context = .ok .null ∧
      ∃ piece behind, Node.ReadsPiece ⟨"t", '$' :: '!' :: '\x7b' :: 'a' :: rest, 1⟩ piece behind ∧
        ∃ node, piece = .node node
          ∧ node.render (.start context) = (Session.start context).done := by
  intro context loud rest
  have hloud : loud.Uniform false := ⟨rfl, rfl⟩
  have hfails : loud.resolve context = .error ⟨.undefinedReference "c", ⟨"t", 1⟩⟩ := by
    rfl
  have habsent : loud.silence.Absent context := Or.inr ⟨_, List.mem_cons_self, rfl⟩
  have hnull := ((silence_softens.1 context loud hloud).2 _ hfails).2.mpr habsent
  have hpiece : ∃ piece behind,
      Node.ReadsPiece ⟨"t", '$' :: '!' :: '\x7b' :: 'a' :: rest, 1⟩ piece behind := by
    apply exists_piece_of_isSome
    decide +kernel
  rcases hpiece with ⟨piece, behind, hpiece⟩
  have hname : Text.IsIdentifier ['a'] := ⟨rfl, List.forall_mem_nil _⟩
  rcases silence_softens.2 "t" 1 ['\x7b'] ['a'] rest piece behind (Or.inr rfl) hname
    (Cursor.forall_head_cons rfl) hpiece with ⟨ref, rfl, _, _, hrender⟩
  refine ⟨hloud, hfails, hnull, _, behind, hpiece, _, rfl, hrender _ ?_⟩
  intro value hvalue
  cases hvalue
  rfl

end Reference

end Stencil
