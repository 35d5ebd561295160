import Stencil.Expr.Reader
import Stencil.Node.Basic
import Stencil.Parsing.Region

/-!
# Reading nodes

A template is read piece by piece.  A piece is a node, or a stop: a directive that ends the part
before it.  Bodies collect nodes up to the first stop and keep a proof that the construct they
belong to accepts it.  The nodes are kept as they are written, blank texts included.
-/

namespace Stencil

inductive Piece where
  | node (node : Node)
  | stop (stop : Stop) (location : Location)

structure Body (construct : Construct) where
  nodes : List Node
  stop : Stop
  accepted : construct.accepts stop = true
  location : Location

namespace Body

def cons (node : Node) (body : Body construct) : Body construct :=
  { body with nodes := node :: body.nodes }

theorem stop_ne_endOfFile (body : Body (.inside opener line)) : body.stop ≠ .endOfFile := by
  intro stopped
  have accepted := body.accepted
  rw [stopped, Construct.accepts_endOfFile_inside] at accepted
  exact Bool.false_ne_true accepted

end Body

/-!
## Text
-/

namespace Text

/-- Neither of the two characters that may start something else. -/
def isPlain (c : Char) : Bool :=
  c != '$' && c != '#'

end Text

namespace Node

def readText (opening : List Char) (location : Location) (c : Cursor) :
    Parsed (c.size + 1) Node :=
  ⟨.text (String.ofList (opening ++ c.takeWhile Text.isPlain)) location,
    c.dropWhile Text.isPlain, Nat.lt_succ_of_le (c.size_dropWhile_le _)⟩

/-!
## Opaque regions

The readers start behind the two or three characters that open a region.  The line end of a line
comment belongs to it.
-/

def readLineComment (location : Location) (c : Cursor) : Parsed (c.size + 1) Node :=
  ⟨.comment location, c.skipPast ['\n'], Nat.lt_succ_of_le (c.size_skipPast_le _)⟩

def readBlockComment (location : Location) (c : Cursor) : Parsed (c.size + 1) Node :=
  ⟨.comment location, c.skipPast ['*', '#'], Nat.lt_succ_of_le (c.size_skipPast_le _)⟩

def readQuotedBlock (location : Location) (c : Cursor) : Attempt (Parsed (c.size + 1) Node) :=
  match c.splitAt? [']', ']', '#'] with
  | some (inside, r) =>
      .ok ⟨.text (String.ofList inside) location, r.1, Nat.lt_succ_of_le r.2⟩
  | none => .error ⟨.unterminatedQuotedBlock, location⟩

/-- What begins with a hash sign that begins no directive: an opaque region, or text. -/
def readHash (location : Location) (c : Cursor) : Attempt (Parsed (c.size + 1) Node) :=
  match c.take? '#' with
  | some ⟨c₁, h₁⟩ => .ok ((readLineComment location c₁).afterStep h₁).weaken
  | none =>
      match c.take? '*' with
      | some ⟨c₁, h₁⟩ => .ok ((readBlockComment location c₁).afterStep h₁).weaken
      | none =>
          match c.take? '[' with
          | some ⟨c₁, h₁⟩ =>
              match c₁.take? '[' with
              | some ⟨c₂, h₂⟩ => (((readQuotedBlock location c₂).afterStep h₂).after h₁).weaken
              | none => .ok ((readText ['#', '['] location c₁).afterStep h₁).weaken
          | none => .ok (readText ['#'] location c)

/-!
## References in text
-/

/-- What follows a dollar sign: a reference if a name is there, and text otherwise. -/
def readOutput (silent : Bool) (opening : List Char) (location : Location) (c : Cursor) :
    Attempt (Parsed (c.size + 1) Node) :=
  match c.take? '\x7b' with
  | some ⟨c₁, h₁⟩ =>
      if c₁.atLetter then
        (((Reference.readNamed silent c₁).andThen fun ref c₂ _ =>
          (c₂.expect '\x7d').mapValue fun _ => .output (.ofReference ref) location).after
            h₁).weaken
      else
        .ok ((readText (opening ++ ['\x7b']) location c₁).afterStep h₁).weaken
  | none =>
      if c.atLetter then
        ((Reference.readNamed silent c).mapValue fun ref =>
          .output (.ofReference ref) location).weaken
      else
        .ok (readText opening location c)

def readDollar (location : Location) (c : Cursor) : Attempt (Parsed (c.size + 1) Node) :=
  match c.take? '!' with
  | some ⟨c₁, h₁⟩ => ((readOutput true ['$', '!'] location c₁).afterStep h₁).weaken
  | none => readOutput false ['$'] location c

end Node

/-!
## Directives

The readers of directives start behind the name, which may stand in braces, and take one line end
along behind the closing parenthesis.
-/

inductive Directive where
  | stop (stop : Stop)
  | conditional
  | forEach
  | set
  | unsupported (feature : String)
  | call (name : String)
deriving DecidableEq

namespace Directive

def ofName (name : String) : Directive :=
  if name = "end" then stop .closing
  else if name = "else" then stop .elseBranch
  else if name = "elseif" then stop .elseIf
  else if name = "if" then conditional
  else if name = "foreach" then forEach
  else if name = "set" then set
  else if name = "parse" then unsupported "#parse"
  else if name = "macro" then unsupported "#macro definition"
  else call name

def beginsAt (c : Cursor) : Bool :=
  c.current = some '\x7b' || c.atLetter

def readName (c : Cursor) : Attempt (Parsed c.size String) :=
  match c.take? '\x7b' with
  | some ⟨c₁, h₁⟩ =>
      ((c₁.identifier "directive inside #\x7b...\x7d").andThen fun name c₂ _ =>
        (c₂.expect '\x7d').mapValue fun _ => name).after h₁
  | none => c.identifier "directive"

end Directive

namespace Node

def readSet (location : Location) (c : Cursor) : Attempt (Parsed c.size Node) :=
  (c.expect '(').andThen fun _ c₁ _ =>
    (c₁.expect '$').andThen fun _ c₂ _ =>
      (c₂.identifier "#set variable").andThen fun name c₃ _ =>
        (c₃.expect '=').andThen fun _ c₄ _ =>
          (Expr.read c₄).andThen fun value c₅ _ =>
            ((c₅.expect ')').mapValue fun _ => .set name value location).accept '\n'

def readCall (name : String) (location : Location) (c : Cursor) : Attempt (Parsed c.size Node) :=
  ((c.skipSpace.require '(' ("`(` after macro name #" ++ name)).within
    c.size_skipSpace_le).andThen fun _ c₁ _ =>
      ((Reference.readArguments c₁).mapValue fun args =>
        .macroCall name args location).accept '\n'

def readInKeyword (c : Cursor) : Attempt (Parsed c.size Unit) :=
  (c.require 'i' "`in` after the #foreach variable").andThen fun _ c₁ _ =>
    c₁.require 'n' "`in` after the #foreach variable"

def readLoopHead (c : Cursor) : Attempt (Parsed c.size (String × Expr)) :=
  (c.expect '(').andThen fun _ c₁ _ =>
    (c₁.expect '$').andThen fun _ c₂ _ =>
      (c₂.identifier "#foreach variable").skipSpace.andThen fun name c₃ _ =>
        (readInKeyword c₃).andThen fun _ c₄ _ =>
          (Expr.read c₄).andThen fun collection c₅ _ =>
            ((c₅.expect ')').mapValue fun _ => (name, collection)).accept '\n'

def readCondition (c : Cursor) : Attempt (Parsed c.size Expr) :=
  (c.expect '(').andThen fun _ c₁ _ =>
    (Expr.read c₁).andThen fun condition c₂ _ =>
      ((c₂.expect ')').mapValue fun _ => condition).accept '\n'

/-!
## Pieces and bodies
-/

mutual

/-- Reads one piece; at the end of the text there is none. -/
def readPiece (c : Cursor) : Attempt (Option (Parsed c.size Piece)) :=
  match c.next? with
  | none => .ok none
  | some ⟨x, c₁, h₁⟩ =>
      if x = '$' then
        (((readDollar c.location c₁).afterStep h₁).mapValue Piece.node).map some
      else if x = '#' then
        if Directive.beginsAt c₁ then
          ((readDirective c.location c₁).after h₁).map some
        else
          (((readHash c.location c₁).afterStep h₁).mapValue Piece.node).map some
      else
        .ok (some (((readText [x] c.location c₁).afterStep h₁).map Piece.node))
termination_by 5 * c.size

def readDirective (location : Location) (c : Cursor) : Attempt (Parsed c.size Piece) :=
  (Directive.readName c).andMaybe fun name c₁ _ =>
    match Directive.ofName name with
    | .stop stop => .ok ((Parsed.here (.stop stop location) c₁).accept '\n')
    | .conditional => ((readConditional .conditional location c₁).mapValue Piece.node).weaken
    | .forEach =>
        ((readLoopHead c₁).andMaybe fun head c₂ _ =>
          (readBody (.inside .forEach location.line) c₂).mapValue fun body =>
            .node (.forEach head.1 head.2 (.sequence body.nodes location) location)).weaken
    | .set => ((readSet location c₁).mapValue Piece.node).weaken
    | .unsupported feature => .error ⟨.unsupported feature, location⟩
    | .call name => ((readCall name location c₁).mapValue Piece.node).weaken
termination_by 5 * c.size

def readConditional (opener : Opener) (location : Location) (c : Cursor) :
    Attempt (Parsed c.size Node) :=
  (readCondition c).andMaybe fun condition c₁ _ =>
    (readBody (.inside opener location.line) c₁).andMaybe fun body c₂ _ =>
      let thenBranch := .sequence body.nodes location
      match stopped : body.stop with
      | .closing =>
          .ok (.here (.conditional condition thenBranch (.sequence [] body.location) location) c₂)
      | .elseIf =>
          ((readConditional .elseIf body.location c₂).mapValue fun other =>
            .conditional condition thenBranch other location).weaken
      | .elseBranch =>
          (readBody (.inside .elseBranch body.location.line) c₂).mapValue fun other =>
            .conditional condition thenBranch (.sequence other.nodes body.location) location
      | .endOfFile => absurd stopped body.stop_ne_endOfFile
termination_by 5 * c.size

/-- Reads nodes up to the first stop, which has to be one that the construct accepts. -/
def readBody (construct : Construct) (c : Cursor) :
    Attempt (Parsed (c.size + 1) (Body construct)) :=
  match readPiece c with
  | .error e => .error e
  | .ok none =>
      if accepted : construct.accepts .endOfFile = true then
        .ok (.here ⟨[], .endOfFile, accepted, c.location⟩ c)
      else
        .error (c.fail (.unexpectedStop .endOfFile construct))
  | .ok (some ⟨.stop stop location, c₁, h₁⟩) =>
      if accepted : construct.accepts stop = true then
        .ok (Parsed.weaken ⟨⟨[], stop, accepted, location⟩, c₁, h₁⟩)
      else
        .error ⟨.unexpectedStop stop construct, location⟩
  | .ok (some ⟨.node node, c₁, h₁⟩) =>
      (((readBody construct c₁).mapValue (Body.cons node)).afterStep h₁).weaken
termination_by 5 * c.size + 1

end

end Node

end Stencil
