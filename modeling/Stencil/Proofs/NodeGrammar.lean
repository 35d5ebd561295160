import Stencil.Node.Reader
import Stencil.Proofs.Grammar

/-!
# The grammar of templates

Which texts a node may be written as, stated without the readers.  Where a text ends, and whether a
line end belongs to a directive, depends on what follows, so a node is written as a segment in front
of some other text.  A body is made up of the segments of its nodes and the stop that ends it.
-/

namespace Stencil

namespace Text

/-!
## Openings

A hash or dollar sign begins something only together with what stands right behind it.
-/

/-- What may stand between a dollar sign and the name of a reference. -/
def openings : List (List Char) :=
  [[], ['!'], ['\x7b'], ['!', '\x7b']]

inductive Opens : List Char → Prop where
  | letter {x : Char} {rest : List Char} : x.isAlpha = true -> Opens ('#' :: x :: rest)
  | brace {rest : List Char} : Opens ('#' :: '\x7b' :: rest)
  | lineComment {rest : List Char} : Opens ('#' :: '#' :: rest)
  | blockComment {rest : List Char} : Opens ('#' :: '*' :: rest)
  | quotedBlock {rest : List Char} : Opens ('#' :: '[' :: '[' :: rest)
  | reference {opening : List Char} {x : Char} {rest : List Char} :
      opening ∈ openings -> x.isAlpha = true -> Opens ('$' :: (opening ++ x :: rest))

/-- Nothing begins inside `cs` when `after` follows it. -/
def InertBefore (cs after : List Char) : Prop :=
  ∀ back, back <:+ cs -> back ≠ [] -> ¬ Opens (back ++ after)

/-- A region that ends with the first occurrence of `mark`, or has none and ends with the text. -/
inductive Region (mark : List Char) : (region after : List Char) → Prop where
  | closed {inside after : List Char} : ¬ mark <:+: inside -> Region mark (inside ++ mark) after
  | unclosed {inside : List Char} : ¬ mark <:+: inside -> Region mark inside []

end Text

/-!
## Directives
-/

inductive Directive.Written : Directive → List Char → Prop where
  | plain {name : String} :
      Text.IsIdentifier name.toList -> Directive.Written (ofName name) ('#' :: name.toList)
  | braced {name : String} {gap : List Char} :
      Text.IsIdentifier name.toList -> Text.Blanks gap ->
      Directive.Written (ofName name) ('#' :: '\x7b' :: (name.toList ++ (gap ++ ['\x7d'])))

inductive Stop.Written : Stop → (segment after : List Char) → Prop where
  | directive {stop : Stop} {word line after : List Char} :
      Directive.Written (.stop stop) word -> Text.LineEnd line after ->
      Stop.Written stop (word ++ line) after
  | endOfFile : Stop.Written .endOfFile [] []

inductive Expr.WrittenCondition : Expr → (segment after : List Char) → Prop where
  | mk {condition : Expr} {left cs right line after : List Char} :
      Text.Token '(' left -> condition.Written cs -> Text.Token ')' right ->
      Text.LineEnd line after ->
      Expr.WrittenCondition condition (left ++ (cs ++ (right ++ line))) after

inductive Node.WrittenLoopHead : String × Expr → (segment after : List Char) → Prop where
  | mk {name : String} {collection : Expr} {left dollar gap cs right line after : List Char} :
      Text.Token '(' left -> Text.Token '$' dollar -> Text.IsIdentifier name.toList ->
      Text.Blanks gap -> collection.Written cs -> Text.Token ')' right -> Text.LineEnd line after ->
      Node.WrittenLoopHead (name, collection)
        (left ++ (dollar ++ (name.toList ++ gap ++ (['i', 'n'] ++ (cs ++ (right ++ line)))))) after

/-!
## Nodes
-/

mutual

inductive Node.Written : Node → (segment after : List Char) → Prop where
  | text {content : String} {location : Location} {after : List Char} :
      content.toList ≠ [] -> Text.InertBefore content.toList after ->
      Node.Written (.text content location) content.toList after
  | quotedBlock {content : String} {location : Location} {after : List Char} :
      ¬ [']', ']', '#'] <:+: content.toList ->
      Node.Written (.text content location)
        ('#' :: '[' :: '[' :: (content.toList ++ [']', ']', '#'])) after
  | lineComment {location : Location} {region after : List Char} :
      Text.Region ['\n'] region after ->
      Node.Written (.comment location) ('#' :: '#' :: region) after
  | blockComment {location : Location} {region after : List Char} :
      Text.Region ['*', '#'] region after ->
      Node.Written (.comment location) ('#' :: '*' :: region) after
  | reference {ref : Reference} {location : Location} {segment after : List Char} :
      ref.Written segment -> Node.Written (.output (.ofReference ref) location) segment after
  | set {name : String} {value : Expr} {location : Location}
      {word left dollar equals cs right line after : List Char} :
      Directive.Written .set word -> Text.Token '(' left -> Text.Token '$' dollar ->
      Text.IsIdentifier name.toList -> Text.Token '=' equals -> value.Written cs ->
      Text.Token ')' right -> Text.LineEnd line after ->
      Node.Written (.set name value location)
        (word ++ (left ++ (dollar ++ (name.toList ++ (equals ++ (cs ++ (right ++ line))))))) after
  | macroCall {name : String} {args : List Expr} {location : Location}
      {word left cs line after : List Char} :
      Directive.Written (.call name) word -> Text.Token '(' left -> Expr.WrittenArguments args cs ->
      Text.LineEnd line after ->
      Node.Written (.macroCall name args location) (word ++ (left ++ (cs ++ ')' :: line))) after
  | conditional {node : Node} {word rest after : List Char} :
      Directive.Written .conditional word -> node.WrittenConditional rest after ->
      Node.Written node (word ++ rest) after
  | forEach {name : String} {collection : Expr} {nodes : List Node}
      {location location' : Location} {word head body after : List Char} :
      Directive.Written .forEach word ->
      Node.WrittenLoopHead (name, collection) head (body ++ after) ->
      Node.WrittenBody nodes .closing body after ->
      Node.Written (.forEach name collection (.sequence nodes location) location')
        (word ++ (head ++ body)) after

inductive Node.WrittenConditional : Node → (segment after : List Char) → Prop where
  | closing {condition : Expr} {nodes : List Node} {location location' location'' : Location}
      {head body after : List Char} :
      condition.WrittenCondition head (body ++ after) ->
      Node.WrittenBody nodes .closing body after ->
      Node.WrittenConditional
        (.conditional condition (.sequence nodes location) (.sequence [] location') location'')
        (head ++ body) after
  | elseIf {condition : Expr} {nodes : List Node} {other : Node} {location location' : Location}
      {head body rest after : List Char} :
      condition.WrittenCondition head (body ++ (rest ++ after)) ->
      Node.WrittenBody nodes .elseIf body (rest ++ after) ->
      other.WrittenConditional rest after ->
      Node.WrittenConditional
        (.conditional condition (.sequence nodes location) other location')
        (head ++ (body ++ rest)) after
  | elseBranch {condition : Expr} {nodes others : List Node}
      {location location' location'' : Location} {head body rest after : List Char} :
      condition.WrittenCondition head (body ++ (rest ++ after)) ->
      Node.WrittenBody nodes .elseBranch body (rest ++ after) ->
      Node.WrittenBody others .closing rest after ->
      Node.WrittenConditional
        (.conditional condition (.sequence nodes location) (.sequence others location') location'')
        (head ++ (body ++ rest)) after

inductive Node.WrittenBody : List Node → Stop → (segment after : List Char) → Prop where
  | mk {nodes : List Node} {segments : List (List Char)} {stop : Stop} {last after : List Char} :
      Node.Segments nodes segments (last ++ after) -> stop.Written last after ->
      Node.WrittenBody nodes stop (segments.flatten ++ last) after

/-- One segment for each node, and none of them is empty. -/
inductive Node.Segments :
    List Node → (segments : List (List Char)) → (after : List Char) → Prop where
  | nil {after : List Char} : Node.Segments [] [] after
  | cons {node : Node} {nodes : List Node} {segment : List Char} {segments : List (List Char)}
      {after : List Char} :
      segment ≠ [] -> node.Written segment (segments.flatten ++ after) ->
      Node.Segments nodes segments after ->
      Node.Segments (node :: nodes) (segment :: segments) after

end

end Stencil
