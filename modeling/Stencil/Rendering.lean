import Stencil.Evaluation.Rendering
import Stencil.Template

/-!
# Rendering templates

From a text and variables to the output: the text is parsed, and the template rendered in a
context of its own.
-/

namespace Stencil

inductive TemplateError where
  | parse (error : Located ParseError)
  | evaluation (error : Located EvalError)

namespace TemplateError

def message : TemplateError → String
  | parse error => error.message ParseError.message
  | evaluation error => error.message EvalError.message

end TemplateError

namespace Template

def evaluate (template : Template) (bindings : List (String × Value)) :
    Except (Located EvalError) String :=
  (template.root.render (.start (.ofVariables bindings))).result

def render (resource text : String) (bindings : List (String × Value)) :
    Except TemplateError String :=
  match parse resource text with
  | .error error => .error (.parse error)
  | .ok template => (template.evaluate bindings).mapError .evaluation

end Template

end Stencil
