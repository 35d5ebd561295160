import Stencil.Proofs.DocumentConversion
import Stencil.Proofs.OptionGroups

/-!
# The command that renders

Accepted arguments name a template, a file with variables and assignments.  What is printed is the
rendered template, with the variables of the file and the assignments put over them in their order.
Whatever goes wrong on the way, nothing is printed on the standard output, and the status tells
arguments that are not accepted from all other failures.
-/

namespace Stencil

/-!
## Bindings from files and assignments
-/

namespace Template

/-- Rendering looks at no more of the bindings than the value under each name. -/
theorem render_congr_bindings (resource text : String) {bindings others : List (String × Value)}
    (h : ∀ name, (Context.ofVariables bindings).get? name
      = (Context.ofVariables others).get? name) :
    render resource text bindings = render resource text others := by
  have hentries : Entries.ofList bindings = Entries.ofList others :=
    Entries.eq_of_find?_eq (Entries.sorted_ofList _) (Entries.sorted_ofList _) h
  have hcontext : Context.ofVariables bindings = Context.ofVariables others := by
    simp only [Context.ofVariables, Dictionary.ofList, hentries]
  simp only [render, evaluate, hcontext]

end Template

namespace Command

variable {lib : Json.Library} {read : String → Except FileError String} {options : RenderOptions}

inductive FileVariables (lib : Json.Library) (read : String → Except FileError String) :
    Option String → Entries Value → Prop where
  | absent : FileVariables lib read .none []
  | file {path json : String} {entries : Entries Value} :
      read path = .ok json -> Variables.ofText lib json = .ok entries ->
      FileVariables lib read (some path) entries

/-- The files can be read, the variables are a document of integers, and every assignment gives a
name and a value. -/
structure Prepared (lib : Json.Library) (read : String → Except FileError String)
    (options : RenderOptions) (text : String) (fileVariables assigned : Entries Value) :
    Prop where
  text_eq : read options.template = .ok text
  file : FileVariables lib read options.varsFile fileVariables
  assigned_eq : options.assignments.map Variables.ofAssignment = assigned.map .ok

/-- The last assignment to a name counts, and any assignment before the file. -/
def lookup (fileVariables assigned : Entries Value) (name : String) : Option Value :=
  (Entries.find? name assigned.reverse).or (Entries.find? name fileVariables)

theorem FileVariables.sorted (hlib : lib.Lawful) {file : Option String} {entries : Entries Value}
    (h : FileVariables lib read file entries) : Entries.Sorted entries := by
  cases h with
  | absent => exact Entries.sorted_nil
  | file _ htext => exact Variables.sorted_ofText hlib htext

theorem assign_eq_foldl {assignments : List String} {assigned : Entries Value}
    (h : assignments.map Variables.ofAssignment = assigned.map .ok) (bindings : Entries Value) :
    assign bindings assignments
      = .ok (assigned.foldl (fun built entry => Entries.insert entry.1 entry.2 built)
          bindings) := by
  induction assignments generalizing assigned bindings with
  | nil =>
      cases assigned with
      | nil => rfl
      | cons entry rest => cases h
  | cons arg others ih =>
      cases assigned with
      | nil => cases h
      | cons entry rest =>
          rcases List.cons.inj h with ⟨hfirst, hrest⟩
          rw [assign, hfirst]
          exact ih hrest _

theorem get?_assigned {fileVariables : Entries Value} (hsorted : Entries.Sorted fileVariables)
    (assigned : Entries Value) (name : String) :
    (Context.ofVariables (assigned.foldl
        (fun built entry => Entries.insert entry.1 entry.2 built) fileVariables)).get? name
      = lookup fileVariables assigned name := by
  -- Without repeated keys it does not matter from which end an entry is looked for.
  rw [Context.get?_ofVariables, Entries.find?_reverse (Entries.sorted_foldl_insert _ hsorted),
    Entries.find?_foldl_insert, lookup]

theorem exists_assigned {assignments : List String} {bindings result : Entries Value}
    (h : assign bindings assignments = .ok result) :
    ∃ assigned : Entries Value, assignments.map Variables.ofAssignment = assigned.map .ok := by
  induction assignments generalizing bindings with
  | nil => exact ⟨[], rfl⟩
  | cons arg others ih =>
      rw [assign] at h
      split at h
      · next name value harg =>
          rcases ih h with ⟨assigned, hothers⟩
          exact ⟨(name, value) :: assigned, by rw [List.map_cons, List.map_cons, harg, hothers]⟩
      · cases h

/-!
## Rendering the files that are found
-/

def variablesFrom (lib : Json.Library) (read : String → Except FileError String) :
    Option String → Except CommandError (Entries Value)
  | .none => .ok []
  | .some path =>
      match read path with
      | .ok json => variablesOfFile lib path json
      | .error error => .error (.read path error)

theorem variablesOfFile_eq_ok_iff {path json : String} {entries : Entries Value} :
    variablesOfFile lib path json = .ok entries ↔ Variables.ofText lib json = .ok entries := by
  rw [variablesOfFile]
  cases Variables.ofText lib json with
  | error e => exact ⟨nofun, nofun⟩
  | ok found =>
      constructor
      · intro h
        cases h
        rfl
      · intro h
        cases h
        rfl

theorem variablesFrom_eq_ok_iff {file : Option String} {entries : Entries Value} :
    variablesFrom lib read file = .ok entries ↔ FileVariables lib read file entries := by
  constructor
  · intro h
    cases file with
    | none =>
        cases h
        exact .absent
    | some path =>
        rw [variablesFrom] at h
        cases hread : read path with
        | error e =>
            rw [hread] at h
            cases h
        | ok json =>
            rw [hread] at h
            exact .file hread (variablesOfFile_eq_ok_iff.mp h)
  · intro h
    cases h with
    | absent => rfl
    | file hread hentries =>
        rw [variablesFrom, hread]
        exact variablesOfFile_eq_ok_iff.mpr hentries

def rendered (lib : Json.Library) (read : String → Except FileError String)
    (options : RenderOptions) : Except CommandError String :=
  (runRender (m := Id) lib (fun path => pure (read path)) options).run

theorem rendered_of_read {text : String} (h : read options.template = .ok text) :
    rendered lib read options
      = renderWith options.template text (variablesFrom lib read options.varsFile)
          options.assignments := by
  rw [rendered, runRender, withFile, h]
  cases hfile : options.varsFile with
  | none => rfl
  | some path =>
      rw [variablesFrom]
      cases hread : read path with
      | error e =>
          change (withFile (m := Id) (fun path => pure (read path)) path _).run = _
          rw [withFile, hread]
          rfl
      | ok json =>
          change (withFile (m := Id) (fun path => pure (read path)) path _).run = _
          rw [withFile, hread]
          rfl

theorem rendered_of_unread {error : FileError} (h : read options.template = .error error) :
    rendered lib read options = .error (.read options.template error) := by
  rw [rendered, runRender, withFile, h]
  rfl

section

variable {text : String} {fileVariables assigned : Entries Value}

/-- With everything at hand the template is rendered, with any bindings that are looked up by the
same rule. -/
theorem rendered_prepared (hlib : lib.Lawful)
    (h : Prepared lib read options text fileVariables assigned)
    {bindings : List (String × Value)}
    (hbindings : ∀ name, (Context.ofVariables bindings).get? name
      = lookup fileVariables assigned name) :
    rendered lib read options
      = (Template.render options.template text bindings).mapError .template := by
  have hsame : ∀ name,
      (Context.ofVariables (assigned.foldl
        (fun built entry => Entries.insert entry.1 entry.2 built) fileVariables)).get? name
          = (Context.ofVariables bindings).get? name := by
    intro name
    rw [get?_assigned (h.file.sorted hlib), hbindings]
  rw [rendered_of_read h.text_eq, variablesFrom_eq_ok_iff.mpr h.file, renderWith]
  change (assign fileVariables options.assignments >>= _) = _
  rw [assign_eq_foldl h.assigned_eq]
  exact congrArg (Except.mapError _) (Template.render_congr_bindings _ text hsame)

theorem exists_prepared {output : String} (h : rendered lib read options = .ok output) :
    ∃ text fileVariables assigned, Prepared lib read options text fileVariables assigned := by
  cases htext : read options.template with
  | error e =>
      rw [rendered_of_unread htext] at h
      cases h
  | ok text =>
      rw [rendered_of_read htext, renderWith] at h
      cases hfile : variablesFrom lib read options.varsFile with
      | error e =>
          rw [hfile] at h
          cases h
      | ok fileVariables =>
          rw [hfile] at h
          change (assign fileVariables options.assignments >>= _) = _ at h
          cases hassign : assign fileVariables options.assignments with
          | error e =>
              rw [hassign] at h
              cases h
          | ok bindings =>
              rcases exists_assigned hassign with ⟨assigned, hassigned⟩
              exact ⟨text, fileVariables, assigned, htext, variablesFrom_eq_ok_iff.mp hfile,
                hassigned⟩

end

/-!
## What is reported
-/

def reportOf (lib : Json.Library) (read : String → Except FileError String) (elapsed : String)
    (args : List String) : Report :=
  (answer (m := Id) lib (fun path => pure (read path)) args).run.report elapsed

theorem ofArgs_render (args : List String) :
    ofArgs ("render" :: args) = (RenderOptions.ofArgs args).map render := by
  rw [ofArgs.eq_def]
  exact if_pos rfl

theorem reportOf_of_rejected (elapsed : String) {args : List String} {error : UsageError}
    (h : RenderOptions.ofArgs args = .error error) :
    reportOf lib read elapsed ("render" :: args) = (Answer.misuse error).report elapsed := by
  rw [reportOf, answer, ofArgs_render, h]
  rfl

theorem reportOf_of_accepted (elapsed : String) {args : List String}
    (h : RenderOptions.ofArgs args = .ok options) :
    reportOf lib read elapsed ("render" :: args)
      = match rendered lib read options with
        | .ok output => ⟨0, output, ""⟩
        | .error error => ⟨1, "", "error: " ++ error.message ++ "\n"⟩ := by
  rw [reportOf, answer, ofArgs_render, h]
  change (run (m := Id) lib (fun path => pure (read path)) (render options)).run.report elapsed = _
  rw [run]
  cases hrun : rendered lib read options with
  | error e =>
      have hanswer : runRender (m := Id) lib (fun path => pure (read path)) options = .error e :=
        hrun
      rw [hanswer]
      rfl
  | ok output =>
      have hanswer : runRender (m := Id) lib (fun path => pure (read path)) options = .ok output :=
        hrun
      rw [hanswer]
      rfl

/-- Accepted arguments are groups with one path among them, in an order that matters only among
groups of one kind.  With them the program prints the rendered template, where the last assignment
to a name counts before the file.  A run that fails prints nothing on the standard output and ends
with the status 2 if the arguments are not accepted, and with 1 otherwise. -/
theorem renders_or_fails_silently (args : List String) :
    (∀ options, RenderOptions.ofArgs args = .ok options
        ↔ ∃ groups, RenderOptions.wordsOf groups = args
          ∧ RenderOptions.pathsOf groups = [options.template]
          ∧ options.varsFile = (RenderOptions.varsFilesOf groups).getLast?
          ∧ options.assignments = RenderOptions.assignmentsOf groups)
      ∧ (∀ front middle back group, (∀ other ∈ middle, other.option? ≠ group.option?) ->
          args = RenderOptions.wordsOf (front ++ group :: (middle ++ back)) ->
          let moved := RenderOptions.wordsOf (front ++ (middle ++ group :: back))
          RenderOptions.ofArgs args = RenderOptions.ofArgs moved
            ∧ ∀ lib read elapsed, reportOf lib read elapsed ("render" :: args)
              = reportOf lib read elapsed ("render" :: moved))
      ∧ ∀ lib read elapsed,
        (∀ error, RenderOptions.ofArgs args = .error error ->
          (reportOf lib read elapsed ("render" :: args)).status = 2
            ∧ (reportOf lib read elapsed ("render" :: args)).stdout = "")
        ∧ ∀ options, RenderOptions.ofArgs args = .ok options ->
          (lib.Lawful -> ∀ text fileVariables assigned,
            Prepared lib read options text fileVariables assigned ->
            ∀ bindings, (∀ name, (Context.ofVariables bindings).get? name
                = lookup fileVariables assigned name) ->
              reportOf lib read elapsed ("render" :: args)
                = match Template.render options.template text bindings with
                  | .ok output => ⟨0, output, ""⟩
                  | .error error => ⟨1, "", "error: " ++ error.message ++ "\n"⟩)
          ∧ ((∀ text fileVariables assigned,
                ¬ Prepared lib read options text fileVariables assigned) ->
              (reportOf lib read elapsed ("render" :: args)).status = 1
                ∧ (reportOf lib read elapsed ("render" :: args)).stdout = "") := by
  refine ⟨fun options => RenderOptions.ofArgs_eq_ok_iff, ?_, fun lib read elapsed => ⟨?_, ?_⟩⟩
  · rintro front middle back group hkinds rfl
    have hmove := @RenderOptions.ofArgs_move front middle back group hkinds
    refine ⟨hmove, fun lib read elapsed => ?_⟩
    rw [reportOf, reportOf, answer, answer, ofArgs_render, ofArgs_render, hmove]
  · intro error h
    rw [reportOf_of_rejected elapsed h]
    exact ⟨rfl, rfl⟩
  · intro options h
    rw [reportOf_of_accepted elapsed h]
    constructor
    · intro hlib text fileVariables assigned hprepared bindings hbindings
      rw [rendered_prepared hlib hprepared hbindings]
      cases Template.render options.template text bindings with
      | error e => rfl
      | ok output => rfl
    · intro hunprepared
      cases hrendered : rendered lib read options with
      | error e => exact ⟨rfl, rfl⟩
      | ok output =>
          rcases exists_prepared hrendered with ⟨text, fileVariables, assigned, hprepared⟩
          exact absurd hprepared (hunprepared text fileVariables assigned)

/-- An assignment overrides the file and an earlier assignment, wherever the path stands. -/
theorem renders_or_fails_silently_overriding :
    let args := ["--var", "x=1", "page.vm", "--vars", "v.json", "--var", "x=2"]
    let json := "\x7b\"x\": 0, \"y\": \"b\"\x7d"
    let read := fun path =>
      if path = "page.vm" then .ok "$x$y"
      else if path = "v.json" then .ok json
      else .error .notFound
    RenderOptions.ofArgs args = .ok ⟨"page.vm", some "v.json", ["x=1", "x=2"]⟩
      ∧ RenderOptions.ofArgs args = RenderOptions.ofArgs
          ["page.vm", "--var", "x=1", "--vars", "v.json", "--var", "x=2"]
      ∧ reportOf Json.standard read "1µs" ("render" :: args) = ⟨0, "2b", ""⟩
      ∧ (reportOf Json.standard (fun _ => .error .notFound) "1µs" ("render" :: args)).status = 1
      ∧ (reportOf Json.standard read "1µs" ["render", "page.vm", "--vars"]).status = 2 := by
  intro args json read
  have hargs : RenderOptions.ofArgs args
      = .ok ⟨"page.vm", some "v.json", ["x=1", "x=2"]⟩ := rfl
  have hplain : RenderOptions.isOption "page.vm" = false := by
    decide +kernel
  have hvariables : Variables.ofText Json.standard json = .ok [("x", .int 0), ("y", .str "b")] := by
    have hsome : (Variables.ofText Json.standard json).toOption
        = some [("x", .int 0), ("y", .str "b")] := by
      decide +kernel
    cases h : Variables.ofText Json.standard json with
    | error e =>
        rw [h] at hsome
        cases hsome
    | ok entries =>
        rw [h] at hsome
        exact congrArg Except.ok (Option.some.inj hsome)
  have hprepared : Prepared Json.standard read ⟨"page.vm", some "v.json", ["x=1", "x=2"]⟩ "$x$y"
      [("x", .int 0), ("y", .str "b")] [("x", .int 1), ("x", .int 2)] :=
    ⟨rfl, .file rfl hvariables, rfl⟩
  refine ⟨hargs, ?_, ?_, ?_, ?_⟩
  · refine ((renders_or_fails_silently _).2.1 [] [.assignment "x=1"]
      [.varsFile "v.json", .assignment "x=2"] (.path "page.vm" hplain) ?_ rfl).1.symm
    intro other hother
    rw [List.mem_singleton.mp hother]
    exact Option.some_ne_none _
  · have hrenders := ((renders_or_fails_silently args).2.2 Json.standard read "1µs").2 _ hargs
    have hsorted := hprepared.file.sorted Json.lawful_standard
    refine (hrenders.1 Json.lawful_standard _ _ _ hprepared _ (get?_assigned hsorted _)).trans ?_
    decide +kernel
  · have hrenders := ((renders_or_fails_silently args).2.2 Json.standard
      (fun _ => .error .notFound) "1µs").2 _ hargs
    refine (hrenders.2 fun text fileVariables assigned h => ?_).1
    cases h.text_eq
  · have hrejected : RenderOptions.ofArgs ["page.vm", "--vars"] = .error .varsNeedsFile := rfl
    exact (((renders_or_fails_silently _).2.2 Json.standard read "1µs").1 _
      hrejected).1

end Command
end Stencil
