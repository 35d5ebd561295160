import Stencil.CommandLine

/-!
# Groups of arguments

The arguments of a rendering are made up of groups: a path that does not look like an option, or an
option with whatever argument follows it.  Exactly one of the groups is a path.  What the arguments
come to does not depend on how groups of different kinds are mixed.
-/

namespace Stencil
namespace RenderOptions

inductive ArgumentGroup where
  | path (arg : String) (plain : isOption arg = false)
  | varsFile (file : String)
  | assignment (text : String)

namespace ArgumentGroup

def option? : ArgumentGroup → Option String
  | path _ _ => none
  | varsFile _ => some "--vars"
  | assignment _ => some "--var"

def words : ArgumentGroup → List String
  | path arg _ => [arg]
  | varsFile file => ["--vars", file]
  | assignment text => ["--var", text]

def path? : ArgumentGroup → Option String
  | path arg _ => some arg
  | _ => none

def varsFile? : ArgumentGroup → Option String
  | varsFile file => some file
  | _ => none

def assignment? : ArgumentGroup → Option String
  | assignment text => some text
  | _ => none

end ArgumentGroup

def wordsOf (groups : List ArgumentGroup) : List String :=
  groups.flatMap ArgumentGroup.words

def pathsOf (groups : List ArgumentGroup) : List String :=
  groups.filterMap ArgumentGroup.path?

def varsFilesOf (groups : List ArgumentGroup) : List String :=
  groups.filterMap ArgumentGroup.varsFile?

def assignmentsOf (groups : List ArgumentGroup) : List String :=
  groups.filterMap ArgumentGroup.assignment?

def ofPaths (paths : List String) (varsFile : Option String) (assignments : List String) :
    Except UsageError RenderOptions :=
  match paths with
  | [] => .error .missingTemplate
  | [path] => .ok ⟨path, varsFile, assignments⟩
  | _ :: extra :: _ => .error (.unexpectedArgument extra)

theorem eq_singleton_of_ofPaths {paths : List String} {varsFile : Option String}
    {assignments : List String} {options : RenderOptions}
    (h : ofPaths paths varsFile assignments = .ok options) :
    paths = [options.template] ∧ options.varsFile = varsFile
      ∧ options.assignments = assignments := by
  cases paths with
  | nil => cases h
  | cons path others =>
      cases others with
      | nil =>
          cases h
          exact ⟨rfl, rfl, rfl⟩
      | cons extra others => cases h

/-!
## From groups to options
-/

section

variable {template varsFile : Option String} {assignments rest : List String} {arg : String}

theorem scan_path (plain : isOption arg = false) :
    scan template varsFile assignments (arg :: rest)
      = if template.isNone then scan (some arg) varsFile assignments rest
        else .error (.unexpectedArgument arg) := by
  have hvars : arg ≠ "--vars" := by
    rintro rfl
    exact absurd plain (by decide)
  have hvar : arg ≠ "--var" := by
    rintro rfl
    exact absurd plain (by decide)
  rw [scan.eq_def]
  dsimp only
  rw [if_neg hvars, if_neg hvar, plain, if_neg Bool.false_ne_true]

end

/-- Groups are taken as they come: the last file stays, and the assignments keep their order. -/
theorem scan_words (groups : List ArgumentGroup) (template varsFile : Option String)
    (assignments : List String) :
    scan template varsFile assignments (wordsOf groups)
      = ofPaths (template.toList ++ pathsOf groups) ((varsFilesOf groups).getLast?.or varsFile)
        (assignments.reverse ++ assignmentsOf groups) := by
  induction groups generalizing template varsFile assignments with
  | nil =>
      cases template with
      | none => rfl
      | some path => simp [wordsOf, scan, ofPaths, pathsOf, varsFilesOf, assignmentsOf]
  | cons group rest ih =>
      cases group with
      | path arg plain =>
          cases template with
          | none => exact (scan_path plain).trans (ih (some arg) varsFile assignments)
          | some path => exact scan_path plain
      | varsFile file =>
          have hfiles : varsFilesOf (.varsFile file :: rest) = file :: varsFilesOf rest := rfl
          rw [hfiles, List.getLast?_cons, Option.some_or, ← Option.or_some]
          exact ih template (some file) assignments
      | assignment text =>
          refine (ih template varsFile (text :: assignments)).trans ?_
          rw [List.reverse_cons, List.append_assoc]
          rfl

theorem ofArgs_words (groups : List ArgumentGroup) :
    ofArgs (wordsOf groups)
      = ofPaths (pathsOf groups) (varsFilesOf groups).getLast? (assignmentsOf groups) := by
  rw [ofArgs, scan_words, Option.or_none]
  rfl

/-!
## From arguments to groups
-/

theorem exists_groups {args : List String} {template varsFile : Option String}
    {assignments : List String} {options : RenderOptions}
    (h : scan template varsFile assignments args = .ok options) :
    ∃ groups, wordsOf groups = args := by
  fun_induction scan template varsFile assignments args with
  | case1 => exact ⟨[], rfl⟩
  | case2 => exact ⟨[], rfl⟩
  | case3 template varsFile assignments file rest ih =>
      rcases ih h with ⟨groups, rfl⟩
      exact ⟨.varsFile file :: groups, rfl⟩
  | case4 => cases h
  | case5 template varsFile assignments text rest _ ih =>
      rcases ih h with ⟨groups, rfl⟩
      exact ⟨.assignment text :: groups, rfl⟩
  | case6 => cases h
  | case7 => cases h
  | case8 template varsFile assignments arg rest _ _ plain _ ih =>
      rcases ih h with ⟨groups, rfl⟩
      exact ⟨.path arg (Bool.eq_false_iff.mpr plain) :: groups, rfl⟩
  | case9 => cases h

theorem ofArgs_eq_ok_iff {args : List String} {options : RenderOptions} :
    ofArgs args = .ok options
      ↔ ∃ groups, wordsOf groups = args ∧ pathsOf groups = [options.template]
        ∧ options.varsFile = (varsFilesOf groups).getLast?
        ∧ options.assignments = assignmentsOf groups := by
  constructor
  · intro h
    rcases exists_groups h with ⟨groups, rfl⟩
    rw [ofArgs_words] at h
    exact ⟨groups, rfl, eq_singleton_of_ofPaths h⟩
  · rintro ⟨groups, rfl, hpaths, hfile, hassignments⟩
    rw [ofArgs_words, hpaths, ← hfile, ← hassignments]
    rfl

/-!
## Moving groups
-/

section

variable {front middle back : List ArgumentGroup} {group : ArgumentGroup}
  (hkinds : ∀ other ∈ middle, other.option? ≠ group.option?)

include hkinds

theorem filterMap_move {f : ArgumentGroup → Option String} {option : Option String}
    (hf : ∀ group, group.option? ≠ option -> f group = none) :
    (front ++ group :: (middle ++ back)).filterMap f
      = (front ++ (middle ++ group :: back)).filterMap f := by
  have hone : f group = none ∨ middle.filterMap f = [] := by
    by_cases hgroup : group.option? = option
    · refine Or.inr (List.filterMap_eq_nil_iff.mpr fun other hother => hf other ?_)
      exact hgroup ▸ hkinds other hother
    · exact Or.inl (hf group hgroup)
  rcases hone with hgroup | hmiddle
  · simp [hgroup]
  · simp [hmiddle, List.filterMap_cons]

theorem ofArgs_move :
    ofArgs (wordsOf (front ++ group :: (middle ++ back)))
      = ofArgs (wordsOf (front ++ (middle ++ group :: back))) := by
  have hpath : ∀ group : ArgumentGroup, group.option? ≠ none -> group.path? = none := by
    intro group h
    cases group with
    | path => exact absurd rfl h
    | _ => rfl
  have hfile : ∀ group : ArgumentGroup, group.option? ≠ some "--vars" ->
      group.varsFile? = none := by
    intro group h
    cases group with
    | varsFile => exact absurd rfl h
    | _ => rfl
  have hassignment : ∀ group : ArgumentGroup, group.option? ≠ some "--var" ->
      group.assignment? = none := by
    intro group h
    cases group with
    | assignment => exact absurd rfl h
    | _ => rfl
  rw [ofArgs_words, ofArgs_words, pathsOf, pathsOf, filterMap_move hkinds hpath, varsFilesOf,
    varsFilesOf, filterMap_move hkinds hfile, assignmentsOf, assignmentsOf,
    filterMap_move hkinds hassignment]

end

end RenderOptions
end Stencil
