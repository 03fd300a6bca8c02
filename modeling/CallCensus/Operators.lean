import CallCensus.Error
import CallCensus.Evidence
import CallCensus.Json.Reader
import CallCensus.Notice

/-!
The operators that a census counts.

* `Operators.ofNames?`: names without the white space around them, without blank ones,
  and each once;
* `Operators.ofJson?`: the names of a JSON list;
* `Operators.load?`: the list of a distribution in a directory. It is the file with the
  least name among those whose name holds the distribution's, letter case aside, so the
  order in which the directory is enumerated does not matter.
-/

namespace CallCensus

/-- The operators of a distribution. There is at least one, and none comes twice. -/
structure Operators where
  distribution : String
  names : List String
  nonempty : names ≠ []
  distinct : names.Nodup
deriving DecidableEq

namespace Operators

/-- The first occurrences of names and the later ones, after those in `kept` and
`repeated`, which are in reverse order. -/
def distinctOnto (kept repeated : List String) : List String → List String × List String
  | [] => (kept.reverse, repeated.reverse)
  | name :: rest =>
    if kept.contains name then distinctOnto kept (name :: repeated) rest
    else distinctOnto (name :: kept) repeated rest

/-- The names that are kept are distinct. -/
theorem nodup_distinctOnto {kept repeated names : List String} (h : kept.Nodup) :
    (distinctOnto kept repeated names).1.Nodup := by
  induction names generalizing kept repeated with
  | nil => exact List.pairwise_reverse.2 (h.imp Ne.symm)
  | cons name rest ih =>
    rw [distinctOnto]
    split
    · exact ih h
    · rename_i hnew
      exact ih (List.nodup_cons.2 ⟨by simpa using hnew, h⟩)

/-- The names that are not blank, without the white space around them. -/
def presentNames (names : List String) : List String :=
  (names.map trimmed).filter fun name => !name.isEmpty

/-- The warning about a name that comes again. -/
def repeatNotice (distribution name : String) : Notice :=
  .warning ("Duplicate operator '" ++ name ++ "' ignored for " ++ distribution)

/-- The operators of a distribution with the given names: trimmed, not blank, and only
the first of equal ones. At least one must be left. -/
def ofNames? (distribution : String) (names : List String) :
    Except Cause (Operators × List Notice) :=
  let kept := (distinctOnto [] [] (presentNames names)).1
  let repeated := (distinctOnto [] [] (presentNames names)).2
  if h : kept = [] then .error (.config (.noOperators distribution))
  else
    .ok (⟨distribution, kept, h, nodup_distinctOnto .nil⟩,
      repeated.map (repeatNotice distribution))

/-- The operators of a distribution that a JSON list of strings names. -/
def ofJson? (distribution : String) (json : Text) : Except Cause (Operators × List Notice) :=
  match Json.parse (Json.list Json.string) json with
  | .error flaw => .error (.json flaw)
  | .ok names => ofNames? distribution names

/-- The names in a directory that may belong to the operator list of a distribution. -/
def candidates (distribution : String) (entries : List (String × Place)) : List String :=
  entries.filterMap fun (name, place) =>
    match place with
    | .directory => none
    | .file _ => if Evidence.holdsName distribution name.toList then some name else none

/-- The least of some names. -/
def least? : List String → Option String
  | [] => none
  | name :: names => some (names.foldl (fun a b => if b < a then b else a) name)

/-- The operators of a distribution, from the lists in a directory. -/
def load? (tree : FileTree) (directory distribution : String) :
    Except Cause (Operators × List Notice) :=
  match tree.readDirectory directory with
  | .error why => .error (.operatorsRead directory why)
  | .ok entries =>
    match least? (candidates distribution entries) with
    | none => .error (.operatorsNotFound distribution)
    | some name =>
      let path := Path.join directory name
      match tree.readText path with
      | .error why => .error (.operatorsRead path why)
      | .ok json => ofJson? distribution json

end Operators

end CallCensus
