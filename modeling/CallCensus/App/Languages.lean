import CallCensus.App.Reading
import CallCensus.Notice

/-!
The extensions of the source files of programming languages.

* `Language.builtin`: the languages that are known anyway;
* `Language.load`: the languages of a file, if there is one;
* `Language.extensionsOf`: all extensions of the languages asked for.
-/

namespace CallCensus.App

/-- A language with the extensions of its files, with their dots. -/
structure Language where
  name : String
  extensions : List String
deriving DecidableEq

namespace Language

/-- The languages that are known where no file lists them. -/
def builtin : List Language :=
  [⟨"C#", [".cs", ".cake", ".csx"]⟩,
    ⟨"Dart", [".dart"]⟩,
    ⟨"Go", [".go"]⟩,
    ⟨"Java", [".java"]⟩,
    ⟨"JavaScript", [".js", ".cjs", ".mjs", ".jsx", ".es6"]⟩,
    ⟨"Kotlin", [".kt", ".kts", ".ktm"]⟩,
    ⟨"Python", [".py", ".pyw"]⟩,
    ⟨"Scala", [".scala", ".sc"]⟩,
    ⟨"Swift", [".swift"]⟩,
    ⟨"TypeScript", [".ts", ".tsx", ".mts", ".cts"]⟩]

/-- A language of which only some keys have been read. -/
structure Draft where
  name : Option String
  extensions : Option (List String)

/-- The keys of a language. -/
def fields : List (Json.Field Draft) :=
  [⟨"name", fun d => d.name.isSome,
      fun d s => (Json.string s).map fun r => ({ d with name := some r.1 }, r.2), false⟩,
    ⟨"extensions", fun d => d.extensions.isSome,
      fun d s => (Json.list Json.string s).map fun r => ({ d with extensions := some r.1 }, r.2),
      false⟩]

/-- Read a language. -/
def read : Json.Reader Language := fun s =>
  match Json.record fields ⟨none, none⟩ s with
  | .error flaw => .error flaw
  | .ok (⟨some name, some extensions⟩, s) => .ok (⟨name, extensions⟩, s)
  | .ok _ => .error .mismatch

/-- The languages of a file, and the builtin ones if there is no such file. -/
def load (tree : FileTree) (path : String) : Except Problem (List Language) :=
  if tree.isFile path then readJson tree (Json.list read) path else .ok builtin

/-- The extensions of the language of a name; there may be several of one name. -/
def extensionsOfName (table : List Language) (name : String) : List String :=
  (table.filter fun l => l.name == name).flatMap (·.extensions)

/-- The notice about a language that is not in the table. -/
def unknownNotice (name : String) : Notice :=
  .warning ("No extensions known for language '" ++ name ++ "'")

/-- All extensions of the languages asked for. Languages that are not in the table have
none and are reported. -/
def extensionsOf (table : List Language) (names : List String) : NameSet × List Notice :=
  (NameSet.ofList (names.flatMap (extensionsOfName table)),
    (names.filter fun name => !table.any fun l => l.name == name).map unknownNotice)

end Language

end CallCensus.App
