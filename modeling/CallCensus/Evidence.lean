import CallCensus.Pattern.Meaning
import CallCensus.Pattern.Notation
import CallCensus.Text.Basic
import CallCensus.Unicode.Folding

/-!
Evidence that a source text uses a library.

What counts as evidence is written as a pattern.

* `Evidence.holdsName`: whether a text holds the name of a distribution, letter case aside;
* `Evidence.mentions`: whether a text names a distribution, letter case aside. Code
  that uses RxJava imports `io.reactivex`, so that name counts for it as well;
* `Evidence.inspected`: the collection libraries whose methods are named like
  reactive operators, with the names that their imports hold.
-/

namespace CallCensus.Evidence

/-- One given character, letter case aside. -/
def letterFolded (c : Char) : Pattern :=
  .one fun d => Unicode.fold d == Unicode.fold c

/-- Whether a text holds the name of a distribution. -/
def holdsName (distribution : String) (s : Text) : Bool :=
  match Pattern.read? letterFolded (Pattern.escape distribution.toList) with
  | none => false
  | some p => p.occursIn s

/-- The evidence of a distribution as a written pattern: its name, or another name under
which code may import it. -/
def written (distribution : String) : Text :=
  if distribution.toList.map Char.toLower = "rxjava".toList then
    Pattern.escape distribution.toList ++ "|reactivex".toList
  else Pattern.escape distribution.toList

/-- The evidence of a distribution. -/
def pattern? (distribution : String) : Option Pattern :=
  Pattern.read? letterFolded (written distribution)

/-- Whether a text names a distribution. -/
def mentions (distribution : String) (s : Text) : Bool :=
  match pattern? distribution with
  | none => false
  | some p => p.occursIn s

/-- A library. -/
structure Library where
  name : String
  /-- The names that show its use, as a written pattern. -/
  marks : Text

/-- Whether a text uses a library: it holds one of the library's names as written. -/
def Library.usedIn (l : Library) (s : Text) : Bool :=
  match Pattern.read? .char l.marks with
  | none => false
  | some p => p.occursIn s

/-- The collection libraries that an audit counts. -/
def inspected : List Library :=
  [⟨"Stream", "java\\.util\\.stream".toList⟩,
    ⟨"Eclipse", "org\\.eclipse\\.collections".toList⟩,
    ⟨"CollectionUtils", "org\\.apache\\.commons\\.collections4\\.CollectionUtils".toList⟩,
    ⟨"Guava", "com\\.google\\.common\\.collect\\.Collections2|com\\.google\\.guava".toList⟩]

end CallCensus.Evidence
