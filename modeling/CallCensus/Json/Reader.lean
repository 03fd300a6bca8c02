import CallCensus.Dict
import CallCensus.Json.Token

/-!
Reading JSON into values of known shape.

A reader knows what it wants. It takes one pass over the text and stops at the first
fault, so a list that breaks off and a list that holds a wrong element are told apart by
what comes first.

* `string`, `count`, `optional`, `list`, `dict`: readers for plain shapes;
* `record`: a reader for objects with named fields. Fields may come in any order, an
  unknown field is passed over, and a list of the fields in their order stands for the
  object as well;
* `parse`: a whole text.
-/

namespace CallCensus.Json

variable {α σ : Type}

/-! ### Values that nobody asks for -/

/-- What may come next inside a value that is passed over. -/
inductive Expected where
  /-- A value. -/
  | value
  /-- The first item of a list or object, or its end. -/
  | first
  /-- A comma, or the end of the list or object. -/
  | next
  /-- An item of a list or object. -/
  | item

/-- Skip a key of an object with its colon. -/
def skipKey (s : Text) : Except Flaw Text :=
  match skipBlank s with
  | [] => .error .truncated
  | '"' :: s =>
    match skipString s with
    | .error e => .error e
    | .ok s =>
      match skipBlank s with
      | [] => .error .truncated
      | ':' :: s => .ok s
      | _ => .error .malformed
  | _ => .error .malformed

/-- Skip a value that is neither list nor object. -/
def skipScalar (s : Text) : Except Flaw Text :=
  match s with
  | [] => .error .truncated
  | 'n' :: s => (word ['u', 'l', 'l'] s).map (·.2)
  | 't' :: s => (word ['r', 'u', 'e'] s).map (·.2)
  | 'f' :: s => (word ['a', 'l', 's', 'e'] s).map (·.2)
  | '"' :: s => skipString s
  | c :: rest => if c = '-' ∨ c.isDigit then skipNumber (c :: rest) else .error .malformed

/-- The bracket that closes a list (`false`) or an object (`true`). -/
def closing : Bool → Char
  | false => ']'
  | true => '\x7d'

/-- Skip the rest of a value inside the open lists and objects `frames`, innermost
first, in at most `steps` steps. -/
def skipWithin : (steps : Nat) → Expected → (frames : List Bool) → Text → Except Flaw Text
  | 0, _, _, _ => .error .truncated
  | steps + 1, .value, frames, s =>
    match skipBlank s with
    | '[' :: s => skipWithin steps .first (false :: frames) s
    | '\x7b' :: s => skipWithin steps .first (true :: frames) s
    | s =>
      match skipScalar s with
      | .error e => .error e
      | .ok s => skipWithin steps .next frames s
  | _ + 1, _, [], s => .ok s
  | steps + 1, .first, frame :: frames, s =>
    match skipBlank s with
    | [] => .error .truncated
    | c :: s =>
      if c = closing frame then skipWithin steps .next frames s
      else skipWithin steps .item (frame :: frames) (c :: s)
  | steps + 1, .next, frame :: frames, s =>
    match skipBlank s with
    | [] => .error .truncated
    | c :: s =>
      if c = closing frame then skipWithin steps .next frames s
      else if c = ',' then skipWithin steps .item (frame :: frames) s
      else .error .malformed
  | steps + 1, .item, frame :: frames, s =>
    if frame then
      match skipKey s with
      | .error e => .error e
      | .ok s => skipWithin steps .value (frame :: frames) s
    else skipWithin steps .value (frame :: frames) s

/-- Pass over a value of any shape. -/
def skipValue (s : Text) : Except Flaw Text :=
  skipWithin (3 * s.length + 3) .value [] s

/-! ### Plain shapes -/

/-- The fault of a value of the wrong shape. A scalar is read to its end first, and its
own faults count. -/
def wrongShape (s : Text) : Flaw :=
  match s with
  | [] => .truncated
  | 'n' :: s => ofScalar (word ['u', 'l', 'l'] s)
  | 't' :: s => ofScalar (word ['r', 'u', 'e'] s)
  | 'f' :: s => ofScalar (word ['a', 'l', 's', 'e'] s)
  | '"' :: s => ofScalar (stringBody s)
  | '[' :: _ => .mismatch
  | '\x7b' :: _ => .mismatch
  | c :: rest => if c = '-' ∨ c.isDigit then ofScalar (number (c :: rest)) else .malformed
where
  /-- The fault of a scalar that was read where something else was wanted. -/
  ofScalar {β : Type} : Except Flaw β → Flaw
    | .error e => e
    | .ok _ => .mismatch

/-- Read a string. -/
def string : Reader String := fun s =>
  match skipBlank s with
  | '"' :: s => stringBody s
  | s => .error (wrongShape s)

/-- Read a number that is written as a count of at most 64 bits. -/
def count : Reader Nat := fun s =>
  match skipBlank s with
  | [] => .error .truncated
  | c :: rest =>
    if c = '-' ∨ c.isDigit then
      match number (c :: rest) with
      | .error e => .error e
      | .ok (some n, s) => .ok (n, s)
      | .ok (none, _) => .error .mismatch
    else .error (wrongShape (c :: rest))

/-- Read a value that may be `null`. -/
def optional (read : Reader α) : Reader (Option α) := fun s =>
  match skipBlank s with
  | 'n' :: s => (word ['u', 'l', 'l'] s).map fun r => (none, r.2)
  | s => (read s).map fun r => (some r.1, r.2)

/-- Go to the next element of a list: the text from that element on, or `none` at the
end of the list, before its bracket. -/
def nextElement (first : Bool) (s : Text) : Except Flaw (Option Text × Text) :=
  match skipBlank s with
  | [] => .error .truncated
  | ']' :: s => .ok (none, ']' :: s)
  | c :: s =>
    if first then .ok (some (c :: s), c :: s)
    else if c = ',' then
      match skipBlank s with
      | [] => .error .truncated
      | ']' :: _ => .error .malformed
      | s => .ok (some s, s)
    else .error .malformed

/-- Read the end of a list. -/
def endList (s : Text) : Except Flaw Text :=
  match skipBlank s with
  | [] => .error .truncated
  | ']' :: s => .ok s
  | _ => .error .malformed

/-- Read the elements of a list after those in `done`, which are in reverse order, up to
its end, at most `steps` of them. -/
def elementsOnto (read : Reader α) (done : List α) : (steps : Nat) → Reader (List α)
  | 0, _ => .error .truncated
  | steps + 1, s =>
    match nextElement done.isEmpty s with
    | .error e => .error e
    | .ok (none, s) => (endList s).map fun s => (done.reverse, s)
    | .ok (some s, _) =>
      match read s with
      | .error e => .error e
      | .ok (a, s) => elementsOnto read (a :: done) steps s

/-- Read a list. -/
def list (read : Reader α) : Reader (List α) := fun s =>
  match skipBlank s with
  | '[' :: s => elementsOnto read [] (s.length + 1) s
  | s => .error (wrongShape s)

/-- Read the next key of an object, or `none` at its end, with the end. -/
def nextKey (first : Bool) : Reader (Option String) := fun s =>
  match skipBlank s with
  | [] => .error .truncated
  | '\x7d' :: s => .ok (none, s)
  | c :: s =>
    if first then key (c :: s)
    else if c = ',' then key (skipBlank s)
    else .error .malformed
where
  /-- Read a key. -/
  key (s : Text) : Except Flaw (Option String × Text) :=
    match s with
    | [] => .error .truncated
    | '"' :: s => (stringBody s).map fun r => (some r.1, r.2)
    | _ => .error .malformed

/-- Read the colon after a key. -/
def colon (s : Text) : Except Flaw Text :=
  match skipBlank s with
  | [] => .error .truncated
  | ':' :: s => .ok s
  | _ => .error .malformed

/-- Read the colon after a key and the value after it. -/
def valueOf (read : Reader α) : Reader α := fun s =>
  match colon s with
  | .error e => .error e
  | .ok s => read s

/-- Read the entries of an object into a dictionary, at most `steps` of them. -/
def entriesOnto (read : Reader α) (first : Bool) (d : Dict α) : (steps : Nat) → Reader (Dict α)
  | 0, _ => .error .truncated
  | steps + 1, s =>
    match nextKey first s with
    | .error e => .error e
    | .ok (none, s) => .ok (d, s)
    | .ok (some key, s) =>
      match valueOf read s with
      | .error e => .error e
      | .ok (a, s) => entriesOnto read false (d.insert key a) steps s

/-- Read an object with any keys; of entries with one key the last stays. -/
def dict (read : Reader α) : Reader (Dict α) := fun s =>
  match skipBlank s with
  | '\x7b' :: s => entriesOnto read true .empty (s.length + 1) s
  | s => .error (wrongShape s)

/-! ### Objects with named fields -/

/-- A field of a record that is being read into drafts of type `σ`. -/
structure Field (σ : Type) where
  name : String
  /-- Whether a draft holds the field already. -/
  isSet : σ → Bool
  /-- Read the field's value into a draft. -/
  read : σ → Reader σ
  /-- Whether the field may be left out. -/
  mayMiss : Bool

/-- The draft at the end of an object, if no field is missing that may not be. -/
def completed (fields : List (Field σ)) (draft : σ) : Except Flaw σ :=
  if fields.all fun f => f.isSet draft || f.mayMiss then .ok draft else .error .mismatch

/-- Read the fields of an object into a draft, at most `steps` of them. A field that
comes twice is refused at its second key. -/
def membersOnto (fields : List (Field σ)) (first : Bool) (draft : σ) : (steps : Nat) → Reader σ
  | 0, _ => .error .truncated
  | steps + 1, s =>
    match nextKey first s with
    | .error e => .error e
    | .ok (none, s) => (completed fields draft).map fun draft => (draft, s)
    | .ok (some key, s) =>
      match fields.find? fun f => f.name == key with
      | none =>
        match (colon s).bind skipValue with
        | .error e => .error e
        | .ok s => membersOnto fields false draft steps s
      | some f =>
        if f.isSet draft then .error .mismatch
        else
          match valueOf (f.read draft) s with
          | .error e => .error e
          | .ok (draft, s) => membersOnto fields false draft steps s

/-- Read fields from the elements of a list into a draft, in their order. -/
def elementsInto (draft : σ) (first : Bool) : List (Field σ) → Reader σ
  | [], s => .ok (draft, s)
  | f :: fields, s =>
    match nextElement first s with
    | .error e => .error e
    | .ok (none, s) => if f.mayMiss then elementsInto draft first fields s else .error .mismatch
    | .ok (some s, _) =>
      match f.read draft s with
      | .error e => .error e
      | .ok (draft, s) => elementsInto draft false fields s

/-- Read a record into a draft, from an object or from a list of its fields. -/
def record (fields : List (Field σ)) (draft : σ) : Reader σ := fun s =>
  match skipBlank s with
  | '\x7b' :: s => membersOnto fields true draft (s.length + 1) s
  | '[' :: s =>
    match elementsInto draft true fields s with
    | .error e => .error e
    | .ok (draft, s) => (endList s).map fun s => (draft, s)
  | s => .error (wrongShape s)

/-! ### Whole texts -/

/-- Read a whole text, which holds one value and nothing after it but blanks. -/
def parse (read : Reader α) (s : Text) : Except Flaw α :=
  match read s with
  | .error e => .error e
  | .ok (a, s) => if (skipBlank s).isEmpty then .ok a else .error .malformed

end CallCensus.Json
