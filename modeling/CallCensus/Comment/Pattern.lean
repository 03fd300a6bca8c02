import CallCensus.Pattern.Search

/-!
Comments, found by a backtracking pattern.

The pattern has two groups. Group 1 matches a run of comments that follow each other
without a gap. A comment takes the line break after it along when the next line is
blank or goes on with a comment, and a run at the very start of the text takes the
blanks before it along. Group 2 matches what stays: a quoted span, or a character or
line break together with the characters after it that are neither blank nor special.

* `Comment.pattern`: the pattern;
* `Comment.stripByPattern?`: every run of comments becomes one space.
-/

namespace CallCensus.Comment

open Pattern

/-- Blanks within a line: spaces and tabs. -/
def indent : Pattern :=
  many (oneOf [' ', '\t'])

/-- A line break: a line feed, with a carriage return before it if there is one. -/
def lineBreak : Pattern :=
  seq (optional (char '\r')) (char '\n')

/-- A line break before a line that is blank or starts with a comment. -/
def foldedBreak : Pattern :=
  seq lineBreak (ahead (seq indent (firstOf lineBreak [exactly ['/', '*'], exactly ['/', '/']])))

/-- A block comment, with the line break after it if that is folded. -/
def blockComment : Pattern :=
  sequence [exactly ['/', '*'], many (noneOf ['*']), manyOne (char '*'),
    many (sequence [noneOf ['/', '*'], many (noneOf ['*']), manyOne (char '*')]), char '/',
    optional (seq indent foldedBreak)]

/-- One character of a line comment, or a backslash and what it escapes. -/
def lineCommentCharacter : Pattern :=
  alt (noneOf ['\\']) (seq (char '\\') (optional lineBreak))

/-- A line comment: up to a line break, which is taken only if it is folded, or up to
the end of the text. -/
def lineComment : Pattern :=
  sequence [exactly ['/', '/'], few lineCommentCharacter,
    firstOf foldedBreak [ahead lineBreak, textEnd]]

/-- A run of comments. -/
def commentRun : Pattern :=
  manyOne (seq (optional (seq textStart indent)) (alt blockComment lineComment))

/-- A span between two quotes `q`, in which a backslash escapes the next character. -/
def quotedSpan (q : Char) : Pattern :=
  sequence [char q, many (noneOf [q, '\\']),
    many (sequence [char '\\', any, many (noneOf [q, '\\'])]), char q]

/-- A character or line break with the run of ordinary characters after it. -/
def codeRun : Pattern :=
  seq (alt lineBreak any)
    (many (one fun c => !(c = '/' || c = '"' || c = '\'' || c = '\\' || Unicode.isBlank c)))

/-- A run of comments as group 1, or a part of the text that stays as group 2. -/
def pattern : Pattern :=
  alt (group 1 commentRun) (group 2 (firstOf (quotedSpan '"') [quotedSpan '\'', codeRun]))

/-- What stays of a segment: characters outside matches, what group 2 has matched, and
one space for every other match. -/
def segmentKept : Segment → Text
  | .plain c => [c]
  | .hit m => (m.group? 2).getD [' ']

/-- A source text with every run of comments replaced by one space; `none` when the
search gives up. -/
def stripByPattern? (limit : Nat) (s : Text) : Option Text :=
  (segments? pattern limit s).map fun segments => segments.flatMap segmentKept

end CallCensus.Comment
