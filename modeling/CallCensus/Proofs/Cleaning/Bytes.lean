import CallCensus.Proofs.CallSite.Bytes
import CallCensus.Proofs.Comment.Bytes
import CallCensus.Proofs.Literal.Bytes

/-!
Cleaning and counting by bytes.

The loops of the scans go over the bytes of a text, in steps that may end inside a character, and
cut the text at the offsets that they come to. They do so only where characters end, and come to
what the scans by characters come to.

* `scans_by_bytes`: every loop comes to a result, and the scans agree.
-/

namespace CallCensus.Cleaning

open Text

/-- **The scans by bytes never cut inside a character, and they always end.** A part of a text
exists only between two places where characters end; otherwise the round that asks for it fails.
Every loop settles: each of its rounds moves its cursor on, which stays within the text, and no
round on its way fails. And the removal of comments, the removal of literals and the count of call
sites come to what they come to by characters. -/
theorem scans_by_bytes (operator s : Text) :
    (∀ i j part, slice? (String.ofList s) i j = some part ↔ ∃ u v w, s = u ++ (v ++ w) ∧
      i = utf8Length u ∧ j = utf8Length (u ++ v) ∧ part = String.ofList v) ∧
    (∀ quote i, ∃ close, Settles (Comment.closingRound (String.ofList s).toUTF8 quote) id
      (utf8Length s) i close) ∧
    (∀ i, ∃ close, Settles (Comment.lineEndRound (String.ofList s).toUTF8) id
      (utf8Length s) i close) ∧
    (∀ quote i, ∃ close, Settles (Literal.closingRound (String.ofList s).toUTF8 quote) id
      (utf8Length s) i close) ∧
    Settles (Pass.round (String.ofList s) " "
        (Comment.spotAt? (String.ofList s) (String.ofList s).toUTF8))
      Pass.cursor (utf8Length s) .start (String.ofList (Comment.stripByScan s)) ∧
    Settles (Pass.round (String.ofList s) "" (Literal.spotAt? (String.ofList s).toUTF8))
      Pass.cursor (utf8Length s) .start (String.ofList (Literal.stripByScan s)) ∧
    (operator ≠ [] →
      Settles (CallSite.Count.round (String.ofList operator) (String.ofList s))
        CallSite.Count.cursor (utf8Length s) ⟨0, 0⟩ (CallSite.countByScan operator s)) ∧
    Comment.stripByBytes? (String.ofList s) = some (String.ofList (Comment.stripByScan s)) ∧
    Literal.stripByBytes? (String.ofList s) = some (String.ofList (Literal.stripByScan s)) ∧
    CallSite.countByBytes? (String.ofList operator) (String.ofList s) =
      some (CallSite.countByScan operator s) := by
  rw [← size_toUTF8]
  refine ⟨fun i j part => slice?_eq_some_iff, fun quote i => ?_, fun i => ?_, fun quote i => ?_,
    ?_, ?_, fun hoperator => ?_, Comment.stripByBytes?_eq s, Literal.stripByBytes?_eq s,
    CallSite.countByBytes?_eq operator s⟩
  · exact (Comment.advances_closingRound _ quote).exists_settles
      (Comment.closingRound_ne_fail _ quote) i
  · exact (Comment.advances_lineEndRound _).exists_settles (Comment.lineEndRound_ne_fail _) i
  · exact (Literal.advances_closingRound _ quote).exists_settles
      (Literal.closingRound_ne_fail _ quote) i
  · exact (Comment.follows_pieces s).advances.settles (Comment.stripByBytes?_eq s)
  · exact (Literal.follows_pieces s).advances.settles (Literal.stripByBytes?_eq s)
  · exact (CallSite.advances_round hoperator s).settles
      (CallSite.loop_eq_countByScan hoperator s)

end CallCensus.Cleaning
