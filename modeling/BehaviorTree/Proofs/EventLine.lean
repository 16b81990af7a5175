/-
# BehaviorTree.Proofs.EventLine — a trace event can be told from its line

The line of an event has its tag in the middle, and a tag is any text. It may hold brackets, digits, and what looks like
the two numbers behind it. Still a line can be read in one way only: the frame ends at the first character that is no
digit, so the tag begins behind the first bracket, and from the other end the numbers are the last digits of the line and
the last digits before the mark in front of those. What is left in the middle is the tag, whatever it looks like.

`TraceEvent.ofText?` reads lines like this, and `TraceEvent.ofText?_eq_some_iff` says that it reads the line of an event as
this event and nothing else as one.
-/
import BehaviorTree.Proofs.Acting
import BehaviorTree.Proofs.Numerals

namespace BehaviorTree

/-! ## § Lines of events -/

namespace TraceEvent

open Text

/-- **`TraceEvent.ofText?`** — the event whose line this is. The frame is read from the front, the two numbers from the
back, and the tag is what is left. -/
def ofText? (text : String) : Option TraceEvent := do
  let line ← "[".toList.isPrefixOf? text.toList
  let (frame, line) ← front? line
  let line ← "] ".toList.isPrefixOf? line
  let (line, b) ← back? line
  let line ← " b=".toList.isSuffixOf? line
  let (line, a) ← back? line
  let tag ← " a=".toList.isSuffixOf? line
  return { frame, tag := String.ofList tag, a, b }

theorem text_toList (e : TraceEvent) :
    e.text.toList = "[".toList ++ (Nat.toDigits 10 e.frame ++ ("] ".toList ++
      (((e.tag.toList ++ " a=".toList) ++ Nat.toDigits 10 e.a ++ " b=".toList) ++ Nat.toDigits 10 e.b))) := by
  simp only [text, String.toList_append, Nat.toString_eq_repr, Nat.toList_repr, List.append_assoc]

/-- What stands in front of a number ends with a sign of equality. -/
theorem isDigit_getLast?_mark (line : List Char) {mark : String} (h : mark.toList.getLast? = some '=') :
    ∀ c ∈ (line ++ mark.toList).getLast?, c.isDigit = false := by
  intro c hc
  rw [List.getLast?_append, h] at hc
  obtain rfl := Option.some.inj hc
  decide

/-- **`TraceEvent.ofText?_eq_some_iff`** — the line of an event is read as this event, and no other text is. -/
theorem ofText?_eq_some_iff {line : String} {e : TraceEvent} : ofText? line = some e ↔ line = e.text := by
  rw [← String.toList_inj, text_toList]
  simp only [ofText?, Option.bind_eq_bind, Option.bind_eq_some_iff, Prod.exists, front?_eq_some_iff, back?_eq_some_iff,
    List.isPrefixOf?_eq_some_iff_append_eq, List.isSuffixOf?_eq_some_iff_append_eq]
  constructor
  · rintro ⟨_, hline, frame, _, ⟨rfl, -⟩, _, rfl, _, b, ⟨rfl, -⟩, _, rfl, _, a, ⟨rfl, -⟩, tag, rfl, hevent⟩
    obtain rfl := Option.some.inj hevent
    rw [← hline]
    simp only [String.toList_ofList]
  · intro hline
    -- no number touches another digit: behind the frame is a bracket, and before the others a mark
    refine ⟨_, hline.symm, e.frame, _, ⟨rfl, ?_⟩, _, rfl, _, e.b, ⟨rfl, ?_⟩, _, rfl, _, e.a, ⟨rfl, ?_⟩, e.tag.toList, rfl,
      ?_⟩
    · rintro c ⟨⟩
      decide
    · exact isDigit_getLast?_mark _ (by decide)
    · exact isDigit_getLast?_mark _ (by decide)
    · rw [String.ofList_toList]
      rfl

/-- An event that is emitted is the last note then, with or without a sink and also after a fault. -/
theorem getLast?_notes_emit (s : Situation) (e : TraceEvent) : (s.emit e).2.board.notes.getLast? = some e.text := by
  rw [s.emit_board]
  exact List.getLast?_concat ..

/-- **`TraceEvent.told_from_line`** — different events have different lines, whatever their tags look like. From a line
all of the event can be read again, no text is read that is not a line, and what an event leaves behind as a note can be
read as this event. -/
theorem told_from_line :
    Function.Injective text ∧ (∀ line e, ofText? line = some e ↔ line = e.text) ∧
    ∀ (s : Situation) (e : TraceEvent), (s.emit e).2.board.notes.getLast?.bind ofText? = some e := by
  refine ⟨?injective, fun _ _ => ofText?_eq_some_iff, ?emitted⟩
  case injective =>
    intro e e' h
    have hread : ofText? e.text = some e := ofText?_eq_some_iff.mpr rfl
    exact Option.some.inj (hread.symm.trans (ofText?_eq_some_iff.mpr h))
  case emitted =>
    intro s e
    rw [getLast?_notes_emit, Option.bind_some]
    exact ofText?_eq_some_iff.mpr rfl

/-- A tag that ends like a line, and an event without it that has those numbers. -/
theorem imitation_told :
    (⟨1, "] a=1 b=2", 1, 2⟩ : TraceEvent).text ≠ (⟨1, "]", 1, 2⟩ : TraceEvent).text ∧
      ofText? "[1] ] a=1 b=2 a=1 b=2" = some ⟨1, "] a=1 b=2", 1, 2⟩ ∧ ofText? "[01] ] a=1 b=2" = none := by
  obtain ⟨hinjective, hread, -⟩ := told_from_line
  refine ⟨hinjective.ne (by decide), (hread _ _).mpr (by decide), by decide⟩

end TraceEvent

end BehaviorTree
