/-
# BehaviorTree.Random.Tape — a source that plays given words

A tape returns its words one after the other, over and over. It makes every sequence of draws possible,
where a seeded stream has only its own.
-/
import BehaviorTree.Random.Source

namespace BehaviorTree.Random

/-- Words to be returned in turn. -/
structure Tape where
  words : Array UInt64
  position : Nat := 0

instance : Source Tape where
  next t := (t.words.getD (t.position % t.words.size) 0, { t with position := t.position + 1 })

end BehaviorTree.Random
