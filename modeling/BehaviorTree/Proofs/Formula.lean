/-
# BehaviorTree.Proofs.Formula — a tree read as a boolean formula

Apart from what its leaves do, a tree is a boolean formula over its leaves: a selector is a disjunction
and a sequence a conjunction. Leaves are numbered in document order, from the number that the first one
is given.

The formula has a value under every assignment of values to the leaves (`Formula.holds`), and evaluating
it from left to right with short circuit looks at some of the leaves (`Formula.consulted`). A run of a
tree knows no assignment beforehand: it meets one leaf after the other and learns its outcome.
`Formula.Evaluates` says of such a record of leaves and outcomes that it is one complete evaluation.
`Evaluates.correct` ties the two together.
-/
import BehaviorTree.Proofs.Composite

namespace BehaviorTree

/-- A boolean formula over numbered leaves. -/
inductive Formula where
  | leaf
  /-- Some part holds. -/
  | any (parts : List Formula)
  /-- All parts hold. -/
  | all (parts : List Formula)

/-- Leaves and their outcomes, in the order in which they were learned. -/
abbrev Tally := List (Nat × Bool)

/-- The formula of an inner node of that kind. -/
def Composite.formula : Composite → List Formula → Formula
  | .selector, parts => .any parts
  | .sequence, parts => .all parts

namespace Formula

/-! ## § Values and short circuits -/

mutual

/-- The number of leaves of a formula. -/
def leaves : Formula → Nat
  | .leaf => 1
  | .any parts | .all parts => leavesAll parts

/-- The number of leaves of several formulas. -/
def leavesAll : List Formula → Nat
  | [] => 0
  | part :: rest => leaves part + leavesAll rest

end

mutual

/-- **`Formula.holds`** — the value of a formula whose first leaf has the number `first`. -/
def holds (value : Nat → Bool) : Nat → Formula → Bool
  | first, .leaf => value first
  | first, .any parts => holdsAny value first parts
  | first, .all parts => holdsAll value first parts

/-- Whether some part holds. -/
def holdsAny (value : Nat → Bool) : Nat → List Formula → Bool
  | _, [] => false
  | first, part :: rest => holds value first part || holdsAny value (first + leaves part) rest

/-- Whether all parts hold. -/
def holdsAll (value : Nat → Bool) : Nat → List Formula → Bool
  | _, [] => true
  | first, part :: rest => holds value first part && holdsAll value (first + leaves part) rest

end

mutual

/-- **`Formula.consulted`** — the leaves at which an evaluation from left to right looks: a disjunction
needs no further part once one holds, a conjunction none once one does not hold. -/
def consulted (value : Nat → Bool) : Nat → Formula → List Nat
  | first, .leaf => [first]
  | first, .any parts => consultedWhile value false first parts
  | first, .all parts => consultedWhile value true first parts

/-- The leaves looked at in one part after the other, as long as the parts have the value `onward`. -/
def consultedWhile (value : Nat → Bool) (onward : Bool) : Nat → List Formula → List Nat
  | _, [] => []
  | first, part :: rest =>
    consulted value first part ++
      if holds value first part = onward then
        consultedWhile value onward (first + leaves part) rest
      else []

end

/-! ## § Evaluations as records -/

mutual

/-- **`Formula.Evaluates`** — the record `tally` is one short-circuit evaluation of the formula, and its
value is `b`. -/
def Evaluates : Nat → Formula → Tally → Bool → Prop
  | first, .leaf, tally, b => tally = [(first, b)]
  | first, .any parts, tally, b => EvaluatesFrom false first parts tally b
  | first, .all parts, tally, b => EvaluatesFrom true first parts tally b

/-- The same for parts in a row: each one is passed with the value `onward`, or decides with the other
value. -/
def EvaluatesFrom (onward : Bool) : Nat → List Formula → Tally → Bool → Prop
  | _, [], tally, b => tally = [] ∧ b = onward
  | first, part :: rest, tally, b =>
    (∃ seen more, tally = seen ++ more ∧ Evaluates first part seen onward ∧
      EvaluatesFrom onward (first + leaves part) rest more b) ∨
    (b = !onward ∧ Evaluates first part tally b)

end

/-- Induction over a formula, with one case for both connectives. -/
@[elab_as_elim]
theorem induction {motive : Formula → Prop} (leaf : motive .leaf)
    (composite : ∀ (kind : Composite) (parts : List Formula),
      (∀ part ∈ parts, motive part) → motive (kind.formula parts)) (f : Formula) : motive f := by
  refine @Formula.rec motive (fun parts => ∀ part ∈ parts, motive part) leaf
    (composite .selector) (composite .sequence) ?nil ?cons f
  case nil => exact fun part hpart => absurd hpart List.not_mem_nil
  case cons =>
    intro part rest hpart hrest other hother
    rcases List.mem_cons.mp hother with rfl | hother
    · exact hpart
    · exact hrest other hother

@[simp] theorem leaves_composite (kind : Composite) (parts : List Formula) :
    (kind.formula parts).leaves = leavesAll parts := by
  cases kind <;> rfl

theorem evaluates_composite (kind : Composite) (first : Nat) (parts : List Formula) (tally : Tally)
    (b : Bool) :
    Evaluates first (kind.formula parts) tally b ↔ EvaluatesFrom kind.onward first parts tally b := by
  cases kind <;> rfl

/-! ## § A record looks at its leaves in document order -/

/-- The leaves of a record stand in document order and lie between two numbers. -/
structure Ordered (first last : Nat) (seen : List Nat) : Prop where
  increasing : seen.Pairwise (· < ·)
  within : ∀ leaf ∈ seen, first ≤ leaf ∧ leaf < last

theorem Ordered.nil (first last : Nat) : Ordered first last [] :=
  ⟨List.Pairwise.nil, by simp⟩

theorem Ordered.singleton {first last leaf : Nat} (h : first ≤ leaf ∧ leaf < last) :
    Ordered first last [leaf] :=
  ⟨List.pairwise_singleton _ _, by simpa using h⟩

theorem Ordered.mono {first last last' : Nat} {seen : List Nat} (h : Ordered first last seen)
    (hle : last ≤ last') : Ordered first last' seen :=
  ⟨h.increasing, fun leaf hleaf => ⟨(h.within leaf hleaf).1, Nat.lt_of_lt_of_le (h.within leaf hleaf).2 hle⟩⟩

theorem Ordered.append {first mid last : Nat} {seen more : List Nat} (hfm : first ≤ mid)
    (hml : mid ≤ last) (hseen : Ordered first mid seen) (hmore : Ordered mid last more) :
    Ordered first last (seen ++ more) := by
  refine ⟨List.pairwise_append.mpr ⟨hseen.increasing, hmore.increasing, ?_⟩, ?_⟩
  · intro a ha b hb
    exact Nat.lt_of_lt_of_le (hseen.within a ha).2 (hmore.within b hb).1
  · intro leaf hleaf
    rcases List.mem_append.mp hleaf with hleaf | hleaf
    · exact ⟨(hseen.within leaf hleaf).1, Nat.lt_of_lt_of_le (hseen.within leaf hleaf).2 hml⟩
    · exact ⟨Nat.le_trans hfm (hmore.within leaf hleaf).1, (hmore.within leaf hleaf).2⟩

/-- If each part evaluates in order, so do the parts in a row. -/
theorem EvaluatesFrom.ordered {onward : Bool} {parts : List Formula}
    (ih : ∀ part ∈ parts, ∀ first tally b, Evaluates first part tally b →
      Ordered first (first + part.leaves) (tally.map Prod.fst)) :
    ∀ {first : Nat} {tally : Tally} {b : Bool}, EvaluatesFrom onward first parts tally b →
      Ordered first (first + leavesAll parts) (tally.map Prod.fst) := by
  induction parts with
  | nil =>
    intro first tally b h
    obtain ⟨rfl, -⟩ := h
    exact Ordered.nil _ _
  | cons part rest ihrest =>
    intro first tally b h
    simp only [leavesAll]
    rcases h with ⟨seen, more, rfl, hseen, hmore⟩ | ⟨-, hdecided⟩
    · have hpart := ih part List.mem_cons_self first seen onward hseen
      have hrest := ihrest (fun p hp => ih p (List.mem_cons_of_mem _ hp)) hmore
      rw [List.map_append, ← Nat.add_assoc]
      exact hpart.append (Nat.le_add_right _ _) (Nat.le_add_right _ _) hrest
    · exact (ih part List.mem_cons_self first tally b hdecided).mono (by omega)

/-- **`Evaluates.ordered`** — an evaluation looks at its leaves in document order, at each at most
once, and at no leaf of another formula. -/
theorem Evaluates.ordered {f : Formula} {first : Nat} {tally : Tally} {b : Bool}
    (h : Evaluates first f tally b) : Ordered first (first + f.leaves) (tally.map Prod.fst) := by
  induction f using Formula.induction generalizing first tally b with
  | leaf =>
    obtain rfl : tally = [(first, b)] := h
    exact Ordered.singleton ⟨Nat.le_refl _, by simp [leaves]⟩
  | composite kind parts ih =>
    rw [leaves_composite]
    exact EvaluatesFrom.ordered (fun part hpart first tally b => ih part hpart)
      ((evaluates_composite kind first parts tally b).mp h)

/-! ## § A record is the evaluation under its own outcomes -/

/-- The assignment gives every leaf of the record the outcome that was learned. -/
def Agrees (value : Nat → Bool) (tally : Tally) : Prop :=
  ∀ entry ∈ tally, value entry.1 = entry.2

theorem agrees_append {value : Nat → Bool} {seen more : Tally} :
    Agrees value (seen ++ more) ↔ Agrees value seen ∧ Agrees value more :=
  List.forall_mem_append

/-- A record that names each leaf once agrees with some assignment. -/
theorem exists_agrees {tally : Tally} (h : (tally.map Prod.fst).Nodup) : ∃ value, Agrees value tally := by
  induction tally with
  | nil => exact ⟨fun _ => false, by simp [Agrees]⟩
  | cons entry rest ih =>
    rw [List.map_cons, List.nodup_cons] at h
    obtain ⟨value, hvalue⟩ := ih h.2
    refine ⟨fun leaf => if leaf = entry.1 then entry.2 else value leaf, ?_⟩
    intro other hother
    rcases List.mem_cons.mp hother with rfl | hother
    · simp
    -- a leaf that is recorded later is another leaf, so it keeps its value
    · have hne : other.1 ≠ entry.1 := fun heq => h.1 (heq ▸ List.mem_map_of_mem hother)
      simp only [if_neg hne]
      exact hvalue other hother

/-- The value of a composite's parts in a row. -/
def holdsFrom (value : Nat → Bool) (kind : Composite) (first : Nat) (parts : List Formula) : Bool :=
  match kind with
  | .selector => holdsAny value first parts
  | .sequence => holdsAll value first parts

/-- A part over which the walk passes leaves the value to the following parts; any other part decides. -/
theorem holdsFrom_cons (value : Nat → Bool) (kind : Composite) (first : Nat) (part : Formula)
    (rest : List Formula) :
    holdsFrom value kind first (part :: rest) =
      if holds value first part = kind.onward then holdsFrom value kind (first + part.leaves) rest
      else !kind.onward := by
  cases kind <;> cases h : holds value first part <;>
    simp [holdsFrom, holdsAny, holdsAll, Composite.onward, h]

theorem holds_composite (value : Nat → Bool) (kind : Composite) (first : Nat) (parts : List Formula) :
    holds value first (kind.formula parts) = holdsFrom value kind first parts := by
  cases kind <;> rfl

theorem consulted_composite (value : Nat → Bool) (kind : Composite) (first : Nat)
    (parts : List Formula) :
    consulted value first (kind.formula parts) = consultedWhile value kind.onward first parts := by
  cases kind <;> rfl

/-- The formula has that value under the assignment, and its evaluation looks at those leaves. -/
def Computes (value : Nat → Bool) (first : Nat) (f : Formula) (seen : List Nat) (b : Bool) : Prop :=
  holds value first f = b ∧ consulted value first f = seen

theorem EvaluatesFrom.correct {value : Nat → Bool} {kind : Composite} {parts : List Formula}
    (ih : ∀ part ∈ parts, ∀ first tally b, Evaluates first part tally b → Agrees value tally →
      Computes value first part (tally.map Prod.fst) b) :
    ∀ {first : Nat} {tally : Tally} {b : Bool}, EvaluatesFrom kind.onward first parts tally b →
      Agrees value tally →
      holdsFrom value kind first parts = b ∧
        consultedWhile value kind.onward first parts = tally.map Prod.fst := by
  induction parts with
  | nil =>
    intro first tally b h _
    obtain ⟨rfl, rfl⟩ := h
    cases kind <;> exact ⟨rfl, rfl⟩
  | cons part rest ihrest =>
    intro first tally b h hagrees
    rw [holdsFrom_cons, consultedWhile]
    rcases h with ⟨seen, more, rfl, hseen, hmore⟩ | ⟨rfl, hdecided⟩
    -- this part has been passed, and the others have the value
    · obtain ⟨hs, hm⟩ := agrees_append.mp hagrees
      obtain ⟨hholds, hconsulted⟩ := ih part List.mem_cons_self first seen _ hseen hs
      obtain ⟨hholds', hconsulted'⟩ := ihrest (fun p hp => ih p (List.mem_cons_of_mem _ hp)) hmore hm
      rw [if_pos hholds, if_pos hholds, hconsulted, hconsulted', List.map_append]
      exact ⟨hholds', rfl⟩
    -- this part has decided, and no other one is looked at
    · obtain ⟨hholds, hconsulted⟩ := ih part List.mem_cons_self first tally _ hdecided hagrees
      have hne : holds value first part ≠ kind.onward := by simp [hholds]
      rw [if_neg hne, if_neg hne, hconsulted, List.append_nil]
      exact ⟨rfl, rfl⟩

/-- **`Evaluates.correct`** — under every assignment that agrees with the record, the formula has the
recorded value and an evaluation looks at the recorded leaves, in that order and at no others. -/
theorem Evaluates.correct {value : Nat → Bool} {f : Formula} {first : Nat} {tally : Tally} {b : Bool}
    (h : Evaluates first f tally b) (hagrees : Agrees value tally) :
    Computes value first f (tally.map Prod.fst) b := by
  induction f using Formula.induction generalizing first tally b with
  | leaf =>
    obtain rfl : tally = [(first, b)] := h
    exact ⟨hagrees (first, b) List.mem_cons_self, rfl⟩
  | composite kind parts ih =>
    have hfrom := (evaluates_composite kind first parts tally b).mp h
    obtain ⟨hholds, hconsulted⟩ :=
      hfrom.correct (fun part hpart first tally b => ih part hpart) hagrees
    exact ⟨(holds_composite value kind first parts).trans hholds,
      (consulted_composite value kind first parts).trans hconsulted⟩

end Formula

/-! ## § The formula of a tree -/

namespace Node

variable {α κ : Type}

mutual

/-- **`Node.formula`** — the tree read as a formula: a selector is a disjunction, a sequence a
conjunction. -/
def formula : Node α κ → Formula
  | .selector _ children => .any (formulaAll children)
  | .sequence _ children => .all (formulaAll children)
  | _ => .leaf

/-- The formulas of several trees. -/
def formulaAll : List (Node α κ) → List Formula
  | [] => []
  | node :: rest => formula node :: formulaAll rest

end

/-- The number of leaves of a tree. -/
def leaves (tree : Node α κ) : Nat :=
  tree.formula.leaves

/-- The number of leaves of several trees. -/
def leavesAll (trees : List (Node α κ)) : Nat :=
  Formula.leavesAll (formulaAll trees)

@[simp] theorem formula_composite (kind : Composite) (cursor : Option Nat)
    (children : List (Node α κ)) :
    (kind.node cursor children).formula = kind.formula (formulaAll children) := by
  cases kind <;> rfl

@[simp] theorem leaves_composite (kind : Composite) (cursor : Option Nat)
    (children : List (Node α κ)) : (kind.node cursor children).leaves = leavesAll children := by
  unfold leaves leavesAll
  rw [formula_composite, Formula.leaves_composite]

@[simp] theorem leavesAll_cons (node : Node α κ) (rest : List (Node α κ)) :
    leavesAll (node :: rest) = node.leaves + leavesAll rest := rfl

end Node

end BehaviorTree
