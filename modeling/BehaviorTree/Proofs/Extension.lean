/-
# BehaviorTree.Proofs.Extension — what more registered leaves change

A registry extends another one if it has all of its names, with the same factories. To register a new name is
such an extension (`Registry.extends_register`). Nothing that could be made before is made differently then, and
of the flaws of a node only one can go away: that a name was not registered (`Registries.Extends.flaw`). Nor can
a new flaw come up where there was none (`Registries.Extends.flawless`).

So the first flaw of a document stays the first one as long as it is there at all, and what is wrong behind it
stays hidden. `Node.ofDocument_extends` says this of documents: a tree that could be read is read again, and an
error is reported again unless it was about a name that is registered now.
-/
import BehaviorTree.Proofs.FirstDefect

namespace BehaviorTree

open BehaviorTree.Json (member?)

variable {α κ β : Type}

/-! ## § Registries -/

namespace Registry

/-- **`Registry.Extends`** — the second registry has all names of the first one, with the same factories. -/
def Extends (p q : Registry β) : Prop :=
  ∀ name factory, p.entries.lookup name = some factory → q.entries.lookup name = some factory

/-- Of several entries of one name the first one counts. -/
theorem lookup_cons (entry : String × Factory β) (rest : List (String × Factory β)) (name : String) :
    (entry :: rest).lookup name = if name = entry.1 then some entry.2 else rest.lookup name := by
  obtain ⟨head, factory⟩ := entry
  by_cases hname : name = head
  · rw [hname, List.lookup_cons_self, if_pos rfl]
  · rw [List.lookup_cons, beq_eq_false_iff_ne.mpr hname, if_neg hname]

/-- A name is registered if it has a factory. -/
theorem contains_iff {p : Registry β} {name : String} :
    p.contains name = true ↔ ∃ factory, p.entries.lookup name = some factory := by
  obtain ⟨entries⟩ := p
  show (entries.map (·.1)).contains name = true ↔ _
  induction entries with
  | nil => simp
  | cons entry rest ih =>
    rw [lookup_cons, List.map_cons, List.contains_cons, Bool.or_eq_true, ih, beq_iff_eq]
    by_cases hname : name = entry.1 <;> simp [hname]

/-- A new entry is found under its name, and all others are found as before. -/
theorem lookup_insert (name other : String) (factory : Factory β) (entries : List (String × Factory β)) :
    (insert name factory entries).lookup other =
      if other = name then some factory else entries.lookup other := by
  induction entries with
  | nil => exact lookup_cons _ _ _
  | cons entry rest ih =>
    obtain ⟨head, made⟩ := entry
    simp only [insert]
    by_cases hless : name < head
    · rw [if_pos hless, lookup_cons]
    · rw [if_neg hless]
      by_cases hsame : name = head
      · subst hsame
        rw [if_pos rfl, lookup_cons, lookup_cons]
        by_cases hother : other = name <;> simp only [hother, if_true, if_false]
      · rw [if_neg hsame, lookup_cons, lookup_cons, ih]
        by_cases hother : other = name
        · simp only [hother, hsame, if_true, if_false]
        · simp only [hother, if_false]

/-- **`Registry.extends_register`** — to register a new name extends a registry. -/
theorem extends_register {p : Registry β} {name : String} (hnew : p.entries.lookup name = none)
    (factory : Factory β) : p.Extends (p.register name factory) := by
  intro other made hmade
  have hother : other ≠ name := by
    rintro rfl
    simp [hnew] at hmade
  rw [register, lookup_insert, if_neg hother, hmade]

end Registry

/-! ## § What a larger registry does to one node -/

namespace Members

variable {p q : Registry β} {members : Members}

theorem Names.extended (h : p.Extends q) {name : String} {leaf : β} (hnames : Names p members name leaf) :
    Names q members name leaf := by
  obtain ⟨hname, hparams, hregistered, hmade⟩ := hnames
  exact ⟨hname, hparams, h _ _ hregistered, hmade⟩

/-- The flaw of a leaf stays, unless it was that the name was not registered. -/
theorem LeafFlaw.extended (h : p.Extends q) {kind : LeafKind} {defect : Defect}
    (hflaw : LeafFlaw p kind members defect) :
    LeafFlaw q kind members defect ∨
      ∃ name, defect = .unknownLeaf kind name ∧ q.contains name = true := by
  cases hflaw with
  | nameMissing hname => exact Or.inl (.nameMissing hname)
  | nameNoText hname hno => exact Or.inl (.nameNoText hname hno)
  | paramsNoObject hname hblock hnull hno => exact Or.inl (.paramsNoObject hname hblock hnull hno)
  | @unregistered name params hname hparams _ =>
    rcases hnew : q.entries.lookup name with _ | factory
    · exact Or.inl (.unregistered hname hparams hnew)
    · exact Or.inr ⟨name, rfl, Registry.contains_iff.mpr ⟨factory, hnew⟩⟩
  | refused hname hparams hregistered hrefused =>
    exact Or.inl (.refused hname hparams (h _ _ hregistered) hrefused)

/-- Whoever is told that a name is unknown has not registered it. -/
theorem LeafFlaw.not_contains {kind other : LeafKind} {name : String}
    (hflaw : LeafFlaw p kind members (.unknownLeaf other name)) :
    other = kind ∧ ¬ p.contains name = true := by
  cases hflaw with
  | unregistered _ _ hnone =>
    refine ⟨rfl, fun hcontains => ?_⟩
    obtain ⟨factory, hsome⟩ := Registry.contains_iff.mp hcontains
    rw [hnone] at hsome
    cases hsome

end Members

namespace Registries

variable {r s : Registries α κ} {node : Json}

/-- **`Registries.Extends`** — the second registries have all names of the first ones, with the same
factories. -/
structure Extends (r s : Registries α κ) : Prop where
  actions : r.actions.Extends s.actions
  conditions : r.conditions.Extends s.conditions

/-- Whether a name is registered for a kind of leaves. -/
def registers (r : Registries α κ) : LeafKind → String → Bool
  | .action, name => r.actions.contains name
  | .condition, name => r.conditions.contains name

/-- The tree that a node describes stays the same, made of the same leaves. -/
theorem Extends.mirrors (h : r.Extends s) {tree : Node α κ} (hmirrors : r.Mirrors node tree) :
    s.Mirrors node tree := by
  induction node using Json.induction generalizing tree with
  | node node ih =>
    cases hmirrors with
    | @composite members items children kind htype hchildren hitems =>
      rw [Json.childNodes_inner kind htype hchildren] at ih
      have hboth := (List.forall₂_and_left _ _).mpr ⟨fun item hitem => @ih item hitem, hitems⟩
      exact .composite kind htype hchildren (hboth.imp fun _ _ hitem => hitem.1 hitem.2)
    | action htype hnames => exact .action htype (hnames.extended h.actions)
    | condition htype hnames => exact .condition htype (hnames.extended h.conditions)
    | wait htype hseconds => exact .wait htype hseconds

/-- **`Registries.Extends.flaw`** — a flaw of a node stays, unless it was that a name was not registered. -/
theorem Extends.flaw (h : r.Extends s) {defect : Defect} (hflaw : r.Flaw node defect) :
    s.Flaw node defect ∨ ∃ kind name, defect = .unknownLeaf kind name ∧ s.registers kind name = true := by
  cases hflaw with
  | noObject hno => exact Or.inl (.noObject hno)
  | typeMissing htype => exact Or.inl (.typeMissing htype)
  | typeNoText htype hno => exact Or.inl (.typeNoText htype hno)
  | unknownType htype hunknown => exact Or.inl (.unknownType htype hunknown)
  | childrenMissing kind htype hmissing => exact Or.inl (.childrenMissing kind htype hmissing)
  | childrenNoArray kind htype hvalue hno => exact Or.inl (.childrenNoArray kind htype hvalue hno)
  | action htype hleaf =>
    exact (hleaf.extended h.actions).imp (.action htype) fun ⟨name, heq, hnew⟩ => ⟨.action, name, heq, hnew⟩
  | condition htype hleaf =>
    exact (hleaf.extended h.conditions).imp (.condition htype) fun ⟨name, heq, hnew⟩ =>
      ⟨.condition, name, heq, hnew⟩
  | secondsMissing htype hmissing => exact Or.inl (.secondsMissing htype hmissing)
  | secondsNoNumber htype hvalue hno => exact Or.inl (.secondsNoNumber htype hvalue hno)

theorem Flaw.not_registers {kind : LeafKind} {name : String}
    (hflaw : r.Flaw node (.unknownLeaf kind name)) : ¬ r.registers kind name = true := by
  cases hflaw with
  | action _ hleaf | condition _ hleaf =>
    obtain ⟨rfl, hnone⟩ := hleaf.not_contains
    exact hnone

/-- **`Registries.Extends.flawless`** — a node without a flaw gets none. -/
theorem Extends.flawless (h : r.Extends s) (hflawless : r.Flawless node) : s.Flawless node := by
  cases r.forms node with
  | flawed hflaw => exact absurd hflaw (hflawless _)
  | inner kind hnode htype hchildren =>
    subst hnode
    exact flawless_inner kind htype hchildren
  | leaf hmirrors => exact (h.mirrors hmirrors).flawless

/-- The first flaw stays the first one, unless it was that a name was not registered. -/
theorem Extends.firstFlaw (h : r.Extends s) {entries : List (NodePath × Json)} {path : NodePath}
    {defect : Defect} (hfirst : r.FirstFlaw entries path defect) :
    s.FirstFlaw entries path defect ∨
      ∃ kind name, defect = .unknownLeaf kind name ∧ s.registers kind name = true := by
  obtain ⟨before, node, after, hentries, hbefore, hflaw⟩ := hfirst
  refine (h.flaw hflaw).imp_left fun hstays => ?_
  exact ⟨before, node, after, hentries, fun entry hentry => h.flawless (hbefore entry hentry), hstays⟩

/-- A document with a first flaw is refused for it. -/
theorem FirstFlaw.ofJson_eq {path q : NodePath} {defect : Defect}
    (hfirst : r.FirstFlaw (Json.nodes path node) q defect) :
    Node.ofJson r path node = .error (.defective q defect) := by
  have hreading := Node.ofJson_reading r node path
  generalize Node.ofJson r path node = result at hreading
  cases hreading with
  | read hall => exact absurd hall hfirst.not_flawless
  | refused hother =>
    obtain ⟨rfl, rfl⟩ := hfirst.unique hother
    rfl

end Registries

/-! ## § Documents -/

/-- **`LoadError.SuppliedBy`** — the error is that a name was not registered, and these registries have it. -/
def LoadError.SuppliedBy (error : LoadError) (s : Registries α κ) : Prop :=
  ∃ path kind name, error = .defective path (.unknownLeaf kind name) ∧ s.registers kind name = true

namespace Node

variable {r s : Registries α κ}

/-- **`Node.ofDocument_extends`** — take registries and larger ones, which have all of their names with the same
factories. A document that is read as a tree is read as the same tree with the larger ones: its root describes
it with both, so every leaf is what the factory of its name, which is the same in both, makes of its
parameters. A document that is refused is refused again for the same error if and only if the error was not
about a name that is registered now. -/
theorem ofDocument_extends (h : r.Extends s) (document : Json) :
    (∀ tree, ofDocument r document = .ok tree →
      ofDocument s document = .ok tree ∧
        ∃ root, document.root? = some root ∧ r.Mirrors root tree ∧ s.Mirrors root tree) ∧
    ∀ error, ofDocument r document = .error error →
      (ofDocument s document = .error error ↔ ¬ error.SuppliedBy s) := by
  rcases hroot : document.root? with _ | root
  · rw [ofDocument_missingRoot r hroot, ofDocument_missingRoot s hroot]
    refine ⟨nofun, ?_⟩
    rintro _ ⟨⟩
    refine ⟨fun _ hsupplied => ?_, fun _ => rfl⟩
    obtain ⟨_, _, _, hother, _⟩ := hsupplied
    cases hother
  rw [ofDocument_eq r hroot, ofDocument_eq s hroot]
  constructor
  · intro tree hread
    have hmirrors := (ofJson_eq_ok_iff r [] root tree).mp hread
    exact ⟨(ofJson_eq_ok_iff s [] root tree).mpr (h.mirrors hmirrors), root, rfl, hmirrors, h.mirrors hmirrors⟩
  · intro error hrefused
    have hreading := ofJson_reading r root []
    rw [hrefused] at hreading
    cases hreading with
    | @refused path defect hfirst =>
      constructor
      · -- the larger registries do not report as unknown what they have
        rintro hagain ⟨_, kind, name, heq, hregisters⟩
        cases heq
        have hreading' := ofJson_reading s root []
        rw [hagain] at hreading'
        cases hreading' with
        | refused hfirst' =>
          obtain ⟨_, node, _, -, -, hflaw⟩ := hfirst'
          exact hflaw.not_registers hregisters
      · intro hsupplied
        rcases h.firstFlaw hfirst with hstays | ⟨kind, name, rfl, hregisters⟩
        · exact hstays.ofJson_eq
        · exact absurd ⟨path, kind, name, rfl, hregisters⟩ hsupplied

/-! ## § Learning to jump -/

/-- Registries that know how to stand and how to jump. -/
def jumping : Registries Unit Unit where
  actions := standing.actions.register "jump" fun _ => .ok ()

/-- Whoever learns to jump still stands, and sits no better than before; but then the restless document is
refused for what stands behind the jump. -/
theorem standing_extended :
    standing.Extends jumping ∧
      ofDocument standing (.object [("root", actionNode "stand")]) = .ok (.action ⟨"stand", false, ()⟩) ∧
      ofDocument jumping (.object [("root", actionNode "stand")]) = .ok (.action ⟨"stand", false, ()⟩) ∧
      ofDocument standing (.object [("root", actionNode "sit")]) =
        .error (.defective [] (.unknownLeaf .action "sit")) ∧
      ofDocument jumping (.object [("root", actionNode "sit")]) =
        .error (.defective [] (.unknownLeaf .action "sit")) ∧
      ofDocument standing (.object [("root", restless)]) =
        .error (.defective [1, 1] (.unknownLeaf .action "jump")) ∧
      (LoadError.defective [1, 1] (.unknownLeaf .action "jump")).SuppliedBy jumping ∧
      ofDocument jumping (.object [("root", restless)]) = .error (.defective [2] (.unknownType "climb")) := by
  have hextends : standing.Extends jumping :=
    ⟨Registry.extends_register (by decide) _, fun _ _ hregistered => hregistered⟩
  have hstands : ofDocument standing (.object [("root", actionNode "stand")]) =
      .ok (.action ⟨"stand", false, ()⟩) := rfl
  have hsits : ofDocument standing (.object [("root", actionNode "sit")]) =
      .error (.defective [] (.unknownLeaf .action "sit")) := rfl
  have hunknown : ¬ (LoadError.defective [] (.unknownLeaf .action "sit")).SuppliedBy jumping := by
    rintro ⟨_, _, _, ⟨⟩, hregisters⟩
    cases hregisters
  exact ⟨hextends, hstands, ((ofDocument_extends hextends _).1 _ hstands).1, hsits,
    ((ofDocument_extends hextends _).2 _ hsits).mpr hunknown, rfl, ⟨_, _, _, rfl, rfl⟩, rfl⟩

end Node

end BehaviorTree
