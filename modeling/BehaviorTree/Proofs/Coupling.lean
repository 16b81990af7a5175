/-
# BehaviorTree.Proofs.Coupling — two runs side by side

Two trees of one shape run beside each other, on states of their own and with kits of their own. Whatever
the two kits do, if a call of corresponding leaves in related states answers the same and leaves related
leaves and related states behind (`Leaves.Coupled`), then so does every tick and every abort of the trees
(`Node.Coupled.tick`, `Node.Coupled.abort`), and with them every call of the controllers that own the trees
(`Controller.Coupled.tick`, `Controller.Coupled.abort`), faults included.

The relation between the leaves says how far the trees may differ, and the relation between the states how
far what they work on may differ. With equal states, trees are compared that carry different things along;
with equal leaves, it is seen what a run does not depend on.

`Leaves.noting` is a kit that writes down what an action sees and changes nothing else
(`Leaves.noting_coupled`).
-/
import BehaviorTree.Controller.Basic
import BehaviorTree.Proofs.Suspension
import Mathlib.Data.List.Forall2

namespace BehaviorTree

/-- **`Paired`** — the two components of a result are related, each by its own relation. -/
def Paired {ρ ρ' ω ω' : Type} (R : ρ → ρ' → Prop) (S : ω → ω' → Prop) (p : ρ × ω) (q : ρ' × ω') : Prop :=
  R p.1 q.1 ∧ S p.2 q.2

variable {α β κ σ ν ω υ φ : Type}

/-! ## § Kits -/

/-- **`Leaves.Coupled`** — a call of related leaves in related states has the same answer and leaves related
leaves and states behind. -/
structure Leaves.Coupled (kit : Leaves α κ ω φ) (kit' : Leaves β κ υ φ) (A : α → β → Prop)
    (S : ω → υ → Prop) : Prop where
  enter : ∀ {a b s t}, A a b → S s t → Paired A S (kit.enter a s) (kit'.enter b t)
  tick : ∀ {a b s t}, A a b → S s t → ∀ dt, Paired Eq (Paired A S) (kit.tick a dt s) (kit'.tick b dt t)
  exit : ∀ {a b s t}, A a b → S s t → Paired A S (kit.exit a s) (kit'.exit b t)
  test : ∀ leaf {s t}, S s t → Paired Eq S (kit.test leaf s) (kit'.test leaf t)

/-- **`Leaves.noting`** — the kit with a notebook for every action, in which the action puts what `look`
shows it at the beginning of each of its ticks. -/
def Leaves.noting (kit : Leaves α κ ω φ) (look : α → ω → List ν) : Leaves (α × List ν) κ ω φ where
  enter a s :=
    let (leaf, s) := kit.enter a.1 s
    ((leaf, a.2), s)
  tick a dt s :=
    let notes := a.2 ++ look a.1 s
    let (answer, leaf, s) := kit.tick a.1 dt s
    (answer, (leaf, notes), s)
  exit a s :=
    let (leaf, s) := kit.exit a.1 s
    ((leaf, a.2), s)
  test := kit.test

/-- The notes change nothing. -/
theorem Leaves.noting_coupled {kit : Leaves α κ ω φ} {kit' : Leaves β κ υ φ} {A : α → β → Prop}
    {S : ω → υ → Prop} (hkit : kit.Coupled kit' A S) (look : β → υ → List ν) :
    kit.Coupled (kit'.noting look) (fun a b => A a b.1) S where
  enter ha hs := hkit.enter ha hs
  tick ha hs dt := hkit.tick ha hs dt
  exit ha hs := hkit.exit ha hs
  test := hkit.test

/-! ## § Actions -/

/-- The action with another leaf. -/
def ActionNode.map (f : α → β) (n : ActionNode α) : ActionNode β where
  name := n.name
  entered := n.entered
  leaf := f n.leaf

/-- Actions of one name, both entered or neither, with related leaves. -/
structure ActionNode.Coupled (A : α → β → Prop) (n : ActionNode α) (m : ActionNode β) : Prop where
  name : m.name = n.name
  entered : m.entered = n.entered
  leaf : A n.leaf m.leaf

namespace ActionNode.Coupled

variable {kit : Leaves α κ ω φ} {kit' : Leaves β κ υ φ} {A : α → β → Prop} {S : ω → υ → Prop}
  {n : ActionNode α} {m : ActionNode β} {s : ω} {t : υ}

theorem tick (hkit : kit.Coupled kit' A S) (h : Coupled A n m) (hs : S s t) (dt : Float32) :
    Paired Eq (Paired (Coupled A) S) (n.tick kit dt s) (m.tick kit' dt t) := by
  obtain ⟨_, _, a⟩ := n
  obtain ⟨name, running, b⟩ := m
  obtain ⟨rfl, rfl, ha⟩ := h
  have hbegun : Paired A S (if running then (a, s) else kit.enter a s)
      (if running then (b, t) else kit'.enter b t) := by
    split
    · exact ⟨ha, hs⟩
    · exact hkit.enter ha hs
  unfold ActionNode.tick
  rcases hl₀ : (if running then (a, s) else kit.enter a s) with ⟨a₁, s₁⟩
  rcases hr₀ : (if running then (b, t) else kit'.enter b t) with ⟨b₁, t₁⟩
  rw [hl₀, hr₀] at hbegun
  have htick := hkit.tick hbegun.1 hbegun.2 dt
  dsimp only
  rcases hl : kit.tick a₁ dt s₁ with ⟨answer, a₂, s₂⟩
  rcases hr : kit'.tick b₁ dt t₁ with ⟨answer', b₂, t₂⟩
  rw [hl, hr] at htick
  obtain ⟨hanswer, ha₂, hs₂⟩ := htick
  obtain rfl : answer = answer' := hanswer
  have hexit := hkit.exit ha₂ hs₂
  match answer with
  | .error _ | .ok .running => exact ⟨rfl, ⟨rfl, rfl, ha₂⟩, hs₂⟩
  | .ok .success | .ok .failure => exact ⟨rfl, ⟨rfl, rfl, hexit.1⟩, hexit.2⟩

theorem abort (hkit : kit.Coupled kit' A S) (h : Coupled A n m) (hs : S s t) :
    Paired (Coupled A) S (n.abort kit s) (m.abort kit' t) := by
  obtain ⟨_, _, a⟩ := n
  obtain ⟨name, running, b⟩ := m
  obtain ⟨rfl, rfl, ha⟩ := h
  have hexit := hkit.exit ha hs
  unfold ActionNode.abort
  dsimp only
  split
  · exact ⟨⟨rfl, rfl, hexit.1⟩, hexit.2⟩
  · exact ⟨⟨rfl, rfl, ha⟩, hs⟩

end ActionNode.Coupled

/-! ## § Trees -/

namespace Node

/-- The property holds of every action of the tree. -/
def EveryAction (P : α → Prop) (tree : Node α κ) : Prop :=
  tree.Everywhere fun node => ∀ n, node = .action n → P n.leaf

theorem everyAction_composite {P : α → Prop} {kind : Composite} {cursor : Option Nat}
    {children : List (Node α κ)} :
    (kind.node cursor children).EveryAction P ↔ ∀ child ∈ children, child.EveryAction P := by
  unfold EveryAction
  rw [everywhere_iff, Composite.node_children]
  exact and_iff_right fun n hn => by cases kind <;> cases hn

theorem everyAction_action {P : α → Prop} {n : ActionNode α} :
    (action n : Node α κ).EveryAction P ↔ P n.leaf := by
  unfold EveryAction
  rw [everywhere_leaf rfl]
  exact ⟨fun h => h n rfl, by rintro h _ ⟨⟩; exact h⟩

mutual

/-- **`Node.map`** — the tree with other leaves in the places of its own. -/
def map {μ : Type} (f : α → β) (g : κ → μ) : Node α κ → Node β μ
  | .selector running children => .selector running (mapAll f g children)
  | .sequence index children => .sequence index (mapAll f g children)
  | .action n => .action (n.map f)
  | .condition name leaf => .condition name (g leaf)
  | .wait timer => .wait timer

/-- Several trees with other leaves. -/
def mapAll {μ : Type} (f : α → β) (g : κ → μ) : List (Node α κ) → List (Node β μ)
  | [] => []
  | node :: rest => map f g node :: mapAll f g rest

end

theorem map_composite {μ : Type} (f : α → β) (g : κ → μ) (kind : Composite) (cursor : Option Nat)
    (children : List (Node α κ)) :
    (kind.node cursor children).map f g = kind.node cursor (mapAll f g children) := by
  cases kind <;> rfl

/-- The tree with other actions in the places of its own. -/
def mapActions (f : α → β) : Node α κ → Node β κ :=
  map f id

/-- **`Node.Coupled`** — trees of one shape that stand at the same place. Their actions are related by `A`,
and all else is the same. -/
inductive Coupled (A : α → β → Prop) : Node α κ → Node β κ → Prop
  | composite (kind : Composite) (cursor : Option Nat) {children : List (Node α κ)}
      {others : List (Node β κ)} :
      List.Forall₂ (Coupled A) children others →
      Coupled A (kind.node cursor children) (kind.node cursor others)
  | action {n : ActionNode α} {m : ActionNode β} : n.Coupled A m → Coupled A (.action n) (.action m)
  | condition (name : String) (leaf : κ) : Coupled A (.condition name leaf) (.condition name leaf)
  | wait (timer : Wait) : Coupled A (.wait timer) (.wait timer)

namespace Coupled

variable {A : α → β → Prop} {tree : Node α κ} {other : Node β κ}

/-- Induction over two coupled trees, with the statement for every child. -/
@[elab_as_elim]
theorem induction {motive : Node α κ → Node β κ → Prop} (h : Coupled A tree other)
    (composite : ∀ (kind : Composite) (cursor : Option Nat) (children : List (Node α κ))
      (others : List (Node β κ)),
      List.Forall₂ (fun child other => Coupled A child other ∧ motive child other) children others →
      motive (kind.node cursor children) (kind.node cursor others))
    (action : ∀ n m, ActionNode.Coupled A n m → motive (.action n) (.action m))
    (condition : ∀ name leaf, motive (.condition name leaf) (.condition name leaf))
    (wait : ∀ timer, motive (.wait timer) (.wait timer)) : motive tree other := by
  refine @Coupled.rec α β κ A (fun tree other _ => motive tree other)
    (fun children others _ =>
      List.Forall₂ (fun child other => Coupled A child other ∧ motive child other) children others)
    ?composite ?action condition wait .nil ?cons tree other h
  case composite => exact fun kind cursor _ _ _ ih => composite kind cursor _ _ ih
  case action => exact fun hn => action _ _ hn
  case cons => exact fun hchild _ ih ihrest => .cons ⟨hchild, ih⟩ ihrest

/-- If related actions are equal, so are coupled trees. -/
theorem eq {A : α → α → Prop} {tree other : Node α κ} (h : Coupled A tree other)
    (hA : ∀ a b, A a b → a = b) : tree = other := by
  refine h.induction ?composite ?action (fun _ _ => rfl) (fun _ => rfl)
  case composite =>
    intro kind cursor children others hchildren
    have hall : children = others := by
      rw [← List.forall₂_eq_eq_eq]
      exact hchildren.imp fun _ _ hchild => hchild.2
    rw [hall]
  case action =>
    rintro ⟨name, entered, a⟩ ⟨_, _, b⟩ ⟨rfl, rfl, hleaf⟩
    rw [hA a b hleaf]

/-- A tree is coupled to itself if each of its actions is related to itself. -/
theorem self {A : α → α → Prop} {tree : Node α κ} (h : tree.EveryAction fun a => A a a) :
    Coupled A tree tree := by
  induction tree using Node.induction with
  | composite kind cursor children ih =>
    refine .composite kind cursor (List.forall₂_same.mpr ?_)
    intro child hchild
    exact ih child hchild (everyAction_composite.mp h child hchild)
  | action n => exact .action ⟨rfl, rfl, (everyAction_action (P := fun a => A a a)).mp h⟩
  | condition name leaf => exact .condition name leaf
  | wait timer => exact .wait timer

/-- A tree is coupled to the one with other actions if each action is related to the one in its place. -/
theorem map {f : α → β} (h : ∀ a, A a (f a)) (tree : Node α κ) : Coupled A tree (tree.mapActions f) := by
  induction tree using Node.induction with
  | composite kind cursor children ih =>
    have hchildren : List.Forall₂ (Coupled A) children (mapAll f id children) := by
      induction children with
      | nil => exact .nil
      | cons child rest ihrest =>
        exact .cons (ih child List.mem_cons_self) (ihrest fun c hc => ih c (.tail _ hc))
    rw [mapActions, map_composite]
    exact .composite kind cursor hchildren
  | action n => exact .action ⟨rfl, rfl, h n.leaf⟩
  | condition name leaf => exact .condition name leaf
  | wait timer => exact .wait timer

variable {kit : Leaves α κ ω φ} {kit' : Leaves β κ υ φ} {S : ω → υ → Prop}

/-- Children that tick alike, one by one, are walked through alike. -/
theorem tickFrom {dt : Float32} {children : List (Node α κ)} {others : List (Node β κ)}
    (h : List.Forall₂ (fun child other => Coupled A child other ∧
      ∀ s t, S s t → Paired Eq (Paired (Coupled A) S) (child.tick kit dt s) (other.tick kit' dt t))
      children others)
    (onward : Status) (skip : Nat) (s : ω) (t : υ) (hs : S s t) :
    Paired Eq (Paired (List.Forall₂ (Coupled A)) S) (Node.tickFrom kit dt onward skip children s)
      (Node.tickFrom kit' dt onward skip others t) := by
  induction h generalizing skip s t with
  | nil => cases skip <;> exact ⟨rfl, .nil, hs⟩
  | @cons child other rest rest' hchild hrest ih =>
    have hkept := hrest.imp fun _ _ hchild => hchild.1
    match skip with
    | skip + 1 =>
      obtain ⟨hstop, hwalked, hs'⟩ := ih skip s t hs
      refine ⟨?_, .cons hchild.1 hwalked, hs'⟩
      exact congrArg Stop.shift hstop
    | 0 =>
      obtain ⟨hanswer, hticked, hs₁⟩ := hchild.2 s t hs
      unfold Node.tickFrom
      rcases hl : child.tick kit dt s with ⟨answer, child', s₁⟩
      rcases hr : other.tick kit' dt t with ⟨answer', other', t₁⟩
      rw [hl, hr] at hanswer hticked hs₁
      obtain rfl : answer = answer' := hanswer
      cases answer with
      | error fault => exact ⟨rfl, .cons hticked hkept, hs₁⟩
      | ok status =>
        dsimp only
        split
        · obtain ⟨hstop, hwalked, hs'⟩ := ih 0 s₁ t₁ hs₁
          exact ⟨congrArg Stop.shift hstop, .cons hticked hwalked, hs'⟩
        · exact ⟨rfl, .cons hticked hkept, hs₁⟩

/-- **`Node.Coupled.tick`** — coupled trees tick alike and stay coupled. -/
theorem tick (hkit : kit.Coupled kit' A S) (h : Coupled A tree other) (dt : Float32) {s : ω} {t : υ}
    (hs : S s t) : Paired Eq (Paired (Coupled A) S) (tree.tick kit dt s) (other.tick kit' dt t) := by
  refine h.induction (motive := fun tree other => ∀ s t, S s t →
    Paired Eq (Paired (Coupled A) S) (tree.tick kit dt s) (other.tick kit' dt t))
    ?composite ?action ?condition ?wait s t hs
  case composite =>
    intro kind cursor children others hchildren s t hs
    obtain ⟨hstop, hwalked, hs'⟩ := tickFrom hchildren (.ofBool kind.onward) (cursor.getD 0) s t hs
    rw [Composite.tick_eq, Composite.tick_eq]
    dsimp only
    rw [← hstop]
    exact ⟨rfl, .composite kind _ hwalked, hs'⟩
  case action =>
    intro n m hn s t hs
    obtain ⟨hanswer, hn', hs'⟩ := hn.tick hkit hs dt
    exact ⟨hanswer, .action hn', hs'⟩
  case condition =>
    intro name leaf s t hs
    obtain ⟨hholds, hs'⟩ := hkit.test leaf hs
    exact ⟨congrArg (Except.map Status.ofBool) hholds, .condition name leaf, hs'⟩
  case wait => exact fun timer s t hs => ⟨rfl, .wait _, hs⟩

/-- **`Node.Coupled.abort`** — coupled trees are aborted alike and stay coupled. -/
theorem abort (hkit : kit.Coupled kit' A S) (h : Coupled A tree other) {s : ω} {t : υ} (hs : S s t) :
    Paired (Coupled A) S (tree.abort kit s) (other.abort kit' t) := by
  refine h.induction (motive := fun tree other => ∀ s t, S s t →
    Paired (Coupled A) S (tree.abort kit s) (other.abort kit' t))
    ?composite ?action ?condition ?wait s t hs
  case composite =>
    intro kind cursor children others hchildren s t hs
    have hall : Paired (List.Forall₂ (Coupled A)) S (abortAll kit children s)
        (abortAll kit' others t) := by
      induction hchildren generalizing s t with
      | nil => exact ⟨.nil, hs⟩
      | cons hchild _ ih =>
        obtain ⟨hchild', hs₁⟩ := hchild.2 s t hs
        obtain ⟨hrest, hs'⟩ := ih _ _ hs₁
        exact ⟨.cons hchild' hrest, hs'⟩
    rw [Composite.abort_eq, Composite.abort_eq]
    exact ⟨.composite kind none hall.1, hall.2⟩
  case action =>
    intro n m hn s t hs
    obtain ⟨hn', hs'⟩ := hn.abort hkit hs
    exact ⟨.action hn', hs'⟩
  case condition => exact fun name leaf s t hs => ⟨.condition name leaf, hs⟩
  case wait => exact fun timer s t hs => ⟨.wait timer, hs⟩

end Coupled

end Node

/-! ## § Controllers -/

/-- Sensors that make the same of related situations. -/
def Senses.Alike (senses : Senses σ ω) (S : ω → ω → Prop) : Prop :=
  ∀ sensor step {s t}, S s t → Paired Eq S (senses.sample sensor step s) (senses.sample sensor step t)

/-- **`Situation.Reportable`** — what a controller tells about a frame keeps situations related, and trace
events are taken on in both of them or fail in both. -/
structure Situation.Reportable (S : Situation → Situation → Prop) : Prop where
  tell : ∀ {s t} entry, S s t → S (s.tell entry) (t.tell entry)
  emit : ∀ {s t} event, S s t → Paired Eq S (s.emit event) (t.emit event)

namespace Controller

/-- The controller with another tree. -/
def withRoot (c : Controller α κ σ) (root : Node β κ) : Controller β κ σ where
  root
  sensors := c.sensors
  sensorHz := c.sensorHz
  maxCatchUp := c.maxCatchUp
  sampling := c.sampling
  frame := c.frame
  lastStatus := c.lastStatus

/-- **`Controller.Coupled`** — controllers that own coupled trees and are the same in all else. -/
def Coupled (A : α → β → Prop) (c : Controller α κ σ) (d : Controller β κ σ) : Prop :=
  ∃ root, c.root.Coupled A root ∧ d = c.withRoot root

variable {senses : Senses σ Situation} {S : Situation → Situation → Prop}

theorem sampleRound_alike (hsenses : senses.Alike S) (step : Float32) (sensors : List σ)
    {s t : Situation} (hs : S s t) :
    Paired Eq S (sampleRound senses step sensors s) (sampleRound senses step sensors t) := by
  induction sensors generalizing s t with
  | nil => exact ⟨rfl, hs⟩
  | cons sensor rest ih =>
    obtain ⟨hsensor, hs₁⟩ := hsenses sensor step hs
    obtain ⟨hrest, hs'⟩ := ih hs₁
    exact ⟨congrArg₂ List.cons hsensor hrest, hs'⟩

theorem sampleRounds_alike (hsenses : senses.Alike S) (step : Float32) (n : Nat) (sensors : List σ)
    {s t : Situation} (hs : S s t) :
    Paired Eq S (sampleRounds senses step n sensors s) (sampleRounds senses step n sensors t) := by
  induction n generalizing sensors s t with
  | zero => exact ⟨rfl, hs⟩
  | succ n ih =>
    obtain ⟨hsensors, hs₁⟩ := sampleRound_alike hsenses step sensors hs
    unfold sampleRounds
    dsimp only
    rw [← hsensors]
    exact ih _ hs₁

namespace Coupled

variable {A : α → β → Prop} {c : Controller α κ σ} {d : Controller β κ σ} {s t : Situation}

/-- If related actions are equal, so are coupled controllers. -/
theorem eq {A : α → α → Prop} {c d : Controller α κ σ} (h : Coupled A c d) (hA : ∀ a b, A a b → a = b) :
    c = d := by
  obtain ⟨root, hroot, rfl⟩ := h
  obtain rfl := hroot.eq hA
  rfl

/-- Coupled controllers make the same rounds. -/
theorem sense (hsenses : senses.Alike S) (hS : Situation.Reportable S) (h : Coupled A c d) (dt : Float32)
    (hs : S s t) : Paired Eq (Paired (Coupled A) S) (c.sense senses dt s) (d.sense senses dt t) := by
  obtain ⟨root, hroot, rfl⟩ := h
  unfold Controller.sense
  rw [show (c.withRoot root).step? = c.step? from rfl]
  rcases c.step? with _ | step
  · exact ⟨rfl, ⟨root, hroot, rfl⟩, hs⟩
  · dsimp only [withRoot]
    rcases c.sampling.advance step c.maxCatchUp (Sampling.counted Numeric.toDouble dt) with ⟨taken, sampling⟩
    have hrounds := sampleRounds_alike hsenses (Numeric.toSingle step) taken c.sensors hs
    rcases hl : sampleRounds senses (Numeric.toSingle step) taken c.sensors s with ⟨sensors, s₁⟩
    rcases hr : sampleRounds senses (Numeric.toSingle step) taken c.sensors t with ⟨sensors', t₁⟩
    rw [hl, hr] at hrounds
    obtain ⟨hsensors, hs₁⟩ := hrounds
    obtain rfl : sensors = sensors' := hsensors
    -- whether rounds are put off is a matter of the time and not of the tree
    have hdeferred : ({ c with sensors, sampling } : Controller α κ σ).deferred? step =
      ({ c.withRoot root with sensors, sampling } : Controller β κ σ).deferred? step := rfl
    dsimp only [withRoot] at hdeferred ⊢
    rw [← hdeferred]
    split
    · exact ⟨rfl, ⟨root, hroot, rfl⟩, hs₁⟩
    · next event _ =>
      obtain ⟨hresult, hs'⟩ := hS.emit event (hS.tell (.catchUpCapped c.frame event.a event.b) hs₁)
      exact ⟨hresult, ⟨root, hroot, rfl⟩, hs'⟩

/-- Coupled controllers tick coupled trees alike. -/
theorem tickRoot {kit : Leaves α κ Situation Fault} {kit' : Leaves β κ Situation Fault}
    (hkit : kit.Coupled kit' A S) (hS : Situation.Reportable S) (h : Coupled A c d) (dt : Float32)
    (hs : S s t) : Paired Eq (Paired (Coupled A) S) (c.tickRoot kit dt s) (d.tickRoot kit' dt t) := by
  obtain ⟨root, hroot, rfl⟩ := h
  have htick := hroot.tick hkit dt hs
  unfold Controller.tickRoot
  dsimp only [withRoot]
  rcases hl : c.root.tick kit dt s with ⟨answer, tree, s₁⟩
  rcases hr : root.tick kit' dt t with ⟨answer', other, t₁⟩
  rw [hl, hr] at htick
  obtain ⟨hanswer, hticked, hs₁⟩ := htick
  obtain rfl : answer = answer' := hanswer
  cases answer with
  | error fault => exact ⟨rfl, ⟨other, hticked, rfl⟩, hs₁⟩
  | ok status =>
    have htold : S (s₁.tell (.rootTicked c.frame status)) (t₁.tell (.rootTicked c.frame status)) :=
      hS.tell _ hs₁
    have hreport : Paired Eq S
        (({ c with root := tree } : Controller α κ σ).report status (s₁.tell (.rootTicked c.frame status)))
        (({ c.withRoot root with root := other } : Controller β κ σ).report status
          (t₁.tell (.rootTicked c.frame status))) := by
      unfold report
      rw [show ({ c.withRoot root with root := other } : Controller β κ σ).change? status =
        ({ c with root := tree } : Controller α κ σ).change? status from rfl]
      split
      · exact ⟨rfl, htold⟩
      · exact hS.emit _ htold
    dsimp only [withRoot] at hreport ⊢
    rcases hl : Controller.report _ status (s₁.tell (.rootTicked c.frame status)) with ⟨result, s₂⟩
    rcases hr : Controller.report _ status (t₁.tell (.rootTicked c.frame status)) with ⟨result', t₂⟩
    rw [hl, hr] at hreport
    obtain ⟨hresult, hs₂⟩ := hreport
    obtain rfl : result = result' := hresult
    cases result with
    | error fault => exact ⟨rfl, ⟨other, hticked, rfl⟩, hs₂⟩
    | ok => exact ⟨rfl, ⟨other, hticked, rfl⟩, hs₂⟩

/-- **`Controller.Coupled.tick`** — coupled controllers make the same of a frame and stay coupled. -/
theorem tick {kit : Leaves α κ Situation Fault} {kit' : Leaves β κ Situation Fault}
    (hkit : kit.Coupled kit' A S) (hsenses : senses.Alike S) (hS : Situation.Reportable S)
    (h : Coupled A c d) (dt : Float32) (hs : S s t) :
    Paired Eq (Paired (Coupled A) S) (c.tick kit senses dt s) (d.tick kit' senses dt t) := by
  obtain ⟨root, hroot, rfl⟩ := h
  have hbegun : Coupled A { c with frame := c.frame + 1 }
      { c.withRoot root with frame := c.frame + 1 } := ⟨root, hroot, rfl⟩
  have hsense := hbegun.sense hsenses hS dt hs
  unfold Controller.tick
  dsimp only [withRoot] at hsense ⊢
  rcases hl : Controller.sense senses dt _ s with ⟨result, c₁, s₁⟩
  rcases hr : Controller.sense senses dt _ t with ⟨result', d₁, t₁⟩
  rw [hl, hr] at hsense
  obtain ⟨hresult, hsensed, hs₁⟩ := hsense
  obtain rfl : result = result' := hresult
  cases result with
  | error fault => exact ⟨rfl, hsensed, hs₁⟩
  | ok => exact hsensed.tickRoot hkit hS dt hs₁

/-- **`Controller.Coupled.abort`** — coupled controllers are aborted alike and stay coupled. -/
theorem abort {kit : Leaves α κ Situation Fault} {kit' : Leaves β κ Situation Fault}
    (hkit : kit.Coupled kit' A S) (h : Coupled A c d) (hs : S s t) :
    Paired (Coupled A) S (c.abort kit s) (d.abort kit' t) := by
  obtain ⟨root, hroot, rfl⟩ := h
  obtain ⟨haborted, hs'⟩ := hroot.abort hkit hs
  exact ⟨⟨_, haborted, rfl⟩, hs'⟩

end Coupled

end Controller

end BehaviorTree
