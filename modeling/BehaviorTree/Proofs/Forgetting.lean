/-
# BehaviorTree.Proofs.Forgetting — a tree at rest is as good as new

After an abort, and after a tick that has ended with success or failure, a tree does what it would do if it
had just been loaded. It is not the same as then: its actions still hold what is left of their runs, such
as a timer that is half spent or the angle around which a scan has turned. But to enter an action is to
overwrite all this before it is read (`Leaves.Forgets`).

Two relations carry the proof. A tree is a worn one of another (`Node.Worn`) if it has been in use: cursors
may be anywhere and actions may hold anything that their use leaves behind. This is preserved by every
call, also by one that is cut short. Two trees are twins (`Node.Twins`) if they stand at the same place and
differ only in actions that are not entered and are entered alike. Twins are alike in the sense of
`Likeness`. At rest a worn tree is a twin of the tree that was built (`Node.Worn.twins`).

Three kinds of leaves do remember, and a document must not name them: a wait that is spent stays spent, a
spin goes on at the angle where the last one ended, and a patrol knows its next waypoint
(`Action.Forgetful`).
-/
import BehaviorTree.Proofs.Grammar
import BehaviorTree.Proofs.Likeness
import BehaviorTree.Proofs.Run

namespace BehaviorTree

variable {α κ ω φ : Type}

/-! ## § Leaves that forget -/

/-- **`Leaves.Forgets`** — `Used a b` is to say that the action `a` has become `b` by its use. However it
has been used, it is entered as if it were new. -/
structure Leaves.Forgets (kit : Leaves α κ ω φ) (Used : α → α → Prop) : Prop where
  enter_eq : ∀ {a b}, Used a b → ∀ s, kit.enter b s = kit.enter a s
  enter : ∀ {a b}, Used a b → ∀ s, Used a (kit.enter b s).1
  tick : ∀ {a b}, Used a b → ∀ dt s, Used a (kit.tick b dt s).2.1
  exit : ∀ {a b}, Used a b → ∀ s, Used a (kit.exit b s).1

/-- The second action is what the first one has become by its use. -/
def ActionNode.Worn (Used : α → α → Prop) (n n' : ActionNode α) : Prop :=
  n'.name = n.name ∧ Used n.leaf n'.leaf

/-- **`ActionNode.Twins`** — actions that cannot be told apart: they are the same, or neither is entered
and both are entered alike. -/
inductive ActionNode.Twins (kit : Leaves α κ ω φ) : ActionNode α → ActionNode α → Prop
  | same (n : ActionNode α) : Twins kit n n
  | rested {name : String} {leaf leaf' : α} :
      (∀ s, kit.enter leaf' s = kit.enter leaf s) → Twins kit ⟨name, false, leaf⟩ ⟨name, false, leaf'⟩

section Actions

variable {kit : Leaves α κ ω φ} {Used : α → α → Prop} {n n' : ActionNode α}

/-- A tick wears an action. -/
theorem ActionNode.Worn.tick (hkit : kit.Forgets Used) (h : n.Worn Used n') (dt : Float32) (s : ω) :
    n.Worn Used (n'.tick kit dt s).2.1 := by
  obtain ⟨hname, hused⟩ := h
  rcases hb : (if n'.entered then (n'.leaf, s) else kit.enter n'.leaf s) with ⟨leaf, s₁⟩
  rcases ht : kit.tick leaf dt s₁ with ⟨answer, leaf', s₂⟩
  have hbegun : Used n.leaf leaf := by
    split at hb
    · exact (Prod.mk.inj hb).1 ▸ hused
    · simpa only [hb] using hkit.enter hused s
  have hticked : Used n.leaf leaf' := by simpa only [ht] using hkit.tick hbegun dt s₁
  simp only [ActionNode.tick, hb, ht]
  cases answer with
  | error => exact ⟨hname, hticked⟩
  | ok status =>
    cases status with
    | running => exact ⟨hname, hticked⟩
    | success | failure => exact ⟨hname, hkit.exit hticked s₂⟩

/-- So does an abort. -/
theorem ActionNode.Worn.abort (hkit : kit.Forgets Used) (h : n.Worn Used n') (s : ω) :
    n.Worn Used (n'.abort kit s).1 := by
  unfold ActionNode.abort
  split
  · exact ⟨h.1, hkit.exit h.2 s⟩
  · exact h

/-- A tick of either twin is the same. -/
theorem ActionNode.Twins.tick_eq (h : n.Twins kit n') (dt : Float32) (s : ω) :
    n'.tick kit dt s = n.tick kit dt s ∧ (n'.calls kit dt s : List (LeafCall φ)) = n.calls kit dt s := by
  cases h with
  | same => exact ⟨rfl, rfl⟩
  | rested henter => simp [ActionNode.tick, ActionNode.calls, henter]

theorem ActionNode.Twins.entered_eq (h : n.Twins kit n') : n'.entered = n.entered := by
  cases h <;> rfl

/-- Twins are aborted alike. -/
theorem ActionNode.Twins.abort (h : n.Twins kit n') (s : ω) :
    (n.abort kit s).1.Twins kit (n'.abort kit s).1 ∧ (n.abort kit s).2 = (n'.abort kit s).2 := by
  cases h with
  | same n => exact ⟨.same _, rfl⟩
  | rested henter => exact ⟨.rested henter, rfl⟩

/-- At rest, an action that is worn is a twin of the one that is new. -/
theorem ActionNode.Worn.twins (hkit : kit.Forgets Used) (h : n.Worn Used n') (hn : n.entered = false)
    (hn' : n'.entered = false) : n.Twins kit n' := by
  obtain ⟨name, entered, leaf⟩ := n
  obtain ⟨name', entered', leaf'⟩ := n'
  obtain ⟨rfl, hused⟩ := h
  obtain rfl : entered = false := hn
  obtain rfl : entered' = false := hn'
  exact .rested fun s => hkit.enter_eq hused s

end Actions

/-! ## § Trees of one shape -/

namespace Node

/-- **`Node.Parallel`** — trees of one shape, without waits. Their composites stand at cursors that `C`
relates, their actions are related by `A`, and their conditions are the same. -/
inductive Parallel (C : Option Nat → Option Nat → Prop) (A : ActionNode α → ActionNode α → Prop) :
    Node α κ → Node α κ → Prop
  | composite (kind : Composite) {cursor cursor' : Option Nat} {children others : List (Node α κ)} :
      C cursor cursor' → List.Forall₂ (Parallel C A) children others →
      Parallel C A (kind.node cursor children) (kind.node cursor' others)
  | action {n n' : ActionNode α} : A n n' → Parallel C A (.action n) (.action n')
  | condition (name : String) (leaf : κ) : Parallel C A (.condition name leaf) (.condition name leaf)

section Parallel

variable {C : Option Nat → Option Nat → Prop} {A : ActionNode α → ActionNode α → Prop}

/-- Induction over two trees of one shape, with the statement for every child. -/
@[elab_as_elim]
theorem Parallel.induction {motive : Node α κ → Node α κ → Prop} {tree other : Node α κ}
    (h : Parallel C A tree other)
    (composite : ∀ (kind : Composite) (cursor cursor' : Option Nat) (children others : List (Node α κ)),
      C cursor cursor' →
      List.Forall₂ (fun child other => Parallel C A child other ∧ motive child other) children others →
      motive (kind.node cursor children) (kind.node cursor' others))
    (action : ∀ n n', A n n' → motive (.action n) (.action n'))
    (condition : ∀ name leaf, motive (.condition name leaf) (.condition name leaf)) :
    motive tree other := by
  refine @Parallel.rec α κ C A (fun tree other _ => motive tree other)
    (fun children others _ =>
      List.Forall₂ (fun child other => Parallel C A child other ∧ motive child other) children others)
    ?composite ?action condition .nil ?cons tree other h
  case composite => exact fun kind _ _ _ _ hcursor _ ih => composite kind _ _ _ _ hcursor ih
  case action => exact fun hn => action _ _ hn
  case cons => exact fun hchild _ ih ihrest => .cons ⟨hchild, ih⟩ ihrest

theorem Parallel.leaves_eq {tree other : Node α κ} (h : Parallel C A tree other) :
    other.leaves = tree.leaves := by
  refine h.induction ?composite (fun _ _ _ => rfl) (fun _ _ => rfl)
  case composite =>
    intro kind _ _ children others _ hchildren
    rw [leaves_composite, leaves_composite]
    exact leavesAll_alike (hchildren.imp fun _ _ hchild => hchild.2)

end Parallel

end Node

/-! ## § Worn trees -/

/-- What the ticks of each child preserve, a walk through the children preserves. -/
theorem Walk.forall₂ {R : Node α κ → Node α κ → Prop} {kit : Leaves α κ ω φ} {dt : Float32} {onward : Status}
    {first skip : Nat} {children children' : List (Node α κ)} {s s' : ω} {log : LeafLog φ}
    {stop : Node.Stop φ} (h : Walk kit dt onward first skip children s log stop children' s')
    {starts : List (Node α κ)}
    (hstarts : List.Forall₂ (fun start child => R start child ∧ ∀ s, R start (child.tick kit dt s).2.1)
      starts children) :
    List.Forall₂ R starts children' := by
  induction h generalizing starts with
  | through =>
    cases hstarts
    exact .nil
  | skip _ ih =>
    cases hstarts with
    | cons hchild hrest => exact .cons hchild.1 (ih hrest)
  | @pass _ _ _ _ _ s _ _ _ _ htick _ ih =>
    cases hstarts with
    | cons hchild hrest => exact .cons (by simpa only [htick] using hchild.2 s) (ih hrest)
  | @stop _ _ _ _ s _ _ htick _ =>
    cases hstarts with
    | cons hchild hrest =>
      exact .cons (by simpa only [htick] using hchild.2 s) (hrest.imp fun _ _ h => h.1)

namespace Node

/-- **`Node.Worn`** — the second tree is what the first one has become by its use. -/
abbrev Worn (Used : α → α → Prop) : Node α κ → Node α κ → Prop :=
  Parallel (fun _ _ => True) (ActionNode.Worn Used)

/-- **`Node.Twins`** — trees that stand at the same place and whose actions are twins. -/
abbrev Twins (kit : Leaves α κ ω φ) : Node α κ → Node α κ → Prop :=
  Parallel Eq (ActionNode.Twins kit)

/-- The node is no wait, and if it is an action, it has the property. -/
def OnlyActions (P : ActionNode α → Prop) : Node α κ → Prop
  | .action node => P node
  | .wait _ => False
  | _ => True

section Worn

variable {kit : Leaves α κ ω φ} {Used : α → α → Prop} {start tree : Node α κ}

/-- If its actions are as if they had not been used, so is the tree. -/
theorem Worn.self (h : tree.Everywhere (OnlyActions fun node => Used node.leaf node.leaf)) :
    Worn Used tree tree := by
  induction tree using Node.induction with
  | composite kind cursor children ih =>
    have hchildren := ((everywhere_iff _ _).mp h).2
    rw [Composite.node_children] at hchildren
    have hall : List.Forall₂ (Worn Used) children children :=
      List.forall₂_same.mpr fun child hchild => ih child hchild (hchildren child hchild)
    exact .composite kind trivial hall
  | action node => exact .action ⟨rfl, (everywhere_leaf rfl).mp h⟩
  | condition name leaf => exact .condition name leaf
  | wait timer => exact ((everywhere_leaf rfl).mp h).elim

/-- **`Node.Worn.tick`** — every tick leaves a worn tree behind, also one that ends by a fault. -/
theorem Worn.tick (hkit : kit.Forgets Used) (h : Worn Used start tree) (dt : Float32) (s : ω) :
    Worn Used start (tree.tick kit dt s).2.1 := by
  revert s
  refine h.induction ?composite ?action (fun name leaf _ => .condition name leaf)
  case composite =>
    intro kind cursor cursor' starts children _ hchildren s
    rcases htick : (kind.node cursor' children).tick kit dt s with ⟨answer, tree', t⟩
    obtain ⟨stop, children', next, hwalk, -, rfl⟩ := walk_of_tick 0 htick
    exact .composite kind trivial (hwalk.forall₂ hchildren)
  case action => exact fun n n' hworn s => .action (hworn.tick hkit dt s)

/-- Every abort leaves a worn tree behind. -/
theorem Worn.abort (hkit : kit.Forgets Used) (h : Worn Used start tree) (s : ω) :
    Worn Used start (tree.abort kit s).1 := by
  revert s
  refine h.induction ?composite ?action (fun name leaf _ => .condition name leaf)
  case composite =>
    intro kind cursor cursor' starts children _ hchildren s
    rw [Composite.abort_eq]
    refine .composite kind trivial ?_
    induction hchildren generalizing s with
    | nil => exact .nil
    | cons hchild _ ih => exact .cons (hchild.2 s) (ih _)
  case action => exact fun n n' hworn s => .action (hworn.abort hkit s)

/-- At rest, a composite is as if it had not begun. -/
theorem AtRest.node_eq {kind : Composite} {cursor : Option Nat} {children : List (Node α κ)}
    (h : (kind.node cursor children).AtRest) : kind.node cursor children = kind.node none children := by
  have hidle := ((atRest_iff _).mp h).1
  cases kind with
  | selector => exact congrArg (selector · children) hidle
  | sequence => exact congrArg (sequence · children) hidle

/-- **`Node.Worn.twins`** — at rest, a worn tree is a twin of the one that was built. -/
theorem Worn.twins (hkit : kit.Forgets Used) (h : Worn Used start tree) (hstart : start.AtRest)
    (htree : tree.AtRest) : Twins kit start tree := by
  revert hstart htree
  refine h.induction ?composite ?action (fun name leaf _ _ => .condition name leaf)
  case composite =>
    intro kind cursor cursor' starts children _ hchildren hstart htree
    -- worn trees may stand anywhere, but at rest both stand at the beginning
    rw [hstart.node_eq, htree.node_eq]
    refine .composite kind rfl ?_
    replace hstart := hstart.cursor.2
    replace htree := htree.cursor.2
    induction hchildren with
    | nil => exact .nil
    | cons hchild _ ih =>
      obtain ⟨hstart, hstarts⟩ := List.forall_mem_cons.mp hstart
      obtain ⟨htree, htrees⟩ := List.forall_mem_cons.mp htree
      exact .cons (hchild.2 hstart htree) (ih hstarts htrees)
  case action =>
    intro n n' hworn hstart htree
    exact .action (hworn.twins hkit ((atRest_action n).mp hstart) ((atRest_action n').mp htree))

end Worn

/-! ## § Twins -/

section Twins

variable {kit : Leaves α κ ω φ} {tree other : Node α κ}

theorem Twins.held_eq (h : Twins kit tree other) (first : Nat) : other.held first = tree.held first := by
  revert first
  refine h.induction ?composite ?action (fun _ _ _ => rfl)
  case composite =>
    intro kind _ _ children others _ hchildren first
    rw [held_composite, held_composite]
    exact heldAll_alike (hchildren.imp fun _ _ hchild => ⟨hchild.1.leaves_eq, hchild.2⟩) first
  case action =>
    intro n n' htwins first
    rw [held, held, htwins.entered_eq]

/-- Twins tick alike. -/
theorem Twins.ticksLike (h : Twins kit tree other) (dt : Float32) :
    TicksLike kit Eq (Twins kit) dt tree other := by
  refine h.induction ?composite ?action ?condition
  case composite =>
    rintro kind cursor _ children others rfl hchildren
    refine ticksLike_composite ?_ fun htwins => .composite kind rfl htwins
    exact hchildren.imp fun _ _ hchild => ⟨hchild.1, hchild.1.leaves_eq, hchild.2⟩
  case action =>
    rintro n n' htwins first s _ t answer tree' rfl htick
    obtain ⟨htick_eq, hcalls_eq⟩ := htwins.tick_eq dt s
    refine ⟨tree', t, ?_, ?_, rfl, ?_⟩
    · rw [← htick, Node.tick, Node.tick, htick_eq]
    · rw [calls, calls, hcalls_eq]
    · intro status _
      rw [Node.tick, Prod.mk.injEq, Prod.mk.injEq] at htick
      obtain ⟨-, rfl, -⟩ := htick
      exact .action (.same _)
  case condition =>
    rintro name leaf first s _ t answer tree' rfl htick
    refine ⟨tree', t, htick, rfl, rfl, fun _ _ => ?_⟩
    rw [Node.tick, Prod.mk.injEq, Prod.mk.injEq] at htick
    obtain ⟨-, rfl, -⟩ := htick
    exact .condition name leaf

/-- Twins are aborted alike. -/
theorem Twins.abort (h : Twins kit tree other) (s : ω) :
    Twins kit (tree.abort kit s).1 (other.abort kit s).1 ∧
      (tree.abort kit s).2 = (other.abort kit s).2 := by
  revert s
  refine h.induction ?composite ?action (fun name leaf _ => ⟨.condition name leaf, rfl⟩)
  case composite =>
    intro kind cursor cursor' children others _ hchildren s
    obtain ⟨htwins, hstate⟩ := abortAll_alike (hchildren.imp fun _ _ hchild => hchild.2) s
    rw [Composite.abort_eq, Composite.abort_eq]
    exact ⟨.composite kind rfl htwins, hstate⟩
  case action =>
    intro n n' htwins s
    obtain ⟨htwins', hstate⟩ := htwins.abort s
    exact ⟨.action htwins', hstate⟩

/-- Twins are alike. -/
theorem twins_likeness (kit : Leaves α κ ω φ) : Likeness kit Eq (Twins (κ := κ) kit) where
  held h := h.held_eq
  tick h dt := h.ticksLike dt
  abort := by
    rintro tree other h s _ rfl
    exact h.abort s

end Twins

end Node

/-! ## § Runs -/

section Runs

variable {kit : Leaves α κ ω φ} {Used : α → α → Prop} {start tree : Node α κ} {turns : List (Turn φ)}

/-- **`Run.worn`** — every run leaves a worn tree behind. -/
theorem Run.worn (hkit : kit.Forgets Used) (hrun : Run kit start turns tree)
    (hstart : start.Worn Used start) : start.Worn Used tree := by
  induction hrun with
  | nil => exact hstart
  | snoc _ hstep ih =>
    cases hstep with
    | @tick dt _ _ s _ _ htick => simpa only [htick] using ih.tick hkit dt s
    | @abort _ s => exact ih.abort hkit s

/-- A run that has ended leaves a tree behind that does what the tree did at the beginning. -/
theorem Run.drive_eq (hkit : kit.Forgets Used) (hrun : Run kit start turns tree)
    (hstart : start.Worn Used start) (hrest : start.AtRest)
    (hended : ∀ log, turns.getLast? ≠ some (.ticked .running log)) (calls : List (Call ω)) (s : ω) :
    tree.drive kit calls s = start.drive kit calls s := by
  have htree : tree.AtRest := by
    -- a run stands where its last call has left it, and only a running tick leaves it in the middle
    have hstands := hrun.stands hrest
    generalize turns.getLast? = last at hstands hended
    cases hstands with
    | rest _ htree => exact htree
    | suspended => exact absurd rfl (hended _)
  exact (Node.twins_likeness kit).drive_eq ((hrun.worn hkit hstart).twins hkit hrest htree) calls s

end Runs

/-! ## § The library's own actions -/

section BuiltIn

variable {χ : Type}

/-- Moving on leaves the move itself as it is. -/
def Move.Steady (host : HostProviders χ) (m : Move χ) : Prop :=
  ∀ s, (m.tick host s).2.1 = m

/-- **`Action.Used`** — what is left of a run of an action: the time of a timer, and the time, the base
and the timer of a scan that hands no angle on. -/
inductive Action.Used (host : HostProviders χ) : Action χ → Action χ → Prop
  | listen {duration remaining remaining' : Float32} :
      Used host (.listen ⟨duration, remaining⟩) (.listen ⟨duration, remaining'⟩)
  | look {aim : Aim} {duration remaining remaining' : Float32} :
      Used host (.look ⟨aim, ⟨duration, remaining⟩⟩) (.look ⟨aim, ⟨duration, remaining'⟩⟩)
  | scan {settings : ScanSettings} {duration remaining remaining' elapsed elapsed' base base' : Float32} :
      ¬(settings.rotate = true ∧ settings.mode = .spin) →
      Used host (.scan ⟨settings, ⟨duration, remaining⟩, elapsed, base, none⟩)
        (.scan ⟨settings, ⟨duration, remaining'⟩, elapsed', base', none⟩)
  | move {m : Move χ} : m.Steady host → Used host (.move m) (.move m)

/-- Only a spin that turns hands an angle on. -/
theorem Scan.exit_eq {c : Scan} (h : ¬(c.settings.rotate = true ∧ c.settings.mode = .spin)) :
    c.exit = c :=
  if_neg (by simpa using h)

/-- The library's own actions forget their runs. -/
theorem Leaves.builtIn_forgets (host : HostProviders χ) :
    (Leaves.builtIn host : Leaves (Action χ) Condition Situation φ).Forgets (Action.Used host) where
  enter_eq h s := by
    cases h <;> rfl
  enter h s := by
    cases h with
    | listen => exact .listen
    | look => exact .look
    | scan hspin => exact .scan hspin
    | move hsteady => exact .move hsteady
  tick h dt s := by
    cases h with
    | listen => exact .listen
    | @look aim _ _ _ =>
      simp only [builtIn, Action.tick, Look.tick]
      split <;> exact .look
    | scan hspin =>
      simp only [builtIn, Action.tick, Scan.tick]
      split <;> exact .scan hspin
    | @move m hsteady =>
      have htick := hsteady s
      simp only [builtIn, Action.tick, htick]
      exact .move hsteady
  exit h s := by
    cases h with
    | listen => exact .listen
    | look => exact .look
    | @scan settings duration _ remaining' _ elapsed' _ base' hspin =>
      have hexit : (Scan.mk settings ⟨duration, remaining'⟩ elapsed' base' none).exit = _ :=
        Scan.exit_eq hspin
      simp only [builtIn, Action.exit, hexit]
      exact .scan hspin
    | move hsteady => exact .move hsteady

/-! ## § Moves -/

/-- If the provider stays as it is, so does the move. -/
theorem Move.steady_of_paths {host : HostProviders χ} {provider : Provider χ} {speed : Float32}
    (h : ∀ s, (provider.next host s).2.1 = provider) : Move.Steady host ⟨.paths provider, speed⟩ := by
  have hfind : ∀ s, (findPath host provider s).2.1 = provider := by
    intro s
    have hnext := h s
    unfold findPath
    split
    · rfl
    · split <;> rename_i heq <;> rw [heq] at hnext
      · exact hnext
      · dsimp only
        split <;> exact hnext
  intro s
  have hfollow : (follow host speed provider s).2.1 = provider := by
    have hprovider := hfind s
    unfold follow
    split <;> rename_i heq <;> rw [heq] at hprovider <;> exact hprovider
  simp only [Move.tick, hfollow]

/-- **`MoveSettings.Unpatrolled`** — to a remembered cell, to random neighbours, or along no waypoints. -/
def MoveSettings.Unpatrolled (p : MoveSettings) : Prop :=
  p.toward.isSome ∨ p.mode = .randomAdjacent ∨ p.waypoints = []

/-- A provider that has no waypoints stays as it is. -/
theorem ProviderMode.next_build (host : HostProviders χ) {mode : ProviderMode} {waypoints : List Cell}
    (h : mode = .randomAdjacent ∨ waypoints = []) (s : Situation) :
    ((mode.build waypoints : Provider χ).next host s).2.1 = mode.build waypoints := by
  rcases h with rfl | rfl
  · rfl
  · cases mode <;> rfl

theorem MoveSettings.Unpatrolled.steady {p : MoveSettings} (h : p.Unpatrolled) (host : HostProviders χ) :
    p.move.Steady host := by
  obtain ⟨speed, toward, mode, waypoints⟩ := p
  match toward with
  | some .lastSeen | some .lastHeard => exact fun _ => rfl
  | none =>
    have hmode : mode = .randomAdjacent ∨ waypoints = [] := by simpa [Unpatrolled] using h
    exact Move.steady_of_paths (mode.next_build host hmode)

/-! ## § Documents -/

/-- **`Action.Forgetful`** — the actions of which a document may be made: listening, looking, scanning
unless it is a spin that turns, and moving unless it is on patrol. -/
inductive Action.Forgetful : Action χ → Prop
  | listen (timer : Timer) : Forgetful (.listen timer)
  | look (look : Look) : Forgetful (.look look)
  | scan {scan : Scan} : ¬(scan.settings.rotate = true ∧ scan.settings.mode = .spin) →
      Forgetful (.scan scan)
  | move {p : MoveSettings} : p.Unpatrolled → Forgetful (.move p.move)

/-- **`Node.Forgetful`** — all leaves of the tree are conditions and forgetful actions. -/
def Node.Forgetful (tree : Node (Action χ) κ) : Prop :=
  tree.Everywhere (OnlyActions fun node => node.leaf.Forgetful)

/-- The actions as they are made. -/
inductive Action.Built : Action χ → Prop
  | listen (duration : Float32) : Built (.listen (.full duration))
  | look (aim : Aim) (duration : Float32) : Built (.look ⟨aim, .full duration⟩)
  | scan (settings : ScanSettings) : Built (.scan (.ofSettings settings))
  | move (p : MoveSettings) : Built (.move p.move)

/-- What is made of a parameter block is made of a record. -/
theorem Json.Shape.eq_make_of_build {ρ β : Type} {shape : Shape ρ} {make : ρ → β} {params : Json} {made : β}
    (h : shape.build make params = .ok made) : ∃ record, made = make record := by
  unfold Shape.build at h
  split at h
  · exact ⟨_, (Except.ok.inj h).symm⟩
  · cases h

theorem LookSettings.built_of_look {p : LookSettings} {l : Look} (h : p.look = .ok l) :
    (Action.look l : Action χ).Built := by
  unfold look at h
  split at h <;> cases h
  · exact .look .player p.duration
  · exact .look (.point _) p.duration

theorem Registries.built_of_look {params : Json} {a : Action χ} (h : look params = .ok a) : a.Built := by
  rcases hsettings : LookSettings.shape.build id params with _ | p
  · simp [look, hsettings, bind, Except.bind] at h
  · rcases hlook : p.look with _ | l
    · simp [look, hsettings, hlook, bind, Except.bind] at h
    · simp only [look, hsettings, hlook, bind, Except.bind, pure, Except.pure, Except.ok.injEq] at h
      exact h ▸ LookSettings.built_of_look hlook

/-- The actions that a document can name are made in these ways. -/
theorem Members.Names.built {members : Members} {name : String} {a : Action χ}
    (h : members.Names (Registries.builtIn : Registries (Action χ) Condition).actions name a) : a.Built := by
  obtain ⟨-, -, hlookup, hmade⟩ := h
  rename_i params factory
  obtain ⟨before, after, hentries, -⟩ := List.lookup_eq_some_iff.mp hlookup
  have hmem : (name, factory) ∈ (Registries.builtIn : Registries (Action χ) Condition).actions.entries := by
    rw [hentries]
    exact List.mem_append_right before List.mem_cons_self
  have hfour : (Registries.builtIn : Registries (Action χ) Condition).actions.entries =
    [("listen", ListenSettings.shape.build fun p => .listen (.full p.duration)), ("look", Registries.look),
      ("move", MoveSettings.shape.build fun p => .move p.move),
      ("scan", ScanSettings.shape.build fun p => .scan (.ofSettings p))] := rfl
  simp only [hfour, List.mem_cons, List.not_mem_nil, or_false, Prod.mk.injEq] at hmem
  rcases hmem with ⟨-, rfl⟩ | ⟨-, rfl⟩ | ⟨-, rfl⟩ | ⟨-, rfl⟩
  · obtain ⟨p, rfl⟩ := Json.Shape.eq_make_of_build hmade
    exact .listen p.duration
  · exact Registries.built_of_look hmade
  · obtain ⟨p, rfl⟩ := Json.Shape.eq_make_of_build hmade
    exact .move p
  · obtain ⟨settings, rfl⟩ := Json.Shape.eq_make_of_build hmade
    exact .scan settings

/-- As it was made, a forgetful action is as if it had not been used. -/
theorem Action.Forgetful.used {a : Action χ} (h : a.Forgetful) (hbuilt : a.Built) (host : HostProviders χ) :
    a.Used host a := by
  cases hbuilt with
  | listen => exact .listen
  | look => exact .look
  | scan settings =>
    cases h with
    | scan hspin => exact .scan hspin
  | move p =>
    -- the parameters of a forgetful move need not be those of which it was made
    generalize p.move = m at h
    cases h with
    | move hunpatrolled => exact .move (hunpatrolled.steady host)

/-- A forgetful tree that mirrors a document is as if it had not been used. -/
theorem Registries.Mirrors.worn {node : Json} {tree : Node (Action χ) Condition}
    (h : builtIn.Mirrors node tree) (hleaves : tree.Forgetful) (host : HostProviders χ) :
    tree.Worn (Action.Used host) tree := by
  have hbuilt : tree.Everywhere fun node => ∀ n, node = .action n → n.leaf.Built := by
    refine h.everywhere ?composite ?action (fun _ _ _ hn => nomatch hn) (fun _ _ hn => nomatch hn)
    case composite => exact fun kind _ n hn => by cases kind <;> cases hn
    case action =>
      rintro members name leaf hnames _ ⟨⟩
      exact hnames.built
  refine .self fun address node hnode => ?_
  have hforgetful := hleaves address node hnode
  cases node with
  | action n => exact hforgetful.used (hbuilt address _ hnode n rfl) host
  | wait => exact hforgetful
  | selector | sequence | condition => trivial

/-- **`Run.forgets`** — abort and completion forget the run. Let a document be made of conditions and
forgetful actions, and let its tree be in any state to which ticks and aborts of the root have brought it,
the last of which was an abort or a tick that answered success or failure. From then on, whatever calls are
made and however the world changes between them, it answers the same, makes the same calls of leaves and
has the same effects on the agent, its random stream and the blackboard as the tree that is loaded from the
document. -/
theorem Run.forgets (host : HostProviders χ) {document : Json} {loaded tree : Node (Action χ) Condition}
    {turns : List (Turn φ)} (hload : Node.ofDocument .builtIn document = .ok loaded)
    (hleaves : loaded.Forgetful) (hrun : Run (.builtIn host) loaded turns tree)
    (hended : ∀ log, turns.getLast? ≠ some (.ticked .running log)) (calls : List (Call Situation))
    (s : Situation) :
    tree.drive (.builtIn host : Leaves _ _ _ φ) calls s = loaded.drive (.builtIn host) calls s := by
  obtain ⟨root, -, hmirrors⟩ := Node.mirrors_of_ofDocument hload
  exact hrun.drive_eq (Leaves.builtIn_forgets host) (hmirrors.worn hleaves host) hmirrors.fresh.atRest hended
    calls s

end BuiltIn

/-! ## § A run that is cut short -/

/-- A sentry that looks at the player if it has just seen it, and listens if not. -/
def sentry : Json :=
  .object [("root", .object
    [("children", .array
      [.object
        [("children", .array
          [.object [("name", .text "playerVisible"), ("type", .text "condition")],
            .object [("name", .text "look"), ("type", .text "action")]]),
          ("type", .text "sequence")],
        .object [("name", .text "listen"), ("type", .text "action")]]),
      ("type", .text "selector")])]

/-- Its tree with that cursor, entered to listen or not, and with that much time left for it. -/
def sentryTree (running : Option Nat) (entered : Bool) (remaining : Float32) :
    Node (Action Empty) Condition :=
  .selector running
    [.sequence 0
      [.condition "playerVisible" (.playerVisible 0.2),
        .action ⟨"look", false, .look ⟨.player, .full 0.5⟩⟩],
      .action ⟨"listen", entered, .listen ⟨0.8, remaining⟩⟩]

theorem sentryTree_forgetful : (sentryTree none false 0.8).Forgetful := by
  have hleaf : ∀ leaf : Node (Action Empty) Condition, leaf.children = [] →
      leaf.OnlyActions (fun node => node.leaf.Forgetful) → leaf.Forgetful :=
    fun leaf hleaf h => (Node.everywhere_leaf hleaf).mpr h
  refine (Node.everywhere_iff _ _).mpr ⟨trivial, List.forall_mem_cons.mpr ⟨?_, ?_⟩⟩
  · refine (Node.everywhere_iff _ _).mpr ⟨trivial, List.forall_mem_cons.mpr ⟨?_, ?_⟩⟩
    · exact hleaf _ rfl trivial
    · exact List.forall_mem_singleton.mpr (hleaf _ rfl (.look _))
  · exact List.forall_mem_singleton.mpr (hleaf _ rfl (.listen _))

/-- It is interrupted while it listens. The rest of the time is still there, but it does not count. -/
theorem sentry_forgets :
    Node.ofDocument .builtIn sentry = .ok (sentryTree none false 0.8) ∧
      (sentryTree none false 0.8).Forgetful ∧
      Run (.builtIn .none : Leaves _ _ _ Fault) (sentryTree none false 0.8)
        [.ticked .running [(0, .test (.ok false)), (2, .enter), (2, .tick (.ok .running))],
          .aborted [(2, .exit)]]
        (sentryTree none false (0.8 - 0.25)) ∧
      (0.8 - 0.25 : Float32) ≠ 0.8 ∧
      ∀ calls s, (sentryTree none false (0.8 - 0.25)).drive (.builtIn .none : Leaves _ _ _ Fault) calls s =
        (sentryTree none false 0.8).drive (.builtIn .none) calls s := by
  have hload : Node.ofDocument .builtIn sentry = .ok (sentryTree none false 0.8) := rfl
  have hlistens : Step (.builtIn .none : Leaves _ _ _ Fault) (sentryTree none false 0.8)
      (.ticked .running [(0, .test (.ok false)), (2, .enter), (2, .tick (.ok .running))])
      (sentryTree (some 1) true (0.8 - 0.25)) :=
    .tick (show (sentryTree none false 0.8).tick (.builtIn .none) 0.25 default =
      (.ok .running, sentryTree (some 1) true (0.8 - 0.25), default) from rfl)
  have hstops : Step (.builtIn .none : Leaves _ _ _ Fault) (sentryTree (some 1) true (0.8 - 0.25))
      (.aborted [(2, .exit)]) (sentryTree none false (0.8 - 0.25)) :=
    Step.abort (s := default)
  have hrun := (Run.nil.snoc hlistens).snoc hstops
  exact ⟨hload, sentryTree_forgetful, hrun, by decide +kernel,
    Run.forgets .none hload sentryTree_forgetful hrun (by simp)⟩

end BehaviorTree
