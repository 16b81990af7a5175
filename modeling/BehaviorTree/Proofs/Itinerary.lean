/-
# BehaviorTree.Proofs.Itinerary — a path is walked cell by cell

A move along paths has a path on the blackboard, a provider to ask for the next one, and an agent that may be
anywhere when it is ticked. The three go on independently of each other: the agent moves between the ticks, the
provider is asked when no path is left, and the path goes on by one cell whenever a tick finds the agent on the
cell that is next.

`Leg.Made` lists all that one tick can come to, in terms of the cells that are left of the path. The rest is
about legs one after the other (`Move.Legs`), whatever has become of the agent in between and whether or not the
action was aborted. No cell of a path is skipped and no tick counts for two of them (`Move.Legs.visits`); on
patrol, no waypoint is skipped either (`Move.Legs.patrols`). `Move.paths_walked` puts it together.
-/
import BehaviorTree.Proofs.PathOwner

namespace BehaviorTree

variable {χ : Type}

/-! ## § What is left of a path -/

namespace ActivePath

/-- The cells that are left, the current one first. -/
def left (p : ActivePath) : List Cell :=
  p.cells.drop p.cursor

variable {p q : ActivePath}

theorem left_eq_cons (p : ActivePath) : p.left = p.next :: p.cells.drop (p.cursor + 1) :=
  List.drop_eq_getElem_cons p.cursor_lt

/-- Where there is a following cell, one cell less is left. -/
theorem left_of_advance? (h : p.advance? = some q) : p.left = p.next :: q.left := by
  obtain ⟨hcells, hcursor⟩ := of_advance? h
  rw [left_eq_cons, left, hcells, hcursor]

/-- Where there is none, the current cell is the last one. -/
theorem left_of_advance?_none (h : p.advance? = none) : p.left = [p.next] := by
  unfold advance? at h
  split at h
  · cases h
  · rename_i hend
    rw [left_eq_cons, List.drop_eq_nil_of_le (by omega)]

/-- A new path has all its cells left. -/
theorem left_of_start? {cells : List Cell} (h : start? cells = some p) : p.left = cells := by
  obtain ⟨rfl, hcursor⟩ := of_start? h
  rw [left, hcursor, List.drop_zero]

theorem exists_start? {cells : List Cell} (h : cells ≠ []) : ∃ p, start? cells = some p :=
  ⟨_, dif_pos (List.length_pos_iff.mpr h)⟩

end ActivePath

/-! ## § One tick -/

/-- A tick of a move along paths: its provider before it, the situation that it was given, the status that it
returned and the situation that it left behind. -/
structure Leg (χ : Type) where
  provider : Provider χ
  before : Situation
  status : Status
  after : Situation

namespace Leg

variable (host : HostProviders χ) (speed : Float32) (leg : Leg χ)

/-- Where the agent is. -/
def cell : Cell :=
  leg.before.body.cell

/-- The path that the tick has to walk on: the active one, or else the one that the provider answers. -/
def path? : Option ActivePath :=
  match leg.before.board.path with
  | some path => some path
  | none => (leg.provider.next host leg.before).1.bind ActivePath.start?

/-- The situation after the provider was asked, if it was. -/
def asked : Situation :=
  if leg.before.board.path.isSome then leg.before else (leg.provider.next host leg.before).2.2

/-- The provider after the tick. -/
def provider' : Provider χ :=
  if leg.before.board.path.isSome then leg.provider else (leg.provider.next host leg.before).2.1

/-- **`Leg.Installs`** — there was no active path, and the provider answered this one. -/
def Installs (cells : List Cell) : Prop :=
  leg.before.board.path = none ∧ (leg.provider.next host leg.before).1 = some cells ∧ cells ≠ []

/-- **`Leg.Made`** — all that a tick can come to. Without a path it fails. Away from the next cell of the path it
asks for a move to this cell; on that cell it asks for a move to the one behind it, which is the next one then;
and on the last cell it succeeds, and the path is gone. Beyond that it asks for no move. -/
inductive Made : Prop
  | pathless : leg.path? host = none → leg.status = .failure → leg.after.board.path = none →
      leg.after.body = (leg.asked host).body → Made
  | away {path : ActivePath} : leg.path? host = some path → leg.cell ≠ path.next → leg.status = .running →
      leg.after.board.path = some path →
      leg.after.body = (leg.asked host).body.request path.next speed → Made
  | onward {path path' : ActivePath} : leg.path? host = some path → leg.cell = path.next →
      path.left = path.next :: path'.left → leg.status = .running → leg.after.board.path = some path' →
      leg.after.body = (leg.asked host).body.request path'.next speed → Made
  | ended {path : ActivePath} : leg.path? host = some path → leg.cell = path.next →
      path.left = [path.next] → leg.status = .success → leg.after.board.path = none →
      leg.after.body = (leg.asked host).body → Made

variable {host speed leg}

theorem path?_of_some {path : ActivePath} (h : leg.before.board.path = some path) :
    leg.path? host = some path := by
  simp [path?, h]

theorem path?_of_none (h : leg.before.board.path = none) :
    leg.path? host = (leg.provider.next host leg.before).1.bind ActivePath.start? := by
  simp [path?, h]

/-- An installed path is the one to walk on, and all of it is left. -/
theorem Installs.path? {cells : List Cell} (h : leg.Installs host cells) :
    ∃ path, leg.path? host = some path ∧ path.left = cells := by
  obtain ⟨hnone, hanswer, hcells⟩ := h
  obtain ⟨path, hpath⟩ := ActivePath.exists_start? hcells
  exact ⟨path, by rw [path?_of_none hnone, hanswer, Option.bind_some, hpath], ActivePath.left_of_start? hpath⟩

/-- **`Leg.Made.requests`** — a tick that goes on asks for one move, to the cell that is next then; any other one
asks for none, and there is no path behind it. -/
theorem Made.requests (h : leg.Made host speed) :
    leg.status = .running ∧ (∃ path, leg.after.board.path = some path ∧
        leg.after.body = (leg.asked host).body.request path.next speed) ∨
      leg.status ≠ .running ∧ leg.after.board.path = none ∧ leg.after.body = (leg.asked host).body := by
  cases h with
  | pathless _ hstatus hafter hbody | ended _ _ _ hstatus hafter hbody =>
    exact Or.inr ⟨by simp [hstatus], hafter, hbody⟩
  | away _ _ hstatus hafter hbody => exact Or.inl ⟨hstatus, _, hafter, hbody⟩
  | onward _ _ _ hstatus hafter hbody => exact Or.inl ⟨hstatus, _, hafter, hbody⟩

end Leg

namespace Move

variable {host : HostProviders χ} {speed : Float32} {provider provider' : Provider χ} {s s' : Situation}
  {status : Status}

/-- A tick that has found its path comes to what walking comes to. -/
theorem made_of_walk {leg : Leg χ} {path : ActivePath} (hpath : leg.path? host = some path)
    (hboard : s.board.path = some path) (hbody : s.body = (leg.asked host).body)
    (hcell : s.body.cell = leg.cell) (h : walk speed s = (leg.status, leg.after)) : leg.Made host speed := by
  rw [walk_eq hboard, hcell] at h
  split at h
  · next hthere =>
    split at h
    · next path' hnext =>
      obtain ⟨hstatus, hafter⟩ := Prod.mk.inj h
      refine .onward hpath hthere (ActivePath.left_of_advance? hnext) hstatus.symm ?_ ?_ <;>
        rw [← hafter]
      · rfl
      · rw [← hbody]
        rfl
    · next hend =>
      obtain ⟨hstatus, hafter⟩ := Prod.mk.inj h
      refine .ended hpath hthere (ActivePath.left_of_advance?_none hend) hstatus.symm ?_ ?_ <;>
        rw [← hafter]
      rw [← hbody]
  · next haway =>
    obtain ⟨hstatus, hafter⟩ := Prod.mk.inj h
    refine .away hpath haway hstatus.symm ?_ ?_ <;> rw [← hafter]
    · exact hboard
    · rw [← hbody]
      rfl

/-- **`Move.follow_made`** — a tick comes to nothing else. A host's own providers leave the active path and the
agent's cell alone. -/
theorem follow_made (hhost : ∀ own s, Situation.Kept (fun s => (s.board.path, s.body.cell)) s (host own s).2.2)
    (h : follow host speed provider s = (status, provider', s')) :
    Leg.Made host speed ⟨provider, s, status, s'⟩ ∧ provider' = Leg.provider' host ⟨provider, s, status, s'⟩ := by
  cases hpath : s.board.path with
  | some path =>
    -- nobody is asked: the provider and the situation are as they were
    rw [follow, findPath_of_path hpath] at h
    obtain ⟨hstatus, rfl, hafter⟩ : (walk speed s).1 = status ∧ provider = provider' ∧ (walk speed s).2 = s' := by
      simpa using h
    refine ⟨made_of_walk (Leg.path?_of_some hpath) hpath ?_ rfl (Prod.ext hstatus hafter), ?_⟩
    · simp [Leg.asked, hpath]
    · simp [Leg.provider', hpath]
  | none =>
    rcases hasked : provider.next host s with ⟨answer, asked, s₁⟩
    obtain ⟨hkept, hcell⟩ : s₁.board.path = none ∧ s₁.body.cell = s.body.cell := by
      have hnext := provider.next_keeps (R := Situation.Kept fun s => (s.board.path, s.body.cell))
        (fun _ => rfl) Situation.Kept.trans (fun _ _ => rfl) hhost s
      rw [hasked, Situation.Kept, hpath] at hnext
      exact Prod.mk.inj hnext
    obtain ⟨hanswer, hs₁, hprovider⟩ : Leg.path? host ⟨provider, s, status, s'⟩ = answer.bind ActivePath.start? ∧
        Leg.asked host ⟨provider, s, status, s'⟩ = s₁ ∧ Leg.provider' host ⟨provider, s, status, s'⟩ = asked := by
      simp [Leg.path?, Leg.asked, Leg.provider', hpath, hasked]
    -- setting the path leaves the body as the provider has left it
    obtain ⟨s₂, hfind, hboard, hbody⟩ := findPath_asked hpath hasked hkept
    rw [follow, hfind, ← hanswer] at h
    rw [← hanswer] at hboard
    rw [hprovider]
    cases hfound : Leg.path? host ⟨provider, s, status, s'⟩ with
    | none =>
      rw [hfound] at h hboard
      obtain ⟨rfl, rfl, rfl⟩ : Status.failure = status ∧ asked = provider' ∧ s₂ = s' := by simpa using h
      exact ⟨.pathless hfound rfl hboard (by rw [hs₁, hbody]), rfl⟩
    | some path =>
      rw [hfound] at h hboard
      obtain ⟨hstatus, rfl, hafter⟩ :
          (walk speed s₂).1 = status ∧ asked = provider' ∧ (walk speed s₂).2 = s' := by
        simpa using h
      refine ⟨made_of_walk hfound hboard (by rw [hs₁, hbody]) ?_ (Prod.ext hstatus hafter), rfl⟩
      rw [hbody, hcell, Leg.cell]

end Move

/-! ## § One leg after the other -/

/-- **`Visits`** — distinct ticks, one after the other, that find the agent on these cells. -/
structure Visits (legs : List (Leg χ)) (times : List Nat) (cells : List Cell) : Prop where
  ordered : times.Pairwise (· < ·)
  standing : times.map (fun t => legs[t]?.map Leg.cell) = cells.map some

namespace Visits

variable {legs : List (Leg χ)} {times : List Nat} {cells : List Cell}

/-- Ticks are counted from the first one on. -/
theorem shift {i : Nat} (h : Visits (legs.drop i) times cells) : Visits legs (times.map (i + ·)) cells where
  ordered := by
    rw [List.pairwise_map]
    exact h.ordered.imp fun hlt => Nat.add_lt_add_left hlt i
  standing := by
    rw [← h.standing, List.map_map]
    refine List.map_congr_left fun t _ => ?_
    rw [Function.comp_apply, List.getElem?_drop]

/-- The agent stands on the first cell. -/
theorem cons {leg : Leg χ} (h : Visits legs times cells) :
    Visits (leg :: legs) (0 :: times.map (1 + ·)) (leg.cell :: cells) := by
  have hshift : Visits (leg :: legs) (times.map (1 + ·)) cells := shift (i := 1) h
  refine ⟨List.pairwise_cons.mpr ⟨fun t ht => ?_, hshift.ordered⟩, ?_⟩
  · obtain ⟨t, -, rfl⟩ := List.mem_map.mp ht
    omega
  · rw [List.map_cons, List.map_cons, hshift.standing]
    rfl

end Visits

namespace Move

variable {host : HostProviders χ} {speed : Float32}

/-- **`Move.Legs`** — ticks of a move along paths. In between, everything but the path may change. -/
inductive Legs (host : HostProviders χ) (speed : Float32) : Provider χ → Option ActivePath → List (Leg χ) → Prop
  | nil (provider : Provider χ) (path : Option ActivePath) : Legs host speed provider path []
  | cons {leg : Leg χ} {legs : List (Leg χ)} : leg.Made host speed →
      Legs host speed (leg.provider' host) leg.after.board.path legs →
      Legs host speed leg.provider leg.before.board.path (leg :: legs)

namespace Legs

variable {provider : Provider χ} {path : Option ActivePath} {legs : List (Leg χ)}

/-- The later ones of them. -/
theorem drop (h : Legs host speed provider path legs) (i : Nat) :
    ∃ provider' path', Legs host speed provider' path' (legs.drop i) := by
  induction h generalizing i with
  | nil provider path => exact ⟨provider, path, by simpa using .nil provider path⟩
  | cons hmade hrest ih =>
    cases i with
    | zero => exact ⟨_, _, .cons hmade hrest⟩
    | succ i => exact ih i

theorem made (h : Legs host speed provider path legs) : ∀ leg ∈ legs, leg.Made host speed := by
  induction h with
  | nil => simp
  | cons hmade _ ih => exact List.forall_mem_cons.mpr ⟨hmade, ih⟩

/-- A path that is active is walked on. -/
theorem head_path? {p : ActivePath} (h : Legs host speed provider path legs) (hpath : path = some p) :
    ∀ leg ∈ legs.head?, leg.path? host = some p := by
  cases h with
  | nil => simp
  | cons =>
    rintro _ ⟨⟩
    exact Leg.path?_of_some hpath

/-- **`Move.Legs.visits`** — up to the first success all cells that are left of the path are visited, and the
last one of them with the success. -/
theorem visits {j : Nat} {p : ActivePath} (h : Legs host speed provider path legs)
    (hpath : ∀ leg ∈ legs.head?, leg.path? host = some p) (hsuccess : legs[j]?.map Leg.status = some .success)
    (hfirst : ∀ l < j, legs[l]?.map Leg.status ≠ some .success) :
    ∃ times, Visits legs times p.left ∧ times.getLast? = some j := by
  -- what is left is the invariant: each tick keeps it or takes its first cell away
  induction h generalizing j p with
  | nil => simp at hsuccess
  | @cons leg legs hmade hrest ih =>
    have hleg : leg.path? host = some p := hpath leg rfl
    -- as long as the path is not at its end, the success is yet to come
    have hlater {p' : ActivePath} (hrunning : leg.status = .running) (hafter : leg.after.board.path = some p') :
        ∃ times, Visits legs times p'.left ∧ (times.map (1 + ·)).getLast? = some j := by
      cases j with
      | zero => simp [hrunning] at hsuccess
      | succ j =>
        obtain ⟨times, hvisits, hlast⟩ := ih (hrest.head_path? hafter) (by simpa using hsuccess)
          fun l hl => by simpa using hfirst (l + 1) (by omega)
        refine ⟨times, hvisits, ?_⟩
        rw [List.getLast?_map, hlast, Option.map_some, Nat.add_comm]
    cases hmade with
    | pathless hnone => cases hnone.symm.trans hleg
    | away hsome _ hrunning hafter =>
      obtain rfl := Option.some.inj (hsome.symm.trans hleg)
      obtain ⟨times, hvisits, hlast⟩ := hlater hrunning hafter
      exact ⟨_, Visits.shift (i := 1) hvisits, hlast⟩
    | onward hsome hthere hleft hrunning hafter =>
      obtain rfl := Option.some.inj (hsome.symm.trans hleg)
      obtain ⟨times, hvisits, hlast⟩ := hlater hrunning hafter
      refine ⟨_, by rw [hleft, ← hthere]; exact hvisits.cons, ?_⟩
      rw [List.getLast?_cons, hlast, Option.getD_some]
    | ended hsome hthere hleft hended =>
      obtain rfl := Option.some.inj (hsome.symm.trans hleg)
      obtain rfl : j = 0 := by
        by_contra hj
        exact hfirst 0 (by omega) (by simp [hended])
      exact ⟨[0], by rw [hleft, ← hthere]; exact ⟨List.pairwise_singleton _ _, rfl⟩, rfl⟩

/-- The first success after a path was installed ends the path. -/
theorem installed_visits {i j : Nat} {first : Leg χ} {cells : List Cell}
    (h : Legs host speed provider path legs) (hi : legs[i]? = some first) (hinstalls : first.Installs host cells)
    (hij : i ≤ j) (hsuccess : legs[j]?.map Leg.status = some .success)
    (hfirst : ∀ l, i ≤ l → l < j → legs[l]?.map Leg.status ≠ some .success) :
    ∃ times, Visits legs times cells ∧ (∀ t ∈ times, i ≤ t) ∧ times.getLast? = some j := by
  obtain ⟨p, hp, rfl⟩ := hinstalls.path?
  obtain ⟨_, _, hdrop⟩ := h.drop i
  obtain ⟨times, hvisits, hlast⟩ := hdrop.visits (j := j - i) (p := p)
    (by simpa [List.head?_drop, hi] using hp)
    (by rwa [List.getElem?_drop, Nat.add_sub_cancel' hij])
    fun l hl => by
      rw [List.getElem?_drop]
      exact hfirst (i + l) (by omega) (by omega)
  refine ⟨times.map (i + ·), hvisits.shift, ?_, ?_⟩
  · intro t ht
    obtain ⟨t, -, rfl⟩ := List.mem_map.mp ht
    omega
  · rw [List.getLast?_map, hlast, Option.map_some, Nat.add_sub_cancel' hij]

end Legs

end Move

/-! ## § On patrol -/

namespace Provider

/-- **`Provider.post`** — the waypoint of that number, counted around. -/
def post (waypoints : List Cell) (h : waypoints ≠ []) (k : Nat) : Cell :=
  waypoints.get ⟨k % waypoints.length, Nat.mod_lt k (List.length_pos_iff.mpr h)⟩

variable {host : HostProviders χ} {waypoints : List Cell}

theorem getElem?_post (h : waypoints ≠ []) (k : Nat) :
    waypoints[k % waypoints.length]? = some (post waypoints h k) :=
  List.getElem?_eq_getElem _

/-- **`Provider.next_patrol`** — a patrol with `k` waypoints behind it answers with the waypoint of this number, and the
number goes on by one. -/
theorem next_patrol (h : waypoints ≠ []) (k : Nat) (s : Situation) :
    (patrol waypoints (k % waypoints.length) : Provider χ).next host s =
      (some [post waypoints h k], .patrol waypoints ((k + 1) % waypoints.length), s) := by
  rw [next, getElem?_post h]
  dsimp only
  rw [Nat.mod_add_mod]

end Provider

/-- How many of the ticks were successes. -/
def successes (legs : List (Leg χ)) : Nat :=
  legs.countP (·.status = .success)

/-- **`Patrolling`** — on patrol, with this many waypoints behind: the next one is due, or the agent is on its
way there. -/
inductive Patrolling (waypoints : List Cell) (k : Nat) : Provider χ → Option ActivePath → Prop
  | due : Patrolling waypoints k (.patrol waypoints (k % waypoints.length)) none
  | walking {w : Cell} {path : ActivePath} : waypoints[k % waypoints.length]? = some w → path.left = [w] →
      Patrolling waypoints k (.patrol waypoints ((k + 1) % waypoints.length)) (some path)

namespace Patrolling

variable {host : HostProviders χ} {speed : Float32} {waypoints : List Cell} {k : Nat} {leg : Leg χ}

/-- Either way, the path is to the waypoint, and the provider is one waypoint ahead after the tick. -/
theorem heading (hne : waypoints ≠ []) (h : Patrolling waypoints k leg.provider leg.before.board.path) :
    ∃ w path, waypoints[k % waypoints.length]? = some w ∧ leg.path? host = some path ∧ path.left = [w] ∧
      leg.asked host = leg.before ∧
      leg.provider' host = .patrol waypoints ((k + 1) % waypoints.length) := by
  generalize hprovider : leg.provider = provider, hpath : leg.before.board.path = path at h
  cases h with
  | @walking w path hwaypoint hleft =>
    refine ⟨w, path, hwaypoint, Leg.path?_of_some hpath, hleft, ?_, ?_⟩
    · simp [Leg.asked, hpath]
    · simp [Leg.provider', hpath, hprovider]
  | due =>
    have hnext : leg.provider.next host leg.before = (some [Provider.post waypoints hne k],
        .patrol waypoints ((k + 1) % waypoints.length), leg.before) := by
      rw [hprovider, Provider.next_patrol hne]
    have hinstalls : leg.Installs host [Provider.post waypoints hne k] :=
      ⟨hpath, congrArg Prod.fst hnext, List.cons_ne_nil _ _⟩
    obtain ⟨path, hstart, hleft⟩ := hinstalls.path?
    refine ⟨_, path, Provider.getElem?_post hne k, hstart, hleft, ?_, ?_⟩
    · simp [Leg.asked, hpath, hnext]
    · simp [Leg.provider', hpath, hnext]

end Patrolling

variable {host : HostProviders χ} {speed : Float32} {waypoints : List Cell} {k : Nat}

/-- A tick on patrol either succeeds, on the waypoint, or goes on, to the waypoint. -/
theorem Leg.Made.patrols {leg : Leg χ} (hmade : leg.Made host speed) (hne : waypoints ≠ [])
    (h : Patrolling waypoints k leg.provider leg.before.board.path) :
    ∃ w, waypoints[k % waypoints.length]? = some w ∧
      (leg.status = .success ∧ leg.cell = w ∧
          Patrolling waypoints (k + 1) (leg.provider' host) leg.after.board.path ∨
        leg.status = .running ∧ leg.after.body = leg.before.body.request w speed ∧
          Patrolling waypoints k (leg.provider' host) leg.after.board.path) := by
  obtain ⟨w, path, hwaypoint, hpath, hleft, hasked, hprovider⟩ := h.heading hne
  obtain ⟨hw, -⟩ : path.next = w ∧ path.cells.drop (path.cursor + 1) = [] := by
    rw [ActivePath.left_eq_cons] at hleft
    exact List.cons.inj hleft
  refine ⟨w, hwaypoint, ?_⟩
  rw [hprovider]
  cases hmade with
  | pathless hnone => cases hnone.symm.trans hpath
  | away hsome _ hrunning hafter hbody =>
    obtain rfl := Option.some.inj (hsome.symm.trans hpath)
    rw [hasked, hw] at hbody
    exact Or.inr ⟨hrunning, hbody, hafter ▸ .walking hwaypoint hleft⟩
  | @onward _ path' hsome _ hmore =>
    obtain rfl := Option.some.inj (hsome.symm.trans hpath)
    rw [hleft, ActivePath.left_eq_cons path'] at hmore
    cases hmore
  | ended hsome hthere _ hended hafter =>
    obtain rfl := Option.some.inj (hsome.symm.trans hpath)
    exact Or.inl ⟨hended, hthere.trans hw, hafter ▸ .due⟩

/-- **`Move.Legs.patrols`** — the waypoints are gone to in turn. -/
theorem Move.Legs.patrols {provider : Provider χ} {path : Option ActivePath} {legs : List (Leg χ)}
    (h : Legs host speed provider path legs) (hne : waypoints ≠ []) (hpatrol : Patrolling waypoints k provider path)
    {j : Nat} {leg : Leg χ} (hj : legs[j]? = some leg) :
    ∃ w, waypoints[(k + successes (legs.take j)) % waypoints.length]? = some w ∧
      (leg.status = .success ∧ leg.cell = w ∨
        leg.status = .running ∧ leg.after.body = leg.before.body.request w speed) := by
  -- the number of successes moves on with the provider, not with the ticks
  induction h generalizing k j with
  | nil => simp at hj
  | @cons head legs hmade hrest ih =>
    obtain ⟨w, hwaypoint, hstep⟩ := hmade.patrols hne hpatrol
    cases j with
    | zero =>
      obtain rfl : head = leg := by simpa using hj
      refine ⟨w, hwaypoint, ?_⟩
      exact hstep.imp (fun hdone => ⟨hdone.1, hdone.2.1⟩) fun hgoing => ⟨hgoing.1, hgoing.2.1⟩
    | succ j =>
      rcases hstep with ⟨hstatus, -, hpatrol'⟩ | ⟨hstatus, -, hpatrol'⟩
      · have hcount : k + successes ((head :: legs).take (j + 1)) = k + 1 + successes (legs.take j) := by
          simp [successes, hstatus]
          omega
        rw [hcount]
        exact ih hpatrol' hj
      · have hcount : successes ((head :: legs).take (j + 1)) = successes (legs.take j) := by
          simp [successes, hstatus]
        rw [hcount]
        exact ih hpatrol' hj

/-! ## § Ticks and aborts -/

namespace Move

/-- **`Move.Outing`** — a node is ticked and aborted, time and again. In between, everything may become of the
situation, but nobody else writes the active path. -/
inductive Outing (host : HostProviders χ) : ActionNode (Action χ) → Option ActivePath → List (Leg χ) → Prop
  | rest (n : ActionNode (Action χ)) (path : Option ActivePath) : Outing host n path []
  | tick {n n' : ActionNode (Action χ)} {provider : Provider χ} {dt : Float32} {s s' : Situation}
      {status : Status} {legs : List (Leg χ)} :
      n.leaf.provider? = some provider →
      n.tick (Leaves.builtIn host : Leaves (Action χ) Condition Situation Fault) dt s = (.ok status, n', s') →
      Outing host n' s'.board.path legs →
      Outing host n s.board.path (⟨provider, s, status, s'⟩ :: legs)
  | abort {n n' : ActionNode (Action χ)} {s s' : Situation} {legs : List (Leg χ)} :
      n.abort (Leaves.builtIn host : Leaves (Action χ) Condition Situation Fault) s = (n', s') →
      Outing host n' s'.board.path legs →
      Outing host n s.board.path legs

variable {provider : Provider χ} {n : ActionNode (Action χ)}

/-- To tick a node with a move along paths is to follow them; it always returns. -/
theorem tick_node {provider' : Provider χ} {status : Status} {s s' : Situation}
    (hleaf : n.leaf = .move ⟨.paths provider, speed⟩)
    (hfollow : follow host speed provider s = (status, provider', s')) (dt : Float32) :
    n.tick (Leaves.builtIn host : Leaves (Action χ) Condition Situation Fault) dt s =
      (.ok status, { n with entered := status = .running, leaf := .move ⟨.paths provider', speed⟩ }, s') := by
  rcases n with ⟨name, entered, leaf⟩
  obtain rfl : leaf = .move ⟨.paths provider, speed⟩ := hleaf
  cases entered <;> cases status <;>
    simp [ActionNode.tick, Leaves.builtIn, Action.enter, Action.tick, Action.exit, Move.tick, hfollow]

/-- To abort it changes neither the move nor the situation. -/
theorem abort_node (hleaf : n.leaf = .move ⟨.paths provider, speed⟩) (s : Situation) :
    n.abort (Leaves.builtIn host : Leaves (Action χ) Condition Situation Fault) s =
      ({ n with entered := false }, s) := by
  rcases n with ⟨name, entered, leaf⟩
  obtain rfl : leaf = .move ⟨.paths provider, speed⟩ := hleaf
  cases entered <;> rfl

/-- **`Move.Outing.legs`** — the ticks follow the paths, one after the other. -/
theorem Outing.legs (hhost : ∀ own s, Situation.Kept (fun s => (s.board.path, s.body.cell)) s (host own s).2.2)
    {path : Option ActivePath} {legs : List (Leg χ)} (h : Outing host n path legs)
    (hleaf : n.leaf = .move ⟨.paths provider, speed⟩) : Legs host speed provider path legs := by
  induction h generalizing provider with
  | rest n path => exact .nil provider path
  | @tick n n' found dt s s' status legs hfound htick _ ih =>
    obtain rfl : provider = found := by simpa [hleaf, Action.provider?] using hfound
    rcases hfollow : follow host speed provider s with ⟨status, provider', s'⟩
    rw [tick_node hleaf hfollow] at htick
    cases htick
    obtain ⟨hmade, hprovider⟩ := follow_made hhost hfollow
    exact .cons hmade (ih (by rw [← hprovider]))
  | abort habort _ ih =>
    rw [abort_node hleaf] at habort
    obtain ⟨rfl, rfl⟩ := Prod.mk.inj habort
    exact ih hleaf

/-- **`Move.paths_walked`** — paths are walked cell by cell, and a patrol skips nothing. A node with a move along
paths is ticked and aborted, and the agent may be anywhere at each tick.

When a path is installed and a later tick is the first one to succeed from then on, distinct ticks have found the
agent on all cells of the path in turn, the last of them being the one that succeeds; the path is gone then. Every
tick that goes on asks for one move, to the cell of the path that is the next one after the tick. On patrol, with
`k` successes so far, a tick succeeds on the waypoint number `k` (counted around) or asks for a move to it. -/
theorem paths_walked (hhost : ∀ own s, Situation.Kept (fun s => (s.board.path, s.body.cell)) s (host own s).2.2)
    (hleaf : n.leaf = .move ⟨.paths provider, speed⟩) {path : Option ActivePath} {legs : List (Leg χ)}
    (h : Outing host n path legs) :
    (∀ {i j : Nat} {first last : Leg χ} {cells : List Cell}, legs[i]? = some first → first.Installs host cells →
      i ≤ j → legs[j]? = some last → last.status = .success →
      (∀ l, i ≤ l → l < j → legs[l]?.map Leg.status ≠ some .success) →
        last.after.board.path = none ∧
        ∃ times, Visits legs times cells ∧ (∀ t ∈ times, i ≤ t) ∧ times.getLast? = some j) ∧
    (∀ leg ∈ legs, leg.status = .running → ∃ path, leg.after.board.path = some path ∧
      leg.after.body = (leg.asked host).body.request path.next speed) ∧
    ∀ {waypoints : List Cell}, waypoints ≠ [] → provider = .patrolling waypoints → path = none →
      ∀ {j : Nat} {leg : Leg χ}, legs[j]? = some leg →
        ∃ w, waypoints[successes (legs.take j) % waypoints.length]? = some w ∧
          (leg.status = .success ∧ leg.cell = w ∨
            leg.status = .running ∧ leg.after.body = leg.before.body.request w speed) := by
  have hlegs : Legs host speed provider path legs := h.legs hhost hleaf
  refine ⟨?walked, ?requested, ?patrolled⟩
  case walked =>
    intro i j first last cells hi hinstalls hij hj hsuccess hfirst
    refine ⟨?_, hlegs.installed_visits hi hinstalls hij (by rw [hj, Option.map_some, hsuccess]) hfirst⟩
    rcases (hlegs.made last (List.mem_of_getElem? hj)).requests with ⟨hrunning, -⟩ | ⟨-, hcleared, -⟩
    · cases hsuccess.symm.trans hrunning
    · exact hcleared
  case requested =>
    intro leg hleg hrunning
    rcases (hlegs.made leg hleg).requests with ⟨-, hrequest⟩ | ⟨hended, -⟩
    · exact hrequest
    · exact absurd hrunning hended
  case patrolled =>
    rintro waypoints hne rfl rfl j leg hj
    have hpatrol : Patrolling waypoints 0 (.patrolling waypoints : Provider χ) none := by
      rw [Provider.patrolling, ← Nat.zero_mod waypoints.length]
      exact .due
    simpa using hlegs.patrols hne hpatrol hj

/-- The ticks of a move along paths in a course of calls: a tick with the agent on a cell, or an abort. -/
def course (host : HostProviders χ) (speed : Float32) : Provider χ → Situation → List (Option Cell) → List (Leg χ)
  | _, _, [] => []
  | provider, s, none :: calls => course host speed provider s calls
  | provider, s, some cell :: calls =>
    let s := { s with body := { s.body with cell } }
    let (status, provider', s') := follow host speed provider s
    ⟨provider, s, status, s'⟩ :: course host speed provider' s' calls

/-- Every course of calls is an outing. -/
theorem outing_course (host : HostProviders χ) (hleaf : n.leaf = .move ⟨.paths provider, speed⟩) (s : Situation)
    (calls : List (Option Cell)) : Outing host n s.board.path (course host speed provider s calls) := by
  induction calls generalizing n provider s with
  | nil => exact .rest n _
  | cons call calls ih =>
    cases call with
    | none => exact .abort (abort_node hleaf s) (ih (n := { n with entered := false }) hleaf s)
    | some cell =>
      exact .tick (s := { s with body := { s.body with cell } }) (by rw [hleaf]; rfl)
        (tick_node hleaf rfl 0) (ih rfl _)

/-- Providers that have their paths ready. -/
def ready : HostProviders (List (List Cell)) :=
  fun paths s => (paths.head?, paths.tail, s)

/-- A path that begins under the agent and has this cell twice in a row. -/
def errand : List (Leg (List (List Cell))) :=
  course ready 1 (.host [[⟨0, 0⟩, ⟨0, 0⟩, ⟨1, 0⟩]]) default
    [some ⟨0, 0⟩, some ⟨0, 0⟩, none, some ⟨7, 7⟩, some ⟨1, 0⟩]

/-- A patrol between two cells. -/
def beat : List (Leg (List (List Cell))) :=
  course ready 1 (.patrolling [⟨0, 0⟩, ⟨1, 0⟩]) default [some ⟨0, 0⟩, some ⟨1, 0⟩, none, some ⟨1, 0⟩]

/-- On the errand three ticks have found the agent on the three cells, and on the patrol it is sent back to the
first cell in the end. -/
theorem errand_walked :
    errand.map Leg.status = [.running, .running, .running, .success] ∧
      (∃ times, Visits errand times [⟨0, 0⟩, ⟨0, 0⟩, ⟨1, 0⟩] ∧ (∀ t ∈ times, 0 ≤ t) ∧ times.getLast? = some 3) ∧
      beat.map Leg.status = [.success, .success, .running] ∧
      ∃ leg, beat[2]? = some leg ∧ leg.after.body = leg.before.body.request ⟨0, 0⟩ 1 := by
  have hready : ∀ own s, Situation.Kept (fun s => (s.board.path, s.body.cell)) s (ready own s).2.2 :=
    fun _ _ => rfl
  have herrand : errand.map Leg.status = [.running, .running, .running, .success] := rfl
  have hbeat : beat.map Leg.status = [.success, .success, .running] := rfl
  refine ⟨herrand, ?_, hbeat, ?_⟩
  · have houting := outing_course ready (n := ⟨"errand", false,
        .move ⟨.paths (.host [[⟨0, 0⟩, ⟨0, 0⟩, ⟨1, 0⟩]]), 1⟩⟩) rfl default
      [some ⟨0, 0⟩, some ⟨0, 0⟩, none, some ⟨7, 7⟩, some ⟨1, 0⟩]
    refine ((paths_walked hready rfl houting).1 (i := 0) (j := 3) rfl ⟨rfl, rfl, by decide⟩ (by decide) rfl rfl ?_).2
    intro l _ hl
    match l, hl with
    | 0, _ | 1, _ | 2, _ => exact nofun
  · have houting := outing_course ready (n := ⟨"beat", false, .move ⟨.paths (.patrolling [⟨0, 0⟩, ⟨1, 0⟩]), 1⟩⟩) rfl
      default [some ⟨0, 0⟩, some ⟨1, 0⟩, none, some ⟨1, 0⟩]
    obtain ⟨w, hw, hleg⟩ := (paths_walked hready rfl houting).2.2 (by decide) rfl rfl (j := 2) rfl
    obtain rfl : ⟨0, 0⟩ = w := Option.some.inj hw
    exact ⟨_, rfl, hleg.resolve_left (fun h => nomatch h.1) |>.2⟩

end Move

end BehaviorTree
