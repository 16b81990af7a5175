/-
# BehaviorTree.Proofs.FieldNames — what a record takes from an object

A record that is written as an object takes for each of its fields the values that stand under the names of this field,
and nothing else. None of them is as good as the default where there is one, one is read, and two are refused
(`Field.gather`). Where no name belongs to two fields, this is all there is to say of an object: `Json.gathers_readMembers`
says it of the members read in their order, and the invariant is that what is held of a field by then is what its own
values have come to.

So the other members may say what they want and stand where they want, a field may be written under any of its names, and
the order of the members does not matter to what is built; of several faults, though, it decides which one is reported.
`Factory.Tolerant` is this for the factory of a leaf. All leaves that come with the library are made by such factories
(`Registries.builtIn_tolerant`).
-/
import BehaviorTree.Registry
import Mathlib.Data.List.Nodup
import Mathlib.Data.List.Pairwise
import Mathlib.Data.List.Perm.Subperm

namespace BehaviorTree

namespace Json

variable {ρ : Type} {field other : Field ρ} {fields : List (Field ρ)} {key : String} {value : Json}
  {given : List Json} {members : List (String × Json)} {readings : Readings ρ}

/-! ## § Names -/

/-- The names under which a field may be written, the one that error messages use first. -/
def Field.names (field : Field ρ) : List String :=
  field.name :: field.aliases

theorem Field.isNamed_iff : field.isNamed key = true ↔ key ∈ field.names := by
  simp [isNamed, names]

theorem Field.name_mem_names (field : Field ρ) : field.name ∈ field.names :=
  List.mem_cons_self

/-- The names of each field. -/
def fieldNames (fields : List (Field ρ)) : List (List String) :=
  fields.map Field.names

/-- **`Json.Unambiguous`** — no name is given twice. -/
def Unambiguous (fields : List (Field ρ)) : Prop :=
  (fieldNames fields).flatten.Nodup

instance (fields : List (Field ρ)) : Decidable (Unambiguous fields) :=
  inferInstanceAs (Decidable (fieldNames fields).flatten.Nodup)

/-- A name says which field is meant. -/
theorem Unambiguous.eq (h : Unambiguous fields) (hfield : field ∈ fields) (hother : other ∈ fields)
    (hkey : key ∈ field.names) (hkey' : key ∈ other.names) : field = other := by
  have hpairs : fields.Pairwise fun f g => f.names.Disjoint g.names :=
    List.pairwise_map.mp (List.nodup_flatten.mp h).2
  have : Std.Symm fun f g : Field ρ => f.names.Disjoint g.names := ⟨fun _ _ h _ hkey hkey' => h hkey' hkey⟩
  by_contra hne
  exact hpairs.forall hfield hother hne hkey hkey'

/-! ## § Values -/

/-- **`Field.values`** — the values that an object has for a field, under whatever names of it. -/
def Field.values (field : Field ρ) (members : List (String × Json)) : List Json :=
  (members.filter fun member => field.isNamed member.1).map Prod.snd

theorem Field.values_cons_named (h : key ∈ field.names) :
    field.values ((key, value) :: members) = value :: field.values members := by
  simp [values, isNamed_iff.mpr h]

theorem Field.values_cons_other (h : key ∉ field.names) :
    field.values ((key, value) :: members) = field.values members := by
  simp [values, mt isNamed_iff.mp h]

/-- **`Field.gather`** — what is held of a field after these values of it, if there was something held before: the first
value is read, and there must not be a second one. -/
def Field.gather (field : Field ρ) : Option (ρ → ρ) → List Json → Option (Option (ρ → ρ))
  | held, [] => some held
  | none, value :: rest => (field.read value).toOption.bind fun reading => field.gather (some reading) rest
  | some _, _ :: _ => none

theorem Field.gather_two (field : Field ρ) (first second : Json) (rest : List Json) :
    field.gather none (first :: second :: rest) = none := by
  simp only [gather]
  cases (field.read first).toOption <;> rfl

/-- In which order the values of a field come in does not matter: if it does, there are too many. -/
theorem Field.gather_perm {given' : List Json} (h : given.Perm given') :
    field.gather none given = field.gather none given' := by
  rcases given with _ | ⟨first, _ | ⟨second, rest⟩⟩
  · rw [List.nil_perm.mp h]
  · rw [List.singleton_perm.mp h]
  · have hlength := h.length_eq
    rcases given' with _ | ⟨first', _ | ⟨second', rest'⟩⟩
    · cases hlength
    · cases hlength
    · rw [gather_two, gather_two]

/-! ## § Members in their order -/

/-- **`Json.Gathers`** — a reading of an object, by what comes together for each field: all of them are held in the end,
or one of them is refused. -/
inductive Gathers (fields : List (Field ρ)) (gathered : Field ρ → Option (Option (ρ → ρ))) :
    Except DecodeError (Readings ρ) → Prop
  | read {readings : Readings ρ} : (∀ field ∈ fields, gathered field = some (readings.lookup field.name)) →
      Gathers fields gathered (.ok readings)
  | refused {field : Field ρ} {cause : DecodeError} : field ∈ fields → gathered field = none →
      Gathers fields gathered (.error cause)

theorem Gathers.congr {gathered gathered' : Field ρ → Option (Option (ρ → ρ))}
    {result : Except DecodeError (Readings ρ)} (h : Gathers fields gathered result)
    (hsame : ∀ field ∈ fields, gathered' field = gathered field) : Gathers fields gathered' result := by
  cases h with
  | read hall => exact .read fun field hfield => (hsame field hfield).trans (hall field hfield)
  | refused hfield hnone => exact .refused hfield ((hsame _ hfield).trans hnone)

/-- A member is passed over when nobody asks for it. -/
theorem readMembers_of_other (h : ∀ field ∈ fields, key ∉ field.names) (value : Json) (readings : Readings ρ)
    (rest : List (String × Json)) :
    readMembers fields readings ((key, value) :: rest) = readMembers fields readings rest := by
  have hfind : fields.find? (·.isNamed key) = none :=
    List.find?_eq_none.mpr fun field hfield hnamed => h field hfield (Field.isNamed_iff.mp hnamed)
  simp only [readMembers, hfind]

/-- A member under a name of a field is the field's value, unless there is one already. -/
theorem readMembers_of_named (h : Unambiguous fields) (hfield : field ∈ fields) (hkey : key ∈ field.names)
    (value : Json) (readings : Readings ρ) (rest : List (String × Json)) :
    readMembers fields readings ((key, value) :: rest) =
      if (readings.lookup field.name).isSome then .error (.duplicateField field.name)
      else field.read value >>= fun reading => readMembers fields ((field.name, reading) :: readings) rest := by
  have hfind : fields.find? (·.isNamed key) = some field := by
    have hsome : (fields.find? (·.isNamed key)).isSome := by
      rw [List.find?_isSome]
      exact ⟨field, hfield, Field.isNamed_iff.mpr hkey⟩
    obtain ⟨found, hfound⟩ := Option.isSome_iff_exists.mp hsome
    have hnamed : key ∈ found.names := Field.isNamed_iff.mp (by simpa using List.find?_some hfound)
    rw [hfound, h.eq (List.mem_of_find?_eq_some hfound) hfield hnamed hkey]
  simp only [readMembers, hfind]

/-- A value that is read goes over from the values that are to come to what is held, and nothing else does. -/
theorem gather_held {reading : ρ → ρ} (h : Unambiguous fields) (hfield : field ∈ fields) (hkey : key ∈ field.names)
    (hheld : readings.lookup field.name = none) (hread : field.read value = .ok reading) (hother : other ∈ fields) :
    other.gather (readings.lookup other.name) (other.values ((key, value) :: members)) =
      other.gather (List.lookup other.name ((field.name, reading) :: readings)) (other.values members) := by
  by_cases hsame : key ∈ other.names
  · obtain rfl := h.eq hfield hother hkey hsame
    rw [hheld, Field.values_cons_named hkey, List.lookup_cons_self]
    simp only [Field.gather, hread, Except.toOption, Option.bind_some]
  · have hname : other.name ≠ field.name := by
      intro heq
      have hmeant := h.eq hfield hother field.name_mem_names (heq ▸ other.name_mem_names)
      exact hsame (hmeant ▸ hkey)
    rw [Field.values_cons_other hsame, List.lookup_cons, beq_eq_false_iff_ne.mpr hname]

/-- **`Json.gathers_readMembers`** — to read the members in their order gathers the values of each field. -/
theorem gathers_readMembers (h : Unambiguous fields) (members : List (String × Json)) (readings : Readings ρ) :
    Gathers fields (fun field => field.gather (readings.lookup field.name) (field.values members))
      (readMembers fields readings members) := by
  induction members generalizing readings with
  | nil => exact .read fun field _ => rfl
  | cons member rest ih =>
    obtain ⟨key, value⟩ := member
    by_cases howner : ∃ field ∈ fields, key ∈ field.names
    · obtain ⟨field, hfield, hkey⟩ := howner
      rw [readMembers_of_named h hfield hkey]
      rcases hheld : readings.lookup field.name with _ | held
      · rcases hread : field.read value with cause | reading
        · refine .refused hfield ?_
          simp only [hheld, Field.values_cons_named hkey, Field.gather, hread, Except.toOption, Option.bind_none]
        · exact (ih _).congr fun other hother => gather_held h hfield hkey hheld hread hother
      · refine .refused hfield ?_
        simp only [hheld, Field.values_cons_named hkey, Field.gather]
    · have hnobody : ∀ field ∈ fields, key ∉ field.names := fun field hfield hkey => howner ⟨field, hfield, hkey⟩
      rw [readMembers_of_other hnobody]
      refine (ih readings).congr fun field hfield => ?_
      rw [Field.values_cons_other (hnobody field hfield)]

/-- The record depends only on what is held of its fields. -/
theorem applyReadings_congr {readings' : Readings ρ}
    (h : ∀ field ∈ fields, readings.lookup field.name = readings'.lookup field.name) (record : ρ) :
    applyReadings readings fields record = applyReadings readings' fields record := by
  induction fields generalizing record with
  | nil => rfl
  | cons field rest ih =>
    have hrest := ih fun other hother => h other (.tail _ hother)
    simp only [applyReadings, h field List.mem_cons_self]
    cases readings'.lookup field.name with
    | some reading => exact hrest _
    | none =>
      dsimp only
      rw [hrest]

/-! ## § Objects -/

namespace Shape

variable {shape : Shape ρ} {members' : List (String × Json)}

/-- Two objects with the same values for each field are read as the same record, if at all. -/
theorem ofMembers_congr (h : Unambiguous shape.fields)
    (hvalues : ∀ field ∈ shape.fields, (field.values members).Perm (field.values members')) (record : ρ) :
    shape.ofMembers members = .ok record ↔ shape.ofMembers members' = .ok record := by
  have hgather := gathers_readMembers h members []
  have hgather' : Gathers shape.fields (fun field => field.gather none (field.values members))
      (readMembers shape.fields [] members') :=
    (gathers_readMembers h members' []).congr fun field hfield => Field.gather_perm (hvalues field hfield)
  unfold ofMembers
  generalize readMembers shape.fields [] members = result at hgather
  generalize readMembers shape.fields [] members' = result' at hgather'
  cases hgather with
  | refused hfield hnone =>
    cases hgather' with
    | refused _ _ => exact ⟨nofun, nofun⟩
    | read hall => cases hnone.symm.trans (hall _ hfield)
  | read hall =>
    cases hgather' with
    | refused hfield hnone => cases hnone.symm.trans (hall _ hfield)
    | read hall' =>
      have hheld := fun field hfield => Option.some.inj ((hall field hfield).symm.trans (hall' field hfield))
      simp only [bind, Except.bind, applyReadings_congr hheld]

/-- An object with two values for a field is refused. -/
theorem ofMembers_two (h : Unambiguous shape.fields) (hfield : field ∈ shape.fields)
    (htwo : 2 ≤ (field.values members).length) : ∃ cause, shape.ofMembers members = .error cause := by
  have hgather := gathers_readMembers h members []
  unfold ofMembers
  generalize readMembers shape.fields [] members = result at hgather
  cases hgather with
  | @refused _ cause _ _ => exact ⟨cause, rfl⟩
  | read hall =>
    have hnone : field.gather none (field.values members) = none := by
      rcases hvalues : field.values members with _ | ⟨first, _ | ⟨second, rest⟩⟩
      · simp [hvalues] at htwo
      · simp [hvalues] at htwo
      · exact field.gather_two first second rest
    cases hnone.symm.trans (hall field hfield)

end Shape

/-! ## § More members, and other names -/

/-- **`Json.Adds`** — to an object members are added, at whatever places, under names that belong to none of the
fields. -/
inductive Adds (names : List (List String)) : List (String × Json) → List (String × Json) → Prop
  | nil : Adds names [] []
  | keep {members more : List (String × Json)} (member : String × Json) : Adds names members more →
      Adds names (member :: members) (member :: more)
  | add {members more : List (String × Json)} {key : String} (value : Json) : (∀ field ∈ names, key ∉ field) →
      Adds names members more → Adds names members ((key, value) :: more)

/-- Members that belong to no field are passed over, also when there is a fault. -/
theorem readMembers_adds {more : List (String × Json)} (h : Adds (fieldNames fields) members more)
    (readings : Readings ρ) : readMembers fields readings more = readMembers fields readings members := by
  induction h generalizing readings with
  | nil => rfl
  | keep member _ ih =>
    obtain ⟨key, value⟩ := member
    simp only [readMembers]
    split
    · exact ih readings
    · split
      · rfl
      · congr 1
        funext reading
        exact ih _
  | add value hkey _ ih =>
    rw [readMembers_of_other fun field hfield => hkey field.names (List.mem_map_of_mem hfield)]
    exact ih readings

/-- The members of an object, with one name in place of another. -/
def renamed (key key' : String) (members : List (String × Json)) : List (String × Json) :=
  members.map fun member => (if member.1 = key then key' else member.1, member.2)

/-- A field has the same values under another of its names. -/
theorem Field.values_renamed {key' : String} (h : key ∈ field.names ↔ key' ∈ field.names)
    (members : List (String × Json)) : field.values (renamed key key' members) = field.values members := by
  induction members with
  | nil => rfl
  | cons member rest ih =>
    obtain ⟨name, value⟩ := member
    have hcons : renamed key key' ((name, value) :: rest) =
        (if name = key then key' else name, value) :: renamed key key' rest := rfl
    have hname : (if name = key then key' else name) ∈ field.names ↔ name ∈ field.names := by
      split
      · next heq => rw [heq, h]
      · rfl
    rw [hcons]
    by_cases hmem : name ∈ field.names
    · rw [values_cons_named (hname.mpr hmem), values_cons_named hmem, ih]
    · rw [values_cons_other (mt hname.mp hmem), values_cons_other hmem, ih]

/-- Two members under different names of a field are two values of it. -/
theorem Field.two_le_length_values {key' : String} {value' : Json} (hkey : key ∈ field.names)
    (hkey' : key' ∈ field.names) (hne : key ≠ key') (hmem : (key, value) ∈ members)
    (hmem' : (key', value') ∈ members) : 2 ≤ (field.values members).length := by
  have hsub : [(key, value), (key', value')].Subperm (members.filter fun member => field.isNamed member.1) := by
    refine List.subperm_of_subset (by simp [hne]) ?_
    intro member hmember
    rw [List.mem_filter]
    rcases List.mem_pair.mp hmember with rfl | rfl
    · exact ⟨hmem, isNamed_iff.mpr hkey⟩
    · exact ⟨hmem', isNamed_iff.mpr hkey'⟩
  simpa [values] using hsub.length_le

end Json

/-! ## § Factories -/

open BehaviorTree.Json

/-- **`Factory.Tolerant`** — what a factory makes of an object is a matter of the members under these names, the names of
a field standing for one another.
* What is added under other names changes nothing, neither a leaf nor an error.
* With one name of a field written as another, and the members in whatever order, the same leaf is built, if any.
* Two names of one field in the same object are refused. -/
structure Factory.Tolerant {α : Type} (names : List (List String)) (make : Factory α) : Prop where
  adds {members more : List (String × Json)} : Adds names members more → make (.object more) = make (.object members)
  alike {field : List String} {key key' : String} {members members' : List (String × Json)} : field ∈ names →
    key ∈ field → key' ∈ field → members'.Perm (renamed key key' members) →
    ∀ leaf, make (.object members') = .ok leaf ↔ make (.object members) = .ok leaf
  both {field : List String} {key key' : String} {value value' : Json} {members : List (String × Json)} :
    field ∈ names → key ∈ field → key' ∈ field → key ≠ key' → (key, value) ∈ members → (key', value') ∈ members →
    ∃ error, make (.object members) = .error error

namespace Factory

variable {ρ α β : Type}

/-- What is made with the record of an object, is made of a record that can be read from it. -/
theorem build_eq_ok_iff {shape : Shape ρ} {make : ρ → α} {members : List (String × Json)} {leaf : α} :
    shape.build make (.object members) = .ok leaf ↔ ∃ record, shape.ofMembers members = .ok record ∧ make record = leaf := by
  simp only [Shape.build, Shape.decode]
  cases shape.ofMembers members with
  | error cause => exact ⟨nofun, nofun⟩
  | ok record => simp

/-- **`Factory.tolerant_build`** — a factory that reads a record is tolerant. -/
theorem tolerant_build (shape : Shape ρ) (h : Unambiguous shape.fields) (make : ρ → α) :
    Tolerant (fieldNames shape.fields) (shape.build make) where
  adds {members more} hadds := by
    have hsame : shape.ofMembers more = shape.ofMembers members := by
      rw [Shape.ofMembers, Shape.ofMembers, readMembers_adds hadds]
    simp only [Shape.build, Shape.decode, hsame]
  alike {names key key' members members'} hnames hkey hkey' hperm leaf := by
    have hvalues : ∀ field ∈ shape.fields, (field.values members').Perm (field.values members) := by
      intro field hfield
      obtain ⟨owner, howner, rfl⟩ := List.mem_map.mp hnames
      have hboth : key ∈ field.names ↔ key' ∈ field.names := by
        constructor
        · intro hmem
          exact h.eq howner hfield hkey hmem ▸ hkey'
        · intro hmem
          exact h.eq howner hfield hkey' hmem ▸ hkey
      rw [← Field.values_renamed hboth members]
      exact (hperm.filter _).map _
    simp only [build_eq_ok_iff, Shape.ofMembers_congr h hvalues]
  both {names key key' value value' members} hnames hkey hkey' hne hmem hmem' := by
    obtain ⟨owner, howner, rfl⟩ := List.mem_map.mp hnames
    obtain ⟨cause, hcause⟩ := Shape.ofMembers_two h howner (Field.two_le_length_values hkey hkey' hne hmem hmem')
    exact ⟨.decode cause, by simp only [Shape.build, Shape.decode, hcause]⟩

/-- Nor does it become less tolerant by what is made of the parameters afterwards. -/
theorem Tolerant.bind {names : List (List String)} {make : Factory α} (h : Tolerant names make)
    (next : α → Except ParamError β) : Tolerant names fun params => make params >>= next where
  adds hadds := by rw [h.adds hadds]
  alike {field key key' members members'} hfield hkey hkey' hperm leaf := by
    have hmade := h.alike hfield hkey hkey' hperm
    show make (.object members') >>= next = _ ↔ make (.object members) >>= next = _
    rcases hresult : make (.object members) with error | made
    · rcases hresult' : make (.object members') with error' | made'
      · exact ⟨nofun, nofun⟩
      · cases hresult.symm.trans ((hmade made').mp hresult')
    · rw [(hmade made).mpr hresult]
  both hfield hkey hkey' hne hmem hmem' := by
    obtain ⟨error, herror⟩ := h.both hfield hkey hkey' hne hmem hmem'
    exact ⟨error, by rw [herror]; rfl⟩

end Factory

/-! ## § The leaves of the library -/

/-- The names of the fields of a scan. -/
def scanFields : List (List String) :=
  [["duration"], ["rotate"], ["mode"], ["deg_per_sec", "degPerSec"], ["sweep_deg", "sweepDeg"],
    ["random_start", "randomStart"]]

/-- The actions of the library, and for each of them the names of its fields. -/
def actionFields : List (String × List (List String)) :=
  [("listen", [["duration"]]),
    ("look", [["target"], ["duration"], ["point"]]),
    ("move", [["speed"], ["toward"], ["mode"], ["waypoints"]]),
    ("scan", scanFields)]

/-- The conditions of the library, and for each of them the names of its fields. -/
def conditionFields : List (String × List (List String)) :=
  [("heardNoiseWithin", [["radius"], ["recentSeconds", "recent_seconds"]]),
    ("playerVisible", [["recentSeconds", "recent_seconds"]])]

namespace Registries

variable {χ : Type}

theorem tolerant_look : Factory.Tolerant (fieldNames LookSettings.shape.fields) (look (χ := χ)) := by
  have hsettings := Factory.tolerant_build LookSettings.shape (by decide) id
  exact hsettings.bind fun settings => settings.look >>= fun looking => pure (Action.look looking)

/-- **`Registries.builtIn_tolerant`** — the leaves of the library have the names and fields that are listed, and all
their factories are tolerant. -/
theorem builtIn_tolerant :
    (builtIn (χ := χ)).actions.names = actionFields.map Prod.fst ∧
    (builtIn (χ := χ)).conditions.names = conditionFields.map Prod.fst ∧
    (∀ entry ∈ actionFields, ∃ make, (builtIn (χ := χ)).actions.entries.lookup entry.1 = some make ∧
      Factory.Tolerant entry.2 make) ∧
    ∀ entry ∈ conditionFields, ∃ make, (builtIn (χ := χ)).conditions.entries.lookup entry.1 = some make ∧
      Factory.Tolerant entry.2 make := by
  refine ⟨rfl, rfl, ?actions, ?conditions⟩
  case actions =>
    intro entry hentry
    simp only [actionFields, List.mem_cons, List.not_mem_nil, or_false] at hentry
    rcases hentry with rfl | rfl | rfl | rfl
    · exact ⟨_, rfl, Factory.tolerant_build ListenSettings.shape (by decide) _⟩
    · exact ⟨_, rfl, tolerant_look⟩
    · exact ⟨_, rfl, Factory.tolerant_build MoveSettings.shape (by decide) _⟩
    · exact ⟨_, rfl, Factory.tolerant_build ScanSettings.shape (by decide) _⟩
  case conditions =>
    intro entry hentry
    simp only [conditionFields, List.mem_cons, List.not_mem_nil, or_false] at hentry
    rcases hentry with rfl | rfl
    · exact ⟨_, rfl, Factory.tolerant_build NoiseHeardSettings.shape (by decide) _⟩
    · exact ⟨_, rfl, Factory.tolerant_build PlayerVisibleSettings.shape (by decide) _⟩

/-- A scan at ninety degrees a second is the same scan with a colour, and under the other name of its rate, which comes
behind the other field then. With both names it is refused. -/
theorem scan_tolerant :
    let members : List (String × Json) := [("deg_per_sec", .number (.whole 90)), ("rotate", .bool true)]
    let more := ("colour", .text "red") :: members
    let swapped : List (String × Json) := [("rotate", .bool true), ("degPerSec", .number (.whole 90))]
    let scan : Action Empty := .scan (.ofSettings { rotate := true, degreesPerSecond := Float32.ofInt 90 })
    ∃ make, builtIn.actions.entries.lookup "scan" = some make ∧ make (.object members) = .ok scan ∧
      Adds scanFields members more ∧ make (.object more) = .ok scan ∧
      swapped.Perm (renamed "deg_per_sec" "degPerSec" members) ∧ make (.object swapped) = .ok scan ∧
      ∃ error, make (.object (("degPerSec", .null) :: members)) = .error error := by
  intro members more swapped scan
  obtain ⟨-, -, hactions, -⟩ := builtIn_tolerant (χ := Empty)
  obtain ⟨make, hmake, htolerant⟩ := hactions ("scan", scanFields) (by decide)
  have hmade : make (.object members) = .ok scan := by
    obtain rfl := Option.some.inj hmake
    rfl
  have hrate : ["deg_per_sec", "degPerSec"] ∈ scanFields := by decide
  have hadds : Adds scanFields members more := .add _ (by decide) (.keep _ (.keep _ .nil))
  have hswapped : swapped.Perm (renamed "deg_per_sec" "degPerSec" members) := List.Perm.swap ..
  have halike := htolerant.alike hrate (by decide) (by decide) hswapped scan
  have hboth : ∃ error, make (.object (("degPerSec", .null) :: members)) = .error error :=
    htolerant.both hrate (by decide) (by decide) (by decide) List.mem_cons_self (.tail _ List.mem_cons_self)
  exact ⟨make, hmake, hmade, hadds, (htolerant.adds hadds).trans hmade, hswapped, halike.mpr hmade, hboth⟩

end Registries

end BehaviorTree
