import Mathlib.Data.List.Induction
import ReversePolish.Operator.Registry

/-!
The indexed lookup of operators against the plain ordered table.

In the plain table a name means the last place under which it stands if the policy is `override`,
and the first otherwise (`Policy.Place`). The index has one slot for each hash, shared by all names
with this hash, so the slot may hold the place of another name. `Registry.Indexed` says what the
slots hold all the same: a slot that is free stands for names that the table does not have, and a
slot that is taken holds the place of some name with this hash. Every change keeps this, whatever
the hash is, and it is all that `Registry.find?` relies on.
-/

namespace ReversePolish

/-! ## Places in a list of names -/

/-- The first place of a name. -/
def FirstAt (names : List String) (name : String) (i : Nat) : Prop :=
  names[i]? = some name ∧ ∀ j, j < i → names[j]? ≠ some name

/-- The last place of a name. -/
def LastAt (names : List String) (name : String) (i : Nat) : Prop :=
  names[i]? = some name ∧ ∀ j, i < j → names[j]? ≠ some name

/-- The place that a name means under a policy. -/
def Policy.Place (policy : Policy) (names : List String) (name : String) (i : Nat) : Prop :=
  if policy = .override then LastAt names name i else FirstAt names name i

/-- What an answer to a lookup says: the place that a name means, or that it stands nowhere. -/
def Policy.Answers (policy : Policy) (names : List String) (name : String) : Option Nat → Prop
  | some i => policy.Place names name i
  | none => name ∉ names

namespace Policy

variable {policy : Policy} {names : List String} {name other : String} {i j : Nat}

theorem Place.getElem? (place : policy.Place names name i) : names[i]? = some name := by
  unfold Place at place
  split at place
  · exact place.1
  · exact place.1

theorem Place.lt_length (place : policy.Place names name i) : i < names.length :=
  (List.getElem?_eq_some_iff.mp place.getElem?).choose

theorem Place.mem (place : policy.Place names name i) : name ∈ names :=
  List.mem_of_getElem? place.getElem?

/-- A name means one place at most. -/
theorem Place.unique (left : policy.Place names name i) (right : policy.Place names name j) :
    i = j := by
  have atI := left.getElem?
  have atJ := right.getElem?
  unfold Place at left right
  rcases Nat.lt_trichotomy i j with before | same | behind
  · split at left
    · exact absurd atJ (left.2 j before)
    · rw [if_neg ‹_›] at right
      exact absurd atI (right.2 i before)
  · exact same
  · split at left
    · rw [if_pos ‹_›] at right
      exact absurd atI (right.2 i behind)
    · exact absurd atJ (left.2 j behind)

/-- Two answers to one lookup are the same. -/
theorem Answers.unique {a b : Option Nat} (left : policy.Answers names name a)
    (right : policy.Answers names name b) : a = b := by
  cases a with
  | none =>
      cases b with
      | none => rfl
      | some j => exact absurd right.mem left
  | some i =>
      cases b with
      | none => exact absurd left.mem right
      | some j => rw [Place.unique left right]

/-! ## A name is appended -/

/-- Unless the policy is `override`, no name that is appended moves a place. -/
theorem Place.append (place : policy.Place names name i) (ne : policy ≠ .override) :
    policy.Place (names ++ [other]) name i := by
  have bound := place.lt_length
  unfold Place at place ⊢
  rw [if_neg ne] at place ⊢
  refine ⟨(List.getElem?_append_left bound).trans place.1, fun j before => ?_⟩
  rw [List.getElem?_append_left (Nat.lt_trans before bound)]
  exact place.2 j before

/-- Another name never moves a place. -/
theorem Place.append_ne (place : policy.Place names name i) (ne : other ≠ name) :
    policy.Place (names ++ [other]) name i := by
  by_cases last : policy = .override
  · have bound := place.lt_length
    unfold Place at place ⊢
    rw [if_pos last] at place ⊢
    refine ⟨(List.getElem?_append_left bound).trans place.1, fun j behind => ?_⟩
    rcases Nat.lt_trichotomy j names.length with inside | last | outside
    · rw [List.getElem?_append_left inside]
      exact place.2 j behind
    · subst last
      rw [List.getElem?_concat_length]
      exact fun same => ne (Option.some.inj same)
    · rw [List.getElem?_eq_none (by rw [List.length_append, List.length_singleton]; omega)]
      exact (Option.some_ne_none name).symm
  · exact place.append last

/-- The end of the list is the place of a name that is appended, if the name is new or the policy is
`override`. -/
theorem place_append_last (new : policy = .override ∨ name ∉ names) :
    policy.Place (names ++ [name]) name names.length := by
  unfold Place
  split
  · refine ⟨List.getElem?_concat_length, fun j behind => ?_⟩
    rw [List.getElem?_eq_none (by rw [List.length_append, List.length_singleton]; omega)]
    exact (Option.some_ne_none name).symm
  · refine ⟨List.getElem?_concat_length, fun j before => ?_⟩
    rw [List.getElem?_append_left before]
    exact fun found => new.elim ‹_› (fun absent => absent (List.mem_of_getElem? found))

end Policy

namespace Registry

variable {hash : String → UInt64}

/-! ## The scan -/

theorem findIdx?_firstAt {names : List String} {name : String} {i : Nat}
    (found : names.findIdx? (· = name) = some i) : FirstAt names name i := by
  obtain ⟨bound, here, before⟩ := List.findIdx?_eq_some_iff_getElem.mp found
  refine ⟨?_, fun j lt same => ?_⟩
  · rw [List.getElem?_eq_getElem bound, of_decide_eq_true here]
  · rw [List.getElem?_eq_getElem (Nat.lt_trans lt bound)] at same
    exact before j lt (decide_eq_true (Option.some.inj same))

theorem findIdx?_reverse_lastAt {names : List String} {name : String} {i : Nat}
    (found : names.reverse.findIdx? (· = name) = some i) :
    LastAt names name (names.length - 1 - i) := by
  have first := findIdx?_firstAt found
  have bound : i < names.length := by
    have := (List.getElem?_eq_some_iff.mp first.1).choose
    rwa [List.length_reverse] at this
  refine ⟨?_, fun j behind same => ?_⟩
  · rw [← List.getElem?_reverse bound]
    exact first.1
  · have inside : j < names.length := (List.getElem?_eq_some_iff.mp same).choose
    have mirrored : names.length - 1 - j < i := by omega
    apply first.2 _ mirrored
    rw [List.getElem?_reverse (by omega), ← same]
    congr 1
    omega

/-- The scan of the plain table answers right. -/
theorem scan?_answers (policy : Policy) (entries : List Operator) (name : String) :
    policy.Answers (entries.map Operator.name) name (scan? policy entries name) := by
  have forward : entries.findIdx? (·.name = name) =
      (entries.map Operator.name).findIdx? (· = name) := by
    rw [List.findIdx?_map]
    rfl
  have backward : entries.reverse.findIdx? (·.name = name) =
      (entries.map Operator.name).reverse.findIdx? (· = name) := by
    rw [← List.map_reverse, List.findIdx?_map]
    rfl
  unfold scan?
  rw [forward, backward]
  split
  · cases found : (entries.map Operator.name).reverse.findIdx? (· = name) with
    | none =>
        intro member
        have absent := List.findIdx?_eq_none_iff.mp found name (List.mem_reverse.mpr member)
        exact of_decide_eq_false absent rfl
    | some i =>
        have last := findIdx?_reverse_lastAt found
        rw [List.length_map] at last
        show Policy.Place ..
        rw [Policy.Place, if_pos ‹_›]
        exact last
  · cases found : (entries.map Operator.name).findIdx? (· = name) with
    | none =>
        intro member
        exact of_decide_eq_false (List.findIdx?_eq_none_iff.mp found name member) rfl
    | some i =>
        show Policy.Place ..
        rw [Policy.Place, if_neg ‹_›]
        exact findIdx?_firstAt found

/-- What a lookup finds stands in the table under the name, whatever the slots hold. -/
theorem names_of_find? {r : Registry hash} {name : String} {i : Nat}
    (found : r.find? name = some i) : r.names[i]? = some name := by
  have scanned (j : Nat) (here : scan? r.policy r.entries name = some j) :
      r.names[j]? = some name := by
    have answers := scan?_answers r.policy r.entries name
    rw [here] at answers
    exact Policy.Place.getElem? answers
  unfold find? at found
  split at found
  · cases found
  · rename_i slot held
    split at found
    · rename_i op entry
      split at found
      · rename_i same
        cases found
        rw [names, List.getElem?_map, entry, Option.map_some, same]
      · exact scanned i found
    · exact scanned i found

theorem mem_of_lookup? {r : Registry hash} {name : String} {op : Operator}
    (found : r.lookup? name = some op) : op ∈ r.entries ∧ op.name = name := by
  obtain ⟨i, place, entry⟩ := Option.bind_eq_some_iff.mp found
  refine ⟨List.mem_of_getElem? entry, ?_⟩
  have named := names_of_find? place
  rw [names, List.getElem?_map, entry, Option.map_some] at named
  exact Option.some.inj named

/-! ## The index -/

/-- What the slots of the index hold. Nothing is said about which of the names with one hash its
slot belongs to. -/
structure Indexed (r : Registry hash) : Prop where
  /-- The table has no name for a free slot. -/
  free : ∀ name ∈ r.names, r.slots[hash name]? ≠ none
  /-- A slot that is taken holds the place that a name with its hash means. -/
  taken : ∀ h i, r.slots[h]? = some i →
    ∃ op, r.entries[i]? = some op ∧ hash op.name = h ∧ r.policy.Place r.names op.name i

theorem empty_indexed (policy : Policy) : (empty policy : Registry hash).Indexed where
  free := fun _ member => absurd member List.not_mem_nil
  taken := fun h i held => by
    simp only [empty, Std.HashMap.getElem?_empty] at held
    cases held

/-- The indexed lookup answers right. -/
theorem Indexed.find?_answers {r : Registry hash} (indexed : r.Indexed) (name : String) :
    r.policy.Answers r.names name (r.find? name) := by
  unfold find?
  cases held : r.slots[hash name]? with
  | none => exact fun member => indexed.free name member held
  | some i =>
      obtain ⟨op, entry, -, place⟩ := indexed.taken _ _ held
      simp only [entry]
      by_cases same : op.name = name
      · rw [if_pos same]
        rw [same] at place
        exact place
      · rw [if_neg same]
        exact scan?_answers r.policy r.entries name

theorem names_insert (r : Registry hash) (op : Operator) :
    (r.insert op).names = r.names ++ [op.name] :=
  List.map_append

theorem slots_insert (r : Registry hash) (op : Operator) (h : UInt64) :
    (r.insert op).slots[h]? =
      if r.takesSlot op.name = true ∧ hash op.name = h then some r.entries.length
      else r.slots[h]? := by
  unfold insert
  cases takes : r.takesSlot op.name with
  | false => simp
  | true => simp [Std.HashMap.getElem?_insert]

/-- A slot that an operator leaves alone holds another name, or the policy keeps the first. -/
theorem Indexed.of_not_takesSlot {r : Registry hash} {op held : Operator} {i : Nat}
    (leaves : r.takesSlot op.name = false) (slot : r.slots[hash op.name]? = some i)
    (entry : r.entries[i]? = some held) : op.name ≠ held.name ∨ r.policy ≠ .override := by
  simp only [takesSlot, slot, entry, Option.any_some, Bool.and_eq_false_iff,
    decide_eq_false_iff_not] at leaves
  rcases leaves with keeps | ne
  · exact Or.inr keeps
  · exact Or.inl (fun same => ne same.symm)

/-- An operator that takes over a slot is new to the table, or the policy is `override`. -/
theorem Indexed.new_of_takesSlot {r : Registry hash} (indexed : r.Indexed) {name : String}
    (takes : r.takesSlot name = true) : r.policy = .override ∨ name ∉ r.names := by
  unfold takesSlot at takes
  cases slot : r.slots[hash name]? with
  | none => exact Or.inr (fun member => indexed.free name member slot)
  | some i =>
      simp only [slot, Bool.and_eq_true, decide_eq_true_eq] at takes
      exact Or.inl takes.1

/-- Appending an operator keeps the index right, whichever names share a slot. -/
theorem Indexed.insert {r : Registry hash} (indexed : r.Indexed) (op : Operator) :
    (r.insert op).Indexed where
  free := by
    intro name member vacant
    rw [names_insert, List.mem_append, List.mem_singleton] at member
    rw [slots_insert] at vacant
    split at vacant
    · cases vacant
    · rename_i keeps
      rcases member with old | rfl
      · exact indexed.free name old vacant
      · -- A free slot would have been taken over.
        apply keeps
        simp [takesSlot, vacant]
  taken := by
    intro h i slot
    rw [slots_insert] at slot
    rw [names_insert]
    split at slot
    · rename_i takes
      cases slot
      refine ⟨op, List.getElem?_concat_length, takes.2, ?_⟩
      have last := Policy.place_append_last (indexed.new_of_takesSlot takes.1)
      rwa [names, List.length_map] at last
    · rename_i keeps
      obtain ⟨held, entry, hashed, place⟩ := indexed.taken h i slot
      have bound : i < r.entries.length := (List.getElem?_eq_some_iff.mp entry).choose
      refine ⟨held, (List.getElem?_append_left bound).trans entry, hashed, ?_⟩
      by_cases same : op.name = held.name
      · have leaves : r.takesSlot op.name = false := by
          rw [← Bool.not_eq_true]
          exact fun takes => keeps ⟨takes, same ▸ hashed⟩
        have slot' : r.slots[hash op.name]? = some i := by rw [same, hashed, slot]
        rcases Indexed.of_not_takesSlot leaves slot' entry with ne | first
        · exact absurd same ne
        · exact place.append first
      · exact place.append_ne same

/-! ## Changes of a registry -/

/-- What can be done to a registry. -/
inductive Change where
  /-- An operator of the library is appended. -/
  | insert (op : Operator)
  /-- A caller registers an operator, and may be refused. -/
  | register (name : String) (arity : Int) (callback : Option Callback)
  | clear

/-- The registry after a change; one that is refused leaves it as it is. -/
def change (r : Registry hash) : Change → Registry hash
  | .insert op => r.insert op
  | .register name arity callback =>
    match r.register name arity callback with
    | .ok registered => registered
    | .error _ => r
  | .clear => r.clear

/-- The registry after changes from an empty one. -/
def build (policy : Policy) (changes : List Change) : Registry hash :=
  changes.foldl change (empty policy)

/-- The plain table after a change: names are compared, and nothing is hashed. -/
def Change.onTable (policy : Policy) (table : List Operator) : Change → List Operator
  | .insert op => table ++ [op]
  | .register name arity callback =>
    match callback with
    | none => table
    | some callback =>
      if validName name = true ∧ 0 ≤ arity ∧
          ¬ (policy = .reject ∧ name ∈ table.map Operator.name) then
        table ++ [.custom name arity.toNat callback]
      else table
  | .clear => []

/-- The plain table after changes from an empty one. -/
def plainTable (policy : Policy) (changes : List Change) : List Operator :=
  changes.foldl (Change.onTable policy) []

theorem Indexed.isSome_find?_iff {r : Registry hash} (indexed : r.Indexed) (name : String) :
    (r.find? name).isSome = true ↔ name ∈ r.names := by
  have answers := indexed.find?_answers name
  cases found : r.find? name with
  | none =>
      rw [found] at answers
      exact ⟨fun some => (Bool.false_ne_true some).elim, fun member => absurd member answers⟩
  | some i =>
      rw [found] at answers
      exact ⟨fun _ => answers.mem, fun _ => rfl⟩

/-- A registration appends an operator, or is refused. -/
theorem register_cases (r : Registry hash) (name : String) (arity : Int)
    (callback : Option Callback) :
    (∃ error, r.register name arity callback = .error error) ∨
      ∃ body, callback = some body ∧
        r.register name arity callback = .ok (r.insert (.custom name arity.toNat body)) := by
  unfold register
  split
  · exact Or.inl ⟨_, rfl⟩
  · split
    · exact Or.inl ⟨_, rfl⟩
    · cases callback with
      | none => exact Or.inl ⟨_, rfl⟩
      | some body =>
          dsimp only
          split
          · exact Or.inl ⟨_, rfl⟩
          · exact Or.inr ⟨body, rfl, rfl⟩

theorem Indexed.change {r : Registry hash} (indexed : r.Indexed) (c : Change) :
    (r.change c).Indexed := by
  cases c with
  | insert op => exact indexed.insert op
  | clear => exact empty_indexed r.policy
  | register name arity callback =>
      unfold Registry.change
      rcases register_cases r name arity callback with ⟨error, refused⟩ | ⟨body, -, accepted⟩
      · simp only [refused]
        exact indexed
      · simp only [accepted]
        exact indexed.insert _

theorem policy_change (r : Registry hash) (c : Change) : (r.change c).policy = r.policy := by
  cases c with
  | insert op => rfl
  | clear => rfl
  | register name arity callback =>
      unfold Registry.change
      rcases register_cases r name arity callback with ⟨error, refused⟩ | ⟨body, -, accepted⟩
      · simp only [refused]
      · simp only [accepted]
        rfl

/-- One change does to the entries what it does to the plain table. -/
theorem Indexed.entries_change {r : Registry hash} (indexed : r.Indexed) (c : Change) :
    (r.change c).entries = c.onTable r.policy r.entries := by
  cases c with
  | insert op => rfl
  | clear => rfl
  | register name arity callback =>
      have taken := indexed.isSome_find?_iff name
      unfold Registry.change register Change.onTable
      cases callback with
      | none => grind
      | some body => grind [Registry.insert, Registry.names]

theorem build_refines (policy : Policy) (changes : List Change) :
    (build policy changes : Registry hash).Indexed ∧
      (build policy changes : Registry hash).policy = policy ∧
      (build policy changes : Registry hash).entries = plainTable policy changes := by
  induction changes using List.reverseRecOn with
  | nil => exact ⟨empty_indexed policy, rfl, rfl⟩
  | append_singleton changes c ih =>
      obtain ⟨indexed, kept, entries⟩ := ih
      have last : (build policy (changes ++ [c]) : Registry hash) =
          (build policy changes).change c := List.foldl_append
      have plain : plainTable policy (changes ++ [c]) =
          c.onTable policy (plainTable policy changes) := List.foldl_append
      rw [last, plain]
      refine ⟨indexed.change c, (policy_change _ c).trans kept, ?_⟩
      rw [indexed.entries_change, kept, entries]

theorem ofCode_eq_override_iff (code : UInt8) : Policy.ofCode code = .override ↔ code = 1 := by
  unfold Policy.ofCode
  constructor
  · intro same
    split at same
    · cases same
    · rename_i one
      exact UInt8.toNat_inj.mp one
    · cases same
    · cases same
  · rintro rfl
    rfl

/-- Lookups through the index are lookups in the plain table, for every hash. -/
theorem find?_agrees_with_plain_table (hash : String → UInt64) (code : UInt8)
    (changes : List Change) (name : String) :
    let r : Registry hash := build (.ofCode code) changes
    let names := (plainTable (.ofCode code) changes).map Operator.name
    r.entries = plainTable (.ofCode code) changes ∧
      (∀ i, r.find? name = some i ↔
        if code = 1 then LastAt names name i else FirstAt names name i) ∧
      (r.find? name = none ↔ name ∉ names) := by
  intro r names
  obtain ⟨indexed, kept, entries⟩ := @build_refines hash (.ofCode code) changes
  have answers : (Policy.ofCode code).Answers names name (r.find? name) := by
    have found := indexed.find?_answers name
    rwa [kept, Registry.names, entries] at found
  have place (i : Nat) : (Policy.ofCode code).Place names name i ↔
      if code = 1 then LastAt names name i else FirstAt names name i := by
    unfold Policy.Place
    simp only [ofCode_eq_override_iff]
  refine ⟨entries, fun i => ?_, ?_⟩
  · rw [← place i]
    constructor
    · intro found
      rwa [found] at answers
    · intro here
      exact answers.unique (b := some i) here
  · constructor
    · intro found
      rwa [found] at answers
    · intro absent
      exact answers.unique (b := none) absent

end Registry

end ReversePolish
