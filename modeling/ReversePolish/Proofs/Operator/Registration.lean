import ReversePolish.Proofs.Operator.Library

/-!
Registrations, and what a registry lists after any number of them.

A registration is refused for its name, its arity or its missing callback, or because the policy is
`reject` and the name is taken. The last of these is looked up in the index, so that it is exact
follows from `Indexed`, and so does that an operator that is appended changes the meaning of no
other name, even of one that shares its slot (`Indexed.find?_insert`).

What registrations keep is collected in `Sound`. It holds of the registry that a context starts
with, because the builtins are offered to it one by one (`opening_eq_foldl_offer`), and, request by
request, of every registry that is made from it. The names of such a registry are those that were
accepted since it was last cleared (`names_serveAll`).
-/

namespace ReversePolish

namespace Registry

variable {hash : String → UInt64} {r : Registry hash}

/-! ## One registration -/

/-- A name that is not one word of an expression. -/
def BadName (name : String) : Prop :=
  name = "" ∨ ∃ c ∈ name.toList, Text.isBlank c = true

/-- The policy refuses the name because the table has it. -/
def Taken (r : Registry hash) (name : String) : Prop :=
  r.policy = .reject ∧ name ∈ r.names

instance (r : Registry hash) (name : String) : Decidable (r.Taken name) :=
  inferInstanceAs (Decidable (r.policy = .reject ∧ name ∈ r.names))

theorem validName_eq_false_iff {name : String} : validName name = false ↔ BadName name := by
  rw [validName, Bool.and_eq_false_iff, Bool.not_eq_false', Bool.not_eq_false', List.isEmpty_iff,
    String.toList_eq_nil_iff, List.any_eq_true]
  rfl

theorem validName_eq_true_iff {name : String} : validName name = true ↔ ¬ BadName name := by
  rw [← validName_eq_false_iff, Bool.not_eq_false]

instance (name : String) : Decidable (BadName name) :=
  decidable_of_iff _ validName_eq_false_iff

/-- What a registration comes to: the first thing that is wrong with it, or one more operator. -/
inductive Verdict (r : Registry hash) (name : String) (arity : Int) (callback : Option Callback) :
    Except RegisterError (Registry hash) → Prop
  | invalidName : BadName name → Verdict r name arity callback (.error (.invalidName name))
  | negativeArity : ¬ BadName name → arity < 0 →
    Verdict r name arity callback (.error (.negativeArity name arity))
  | missingCallback : ¬ BadName name → ¬ arity < 0 → callback = none →
    Verdict r name arity callback (.error (.missingCallback name))
  | duplicate : ¬ BadName name → ¬ arity < 0 → callback ≠ none → r.Taken name →
    Verdict r name arity callback (.error (.duplicate name))
  | accepted (body : Callback) : ¬ BadName name → ¬ arity < 0 → callback = some body →
    ¬ r.Taken name →
    Verdict r name arity callback (.ok (r.insert (.custom name arity.toNat body)))

theorem Indexed.verdict (indexed : r.Indexed) (name : String) (arity : Int)
    (callback : Option Callback) :
    Verdict r name arity callback (r.register name arity callback) := by
  unfold register
  cases valid : validName name with
  | false => exact .invalidName (validName_eq_false_iff.mp valid)
  | true =>
      have named : ¬ BadName name := validName_eq_true_iff.mp valid
      show Verdict r name arity callback (if arity < 0 then _ else _)
      split
      · exact .negativeArity named ‹_›
      · rename_i natural
        cases callback with
        | none => exact .missingCallback named natural rfl
        | some body =>
            have taken : r.policy = .reject ∧ (r.find? name).isSome = true ↔ r.Taken name := by
              rw [indexed.isSome_find?_iff]
              rfl
            show Verdict r name arity (some body) (if _ then _ else _)
            split
            · exact .duplicate named natural nofun (taken.mp ‹_›)
            · exact .accepted body named natural rfl (fun held => ‹¬ _› (taken.mpr held))

/-- A registration is refused if and only if one of four things is wrong. -/
theorem Verdict.error_iff {name : String} {arity : Int} {callback : Option Callback}
    {answer : Except RegisterError (Registry hash)}
    (verdict : Verdict r name arity callback answer) :
    (∃ e, answer = .error e) ↔
      BadName name ∨ arity < 0 ∨ callback = none ∨ r.Taken name := by
  cases verdict with
  | invalidName bad => simp [bad]
  | negativeArity _ negative => simp [negative]
  | missingCallback _ _ missing => simp [missing]
  | duplicate _ _ _ taken => simp [taken]
  | accepted body named natural given free => simp [named, natural, given, free]

/-- It is refused as a duplicate if and only if nothing else is wrong. -/
theorem Verdict.duplicate_iff {name : String} {arity : Int} {callback : Option Callback}
    {answer : Except RegisterError (Registry hash)}
    (verdict : Verdict r name arity callback answer) :
    (∃ other, answer = .error (.duplicate other)) ↔
      r.Taken name ∧ ¬ (BadName name ∨ arity < 0 ∨ callback = none) := by
  cases verdict with
  | invalidName bad => simp [bad]
  | negativeArity _ negative => simp [negative]
  | missingCallback _ _ missing => simp [missing]
  | duplicate named natural given taken => simp [named, natural, given, taken]
  | accepted body _ _ _ free => simp [free]

/-- An operator that is appended does not change what another name means. -/
theorem Indexed.find?_insert (indexed : r.Indexed) {op : Operator} {name : String}
    (ne : op.name ≠ name) : (r.insert op).find? name = r.find? name := by
  have before := indexed.find?_answers name
  have after := (indexed.insert op).find?_answers name
  rw [names_insert] at after
  refine after.unique ?_
  cases found : r.find? name with
  | none =>
      rw [found] at before
      show name ∉ r.names ++ [op.name]
      rw [List.mem_append, List.mem_singleton]
      rintro (old | new)
      · exact before old
      · exact ne new.symm
  | some i =>
      rw [found] at before
      exact Policy.Place.append_ne before ne

theorem Indexed.lookup?_insert (indexed : r.Indexed) {op : Operator} {name : String}
    (ne : op.name ≠ name) : (r.insert op).lookup? name = r.lookup? name := by
  have before := indexed.find?_answers name
  unfold lookup?
  rw [indexed.find?_insert ne]
  cases found : r.find? name with
  | none => rfl
  | some i =>
      rw [found] at before
      have inside : i < r.entries.length := by
        rw [← List.length_map (f := Operator.name)]
        exact before.lt_length
      exact List.getElem?_append_left inside

/-! ## Requests -/

/-- What a caller asks of a registry. -/
inductive Request where
  | register (name : String) (arity : Int) (callback : Option Callback)
  | clear

/-- The registry after a request, and why the request was refused if it was. -/
def serve (r : Registry hash) : Request → Registry hash × Option RegisterError
  | .register name arity callback =>
    match r.register name arity callback with
    | .ok registered => (registered, none)
    | .error e => (r, some e)
  | .clear => (r.clear, none)

theorem serve_of_error {name : String} {arity : Int} {callback : Option Callback}
    {e : RegisterError} (refused : r.register name arity callback = .error e) :
    r.serve (.register name arity callback) = (r, some e) := by
  rw [serve, refused]

theorem serve_of_ok {name : String} {arity : Int} {callback : Option Callback}
    {registered : Registry hash} (accepted : r.register name arity callback = .ok registered) :
    r.serve (.register name arity callback) = (registered, none) := by
  rw [serve, accepted]

/-- The registry after several requests. -/
def serveAll (r : Registry hash) (requests : List Request) : Registry hash :=
  requests.foldl (fun r q => (r.serve q).1) r

/-- The requests with their answers. -/
def log (r : Registry hash) : List Request → List (Request × Option RegisterError)
  | [] => []
  | q :: rest => (q, (r.serve q).2) :: (r.serve q).1.log rest

/-- The registry that a context starts with. -/
def opening (o : ContextOptions) : Registry hash :=
  (empty o.policy).insertAll (if o.builtins then (Builtin.library o.advanced).map .builtin else [])

/-- Append an operator, unless its name is no word or the policy refuses it. -/
def offer (r : Registry hash) (op : Operator) : Registry hash :=
  if validName op.name = true ∧ ¬(r.policy = .reject ∧ (r.find? op.name).isSome = true) then
    r.insert op
  else r

/-- No policy refuses operators whose names are distinct words. -/
theorem Indexed.foldl_offer (indexed : r.Indexed) {ops : List Operator}
    (valid : ∀ op ∈ ops, validName op.name = true)
    (distinct : (r.names ++ ops.map Operator.name).Nodup) :
    ops.foldl offer r = r.insertAll ops := by
  induction ops generalizing r with
  | nil => rfl
  | cons op ops ih =>
      have fresh : op.name ∉ r.names := by
        intro member
        exact (List.nodup_append.mp distinct).2.2 op.name member op.name List.mem_cons_self rfl
      have offered : r.offer op = r.insert op := by
        refine if_pos ⟨valid op List.mem_cons_self, ?_⟩
        rintro ⟨-, found⟩
        exact fresh ((indexed.isSome_find?_iff op.name).mp found)
      rw [List.foldl_cons, offered]
      apply ih (indexed.insert op)
      · intro other member
        exact valid other (List.mem_cons_of_mem op member)
      · rwa [names_insert, List.append_assoc]

/-- The builtins are offered one by one, and no policy refuses one of them. -/
theorem opening_eq_foldl_offer (o : ContextOptions) :
    (opening o : Registry hash) =
      (if o.builtins then (Builtin.library o.advanced).map Operator.builtin else []).foldl offer
        (empty o.policy) := by
  rw [opening]
  split
  · have names : ((Builtin.library o.advanced).map Operator.builtin).map Operator.name =
        (Builtin.library o.advanced).map Builtin.name := by
      rw [List.map_map]
      rfl
    rw [(empty_indexed o.policy).foldl_offer]
    · intro op member
      rcases List.mem_map.mp member with ⟨b, listed, rfl⟩
      exact (Builtin.names_apart b (Builtin.library_subset o.advanced listed)).1
    · rw [names]
      exact Builtin.nodup_names o.advanced
  · rfl

/-- What every request keeps. -/
structure Sound (r : Registry hash) : Prop where
  indexed : r.Indexed
  valid : ∀ name ∈ r.names, validName name = true
  distinct : r.policy = .reject → r.names.Nodup

theorem sound_empty (policy : Policy) : (empty policy : Registry hash).Sound :=
  ⟨empty_indexed policy, nofun, fun _ => .nil⟩

theorem Sound.insert (sound : r.Sound) (op : Operator) (named : ¬ BadName op.name)
    (free : ¬ r.Taken op.name) : (r.insert op).Sound where
  indexed := sound.indexed.insert op
  valid := by
    intro name member
    rw [names_insert, List.mem_append, List.mem_singleton] at member
    rcases member with old | rfl
    · exact sound.valid name old
    · exact validName_eq_true_iff.mpr named
  distinct := by
    intro reject
    have fresh : op.name ∉ r.names := fun held => free ⟨reject, held⟩
    rw [names_insert, List.nodup_append]
    refine ⟨sound.distinct reject, List.nodup_singleton _, fun name old other new => ?_⟩
    rintro rfl
    exact fresh (List.mem_singleton.mp new ▸ old)

theorem Sound.offer (sound : r.Sound) (op : Operator) : (r.offer op).Sound := by
  unfold Registry.offer
  split
  · rename_i accepted
    obtain ⟨valid, untaken⟩ := accepted
    have free : ¬ r.Taken op.name := by
      intro taken
      exact untaken ⟨taken.1, (sound.indexed.isSome_find?_iff op.name).mpr taken.2⟩
    exact sound.insert op (validName_eq_true_iff.mp valid) free
  · exact sound

theorem Sound.foldl_offer (sound : r.Sound) (ops : List Operator) :
    (ops.foldl Registry.offer r).Sound := by
  induction ops generalizing r with
  | nil => exact sound
  | cons op ops ih => exact ih (sound.offer op)

theorem sound_opening (o : ContextOptions) : (opening o : Registry hash).Sound := by
  rw [opening_eq_foldl_offer]
  exact (sound_empty o.policy).foldl_offer _

theorem Sound.serve (sound : r.Sound) (q : Request) : (r.serve q).1.Sound := by
  cases q with
  | clear => exact sound_empty r.policy
  | register name arity callback =>
      have verdict := sound.indexed.verdict name arity callback
      cases answer : r.register name arity callback with
      | error e =>
          rw [serve_of_error answer]
          exact sound
      | ok registered =>
          rw [serve_of_ok answer]
          rw [answer] at verdict
          cases verdict with
          | accepted body named _ _ free =>
              exact sound.insert (.custom name arity.toNat body) named free

theorem Sound.serveAll (sound : r.Sound) (requests : List Request) :
    (r.serveAll requests).Sound := by
  induction requests generalizing r with
  | nil => exact sound
  | cons q rest ih => exact ih (sound.serve q)

/-! ## The names that were accepted -/

def Request.isClear : Request → Bool
  | .register .. => false
  | .clear => true

/-- The name of a registration that was not refused. -/
def acceptedName? : Request × Option RegisterError → Option String
  | (.register name _ _, none) => some name
  | _ => none

/-- The names that were accepted since the last clearing. Where there was none, these come after the
names of the start. -/
def acceptedNames (start : List String) (log : List (Request × Option RegisterError)) :
    List String :=
  (if log.any (·.1.isClear) then [] else start) ++
    (log.reverse.takeWhile (!·.1.isClear)).reverse.filterMap acceptedName?

theorem acceptedNames_concat (start : List String) (log : List (Request × Option RegisterError))
    (entry : Request × Option RegisterError) :
    acceptedNames start (log ++ [entry]) =
      if entry.1.isClear then []
      else acceptedNames start log ++ (acceptedName? entry).toList := by
  have last : (log ++ [entry]).any (·.1.isClear) =
      (log.any (·.1.isClear) || entry.1.isClear) := by
    rw [List.any_append, List.any_cons, List.any_nil, Bool.or_false]
  unfold acceptedNames
  rw [last, List.reverse_append, List.reverse_singleton, List.singleton_append,
    List.takeWhile_cons]
  cases entry.1.isClear with
  | true =>
      rw [Bool.or_true]
      rfl
  | false =>
      rw [Bool.or_false]
      cases name : acceptedName? entry <;> simp [name]

theorem log_concat (r : Registry hash) (requests : List Request) (q : Request) :
    r.log (requests ++ [q]) = r.log requests ++ [(q, ((r.serveAll requests).serve q).2)] := by
  induction requests generalizing r with
  | nil => rfl
  | cons first rest ih => exact congrArg (_ :: ·) (ih (r.serve first).1)

theorem names_serve (r : Registry hash) (q : Request) :
    (r.serve q).1.names =
      if q.isClear then [] else r.names ++ (acceptedName? (q, (r.serve q).2)).toList := by
  cases q with
  | clear => rfl
  | register name arity callback =>
      rcases register_cases r name arity callback with ⟨e, refused⟩ | ⟨body, -, accepted⟩
      · rw [serve_of_error refused]
        exact (List.append_nil _).symm
      · rw [serve_of_ok accepted]
        exact names_insert r _

/-- A registry lists the names that it accepted, in their order. -/
theorem names_serveAll (r : Registry hash) (requests : List Request) :
    (r.serveAll requests).names = acceptedNames r.names (r.log requests) := by
  induction requests using List.reverseRecOn with
  | nil => exact (List.append_nil _).symm
  | append_singleton requests q ih =>
      have last : r.serveAll (requests ++ [q]) = ((r.serveAll requests).serve q).1 :=
        List.foldl_append
      rw [last, names_serve, ih, log_concat, acceptedNames_concat]

/-! ## Calls on a context -/

/-- The call that makes a request. -/
def Request.call : Request → Call
  | .register name arity callback => .register name arity callback
  | .clear => .clearOperators

theorem perform_request (c : Context) (q : Request) :
    c.perform q.call =
      ({ c with operators := (c.operators.serve q).1 },
        match (c.operators.serve q).2 with
        | none => .ok
        | some e => .refused e) := by
  cases q with
  | clear => rfl
  | register name arity callback =>
      show c.perform (.register name arity callback) = _
      rw [Context.perform]
      cases answer : c.operators.register name arity callback with
      | error e => rw [serve_of_error answer]
      | ok registered => rw [serve_of_ok answer]

theorem foldl_perform_requests (c : Context) (requests : List Request) :
    requests.foldl (fun c q => (c.perform q.call).1) c =
      { c with operators := c.operators.serveAll requests } := by
  induction requests generalizing c with
  | nil => rfl
  | cons q rest ih =>
      rw [List.foldl_cons, perform_request, ih]
      rfl

/-- However a registry came about by registrations and clearings, and whatever its names are hashed
to, a registration is refused exactly when its name is not one word, its arity is negative, its
callback is missing or the policy is `reject` and the name is taken; as a duplicate, exactly when
nothing else is wrong. A refusal leaves the registry as it is. Otherwise one operator is appended,
and no other name changes its meaning. So under `reject` the names are distinct, every name is one
token, and the names are those that were accepted since the last clearing, in their order. All this
is what calls on a context come to. -/
theorem registration_validated (hash : String → UInt64) (o : ContextOptions)
    (requests : List Request) :
    let r : Registry hash := (opening o).serveAll requests
    (∀ (name : String) (arity : Int) (callback : Option Callback),
      ((∃ e, r.register name arity callback = .error e) ↔
        BadName name ∨ arity < 0 ∨ callback = none ∨ r.Taken name) ∧
      ((∃ other, r.register name arity callback = .error (.duplicate other)) ↔
        r.Taken name ∧ ¬ (BadName name ∨ arity < 0 ∨ callback = none)) ∧
      (∀ e, r.register name arity callback = .error e →
        r.serve (.register name arity callback) = (r, some e)) ∧
      (∀ r', r.register name arity callback = .ok r' →
        (∃ body, callback = some body ∧
          r'.entries = r.entries ++ [.custom name arity.toNat body]) ∧
        ∀ other, other ≠ name →
          r'.find? other = r.find? other ∧ r'.lookup? other = r.lookup? other)) ∧
    (r.policy = .reject → r.names.Nodup) ∧
    (∀ name ∈ r.names, Token.tokenize name = [name]) ∧
    r.names = acceptedNames (opening o : Registry hash).names
      ((opening o : Registry hash).log requests) ∧
    (let c := requests.foldl (fun c q => (c.perform q.call).1) (Context.new o)
     c.operators = (opening o).serveAll requests ∧
      ∀ q : Request, c.perform q.call =
        ({ c with operators := (c.operators.serve q).1 },
          match (c.operators.serve q).2 with
          | none => .ok
          | some e => .refused e)) := by
  intro r
  have sound : r.Sound := (sound_opening o).serveAll requests
  refine ⟨fun name arity callback => ?_, sound.distinct, fun name member => ?_,
    names_serveAll (opening o) requests, ?_, fun q => perform_request _ q⟩
  · have verdict := sound.indexed.verdict name arity callback
    refine ⟨verdict.error_iff, verdict.duplicate_iff, fun e refused => serve_of_error refused,
      fun r' accepted => ?_⟩
    rw [accepted] at verdict
    cases verdict with
    | accepted body _ _ given _ =>
        exact ⟨⟨body, given, rfl⟩, fun other ne =>
          ⟨sound.indexed.find?_insert ne.symm, sound.indexed.lookup?_insert ne.symm⟩⟩
  · exact Text.words_of_isWord (isWord_of_validName (sound.valid name member))
  · rw [foldl_perform_requests]
    rfl

/-- The second of two names in one slot is known to be taken, and a third changes neither. -/
theorem registration_validated_collision :
    let callback : Callback := .run [] .proceed
    let r : Registry (fun _ => 0) :=
      (opening { builtins := false, policy := .reject }).serveAll
        [.register "a" 0 (some callback), .register "b" 2 (some callback)]
    r.names = ["a", "b"] ∧
      (∃ other, r.register "b" 0 (some callback) = .error (.duplicate other)) ∧
      ∃ r', r.register "c" 1 (some callback) = .ok r' ∧ r'.find? "b" = r.find? "b" := by
  intro callback r
  obtain ⟨register, -⟩ := registration_validated (fun _ => 0)
    { builtins := false, policy := .reject }
    [.register "a" 0 (some callback), .register "b" 2 (some callback)]
  refine ⟨by decide +kernel, ?_, ?_⟩
  · exact (register "b" 0 (some callback)).2.1.mpr ⟨by decide +kernel, by decide +kernel⟩
  · obtain ⟨refused, -, -, appended⟩ := register "c" 1 (some callback)
    cases answer : r.register "c" 1 (some callback) with
    | ok r' => exact ⟨r', rfl, ((appended r' answer).2 "b" (by decide)).1⟩
    | error e => exact absurd (refused.mp ⟨e, answer⟩) (by decide +kernel)

end Registry

end ReversePolish
