/-
What a call does, and in which order.

A parameter may do anything when it is evaluated: it may be a call itself, fail, or leave traces in
the state.  So what a call has done can be told from the state that it ends in.  `Binds` says that
parameters are evaluated one after the other and that all of them let the call go on, and
`Input.Stops` that one of them ends it.  Either all parameters bind, each evaluated once, or there
is a first one that stops, `binds_or_stops`, and nothing behind that one is looked at.

A function gives the same result whenever it is given the same arguments, so the number of times it
is invoked would not show.  `Registry.callWith` therefore lets an invocation be a step of the state,
too.  A call is the case in which it is not, `Registry.values_call_eq`.
-/
import Mathlib.Data.List.Basic
import RdfMapping.Function.Call
import RdfMapping.Function.Standard

namespace RdfMapping

/-! ### Arguments -/

namespace ValueMap

/-- The names that are bound, to values or to none. -/
def names (m : ValueMap) : List String := m.entries.map Prod.fst

theorem mem_names {m : ValueMap} {name : String} :
    name ∈ m.names ↔ m.entries.lookup name ≠ none := by
  rw [Ne, List.lookup_eq_none_iff, names, List.mem_map]
  constructor
  · intro h hnone
    obtain ⟨p, hp, rfl⟩ := h
    exact bne_iff_ne.mp (hnone p hp) rfl
  · intro h
    by_contra hnone
    exact h fun p hp => bne_iff_ne.mpr fun heq => hnone ⟨p, hp, heq.symm⟩

/-- Appending binds its name, even to no value. -/
theorem mem_names_append {m : ValueMap} {name n : String} {values : List String} :
    n ∈ (m.append name values).names ↔ n = name ∨ n ∈ m.names := by
  rw [mem_names, mem_names, append, lookup_adjust name n _ m.sorted]
  by_cases h : n = name
  · simp [h]
  · simp [h]

/-- Adds the values of each pair in turn. -/
def appendAll (m : ValueMap) (bound : List (String × List String)) : ValueMap :=
  bound.foldl (fun m b => m.append b.1 b.2) m

/-- What a name has after that is what it had and what the pairs have for it, in order. -/
theorem get_appendAll (m : ValueMap) (bound : List (String × List String)) (name : String) :
    (m.appendAll bound).get name =
      m.get name ++ (bound.filter fun b => b.1 = name).flatMap Prod.snd := by
  unfold appendAll
  induction bound generalizing m with
  | nil => simp
  | cons b bound ih =>
      rw [List.foldl_cons, ih, get_append]
      by_cases h : b.1 = name
      · simp [h]
      · simp [h, Ne.symm h]

theorem mem_names_appendAll {m : ValueMap} {bound : List (String × List String)} {name : String} :
    name ∈ (m.appendAll bound).names ↔ name ∈ m.names ∨ name ∈ bound.map Prod.fst := by
  unfold appendAll
  induction bound generalizing m with
  | nil => simp
  | cons b bound ih =>
      rw [List.foldl_cons, ih, mem_names_append, List.map_cons, List.mem_cons, or_assoc]
      exact or_left_comm

end ValueMap

/-! ### Parameters -/

variable {ε σ : Type}

/-- A parameter with these values keeps a function from being invoked: it has none, it is required,
and the function does not cope with that. -/
def Input.Withholds (acceptsMissing : Bool) (input : Input ε σ) (values : List String) : Prop :=
  values = [] ∧ input.required = true ∧ acceptsMissing = false

theorem Input.withholds_iff {acceptsMissing : Bool} {input : Input ε σ} {values : List String} :
    (values.isEmpty && input.required && !acceptsMissing) = true ↔
      input.Withholds acceptsMissing values := by
  simp [Withholds, and_assoc]

/-- Evaluating parameters one after the other from a state binds values to their names and leads to
another state, and none of them keeps the function from being invoked. -/
inductive Binds (acceptsMissing : Bool) :
    List (Input ε σ) → σ → List (String × List String) → σ → Prop
  | nil (s : σ) : Binds acceptsMissing [] s [] s
  | cons {input : Input ε σ} {inputs : List (Input ε σ)} {s s₁ s₂ : σ} {values : List String}
      {bound : List (String × List String)} (hvalues : input.values s = .ok values s₁)
      (hgoes : ¬ input.Withholds acceptsMissing values)
      (hrest : Binds acceptsMissing inputs s₁ bound s₂) :
      Binds acceptsMissing (input :: inputs) s ((input.name, values) :: bound) s₂

/-- Evaluating a parameter in a state ends the call with an answer: the failure of the parameter, or
no values if it keeps the function from being invoked. -/
inductive Input.Stops (acceptsMissing : Bool) (input : Input ε σ) (s : σ) :
    EStateM.Result ε σ (Except FunctionError (List String)) → Prop
  | failed {e : ε} {s' : σ} (hvalues : input.values s = .error e s') :
      Stops acceptsMissing input s (.error e s')
  | withheld {values : List String} {s' : σ} (hvalues : input.values s = .ok values s')
      (hwithholds : input.Withholds acceptsMissing values) :
      Stops acceptsMissing input s (.ok (.ok []) s')

/-- Arguments that hold, under the names of the parameters and no others, the values that were bound
to each name, in order. -/
structure Gathers (inputs : List (Input ε σ)) (bound : List (String × List String))
    (arguments : Arguments) : Prop where
  names : ∀ name, name ∈ arguments.names ↔ ∃ input ∈ inputs, input.name = name
  values : ∀ name, arguments.get name = (bound.filter fun b => b.1 = name).flatMap Prod.snd

variable {acceptsMissing : Bool} {inputs : List (Input ε σ)} {s s' : σ}
  {bound : List (String × List String)}

/-- There is only one way for parameters to bind. -/
theorem Binds.unique (h : Binds acceptsMissing inputs s bound s')
    {bound' : List (String × List String)} {s'' : σ}
    (h' : Binds acceptsMissing inputs s bound' s'') : bound = bound' ∧ s' = s'' := by
  induction h generalizing bound' with
  | nil s =>
      cases h'
      exact ⟨rfl, rfl⟩
  | cons hvalues _ _ ih =>
      cases h' with
      | cons hvalues' _ hrest' =>
          cases hvalues.symm.trans hvalues'
          obtain ⟨rfl, rfl⟩ := ih hrest'
          exact ⟨rfl, rfl⟩

theorem Binds.map_fst (h : Binds acceptsMissing inputs s bound s') :
    bound.map Prod.fst = inputs.map Input.name := by
  induction h with
  | nil => rfl
  | cons _ _ _ ih => rw [List.map_cons, List.map_cons, ih]

theorem Binds.gathers (h : Binds acceptsMissing inputs s bound s') :
    Gathers inputs bound (ValueMap.empty.appendAll bound) where
  names := by
    intro name
    rw [ValueMap.mem_names_appendAll, h.map_fst, List.mem_map]
    simp [ValueMap.names, ValueMap.empty]
  values := by
    intro name
    rw [ValueMap.get_appendAll, ValueMap.get_empty, List.nil_append]

/-- There is a first parameter that ends the call, or there is none. -/
theorem binds_or_stops (acceptsMissing : Bool) (inputs : List (Input ε σ)) (s : σ) :
    (∃ bound s', Binds acceptsMissing inputs s bound s') ∨
      ∃ before input after bound s₁ answer, inputs = before ++ input :: after ∧
        Binds acceptsMissing before s bound s₁ ∧ input.Stops acceptsMissing s₁ answer := by
  induction inputs generalizing s with
  | nil => exact Or.inl ⟨[], s, .nil s⟩
  | cons input inputs ih =>
      cases hvalues : input.values s with
      | error e s₁ => exact Or.inr ⟨[], input, inputs, [], s, _, rfl, .nil s, .failed hvalues⟩
      | ok values s₁ =>
          by_cases hwithholds : input.Withholds acceptsMissing values
          · exact Or.inr ⟨[], input, inputs, [], s, _, rfl, .nil s, .withheld hvalues hwithholds⟩
          · rcases ih s₁ with hall | hfirst
            · obtain ⟨bound, s', hbinds⟩ := hall
              exact Or.inl ⟨_, s', .cons hvalues hwithholds hbinds⟩
            · obtain ⟨before, stop, after, bound, s₂, answer, rfl, hbinds, hstops⟩ := hfirst
              exact Or.inr ⟨input :: before, stop, after, _, s₂, answer, rfl,
                .cons hvalues hwithholds hbinds, hstops⟩

/-- The first parameter decides whether the others are looked at. -/
theorem bindInputs_cons (arguments : Arguments) (input : Input ε σ) (rest : List (Input ε σ))
    (s : σ) :
    bindInputs acceptsMissing arguments (input :: rest) s =
      match input.values s with
      | .error e s' => .error e s'
      | .ok values s' =>
        if (values.isEmpty && input.required && !acceptsMissing) = true then
          .ok (.error input.name) s'
        else bindInputs acceptsMissing (arguments.append input.name values) rest s' := by
  rw [bindInputs]
  show EStateM.bind input.values _ s = _
  rw [EStateM.bind]
  cases input.values s with
  | error e s' => rfl
  | ok values s' =>
      show (ite _ _ _ : EStateM ε σ (Except String Arguments)) s' = ite _ _ _
      by_cases hcheck : (values.isEmpty && input.required && !acceptsMissing) = true
      · rw [if_pos hcheck, if_pos hcheck]
        rfl
      · rw [if_neg hcheck, if_neg hcheck]

/-- Parameters that bind are done with before the others are looked at. -/
theorem bindInputs_of_binds (h : Binds acceptsMissing inputs s bound s') (arguments : Arguments)
    (rest : List (Input ε σ)) :
    bindInputs acceptsMissing arguments (inputs ++ rest) s =
      bindInputs acceptsMissing (arguments.appendAll bound) rest s' := by
  induction h generalizing arguments with
  | nil s => rfl
  | @cons input inputs s s₁ s₂ values bound hvalues hgoes hrest ih =>
      rw [List.cons_append, bindInputs_cons, hvalues]
      show ite _ _ _ = _
      rw [if_neg (mt Input.withholds_iff.mp hgoes)]
      exact ih (arguments.append input.name values)

theorem bindInputs_of_failed {input : Input ε σ} {e : ε} (h : input.values s = .error e s')
    (arguments : Arguments) (rest : List (Input ε σ)) :
    bindInputs acceptsMissing arguments (input :: rest) s = .error e s' := by
  rw [bindInputs_cons, h]

theorem bindInputs_of_withholds {input : Input ε σ} {values : List String}
    (h : input.values s = .ok values s') (hwithholds : input.Withholds acceptsMissing values)
    (arguments : Arguments) (rest : List (Input ε σ)) :
    bindInputs acceptsMissing arguments (input :: rest) s = .ok (.error input.name) s' := by
  rw [bindInputs_cons, h]
  exact if_pos (Input.withholds_iff.mpr hwithholds)

/-! ### Calls -/

namespace Registry

/-- A call in which invoking the function is a step of the state, too. -/
def callWith (invoke : RegisteredFunction → Arguments → EStateM ε σ (Except String (List String)))
    (r : Registry) (id : String) (inputs : List (Input ε σ)) : EStateM ε σ CallOutcome :=
  match r.find? id with
  | none => pure .unknown
  | some f => do
    match ← bindInputs f.acceptsMissing .empty inputs with
    | .error parameter => return .withheld parameter
    | .ok arguments => return .returned (← invoke f arguments)

/-- The answer to a call, if evaluating the parameters did not fail: its values or what is wrong
with the function. -/
def answerWith (invoke : RegisteredFunction → Arguments → EStateM ε σ (Except String (List String)))
    (r : Registry) (id : String) (inputs : List (Input ε σ)) :
    EStateM ε σ (Except FunctionError (List String)) :=
  CallOutcome.values id <$> r.callWith invoke id inputs

/-- In a call an invocation leaves no traces. -/
theorem values_call_eq (r : Registry) (id : String) (inputs : List (Input ε σ)) :
    CallOutcome.values id <$> r.call id inputs =
      r.answerWith (fun f arguments => pure (f.run arguments)) id inputs := rfl

variable {r : Registry} {id : String} {f : RegisteredFunction}
  {invoke : RegisteredFunction → Arguments → EStateM ε σ (Except String (List String))}

/-- The answer is a matter of what became of binding the parameters. -/
theorem answerWith_eq (h : r.find? id = some f) (inputs : List (Input ε σ)) (s : σ) :
    r.answerWith invoke id inputs s =
      match bindInputs f.acceptsMissing .empty inputs s with
      | .error e s' => .error e s'
      | .ok (.error _) s' => .ok (.ok []) s'
      | .ok (.ok arguments) s' =>
        (Except.mapError (FunctionError.failed id) <$> invoke f arguments) s' := by
  rw [answerWith, callWith, h]
  show EStateM.map _ (EStateM.bind (bindInputs f.acceptsMissing .empty inputs) _) s = _
  rw [EStateM.map, EStateM.bind]
  cases bindInputs f.acceptsMissing .empty inputs s with
  | error e s' => rfl
  | ok bound s' =>
      cases bound with
      | error parameter => rfl
      | ok arguments =>
          show EStateM.map _ (EStateM.bind (invoke f arguments) _) s' = EStateM.map _ _ s'
          rw [EStateM.map, EStateM.bind, EStateM.map]
          cases invoke f arguments s' with
          | error e s₁ => rfl
          | ok result s₁ => rfl

theorem answerWith_of_find?_eq_none (h : r.find? id = none) (inputs : List (Input ε σ)) (s : σ) :
    r.answerWith invoke id inputs s = .ok (.error (.unknown id)) s := by
  rw [answerWith, callWith, h]
  rfl

/-- When all parameters bind, the function is invoked with what they bound, and its answer is that
of the call. -/
theorem answerWith_of_binds (h : r.find? id = some f)
    (hbinds : Binds f.acceptsMissing inputs s bound s') :
    r.answerWith invoke id inputs s =
      (Except.mapError (FunctionError.failed id) <$>
        invoke f (ValueMap.empty.appendAll bound)) s' := by
  have hbound := bindInputs_of_binds hbinds .empty []
  rw [List.append_nil] at hbound
  rw [answerWith_eq h, hbound]
  rfl

/-- The first parameter that ends the call gives the answer. -/
theorem answerWith_of_stops (h : r.find? id = some f) {before : List (Input ε σ)}
    {input : Input ε σ} {answer : EStateM.Result ε σ (Except FunctionError (List String))}
    (hbinds : Binds f.acceptsMissing before s bound s')
    (hstops : input.Stops f.acceptsMissing s' answer) (after : List (Input ε σ)) :
    r.answerWith invoke id (before ++ input :: after) s = answer := by
  rw [answerWith_eq h, bindInputs_of_binds hbinds]
  cases hstops with
  | failed hvalues => rw [bindInputs_of_failed hvalues]
  | withheld hvalues hwithholds => rw [bindInputs_of_withholds hvalues hwithholds]

/--
**A call evaluates its parameters in order and invokes the function once, or not at all.**  Without
such a function it does nothing and says so.  Otherwise the first parameter that fails or that keeps
the function from being invoked gives the answer, and the call leaves the state as that parameter
did.  If there is none, the function is invoked in the state that the last parameter left, with the
values of all parameters of each name in order, and gives the answer.
-/
theorem answerWith_in_order (r : Registry) (id : String) (inputs : List (Input ε σ)) (s : σ)
    (invoke : RegisteredFunction → Arguments → EStateM ε σ (Except String (List String))) :
    CallOutcome.values id <$> r.call id inputs =
        r.answerWith (fun f arguments => pure (f.run arguments)) id inputs ∧
      (r.find? id = none → r.answerWith invoke id inputs s = .ok (.error (.unknown id)) s) ∧
      ∀ f, r.find? id = some f →
        (∃ before input after bound s₁, inputs = before ++ input :: after ∧
          Binds f.acceptsMissing before s bound s₁ ∧
          input.Stops f.acceptsMissing s₁ (r.answerWith invoke id inputs s)) ∨
        ∃ bound s₁ arguments, Binds f.acceptsMissing inputs s bound s₁ ∧
          Gathers inputs bound arguments ∧
          r.answerWith invoke id inputs s =
            (Except.mapError (FunctionError.failed id) <$> invoke f arguments) s₁ := by
  refine ⟨values_call_eq r id inputs, fun h => answerWith_of_find?_eq_none h inputs s, ?_⟩
  intro f h
  rcases binds_or_stops f.acceptsMissing inputs s with hall | hfirst
  · obtain ⟨bound, s₁, hbinds⟩ := hall
    exact Or.inr ⟨bound, s₁, _, hbinds, hbinds.gathers, answerWith_of_binds h hbinds⟩
  · obtain ⟨before, input, after, bound, s₁, answer, rfl, hbinds, hstops⟩ := hfirst
    refine Or.inl ⟨before, input, after, bound, s₁, rfl, hbinds, ?_⟩
    rw [answerWith_of_stops h hbinds hstops]
    exact hstops

end Registry

/-! ### A desk where names are joined -/

/-- A parameter that leaves its name in a log when it is evaluated. -/
def loggedInput (name : String) (values : List String) : Input FunctionError (List String) where
  name := name
  required := false
  values := do
    modify (· ++ [name])
    return values

/-- An invocation that leaves a mark in the log. -/
def loggedRun (f : RegisteredFunction) (arguments : Arguments) :
    EStateM FunctionError (List String) (Except String (List String)) := do
  modify (· ++ ["!"])
  return f.run arguments

/-- A function that joins the first value of `a` with the first of `b`. -/
def joiner : RegisteredFunction := StandardFunction.concat.register false

/-- The desk knows this function and no other. -/
def desk : Registry := Registry.insert {} "ex:join" joiner

/-- A first name that is bound twice, the first time to nothing. -/
def slips : List (Input FunctionError (List String)) :=
  [loggedInput "a" [], loggedInput "b" ["y"], loggedInput "a" ["x", "z"]]

theorem desk_answerWith_in_order :
    desk.find? "ex:split" = none ∧
      desk.answerWith loggedRun "ex:split" slips [] = .ok (.error (.unknown "ex:split")) [] ∧
      desk.find? "ex:join" = some joiner ∧
      ∃ arguments : Arguments, arguments.get "a" = ["x", "z"] ∧ arguments.get "b" = ["y"] ∧
        desk.answerWith loggedRun "ex:join" slips [] =
          (Except.mapError (FunctionError.failed "ex:join") <$> loggedRun joiner arguments)
            ["a", "b", "a"] := by
  obtain ⟨-, hunknown, -⟩ := Registry.answerWith_in_order desk "ex:split" slips [] loggedRun
  obtain ⟨-, -, hknown⟩ := Registry.answerWith_in_order desk "ex:join" slips [] loggedRun
  have hslips : Binds false slips [] [("a", []), ("b", ["y"]), ("a", ["x", "z"])]
      ["a", "b", "a"] :=
    .cons rfl (by simp [Input.Withholds, loggedInput])
      (.cons rfl (by simp [Input.Withholds]) (.cons rfl (by simp [Input.Withholds]) (.nil _)))
  refine ⟨rfl, hunknown rfl, rfl, ?_⟩
  rcases hknown joiner rfl with hstops | hbinds
  · -- The call has values, which no parameter that stops it would leave.
    obtain ⟨before, input, after, bound, s₁, -, -, hstops⟩ := hstops
    have hanswer : desk.answerWith loggedRun "ex:join" slips [] =
        .ok (.ok ["xy"]) ["a", "b", "a", "!"] := by rfl
    rw [hanswer] at hstops
    cases hstops
  · obtain ⟨bound, s₁, arguments, hbinds, hgathers, hanswer⟩ := hbinds
    obtain ⟨rfl, rfl⟩ := hbinds.unique hslips
    exact ⟨arguments, hgathers.values "a", hgathers.values "b", hanswer⟩

end RdfMapping
