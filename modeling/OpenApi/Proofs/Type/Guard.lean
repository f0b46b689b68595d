import OpenApi.Proofs.Component.Cycle
import OpenApi.Proofs.Type.Run

set_option autoImplicit false

namespace OpenApi

structure Guard where
  registry : Registry := {}
  entered : List String := []

namespace Guard

def enter (name : String) (g : Guard) : Guard := { g with entered := name :: g.entered }

def leave (g : Guard) : Guard := { g with entered := g.entered.tail }

end Guard

-- What resolves with a stack. It has no result if it does not end with the depth that it has.
abbrev Guarded := ExceptT Error (StateT Guard Option)

namespace Guarded

variable {α β : Type}

def runOn (x : Guarded α) (g : Guard) : Option (Except Error α × Guard) := x.run.run g

def endless : Guarded α := ExceptT.mk fun _ => none

-- The computation with an alias on the stack, which is taken off again also where it fails.
def within (name : String) (x : Guarded α) : Guarded α := ExceptT.mk do
  modify (Guard.enter name)
  let result ← x.run
  modify Guard.leave
  pure result

instance : MonadLift Resolution Guarded where
  monadLift x := ExceptT.mk fun g =>
    some (Resolution.answer x g.registry, { g with registry := Resolution.after x g.registry })

theorem run_bind (x : Guarded α) (f : α → Guarded β) (g : Guard) : (x >>= f).runOn g =
    (x.runOn g).bind fun
      | (.ok a, g') => (f a).runOn g'
      | (.error e, g') => some (.error e, g') := by
  simp only [runOn, ExceptT.run_bind, StateT.run_bind]
  rcases x.run.run g with _ | ⟨_ | _, _⟩ <;> rfl

theorem run_within (name : String) (x : Guarded α) (g : Guard) : (within name x).runOn g =
    (x.runOn (g.enter name)).map fun result => (result.1, result.2.leave) := by
  change (x.runOn (g.enter name)).bind _ = _
  cases x.runOn (g.enter name) with
  | none => rfl
  | some result => rfl

end Guarded

namespace Catalog

open Relation Resolution

def enterGuarded (c : Catalog) : Nat → Component → Guarded ResolvedType
  | 0, _ => Guarded.endless
  | depth + 1, entered => do
    if (← getThe Guard).entered.contains entered.name then
      throw (.circularReference (.alias entered.name))
    else
      Guarded.within entered.name
        (resolveWith c (enterGuarded c depth) entered.schema (some entered.typeName))

def resolveGuarded (c : Catalog) (depth : Nat) (s : Schema) (hint : Option String) :
    Guarded ResolvedType :=
  resolveWith c (c.enterGuarded depth) s hint

def resolveRestGuarded (c : Catalog) (depth : Nat) (s : Schema) (hint : Option String) :
    Guarded (Option ResolvedType) :=
  restType s.items (resolveOrAny c (c.enterGuarded depth) s.items) hint

def guardedCall (c : Catalog) (depth : Nat) (g : Guard) : Call → Option Guard
  | .resolve s hint => ((c.resolveGuarded depth s.schema hint).runOn g).map (·.2)
  | .resolveRest s hint => ((c.resolveRestGuarded depth s.schema hint).runOn g).map (·.2)
  | .synthesize hint s kind =>
    (Guarded.runOn (liftM (c.synthesize hint s.schema kind)) g).map (·.2)
  | .takePending => (Guarded.runOn (liftM Resolution.takePending) g).map (·.2)

def guardedRun (c : Catalog) (depth : Nat) (g : Guard) (calls : List Call) : Option Guard :=
  calls.foldlM (c.guardedCall depth) g

theorem run_enter (c : Catalog) (depth : Nat) (d : Component) (g : Guard) :
    (c.enterGuarded (depth + 1) d).runOn g =
      if g.entered.contains d.name then some (.error (.circularReference (.alias d.name)), g)
      else (Guarded.within d.name
        (resolveWith c (c.enterGuarded depth) d.schema (some d.typeName))).runOn g := by
  rw [enterGuarded, Guarded.run_bind]
  change (if g.entered.contains d.name = true then _ else _ : Guarded ResolvedType).runOn g = _
  split <;> rfl

def AliasRefers (c : Catalog) (a b : Component) : Prop :=
  c.component? a.name = some a ∧ a.kind = .alias ∧
    ∃ reference, a.schema.Contains reference ∧ c.target reference = .ok b

inductive Unresolvable (c : Catalog) : Error → Prop
  | missing (reference : String)
      (absent : c.target reference = .error (.unresolvedReference reference)) :
      Unresolvable c (.unresolvedReference reference)
  | circular (d : Component) (around : TransGen c.AliasRefers d d) :
      Unresolvable c (.circularReference (.alias d.name))

-- With this stack the guarded computation does what the other does and leaves the stack as it was.
structure Mirrors (c : Catalog) (stack : List String) {α : Type} (x : Guarded α)
    (x' : Resolution α) : Prop where
  agrees : ∀ r, x.runOn ⟨r, stack⟩ = some (answer x' r, ⟨after x' r, stack⟩)
  fails : ∀ r e, answer x' r = .error e → c.Unresolvable e

section Mirrors

variable (c : Catalog) (stack : List String) {α β : Type}

theorem mirrors_lift (x : Resolution α) (fails : ∀ r e, answer x r = .error e → c.Unresolvable e) :
    c.Mirrors stack (liftM x) x where
  agrees _ := rfl
  fails := fails

theorem mirrors_pure (a : α) : c.Mirrors stack (pure a) (pure a) where
  agrees _ := rfl
  fails _ _ failed := by cases failed

theorem mirrors_bind (x : Guarded α) (x' : Resolution α) (f : α → Guarded β)
    (f' : α → Resolution β) (first : c.Mirrors stack x x')
    (second : ∀ a, c.Mirrors stack (f a) (f' a)) : c.Mirrors stack (x >>= f) (x' >>= f') where
  agrees r := by
    rw [Guarded.run_bind, first.agrees, answer_bind, after_bind]
    cases answer x' r with
    | error e => rfl
    | ok a => exact (second a).agrees (after x' r)
  fails r e failed := by
    rw [answer_bind] at failed
    cases found : answer x' r with
    | error e' =>
        rw [found] at failed
        obtain rfl : e' = e := Except.error.inj failed
        exact first.fails r _ found
    | ok a =>
        rw [found] at failed
        exact (second a).fails _ e failed

theorem synthesize_answers (hint : Option String) (s : Schema) (kind : ComponentKind)
    (r : Registry) (e : Error) : answer (c.synthesize hint s kind) r ≠ .error e := by
  rcases c.synthesize_cases hint s kind with unnamed | ⟨base, named⟩
  · rw [unnamed]
    exact fun failed => by cases failed
  · rw [named]
    exact fun failed => by cases failed

theorem target_unresolvable (reference : String) (e : Error)
    (failed : c.target reference = .error e) : c.Unresolvable e := by
  have absent := failed
  rw [target] at failed
  split at failed
  · cases failed
  · cases failed
    exact .missing reference absent

theorem mirrors_target (reference : String) (f : Component → Guarded β)
    (f' : Component → Resolution β)
    (found : ∀ d, c.target reference = .ok d → c.Mirrors stack (f d) (f' d)) :
    c.Mirrors stack (liftM (liftM (c.target reference) : Resolution Component) >>= f)
      (liftM (c.target reference) >>= f') := by
  cases resolved : c.target reference with
  | error e =>
      refine mirrors_lift c stack (throw e) fun r e' failed => ?_
      obtain rfl : e = e' := Except.error.inj failed
      exact target_unresolvable c reference e resolved
  | ok d => exact found d resolved

def guarding : c.Simulation Guarded Resolution where
  Related := c.Mirrors stack
  pure := mirrors_pure c stack
  bind := mirrors_bind c stack
  synthesize hint s kind := mirrors_lift c stack (c.synthesize hint s kind)
    fun r e failed => absurd failed (synthesize_answers c hint s kind r e)
  target := mirrors_target c stack

end Mirrors

section Entering

variable (c : Catalog)

theorem alias_trail_cycle (trail : List String) (depth : Nat) (d : Component)
    (found : c.component? d.name = some d) (isTrail : c.Trail c.AliasRefers trail depth d)
    (again : d.name ∈ trail) : TransGen c.AliasRefers d d := by
  obtain ⟨a, _, isName, path⟩ := isTrail.leads d.name again
  obtain ⟨b, first, _⟩ := TransGen.head'_iff.mp path
  have same := first.1
  rw [isName, found] at same
  cases same
  exact path

theorem enter_again (depth : Nat) (trail : List String) (d : Component) (again : d.name ∈ trail) :
    c.enterAlias depth trail d = throw (.circularReference (.alias d.name)) := by
  cases depth with
  | zero => rfl
  | succ depth => rw [enterAlias, if_pos (List.contains_iff_mem.mpr again)]

theorem enter_mirrors (depth depth' : Nat) (trail : List String) (d : Component)
    (found : c.component? d.name = some d) (isAlias : d.kind = .alias)
    (isTrail : c.Trail c.AliasRefers trail depth' d)
    (enough : c.components.length < trail.length + depth) :
    c.Mirrors trail (c.enterGuarded depth d) (c.enterAlias depth' trail d) := by
  have member := (c.component_mem d.name d found).1
  induction depth generalizing depth' trail d with
  | zero =>
      -- the aliases on the stack are all different, so there are no more of them than components
      have short := trail_length c c.AliasRefers trail depth' d isTrail
      omega
  | succ depth ih =>
      by_cases again : d.name ∈ trail
      · rw [enter_again c depth' trail d again]
        constructor
        · intro r
          rw [run_enter, if_pos (List.contains_iff_mem.mpr again)]
          rfl
        · intro r e failed
          obtain rfl : _ = e := Except.error.inj failed
          exact .circular d (alias_trail_cycle c trail depth' d found isTrail again)
      · have fresh : ¬ trail.contains d.name = true := fun inTrail =>
          again (List.contains_iff_mem.mp inTrail)
        cases depth' with
        | zero => exact absurd (trail_full c c.AliasRefers trail d member isTrail) again
        | succ depth' =>
            have entered : ∀ reference b, d.schema.Contains reference →
                c.target reference = .ok b → b.kind = .alias → c.Mirrors (d.name :: trail)
                  (c.enterGuarded depth b) (c.enterAlias depth' (d.name :: trail) b) := by
              intro reference b contains resolved isAlias'
              have refers : c.AliasRefers d b := ⟨found, isAlias, reference, contains, resolved⟩
              have found' := target_found c reference b resolved
              have next := trail_step c c.AliasRefers trail depth' d b member again refers isTrail
              refine ih depth' _ b found' isAlias' next ?_ (c.component_mem b.name b found').1
              rw [List.length_cons]
              omega
            have inner := resolve_with_related c (guarding c (d.name :: trail)) _ _ d.schema entered
              (some d.typeName)
            rw [enterAlias, if_neg fresh]
            constructor
            · intro r
              rw [run_enter, if_neg fresh, Guarded.run_within, Guard.enter, inner.agrees r]
              rfl
            · exact inner.fails

variable (depth : Nat) (deep : c.components.length < depth)

include deep

theorem resolve_mirrors (s : Schema) (hint : Option String) :
    c.Mirrors [] (c.resolveGuarded depth s hint) (c.resolve s hint) := by
  refine resolve_with_related c (guarding c []) _ _ s (fun reference d _ resolved isAlias => ?_) hint
  exact enter_mirrors c depth _ [] d (target_found c reference d resolved) isAlias
    (trail_start c c.AliasRefers d) (by simpa using deep)

theorem resolve_rest_mirrors (s : Schema) (hint : Option String) :
    c.Mirrors [] (c.resolveRestGuarded depth s hint) (c.resolveRest s hint) := by
  refine rest_type_related c (guarding c []) hint _ _ (fun name => ?_) s.items
  exact resolve_or_any_related c (guarding c []) _ _ s.items
    (fun item _ => resolve_mirrors c depth deep item) name

theorem call_guarded (r : Registry) (call : Call) :
    c.guardedCall depth ⟨r, []⟩ call = some ⟨c.call r call, []⟩ := by
  cases call with
  | resolve s hint =>
      rw [guardedCall, (resolve_mirrors c depth deep s.schema hint).agrees]
      rfl
  | resolveRest s hint =>
      rw [guardedCall, (resolve_rest_mirrors c depth deep s.schema hint).agrees]
      rfl
  | synthesize hint s kind => rfl
  | takePending => rfl

theorem run_guarded (calls : List Call) (r : Registry) :
    c.guardedRun depth ⟨r, []⟩ calls = some ⟨c.run r calls, []⟩ := by
  induction calls generalizing r with
  | nil => rfl
  | cons first rest ih =>
      rw [guardedRun, List.foldlM_cons, call_guarded c depth deep r first]
      exact ih (c.call r first)

end Entering

theorem acyclic_resolvable (c : Catalog) (acyclic : ∀ d, ¬ TransGen c.AliasRefers d d)
    (cycle : Cycle) : ¬ c.Unresolvable (.circularReference cycle) := by
  intro failure
  cases failure with
  | circular d around => exact acyclic d around

def nameList : Document where
  version := .v31
  contents := { components := { schemas := [
    ("name", { type := some (.single "string") }),
    ("names", { type := some (.single "array")
                items := some (.schema { reference := some "#/components/schemas/name" }) })] } }

theorem name_list_refers (a b : Component) (refers : (ofDocument nameList {}).AliasRefers a b) :
    a.name = "names" ∧ b.name = "name" := by
  obtain ⟨found, _, reference, contains, resolved⟩ := refers
  have isTarget : (ofDocument nameList {}).target "#/components/schemas/name"
      = .ok ⟨"name", "Name", .alias, { type := some (.single "string") }⟩ := by rfl
  have member := (component_mem _ a.name a found).1
  have components : (ofDocument nameList {}).components = [
      ⟨"name", "Name", .alias, { type := some (.single "string") }⟩,
      ⟨"names", "Names", .alias,
        { type := some (.single "array")
          items := some (.schema { reference := some "#/components/schemas/name" }) }⟩] := by rfl
  rw [components, List.mem_pair] at member
  rcases member with rfl | rfl
  · rcases (Schema.contains_iff _ _).mp contains with refers | ⟨child, inside, _⟩
    · cases refers
    · cases inside
  · rcases (Schema.contains_iff _ _).mp contains with refers | ⟨child, inside, below⟩
    · cases refers
    · rw [List.mem_singleton.mp inside] at below
      rcases (Schema.contains_iff _ _).mp below with refers | ⟨child, inside, _⟩
      · obtain rfl := Option.some.inj refers
        rw [isTarget] at resolved
        obtain rfl := Except.ok.inj resolved
        exact ⟨rfl, rfl⟩
      · cases inside

/-- The stack of aliases is empty after every call, also after one that fails, and no call needs more
depth than there are components, however the aliases refer to one another. Where no alias refers back
to itself no call reports a cycle, whatever was called before. -/
theorem alias_stack_restored (document : Document) (config : Config) (calls : List Call)
    (depth : Nat) (deep : (ofDocument document config).components.length < depth) :
    let c := ofDocument document config
    let r := c.run {} calls
    c.guardedRun depth {} calls = some ⟨r, []⟩
      ∧ (∀ s hint, (c.resolveGuarded depth s hint).runOn ⟨r, []⟩
          = some (answer (c.resolve s hint) r, ⟨after (c.resolve s hint) r, []⟩))
      ∧ (∀ s hint, (c.resolveRestGuarded depth s hint).runOn ⟨r, []⟩
          = some (answer (c.resolveRest s hint) r, ⟨after (c.resolveRest s hint) r, []⟩))
      ∧ ((∀ d, ¬ TransGen c.AliasRefers d d) → ∀ s hint cycle,
          answer (c.resolve s hint) r ≠ .error (.circularReference cycle)
            ∧ answer (c.resolveRest s hint) r ≠ .error (.circularReference cycle)) := by
  intro c r
  have whole := resolve_mirrors c depth deep
  have rest := resolve_rest_mirrors c depth deep
  refine ⟨run_guarded c depth deep calls {}, ?_, ?_, ?_⟩
  · exact fun s hint => (whole s hint).agrees r
  · exact fun s hint => (rest s hint).agrees r
  · intro acyclic s hint cycle
    have impossible := acyclic_resolvable c acyclic cycle
    constructor
    · exact fun failed => impossible ((whole s hint).fails r _ failed)
    · exact fun failed => impossible ((rest s hint).fails r _ failed)

theorem name_list_restored :
    let c := ofDocument nameList {}
    let missing : KeyedSchema := ⟨{ reference := some "#/components/schemas/nick" }, by decide⟩
    let names : Schema := { reference := some "#/components/schemas/names" }
    let r := c.run {} [.resolve missing none]
    c.guardedRun 3 {} [.resolve missing none] = some ⟨r, []⟩
      ∧ (∃ t, (c.resolveGuarded 3 names none).runOn ⟨r, []⟩ = some (.ok t, ⟨r, []⟩))
      ∧ ∀ cycle, answer (c.resolve names none) r ≠ .error (.circularReference cycle) := by
  intro c missing names r
  have restored := alias_stack_restored nameList {} [.resolve missing none] 3 (by decide)
  have acyclic : ∀ d, ¬ TransGen c.AliasRefers d d := by
    intro d around
    obtain ⟨b, first, _⟩ := TransGen.head'_iff.mp around
    obtain ⟨a, _, last⟩ := TransGen.tail'_iff.mp around
    have isList := (name_list_refers d b first).1
    have isName := (name_list_refers a d last).2
    rw [isList] at isName
    exact absurd isName (by decide)
  exact ⟨restored.1, ⟨_, restored.2.1 names none⟩,
    fun cycle => (restored.2.2.2 acyclic names none cycle).1⟩

end Catalog

end OpenApi
