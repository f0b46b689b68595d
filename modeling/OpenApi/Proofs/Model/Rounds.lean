import OpenApi.Model.Api
import OpenApi.Proofs.Type.Resolution

set_option autoImplicit false

namespace OpenApi.Api

open Resolution

section Invariant

-- `I` is the invariant, and `Q` what is known of a type from when it is taken until it is added.
variable (c : Catalog) (I : Registry → Api → Prop) (Q : Api → SynthesizedType → Prop)
  (adds : ∀ api t, Q api t → Ensures (I · api) (api.addType c t.name none t.schema t.kind)
    fun r api' => I r api' ∧ ∀ u, Q api u → Q api' u)

include adds

theorem synthesized_invariant (types : List SynthesizedType) (api : Api)
    (each : ∀ t ∈ types, Q api t) : Ensures (I · api) (api.addSynthesized c types) I := by
  induction types generalizing api with
  | nil => exact ensures_pure _ _ api fun _ holds => holds
  | cons t rest ih =>
      obtain ⟨first, others⟩ := List.forall_mem_cons.mp each
      refine ensures_bind _ _ _ _ _ (adds api t first) fun api' r api'' ⟨holds, stillKnown⟩ => ?_
      exact ih api' (fun u member => stillKnown u (others u member)) r api'' holds

theorem rounds_invariant
    (takes : ∀ r api, I r api → I (after takePending r) api ∧ ∀ t ∈ r.pending, Q api t)
    (rounds : Nat) (api : Api) : Ensures (I · api) (addRounds c rounds api)
      fun r outcome => ∀ api' ∈ outcome, I r api' := by
  induction rounds generalizing api with
  | zero =>
      intro r outcome holds found api' present
      obtain rfl : (if r.pending.isEmpty then some api else none) = outcome := Except.ok.inj found
      obtain ⟨_, same⟩ := Option.ite_none_right_eq_some.mp present
      cases same
      exact holds
  | succ rounds ih =>
      have taken : Ensures (I · api) takePending fun r pending =>
          I r api ∧ ∀ t ∈ pending, Q api t := by
        intro r pending holds found
        obtain rfl : r.pending = pending := Except.ok.inj found
        exact takes r api holds
      refine ensures_bind _ _ _ _ _ taken fun pending => ?_
      by_cases nothing : pending.isEmpty = true
      · rw [if_pos nothing]
        refine ensures_pure _ _ _ fun _ ⟨holds, _⟩ api' present => ?_
        cases present
        exact holds
      · rw [if_neg nothing]
        refine ensures_bind I _ _ _ _ (fun r api' ⟨holds, each⟩ => ?_) fun api' => ih api'
        exact synthesized_invariant c I Q adds pending api each r api' holds

end Invariant

theorem rounds_keep (c : Catalog) (P : Api → Prop)
    (kept : ∀ (api : Api) (name : String) (s : Schema) (kind : ComponentKind), P api →
      Ensures (fun _ => True) (api.addType c name none s kind) fun _ api' => P api')
    (rounds : Nat) (api : Api) (holds : P api) :
    Ensures (fun _ => True) (addRounds c rounds api) fun _ outcome => ∀ api' ∈ outcome, P api' := by
  have adds (api : Api) (t : SynthesizedType) (_ : True) : Ensures (fun _ => P api)
      (api.addType c t.name none t.schema t.kind)
        fun _ api' => P api' ∧ ∀ _ : SynthesizedType, True → True := fun r api' holds found =>
    ⟨kept api t.name t.schema t.kind holds r api' trivial found, fun _ _ => trivial⟩
  intro r outcome _ found
  exact rounds_invariant c (fun _ => P) (fun _ _ => True) adds
    (fun _ _ holds => ⟨holds, fun _ _ => trivial⟩) rounds api r outcome holds found

theorem operations_keep (c : Catalog) (P : Api → Prop) (api : Api)
    (kept : ∀ results failures handlers clients,
      P { api with results, failures, handlers, clients }) :
    Ensures (fun _ => True) (api.addOperations c) fun _ api' => P api' := by
  apply ensures_later
  intro operations
  refine ensures_bind_lift _ _ _ _ fun failures _ => ?_
  exact ensures_pure _ _ _ fun _ _ => kept _ failures _ _

section Making

variable (c : Catalog) (P : List Component → Api → Prop)
  (adds : ∀ done api, ∀ d ∈ c.components, P done api →
    Ensures (fun _ => True) (api.addType c d.typeName (some d.name) d.schema d.kind)
      fun _ api' => P (done ++ [d]) api')

include adds

theorem components_keep (components : List Component) (members : components ⊆ c.components)
    (done : List Component) (api : Api) (holds : P done api) :
    Ensures (fun _ => True) (api.addComponents c components)
      fun _ api' => P (done ++ components) api' := by
  induction components generalizing done api with
  | nil => exact ensures_pure _ _ api fun _ _ => by simpa using holds
  | cons d rest ih =>
      rw [List.append_cons]
      have first := adds done api d (members List.mem_cons_self) holds
      refine ensures_bind _ _ _ _ _ first fun api' r api'' holdsFirst => ?_
      have inRest : rest ⊆ c.components := fun d' later => members (List.mem_cons_of_mem d later)
      exact ih inRest (done ++ [d]) api' holdsFirst r api'' trivial

theorem resolution_keeps (start : ∀ title version «namespace»,
      P [] { title, version, «namespace» })
    (operations : ∀ api, P c.components api → ∀ results failures handlers clients,
      P c.components { api with results, failures, handlers, clients })
    (synthesizes : ∀ (api : Api) (name : String) (s : Schema) (kind : ComponentKind),
      P c.components api → Ensures (fun _ => True) (api.addType c name none s kind)
        fun _ api' => P c.components api')
    (rounds : Nat) : Ensures (fun _ => True) (resolution c rounds)
      fun _ outcome => ∀ api ∈ outcome, P c.components api := by
  have added := components_keep c P adds c.components (List.Subset.refl _) [] _
    (start c.document.title c.document.apiVersion c.config.namespace)
  refine ensures_bind _ _ _ _ _ added fun api r outcome holds => ?_
  have before := operations_keep c (P c.components) api (operations api holds)
  have finish : Ensures (fun _ => True) (do addRounds c rounds (← api.addOperations c))
      fun _ outcome => ∀ api' ∈ outcome, P c.components api' :=
    ensures_known _ _ _ _ _ before fun api' => rounds_keep c _ synthesizes rounds api'
  exact finish r outcome trivial

end Making

end OpenApi.Api
