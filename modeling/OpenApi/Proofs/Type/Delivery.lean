import OpenApi.Proofs.Type.Run

set_option autoImplicit false

namespace OpenApi

def Call.isElementary : Call → Bool
  | .synthesize .. => true
  | .takePending => true
  | _ => false

theorem Call.synthesis_elementary (call : Call) (synthesis : call.isSynthesis = true) :
    call.isElementary = true := by
  cases call with
  | synthesize => rfl
  | resolve | resolveRest | takePending => cases synthesis

namespace Catalog

open Resolution

def handed (r : Registry) : Call → List SynthesizedType
  | .takePending => ((answer Resolution.takePending r).toOption).getD []
  | _ => []

def added (c : Catalog) (r : Registry) : Call → List SynthesizedType
  | .synthesize hint s kind =>
    match answer (c.synthesize hint s.schema kind) r with
    | .ok (some name) => if name ∈ r.names then [] else [⟨name, s.schema, kind⟩]
    | _ => []
  | _ => []

def collected (c : Catalog) (shown : Registry → Call → List SynthesizedType) :
    Registry → List Call → List SynthesizedType
  | _, [] => []
  | r, call :: rest => shown r call ++ collected c shown (c.call r call) rest

def handedOut (c : Catalog) (calls : List Call) : List SynthesizedType :=
  c.collected handed {} calls

def registered (c : Catalog) (calls : List Call) : List SynthesizedType :=
  c.collected c.added {} calls

section Delivery

variable (c : Catalog)

theorem collected_append (shown : Registry → Call → List SynthesizedType) (first second : List Call)
    (r : Registry) : c.collected shown r (first ++ second)
      = c.collected shown r first ++ c.collected shown (c.run r first) second := by
  induction first generalizing r with
  | nil => rfl
  | cons call rest ih =>
      rw [List.cons_append, collected, collected, ih, List.append_assoc]
      rfl

theorem handed_nothing (syntheses : List Call) (all : ∀ k ∈ syntheses, k.isSynthesis = true)
    (r : Registry) : c.collected handed r syntheses = [] := by
  induction syntheses generalizing r with
  | nil => rfl
  | cons call rest ih =>
      rw [List.forall_mem_cons] at all
      have none : handed r call = [] := by
        cases call with
        | takePending => cases all.1
        | synthesize | resolve | resolveRest => rfl
      rw [collected, none, ih all.2, List.nil_append]

theorem register_adds (reserved : List String) (base : String) (s : Schema) (kind : ComponentKind)
    (r : Registry) :
    let (name, r') := Registry.register reserved base s kind r
    r'.types = r.types ++ if name ∈ r.names then [] else [⟨name, s, kind⟩] := by
  have step := Registry.register_registered reserved base s kind r
  generalize Registry.register reserved base s kind r = outcome at step ⊢
  cases step with
  | reused k j _ _ _ here =>
      have known : Naming.candidate base j ∈ r.names := by
        by_contra absent
        rw [Registry.stands_for_eq, (Registry.stored_none_iff r _).mpr absent] at here
        cases here
      simp [known]
  | added k first _ =>
      have fresh : Naming.candidate base k ∉ r.names := fun member =>
        first.free (List.mem_append_right _ member)
      dsimp only
      rw [Registry.types_added, if_neg fresh]

theorem call_adds (r : Registry) (call : Call) (elementary : call.isElementary = true) :
    (c.call r call).types = r.types ++ c.added r call := by
  cases call with
  | resolve | resolveRest => cases elementary
  | takePending => exact (pending_taken_types r).trans (List.append_nil r.types).symm
  | synthesize hint s kind =>
      rw [Catalog.call, synthesized, added]
      rcases c.synthesize_cases hint s.schema kind with unnamed | ⟨base, synthesizes⟩
      · rw [unnamed]
        exact (List.append_nil r.types).symm
      · rw [synthesizes]
        exact register_adds c.typeNames base s.schema kind r

theorem run_adds (calls : List Call) (elementary : ∀ k ∈ calls, k.isElementary = true)
    (r : Registry) : (c.run r calls).types = r.types ++ c.collected c.added r calls := by
  induction calls generalizing r with
  | nil => exact (List.append_nil r.types).symm
  | cons call rest ih =>
      rw [List.forall_mem_cons] at elementary
      have remaining := ih elementary.2 (c.call r call)
      rw [collected, ← List.append_assoc, ← call_adds c r call elementary.1]
      exact remaining

variable (components : ∀ d ∈ c.components, d.schema.isKeyed = true)

include components

theorem call_hands_out (r : Registry) (call : Call) :
    (c.call r call).taken = r.taken ++ handed r call := by
  cases call with
  | resolve s hint =>
      have registers := (resolve_keyed c components s hint).registers r
      exact (registers_taken c _ r _ registers).trans (List.append_nil r.taken).symm
  | resolveRest s hint =>
      have registers := (resolve_rest_keyed c components s hint).registers r
      exact (registers_taken c _ r _ registers).trans (List.append_nil r.taken).symm
  | synthesize hint s kind =>
      exact (c.synthesized_taken hint s.schema kind r).trans (List.append_nil r.taken).symm
  | takePending => rfl

theorem run_hands_out (calls : List Call) (r : Registry) :
    (c.run r calls).taken = r.taken ++ c.collected handed r calls := by
  induction calls generalizing r with
  | nil => exact (List.append_nil r.taken).symm
  | cons call rest ih =>
      have remaining := ih (c.call r call)
      rw [collected, ← List.append_assoc, ← call_hands_out c components r call]
      exact remaining

theorem run_delivers (calls : List Call) :
    c.handedOut calls ++ (c.run {} calls).pending = (c.run {} calls).types := by
  rw [Registry.types, run_hands_out c components calls {}]
  rfl

-- A call that resolves hands out nothing, so it may be replaced by the syntheses it consists of.
theorem run_elementary (calls : List Call) (r : Registry) :
    ∃ steps : List Call, (∀ k ∈ steps, k.isElementary = true) ∧ c.run r steps = c.run r calls
      ∧ c.collected handed r steps = c.collected handed r calls := by
  induction calls generalizing r with
  | nil => exact ⟨[], List.forall_mem_nil _, rfl, rfl⟩
  | cons call rest ih =>
      obtain ⟨steps, elementary, sameState, sameHanded⟩ := ih (c.call r call)
      by_cases takes : call = .takePending
      · refine ⟨call :: steps, List.forall_mem_cons.mpr ⟨takes ▸ rfl, elementary⟩, sameState, ?_⟩
        rw [collected, collected, sameHanded]
      · obtain ⟨inner, syntheses, sameCall⟩ := call_runs c components r call takes
        have nothing : handed r call = [] := by
          cases call with
          | takePending => exact absurd rfl takes
          | synthesize | resolve | resolveRest => rfl
        refine ⟨inner ++ steps, ?_, ?_, ?_⟩
        · exact List.forall_mem_append.mpr
            ⟨fun k member => k.synthesis_elementary (syntheses k member), elementary⟩
        · rw [run, List.foldl_append]
          change c.run (c.run r inner) steps = c.run (c.call r call) rest
          rw [← sameCall, sameState]
        · rw [collected_append, handed_nothing c inner syntheses, ← sameCall, sameHanded, collected,
            nothing]

end Delivery

end Catalog

end OpenApi
