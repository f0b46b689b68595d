import OpenApi.Proofs.Http.Path
import OpenApi.Proofs.Model.Coverage
import OpenApi.Proofs.Model.Parameter

set_option autoImplicit false

namespace OpenApi

open Resolution

namespace ParameterModel

structure Fills (path : String) (models : List ParameterModel) : Prop where
  keys : (models.map key).Nodup
  names : (models.map (·.name)).Nodup
  present : ∀ name ∈ Naming.placeholders path, (name, .path) ∈ models.map key
  required : ∀ m ∈ models, m.location = .path → m.required = true

theorem parameters_fill (c : Catalog) (operation : String) (entry : OperationEntry) :
    Ensures (fun _ => True) (ofEntry c operation entry) fun _ models => Fills entry.path models := by
  intro r models _ made
  have named := parameters_named c operation entry r models trivial made
  obtain ⟨_, _, _, rfl, _, merges⟩ := parameters_merge c operation entry r models made
  exact ⟨merges.keys_distinct, (List.nodup_cons.mp named.distinct).2, merges.placeholder_present,
    merges.path_required⟩

structure OnlyPath (models : List ParameterModel) (name wireName : String) (m : ParameterModel) :
    Prop where
  name : models.filter (·.name == name) = [m]
  key : models.filter (·.key == (wireName, .path)) = [m]
  location : m.location = .path
  wireName : m.wireName = wireName
  required : m.required = true

end ParameterModel

theorem only_of_distinct {α β : Type} [BEq β] [LawfulBEq β] (f : α → β) (xs : List α)
    (distinct : (xs.map f).Nodup) (x : α) (member : x ∈ xs) : xs.filter (f · == f x) = [x] := by
  induction xs with
  | nil => cases member
  | cons first rest ih =>
      obtain ⟨absent, restDistinct⟩ := List.nodup_cons.mp distinct
      rcases List.mem_cons.mp member with rfl | later
      · have none : rest.filter (f · == f x) = [] := List.filter_eq_nil_iff.mpr fun y inRest same =>
          absent (List.mem_map.mpr ⟨y, inRest, eq_of_beq same⟩)
        rw [List.filter_cons, if_pos (beq_self_eq_true (f x)), none]
      · have other : f first ≠ f x := fun same => absent (same ▸ List.mem_map_of_mem later)
        rw [List.filter_cons_of_neg (by simpa using other), ih restDistinct later]

theorem ParameterModel.segment_filled (path : String) (models : List ParameterModel)
    (fills : Fills path models) (name wireName : String)
    (member : .parameter name wireName ∈ PathSegment.ofTemplate path
      ((models.filter (·.location == .path)).map fun p => (p.wireName, p.name))) :
    ∃ m, OnlyPath models name wireName m := by
  obtain ⟨isPlaceholder, named⟩ := PathSegment.parameter_mem _ path name wireName member
  let identifiers := (models.filter (·.location == .path)).map fun p => (p.wireName, p.name)
  -- the first path parameter with the wire name gives the segment its name
  have isKey : wireName ∈ Assoc.keys identifiers := by
    obtain ⟨m, isModel, isKey⟩ := List.mem_map.mp (fills.present wireName isPlaceholder)
    obtain ⟨rfl, location⟩ := Prod.mk.inj isKey
    have isPath : m ∈ models.filter (·.location == .path) :=
      List.mem_filter.mpr ⟨isModel, beq_iff_eq.mpr location⟩
    exact Assoc.key_mem identifiers (m.wireName, m.name) (List.mem_map_of_mem isPath)
  obtain ⟨identifier, found⟩ := Assoc.lookup_of_key identifiers wireName isKey
  rw [found, Option.getD_some] at named
  obtain ⟨m, isPath, isEntry⟩ := List.mem_map.mp (Assoc.mem_of_lookup _ _ _ found)
  obtain ⟨rfl, rfl⟩ := Prod.mk.inj isEntry
  obtain ⟨isModel, location⟩ := List.mem_filter.mp isPath
  have inPath := eq_of_beq location
  have key : m.key = (m.wireName, .path) := Prod.ext rfl inPath
  refine ⟨m, ?_, ?_, inPath, rfl, fills.required m isModel inPath⟩
  · rw [named]
    exact only_of_distinct (·.name) models fills.names m isModel
  · rw [← key]
    exact only_of_distinct ParameterModel.key models fills.keys m isModel

theorem OperationModel.operation_fills (c : Catalog) (entry : OperationEntry) :
    Ensures (fun _ => True) (ofEntry c entry.name entry)
      fun _ o => ParameterModel.Fills o.path o.parameters := by
  intro r o _ made
  have fills := parameters_known c entry.name entry _
    (ParameterModel.parameters_fill c entry.name entry) r o trivial made
  have stems := operation_stems c entry r o trivial made
  have path : o.path = entry.path := congrArg Route.path stems.route
  rwa [path]

namespace Api

/-- The segments of a path template, put together, are the path again: literals that are not empty,
no two of them next to each other, and the placeholders of the path in their order, each where one
can be read first. In a client method each of them has the identifier of one parameter, which is a
required path parameter with the wire name of the placeholder, the only parameter with that
identifier and the only path parameter with that wire name. -/
theorem path_segments_filled :
    (∀ path identifiers, PathSegment.Segments path (PathSegment.ofTemplate path identifiers))
    ∧ ∀ document config rounds api, ofDocument? document config rounds = .ok (some api) →
      ∀ client ∈ api.clients, ∀ method ∈ client.methods, ∀ name wireName,
        .parameter name wireName ∈ method.pathSegments →
          ∃ m, ParameterModel.OnlyPath method.parameters name wireName m := by
  refine ⟨fun path identifiers => PathSegment.template_segments identifiers path, ?_⟩
  intro document config rounds api made client member method isMethod name wireName isSegment
  obtain ⟨_, makes⟩ := resolution_makes (.ofDocument document config) _ rounds
    (OperationModel.operation_fills (.ofDocument document config)) {} (some api) trivial made
  obtain ⟨operations, filled, serves⟩ := makes api rfl
  rw [serves.clients] at member
  obtain ⟨o, isOperation, rfl⟩ :=
    ClientModel.methods_made operations _ client member method isMethod
  obtain ⟨_, _, fills⟩ := OperationModel.entry_of_operation _ _ operations filled o isOperation
  exact ParameterModel.segment_filled o.path o.parameters fills name wireName isSegment

-- A header has the name of the path parameter, a placeholder that is not declared stands twice, and
-- empty braces are no placeholder.
def petPath : Document where
  version := .v31
  contents := { paths := { items := [
    ("/pets/\x7bpet-id\x7d/\x7btag\x7d\x7btag\x7d/\x7b\x7d", { get := some {
      operationId := some "showPet"
      parameters := [
        .item { name := "pet-id", location := "header" },
        .item { name := "pet-id", location := "path" }] } })] } }

theorem pet_path_filled : ∃ api, ofDocument? petPath {} 1 = .ok (some api)
    ∧ ∃ client ∈ api.clients, ∃ method ∈ client.methods,
      method.pathSegments = [.literal "/pets/", .parameter "petId2" "pet-id", .literal "/",
        .parameter "tag" "tag", .parameter "tag" "tag", .literal "/\x7b\x7d"]
      ∧ PathSegment.Segments method.path method.pathSegments
      ∧ ∃ m, ParameterModel.OnlyPath method.parameters "petId2" "pet-id" m := by
  obtain ⟨api, made, segments⟩ : ∃ api, ofDocument? petPath {} 1 = .ok (some api)
      ∧ api.clients.map (fun client => client.methods.map (·.pathSegments))
        = [[[.literal "/pets/", .parameter "petId2" "pet-id", .literal "/",
          .parameter "tag" "tag", .parameter "tag" "tag", .literal "/\x7b\x7d"]]] :=
    ⟨_, rfl, by decide +kernel⟩
  obtain ⟨client, isOnly, isSegments⟩ := List.map_eq_singleton_iff.mp segments
  obtain ⟨method, isMethod, isPath⟩ := List.map_eq_singleton_iff.mp isSegments
  have member : client ∈ api.clients := isOnly ▸ List.mem_singleton_self client
  have inClient : method ∈ client.methods := isMethod ▸ List.mem_singleton_self method
  have isSegment : .parameter "petId2" "pet-id" ∈ method.pathSegments := by simp [isPath]
  obtain ⟨whole, filled⟩ := path_segments_filled
  exact ⟨api, made, client, member, method, inClient, isPath, whole _ _,
    filled petPath {} 1 api made client member method inClient _ _ isSegment⟩

end Api

end OpenApi
