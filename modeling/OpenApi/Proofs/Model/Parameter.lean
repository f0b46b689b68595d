import OpenApi.Proofs.Model.Signature
import OpenApi.Proofs.Model.Steps

set_option autoImplicit false

namespace OpenApi

open Resolution

def Parameter.key? (p : Parameter) : Option (String × ParameterLocation) :=
  (ParameterLocation.parse? p.location).map (p.name, ·)

def Parameter.IsLast (p : Parameter) (parameters : List Parameter) : Prop :=
  ∃ before after, parameters = before ++ p :: after
    ∧ ∀ q ∈ after, (q.name, q.location) ≠ (p.name, p.location)

theorem ParameterLocation.parse_injective (location location' : String) (parsed : ParameterLocation)
    (found : parse? location = some parsed) (found' : parse? location' = some parsed) :
    location = location' := by
  unfold parse? at found found'
  split at found <;> cases found <;> split at found' <;> cases found' <;> rfl

namespace ParameterModel

def key (m : ParameterModel) : String × ParameterLocation := (m.wireName, m.location)

-- The type is that of the schema, resolved in the registry of its time, or else a text.
def IsTyped (c : Catalog) (operation : String) (p : Parameter) (type : ResolvedType) : Prop :=
  match p.schema? with
  | some s => ∃ r, answer (c.resolve s (some (operation ++ Naming.typeName p.name))) r = .ok type
  | none => type = .ofPrimitive .string

structure Declares (c : Catalog) (operation : String) (p : Parameter) (m : ParameterModel) :
    Prop where
  key : p.key? = some m.key
  type : IsTyped c operation p m.type
  required : m.required = (m.location == .path || p.required)
  deprecated : m.deprecated = p.deprecated
  description : m.description = p.description
  style : m.style = p.style.getD m.location.defaultStyle
  explode : m.explode = p.explode.getD (m.style == "form")
  synthesized : m.synthesized = false

structure Assumed (m : ParameterModel) : Prop where
  location : m.location = .path
  type : m.type = .ofPrimitive .string
  required : m.required = true
  synthesized : m.synthesized = true

structure Merges (c : Catalog) (operation path : String) (parameters : List Parameter)
    (declared assumed : List ParameterModel) : Prop where
  keys : declared.map key = (parameters.filterMap Parameter.key?).eraseDups
  last : ∀ m ∈ declared, ∃ p, p.IsLast parameters ∧ Declares c operation p m
  placeholders : assumed.map (·.wireName) = ((Naming.placeholders path).filter fun name =>
    !(parameters.filterMap Parameter.key?).contains (name, .path)).eraseDups
  texts : ∀ m ∈ assumed, Assumed m

section Merged

variable (parameters : List Parameter)

theorem merged_pairs : (merged parameters).map (fun p => (p.name, p.location))
    = (parameters.map fun p => (p.name, p.location)).eraseDups := by
  have keys : Assoc.keys (parameters.map fun p => ((p.name, p.location), p))
      = parameters.map fun p => (p.name, p.location) := by
    rw [Assoc.keys, List.map_map]
    rfl
  rw [merged, List.map_map, ← keys, ← Assoc.of_list_keys]
  refine List.map_congr_left fun entry member => ?_
  obtain ⟨p, _, rfl⟩ := List.mem_map.mp (Assoc.of_list_mem _ entry member)
  rfl

theorem merged_keys : (merged parameters).filterMap Parameter.key?
    = (parameters.filterMap Parameter.key?).eraseDups := by
  -- the key of a parameter with this pair of texts
  let known (pair : String × String) := (ParameterLocation.parse? pair.2).map (pair.1, ·)
  have image (ps : List Parameter) : ps.filterMap Parameter.key?
      = (ps.map fun p => (p.name, p.location)).filterMap known := by
    rw [List.filterMap_map]
    rfl
  rw [image, image, merged_pairs]
  refine firsts_filter_map known ?_ _
  rintro ⟨name, location⟩ ⟨name', location'⟩ key found found'
  obtain ⟨parsed, isParsed, rfl⟩ := Option.map_eq_some_iff.mp found
  obtain ⟨parsed', isParsed', same⟩ := Option.map_eq_some_iff.mp found'
  obtain ⟨rfl, rfl⟩ := Prod.mk.inj same
  rw [ParameterLocation.parse_injective location location' parsed' isParsed isParsed']

theorem merged_last (p : Parameter) (member : p ∈ merged parameters) : p.IsLast parameters := by
  obtain ⟨entry, isEntry, rfl⟩ := List.mem_map.mp member
  obtain ⟨before, after, split, absent⟩ := Assoc.of_list_last _ entry isEntry
  obtain ⟨before', later, rfl, -, split⟩ := List.map_eq_append_iff.mp split
  obtain ⟨p, after', rfl, rfl, rfl⟩ := List.map_eq_cons_iff.mp split
  refine ⟨before', after', rfl, fun q isLater same => absent ?_⟩
  exact same ▸ Assoc.key_mem _ ((q.name, q.location), q) (List.mem_map_of_mem isLater)

end Merged

theorem path_parameter_present (models : List ParameterModel) (name : String) :
    models.any (isPathParameter name) = (models.map key).contains (name, .path) := by
  rw [Bool.eq_iff_iff, List.any_eq_true, List.contains_iff_mem, List.mem_map]
  refine exists_congr fun m => and_congr_right fun _ => ?_
  simp [isPathParameter, key, and_comm]

section Adding

variable (c : Catalog) (operation : String)

theorem parameter_declares (others : List ParameterModel) (location : ParameterLocation)
    (p : Parameter) (isKnown : ParameterLocation.parse? p.location = some location) (r : Registry)
    (m : ParameterModel) (made : answer (ofParameter c operation others location p) r = .ok m) :
    Declares c operation p m := by
  have key : p.key? = some (p.name, location) := by rw [Parameter.key?, isKnown, Option.map_some]
  rw [ofParameter] at made
  cases present : p.schema? with
  | none =>
      rw [present] at made
      obtain rfl := Except.ok.inj made
      exact ⟨key, by rw [IsTyped, present], rfl, rfl, rfl, rfl, rfl, rfl⟩
  | some s =>
      rw [present] at made
      obtain ⟨type, resolved, made⟩ := answered_bind _ _ r m made
      obtain rfl := Except.ok.inj made
      exact ⟨key, by rw [IsTyped, present]; exact ⟨r, resolved⟩, rfl, rfl, rfl, rfl, rfl, rfl⟩

theorem declared_added (parameters : List Parameter) (models : List ParameterModel) (r : Registry)
    (all : List ParameterModel)
    (made : answer (addDeclared c operation models parameters) r = .ok all) :
    ∃ added, all = models ++ added ∧ added.map key = parameters.filterMap Parameter.key?
      ∧ ∀ m ∈ added, ∃ p ∈ parameters, Declares c operation p m := by
  induction parameters generalizing models r with
  | nil =>
      cases made
      exact ⟨[], (List.append_nil _).symm, rfl, List.forall_mem_nil _⟩
  | cons p rest ih =>
      rw [addDeclared] at made
      cases isKnown : ParameterLocation.parse? p.location with
      | none =>
          rw [isKnown] at made
          obtain ⟨added, isAll, keys, each⟩ := ih models r made
          have none : p.key? = none := by rw [Parameter.key?, isKnown, Option.map_none]
          refine ⟨added, isAll, by rw [List.filterMap_cons_none none, keys], fun m member => ?_⟩
          obtain ⟨q, inRest, declares⟩ := each m member
          exact ⟨q, List.mem_cons_of_mem p inRest, declares⟩
      | some location =>
          rw [isKnown] at made
          obtain ⟨first, added, made⟩ := answered_bind _ _ r all made
          have declares := parameter_declares c operation models location p isKnown r first added
          obtain ⟨added, isAll, keys, each⟩ := ih _ _ made
          refine ⟨first :: added, by rw [isAll, List.append_assoc, List.singleton_append], ?_, ?_⟩
          · rw [List.filterMap_cons_some declares.key, List.map_cons, keys]
          · refine List.forall_mem_cons.mpr ⟨⟨p, List.mem_cons_self, declares⟩, fun m member => ?_⟩
            obtain ⟨q, inRest, declares⟩ := each m member
            exact ⟨q, List.mem_cons_of_mem p inRest, declares⟩

theorem placeholders_added (names : List String) (models : List ParameterModel) :
    ∃ added, addPlaceholders models names = models ++ added
      ∧ added.map (·.wireName)
        = (names.filter fun name => !models.any (isPathParameter name)).eraseDups
      ∧ ∀ m ∈ added, Assumed m := by
  induction names generalizing models with
  | nil => exact ⟨[], (List.append_nil _).symm, rfl, List.forall_mem_nil _⟩
  | cons wireName rest ih =>
      rw [addPlaceholders]
      by_cases present : models.any (isPathParameter wireName) = true
      · obtain ⟨added, isAll, isNames, each⟩ := ih models
        exact ⟨added, by rw [if_pos present, isAll], by simp [isNames, present], each⟩
      · let first := ofPlaceholder models wireName
        obtain ⟨added, isAll, isNames, each⟩ := ih (models ++ [first])
        refine ⟨first :: added, ?_, ?_, ?_⟩
        · rw [if_neg present, isAll, List.append_assoc, List.singleton_append]
        · have others (name : String) : (!(models ++ [first]).any (isPathParameter name))
              = (!models.any (isPathParameter name) && !(name == wireName)) := by
            simp [first, isPathParameter, ofPlaceholder, Bool.beq_comm]
          rw [List.map_cons, isNames, List.filter_cons_of_pos (by simpa using present),
            List.eraseDups_cons, List.filter_filter]
          simp only [others, Bool.and_comm]
          rfl
        · exact List.forall_mem_cons.mpr ⟨⟨rfl, rfl, rfl, rfl⟩, each⟩

theorem parameters_merge (entry : OperationEntry) (r : Registry) (models : List ParameterModel)
    (made : answer (ofEntry c operation entry) r = .ok models) :
    ∃ parameters declared assumed, models = declared ++ assumed
      ∧ List.Forall₂ (fun item p => c.document.parameter item = .ok p)
        (entry.pathItem.parameters ++ entry.operation.parameters) parameters
      ∧ Merges c operation entry.path parameters declared assumed := by
  rw [ofEntry] at made
  obtain ⟨parameters, found, made⟩ := answered_bind _ _ r models made
  obtain ⟨declared, added, made⟩ := answered_bind _ _ _ models made
  obtain rfl := Except.ok.inj made
  obtain ⟨_, rfl, keys, each⟩ := declared_added c operation (merged parameters) [] _ declared added
  rw [merged_keys] at keys
  obtain ⟨assumed, isAll, names, texts⟩ :=
    placeholders_added (Naming.placeholders entry.path) declared
  refine ⟨parameters, declared, assumed, isAll, answers_of_lifted _ _ r parameters found, ?_⟩
  refine ⟨keys, fun m member => ?_, ?_, texts⟩
  · obtain ⟨p, isMerged, declares⟩ := each m member
    exact ⟨p, merged_last parameters p isMerged, declares⟩
  · have known (name : String) : declared.any (isPathParameter name)
        = (parameters.filterMap Parameter.key?).contains (name, .path) := by
      rw [path_parameter_present, keys]
      simp [List.mem_eraseDups]
    simpa only [known] using names

end Adding

namespace Merges

variable {c : Catalog} {operation path : String} {parameters : List Parameter}
  {declared assumed : List ParameterModel}
  (merges : Merges c operation path parameters declared assumed)

include merges

theorem keys_distinct : ((declared ++ assumed).map key).Nodup := by
  have paths : assumed.map key = (assumed.map (·.wireName)).map (·, .path) := by
    rw [List.map_map]
    exact List.map_congr_left fun m member => Prod.ext rfl (merges.texts m member).location
  rw [List.map_append, merges.keys, paths, merges.placeholders]
  refine (firsts_distinct _).append ?_ ?_
  · exact (firsts_distinct _).map fun name name' same => (Prod.mk.inj same).1
  · rintro key isDeclared isAssumed
    obtain ⟨name, member, rfl⟩ := List.mem_map.mp isAssumed
    have free := (List.mem_filter.mp (List.mem_eraseDups.mp member)).2
    rw [List.mem_eraseDups, ← List.contains_iff_mem] at isDeclared
    rw [isDeclared] at free
    cases free

theorem placeholder_present (name : String) (member : name ∈ Naming.placeholders path) :
    (name, ParameterLocation.path) ∈ (declared ++ assumed).map key := by
  rw [List.map_append, List.mem_append]
  by_cases isDeclared : (parameters.filterMap Parameter.key?).contains (name, .path) = true
  · rw [merges.keys, List.mem_eraseDups]
    exact .inl (List.contains_iff_mem.mp isDeclared)
  · have isName : name ∈ assumed.map (·.wireName) := by
      rw [merges.placeholders, List.mem_eraseDups, List.mem_filter]
      exact ⟨member, by simpa using isDeclared⟩
    obtain ⟨m, isAssumed, rfl⟩ := List.mem_map.mp isName
    exact .inr (List.mem_map.mpr ⟨m, isAssumed, Prod.ext rfl (merges.texts m isAssumed).location⟩)

theorem path_required (m : ParameterModel) (member : m ∈ declared ++ assumed)
    (inPath : m.location = .path) : m.required = true := by
  rcases List.mem_append.mp member with isDeclared | isAssumed
  · obtain ⟨p, _, declares⟩ := merges.last m isDeclared
    rw [declares.required, inPath]
    rfl
  · exact (merges.texts m isAssumed).required

end Merges

/-- The parameters of an operation are read from those of its path item, followed by its own, with
references followed. Each pair of a name and a known location that is declared has one parameter,
made of the last declaration of the pair and at the place of its first. After these, each placeholder
of the path that is not declared as a path parameter has one parameter, a required text, in the order
of the path. Every path parameter is required, and no two parameters have the same identifier, nor
has one that of a body. -/
theorem parameters_merged (c : Catalog) (operation : String) (entry : OperationEntry) (r : Registry)
    (models : List ParameterModel) (made : answer (ofEntry c operation entry) r = .ok models) :
    ∃ parameters declared assumed, models = declared ++ assumed
      ∧ List.Forall₂ (fun item p => c.document.parameter item = .ok p)
        (entry.pathItem.parameters ++ entry.operation.parameters) parameters
      ∧ Merges c operation entry.path parameters declared assumed
      ∧ (∀ m ∈ models, m.location = .path → m.required = true)
      ∧ ("body" :: models.map (·.name)).Nodup := by
  obtain ⟨parameters, declared, assumed, rfl, found, merges⟩ :=
    parameters_merge c operation entry r models made
  have named := parameters_named c operation entry r _ trivial made
  exact ⟨parameters, declared, assumed, rfl, found, merges, merges.path_required, named.distinct⟩

-- The limit is declared anew and by reference, a header is called like a path parameter, and a
-- placeholder that is not declared stands twice.
def petParameters : OperationEntry where
  path := "/pets/\x7bid\x7d/\x7btag\x7d/\x7btag\x7d"
  method := "GET"
  pathItem := { parameters := [
    .item { name := "limit", location := "query" },
    .item { name := "id", location := "path" },
    .item { name := "id", location := "body" }] }
  operation := { parameters := [
    .item { name := "id", location := "header" },
    .reference "#/components/parameters/Limit"] }

def limitCatalog : Catalog := .ofDocument { version := .v31, contents := { components := {
  parameters := [("Limit", { name := "limit", location := "query", required := true })] } } } {}

theorem pet_parameters_merged : ∃ models, answer (ofEntry limitCatalog "ListPets" petParameters) {}
      = .ok models
    ∧ models.map (fun m => (m.name, m.key, m.required, m.synthesized))
      = [("limit", ("limit", .query), true, false), ("id", ("id", .path), true, false),
        ("id2", ("id", .header), false, false), ("tag", ("tag", .path), true, true)]
    ∧ ∃ parameters declared assumed, models = declared ++ assumed
      ∧ Merges limitCatalog "ListPets" petParameters.path parameters declared assumed := by
  obtain ⟨models, made, shown⟩ : ∃ models,
      answer (ofEntry limitCatalog "ListPets" petParameters) {} = .ok models
      ∧ models.map (fun m => (m.name, m.key, m.required, m.synthesized))
        = [("limit", ("limit", .query), true, false), ("id", ("id", .path), true, false),
          ("id2", ("id", .header), false, false), ("tag", ("tag", .path), true, true)] :=
    ⟨_, rfl, by decide +kernel⟩
  obtain ⟨parameters, declared, assumed, isAll, -, merges, -⟩ :=
    parameters_merged limitCatalog "ListPets" petParameters {} models made
  exact ⟨models, made, shown, parameters, declared, assumed, isAll, merges⟩

end ParameterModel

end OpenApi
