import OpenApi.Proofs.Model.Client
import OpenApi.Proofs.Naming.Identifier

set_option autoImplicit false

namespace OpenApi

open Resolution

namespace ParameterModel

structure Named (models : List ParameterModel) : Prop where
  distinct : ("body" :: models.map (·.name)).Nodup
  derived : ∀ p ∈ models, ∃ others, p.name = identifier p.wireName others

theorem named_add (models : List ParameterModel) (p : ParameterModel) (named : Named models)
    (derived : p.name = identifier p.wireName models) : Named (models ++ [p]) where
  distinct := by
    have fresh := Naming.unique_free (Naming.parameterName p.wireName) ("body" :: models.map (·.name))
    rw [← identifier, ← derived] at fresh
    rw [List.map_append, ← List.cons_append]
    refine List.Nodup.append named.distinct (List.nodup_singleton _) ?_
    exact List.disjoint_singleton.mpr fresh
  derived q member := by
    rcases List.mem_append.mp member with old | new
    · exact named.derived q old
    · obtain rfl := List.mem_singleton.mp new
      exact ⟨models, derived⟩

section Adding

variable (c : Catalog) (operation : String)

theorem parameter_derived (others : List ParameterModel) (location : ParameterLocation)
    (p : Parameter) : Ensures (fun _ => True) (ofParameter c operation others location p)
      fun _ model => model.wireName = p.name ∧ model.name = identifier p.name others := by
  rw [ofParameter]
  cases p.schema? with
  | none => exact ensures_pure _ _ _ fun _ _ => ⟨by dsimp only, by dsimp only⟩
  | some s =>
      apply ensures_later
      intro type
      exact ensures_pure _ _ _ fun _ _ => ⟨by dsimp only, by dsimp only⟩

theorem declared_named (models : List ParameterModel) (parameters : List Parameter)
    (named : Named models) : Ensures (fun _ => True) (addDeclared c operation models parameters)
      fun _ models => Named models := by
  induction parameters generalizing models with
  | nil => exact ensures_pure _ _ models fun _ _ => named
  | cons p rest ih =>
      rw [addDeclared]
      split
      · exact ih models named
      · refine ensures_known _ _ _ _ _ (parameter_derived c operation models _ p) ?_
        rintro model ⟨sameName, derived⟩
        exact ih (models ++ [model]) (named_add models model named (sameName ▸ derived))

theorem placeholders_named (models : List ParameterModel) (names : List String)
    (named : Named models) : Named (addPlaceholders models names) := by
  induction names generalizing models with
  | nil => exact named
  | cons wireName rest ih =>
      rw [addPlaceholders]
      split
      · exact ih models named
      · exact ih _ (named_add models (ofPlaceholder models wireName) named (by rw [ofPlaceholder]))

theorem parameters_named (entry : OperationEntry) :
    Ensures (fun _ => True) (ofEntry c operation entry) fun _ models => Named models := by
  have none : Named [] := ⟨List.nodup_singleton _, List.forall_mem_nil _⟩
  rw [ofEntry]
  apply ensures_later
  intro parameters
  refine ensures_known _ _ _ _ _ (declared_named c operation [] _ none) fun declared named => ?_
  exact ensures_pure _ _ _ fun _ _ => placeholders_named declared _ named

end Adding

theorem named_unmarked (models : List ParameterModel) (named : Named models) :
    ∀ name ∈ "body" :: models.map (·.name), Naming.Consists Text.Unmarked name := by
  refine List.forall_mem_cons.mpr ⟨by decide, List.forall_mem_map.mpr fun p member => ?_⟩
  obtain ⟨others, derived⟩ := named.derived p member
  rw [derived]
  exact Naming.unique_consists _ _ _ Naming.digit_unmarked (Naming.parameter_name_unmarked p.wireName)

end ParameterModel

theorem OperationModel.parameters_known (c : Catalog) (name : String) (entry : OperationEntry)
    (P : List ParameterModel → Prop)
    (made : Ensures (fun _ => True) (ParameterModel.ofEntry c name entry) fun _ models => P models) :
    Ensures (fun _ => True) (ofEntry c name entry) fun _ o => P o.parameters := by
  refine ensures_known _ _ _ _ _ made fun parameters known => ?_
  apply ensures_later
  intro requestBody
  apply ensures_later
  intro result
  refine ensures_bind_lift _ _ _ _ fun policies _ => ?_
  exact ensures_pure _ _ _ fun _ _ => known

theorem OperationModel.parameters_named (c : Catalog) (entry : OperationEntry) :
    Ensures (fun _ => True) (ofEntry c entry.name entry)
      fun _ o => ParameterModel.Named o.parameters :=
  parameters_known c entry.name entry _ (ParameterModel.parameters_named c entry.name entry)

namespace Mapper

variable (m : Mapper)

structure Writes (t : ResolvedType) (isOptional : Bool) (p : SignatureParameter) : Prop where
  omissible : p.isOptional = isOptional
  csharp : ∀ c, m = .csharp c → p.type = c.memberType t isOptional
    ∧ p.default = if isOptional then some (c.optionalDefault t p.type) else none
  typescript : m = .typescript → p.type = TypeScript.type t ∧ p.default = none

structure Signs (method : ClientMethod) (parameters : List SignatureParameter) : Prop where
  all : parameters.Perm
    (method.parameters.map m.parameter ++ (method.requestBody.map m.body).toList)
  order : parameters.Pairwise fun p p' => p.isOptional = true → p'.isOptional = true
  required : parameters.filter (!·.isOptional) = (method.parameters.filter (·.required)).map m.parameter
    ++ ((method.requestBody.filter (·.required)).map m.body).toList
  optional : parameters.filter (·.isOptional)
    = ((method.requestBody.filter (!·.required)).map m.body).toList
      ++ (method.parameters.filter (!·.required)).map m.parameter
  defaults : ∀ p ∈ parameters, p.default.isSome = (p.isOptional && m.language == .csharp)
  declared : ∀ p ∈ method.parameters,
    m.Writes p.type (!p.required) (m.parameter p) ∧ (m.parameter p).name = m.escape p.name
  body : ∀ b ∈ method.requestBody,
    m.Writes b.type (!b.required) (m.body b) ∧ (m.body b).name = "body"
  distinct : (parameters.map (·.name)).Nodup

theorem parameter_writes (name : String) (t : ResolvedType) (isOptional : Bool) :
    m.Writes t isOptional (m.signatureParameter name t isOptional) := by
  constructor
  · rfl
  · rintro c rfl
    cases isOptional <;> exact ⟨rfl, rfl⟩
  · rintro rfl
    cases isOptional <;> exact ⟨rfl, rfl⟩

theorem written_default (t : ResolvedType) (isOptional : Bool) (p : SignatureParameter)
    (writes : m.Writes t isOptional p) :
    p.default.isSome = (p.isOptional && m.language == .csharp) := by
  rw [writes.omissible]
  cases m with
  | csharp c =>
      rw [(writes.csharp c rfl).2]
      cases isOptional <;> rfl
  | typescript =>
      rw [(writes.typescript rfl).2]
      cases isOptional <;> rfl

section Sides

variable (parameters : List ParameterModel) (body : Option RequestBodyModel)

def requiredSide : List SignatureParameter :=
  (parameters.filter (·.required)).map m.parameter ++ ((body.filter (·.required)).map m.body).toList

def optionalSide : List SignatureParameter :=
  ((body.filter (!·.required)).map m.body).toList ++ (parameters.filter (!·.required)).map m.parameter

theorem parameters_placed (sides : List SignatureParameter × List SignatureParameter) :
    parameters.foldl m.place sides
      = (sides.1 ++ (parameters.filter (·.required)).map m.parameter,
        sides.2 ++ (parameters.filter (!·.required)).map m.parameter) := by
  induction parameters generalizing sides with
  | nil => simp
  | cons p rest ih =>
      rw [List.foldl_cons, ih, place]
      by_cases required : p.required = true
      · simp [required]
      · simp [required]

theorem sides_placed : m.placeBody (parameters.foldl m.place ([], [])) body
    = (m.requiredSide parameters body, m.optionalSide parameters body) := by
  rw [parameters_placed, requiredSide, optionalSide]
  cases body with
  | none => simp [placeBody]
  | some b =>
      rw [placeBody]
      by_cases required : b.required = true
      · simp [required, Option.filter]
      · simp [required, Option.filter]

theorem required_side (p : SignatureParameter) (member : p ∈ m.requiredSide parameters body) :
    p.isOptional = false := by
  rcases List.mem_append.mp member with declared | isBody
  · obtain ⟨q, isRequired, rfl⟩ := List.mem_map.mp declared
    exact (Bool.not_eq_eq_eq_not ..).mpr (List.mem_filter.mp isRequired).2
  · obtain ⟨b, isRequired, rfl⟩ := Option.map_eq_some_iff.mp (Option.mem_toList.mp isBody)
    exact (Bool.not_eq_eq_eq_not ..).mpr (Option.filter_eq_some_iff.mp isRequired).2

theorem optional_side (p : SignatureParameter) (member : p ∈ m.optionalSide parameters body) :
    p.isOptional = true := by
  rcases List.mem_append.mp member with isBody | declared
  · obtain ⟨b, isOptional, rfl⟩ := Option.map_eq_some_iff.mp (Option.mem_toList.mp isBody)
    exact (Option.filter_eq_some_iff.mp isOptional).2
  · obtain ⟨q, isOptional, rfl⟩ := List.mem_map.mp declared
    exact (List.mem_filter.mp isOptional).2

theorem body_once : ((body.filter (·.required)).map m.body).toList
    ++ ((body.filter (!·.required)).map m.body).toList = (body.map m.body).toList := by
  cases body with
  | none => rfl
  | some b => cases required : b.required <;> simp [Option.filter, required]

theorem sides_perm : (m.requiredSide parameters body ++ m.optionalSide parameters body).Perm
    (parameters.map m.parameter ++ (body.map m.body).toList) := by
  let required := (parameters.filter (·.required)).map m.parameter
  let optional := (parameters.filter (!·.required)).map m.parameter
  have declared : (required ++ optional).Perm (parameters.map m.parameter) := by
    rw [← List.map_append]
    exact (List.filter_append_perm (·.required) parameters).map m.parameter
  have sides : m.requiredSide parameters body ++ m.optionalSide parameters body
      = required ++ ((body.map m.body).toList ++ optional) := by
    rw [← body_once, requiredSide, optionalSide, List.append_assoc, List.append_assoc]
  rw [sides]
  refine (List.perm_append_comm.append_left required).trans ?_
  rw [← List.append_assoc]
  exact declared.append_right _

end Sides

theorem body_not_reserved : m.escape "body" = "body" := by
  have free : (Naming.reservedWords m.language).contains "body" = false := by
    cases m.language <;> decide
  exact if_neg (ne_true_of_eq_false free)

section Method

variable (method : ClientMethod)

theorem signature_sides : (m.signature method).parameters
    = m.requiredSide method.parameters method.requestBody
      ++ m.optionalSide method.parameters method.requestBody := by
  rw [signature, sides_placed]

theorem signature_perm : (m.signature method).parameters.Perm
    (method.parameters.map m.parameter ++ (method.requestBody.map m.body).toList) := by
  rw [signature_sides]
  exact sides_perm m method.parameters method.requestBody

theorem signature_required : (m.signature method).parameters.filter (!·.isOptional)
    = m.requiredSide method.parameters method.requestBody := by
  rw [signature_sides, List.filter_append, List.filter_eq_self.mpr, List.filter_eq_nil_iff.mpr,
    List.append_nil]
  · intro p member
    simp [optional_side m _ _ p member]
  · intro p member
    simp [required_side m _ _ p member]

theorem signature_optional : (m.signature method).parameters.filter (·.isOptional)
    = m.optionalSide method.parameters method.requestBody := by
  rw [signature_sides, List.filter_append, List.filter_eq_nil_iff.mpr, List.filter_eq_self.mpr,
    List.nil_append]
  · exact optional_side m _ _
  · intro p member
    simp [required_side m _ _ p member]

theorem signature_order : (m.signature method).parameters.Pairwise
    fun p p' => p.isOptional = true → p'.isOptional = true := by
  have last : ∀ p ∈ m.optionalSide method.parameters method.requestBody, p.isOptional = true :=
    optional_side m _ _
  rw [signature_sides, List.pairwise_append]
  refine ⟨?_, ?_, fun _ _ p' member _ => last p' member⟩
  · refine List.pairwise_of_forall_mem_list fun p member _ _ optional => ?_
    rw [required_side m _ _ p member] at optional
    cases optional
  · exact List.pairwise_of_forall_mem_list fun _ _ p' member _ => last p' member

theorem signature_distinct (named : ParameterModel.Named method.parameters) :
    ((m.signature method).parameters.map (·.name)).Nodup := by
  have unmarked := ParameterModel.named_unmarked method.parameters named
  have escaped : (("body" :: method.parameters.map (·.name)).map m.escape).Nodup :=
    named.distinct.map_on fun name member name' member' =>
      Naming.escape_injective m.language name name' (unmarked name member) (unmarked name' member')
  rw [((signature_perm m method).map _).nodup_iff, List.map_append]
  rw [List.map_cons, body_not_reserved, List.map_map] at escaped
  rw [List.map_map]
  cases method.requestBody with
  | none =>
      rw [Option.map_none, Option.toList_none, List.map_nil, List.append_nil]
      exact (List.nodup_cons.mp escaped).2
  | some b => exact List.perm_append_comm.nodup_iff.mpr escaped

theorem signature_signs (named : ParameterModel.Named method.parameters) :
    m.Signs method (m.signature method).parameters where
  all := signature_perm m method
  order := signature_order m method
  required := signature_required m method
  optional := signature_optional m method
  defaults p member := by
    rcases List.mem_append.mp ((signature_perm m method).mem_iff.mp member) with declared | isBody
    · obtain ⟨q, _, rfl⟩ := List.mem_map.mp declared
      exact written_default m q.type _ _ (parameter_writes m _ q.type _)
    · obtain ⟨b, _, rfl⟩ := Option.map_eq_some_iff.mp (Option.mem_toList.mp isBody)
      exact written_default m b.type _ _ (parameter_writes m _ b.type _)
  declared p _ := ⟨parameter_writes m _ p.type _, rfl⟩
  body b _ := ⟨parameter_writes m _ b.type _, rfl⟩
  distinct := signature_distinct m method named

end Method

end Mapper

namespace Api

-- An operation whose parameters have the name of a body, a reserved word and the same camel case.
def uploads : Document where
  version := .v31
  contents := { paths := { items := [
    ("/files", { put := some {
      operationId := some "upload"
      parameters := [
        .item { name := "class", location := "query" },
        .item { name := "body", location := "query", required := true },
        .item { name := "file-id", location := "query" },
        .item { name := "fileId", location := "header", required := true }]
      requestBody := some (.item {
        content := [("application/octet-stream", {})] }) } })] } }

/-- The signature of a client method in either language has the parameters of the method and its
body, each exactly once. Those that are required come before those that are optional and are in the
order of the declarations, with a required body after them; an optional body comes before the
optional ones, which are in the order of the declarations too. Each is written with its escaped name
and the text of its type. Exactly the optional ones have a default value in C#, which goes with that
text, and none has one in TypeScript. No two have the same name. -/
theorem client_signatures_complete (document : Document) (config : Config) (rounds : Nat) (api : Api)
    (made : ofDocument? document config rounds = .ok (some api)) :
    ∀ client ∈ api.clients, ∀ method ∈ client.methods, ∀ m : Mapper,
      m.Signs method (m.signature method).parameters := by
  intro client member method isMethod m
  obtain ⟨_, makes⟩ := resolution_makes (.ofDocument document config) _ rounds
    (OperationModel.parameters_named (.ofDocument document config)) {} (some api) trivial made
  obtain ⟨operations, named, serves⟩ := makes api rfl
  rw [serves.clients] at member
  obtain ⟨o, isOperation, rfl⟩ :=
    ClientModel.methods_made operations _ client member method isMethod
  obtain ⟨_, _, namedParameters⟩ :=
    OperationModel.entry_of_operation _ _ operations named o isOperation
  exact Mapper.signature_signs m _ namedParameters

theorem uploads_complete : ∃ api, ofDocument? uploads {} 1 = .ok (some api)
    ∧ ∃ client ∈ api.clients, ∃ method ∈ client.methods,
      (Mapper.typescript.signature method).parameters.map (·.name)
        = ["body2", "fileId2", "body", "class_", "fileId"]
      ∧ ∀ m : Mapper, m.Signs method (m.signature method).parameters := by
  obtain ⟨api, made, names⟩ : ∃ api, ofDocument? uploads {} 1 = .ok (some api)
      ∧ api.clients.map (fun client => client.methods.map fun method =>
        (Mapper.typescript.signature method).parameters.map (·.name))
      = [[["body2", "fileId2", "body", "class_", "fileId"]]] := ⟨_, rfl, by decide +kernel⟩
  obtain ⟨client, isOnly, isNames⟩ := List.map_eq_singleton_iff.mp names
  obtain ⟨method, isMethod, isParameters⟩ := List.map_eq_singleton_iff.mp isNames
  have member : client ∈ api.clients := isOnly ▸ List.mem_singleton_self client
  have inClient : method ∈ client.methods := isMethod ▸ List.mem_singleton_self method
  have signs := client_signatures_complete uploads {} 1 api made client member method inClient
  exact ⟨api, made, client, member, method, inClient, isParameters, signs⟩

end Api

end OpenApi
