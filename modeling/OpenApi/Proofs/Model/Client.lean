import OpenApi.Proofs.Model.Rounds
import OpenApi.Proofs.Model.Types
import OpenApi.Proofs.Text.Words
import OpenApi.Render.Signature

set_option autoImplicit false

namespace OpenApi

open Catalog Resolution

namespace OperationModel

variable (c : Catalog)

theorem operation_named (name : String) (entry : OperationEntry) :
    Ensures (fun _ => True) (ofEntry c name entry) fun _ o => o.name = name := by
  apply ensures_later
  intro parameters
  apply ensures_later
  intro requestBody
  apply ensures_later
  intro result
  refine ensures_bind_lift _ _ _ _ fun policies _ => ?_
  exact ensures_pure _ _ _ fun _ _ => rfl

section Making

variable (I : Registry → Prop) (P : OperationEntry → OperationModel → Prop)

theorem operations_made (taken : List String) (entries : List OperationEntry)
    (distinct : taken.Nodup) (each : ∀ entry ∈ entries,
      Ensures I (ofEntry c entry.name entry) fun r o => I r ∧ P entry o) :
    Ensures I (ofEntries c taken entries) fun r models =>
      I r ∧ List.Forall₂ P entries models ∧ (taken ++ entries.map (·.name)).Nodup := by
  induction entries generalizing taken with
  | nil => exact ensures_pure _ _ [] fun _ inv => ⟨inv, .nil, by simpa using distinct⟩
  | cons entry rest ih =>
      obtain ⟨eachFirst, eachRest⟩ := List.forall_mem_cons.mp each
      rw [ofEntries]
      by_cases duplicate : taken.contains entry.name = true
      · rw [if_pos duplicate]
        exact fun _ _ _ found => by cases found
      · rw [if_neg duplicate]
        have fresh : entry.name ∉ taken := by simpa using duplicate
        have more : (taken ++ [entry.name]).Nodup := by
          simpa [List.nodup_append, distinct] using fun name old => ne_of_mem_of_not_mem old fresh
        refine ensures_bind _ _ _ _ _ eachFirst fun first => ?_
        refine ensures_bind (fun r others => I r ∧ P entry first ∧ List.Forall₂ P rest others
          ∧ ((taken ++ [entry.name]) ++ rest.map (·.name)).Nodup) _ _ _ _ ?_ fun others => ?_
        · rintro r others ⟨inv, holds⟩ found
          obtain ⟨inv', holdsOthers⟩ := ih _ more eachRest r others inv found
          exact ⟨inv', holds, holdsOthers⟩
        · refine ensures_pure _ _ _ fun r ⟨inv, holds, holdsOthers, distinct⟩ => ?_
          exact ⟨inv, .cons holds holdsOthers, by simpa using distinct⟩

theorem entry_of_operation (entries : List OperationEntry) (operations : List OperationModel)
    (holds : List.Forall₂ P entries operations) (o : OperationModel) (member : o ∈ operations) :
    ∃ entry ∈ entries, P entry o := by
  induction holds with
  | nil => cases member
  | cons first _ ih =>
      rcases List.mem_cons.mp member with rfl | later
      · exact ⟨_, List.mem_cons_self, first⟩
      · obtain ⟨entry, isEntry, holds⟩ := ih later
        exact ⟨entry, List.mem_cons_of_mem _ isEntry, holds⟩

end Making

end OperationModel

theorem ClientModel.methods_named (operations : List OperationModel) (basePath : Option String)
    (client : ClientModel) (member : client ∈ all operations basePath) :
    (client.methods.map (·.name)).Sublist (operations.map (·.name)) := by
  obtain ⟨group, isGroup, rfl⟩ := List.mem_map.mp member
  have names := (OperationModel.grouped_sublist .ofOperation operations group isGroup).map
    ClientMethod.name
  rwa [List.map_map] at names

namespace Api

structure Serves (c : Catalog) (operations : List OperationModel) (api : Api) : Prop where
  results : api.results = operations.map (·.result)
  handlers : api.handlers = HandlerInterface.all operations
  clients : api.clients = ClientModel.all operations c.document.basePath

section Adding

variable (c : Catalog) (operations : List OperationModel) (api : Api)

theorem type_serves (name : String) (s : Schema) (kind : ComponentKind)
    (serves : Serves c operations api) : Ensures (fun _ => True) (api.addType c name none s kind)
      fun _ api' => Serves c operations api' := by
  cases kind with
  | enumeration =>
      exact ensures_pure _ _ _ fun _ _ => ⟨serves.results, serves.handlers, serves.clients⟩
  | «alias» => exact ensures_pure _ _ _ fun _ _ => serves
  | record | hierarchy | tuple | union =>
      apply ensures_later
      intro added
      exact ensures_pure _ _ _ fun _ _ => ⟨serves.results, serves.handlers, serves.clients⟩

section Operations

variable (I : Registry → Prop) (P : OperationEntry → OperationModel → Prop)

theorem operations_serve (each : ∀ entry ∈ c.document.operations,
      Ensures I (OperationModel.ofEntry c entry.name entry) fun r o => I r ∧ P entry o) :
    Ensures I (api.addOperations c) fun r api' => I r
      ∧ (c.document.operations.map (·.name)).Nodup
      ∧ ∃ operations, List.Forall₂ P c.document.operations operations
        ∧ Serves c operations api' := by
  refine ensures_bind _ _ _ _ _ (OperationModel.operations_made c I P [] _ List.nodup_nil each) ?_
  intro operations
  refine ensures_bind_lift _ _ _ _ fun failures _ => ?_
  refine ensures_pure _ _ _ fun _ ⟨inv, holds, distinct⟩ => ?_
  exact ⟨inv, distinct, operations, holds, rfl, rfl, rfl⟩

-- Operations with the same name are found before any round.
theorem resolution_makes (rounds : Nat) (each : ∀ entry, Ensures (fun _ => True)
      (OperationModel.ofEntry c entry.name entry) fun _ o => P entry o) :
    Ensures (fun _ => True) (resolution c rounds) fun _ outcome =>
      (c.document.operations.map (·.name)).Nodup ∧ ∀ api ∈ outcome,
        ∃ operations, List.Forall₂ P c.document.operations operations
          ∧ Serves c operations api := by
  have made (entry : OperationEntry) (_ : entry ∈ c.document.operations) :
      Ensures (fun _ => True) (OperationModel.ofEntry c entry.name entry)
        fun _ o => True ∧ P entry o :=
    fun r o _ found => ⟨trivial, each entry r o trivial found⟩
  apply ensures_later
  intro api
  refine ensures_bind _ _ _ _ _ (operations_serve c api _ P made) fun api' => ?_
  rintro r outcome ⟨-, distinct, operations, holds, serves⟩ found
  refine ⟨distinct, fun api'' present => ⟨operations, holds, ?_⟩⟩
  have kept (api : Api) := type_serves c operations api
  exact rounds_keep c (Serves c operations) kept rounds api' serves r outcome trivial found api''
    present

end Operations

theorem resolution_serves (rounds : Nat) : Ensures (fun _ => True) (resolution c rounds)
    fun _ outcome => ∀ api ∈ outcome, ∃ operations,
      operations.map (·.name) = c.document.operations.map (·.name)
        ∧ (operations.map (·.name)).Nodup ∧ Serves c operations api := by
  have named (entry : OperationEntry) := OperationModel.operation_named c entry.name entry
  intro r outcome _ found api present
  obtain ⟨distinct, made⟩ := resolution_makes c _ rounds named r outcome trivial found
  obtain ⟨operations, holds, serves⟩ := made api present
  have sameNames : operations.map (·.name) = c.document.operations.map (·.name) := by
    rw [← List.forall₂_eq_eq_eq, List.forall₂_map_left_iff, List.forall₂_map_right_iff]
    exact holds.flip
  exact ⟨operations, sameNames, sameNames ▸ distinct, serves⟩

end Adding

section Signatures

variable (client : ClientModel)

def signedNames (m : Mapper) : List String :=
  client.methods.map fun method => (m.signature method).name

theorem signed_names (m : Mapper) :
    signedNames client m = (client.methods.map (·.name)).map m.methodName := by
  rw [List.map_map]
  rfl

theorem csharp_names_distinct (options : CSharp) (distinct : (client.methods.map (·.name)).Nodup) :
    (signedNames client (.csharp options)).Nodup := by
  rw [signed_names]
  exact distinct.map fun name name' same => (String.append_left_inj "Async").mp same

theorem typescript_names_distinct_iff : (signedNames client .typescript).Nodup
    ↔ (client.methods.map (·.name)).Pairwise fun name name' =>
      Text.lowerCamel name.toList ≠ Text.lowerCamel name'.toList := by
  rw [signed_names, List.Nodup, List.pairwise_map]
  simp only [Mapper.methodName, TypeScript.methodName, ne_eq, String.ofList_inj]

theorem plain_names_distinct_iff
    (plain : ∀ name ∈ client.methods.map (·.name), Text.Plain name.toList) :
    (signedNames client .typescript).Nodup
      ↔ (client.methods.map (·.name)).Pairwise fun name name' =>
        (Text.words name.toList).map Text.lowerWord
          ≠ (Text.words name'.toList).map Text.lowerWord := by
  rw [typescript_names_distinct_iff]
  refine List.Pairwise.iff_of_mem fun {name name'} member member' => not_congr ?_
  exact Text.lower_camel_eq_iff _ (plain name member) _ (plain name' member')

end Signatures

def userLookups : Document where
  version := .v31
  contents := { paths := { items := [
    ("/a", { get := some { operationId := some "getUser" } }),
    ("/b", { get := some { operationId := some "getUSER" } })] } }

def userRoutes : Document where
  version := .v31
  contents := { paths := { items := [
    ("/users", { get := some { operationId := some "listUsers" } }),
    ("/user", { get := some { operationId := some "getUser" } })] } }

/-- The methods of a client have different names, and so have their signatures in C#. In TypeScript
the signatures have different names if and only if the camel cases of the names differ. For names of
ASCII letters and digits this means that no two names have the same words but for the case of their
letters. -/
theorem client_methods_distinct (document : Document) (config : Config) (rounds : Nat) (api : Api)
    (made : ofDocument? document config rounds = .ok (some api)) : ∀ client ∈ api.clients,
      let names := client.methods.map (·.name)
      names.Nodup ∧ (∀ options, (signedNames client (.csharp options)).Nodup)
        ∧ ((signedNames client .typescript).Nodup ↔ names.Pairwise fun name name' =>
          Text.lowerCamel name.toList ≠ Text.lowerCamel name'.toList)
        ∧ ((∀ name ∈ names, Text.Plain name.toList) →
          ((signedNames client .typescript).Nodup ↔ names.Pairwise fun name name' =>
            (Text.words name.toList).map Text.lowerWord
              ≠ (Text.words name'.toList).map Text.lowerWord)) := by
  intro client member names
  obtain ⟨operations, _, distinct, serves⟩ :=
    resolution_serves (ofDocument document config) rounds {} (some api) trivial made api rfl
  rw [serves.clients] at member
  have distinctNames := distinct.sublist (ClientModel.methods_named operations _ client member)
  refine ⟨distinctNames, ?_, typescript_names_distinct_iff client, plain_names_distinct_iff client⟩
  exact fun options => csharp_names_distinct client options distinctNames

theorem user_routes_distinct : ∃ api, ofDocument? userRoutes {} 2 = .ok (some api)
    ∧ ∃ client ∈ api.clients, client.methods.map (·.name) = ["ListUsers", "GetUser"]
      ∧ (signedNames client .typescript).Nodup := by
  obtain ⟨api, made, names⟩ : ∃ api, ofDocument? userRoutes {} 2 = .ok (some api)
      ∧ api.clients.map (fun client => client.methods.map (·.name)) = [["ListUsers", "GetUser"]] :=
    ⟨_, rfl, by decide⟩
  obtain ⟨client, isOnly, isNames⟩ := List.map_eq_singleton_iff.mp names
  have member : client ∈ api.clients := isOnly ▸ List.mem_singleton_self client
  obtain ⟨_, _, _, plain⟩ := client_methods_distinct userRoutes {} 2 api made client member
  rw [isNames] at plain
  exact ⟨api, made, client, member, isNames, (plain (by decide)).mpr (by decide)⟩

-- The names GetUser and GetUSER are different, but their words are the same.
theorem user_lookups_clash : ∃ api, ofDocument? userLookups {} 2 = .ok (some api)
    ∧ ∃ client ∈ api.clients, signedNames client .typescript = ["getUser", "getUser"] :=
  ⟨_, rfl, by decide⟩

end Api

end OpenApi
