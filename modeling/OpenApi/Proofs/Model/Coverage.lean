import OpenApi.Proofs.Model.Client

set_option autoImplicit false

namespace OpenApi

open Catalog Resolution

structure Route where
  name : String
  method : String
  path : String
deriving DecidableEq, Repr

def OperationEntry.route (entry : OperationEntry) : Route := ⟨entry.name, entry.method, entry.path⟩

def OperationEntry.group (config : Config) (entry : OperationEntry) : String :=
  OperationModel.groupOf config entry.operation

def OperationModel.route (o : OperationModel) : Route := ⟨o.name, o.method, o.path⟩

def HandlerMethod.route (m : HandlerMethod) : Route := ⟨m.name, m.httpMethod, m.path⟩

def ClientMethod.route (m : ClientMethod) : Route := ⟨m.name, m.httpMethod, m.path⟩

namespace Api

def handlerRoutes (api : Api) : List (String × List Route) :=
  api.handlers.map fun h => (h.group, h.methods.map (·.route))

def clientRoutes (api : Api) : List (String × List Route) :=
  api.clients.map fun client => (client.group, client.methods.map (·.route))

end Api

structure Covers (config : Config) (entries : List OperationEntry)
    (listed : List (String × List Route)) : Prop where
  groups : listed.map (·.1) = (entries.map (·.group config)).eraseDups
  distinct : (listed.map (·.1)).Nodup
  members : ∀ group ∈ listed,
    group.2 = (entries.filter (·.group config == group.1)).map (·.route)
  once : (listed.flatMap (·.2)).Perm (entries.map (·.route))

section Grouping

variable {α : Type} (key : α → String) (xs : List α)

theorem perm_of_keys (keys : List String) (distinct : keys.Nodup) :
    (keys.flatMap fun k => xs.filter (key · == k)).Perm (xs.filter fun x => keys.contains (key x)) := by
  induction keys with
  | nil => simp
  | cons k rest ih =>
      obtain ⟨fresh, distinctRest⟩ := List.nodup_cons.mp distinct
      have here : (xs.filter fun x => (k :: rest).contains (key x)).filter (key · == k)
          = xs.filter (key · == k) := by
        rw [List.filter_filter]
        refine List.filter_congr fun x _ => ?_
        by_cases same : key x = k <;> simp [same]
      have later : (xs.filter fun x => (k :: rest).contains (key x)).filter (fun x => !key x == k)
          = xs.filter fun x => rest.contains (key x) := by
        rw [List.filter_filter]
        refine List.filter_congr fun x _ => ?_
        by_cases same : key x = k <;> simp [same, fresh]
      have split := List.filter_append_perm (key · == k)
        (xs.filter fun x => (k :: rest).contains (key x))
      rw [here, later] at split
      rw [List.flatMap_cons]
      exact ((ih distinctRest).append_left _).trans split

theorem perm_of_first_keys :
    ((xs.map key).eraseDups.flatMap fun k => xs.filter (key · == k)).Perm xs := by
  have all : xs.filter (fun x => (xs.map key).eraseDups.contains (key x)) = xs := by
    refine List.filter_eq_self.mpr fun x member => ?_
    simpa [List.mem_eraseDups] using ⟨x, member, rfl⟩
  have perm := perm_of_keys key xs _ (firsts_distinct (xs.map key))
  rwa [all] at perm

end Grouping

section Listing

variable (config : Config) (entries : List OperationEntry)

def OperationEntry.grouped : List (String × List Route) :=
  (entries.map (·.group config)).eraseDups.map fun group =>
    (group, (entries.filter (·.group config == group)).map (·.route))

theorem grouped_covers : Covers config entries (OperationEntry.grouped config entries) := by
  have groups : (OperationEntry.grouped config entries).map (·.1)
      = (entries.map (·.group config)).eraseDups := by
    rw [OperationEntry.grouped, List.map_map]
    exact List.map_id _
  refine ⟨groups, groups ▸ firsts_distinct _, ?_, ?_⟩
  · intro group member
    obtain ⟨name, _, rfl⟩ := List.mem_map.mp member
    rfl
  · have perm := (perm_of_first_keys (·.group config) entries).map (·.route)
    rw [List.map_flatMap] at perm
    rwa [OperationEntry.grouped, List.flatMap_map]

end Listing

namespace OperationModel

structure Stems (config : Config) (entry : OperationEntry) (o : OperationModel) : Prop where
  route : o.route = entry.route
  group : o.group = entry.group config
  result : o.result.operation = entry.name

variable (c : Catalog)

theorem result_of_operation (name : String) (o : Operation) :
    Ensures (fun _ => True) (ResultModel.ofOperation c name o) fun _ r => r.operation = name := by
  apply ensures_later
  intro cases
  exact ensures_pure _ _ _ fun _ _ => rfl

theorem operation_stems (entry : OperationEntry) : Ensures (fun _ => True)
    (ofEntry c entry.name entry) fun _ o => Stems c.config entry o := by
  apply ensures_later
  intro parameters
  apply ensures_later
  intro requestBody
  refine ensures_bind _ _ _ _ _ (result_of_operation c entry.name entry.operation) ?_
  intro result
  refine ensures_bind_lift _ _ _ _ fun policies _ => ?_
  exact ensures_pure _ _ _ fun _ isResult => ⟨rfl, rfl, isResult⟩

section Stemming

variable (config : Config) (entries : List OperationEntry) (operations : List OperationModel)
  (stem : List.Forall₂ (Stems config) entries operations)

include stem

theorem results_stem :
    operations.map (·.result.operation) = entries.map (·.name) := by
  induction stem with
  | nil => rfl
  | cons first _ ih => rw [List.map_cons, List.map_cons, first.result, ih]

theorem labels_stem : operations.map (fun o => (o.group, o.route))
    = entries.map fun entry => (entry.group config, entry.route) := by
  induction stem with
  | nil => rfl
  | cons first _ ih => rw [List.map_cons, List.map_cons, first.group, first.route, ih]

theorem grouped_stem {μ : Type} (method : OperationModel → μ) (route : μ → Route)
    (same : ∀ o, route (method o) = o.route) :
    ((grouped method operations).map fun g => (g.1, g.2.map route))
      = OperationEntry.grouped config entries := by
  have labels := labels_stem config entries operations stem
  have groups := congrArg (List.map Prod.fst) labels
  simp only [List.map_map, Function.comp_def] at groups
  rw [grouped_eq, OperationEntry.grouped, groups, List.map_map]
  refine List.map_congr_left fun group _ => ?_
  have members := congrArg (fun l => (l.filter (·.1 == group)).map Prod.snd) labels
  simp only [List.filter_map, List.map_map, Function.comp_def] at members
  simp only [methodsOf, Function.comp_def, List.map_map, same]
  exact congrArg (Prod.mk group) members

end Stemming

end OperationModel

namespace Api

section Sides

variable (config : Config) (entries : List OperationEntry) (operations : List OperationModel)
  (stem : List.Forall₂ (OperationModel.Stems config) entries operations)

include stem

theorem sides_cover (c : Catalog) (api : Api) (serves : Serves c operations api) :
    Covers config entries api.handlerRoutes ∧ api.clientRoutes = api.handlerRoutes := by
  have handlers : api.handlerRoutes = OperationEntry.grouped config entries := by
    rw [← OperationModel.grouped_stem config entries operations stem HandlerMethod.ofOperation
      (·.route) fun _ => rfl, handlerRoutes, serves.handlers, HandlerInterface.all, List.map_map]
    rfl
  have clients : api.clientRoutes = OperationEntry.grouped config entries := by
    rw [← OperationModel.grouped_stem config entries operations stem ClientMethod.ofOperation
      (·.route) fun _ => rfl, clientRoutes, serves.clients, ClientModel.all, List.map_map]
    rfl
  rw [clients, handlers]
  exact ⟨grouped_covers config entries, rfl⟩

end Sides

def shopRoutes : Document where
  version := .v31
  contents := { paths := { items := [
    ("/pets", {
      get := some { operationId := some "listPets", tags := ["pets"] }
      post := some { operationId := some "addPet", tags := ["Pets", "admin"] } }),
    ("/status", { get := some {} })] } }

def shopClash : Document where
  version := .v31
  contents := { paths := { items := [
    ("/a", { get := some { operationId := some "list-pets" } }),
    ("/b", { get := some { operationId := some "listPets" } })] } }

/-- Where a model is made, the operations have different names, and there is a result for each one
in the order of the document. The handlers list the operations by group: the groups in the order in
which they first appear, the operations of a group in the order of the document, and each operation
exactly once. The clients list the same. If two operations have the same name then no model is made,
and the outcome is an error. -/
theorem operations_covered (document : Document) (config : Config) (rounds : Nat) :
    (∀ api, ofDocument? document config rounds = .ok (some api) →
      (document.operations.map (·.name)).Nodup
        ∧ api.results.map (·.operation) = document.operations.map (·.name)
        ∧ Covers config document.operations api.handlerRoutes
        ∧ api.clientRoutes = api.handlerRoutes)
    ∧ (¬(document.operations.map (·.name)).Nodup →
      ∃ e, ofDocument? document config rounds = .error e) := by
  have ensures := resolution_makes (ofDocument document config) _ rounds
    (OperationModel.operation_stems (ofDocument document config))
  constructor
  · intro api made
    obtain ⟨distinct, makes⟩ := ensures {} (some api) trivial made
    obtain ⟨operations, stem, serves⟩ := makes api rfl
    refine ⟨distinct, ?_, sides_cover config _ operations stem _ api serves⟩
    rw [serves.results, List.map_map]
    exact OperationModel.results_stem config _ operations stem
  · intro clash
    cases outcome : ofDocument? document config rounds with
    | error e => exact ⟨e, rfl⟩
    | ok api? => exact absurd (ensures {} api? trivial outcome).1 clash

theorem shop_routes_covered : (∃ api, ofDocument? shopRoutes {} 1 = .ok (some api)
      ∧ api.handlerRoutes = [
        ("Pets", [⟨"ListPets", "GET", "/pets"⟩, ⟨"AddPet", "POST", "/pets"⟩]),
        ("Default", [⟨"GetStatus", "GET", "/status"⟩])]
      ∧ api.clientRoutes = api.handlerRoutes)
    ∧ ∃ e, ofDocument? shopClash {} 1 = .error e := by
  obtain ⟨api, made, listed⟩ : ∃ api, ofDocument? shopRoutes {} 1 = .ok (some api)
      ∧ api.handlerRoutes = [
        ("Pets", [⟨"ListPets", "GET", "/pets"⟩, ⟨"AddPet", "POST", "/pets"⟩]),
        ("Default", [⟨"GetStatus", "GET", "/status"⟩])] := ⟨_, rfl, by decide⟩
  obtain ⟨_, _, _, sameSides⟩ := (operations_covered shopRoutes {} 1).1 api made
  exact ⟨⟨api, made, listed, sameSides⟩, (operations_covered shopClash {} 1).2 (by decide)⟩

end Api

end OpenApi
