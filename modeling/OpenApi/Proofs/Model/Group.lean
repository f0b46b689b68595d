import OpenApi.Proofs.Model.Coverage
import OpenApi.Proofs.Naming.Identifier

set_option autoImplicit false

namespace OpenApi

open Naming Resolution Text

def foldedWords (name : String) : List (List Char) := (words name.toList).map lowerWord

theorem type_names_apart_iff (raw raw' : String) (ascii : Ascii raw.toList)
    (ascii' : Ascii raw'.toList) (different : typeName raw ≠ typeName raw') :
    typeName (typeName raw) ≠ typeName (typeName raw') ↔
      (startsWithDigit (typeName raw) = true → startsWithDigit (typeName raw') = true →
        foldedWords (typeName raw) ≠ foldedWords (typeName raw')) := by
  have kept := type_name_twice_digit raw ascii
  have kept' := type_name_twice_digit raw' ascii'
  cases digit : startsWithDigit (typeName raw) with
  | false =>
      refine ⟨fun _ absent => (by cases absent), fun _ same => ?_⟩
      have digit' : startsWithDigit (typeName raw') = false := by rw [← kept', ← same, kept, digit]
      rw [type_name_stable raw ascii digit, type_name_stable raw' ascii' digit'] at same
      exact different same
  | true =>
      cases digit' : startsWithDigit (typeName raw') with
      | false =>
          refine ⟨fun _ _ absent => (by cases absent), fun _ same => ?_⟩
          rw [same, kept', digit'] at kept
          cases kept.trans digit
      | true =>
          have plain := type_name_plain raw ascii
          have plain' := type_name_plain raw' ascii'
          rw [type_name_of_digit _ digit, type_name_of_digit _ digit', ne_eq, String.ofList_inj,
            upper_camel_eq_iff _ plain _ plain']
          exact ⟨fun apart _ _ => apart, fun apart => apart rfl rfl⟩

def Apart (groups : List String) : Prop := groups.Pairwise fun group group' =>
  startsWithDigit group = true → startsWithDigit group' = true →
    foldedWords group ≠ foldedWords group'

instance (groups : List String) : Decidable (Apart groups) :=
  inferInstanceAs (Decidable (groups.Pairwise _))

section Groups

variable (config : Config)

theorem group_of_cases (o : Operation) : ∃ raw : String,
    OperationModel.groupOf config o = typeName raw ∧ (raw ∈ o.tags.head? ∨ raw = config.defaultGroup) := by
  rw [OperationModel.groupOf]
  split
  · rename_i name isTag
    obtain ⟨present, _⟩ := Option.filter_eq_some_iff.mp isTag
    obtain ⟨raw, isFirst, rfl⟩ := Option.map_eq_some_iff.mp present
    exact ⟨raw, rfl, .inl isFirst⟩
  · exact ⟨config.defaultGroup, rfl, .inr rfl⟩

variable (entries : List OperationEntry)
  (ascii : ∀ entry ∈ entries, ∀ tag ∈ entry.operation.tags.head?, Ascii tag.toList)
  (asciiDefault : Ascii config.defaultGroup.toList)

include ascii asciiDefault

theorem group_made (group : String) (member : group ∈ (entries.map (·.group config)).eraseDups) :
    ∃ raw : String, Ascii raw.toList ∧ group = typeName raw := by
  obtain ⟨entry, isEntry, rfl⟩ := List.mem_map.mp (List.mem_eraseDups.mp member)
  obtain ⟨raw, named, isTag | rfl⟩ := group_of_cases config entry.operation
  · exact ⟨raw, ascii entry isEntry raw isTag, named⟩
  · exact ⟨_, asciiDefault, named⟩

theorem groups_apart_iff :
    let groups := (entries.map (·.group config)).eraseDups
    (groups.Pairwise fun group group' => typeName group ≠ typeName group') ↔ Apart groups := by
  intro groups
  have distinct := firsts_distinct (entries.map (·.group config))
  have pair (group group' : String) (member : group ∈ groups) (member' : group' ∈ groups)
      (different : group ≠ group') : typeName group ≠ typeName group' ↔
        (startsWithDigit group = true → startsWithDigit group' = true →
          foldedWords group ≠ foldedWords group') := by
    obtain ⟨raw, asciiRaw, rfl⟩ := group_made config entries ascii asciiDefault group member
    obtain ⟨raw', asciiRaw', rfl⟩ := group_made config entries ascii asciiDefault group' member'
    exact type_names_apart_iff raw raw' asciiRaw asciiRaw' different
  constructor
  · intro apart
    refine (distinct.and apart).imp_of_mem fun member member' ⟨different, holds⟩ => ?_
    exact (pair _ _ member member' different).mp holds
  · intro apart
    refine (distinct.and apart).imp_of_mem fun member member' ⟨different, holds⟩ => ?_
    exact (pair _ _ member member' different).mpr holds

end Groups

namespace Api

section Interfaces

variable (api : Api)

theorem handler_names_distinct_iff : (api.handlers.map (·.name)).Nodup ↔
    (api.handlers.map (·.group)).Pairwise fun group group' => typeName group ≠ typeName group' := by
  rw [List.Nodup, List.pairwise_map, List.pairwise_map]
  simp only [HandlerInterface.name, ne_eq, String.append_left_inj]

theorem client_names_distinct_iff : (api.clients.map (·.name)).Nodup ↔
    (api.clients.map (·.group)).Pairwise fun group group' => typeName group ≠ typeName group' := by
  rw [List.Nodup, List.pairwise_map, List.pairwise_map]
  simp only [ClientModel.name, ne_eq, String.append_left_inj]

end Interfaces

def petTags : Document where
  version := .v31
  contents := { paths := { items := [
    ("/a", { get := some { tags := ["pet-store"] } }),
    ("/b", { get := some { tags := ["PETStore"] } })] } }

def digitTags : Document where
  version := .v31
  contents := { paths := { items := [
    ("/a", { get := some { tags := ["1-a-b"] } }),
    ("/b", { get := some { tags := ["1ab"] } })] } }

/-- Handlers and clients are made of the same groups, and either have different names if and only if
the type names of the groups are different. If the first tags and the default group are ASCII then a
group that does not start with a digit is its own type name, and the names are different if and only
if no two groups that start with a digit have the same words but for the case of their letters. -/
theorem interface_names_distinct_iff (document : Document) (config : Config) (rounds : Nat)
    (api : Api) (made : ofDocument? document config rounds = .ok (some api)) :
    let groups := api.handlers.map (·.group)
    let distinct := groups.Pairwise fun group group' => typeName group ≠ typeName group'
    api.clients.map (·.group) = groups
      ∧ ((api.handlers.map (·.name)).Nodup ↔ distinct)
      ∧ ((api.clients.map (·.name)).Nodup ↔ distinct)
      ∧ ((∀ entry ∈ document.operations, ∀ tag ∈ entry.operation.tags.head?, Ascii tag.toList) →
        Ascii config.defaultGroup.toList →
          (∀ group ∈ groups, startsWithDigit group = false → typeName group = group)
            ∧ (distinct ↔ Apart groups)) := by
  intro groups distinct
  obtain ⟨_, makes⟩ := resolution_makes (.ofDocument document config) _ rounds
    (OperationModel.operation_stems (.ofDocument document config)) {} (some api) trivial made
  obtain ⟨operations, stem, serves⟩ := makes api rfl
  obtain ⟨covers, sameSides⟩ := sides_cover config _ operations stem _ api serves
  have handlerGroups : groups = api.handlerRoutes.map (·.1) := by
    rw [handlerRoutes, List.map_map]
    rfl
  have clientGroups : api.clients.map (·.group) = groups := by
    rw [handlerGroups, ← sameSides, clientRoutes, List.map_map]
    rfl
  refine ⟨clientGroups, handler_names_distinct_iff api, ?_, fun ascii asciiDefault => ?_⟩
  · rw [client_names_distinct_iff, clientGroups]
  · have isGroups : groups = (document.operations.map (·.group config)).eraseDups :=
      handlerGroups.trans covers.groups
    refine ⟨fun group member letter => ?_, ?_⟩
    · rw [isGroups] at member
      obtain ⟨raw, asciiRaw, rfl⟩ :=
        group_made config document.operations ascii asciiDefault group member
      exact type_name_stable raw asciiRaw letter
    · have iff := groups_apart_iff config document.operations ascii asciiDefault
      rwa [← isGroups] at iff

theorem pet_interfaces_distinct : ∃ api, ofDocument? petTags {} 1 = .ok (some api)
    ∧ api.handlers.map (·.group) = ["PetStore", "PETStore"] ∧ (api.handlers.map (·.name)).Nodup := by
  obtain ⟨api, made, isGroups⟩ : ∃ api, ofDocument? petTags {} 1 = .ok (some api)
      ∧ api.handlers.map (·.group) = ["PetStore", "PETStore"] := ⟨_, rfl, by decide⟩
  obtain ⟨_, handlers, _, apart⟩ := interface_names_distinct_iff petTags {} 1 api made
  obtain ⟨_, distinct⟩ := apart (by decide +kernel) (by decide)
  refine ⟨api, made, isGroups, handlers.mpr (distinct.mpr ?_)⟩
  rw [isGroups]
  decide

-- The groups are different, but the type name of the first is the second.
theorem digit_interfaces_clash : ∃ api, ofDocument? digitTags {} 1 = .ok (some api)
    ∧ api.handlers.map (·.group) = ["1AB", "1ab"]
    ∧ api.handlers.map (·.name) = ["1abHandler", "1abHandler"]
    ∧ api.clients.map (·.name) = ["1abClient", "1abClient"] :=
  ⟨_, rfl, by decide⟩

end Api

end OpenApi
