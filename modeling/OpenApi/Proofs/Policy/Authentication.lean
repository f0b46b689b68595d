import OpenApi.Policy.Operation
import OpenApi.Proofs.Decode.Basic

set_option autoImplicit false

namespace OpenApi

def PolicyLevel.rank : PolicyLevel → Nat
  | .document => 0
  | .pathItem => 1
  | .operation => 2

namespace ExtensionScope

variable (scope : ExtensionScope) (key : String)

def Declares (level : PolicyLevel) (v : Value) : Prop :=
  ∃ extensions, (level, extensions) ∈ scope ∧ extensions.lookup key = some v

structure MostSpecific (level : PolicyLevel) (v : Value) : Prop where
  declares : scope.Declares key level v
  above : ∀ other w, scope.Declares key other w → other.rank ≤ level.rank

def Enables : Prop := ∃ level v, scope.MostSpecific key level v ∧ isOff v = false

def Descends : Prop := scope.Pairwise fun before after => after.1.rank < before.1.rank

theorem declares_cons (first : PolicyLevel) (extensions : List (String × Value))
    (level : PolicyLevel) (v : Value) : Declares ((first, extensions) :: scope) key level v
      ↔ (level = first ∧ extensions.lookup key = some v) ∨ scope.Declares key level v := by
  constructor
  · rintro ⟨own, member, found⟩
    rcases List.mem_cons.mp member with same | later
    · cases same
      exact .inl ⟨rfl, found⟩
    · exact .inr ⟨own, later, found⟩
  · rintro (⟨rfl, found⟩ | ⟨own, later, found⟩)
    · exact ⟨extensions, List.mem_cons_self, found⟩
    · exact ⟨own, List.mem_cons_of_mem _ later, found⟩

section Lookup

variable (first : PolicyLevel) (extensions : List (String × Value))

theorem lookup_first (w : Value) (found : extensions.lookup key = some w) :
    lookup? ((first, extensions) :: scope) key = some ⟨w, first⟩ := by
  rw [lookup?, List.findSome?_cons]
  dsimp only
  rw [found, Option.map_some]

theorem lookup_later (absent : extensions.lookup key = none) :
    lookup? ((first, extensions) :: scope) key = lookup? scope key := by
  rw [lookup?, List.findSome?_cons]
  dsimp only
  rw [absent, Option.map_none, lookup?]

end Lookup

theorem lookup_iff (descends : scope.Descends) (level : PolicyLevel) (v : Value) :
    scope.lookup? key = some ⟨v, level⟩ ↔ scope.MostSpecific key level v := by
  induction scope with
  | nil =>
    refine ⟨nofun, fun most => ?_⟩
    obtain ⟨_, member, -⟩ := most.declares
    cases member
  | cons entry rest ih =>
    obtain ⟨first, extensions⟩ := entry
    obtain ⟨lower, restDescends⟩ := List.pairwise_cons.mp descends
    cases found : extensions.lookup key with
    | some w =>
      rw [lookup_first rest key first extensions w found]
      have declared : Declares ((first, extensions) :: rest) key first w :=
        (declares_cons ..).mpr (.inl ⟨rfl, found⟩)
      have below (other : PolicyLevel) (u : Value) (later : Declares rest key other u) :
          other.rank < first.rank := by
        obtain ⟨own, member, -⟩ := later
        exact lower _ member
      constructor
      · intro same
        cases same
        refine ⟨declared, fun other u declares => ?_⟩
        rcases (declares_cons ..).mp declares with ⟨rfl, -⟩ | later
        · exact Nat.le_refl _
        · exact Nat.le_of_lt (below other u later)
      · intro most
        rcases (declares_cons ..).mp most.declares with ⟨rfl, own⟩ | later
        · rw [found] at own
          cases own
          rfl
        · exact absurd (below level v later) (Nat.not_lt.mpr (most.above first w declared))
    | none =>
      have same (other : PolicyLevel) (u : Value) :
          Declares ((first, extensions) :: rest) key other u ↔ Declares rest key other u := by
        rw [declares_cons, found]
        exact or_iff_right fun own => nomatch own.2
      rw [lookup_later rest key first extensions found, ih restDescends]
      constructor
      · exact fun most => ⟨(same ..).mpr most.declares, fun other u declares =>
          most.above other u ((same ..).mp declares)⟩
      · exact fun most => ⟨(same ..).mp most.declares, fun other u declares =>
          most.above other u ((same ..).mpr declares)⟩

theorem read_cases {α : Type} (descends : scope.Descends) (decode : Value → Except Fault α)
    (found : Option (Scoped α)) (made : scope.read key decode = .ok found) :
    (found = none ∧ ¬ scope.Enables key)
      ∨ ∃ a level v, found = some ⟨a, level⟩ ∧ scope.MostSpecific key level v
        ∧ isOff v = false ∧ decode v = .ok a := by
  rw [read] at made
  cases search : scope.lookup? key with
  | none =>
    rw [search] at made
    cases made
    refine .inl ⟨rfl, ?_⟩
    rintro ⟨level, v, most, -⟩
    cases search.symm.trans ((lookup_iff scope key descends level v).mpr most)
  | some raw =>
    have most := (lookup_iff scope key descends raw.level raw.value).mp search
    rw [search] at made
    dsimp only at made
    cases off : isOff raw.value with
    | true =>
      rw [off, if_pos rfl] at made
      cases made
      refine .inl ⟨rfl, ?_⟩
      rintro ⟨level, v, most', on⟩
      cases search.symm.trans ((lookup_iff scope key descends level v).mpr most')
      exact absurd (off.symm.trans on) nofun
    | false =>
      rw [off, if_neg Bool.false_ne_true] at made
      cases decoded : decode raw.value with
      | error fault =>
        rw [decoded] at made
        cases made
      | ok a =>
        rw [decoded] at made
        cases made
        exact .inr ⟨a, raw.level, raw.value, rfl, most, off, decoded⟩

theorem of_operation_descends (document : Document) (entry : OperationEntry) :
    (ofOperation document entry).Descends := by
  simp [ofOperation, Descends, PolicyLevel.rank]

def AllowsAnonymous : Prop := ∃ level, scope.MostSpecific "x-allow-anonymous" level (.bool true)

theorem anonymous_read (descends : scope.Descends) (found : Option (Scoped Bool))
    (made : scope.read "x-allow-anonymous" Decode.boolean = .ok found) :
    found.any (·.value) = true ↔ scope.AllowsAnonymous := by
  rcases read_cases scope _ descends Decode.boolean found made with
    ⟨rfl, disabled⟩ | ⟨a, level, v, rfl, most, on, decoded⟩
  · refine ⟨nofun, ?_⟩
    rintro ⟨level, most⟩
    exact absurd ⟨level, _, most, rfl⟩ disabled
  · cases v with
    | bool b =>
      obtain rfl : b = a := Except.ok.inj decoded
      cases b with
      | true => exact ⟨fun _ => ⟨level, most⟩, fun _ => rfl⟩
      | false => cases on
    | null | num | str | arr | obj => cases decoded

end ExtensionScope

def Document.requirements (document : Document) (operation : Operation) :
    Option (List SecurityRequirement) := operation.security.or document.contents.security

def Document.Secures (document : Document) (operation : Operation) : Prop :=
  ∃ requirements, document.requirements operation = some requirements ∧ requirements ≠ []
    ∧ [] ∉ requirements

namespace SecurityPolicy

theorem schemes_none (components : Components) (items : List SecurityRequirement)
    (resolved : List (List SchemeUse)) (made : items.mapM (schemes components) = .ok resolved) :
    resolved = [] ↔ items = [] := by
  cases items with
  | nil =>
    cases made
    exact ⟨fun _ => rfl, fun _ => rfl⟩
  | cons first rest =>
    rw [List.mapM_cons] at made
    obtain ⟨uses, -, made⟩ := ok_of_bind _ _ _ made
    obtain ⟨others, -, made⟩ := ok_of_bind _ _ _ made
    cases made
    exact ⟨nofun, nofun⟩

theorem of_requirements_secured (components : Components) (level : PolicyLevel)
    (requirements : List SecurityRequirement) (policy : SecurityPolicy)
    (made : ofRequirements components level requirements = .ok policy) :
    (!policy.anonymous && !policy.requirements.isEmpty) = true
      ↔ requirements ≠ [] ∧ [] ∉ requirements := by
  obtain ⟨resolved, resolution, made⟩ := ok_of_bind _ _ _ made
  cases made
  have none := schemes_none components _ resolved resolution
  have present : requirements.any (·.isEmpty) = false ↔ [] ∉ requirements := by
    rw [List.any_eq_false]
    exact ⟨fun each member => each [] member rfl, fun absent r member isEmpty =>
      absent (List.isEmpty_iff.mp isEmpty ▸ member)⟩
  have secured : (!(requirements.isEmpty || requirements.any (·.isEmpty)) && !resolved.isEmpty)
      = true ↔ (requirements ≠ [] ∧ [] ∉ requirements) ∧ resolved ≠ [] := by
    rw [← present]
    simp
  refine secured.trans (and_iff_left_of_imp fun ⟨nonempty, required⟩ => ?_)
  have kept : requirements.filter (!·.isEmpty) = requirements :=
    List.filter_eq_self.mpr fun r member => by
      cases r with
      | nil => exact absurd member required
      | cons => rfl
  rwa [Ne, none, kept]

theorem read_requirements (document : Document) (operation : Operation)
    (policy : Option SecurityPolicy) (made : read document operation = .ok policy) :
    (policy = none ∧ document.requirements operation = none)
      ∨ ∃ s level requirements, policy = some s
        ∧ document.requirements operation = some requirements
        ∧ ofRequirements document.contents.components level requirements = .ok s := by
  have mapped (level : PolicyLevel) (requirements : List SecurityRequirement)
      (made : some <$> ofRequirements document.contents.components level requirements = .ok policy) :
      ∃ s, policy = some s
        ∧ ofRequirements document.contents.components level requirements = .ok s := by
    cases resolved : ofRequirements document.contents.components level requirements with
    | error e =>
      rw [resolved] at made
      cases made
    | ok s =>
      rw [resolved] at made
      cases made
      exact ⟨s, rfl, rfl⟩
  rw [read] at made
  rw [Document.requirements]
  cases own : operation.security with
  | some requirements =>
    rw [own] at made
    obtain ⟨s, isPolicy, resolved⟩ := mapped _ _ made
    exact .inr ⟨s, .operation, requirements, isPolicy, rfl, resolved⟩
  | none =>
    rw [own] at made
    cases shared : document.contents.security with
    | some requirements =>
      rw [shared] at made
      obtain ⟨s, isPolicy, resolved⟩ := mapped _ _ made
      exact .inr ⟨s, .document, requirements, isPolicy, rfl, resolved⟩
    | none =>
      rw [shared] at made
      cases made
      exact .inl ⟨rfl, rfl⟩

end SecurityPolicy

namespace OperationPolicies

variable (document : Document) (entry : OperationEntry) (p : OperationPolicies)

theorem read_parts (made : read document entry = .ok p) :
    let scope := ExtensionScope.ofOperation document entry
    SecurityPolicy.read document entry.operation = .ok p.security
      ∧ scope.read "x-authorization" AuthorizationPolicy.decode = .ok p.authorization
      ∧ ∃ anonymous, scope.read "x-allow-anonymous" Decode.boolean = .ok anonymous
        ∧ p.allowAnonymous = anonymous.any (·.value) := by
  intro scope
  obtain ⟨cache, -, made⟩ := ok_of_bind _ _ _ made
  obtain ⟨retry, -, made⟩ := ok_of_bind _ _ _ made
  obtain ⟨security, secured, made⟩ := ok_of_bind _ _ _ made
  obtain ⟨authorization, authorized, made⟩ := ok_of_bind _ _ _ made
  obtain ⟨anonymous, allowed, made⟩ := ok_of_bind _ _ _ made
  cases made
  exact ⟨secured, authorized, anonymous, allowed, rfl⟩

theorem secured_iff (made : SecurityPolicy.read document entry.operation = .ok p.security) :
    p.isSecured = true ↔ document.Secures entry.operation := by
  rw [isSecured, Document.Secures]
  rcases SecurityPolicy.read_requirements document entry.operation p.security made with
    ⟨absent, undeclared⟩ | ⟨s, level, requirements, present, declared, resolved⟩
  · rw [absent, undeclared]
    exact ⟨nofun, nofun⟩
  · rw [present, declared]
    refine (SecurityPolicy.of_requirements_secured _ level requirements s resolved).trans ?_
    constructor
    · exact fun secures => ⟨requirements, rfl, secures⟩
    · rintro ⟨_, ⟨⟩, secures⟩
      exact secures

/-- Where the most specific level that declares authorization does not switch it off, callers have to
authenticate exactly if anonymous calls are not allowed, whatever the levels are. They need not where
the most specific level that declares whether anonymous calls are allowed says so. Where authorization
is not declared or switched off, the security requirements decide. -/
theorem authentication_decided (made : read document entry = .ok p) :
    let scope := ExtensionScope.ofOperation document entry
    (∀ level v, scope.MostSpecific "x-authorization" level v → ExtensionScope.isOff v = false →
      (p.requiresAuth = true ↔ ¬ scope.AllowsAnonymous))
    ∧ (∀ level, scope.MostSpecific "x-allow-anonymous" level (.bool true) → p.requiresAuth = false)
    ∧ (¬ scope.Enables "x-authorization" →
      (p.requiresAuth = true ↔ ¬ scope.AllowsAnonymous ∧ document.Secures entry.operation)) := by
  intro scope
  have descends := ExtensionScope.of_operation_descends document entry
  obtain ⟨security, authorization, found, anonymous, isAllowed⟩ := read_parts document entry p made
  have allowed : p.allowAnonymous = true ↔ scope.AllowsAnonymous := by
    rw [isAllowed]
    exact scope.anonymous_read descends found anonymous
  have authorized : p.authorization.isSome = true ↔ scope.Enables "x-authorization" := by
    rcases scope.read_cases _ descends _ _ authorization with
      ⟨absent, disabled⟩ | ⟨a, level, v, present, most, on, -⟩
    · rw [absent]
      exact iff_of_false nofun disabled
    · rw [present]
      exact iff_of_true rfl ⟨level, v, most, on⟩
  have required : p.requiresAuth = true ↔ ¬ scope.AllowsAnonymous
      ∧ (document.Secures entry.operation ∨ scope.Enables "x-authorization") := by
    rw [← allowed, ← authorized, ← secured_iff document entry p security, requiresAuth]
    simp
  refine ⟨fun level v most on => ?_, fun level most => ?_, fun disabled => ?_⟩
  · exact required.trans (and_iff_left (.inr ⟨level, v, most, on⟩))
  · exact Bool.eq_false_iff.mpr fun needed => (required.mp needed).1 ⟨level, most⟩
  · exact required.trans (and_congr_right fun _ => or_iff_left disabled)

def openDocument : Document where
  contents := { extensions := [("x-allow-anonymous", .bool true)] }
  version := .v31

def removal (extensions : Extensions) : OperationEntry where
  path := "/pets"
  method := "DELETE"
  pathItem := {}
  operation := { extensions }

def anonymousRemoval : OperationEntry := removal [("x-cache", .num (.int 60))]

def guardedRemoval : OperationEntry :=
  removal [("x-allow-anonymous", .bool false), ("x-authorization", .str "Admin")]

theorem removals_decided : ∃ p q,
    read openDocument anonymousRemoval = .ok p ∧ p.requiresAuth = false
      ∧ read openDocument guardedRemoval = .ok q ∧ q.requiresAuth = true := by
  have most (entry : OperationEntry) (key : String) (level : PolicyLevel) (v : Value) :=
    ExtensionScope.lookup_iff _ key (ExtensionScope.of_operation_descends openDocument entry) level v
  refine ⟨_, _, rfl, ?_, rfl, ?_⟩
  · exact (authentication_decided openDocument anonymousRemoval _ rfl).2.1 .document
      ((most ..).mp rfl)
  · refine ((authentication_decided openDocument guardedRemoval _ rfl).1 .operation (.str "Admin")
      ((most ..).mp rfl) rfl).mpr ?_
    rintro ⟨level, allows⟩
    cases (most ..).mpr allows

-- Authorization is declared on the operation and anonymous calls in the document only, but that is
-- what counts.
def unguardedRemoval : OperationEntry := removal [("x-authorization", .str "Admin")]

theorem unguarded_removal_anonymous :
    let scope := ExtensionScope.ofOperation openDocument unguardedRemoval
    scope.MostSpecific "x-authorization" .operation (.str "Admin")
      ∧ ExtensionScope.isOff (.str "Admin") = false
      ∧ (∀ other v, scope.Declares "x-allow-anonymous" other v
        → other.rank < PolicyLevel.operation.rank)
      ∧ ∃ p, read openDocument unguardedRemoval = .ok p ∧ p.requiresAuth = false := by
  have descends := ExtensionScope.of_operation_descends openDocument unguardedRemoval
  refine ⟨(ExtensionScope.lookup_iff _ _ descends _ _).mp rfl, rfl, ?_, _, rfl, rfl⟩
  rintro other v ⟨extensions, member, found⟩
  have allows : (ExtensionScope.ofOperation openDocument unguardedRemoval).MostSpecific
      "x-allow-anonymous" .document (.bool true) :=
    (ExtensionScope.lookup_iff _ _ descends _ _).mp rfl
  exact Nat.lt_of_le_of_lt (allows.above other v ⟨extensions, member, found⟩) (by decide)

end OperationPolicies

end OpenApi
