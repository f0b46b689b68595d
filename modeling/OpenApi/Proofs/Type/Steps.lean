import OpenApi.Proofs.Naming.Identifier
import OpenApi.Proofs.Schema.Form
import OpenApi.Proofs.Schema.Position
import OpenApi.Proofs.Type.Resolve

set_option autoImplicit false

namespace OpenApi

namespace Resolution

theorem answered_bind {α β : Type} (m : Resolution α) (f : α → Resolution β) (r : Registry) (b : β)
    (answered : answer (m >>= f) r = .ok b) :
    ∃ a, answer m r = .ok a ∧ answer (f a) (after m r) = .ok b := by
  rw [answer_bind] at answered
  cases found : answer m r with
  | error e =>
      rw [found] at answered
      cases answered
  | ok a =>
      rw [found] at answered
      exact ⟨a, rfl, answered⟩

def Hinted (H : String → Prop) (hint : Option String) : Prop := ∀ name ∈ hint, H name

-- What may be synthesized: a schema of `J` at a position whose name is among those of `H`, as what
-- the schema's form makes of it. Without a name the kind does not matter.
structure Asks (J : Schema → Prop) (H : String → Prop) (hint : Option String) (s : Schema)
    (kind : ComponentKind) : Prop where
  allowed : J s
  hinted : Hinted H hint
  named : kind.isNamed = true
  formed : ∀ name ∈ hint, s.SynthesizedAs kind

-- The computation only synthesizes types whose schemas are among those of `J`, at positions whose
-- names are among those of `H`, and enters components. What follows on an answer is asked only for
-- answers that can be given.
inductive Steps (c : Catalog) (J : Schema → Prop) (H : String → Prop)
    (enter : Component → Resolution ResolvedType) : {α : Type} → Resolution α → Prop
  | lift {α : Type} (x : Except Error α) : Steps c J H enter (liftM x : Resolution α)
  | synthesize (hint : Option String) (s : Schema) (kind : ComponentKind)
      (asks : Asks J H hint s kind) : Steps c J H enter (c.synthesize hint s kind)
  | enter (d : Component) (member : d ∈ c.components) : Steps c J H enter (enter d)
  | bind {α β : Type} (m : Resolution α) (f : α → Resolution β) (first : Steps c J H enter m)
      (second : ∀ r a, answer m r = .ok a → Steps c J H enter (f a)) : Steps c J H enter (m >>= f)

variable {α β : Type} (c : Catalog) (J : Schema → Prop) (H : String → Prop)
  (enter : Component → Resolution ResolvedType)

theorem steps_pure (a : α) : Steps c J H enter (pure a) := .lift (.ok a)

theorem steps_throw (e : Error) : Steps c J H enter (throw e : Resolution α) := .lift (.error e)

theorem steps_then (m : Resolution α) (f : α → Resolution β) (first : Steps c J H enter m)
    (second : ∀ a, Steps c J H enter (f a)) : Steps c J H enter (m >>= f) :=
  .bind m f first fun _ a _ => second a

theorem steps_bind_lift (x : Except Error α) (f : α → Resolution β)
    (second : ∀ a, x = .ok a → Steps c J H enter (f a)) : Steps c J H enter (liftM x >>= f) :=
  .bind _ f (.lift x) fun _ => second

theorem steps_map (m : Resolution α) (f : α → β) (steps : Steps c J H enter m) :
    Steps c J H enter (f <$> m) := by
  rw [map_eq_pure_bind]
  exact steps_then c J H enter m _ steps fun _ => steps_pure c J H enter _

theorem steps_cons (m : Resolution α) (f : α → β) (ms : Resolution (List β))
    (first : Steps c J H enter m) (rest : Steps c J H enter ms) :
    Steps c J H enter (do let x ← m; let xs ← ms; pure (f x :: xs)) := by
  refine steps_then c J H enter m _ first fun x => ?_
  exact steps_then c J H enter ms _ rest fun xs => steps_pure c J H enter _

theorem steps_map_list (f : β → Resolution α) (items : List β)
    (each : ∀ item ∈ items, Steps c J H enter (f item)) : Steps c J H enter (items.mapM f) := by
  induction items with
  | nil =>
      rw [List.mapM_nil]
      exact steps_pure c J H enter []
  | cons item rest ih =>
      rw [List.mapM_cons]
      rw [List.forall_mem_cons] at each
      exact steps_cons c J H enter (f item) id _ each.1 (ih each.2)

theorem steps_register (I : Schema → Prop) (m : Resolution α) (steps : Steps c J H enter m)
    (weaker : ∀ s, J s → I s)
    (entered : ∀ d ∈ c.components, ∀ r, Registers c I r (after (enter d) r)) (r : Registry) :
    Registers c I r (after m r) := by
  induction steps generalizing r with
  | lift x => exact .none
  | synthesize hint s kind asks =>
      exact .next r hint s kind .none (weaker s asks.allowed) asks.named
  | enter d member => exact entered d member r
  | bind m f first second ihFirst ihSecond =>
      rw [after_bind]
      cases found : answer m r with
      | error e => exact ihFirst r
      | ok a => exact registers_trans c I r _ _ (ihFirst r) (ihSecond r a found _)

theorem steps_keep (I : Registry → Prop) (m : Resolution α) (steps : Steps c J H enter m)
    (synthesized : ∀ hint s kind r, Asks J H hint s kind → I r → I (c.synthesized hint s kind r))
    (entered : ∀ d ∈ c.components, ∀ r, I r → I (after (enter d) r)) (r : Registry) (before : I r) :
    I (after m r) := by
  induction steps generalizing r with
  | lift x => exact before
  | synthesize hint s kind asks => exact synthesized hint s kind r asks before
  | enter d member => exact entered d member r before
  | bind m f first second ihFirst ihSecond =>
      rw [after_bind]
      cases found : answer m r with
      | error e => exact ihFirst r before
      | ok a => exact ihSecond r a found _ (ihFirst r before)

end Resolution

namespace Catalog

open Resolution

-- A schema of `J`, or a reference, whose other parts do not matter.
def Resolvable (J : Schema → Prop) (s : Schema) : Prop := s.reference = none → J s

def PartClosed (J : Schema → Prop) : Prop := ∀ s, J s → ∀ p ∈ s.parts, Resolvable J p

def partNames : List String := ["Item", "Value", "Rest", "Option", "Request", "Response", "Header"]

def IsPart (more : String) : Prop := more ∈ partNames ∨ ∃ n, more = natText n

theorem part_plain (more : String) (isPart : IsPart more) : Text.Plain more.toList := by
  rcases isPart with called | ⟨n, rfl⟩
  · have all : ∀ part ∈ partNames, Text.Plain part.toList := by decide
    exact all more called
  · exact Naming.nat_text_plain n

def NameClosed (H : String → Prop) : Prop :=
  ∀ name more, H name → IsPart more → H (name ++ more)

structure Closed (J : Schema → Prop) (H : String → Prop) : Prop where
  parts : PartClosed J
  names : NameClosed H

def AnyName (_ : String) : Prop := True

theorem any_name_closed (J : Schema → Prop) (closed : PartClosed J) : Closed J AnyName :=
  ⟨closed, fun _ _ _ _ => trivial⟩

section Names

variable (H : String → Prop)

theorem hinted_none : Hinted H none := fun _ absent => by cases absent

theorem hinted_some (name : String) (inside : H name) : Hinted H (some name) := by
  rintro _ ⟨⟩
  exact inside

theorem hinted_map (hint : Option String) (hinted : Hinted H hint) (f : String → String)
    (inside : ∀ name, H name → H (f name)) : Hinted H (hint.map f) := by
  intro name present
  obtain ⟨start, isHint, rfl⟩ := Option.map_eq_some_iff.mp present
  exact inside start (hinted start isHint)

variable (names : NameClosed H)

include names

theorem name_numbered (name : String) (n : Nat) (inside : H name) : H (Naming.numbered name n) :=
  names name _ inside (.inr ⟨n, rfl⟩)

theorem hinted_append (hint : Option String) (hinted : Hinted H hint) (more : String)
    (called : more ∈ partNames) : Hinted H (hint.map (· ++ more)) :=
  hinted_map H hint hinted _ fun name inside => names name more inside (.inl called)

end Names

section Parts

variable (c : Catalog) (J : Schema → Prop) (H : String → Prop)
  (enter : Component → Resolution ResolvedType) (s : Schema) (hint : Option String)

theorem synthesize_or_steps (kind : ComponentKind) (unnamed : Resolution ResolvedType)
    (asks : Asks J H hint s kind) (otherwise : Steps c J H enter unnamed) :
    Steps c J H enter (c.synthesizeOr hint s kind unnamed) := by
  rw [synthesizeOr]
  refine steps_then c J H enter _ _ (.synthesize hint s kind asks) fun name => ?_
  cases name with
  | none => exact otherwise
  | some name => exact steps_pure c J H enter _

section Keywords

variable (item value : Option String → Resolution ResolvedType) (names : NameClosed H)
  (itemSteps : ∀ name, Hinted H name → Steps c J H enter (item name))
  (valueSteps : ∀ name, Hinted H name → Steps c J H enter (value name))

include itemSteps

theorem rest_type_steps (hinted : Hinted H (hint.map (· ++ "Rest")))
    (items : Option (OrBool Schema)) : Steps c J H enter (restType items item hint) := by
  rw [restType]
  split
  · exact steps_map c J H enter _ _ (itemSteps _ hinted)
  · exact steps_pure c J H enter none

include names valueSteps

theorem type_of_steps (allowed : J s) (hinted : Hinted H hint) (type : JsonType)
    (formed : ∀ name ∈ hint, type = .object → s.properties ≠ [] → s.SynthesizedAs .record) :
    Steps c J H enter (c.typeOf s item value hint type) := by
  have added (more : String) (called : more ∈ partNames) : Hinted H (hint.map (· ++ more)) :=
    hinted_append H names hint hinted more called
  cases type with
  | array =>
      exact steps_then c J H enter _ _ (itemSteps _ (added "Item" (by decide))) fun t =>
        steps_pure c J H enter _
  | object =>
      rw [typeOf]
      split
      · exact steps_map c J H enter _ _ (valueSteps _ (added "Value" (by decide)))
      · rename_i declares
        refine synthesize_or_steps c J H enter s hint .record _ ⟨allowed, hinted, rfl, ?_⟩
          (steps_pure c J H enter _)
        exact fun name isName => formed name isName rfl (by simpa using declares)
  | string | integer | number | boolean | null => exact steps_pure c J H enter _

theorem plain_type_steps (allowed : J s) (hinted : Hinted H hint) (plain : s.IsPlain) :
    Steps c J H enter (c.plainType s item value hint) := by
  have each (name : Option String) (isName : Hinted H name) (type : JsonType) :=
    type_of_steps c J H enter s name item value names itemSteps valueSteps allowed isName type
  rw [plainType]
  split
  · exact steps_pure c J H enter _
  · rename_i type single
    refine each hint hinted type fun _ _ isObject declares => ?_
    exact .object plain (single.trans (by rw [isObject])) declares
  · refine steps_then c J H enter _ _ ?_ fun types => steps_pure c J H enter _
    exact steps_map_list c J H enter _ _ fun type _ =>
      each none (hinted_none H) type fun _ absent => by cases absent

end Keywords

theorem composed_type_steps (only : Resolution ResolvedType) (allowed : J s)
    (hinted : Hinted H hint) (inline : s.reference = none) (onlySteps : Steps c J H enter only) :
    Steps c J H enter (c.composedType s only hint) := by
  have finish (m : Resolution ResolvedType) (steps : Steps c J H enter m) :
      Steps c J H enter (m >>= fun t => pure (t.orNull (s.allOf.any Schema.isNullMember))) :=
    steps_then c J H enter m _ steps fun t => steps_pure c J H enter _
  rw [composedType]
  dsimp only
  split
  · exact finish _ (steps_pure c J H enter _)
  · rename_i present
    split
    · exact finish _ onlySteps
    · rename_i several
      refine finish _ (synthesize_or_steps c J H enter s hint .record _ ⟨allowed, hinted, rfl, ?_⟩
        (steps_pure c J H enter _))
      exact fun _ _ => .composition inline (by simpa using present) (by simpa using several)

theorem union_type_steps (only : Resolution ResolvedType)
    (members : Resolution (List ResolvedType)) (allowed : J s) (hinted : Hinted H hint)
    (inline : s.reference = none) (uncomposed : s.allOf = [])
    (onlySteps : Steps c J H enter only) (membersSteps : Steps c J H enter members) :
    Steps c J H enter (c.unionType s only members hint) := by
  have finish (m : Resolution ResolvedType) (steps : Steps c J H enter m) :
      Steps c J H enter (m >>= fun t => pure (t.orNull s.hasUnionNull)) :=
    steps_then c J H enter m _ steps fun t => steps_pure c J H enter _
  rw [unionType]
  dsimp only
  split
  · exact finish _ (steps_pure c J H enter _)
  · rename_i present
    split
    · exact finish _ onlySteps
    · rename_i several
      refine finish _ (synthesize_or_steps c J H enter s hint .union _ ⟨allowed, hinted, rfl, ?_⟩ ?_)
      · exact fun _ _ => .union inline uncomposed (by simpa using present) (by simpa using several)
      · exact steps_then c J H enter _ _ membersSteps fun types => steps_pure c J H enter _

end Parts

section Schemas

variable (c : Catalog) (J : Schema → Prop) (H : String → Prop)
  (enter : Component → Resolution ResolvedType)

theorem resolve_or_any_steps (keyword : Option (OrBool Schema))
    (each : ∀ s ∈ OrBool.schemas keyword, ∀ hint, Hinted H hint →
      Steps c J H enter (c.resolveWith enter s hint))
    (hint : Option String) (hinted : Hinted H hint) :
    Steps c J H enter (c.resolveOrAny enter keyword hint) := by
  match keyword with
  | none => exact steps_pure c J H enter _
  | some (.bool _) => exact steps_pure c J H enter _
  | some (.schema s) => exact each s (List.mem_singleton_self s) hint hinted

theorem resolve_only_steps (passesOver : Schema → Bool) (schemas : List Schema)
    (each : ∀ s ∈ schemas, passesOver s = false → ∀ hint, Hinted H hint →
      Steps c J H enter (c.resolveWith enter s hint)) (hint : Option String)
    (hinted : Hinted H hint) :
    Steps c J H enter (c.resolveOnly enter passesOver schemas hint) := by
  induction schemas with
  | nil => exact steps_pure c J H enter _
  | cons s rest ih =>
      rw [List.forall_mem_cons] at each
      rw [resolveOnly]
      by_cases passed : passesOver s = true
      · rw [if_pos passed]
        exact ih each.2
      · rw [if_neg passed]
        exact each.1 (by simpa using passed) hint hinted

variable (schemas : List Schema)
  (each : ∀ s ∈ schemas, ∀ hint, Hinted H hint → Steps c J H enter (c.resolveWith enter s hint))

include each

theorem resolve_members_steps : Steps c J H enter (c.resolveMembers enter schemas) := by
  induction schemas with
  | nil => exact steps_pure c J H enter []
  | cons s rest ih =>
      rw [List.forall_mem_cons] at each
      rw [resolveMembers]
      split
      · exact ih each.2
      · exact steps_cons c J H enter _ id _ (each.1 none (hinted_none H)) (ih each.2)

theorem resolve_items_steps (names : NameClosed H) (n : Nat) (hint : Option String)
    (hinted : Hinted H hint) : Steps c J H enter (c.resolveItems enter n schemas hint) := by
  induction schemas generalizing n with
  | nil => exact steps_pure c J H enter []
  | cons s rest ih =>
      rw [List.forall_mem_cons] at each
      have inside (name : String) (start : H name) : H (Naming.numbered (name ++ "Item") n) :=
        name_numbered H names _ n (names name "Item" start (.inl (by decide)))
      rw [resolveItems]
      exact steps_cons c J H enter _ id _ (each.1 _ (hinted_map H hint hinted _ inside))
        (ih each.2 (n + 1))

end Schemas

section Whole

variable (c : Catalog) (J : Schema → Prop) (H : String → Prop)
  (enter : Component → Resolution ResolvedType)

theorem reference_steps (reference : String) :
    Steps c J H enter (c.referenceType enter reference) := by
  rw [referenceType]
  refine steps_bind_lift c J H enter _ _ fun found resolved => ?_
  split
  · exact steps_pure c J H enter _
  · exact .enter found (target_mem c reference found resolved)

theorem bare_type_steps (names : NameClosed H) (s : Schema) (resolvable : Resolvable J s)
    (each : s.reference = none → ∀ p ∈ s.parts, ∀ hint, Hinted H hint →
      Steps c J H enter (c.resolveWith enter p hint)) (hint : Option String)
    (hinted : Hinted H hint) : Steps c J H enter (c.bareType enter s hint) := by
  rw [bareType]
  cases refers : s.reference with
  | some reference => exact reference_steps c J H enter reference
  | none =>
      have allowed := resolvable refers
      have position : ∀ p ∈ s.positions, ∀ hint, Hinted H hint →
          Steps c J H enter (c.resolveWith enter p hint) :=
        fun p member => each refers p (s.position_part p member)
      have item : ∀ name, Hinted H name → Steps c J H enter (c.resolveOrAny enter s.items name) :=
        resolve_or_any_steps c J H enter s.items fun p member =>
          position p (s.items_position p member)
      have value : ∀ name, Hinted H name →
          Steps c J H enter (c.resolveOrAny enter s.additionalProperties name) :=
        resolve_or_any_steps c J H enter s.additionalProperties fun p member =>
          position p (s.additional_position p member)
      have union (members : List Schema) (inside : members ⊆ s.positions) (uncomposed : s.allOf = []) :
          Steps c J H enter (c.unionType s (c.resolveOnly enter Schema.isNullOnly members hint)
            (c.resolveMembers enter members) hint) := by
        have each : ∀ p ∈ members, ∀ hint, Hinted H hint →
            Steps c J H enter (c.resolveWith enter p hint) :=
          fun p member => position p (inside member)
        exact union_type_steps c J H enter s hint _ _ allowed hinted refers uncomposed
          (resolve_only_steps c J H enter _ members (fun p member _ => each p member) hint hinted)
          (resolve_members_steps c J H enter members each)
      dsimp only
      split
      · exact composed_type_steps c J H enter s hint _ allowed hinted refers
          (resolve_only_steps c J H enter _ s.allOf
            (fun p member present => each refers p (s.member_part p member present)) hint hinted)
      · rename_i uncomposed
        replace uncomposed : s.allOf = [] := by simpa using uncomposed
        split
        · exact union s.oneOf (fun p member => by simp [Schema.positions, member]) uncomposed
        · rename_i noOne
          split
          · exact union s.anyOf (fun p member => by simp [Schema.positions, member]) uncomposed
          · rename_i noAny
            split
            · refine steps_then c J H enter _ _ ?_ fun types => ?_
              · exact resolve_items_steps c J H enter s.prefixItems
                  (fun p member => position p (s.element_position p member)) names 1 hint hinted
              · exact steps_then c J H enter _ _ (rest_type_steps c J H enter hint _ item
                  (hinted_append H names hint hinted "Rest" (by decide)) s.items)
                  fun rest => steps_pure c J H enter _
            · rename_i noTuple
              have noUnion : s.unionMembers = [] :=
                s.no_union_iff.mpr ⟨by simpa using noOne, by simpa using noAny⟩
              have isPlain : s.IsPlain := ⟨refers, uncomposed, noUnion, by simpa using noTuple⟩
              have plain := plain_type_steps c J H enter s hint _ _ names item value allowed hinted
                isPlain
              split
              · rename_i enumerable
                refine synthesize_or_steps c J H enter s hint .enumeration _
                  ⟨allowed, hinted, rfl, ?_⟩ plain
                exact fun _ _ => .enumeration isPlain enumerable
              · exact plain

theorem resolve_with_steps (closed : Closed J H) (s : Schema) : Resolvable J s →
    ∀ hint, Hinted H hint → Steps c J H enter (c.resolveWith enter s hint) := by
  induction s using Schema.child_induction with
  | step s ih =>
      intro resolvable hint hinted
      rw [resolve_with_eq]
      refine steps_then c J H enter _ _ ?_ fun t => steps_pure c J H enter _
      refine bare_type_steps c J H enter closed.names s resolvable (fun inline p member => ?_) hint
        hinted
      exact ih p (s.part_child p member) (closed.parts s (resolvable inline) p member)

theorem enter_alias_registers (closed : PartClosed J) (components : ∀ d ∈ c.components, J d.schema)
    (depth : Nat) :
    ∀ trail, ∀ d ∈ c.components, ∀ r, Registers c J r (after (c.enterAlias depth trail d) r) := by
  induction depth with
  | zero => exact fun trail d _ r => .none
  | succ depth ih =>
      intro trail d member r
      rw [enterAlias]
      split
      · exact .none
      · exact steps_register c J AnyName _ J _
          (resolve_with_steps c J AnyName _ (any_name_closed J closed) d.schema
            (fun _ => components d member) _ fun _ _ => trivial)
          (fun s allowed => allowed) (ih _) r

theorem enter_alias_keep (I : Registry → Prop) (closed : Closed J H)
    (components : ∀ d ∈ c.components, J d.schema ∧ H d.typeName)
    (synthesized : ∀ hint s kind r, Asks J H hint s kind → I r → I (c.synthesized hint s kind r))
    (depth : Nat) :
    ∀ trail, ∀ d ∈ c.components, ∀ r, I r → I (after (c.enterAlias depth trail d) r) := by
  induction depth with
  | zero => exact fun trail d _ r before => before
  | succ depth ih =>
      intro trail d member r before
      obtain ⟨allowed, inside⟩ := components d member
      rw [enterAlias]
      split
      · exact before
      · exact steps_keep c J H _ I _ (resolve_with_steps c J H _ closed d.schema (fun _ => allowed) _
          (hinted_some H d.typeName inside)) synthesized (ih _) r before

end Whole

end Catalog

end OpenApi
