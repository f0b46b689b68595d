import OpenApi.Proofs.Component.Discriminator
import OpenApi.Proofs.Type.Run

set_option autoImplicit false

namespace OpenApi

-- What each item adds, given the items before it and its place.
def listed {α β : Type} (add : List α → Nat → α → Option β) (before items : List α) : List β :=
  (items.zipIdx before.length).filterMap fun (item, n) => add ((before ++ items).take n) n item

theorem listed_cons {α β : Type} (add : List α → Nat → α → Option β) (before rest : List α)
    (item : α) : listed add before (item :: rest)
      = (add before before.length item).toList ++ listed add (before ++ [item]) rest := by
  have length : (before ++ [item]).length = before.length + 1 := by simp
  rw [listed, listed, List.zipIdx_cons, List.filterMap_cons, length, List.append_assoc]
  dsimp only [List.singleton_append]
  rw [List.take_left]
  cases add before before.length item <;> rfl

theorem mem_listed {α β : Type} (add : List α → Nat → α → Option β) (items : List α) (b : β) :
    b ∈ listed add [] items
      ↔ ∃ n item, items[n]? = some item ∧ add (items.take n) n item = some b := by
  simp only [listed, List.mem_filterMap, Prod.exists, List.length_nil, List.nil_append,
    List.mem_zipIdx_iff_getElem?]
  exact exists_comm

namespace Resolution

variable {α β : Type} (c : Catalog) (J : Schema → Prop)

theorem registers_back (r r' : Registry) (there : Registers c J r r') (back : Registers c J r' r) :
    r' = r := by
  have taken := registers_taken c J r r' there
  have same : r.types = r'.types :=
    List.IsPrefix.eq_of_length_le (registers_extends c J r r' there)
      (List.IsPrefix.length_le (registers_extends c J r' r back))
  rw [Registry.types, Registry.types, taken] at same
  cases r
  cases r'
  cases taken
  cases List.append_cancel_left same
  rfl

theorem settled_bind (m : Resolution α) (f : α → Resolution β) (r : Registry) (a : α)
    (first : ∀ r, Registers c J r (after m r)) (later : ∀ r, Registers c J r (after (f a) r))
    (found : answer m r = .ok a) (settled : after (m >>= f) r = r) :
    after m r = r ∧ after (f a) r = r := by
  rw [after_bind, found] at settled
  dsimp only at settled
  have back := later (after m r)
  rw [settled] at back
  have unchanged := registers_back c J r _ (first r) back
  rw [unchanged] at settled
  exact ⟨unchanged, settled⟩

end Resolution

namespace Catalog

open Resolution

def mappedComponent? (c : Catalog) (entry : String × String) : Option Component :=
  (Reference.mappingTarget? entry.2).bind c.component?

def referred? (c : Catalog) (m : Schema) : Option Component :=
  if m.isNullOnly then none
  else m.reference.bind fun reference =>
    (Reference.componentName? .schemas reference).bind c.component?

def coveredNames (c : Catalog) (mapping : List (String × String)) (members : List Schema) :
    List String :=
  (mapping.filterMap c.mappedComponent? ++ members.filterMap c.referred?).map (·.name)

-- The component that a member refers to, if neither the mapping nor an earlier member has it.
def implicit? (c : Catalog) (mapping : List (String × String)) (before : List Schema) (m : Schema) :
    Option Component :=
  (c.referred? m).filter fun d => !(c.coveredNames mapping before).contains d.name

def implicitComponents (c : Catalog) (mapping : List (String × String)) (members : List Schema) :
    List Component :=
  listed (fun before _ m => c.implicit? mapping before m) [] members

def inlineName? (c : Catalog) (union : String) (r : Registry) (n : Nat) (m : Schema) :
    Option String :=
  if m.isNullOnly || m.reference.isSome then none
  else (answer (c.resolve m (some (optionName union (n + 1)))) r).toOption.bind (·.type.name?)

def mappedVariant? (c : Catalog) (entry : String × String) : Option Variant :=
  (c.mappedComponent? entry).map fun d => ⟨entry.1, d.typeName⟩

def memberVariant? (c : Catalog) (union : String) (mapping : List (String × String)) (r : Registry)
    (before : List Schema) (n : Nat) (m : Schema) : Option Variant :=
  ((c.implicit? mapping before m).map fun d => ⟨d.name, d.typeName⟩)
    <|> (c.inlineName? union r n m).map fun name => ⟨name, name⟩

section Mapping

variable (c : Catalog)

theorem mapping_targets_eq (mapping : List (String × String)) : c.mappingTargets mapping =
    match mapping.find? fun entry => (c.mappedComponent? entry).isNone with
    | some entry => .error (.unresolvedReference entry.2)
    | none => .ok (mapping.filterMap fun entry => (c.mappedComponent? entry).map (entry.1, ·)) := by
  induction mapping with
  | nil => rfl
  | cons entry rest ih =>
      rcases entry with ⟨value, target⟩
      rw [mappingTargets, List.find?_cons, List.filterMap_cons]
      cases found : c.mappedComponent? (value, target) with
      | none =>
          rw [mappedComponent?] at found
          rw [found]
          rfl
      | some d =>
          rw [mappedComponent?] at found
          rw [found, ih]
          dsimp only [Option.isNone_some, Option.map_some]
          cases rest.find? fun entry => (c.mappedComponent? entry).isNone <;> rfl

theorem mapping_targeted (mapping : List (String × String)) (targets : List (String × Component))
    (made : c.mappingTargets mapping = .ok targets) :
    (∀ entry ∈ mapping, (c.mappedComponent? entry).isSome = true)
      ∧ targets = mapping.filterMap fun entry => (c.mappedComponent? entry).map (entry.1, ·) := by
  rw [mapping_targets_eq] at made
  split at made
  · cases made
  · rename_i noneMissing
    cases made
    refine ⟨fun entry member => ?_, rfl⟩
    simpa [Option.isSome_iff_ne_none] using List.find?_eq_none.mp noneMissing entry member

theorem target_eq (reference : String) : c.target reference =
    match (Reference.componentName? .schemas reference).bind c.component? with
    | some d => .ok d
    | none => .error (.unresolvedReference reference) := rfl

theorem referred_eq (m : Schema) (reference : String) (d : Component)
    (present : m.isNullOnly = false) (refers : m.reference = some reference)
    (resolved : c.target reference = .ok d) : c.referred? m = some d := by
  rw [target_eq] at resolved
  rw [referred?, present, refers, Option.bind_some]
  split at resolved
  · rename_i found
    cases resolved
    exact found
  · cases resolved

theorem referred_found (m : Schema) (d : Component) (refers : c.referred? m = some d) :
    c.component? d.name = some d := by
  rw [referred?] at refers
  split at refers
  · cases refers
  · obtain ⟨_, _, found⟩ := Option.bind_eq_some_iff.mp refers
    obtain ⟨name, _, isComponent⟩ := Option.bind_eq_some_iff.mp found
    rw [(component_mem c name d isComponent).2]
    exact isComponent

end Mapping

section Member

variable (c : Catalog) (union : String)

def addMember (n : Nat) (mapped : List String) (m : Schema) :
    Resolution (Option Variant × List String) :=
  if m.isNullOnly then pure (none, mapped)
  else
    match m.reference with
    | some reference => do
      let found ← c.target reference
      pure (if mapped.contains found.name then (none, mapped)
        else (some ⟨found.name, found.typeName⟩, mapped ++ [found.name]))
    | none => do
      let t ← c.resolve m (some (optionName union n))
      pure (t.type.name?.map fun name => ⟨name, name⟩, mapped)

theorem member_variants_cons (n : Nat) (mapped : List String) (m : Schema) (rest : List Schema) :
    c.memberVariants union n mapped (m :: rest) = (do
      let added ← addMember c union n mapped m
      let others ← c.memberVariants union (n + 1) added.2 rest
      pure (added.1.toList ++ others)) := by
  rw [memberVariants, addMember]
  by_cases isNull : m.isNullOnly = true
  · simp [isNull]
  · rw [if_neg isNull, if_neg isNull]
    cases m.reference with
    | some reference =>
        dsimp only
        rw [bind_assoc]
        refine bind_congr fun found => ?_
        split <;> simp
    | none =>
        dsimp only
        rw [bind_assoc]
        refine bind_congr fun t => ?_
        rw [pure_bind]
        refine bind_congr fun others => ?_
        cases t.type.name? <;> rfl

variable (components : ∀ d ∈ c.components, d.schema.isKeyed = true)

include components

theorem add_member_lawful (n : Nat) (mapped : List String) (m : Schema) (keyed : m.isKeyed = true) :
    Lawful c (·.isKeyed = true) (addMember c union n mapped m) fun _ _ => True := by
  rw [addMember]
  split
  · exact lawful_pure c _ _ _ fun _ => trivial
  · split
    · exact lawful_bind_lift c _ _ _ _ fun _ _ => lawful_pure c _ _ _ fun _ => trivial
    · refine lawful_bind c _ c.Knows _ _ _ (knows_lasting c)
        (resolve_keyed c components ⟨m, keyed⟩ _) fun t => ?_
      exact lawful_pure c _ _ _ fun _ _ => trivial

theorem member_variants_keyed (members : List Schema) (keyed : ∀ m ∈ members, m.isKeyed = true)
    (n : Nat) (mapped : List String) :
    Lawful c (·.isKeyed = true) (c.memberVariants union n mapped members) fun _ _ => True := by
  induction members generalizing n mapped with
  | nil => exact lawful_pure c _ _ [] fun _ => trivial
  | cons m rest ih =>
      rw [List.forall_mem_cons] at keyed
      rw [member_variants_cons]
      refine lawful_bind c _ (fun _ _ => True) _ _ _ (fun _ _ _ _ _ => trivial)
        (add_member_lawful c union components n mapped m keyed.1) fun added => ?_
      refine lawful_bind c _ (fun _ _ => True) _ _ _ (fun _ _ _ _ _ => trivial)
        (lawful_weaken c _ _ _ _ (ih keyed.2 (n + 1) added.2) fun _ _ _ => trivial) fun others => ?_
      exact lawful_pure c _ _ _ fun _ _ _ => trivial

end Member

section Listed

variable (c : Catalog) (mapping : List (String × String))

theorem covered_names_concat (before : List Schema) (m : Schema) (name : String) :
    name ∈ c.coveredNames mapping (before ++ [m])
      ↔ name ∈ c.coveredNames mapping before ∨ ∃ d, c.referred? m = some d ∧ d.name = name := by
  cases refers : c.referred? m <;> simp [coveredNames, refers, or_assoc, eq_comm]

theorem implicit_iff (before : List Schema) (m : Schema) (d : Component) :
    c.implicit? mapping before m = some d
      ↔ c.referred? m = some d ∧ d.name ∉ c.coveredNames mapping before := by
  simp [implicit?, Option.filter_eq_some_iff]

theorem member_answered (union : String) (n : Nat) (r : Registry) (m : Schema)
    (mapped : List String) (added : Option Variant × List String)
    (made : answer (addMember c union n mapped m) r = .ok added) :
    (m.isNullOnly = true ∧ added = (none, mapped))
      ∨ (∃ d, m.reference.isSome = true ∧ c.referred? m = some d ∧ added = if d.name ∈ mapped
          then (none, mapped) else (some ⟨d.name, d.typeName⟩, mapped ++ [d.name]))
      ∨ ∃ t, m.isNullOnly = false ∧ m.reference = none
          ∧ answer (c.resolve m (some (optionName union n))) r = .ok t
          ∧ added = (t.type.name?.map fun name => ⟨name, name⟩, mapped) := by
  rw [addMember] at made
  by_cases isNull : m.isNullOnly = true
  · rw [if_pos isNull] at made
    cases made
    exact .inl ⟨isNull, rfl⟩
  · rw [if_neg isNull] at made
    have present : m.isNullOnly = false := by simpa using isNull
    cases refers : m.reference with
    | some reference =>
        rw [refers] at made
        obtain ⟨d, resolved, made⟩ := answered_bind _ _ r added made
        have resolved : c.target reference = .ok d := resolved
        cases made
        have isReferred := referred_eq c m reference d present refers resolved
        exact .inr (.inl ⟨d, rfl, isReferred, by simp only [List.contains_iff_mem]⟩)
    | none =>
        rw [refers] at made
        obtain ⟨t, resolved, made⟩ := answered_bind _ _ r added made
        cases made
        exact .inr (.inr ⟨t, present, rfl, resolved, rfl⟩)

theorem member_added (union : String) (r : Registry) (before : List Schema) (m : Schema)
    (mapped : List String) (same : ∀ name, name ∈ mapped ↔ name ∈ c.coveredNames mapping before)
    (added : Option Variant × List String)
    (made : answer (addMember c union (before.length + 1) mapped m) r = .ok added) :
    added.1 = c.memberVariant? union mapping r before before.length m
      ∧ (∀ name, name ∈ added.2 ↔ name ∈ c.coveredNames mapping (before ++ [m])) := by
  simp only [covered_names_concat, ← same]
  rcases member_answered c union _ r m mapped added made with
    ⟨isNull, rfl⟩ | ⟨d, isReference, refers, rfl⟩ | ⟨t, present, inline, resolved, rfl⟩
  · have nothing : c.referred? m = none := by simp [referred?, isNull]
    simp [memberVariant?, implicit?, inlineName?, nothing, isNull]
  · have noInline : c.inlineName? union r before.length m = none := by
      simp [inlineName?, isReference]
    by_cases isMapped : d.name ∈ mapped
    · have covered := (same d.name).mp isMapped
      simp [memberVariant?, implicit?, refers, noInline, isMapped, covered]
    · have isNew := (c.implicit_iff mapping before m d).mpr ⟨refers, mt (same d.name).mpr isMapped⟩
      refine ⟨by simp [memberVariant?, isNew, isMapped], fun name => ?_⟩
      simp [refers, isMapped, eq_comm]
  · have nothing : c.referred? m = none := by simp [referred?, inline]
    simp [memberVariant?, implicit?, inlineName?, nothing, present, inline, resolved,
      Except.toOption]

section Members

variable (union : String) (r : Registry) (components : ∀ d ∈ c.components, d.schema.isKeyed = true)

include components

theorem member_variants_split (n : Nat) (mapped : List String) (m : Schema) (rest : List Schema)
    (keyed : ∀ m' ∈ m :: rest, m'.isKeyed = true) (variants : List Variant)
    (made : answer (c.memberVariants union n mapped (m :: rest)) r = .ok variants)
    (settled : after (c.memberVariants union n mapped (m :: rest)) r = r) :
    ∃ added others, answer (addMember c union n mapped m) r = .ok added
      ∧ answer (c.memberVariants union (n + 1) added.2 rest) r = .ok others
      ∧ after (c.memberVariants union (n + 1) added.2 rest) r = r
      ∧ variants = added.1.toList ++ others := by
  rw [List.forall_mem_cons] at keyed
  have laterLawful (mapped : List String) :=
    member_variants_keyed c union components rest keyed.2 (n + 1) mapped
  have hereLawful := add_member_lawful c union components n mapped m keyed.1
  rw [member_variants_cons] at made settled
  obtain ⟨added, here, made⟩ := answered_bind _ _ r variants made
  have restRegisters (r : Registry) : Registers c (·.isKeyed = true) r (after (do
      let others ← c.memberVariants union (n + 1) added.2 rest
      pure (added.1.toList ++ others)) r) := by
    rw [← map_eq_pure_bind, after_map]
    exact (laterLawful added.2).registers r
  obtain ⟨settledHere, settled⟩ :=
    settled_bind c _ _ _ r added hereLawful.registers restRegisters here settled
  rw [settledHere] at made
  obtain ⟨others, below, made⟩ := answered_bind _ _ r variants made
  cases made
  rw [← map_eq_pure_bind, after_map] at settled
  exact ⟨added, others, here, below, settled, rfl⟩

theorem member_variants_listed (rest before : List Schema) (mapped : List String)
    (keyed : ∀ m ∈ rest, m.isKeyed = true)
    (same : ∀ name, name ∈ mapped ↔ name ∈ c.coveredNames mapping before) (variants : List Variant)
    (made : answer (c.memberVariants union (before.length + 1) mapped rest) r = .ok variants)
    (settled : after (c.memberVariants union (before.length + 1) mapped rest) r = r) :
    variants = listed (c.memberVariant? union mapping r) before rest := by
  induction rest generalizing before mapped variants with
  | nil =>
      cases made
      rfl
  | cons m rest ih =>
      obtain ⟨added, others, here, below, settledBelow, rfl⟩ :=
        member_variants_split c union r components _ mapped m rest keyed variants made settled
      obtain ⟨isListed, covers⟩ := member_added c mapping union r before m mapped same added here
      have length : (before ++ [m]).length = before.length + 1 := by simp
      have later := ih (before ++ [m]) added.2 (List.forall_mem_cons.mp keyed).2 covers others
      rw [length] at later
      rw [listed_cons, isListed, later below settledBelow]

theorem members_resolved (rest : List Schema) (start : Nat) (mapped : List String)
    (keyed : ∀ m ∈ rest, m.isKeyed = true) (variants : List Variant)
    (made : answer (c.memberVariants union (start + 1) mapped rest) r = .ok variants)
    (settled : after (c.memberVariants union (start + 1) mapped rest) r = r) (n : Nat) (m : Schema)
    (place : rest[n]? = some m) (present : m.isNullOnly = false) :
    (m.reference.isSome = true → (c.referred? m).isSome = true)
      ∧ (m.reference = none →
          ∃ t, answer (c.resolve m (some (optionName union (start + n + 1)))) r = .ok t) := by
  induction rest generalizing start mapped variants n with
  | nil => cases place
  | cons first rest ih =>
      obtain ⟨added, others, here, below, settledBelow, _⟩ :=
        member_variants_split c union r components _ mapped first rest keyed variants made settled
      cases n with
      | zero =>
          cases place
          rcases member_answered c union _ r m mapped added here with
            ⟨isNull, _⟩ | ⟨d, isReference, refers, _⟩ | ⟨t, _, inline, resolved, _⟩
          · rw [isNull] at present
            cases present
          · refine ⟨fun _ => by rw [refers]; rfl, fun inline => ?_⟩
            rw [inline] at isReference
            cases isReference
          · refine ⟨fun isReference => ?_, fun _ => ⟨t, resolved⟩⟩
            rw [inline] at isReference
            cases isReference
      | succ n =>
          have later := ih (start + 1) added.2 (List.forall_mem_cons.mp keyed).2 others below
            settledBelow n place
          rwa [Nat.add_right_comm start 1 n] at later

end Members

theorem implicit_listed (members before : List Schema) (m : Schema) (d : Component)
    (member : m ∈ members) (refers : c.referred? m = some d) :
    d.name ∈ c.coveredNames mapping before
      ∨ d ∈ listed (fun before _ m => c.implicit? mapping before m) before members := by
  induction members generalizing before with
  | nil => cases member
  | cons first rest ih =>
      rw [listed_cons, List.mem_append, Option.mem_toList]
      by_cases covered : d.name ∈ c.coveredNames mapping before
      · exact .inl covered
      · refine .inr ?_
        rcases List.mem_cons.mp member with rfl | later
        · exact .inl ((c.implicit_iff mapping before m d).mpr ⟨refers, covered⟩)
        · rcases ih (before ++ [first]) later with inBefore | isListed
          · rw [covered_names_concat] at inBefore
            obtain ⟨d', refers', sameName⟩ := inBefore.resolve_left covered
            have found := referred_found c m d refers
            rw [← sameName, referred_found c first d' refers'] at found
            cases found
            exact .inl ((c.implicit_iff mapping before first d).mpr ⟨refers', covered⟩)
          · exact .inr isListed

theorem implicit_distinct (members before : List Schema) :
    ((listed (fun before _ m => c.implicit? mapping before m) before members).map (·.name)).Nodup
      ∧ ∀ d ∈ listed (fun before _ m => c.implicit? mapping before m) before members,
        d.name ∉ c.coveredNames mapping before := by
  induction members generalizing before with
  | nil => exact ⟨List.nodup_nil, List.forall_mem_nil _⟩
  | cons first rest ih =>
      obtain ⟨distinct, apart⟩ := ih (before ++ [first])
      simp only [covered_names_concat, not_or] at apart
      rw [listed_cons]
      cases added : c.implicit? mapping before first with
      | none => exact ⟨distinct, fun d isListed => (apart d isListed).1⟩
      | some d =>
          obtain ⟨refers, uncovered⟩ := (c.implicit_iff mapping before first d).mp added
          constructor
          · refine List.nodup_cons.mpr ⟨fun again => ?_, distinct⟩
            obtain ⟨d', isListed, sameName⟩ := List.mem_map.mp again
            exact (apart d' isListed).2 ⟨d, refers, sameName.symm⟩
          · exact List.forall_mem_cons.mpr ⟨uncovered, fun d' isListed => (apart d' isListed).1⟩

end Listed

section Union

variable (c : Catalog) (union : String) (s : Schema) (d : Discriminator)

theorem union_shape_targeted (declared : s.discriminator = some d)
    (targets : List (String × Component)) (targeted : c.mappingTargets d.mapping = .ok targets) :
    c.unionShape union s = (fun others => {
      exclusive := !s.oneOf.isEmpty
      discriminator := s.discriminator.map (·.propertyName)
      variants := targets.map (fun (value, found) => ⟨value, found.typeName⟩) ++ others
      nullable := s.hasUnionNull }) <$>
        c.memberVariants union 1 (targets.map (·.2.name)) s.unionMembers := by
  have lifted : (liftM (c.mappingTargets d.mapping) : Resolution _) = pure targets := by
    rw [targeted]
    rfl
  rw [union_shape_eq, unionVariants, declared]
  simp only [lifted, pure_bind, bind_assoc, map_eq_pure_bind]

theorem union_shape_untargeted (declared : s.discriminator = some d) (e : Error)
    (failed : c.mappingTargets d.mapping = .error e) (r : Registry) :
    answer (c.unionShape union s) r = .error e := by
  rw [union_shape_eq, unionVariants, declared]
  dsimp only
  rw [failed]
  rfl

theorem union_shape_keyed (components : ∀ d ∈ c.components, d.schema.isKeyed = true)
    (members : ∀ m ∈ s.unionMembers, m.isKeyed = true) (declared : s.discriminator = some d) :
    Lawful c (·.isKeyed = true) (c.unionShape union s) fun _ _ => True := by
  cases targeted : c.mappingTargets d.mapping with
  | error e =>
      rw [union_shape_eq, unionVariants, declared]
      dsimp only
      rw [targeted]
      exact lawful_throw c _ _ e
  | ok targets =>
      rw [union_shape_targeted c union s d declared targets targeted]
      exact lawful_map c _ (fun _ _ => True) _ _ _ (fun _ _ _ _ _ => trivial)
        (member_variants_keyed c union components _ members 1 _) fun _ _ _ => trivial

variable (r : Registry) (shape : UnionShape)

-- What a union shows where nothing is registered any more.
structure ShowsInOrder (c : Catalog) (union : String) (s : Schema) (d : Discriminator)
    (r : Registry) (variants : List Variant) : Prop where
  targets : ∀ entry ∈ d.mapping, (c.mappedComponent? entry).isSome = true
  ordered : variants = d.mapping.filterMap c.mappedVariant?
    ++ listed (c.memberVariant? union d.mapping r) [] s.unionMembers
  references : ∀ m ∈ s.unionMembers, m.isNullOnly = false → m.reference.isSome = true →
    (c.referred? m).isSome = true
  inline : ∀ n m, s.unionMembers[n]? = some m → m.isNullOnly = false → m.reference = none →
    ∃ t, answer (c.resolve m (some (optionName union (n + 1)))) r = .ok t

theorem settled_shape_shown (components : ∀ d ∈ c.components, d.schema.isKeyed = true)
    (members : ∀ m ∈ s.unionMembers, m.isKeyed = true) (declared : s.discriminator = some d)
    (made : answer (c.unionShape union s) r = .ok shape)
    (settled : after (c.unionShape union s) r = r) :
    ShowsInOrder c union s d r shape.variants := by
  obtain ⟨targets, others, targeted, othersMade, shown⟩ :=
    union_shape_made c union s d r shape declared made
  rw [union_shape_targeted c union s d declared targets targeted, after_map] at settled
  obtain ⟨allTargeted, rfl⟩ := mapping_targeted c d.mapping targets targeted
  have covered : (d.mapping.filterMap fun entry =>
      (c.mappedComponent? entry).map (entry.1, ·)).map (·.2.name)
        = c.coveredNames d.mapping [] := by
    simp [coveredNames, List.map_filterMap, Function.comp_def]
  have resolved := members_resolved c union r components s.unionMembers 0 _ members others
    othersMade settled
  refine ⟨allTargeted, ?_, fun m member present isReference => ?_,
    fun n m place present inline => ?_⟩
  · rw [shown, member_variants_listed c d.mapping union r components s.unionMembers [] _ members
      (fun name => by rw [covered]) others othersMade settled, List.map_filterMap]
    simp only [mappedVariant?, Option.map_map]
    rfl
  · obtain ⟨n, place⟩ := List.getElem?_of_mem member
    exact (resolved n m place present).1 isReference
  · simpa using (resolved n m place present).2 inline

variable (variants : List Variant) (shows : ShowsInOrder c union s d r variants)

include shows

theorem reference_shown (m : Schema) (member : m ∈ s.unionMembers) (present : m.isNullOnly = false)
    (isReference : m.reference.isSome = true) : ∃ target, c.referred? m = some target
      ∧ ((∃ entry ∈ d.mapping, c.mappedComponent? entry = some target
          ∧ ⟨entry.1, target.typeName⟩ ∈ variants)
        ∨ ⟨target.name, target.typeName⟩ ∈ variants) := by
  have refersTo := shows.references m member present isReference
  obtain ⟨target, refers⟩ := Option.isSome_iff_exists.mp refersTo
  refine ⟨target, refers, ?_⟩
  rw [shows.ordered]
  rcases c.implicit_listed d.mapping s.unionMembers [] m target member refers with covered | added
  · obtain ⟨other, isMapped, sameName⟩ := List.mem_map.mp covered
    rw [List.filterMap_nil, List.append_nil] at isMapped
    obtain ⟨entry, isEntry, targeted⟩ := List.mem_filterMap.mp isMapped
    obtain ⟨name, _, isComponent⟩ := Option.bind_eq_some_iff.mp targeted
    have found := referred_found c m target refers
    rw [← sameName, (component_mem c name other isComponent).2, isComponent] at found
    cases found
    refine .inl ⟨entry, isEntry, targeted, List.mem_append_left _ ?_⟩
    exact List.mem_filterMap.mpr ⟨entry, isEntry, by rw [mappedVariant?, targeted]; rfl⟩
  · obtain ⟨n, first, place, isImplicit⟩ := (mem_listed _ _ _).mp added
    refine .inr (List.mem_append_right _ ((mem_listed _ _ _).mpr ⟨n, first, place, ?_⟩))
    rw [memberVariant?, isImplicit]
    rfl

theorem inline_shown (n : Nat) (m : Schema) (place : s.unionMembers[n]? = some m)
    (present : m.isNullOnly = false) (inline : m.reference = none) :
    ∃ t, answer (c.resolve m (some (optionName union (n + 1)))) r = .ok t
      ∧ ∀ name ∈ t.type.name?, ⟨name, name⟩ ∈ variants := by
  obtain ⟨t, resolved⟩ := shows.inline n m place present inline
  refine ⟨t, resolved, fun name isNamed => ?_⟩
  rw [shows.ordered]
  refine List.mem_append_right _ ((mem_listed _ _ _).mpr ⟨n, m, place, ?_⟩)
  have nothing : c.referred? m = none := by simp [referred?, inline]
  have named : c.inlineName? union r n m = some name := by
    simpa [inlineName?, present, inline, resolved, Except.toOption] using isNamed
  simp [memberVariant?, implicit?, nothing, named]

end Union

section OfDocument

variable (document : Document) (config : Config)

theorem component_none_iff (name : String) :
    (ofDocument document config).component? name = none ↔ name ∉ Assoc.keys document.schemas := by
  rw [← Component.classify_names document.schemas [] document.schemas]
  simp only [component?, ofDocument, List.find?_eq_none, List.mem_map, not_exists, not_and,
    beq_iff_eq]
  rfl

theorem mapped_none_iff (entry : String × String) :
    (ofDocument document config).mappedComponent? entry = none
      ↔ ∀ name ∈ Reference.mappingTarget? entry.2, name ∉ Assoc.keys document.schemas := by
  simp only [mappedComponent?, Option.bind_eq_none_iff, component_none_iff, Option.mem_def]

end OfDocument

def petsInManyForms : Document where
  version := .v31
  contents := { components := { schemas := [
    ("Cat", { properties := [("meow", { type := some (.single "string") })] }),
    ("Big Dog", { properties := [("bark", { type := some (.single "string") })] }),
    ("Bird", { properties := [("sing", { type := some (.single "string") })] })] } }

def manyForms (target : String) : KeyedSchema where
  schema := {
    oneOf := [
      { reference := some "#/components/schemas/Bird" },
      { reference := some "#/components/schemas/Big%20Dog" },
      { type := some (.single "null") },
      { reference := some "#/components/schemas/Bird" },
      { properties := [("swim", { type := some (.single "string") })] },
      { type := some (.single "string") }]
    discriminator := some {
      propertyName := "kind"
      mapping := [("feline", target), ("dog", "#/components/schemas/Big%20Dog"), ("cat", "Cat")] } }
  keyed := by rfl

/-- The variants of a union are those of its mapping in order, then one for each component that a
member refers to and that is not there yet, and one for each inline member of a named type, in the
order of the members. Nothing is left out, no component is added twice, and a mapping with a target
that is no component fails. -/
theorem union_variants_complete (document : Document) (config : Config)
    (keyed : document.isKeyed = true) (calls : List Call) (union : String) (s : KeyedSchema)
    (d : Discriminator) (declared : s.schema.discriminator = some d) :
    let c := ofDocument document config
    let r := c.run {} calls
    let members := s.schema.unionMembers
    (∀ shape, answer (c.unionShape union s.schema) r = .ok shape →
        let r' := after (c.unionShape union s.schema) r
        shape.variants = d.mapping.filterMap c.mappedVariant?
            ++ listed (c.memberVariant? union d.mapping r') [] members
          ∧ (∀ entry ∈ d.mapping, (c.mappedComponent? entry).isSome = true)
          ∧ ∀ n m, members[n]? = some m → m.isNullOnly = false →
            (m.reference.isSome = true → ∃ target, c.referred? m = some target
                ∧ ((∃ entry ∈ d.mapping, c.mappedComponent? entry = some target
                    ∧ ⟨entry.1, target.typeName⟩ ∈ shape.variants)
                  ∨ ⟨target.name, target.typeName⟩ ∈ shape.variants))
              ∧ (m.reference = none →
                ∃ t, answer (c.resolve m (some (optionName union (n + 1)))) r' = .ok t
                  ∧ ∀ name ∈ t.type.name?, ⟨name, name⟩ ∈ shape.variants))
      ∧ ((c.implicitComponents d.mapping members).map (·.name)).Nodup
      ∧ (∀ target ∈ c.implicitComponents d.mapping members, ∀ entry ∈ d.mapping,
          c.mappedComponent? entry ≠ some target)
      ∧ ∀ entry ∈ d.mapping,
          (∀ name ∈ Reference.mappingTarget? entry.2, name ∉ Assoc.keys document.schemas) →
          ∃ other ∈ d.mapping,
            (∀ name ∈ Reference.mappingTarget? other.2, name ∉ Assoc.keys document.schemas)
              ∧ answer (c.unionShape union s.schema) r = .error (.unresolvedReference other.2) := by
  intro c r members
  have regular := regular_of_document document config keyed
  have sound : c.Sound r := run_sound c regular.keyed calls {} (sound_empty c)
  have membersKeyed : ∀ m ∈ members, m.isKeyed = true := fun m member =>
    s.schema.keyed_child m s.keyed (s.schema.position_child m (s.schema.union_position m member))
  obtain ⟨distinct, apart⟩ := c.implicit_distinct d.mapping members []
  refine ⟨fun shape made => ?_, distinct, fun target isImplicit entry member targeted => ?_, ?_⟩
  · intro r'
    have lawful := union_shape_keyed c union s.schema d regular.keyed membersKeyed declared
    have named := registers_well_named c _ r r' (lawful.registers r) sound.named
    obtain ⟨again, settled⟩ := lawful.repeats Schema.same_refl r r' named (Registry.extends_refl _)
    have shows := settled_shape_shown c union s.schema d r' shape regular.keyed membersKeyed
      declared (again.trans made) settled
    refine ⟨shows.ordered, shows.targets, fun n m place present => ⟨?_, ?_⟩⟩
    · exact reference_shown c union s.schema d r' _ shows m (List.mem_of_getElem? place) present
    · exact inline_shown c union s.schema d r' _ shows n m place present
  · refine apart target isImplicit (List.mem_map_of_mem (List.mem_append_left _ ?_))
    exact List.mem_filterMap.mpr ⟨entry, member, targeted⟩
  · intro entry member missing
    have failed := c.mapping_targets_eq d.mapping
    cases found : d.mapping.find? fun entry => (c.mappedComponent? entry).isNone with
    | none =>
        have present := List.find?_eq_none.mp found entry member
        simp [(mapped_none_iff document config entry).mpr missing, c] at present
    | some other =>
        rw [found] at failed
        have isMissing := List.find?_some found
        rw [Option.isNone_iff_eq_none] at isMissing
        exact ⟨other, List.mem_of_find?_eq_some found,
          (mapped_none_iff document config other).mp isMissing,
          union_shape_untargeted c union s.schema d declared _ failed r⟩

theorem many_forms_complete :
    let c := ofDocument petsInManyForms {}
    let s := manyForms "#/components/schemas/Cat"
    let r' := after (c.unionShape "Pet" s.schema) {}
    (∃ d shape, s.schema.discriminator = some d
        ∧ answer (c.unionShape "Pet" s.schema) {} = .ok shape
        ∧ shape.variants = [⟨"feline", "Cat"⟩, ⟨"dog", "BigDog"⟩, ⟨"cat", "Cat"⟩, ⟨"Bird", "Bird"⟩,
          ⟨"PetOption5", "PetOption5"⟩]
        ∧ shape.variants = d.mapping.filterMap c.mappedVariant?
          ++ listed (c.memberVariant? "Pet" d.mapping r') [] s.schema.unionMembers)
      ∧ ∃ target, answer (c.unionShape "Pet" (manyForms "Tiger").schema) {}
          = .error (.unresolvedReference target) := by
  intro c s r'
  have complete (target : String) :=
    union_variants_complete petsInManyForms {} (by decide) [] "Pet" (manyForms target) _ rfl
  constructor
  · exact ⟨_, _, rfl, rfl, by decide, ((complete "#/components/schemas/Cat").1 _ rfl).1⟩
  · obtain ⟨other, _, _, failed⟩ :=
      (complete "Tiger").2.2.2 ("feline", "Tiger") List.mem_cons_self (by decide)
    exact ⟨other.2, failed⟩

end Catalog

end OpenApi
