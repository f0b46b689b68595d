import OpenApi.Model.Failure
import OpenApi.Proofs.Component.Catalog
import OpenApi.Proofs.Decode.Basic
import OpenApi.Proofs.Model.Result

set_option autoImplicit false

namespace OpenApi

open Resolution

section Firsts

variable {α : Type} [BEq α] [LawfulBEq α]

structure FirstSeen (seen listed : List α) : Prop where
  distinct : listed.Nodup
  same : ∀ a, a ∈ listed ↔ a ∈ seen
  ordered : listed.Pairwise fun a b => seen.idxOf a < seen.idxOf b

theorem firsts_ordered (seen : List α) :
    seen.eraseDups.Pairwise fun a b => seen.idxOf a < seen.idxOf b := by
  induction seen using List.reverseRecOn with
  | nil => exact .nil
  | append_singleton seen x ih =>
      have earlier : seen.eraseDups.Pairwise fun a b =>
          (seen ++ [x]).idxOf a < (seen ++ [x]).idxOf b := by
        refine ih.imp_of_mem fun {a b} first second before => ?_
        rw [List.mem_eraseDups] at first second
        rwa [List.idxOf_append_of_mem first, List.idxOf_append_of_mem second]
      rw [firsts_concat]
      split
      · exact earlier
      · rename_i fresh
        rw [List.contains_iff_mem] at fresh
        refine List.pairwise_append.mpr ⟨earlier, List.pairwise_singleton _ _, ?_⟩
        intro a first b last
        obtain rfl := List.mem_singleton.mp last
        rw [List.mem_eraseDups] at first
        rw [List.idxOf_append_of_mem first, List.idxOf_append_of_notMem fresh]
        have short := List.idxOf_lt_length_iff.mpr first
        omega

theorem first_seen_firsts (seen : List α) : FirstSeen seen seen.eraseDups where
  distinct := firsts_distinct seen
  same _ := List.mem_eraseDups
  ordered := firsts_ordered seen

theorem filter_only {α : Type} (p : α → Bool) (xs : List α)
    (only : xs.Pairwise fun a b => p a = true → ¬ p b = true) :
    xs.filter p = (xs.find? p).toList := by
  induction xs with
  | nil => rfl
  | cons x rest ih =>
      obtain ⟨first, later⟩ := List.pairwise_cons.mp only
      by_cases found : p x = true
      · rw [List.filter_cons_of_pos found, List.find?_cons_of_pos found,
          List.filter_eq_nil_iff.mpr fun y member => first y member found]
        rfl
      · rw [List.filter_cons_of_neg found, List.find?_cons_of_neg found, ih later]

end Firsts

namespace StatusCode

def isFailure : StatusCode → Bool
  | .code value => value / 100 == 4 || value / 100 == 5
  | .range firstDigit => firstDigit == 4 || firstDigit == 5
  | .default => true

theorem parsed_failure (key : String) (status : StatusCode) (parsed : parse? key = some status) :
    status.isError = status.isFailure := by
  rw [parse?] at parsed
  dsimp only at parsed
  split at parsed
  · cases parsed
    rfl
  · split at parsed
    · obtain ⟨inRange, isCode⟩ := Option.ite_none_right_eq_some.mp parsed
      cases isCode
      rw [Bool.eq_iff_iff]
      simp only [isError, isFailure, decide_eq_true_eq, Bool.or_eq_true, beq_iff_eq]
      omega
    · split at parsed
      · rename_i d x y _
        obtain ⟨⟨_, _, low, high⟩, isRange⟩ := Option.ite_none_right_eq_some.mp parsed
        cases isRange
        have lower : 49 ≤ d.toNat := low
        have upper : d.toNat ≤ 53 := high
        have zero : '0'.toNat = 48 := rfl
        rw [Bool.eq_iff_iff, isError, decide_eq_true_iff, Json.digitValue]
        simp only [isFailure, Bool.or_eq_true, beq_iff_eq]
        omega
      · cases parsed

end StatusCode

def ResultModel.Extracted (c : Catalog) (result : ResultModel) : Prop :=
  ∃ name o r, answer (ofOperation c name o) r = .ok result

theorem ResultModel.extracted_failure (c : Catalog) (result : ResultModel)
    (extracted : Extracted c result) :
    ∀ r ∈ result.cases, r.status.isError = r.status.isFailure := by
  obtain ⟨name, o, registry, made⟩ := extracted
  obtain ⟨cases, casesMade, made⟩ := answered_bind _ _ registry result made
  cases made
  have statuses := cases_statuses c name o.responses registry cases trivial casesMade
  intro r member
  have isStatus : r.status ∈ (Assoc.keys o.responses).filterMap StatusCode.parse? :=
    statuses ▸ List.mem_map_of_mem member
  obtain ⟨key, _, parsed⟩ := List.mem_filterMap.mp isStatus
  exact StatusCode.parsed_failure key r.status parsed

namespace FailureModel

def isFlagged (d : Component) : Bool :=
  match d.schema.extension? extensionKey with
  | some (.bool flag) => flag
  | _ => false

def isFailureOf (d : Component) (r : ResultCase) : Bool :=
  r.status.isFailure && r.body.bind (·.type.name?) == some d.typeName

def failuresOf (d : Component) (results : List ResultModel) : List (ResultModel × ResultCase) :=
  results.flatMap fun result => (result.cases.filter (isFailureOf d)).map fun r => (result, r)

def carried (c : Catalog) (results : List ResultModel) : List Component :=
  results.flatMap fun result => result.cases.flatMap fun r =>
    c.components.filter fun d => d.kind.isNamed && isFailureOf d r

structure Describes (results : List ResultModel) (explicit : Bool) (d : Component)
    (m : FailureModel) : Prop where
  name : m.name = d.typeName
  source : m.sourceName = d.name
  statuses : FirstSeen ((failuresOf d results).map (·.2.status)) m.statusCodes
  operations : FirstSeen ((failuresOf d results).map (·.1.operation)) m.operations
  problem : m.isProblemDetails = true ↔ ∃ f ∈ failuresOf d results, ∃ contentType ∈ f.2.contentType,
    "application/problem+json".toList <+: Text.asciiLower contentType.toList
  explicit : m.explicit = explicit

theorem marked_own (d : Component) (flag : Bool) (found : isMarked d = .ok flag) :
    flag = isFlagged d := by
  rw [isMarked] at found
  rw [isFlagged]
  cases declared : d.schema.extension? extensionKey with
  | none =>
      rw [declared] at found
      cases found
      rfl
  | some value =>
      rw [declared] at found
      cases value <;> cases found <;> rfl

theorem marked_pass (components : List Component)
    (distinct : ((components.filter (·.kind.isNamed)).map (·.typeName)).Nodup)
    (entries : List (String × FailureModel))
    (made : components.foldlM addMarked [] = .ok entries) :
    entries = (components.filter fun d => d.kind.isNamed && isFlagged d).map fun d =>
      (d.typeName, empty d.typeName d.name true) := by
  induction components using List.reverseRecOn generalizing entries with
  | nil =>
      cases made
      rfl
  | append_singleton components d ih =>
      rw [List.filter_append, List.map_append] at distinct
      obtain ⟨distinctBefore, _, apart⟩ := List.nodup_append.mp distinct
      rw [List.foldlM_append] at made
      obtain ⟨before, isBefore, made⟩ := ok_of_bind _ _ _ made
      rw [List.foldlM_cons] at made
      obtain ⟨after, isAfter, made⟩ := ok_of_bind _ _ _ made
      cases made
      rw [ih distinctBefore before isBefore, addMarked] at isAfter
      rw [List.filter_append, List.map_append]
      by_cases named : d.kind.isNamed = true
      · rw [if_pos named] at isAfter
        obtain ⟨flag, isFlag, made⟩ := ok_of_bind _ _ _ isAfter
        rw [marked_own d flag isFlag] at made
        by_cases flagged : isFlagged d = true
        · rw [if_pos flagged] at made
          cases made
          rw [Assoc.put_absent]
          · simp [named, flagged]
          · intro known
            rw [Assoc.keys, List.map_map] at known
            obtain ⟨other, member, same⟩ := List.mem_map.mp known
            obtain ⟨member, flags⟩ := List.mem_filter.mp member
            rw [Bool.and_eq_true] at flags
            refine apart other.typeName ?_ d.typeName ?_ same
            · exact List.mem_map_of_mem (List.mem_filter.mpr ⟨member, flags.1⟩)
            · simp [named]
        · rw [if_neg flagged] at made
          cases made
          simp [flagged]
      · rw [if_neg named] at isAfter
        cases isAfter
        simp [named]

structure FailureUse where
  typeName : String
  status : StatusCode
  operation : String
  contentType : Option String

def uses (results : List ResultModel) : List FailureUse :=
  results.flatMap fun result =>
    (result.cases.filter (·.status.isError)).filterMap fun r =>
      (r.body.bind (·.type.name?)).map fun typeName =>
        { typeName, status := r.status, operation := result.operation, contentType := r.contentType }

def ofUses (used : List FailureUse) (d : Component) : FailureModel :=
  let own := used.filter (·.typeName == d.typeName)
  { name := d.typeName
    sourceName := d.name
    statusCodes := (own.map (·.status)).eraseDups
    operations := (own.map (·.operation)).eraseDups
    isProblemDetails := own.any fun u => u.contentType.any isProblem
    explicit := isFlagged d }

def named? (c : Catalog) (typeName : String) : Option Component :=
  c.components.find? fun d => d.kind.isNamed && d.typeName == typeName

section Passes

def addUse (sources : List (String × String)) (failures : List (String × FailureModel))
    (u : FailureUse) : List (String × FailureModel) :=
  match sources.lookup u.typeName with
  | none => failures
  | some sourceName =>
    let m := (failures.lookup u.typeName).getD (empty u.typeName sourceName false)
    Assoc.put failures u.typeName (m.carry u.operation u.status u.contentType)

theorem results_added (sources : List (String × String)) (failures : List (String × FailureModel))
    (results : List ResultModel) : results.foldl (addResult sources) failures
      = (uses results).foldl (addUse sources) failures := by
  rw [uses, List.foldl_flatMap]
  simp only [List.foldl_filterMap, List.foldl_filter]
  refine congrArg (results.foldl · failures) (funext fun failures => funext fun result => ?_)
  refine congrArg (result.cases.foldl · failures) (funext fun failures => funext fun r => ?_)
  rw [addCase]
  cases r.body.bind (·.type.name?) <;> rfl

theorem firsts_add {α : Type} [BEq α] [LawfulBEq α] (xs : List α) (x : α) :
    (xs ++ [x]).eraseDups = add xs.eraseDups x := by
  have known : xs.eraseDups.contains x = xs.contains x := by simp [List.mem_eraseDups]
  rw [firsts_concat, add, known]

theorem uses_concat (used : List FailureUse) (u : FailureUse) (d : Component) :
    ofUses (used ++ [u]) d = if u.typeName == d.typeName
      then (ofUses used d).carry u.operation u.status u.contentType else ofUses used d := by
  by_cases own : u.typeName = d.typeName
  · have last : (used ++ [u]).filter (·.typeName == d.typeName)
        = used.filter (·.typeName == d.typeName) ++ [u] := by simp [own]
    rw [if_pos (by simpa using own), ofUses, last]
    simp only [List.map_append, List.map_singleton, firsts_add, List.any_append]
    simp [ofUses, carry]
  · simp [ofUses, own]

theorem no_uses (used : List FailureUse) (d : Component)
    (none : ∀ u ∈ used, u.typeName ≠ d.typeName) :
    ofUses used d = empty d.typeName d.name (isFlagged d) := by
  have own : used.filter (·.typeName == d.typeName) = [] :=
    List.filter_eq_nil_iff.mpr fun u member => by simpa using none u member
  rw [ofUses, own]
  rfl

variable (c : Catalog)

theorem named_mem (typeName : String) (d : Component) (found : named? c typeName = some d) :
    d ∈ c.components ∧ d.kind.isNamed = true ∧ d.typeName = typeName := by
  have holds := List.find?_some found
  rw [Bool.and_eq_true, beq_iff_eq] at holds
  exact ⟨List.mem_of_find?_eq_some found, holds⟩

variable (distinct : c.typeNames.Nodup)

include distinct

theorem named_components (typeName : String) :
    (c.components.filter fun d => d.kind.isNamed && d.typeName == typeName)
      = (named? c typeName).toList := by
  rw [Catalog.typeNames, List.Nodup, List.pairwise_map, List.pairwise_filter] at distinct
  refine filter_only _ _ (distinct.imp fun {d d'} different isNamed isNamed' => ?_)
  rw [Bool.and_eq_true, beq_iff_eq] at isNamed isNamed'
  exact different isNamed.1 isNamed'.1 (isNamed.2.trans isNamed'.2.symm)

theorem named_self (d : Component) (member : d ∈ c.components) (isNamed : d.kind.isNamed = true) :
    named? c d.typeName = some d := by
  have found : d ∈ (named? c d.typeName).toList := by
    rw [← named_components c distinct]
    exact List.mem_filter.mpr ⟨member, by simp [isNamed]⟩
  exact Option.mem_toList.mp found

theorem source_found (typeName : String) :
    (sourceNames c).lookup typeName = (named? c typeName).map (·.name) := by
  let sources := (c.components.filter (·.kind.isNamed)).map fun d => (d.typeName, d.name)
  have keys : (Assoc.keys sources).Nodup := by
    rw [Assoc.keys, List.map_map]
    exact distinct
  have whole : (sourceNames c).lookup typeName = sources.lookup typeName := by
    have put := Assoc.lookup_put_all [] sources keys typeName
    rwa [List.lookup_nil, Option.or_none] at put
  rw [whole]
  cases found : named? c typeName with
  | none =>
      refine Assoc.lookup_absent sources typeName fun known => ?_
      rw [Assoc.keys, List.map_map] at known
      obtain ⟨d, member, same⟩ := List.mem_map.mp known
      obtain ⟨member, isNamed⟩ := List.mem_filter.mp member
      have self := named_self c distinct d member isNamed
      rw [show d.typeName = typeName from same, found] at self
      cases self
  | some d =>
      obtain ⟨member, isNamed, rfl⟩ := named_mem c typeName d found
      exact Assoc.lookup_of_mem sources keys (d.typeName, d.name)
        (List.mem_map.mpr ⟨d, List.mem_filter.mpr ⟨member, isNamed⟩, rfl⟩)

end Passes

section Listed

variable (c : Catalog)

def marks : List Component := c.components.filter fun d => d.kind.isNamed && isFlagged d

def others (typeNames : List String) : List Component :=
  (typeNames.eraseDups.filter fun typeName =>
    !((marks c).map (·.typeName)).contains typeName).filterMap (named? c)

def listed (used : List FailureUse) : List Component :=
  marks c ++ others c (used.map (·.typeName))

-- What the passes hold for the listed components.
def entries (used : List FailureUse) : List (String × FailureModel) :=
  (listed c used).map fun d => (d.typeName, ofUses used d)

theorem entries_keys (used : List FailureUse) :
    Assoc.keys (entries c used) = (listed c used).map (·.typeName) := by
  rw [entries, Assoc.keys, List.map_map]
  rfl

theorem other_names (typeNames : List String) (typeName : String) :
    typeName ∈ (others c typeNames).map (·.typeName) ↔ typeName ∈ typeNames
      ∧ typeName ∉ (marks c).map (·.typeName) ∧ (named? c typeName).isSome = true := by
  rw [List.mem_map]
  constructor
  · rintro ⟨d, member, rfl⟩
    obtain ⟨typeName, isName, found⟩ := List.mem_filterMap.mp member
    obtain rfl := (named_mem c typeName d found).2.2
    obtain ⟨isName, unmarked⟩ := List.mem_filter.mp isName
    rw [List.mem_eraseDups] at isName
    exact ⟨isName, by simpa using unmarked, by rw [found]; rfl⟩
  · rintro ⟨isName, unmarked, present⟩
    obtain ⟨d, found⟩ := Option.isSome_iff_exists.mp present
    refine ⟨d, List.mem_filterMap.mpr ⟨typeName, ?_, found⟩, (named_mem c typeName d found).2.2⟩
    exact List.mem_filter.mpr ⟨List.mem_eraseDups.mpr isName, by simpa using unmarked⟩

theorem listed_names (used : List FailureUse) (typeName : String) (d : Component)
    (found : named? c typeName = some d) : typeName ∈ (listed c used).map (·.typeName)
      ↔ typeName ∈ (marks c).map (·.typeName) ∨ typeName ∈ used.map (·.typeName) := by
  rw [listed, List.map_append, List.mem_append, other_names, found]
  by_cases marked : typeName ∈ (marks c).map (·.typeName)
  · exact iff_of_true (.inl marked) (.inl marked)
  · simp [marked]

theorem others_known (typeNames : List String) (typeName : String)
    (known : typeName ∈ typeNames ∨ typeName ∈ (marks c).map (·.typeName)) :
    others c (typeNames ++ [typeName]) = others c typeNames := by
  rw [others, firsts_concat]
  rcases known with listed | marked
  · rw [if_pos (List.contains_iff_mem.mpr listed), others]
  · split
    · rfl
    · rw [List.filter_append, List.filter_cons_of_neg (by simpa using marked), List.filter_nil,
        List.append_nil, others]

theorem others_new (typeNames : List String) (typeName : String) (fresh : typeName ∉ typeNames)
    (unmarked : typeName ∉ (marks c).map (·.typeName)) :
    others c (typeNames ++ [typeName]) = others c typeNames ++ (named? c typeName).toList := by
  rw [others, firsts_concat, if_neg (by simpa using fresh), List.filter_append,
    List.filter_cons_of_pos (by simpa using unmarked), List.filter_nil, List.filterMap_append, others]
  cases found : named? c typeName <;> simp [found]

def unmarked? (typeName : String) : Option String :=
  ((named? c typeName).filter fun d => !isFlagged d).map (·.typeName)

theorem unmarked_eq (typeName found : String) (unmarked : unmarked? c typeName = some found) :
    typeName = found := by
  obtain ⟨d, present, rfl⟩ := Option.map_eq_some_iff.mp unmarked
  exact (named_mem c typeName d (Option.filter_eq_some_iff.mp present).1).2.2.symm

section Added

variable (distinct : c.typeNames.Nodup)

include distinct

theorem marks_contain (typeName : String) (d : Component) (found : named? c typeName = some d) :
    ((marks c).map (·.typeName)).contains typeName = isFlagged d := by
  obtain ⟨member, isNamed, rfl⟩ := named_mem c typeName d found
  rw [Bool.eq_iff_iff, List.contains_iff_mem, List.mem_map]
  constructor
  · rintro ⟨d', isMarked, sameType⟩
    obtain ⟨member', flags⟩ := List.mem_filter.mp isMarked
    rw [Bool.and_eq_true] at flags
    have self := named_self c distinct d' member' flags.1
    rw [sameType, found] at self
    cases self
    exact flags.2
  · exact fun flagged => ⟨d, List.mem_filter.mpr ⟨member, by simp [isNamed, flagged]⟩, rfl⟩

theorem others_names (typeNames : List String) : (others c typeNames).map (·.typeName)
    = (typeNames.filterMap (unmarked? c)).eraseDups := by
  have injective (x x' y : String) (first : unmarked? c x = some y)
      (second : unmarked? c x' = some y) : x = x' :=
    (unmarked_eq c x y first).trans (unmarked_eq c x' y second).symm
  rw [← firsts_filter_map (unmarked? c) injective, others, List.filterMap_filter, List.map_filterMap]
  refine List.filterMap_congr fun typeName _ => ?_
  rw [unmarked?]
  cases isNamed : named? c typeName with
  | none => simp
  | some d =>
      rw [marks_contain c distinct typeName d isNamed]
      by_cases flagged : isFlagged d <;> simp [flagged, Option.filter]

theorem listed_self (used : List FailureUse) (d : Component) (member : d ∈ listed c used) :
    named? c d.typeName = some d := by
  rcases List.mem_append.mp member with marked | other
  · obtain ⟨member, flags⟩ := List.mem_filter.mp marked
    rw [Bool.and_eq_true] at flags
    exact named_self c distinct d member flags.1
  · obtain ⟨typeName, _, found⟩ := List.mem_filterMap.mp other
    rwa [(named_mem c typeName d found).2.2]

theorem listed_distinct (used : List FailureUse) :
    ((listed c used).map (·.typeName)).Nodup := by
  have marked : ((marks c).map (·.typeName)).Sublist c.typeNames :=
    (List.monotone_filter_right _ fun d flags => (Bool.and_eq_true_iff.mp flags).1).map _
  rw [listed, List.map_append, List.nodup_append]
  refine ⟨marked.nodup distinct, ?_, ?_⟩
  · rw [others_names c distinct]
    exact firsts_distinct _
  · rintro typeName isMarked _ isOther rfl
    exact ((other_names c _ typeName).mp isOther).2.1 isMarked

theorem listed_found (used : List FailureUse) (typeName : String) (d : Component)
    (found : named? c typeName = some d) (present : typeName ∈ (listed c used).map (·.typeName)) :
    d ∈ listed c used := by
  obtain ⟨d', member, rfl⟩ := List.mem_map.mp present
  have self := listed_self c distinct used d' member
  rw [found] at self
  cases self
  exact member

theorem entries_lookup (used : List FailureUse) (d : Component) (member : d ∈ listed c used) :
    (entries c used).lookup d.typeName = some (ofUses used d) :=
  Assoc.lookup_of_mem _ (entries_keys c used ▸ listed_distinct c distinct used)
    (d.typeName, ofUses used d) (List.mem_map.mpr ⟨d, member, rfl⟩)

theorem use_unknown (used : List FailureUse) (u : FailureUse) (unknown : named? c u.typeName = none) :
    entries c (used ++ [u]) = entries c used := by
  have same : listed c (used ++ [u]) = listed c used := by
    rw [listed, List.map_append, List.map_singleton]
    by_cases known : u.typeName ∈ used.map (·.typeName) ∨ u.typeName ∈ (marks c).map (·.typeName)
    · rw [others_known c _ _ known, listed]
    · obtain ⟨fresh, unmarked⟩ := not_or.mp known
      rw [others_new c _ _ fresh unmarked, unknown, Option.toList_none, List.append_nil, listed]
  rw [entries, entries, same]
  refine List.map_congr_left fun d member => ?_
  have other : u.typeName ≠ d.typeName := by
    intro own
    have self := listed_self c distinct used d member
    rw [← own, unknown] at self
    cases self
  rw [uses_concat, if_neg (by simpa using other)]

theorem use_again (used : List FailureUse) (u : FailureUse) (d : Component)
    (found : named? c u.typeName = some d) (member : d ∈ listed c used) :
    Assoc.put (entries c used) u.typeName
        ((ofUses used d).carry u.operation u.status u.contentType)
      = entries c (used ++ [u]) := by
  have own := (named_mem c u.typeName d found).2.2
  have present := List.mem_map_of_mem (f := (·.typeName)) member
  have known := (listed_names c used u.typeName d found).mp (own ▸ present)
  have same : listed c (used ++ [u]) = listed c used := by
    rw [listed, List.map_append, List.map_singleton, others_known c _ _ known.symm, listed]
  have carried : ofUses (used ++ [u]) d
      = (ofUses used d).carry u.operation u.status u.contentType := by
    rw [uses_concat, if_pos (by simpa using own.symm)]
  rw [← carried, ← own, entries, entries, same]
  refine Assoc.put_known (·.typeName) _ _ _ d (listed_distinct c distinct used) member ?_
  intro d' _ other
  rw [uses_concat, if_neg (by simpa [← own] using Ne.symm other)]

theorem use_first (used : List FailureUse) (u : FailureUse) (d : Component)
    (found : named? c u.typeName = some d) (absent : u.typeName ∉ (listed c used).map (·.typeName)) :
    Assoc.put (entries c used) u.typeName
        ((empty u.typeName d.name false).carry u.operation u.status u.contentType)
      = entries c (used ++ [u]) := by
  obtain ⟨unmarked, fresh⟩ := not_or.mp ((listed_names c used u.typeName d found).not.mp absent)
  have own := (named_mem c u.typeName d found).2.2
  have more : listed c (used ++ [u]) = listed c used ++ [d] := by
    rw [listed, List.map_append, List.map_singleton, others_new c _ _ fresh unmarked, found, listed,
      List.append_assoc]
    rfl
  have unflagged : isFlagged d = false := by
    rw [← marks_contain c distinct u.typeName d found]
    simpa using unmarked
  have unused := no_uses used d fun u' member same =>
    fresh (List.mem_map.mpr ⟨u', member, same.trans own⟩)
  have carried : ofUses (used ++ [u]) d
      = (empty u.typeName d.name false).carry u.operation u.status u.contentType := by
    rw [uses_concat, if_pos (by simpa using own.symm), unused, unflagged, own]
  rw [← carried, ← own, entries, entries, more]
  refine Assoc.put_new (·.typeName) _ _ _ d (own ▸ absent) fun d' member => ?_
  have other : u.typeName ≠ d'.typeName := fun same =>
    absent (List.mem_map.mpr ⟨d', member, same.symm⟩)
  rw [uses_concat, if_neg (by simpa using other)]

-- One failure more: its component keeps its place or comes last.
theorem use_added (used : List FailureUse) (u : FailureUse) :
    addUse (sourceNames c) (entries c used) u = entries c (used ++ [u]) := by
  rw [addUse, source_found c distinct]
  cases found : named? c u.typeName with
  | none => exact (use_unknown c distinct used u found).symm
  | some d =>
      dsimp only [Option.map_some]
      by_cases present : u.typeName ∈ (listed c used).map (·.typeName)
      · have member := listed_found c distinct used u.typeName d found present
        have own := (named_mem c u.typeName d found).2.2
        rw [← own, entries_lookup c distinct used d member, Option.getD_some, own]
        exact use_again c distinct used u d found member
      · have absent : u.typeName ∉ Assoc.keys (entries c used) := by rwa [entries_keys]
        rw [Assoc.lookup_absent _ _ absent, Option.getD_none]
        exact use_first c distinct used u d found present

theorem uses_added (used : List FailureUse) :
    used.foldl (addUse (sourceNames c)) (entries c []) = entries c used := by
  induction used using List.reverseRecOn with
  | nil => rfl
  | append_singleton used u ih =>
      rw [List.foldl_append, ih]
      exact use_added c distinct used u

theorem models_listed (results : List ResultModel) (models : List FailureModel)
    (made : all c results = .ok models) :
    models = (listed c (uses results)).map (ofUses (uses results)) := by
  obtain ⟨marked, isMarked, made⟩ := ok_of_bind _ _ _ made
  cases made
  have start : marked = entries c [] := by
    rw [marked_pass c.components distinct marked isMarked]
    refine (List.map_congr_left fun d member => ?_).trans
      (congrArg (List.map _) (List.append_nil (marks c)).symm)
    rw [no_uses [] d (List.forall_mem_nil _),
      (Bool.and_eq_true_iff.mp (List.mem_filter.mp member).2).2]
  rw [results_added, start, uses_added c distinct, entries, List.map_map]
  rfl

end Added

end Listed

section Uses

variable (c : Catalog) (results : List ResultModel)
  (extracted : ∀ result ∈ results, result.Extracted c)

include extracted

theorem own_uses (d : Component) : (uses results).filter (·.typeName == d.typeName)
    = (failuresOf d results).map fun f => ⟨d.typeName, f.2.status, f.1.operation, f.2.contentType⟩ := by
  rw [uses, failuresOf, List.filter_flatMap, List.map_flatMap]
  refine List.flatMap_congr fun result member => ?_
  have status := result.extracted_failure c (extracted result member)
  rw [List.filterMap_filter, List.filter_filterMap, List.map_map, ← List.filterMap_eq_map,
    List.filterMap_filter]
  refine List.filterMap_congr fun r inCases => ?_
  rw [status r inCases, isFailureOf]
  cases isFailure : r.status.isFailure with
  | false => rfl
  | true =>
      cases named : r.body.bind (·.type.name?) with
      | none => rfl
      | some typeName =>
          by_cases same : typeName = d.typeName
          · simp [same]
          · simp [same]

theorem models_describe (d : Component) :
    Describes results (isFlagged d) d (ofUses (uses results) d) := by
  have own := own_uses c results extracted d
  refine ⟨rfl, rfl, ?_, ?_, ?_, rfl⟩
  · rw [ofUses, own]
    dsimp only
    rw [List.map_map]
    exact first_seen_firsts _
  · rw [ofUses, own]
    dsimp only
    rw [List.map_map]
    exact first_seen_firsts _
  · rw [ofUses, own]
    simp [isProblem, Option.any_eq_true]

variable (distinct : c.typeNames.Nodup)

include distinct

theorem carried_names : ((carried c results).filter fun d => !isFlagged d).map (·.typeName)
    = ((uses results).map (·.typeName)).filterMap (unmarked? c) := by
  rw [carried, uses, List.filter_flatMap, List.map_flatMap, List.map_flatMap,
    List.filterMap_flatMap]
  refine List.flatMap_congr fun result member => ?_
  have status := result.extracted_failure c (extracted result member)
  rw [List.filterMap_filter, List.map_filterMap, List.filterMap_filterMap, List.filter_flatMap,
    List.map_flatMap, List.filterMap_eq_flatMap_toList]
  refine List.flatMap_congr fun r inCases => ?_
  rw [status r inCases]
  cases isFailure : r.status.isFailure with
  | false => simp [isFailureOf, isFailure]
  | true =>
      cases named : r.body.bind (·.type.name?) with
      | none => simp [isFailureOf, isFailure, named]
      | some typeName =>
          have own : (c.components.filter fun d => d.kind.isNamed && isFailureOf d r)
              = (named? c typeName).toList := by
            rw [← named_components c distinct typeName]
            refine List.filter_congr fun d _ => ?_
            rw [isFailureOf, isFailure, named, Bool.true_and, Option.some_beq_some, BEq.comm]
          rw [own]
          cases found : named? c typeName with
          | none => simp [unmarked?, found]
          | some d =>
              by_cases flagged : isFlagged d <;> simp [unmarked?, found, flagged, Option.filter]

end Uses

/-- The models of failures are those of the marked components, in the order of the document, and
then those of the other components that are bodies of failures, in the order in which failures carry
them. Each of them bears the names of its component and of its type, and has the statuses and the
operations of precisely the failures that carry it, in the order in which they are first seen; it is
one of problem details exactly if one of these failures has such a content type. -/
theorem failures_exact (document : Document) (config : Config) (results : List ResultModel)
    (models : List FailureModel)
    (extracted : ∀ result ∈ results, result.Extracted (.ofDocument document config))
    (made : all (.ofDocument document config) results = .ok models) :
    let c := Catalog.ofDocument document config
    ∃ others front back, models = front ++ back
      ∧ List.Forall₂ (Describes results true)
          (c.components.filter fun d => d.kind.isNamed && isFlagged d) front
      ∧ List.Forall₂ (Describes results false) others back
      ∧ (∀ d ∈ others, d ∈ c.components ∧ d.kind.isNamed = true)
      ∧ FirstSeen (((carried c results).filter fun d => !isFlagged d).map (·.typeName))
          (others.map (·.typeName)) := by
  intro c
  have distinct : c.typeNames.Nodup := Catalog.type_names_distinct document config
  have described (explicit : Bool) (components : List Component)
      (flags : ∀ d ∈ components, isFlagged d = explicit) : List.Forall₂
      (Describes results explicit) components (components.map (ofUses (uses results))) := by
    refine List.forall₂_map_right_iff.mpr (List.forall₂_same.mpr fun d member => ?_)
    rw [← flags d member]
    exact models_describe c results extracted d
  let carrying := others c ((uses results).map (·.typeName))
  have unflagged : ∀ d ∈ carrying, isFlagged d = false := by
    intro d member
    obtain ⟨typeName, inNames, found⟩ := List.mem_filterMap.mp member
    rw [← marks_contain c distinct typeName d found]
    exact (Bool.not_eq_eq_eq_not ..).mp (List.mem_filter.mp inNames).2
  have whole := models_listed c distinct results models made
  rw [listed, List.map_append] at whole
  refine ⟨carrying, _, _, whole, described true _ fun d member => ?_, described false _ unflagged,
    fun d member => ?_, ?_⟩
  · exact (Bool.and_eq_true_iff.mp (List.mem_filter.mp member).2).2
  · obtain ⟨typeName, _, found⟩ := List.mem_filterMap.mp member
    obtain ⟨member, isNamed, _⟩ := named_mem c typeName d found
    exact ⟨member, isNamed⟩
  · rw [others_names c distinct, carried_names c results extracted distinct]
    exact first_seen_firsts _

def shop : Document where
  version := .v31
  contents := { components := { schemas := [
    ("Order", { type := some (.single "object"), properties := [("id", {})] }),
    ("Problem", { type := some (.single "object"), properties := [("title", {})] }),
    ("Reason", { reference := some "#/components/schemas/Conflict" }),
    ("Conflict", { type := some (.single "object"), properties := [("existing", {})] }),
    ("Rejection", {
      type := some (.single "object")
      properties := [("field", {})]
      extra := [(extensionKey, .bool true)] })] } }

def shopCatalog : Catalog := .ofDocument shop {}

def responding (responses : List (String × String × String)) : Operation where
  responses := responses.map fun (key, contentType, name) =>
    (key, .item { content := [(contentType,
      { schema := some { reference := some (Reference.toSchema name) } })] })

def addOrder : Operation := responding [
  ("201", "application/json", "Order"),
  ("422", "application/json", "Rejection"),
  ("default", "application/json", "Reason"),
  ("4XX", "Application/Problem+JSON; charset=utf-8", "Problem")]

def listOrders : Operation := responding [("503", "application/json", "Problem")]

theorem shop_failures : ∃ adding listing models,
    answer (ResultModel.ofOperation shopCatalog "AddOrder" addOrder) {} = .ok adding
      ∧ answer (ResultModel.ofOperation shopCatalog "ListOrders" listOrders) {} = .ok listing
      ∧ all shopCatalog [adding, listing] = .ok models
      ∧ models.map (·.name) = ["Rejection", "Conflict", "Problem"]
      ∧ models.map (·.statusCodes) = [[.code 422], [.default], [.range 4, .code 503]]
      ∧ models.map (·.operations) = [["AddOrder"], ["AddOrder"], ["AddOrder", "ListOrders"]]
      ∧ models.map (·.isProblemDetails) = [false, false, true]
      ∧ ∃ others front back, models = front ++ back
        ∧ List.Forall₂ (Describes [adding, listing] true)
            (shopCatalog.components.filter fun d => d.kind.isNamed && isFlagged d) front
        ∧ List.Forall₂ (Describes [adding, listing] false) others back
        ∧ FirstSeen (((carried shopCatalog [adding, listing]).filter fun d => !isFlagged d).map
            (·.typeName)) (others.map (·.typeName)) := by
  refine ⟨_, _, _, rfl, rfl, rfl, by decide, by decide, by decide, by decide, ?_⟩
  obtain ⟨others, front, back, whole, marks, unmarked, _, order⟩ := failures_exact shop {} _ _
    (List.forall_mem_cons.mpr ⟨⟨"AddOrder", addOrder, {}, rfl⟩,
      List.forall_mem_singleton.mpr ⟨"ListOrders", listOrders, {}, rfl⟩⟩) rfl
  exact ⟨others, front, back, whole, marks, unmarked, order⟩

end FailureModel

end OpenApi
