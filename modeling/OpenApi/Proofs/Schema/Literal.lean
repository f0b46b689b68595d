import OpenApi.Proofs.Schema.Decode

set_option autoImplicit false

namespace OpenApi

theorem Keyword.name_of_parse (name : String) (k : Keyword) (parsed : parse? name = some k) :
    k.name = name := by
  unfold parse? at parsed
  split at parsed <;> cases parsed <;> rfl

theorem Assoc.lookup_first {α : Type} (rest : List (String × α)) (key name : String) (a : α) :
    ((key, a) :: rest).lookup name = if name = key then some a else rest.lookup name := by
  rw [List.lookup_cons]
  by_cases here : name = key
  · simp [here]
  · simp [here, beq_eq_false_iff_ne.mpr here]

theorem Assoc.lookup_put_sorted {α : Type} (entries : List (String × α)) (key name : String)
    (value : α) : (putSorted entries key value).lookup name
      = if name = key then some value else entries.lookup name := by
  induction entries with
  | nil => rw [putSorted, lookup_first]
  | cons first rest ih =>
      rcases first with ⟨old, a⟩
      by_cases same : key = old
      · subst same
        by_cases here : name = key <;> simp [putSorted, lookup_first, here]
      · by_cases less : key < old
        · by_cases here : name = key <;> simp [putSorted, lookup_first, same, less, here]
        · simp only [putSorted, beq_iff_eq, if_neg same, if_neg less, lookup_first, ih]
          by_cases here : name = key
          · simp [here, same]
          · simp [here]

namespace Schema

open Decode

def literal? (s : Schema) (name : String) : Option Value :=
  match Keyword.parse? name with
  | some .default => s.default
  | some .constValue => s.constValue
  | some .enumValues => s.enumValues.map .arr
  | some _ => none
  | none => s.extra.lookup name

def isLiteralName (name : String) : Bool :=
  match Keyword.parse? name with
  | some k => k = .default ∨ k = .constValue ∨ k = .enumValues
  | none => true

def keptLiteral (name : String) (v : Value) : Option Value :=
  if (Keyword.parse? name).isSome && v.isNull then none else some v

theorem optional_value (v : Value) (read : Option Value) (made : optional value v = .ok read) :
    read = if v.isNull then none else some v := by
  cases v <;> cases made <;> rfl

theorem optional_values (v : Value) (read : Option (List Value))
    (made : optional (list value) v = .ok read) :
    read.map Value.arr = if v.isNull then none else some v := by
  cases v with
  | null =>
      cases made
      rfl
  | arr items =>
      have made : (list value (.arr items)).map some = .ok read := made
      cases found : list value (.arr items) with
      | error fault =>
          rw [found] at made
          cases made
      | ok values =>
          rw [found] at made
          cases made
          exact congrArg some (list_value _ values found).symm
  | bool | num | str | obj => cases made

theorem taken_literal {α : Type} (name : String) (expected : Option Value)
    (rest : List (String × Value)) (s' : Schema) (read : Result α) (put : α → Schema)
    (made : (do let x ← read; let s ← Except.ok (put x); decodeFields s rest) = .ok s')
    (each : ∀ x, read = .ok x → (put x).literal? name = expected) :
    ∃ next, decodeFields next rest = .ok s' ∧ next.literal? name = expected := by
  obtain ⟨x, found, made⟩ := ok_of_bind _ _ _ made
  exact ⟨put x, made, each x found⟩

theorem literal_elsewhere (s next : Schema) (k : Keyword) (name : String)
    (other : Keyword.parse? name ≠ some k) (default : k ≠ .default → next.default = s.default)
    (constValue : k ≠ .constValue → next.constValue = s.constValue)
    (enumValues : k ≠ .enumValues → next.enumValues = s.enumValues) (extra : next.extra = s.extra) :
    next.literal? name = s.literal? name := by
  have differs (k' : Keyword) (parsed : Keyword.parse? name = some k') : k ≠ k' := by
    intro same
    exact other (same ▸ parsed)
  unfold literal?
  split
  · rename_i parsed
    exact default (differs _ parsed)
  · rename_i parsed
    exact constValue (differs _ parsed)
  · rename_i parsed
    rw [enumValues (differs _ parsed)]
  · rfl
  · rw [extra]

theorem keyword_literal (s s' : Schema) (k : Keyword) (field name : String) (v : Value)
    (rest : List (String × Value)) (isLiteral : isLiteralName name = true)
    (parsed : Keyword.parse? field = some k) (made : decodeFields s ((field, v) :: rest) = .ok s') :
    ∃ next, decodeFields next rest = .ok s' ∧ next.literal? name
      = if field = name then keptLiteral name v else s.literal? name := by
  have other (different : field ≠ name) : Keyword.parse? name ≠ some k := by
    intro same
    have isField := Keyword.name_of_parse field k parsed
    exact different (isField.symm.trans (Keyword.name_of_parse name k same))
  rw [decodeFields, parsed] at made
  cases k
  case default =>
    apply taken_literal name _ rest s' _ _ made
    intro x found
    have read := optional_value v x found
    by_cases here : field = name
    · subst here
      simp [literal?, keptLiteral, parsed, read]
    · rw [if_neg here]
      exact literal_elsewhere s _ .default name (other here) (absurd rfl) (fun _ => rfl)
        (fun _ => rfl) rfl
  case constValue =>
    apply taken_literal name _ rest s' _ _ made
    intro x found
    have read := optional_value v x found
    by_cases here : field = name
    · subst here
      simp [literal?, keptLiteral, parsed, read]
    · rw [if_neg here]
      exact literal_elsewhere s _ .constValue name (other here) (fun _ => rfl) (absurd rfl)
        (fun _ => rfl) rfl
  case enumValues =>
    apply taken_literal name _ rest s' _ _ made
    intro x found
    have read := optional_values v x found
    by_cases here : field = name
    · subst here
      simp [literal?, keptLiteral, parsed, read]
    · rw [if_neg here]
      exact literal_elsewhere s _ .enumValues name (other here) (fun _ => rfl) (fun _ => rfl)
        (absurd rfl) rfl
  all_goals
    have different : field ≠ name := by
      intro same
      rw [isLiteralName, ← same, parsed] at isLiteral
      cases isLiteral
    rw [if_neg different]
    exact taken_literal name _ rest s' _ _ made fun _ _ => rfl

theorem field_literal (s s' : Schema) (field name : String) (v : Value)
    (rest : List (String × Value)) (isLiteral : isLiteralName name = true)
    (made : decodeFields s ((field, v) :: rest) = .ok s') :
    ∃ next, decodeFields next rest = .ok s' ∧ next.literal? name
      = if field = name then keptLiteral name v else s.literal? name := by
  cases parsed : Keyword.parse? field with
  | none =>
      rw [decodeFields, parsed] at made
      refine ⟨_, made, ?_⟩
      by_cases here : field = name
      · subst here
        simp [literal?, parsed, keptLiteral, Assoc.lookup_put_sorted]
      · have other : ¬ name = field := fun same => here same.symm
        simp [literal?, here, other, Assoc.lookup_put_sorted]
  | some k => exact keyword_literal s s' k field name v rest isLiteral parsed made

theorem fields_literal (fields : List (String × Value)) (s s' : Schema) (name : String)
    (distinct : (Assoc.keys fields).Nodup) (isLiteral : isLiteralName name = true)
    (made : decodeFields s fields = .ok s') :
    s'.literal? name = match fields.lookup name with
      | some v => keptLiteral name v
      | none => s.literal? name := by
  induction fields generalizing s with
  | nil =>
      cases made
      rfl
  | cons first rest ih =>
      rcases first with ⟨field, v⟩
      obtain ⟨absent, restDistinct⟩ := List.nodup_cons.mp distinct
      obtain ⟨next, made, literal⟩ := field_literal s s' field name v rest isLiteral made
      rw [ih next restDistinct made, Assoc.lookup_first]
      by_cases here : field = name
      · subst here
        have missing : rest.lookup field = none := Assoc.lookup_absent rest field absent
        simp [missing, literal]
      · have other : ¬ name = field := fun same => here same.symm
        rw [if_neg other, literal, if_neg here]

/-- What stands under the name of a literal in the value of a schema is what the schema keeps. -/
theorem decode_literal (v w : Value) (s : Schema) (name : String) (keyed : v.isKeyed = true)
    (isLiteral : isLiteralName name = true) (decoded : decode v = .ok s)
    (stands : v.get? name = some w) : s.literal? name = keptLiteral name w := by
  cases v with
  | obj fields =>
      have distinct := ((Value.keyed_obj_iff fields).mp keyed).1
      have kept := fields_literal fields {} s name distinct isLiteral decoded
      rwa [show fields.lookup name = some w from stands] at kept
  | null | bool | num | str | arr => cases stands

end Schema

end OpenApi
