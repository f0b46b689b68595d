import OpenApi.Proofs.Json.Same

set_option autoImplicit false

namespace OpenApi.Value

inductive Step where
  | field (name : String)
  | item (n : Nat)
deriving DecidableEq, Repr

def step? (v : Value) : Step → Option Value
  | .field name => v.get? name
  | .item n => v.asArray?.bind (·[n]?)

def at? (v : Value) : List Step → Option Value
  | [] => some v
  | step :: rest => (v.step? step).bind fun child => child.at? rest

-- The value without what stands in it: the length of a list, the names of an object.
def outline : Value → Value
  | .arr items => .arr (items.map fun _ => .null)
  | .obj fields => .obj (fields.map fun field => (field.1, .null))
  | v => v

theorem at_append (v : Value) (path more : List Step) :
    v.at? (path ++ more) = (v.at? path).bind fun w => w.at? more := by
  induction path generalizing v with
  | nil => rfl
  | cons step rest ih =>
      rw [List.cons_append, at?, at?]
      cases v.step? step with
      | none => rfl
      | some child => exact ih child

theorem at_within (v w : Value) (path more : List Step) (stands : v.at? path = some w) :
    v.at? (path ++ more) = w.at? more := by
  rw [at_append, stands, Option.bind_some]

theorem at_single (v : Value) (step : Step) : v.at? [step] = v.step? step := by
  rw [at?]
  cases v.step? step <;> rfl

theorem at_last (v w : Value) (path : List Step) (step : Step)
    (stands : v.at? (path ++ [step]) = some w) :
    ∃ u, v.at? path = some u ∧ u.step? step = some w := by
  rw [at_append] at stands
  obtain ⟨u, before, last⟩ := Option.bind_eq_some_iff.mp stands
  rw [at_single] at last
  exact ⟨u, before, last⟩

theorem step_cases (v w : Value) (step : Step) (stands : v.step? step = some w) :
    (∃ fields name, v = .obj fields ∧ step = .field name ∧ fields.lookup name = some w)
      ∨ ∃ items n, v = .arr items ∧ step = .item n ∧ items[n]? = some w := by
  cases step with
  | field name =>
      cases v with
      | obj fields => exact .inl ⟨fields, name, rfl, rfl, stands⟩
      | null | bool | num | str | arr => cases stands
  | item n =>
      cases v with
      | arr items => exact .inr ⟨items, n, rfl, rfl, stands⟩
      | null | bool | num | str | obj => cases stands

theorem step_child (v w : Value) (step : Step) (stands : v.step? step = some w) :
    w ∈ v.children := by
  rcases step_cases v w step stands with ⟨fields, name, rfl, _, found⟩ | ⟨items, n, rfl, _, found⟩
  · have member := Assoc.mem_of_lookup fields name w found
    exact List.mem_map_of_mem member
  · exact List.mem_of_getElem? found

theorem step_no_flag (v w : Value) (step : Step) (stands : v.step? step = some w) :
    v.asBool? = none := by
  cases v with
  | bool b => cases step <;> cases stands
  | null | num | str | arr | obj => rfl

theorem at_keyed (v w : Value) (path : List Step) (keyed : v.isKeyed = true)
    (stands : v.at? path = some w) : w.isKeyed = true := by
  induction path generalizing v with
  | nil =>
      cases stands
      exact keyed
  | cons step rest ih =>
      obtain ⟨child, here, below⟩ := Option.bind_eq_some_iff.mp stands
      have childKeyed := v.keyed_child child keyed (step_child v child step here)
      exact ih child childKeyed below

theorem outline_arr (w : Value) (items : List Value) (same : w.outline = (arr items).outline) :
    ∃ others, w = .arr others ∧ others.length = items.length := by
  cases w with
  | arr others =>
      have lengths := congrArg List.length (Value.arr.inj same)
      exact ⟨others, rfl, by simpa using lengths⟩
  | null | bool | num | str | obj => cases same

theorem outline_obj (w : Value) (fields : List (String × Value))
    (same : w.outline = (obj fields).outline) :
    ∃ others, w = .obj others ∧ Assoc.keys others = Assoc.keys fields := by
  cases w with
  | obj others =>
      have names := congrArg (List.map Prod.fst) (Value.obj.inj same)
      exact ⟨others, rfl, by simpa [Assoc.keys, Function.comp_def] using names⟩
  | null | bool | num | str | arr => cases same

-- The second value has, at every place of the first, a value of the same outline.
def Covers (v w : Value) : Prop :=
  ∀ path u, v.at? path = some u → ∃ u', w.at? path = some u' ∧ u'.outline = u.outline

theorem covers_step (v w child child' : Value) (step : Step) (covers : v.Covers w)
    (here : v.step? step = some child) (there : w.step? step = some child') :
    child.Covers child' := by
  intro path u stands
  have lower := covers (step :: path) u
  rw [at?, at?, here, there] at lower
  exact lower stands

theorem eq_of_covers (v w : Value) (keyed : v.isKeyed = true) (covers : v.Covers w) : w = v := by
  induction v using child_induction generalizing w with
  | step v ih =>
      have below (child child' : Value) (step : Step) (here : v.step? step = some child)
          (there : w.step? step = some child') : child' = child := by
        have member := step_child v child step here
        have childKeyed := v.keyed_child child keyed member
        have childCovers := covers_step v w child child' step covers here there
        exact ih child member child' childKeyed childCovers
      obtain ⟨w', here, same⟩ := covers [] v rfl
      cases here
      cases v with
      | arr items =>
          obtain ⟨others, rfl, lengths⟩ := outline_arr w items same
          have each : others = items := by
            apply List.ext_getElem lengths
            intro n inOthers inItems
            exact below items[n] others[n] (.item n) (List.getElem?_eq_getElem inItems)
              (List.getElem?_eq_getElem inOthers)
          rw [each]
      | obj fields =>
          obtain ⟨others, rfl, names⟩ := outline_obj w fields same
          have distinct := ((keyed_obj_iff fields).mp keyed).1
          have each : others = fields := by
            have lengths : others.length = fields.length := by
              simpa [Assoc.keys] using congrArg List.length names
            apply List.ext_getElem lengths
            intro n inOthers inFields
            have sameName : others[n].1 = fields[n].1 := by
              have atN := congrArg (·[n]?) names
              simpa [Assoc.keys, inOthers, inFields] using atN
            have here := Assoc.lookup_of_mem fields distinct fields[n] (List.getElem_mem inFields)
            have there := Assoc.lookup_of_mem others (names ▸ distinct) others[n]
              (List.getElem_mem inOthers)
            rw [sameName] at there
            exact Prod.ext sameName (below fields[n].2 others[n].2 (.field fields[n].1) here there)
          rw [each]
      | null | bool | num | str => cases w <;> simp_all [outline]

end OpenApi.Value
