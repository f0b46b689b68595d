import OpenApi.Proofs.Type.Registry
import OpenApi.Type.Resolve

set_option autoImplicit false

namespace OpenApi

namespace Resolution

variable {α β : Type}

def answer (m : Resolution α) (r : Registry) : Except Error α := (m.run.run r).1

-- The registry that a computation leaves, also where it fails.
def after (m : Resolution α) (r : Registry) : Registry := (m.run.run r).2

theorem after_pure (a : α) (r : Registry) : after (pure a) r = r := rfl

theorem answer_bind (m : Resolution α) (f : α → Resolution β) (r : Registry) :
    answer (m >>= f) r = match answer m r with
      | .ok a => answer (f a) (after m r)
      | .error e => .error e := by
  simp only [answer, after, ExceptT.run_bind, StateT.run_bind]
  rcases m.run.run r with ⟨_ | _, _⟩ <;> rfl

theorem after_bind (m : Resolution α) (f : α → Resolution β) (r : Registry) :
    after (m >>= f) r = match answer m r with
      | .ok a => after (f a) (after m r)
      | .error _ => after m r := by
  simp only [answer, after, ExceptT.run_bind, StateT.run_bind]
  rcases m.run.run r with ⟨_ | _, _⟩ <;> rfl

theorem answer_map (m : Resolution α) (f : α → β) (r : Registry) :
    answer (f <$> m) r = (answer m r).map f := by
  rw [map_eq_pure_bind, answer_bind]
  cases answer m r <;> rfl

theorem after_map (m : Resolution α) (f : α → β) (r : Registry) : after (f <$> m) r = after m r := by
  rw [map_eq_pure_bind, after_bind]
  cases answer m r <;> rfl

end Resolution

namespace Catalog

variable (c : Catalog) (hint : Option String) (s : Schema) (kind : ComponentKind)

theorem synthesize_named : c.synthesize hint s kind = pure none ∨ ∃ name ∈ hint,
    c.synthesize hint s kind
      = some <$> modifyGet (Registry.register c.typeNames (Naming.typeName name) s kind) := by
  cases hint with
  | none => exact .inl rfl
  | some name =>
      rw [synthesize]
      dsimp only [Option.map_some]
      split
      · exact .inl rfl
      · exact .inr ⟨name, rfl, rfl⟩

theorem synthesize_cases : c.synthesize hint s kind = pure none ∨ ∃ base,
    c.synthesize hint s kind = some <$> modifyGet (Registry.register c.typeNames base s kind) :=
  (c.synthesize_named hint s kind).imp_right fun ⟨name, _, named⟩ => ⟨Naming.typeName name, named⟩

def synthesized (r : Registry) : Registry := Resolution.after (c.synthesize hint s kind) r

theorem synthesized_cases (r : Registry) : c.synthesized hint s kind r = r ∨
    ∃ base, c.synthesized hint s kind r = (Registry.register c.typeNames base s kind r).2 := by
  rw [synthesized]
  rcases c.synthesize_cases hint s kind with unnamed | ⟨base, named⟩
  · exact .inl (by rw [unnamed, Resolution.after_pure])
  · exact .inr ⟨base, by rw [named]; rfl⟩

theorem synthesized_extends (r : Registry) : r.Extends (c.synthesized hint s kind r) := by
  rcases c.synthesized_cases hint s kind r with same | ⟨base, registered⟩
  · rw [same]
    exact r.extends_refl
  · rw [registered]
    exact Registry.register_extends c.typeNames base s kind r

theorem synthesized_taken (r : Registry) : (c.synthesized hint s kind r).taken = r.taken := by
  rcases c.synthesized_cases hint s kind r with same | ⟨base, registered⟩
  · rw [same]
  · rw [registered, Registry.register_taken]

theorem synthesized_well_named (r : Registry) (named : r.WellNamed c.typeNames) :
    (c.synthesized hint s kind r).WellNamed c.typeNames := by
  rcases c.synthesized_cases hint s kind r with same | ⟨base, registered⟩
  · rw [same]
    exact named
  · rw [registered]
    exact Registry.register_well_named c.typeNames base s kind r named

theorem synthesized_mem (r : Registry) (t : SynthesizedType)
    (member : t ∈ (c.synthesized hint s kind r).types) :
    t ∈ r.types ∨ t.schema = s ∧ t.kind = kind := by
  rcases c.synthesized_cases hint s kind r with same | ⟨base, registered⟩
  · rw [same] at member
    exact .inl member
  · rw [registered] at member
    exact Registry.register_mem c.typeNames base s kind r t member

theorem synthesized_mem_named (r : Registry) (t : SynthesizedType)
    (member : t ∈ (c.synthesized hint s kind r).types) : t ∈ r.types
      ∨ t.schema = s ∧ ∃ name ∈ hint, ∃ taken, t.name = Naming.unique (Naming.typeName name) taken := by
  rw [synthesized] at member
  rcases c.synthesize_named hint s kind with unnamed | ⟨name, isHint, named⟩
  · rw [unnamed, Resolution.after_pure] at member
    exact .inl member
  · rw [named] at member
    rcases Registry.register_mem_named c.typeNames (Naming.typeName name) s kind r t member with
      old | ⟨isSchema, isName⟩
    · exact .inl old
    · exact .inr ⟨isSchema, name, isHint, _, isName⟩

theorem synthesized_stored (r : Registry) (name : String)
    (handed : Resolution.answer (c.synthesize hint s kind) r = .ok (some name)) :
    ∃ t, (c.synthesized hint s kind r).stored? name = some t ∧
      (t.schema = s ∨ t.schema.same s = true) := by
  rw [synthesized]
  rcases c.synthesize_cases hint s kind with unnamed | ⟨base, named⟩
  · rw [unnamed] at handed
    cases handed
  · rw [named] at handed ⊢
    obtain rfl := Option.some.inj (Except.ok.inj handed)
    exact Registry.register_stored c.typeNames base s kind r

theorem synthesize_repeats (r r' : Registry) (reflexive : s.same s = true)
    (named : r'.WellNamed c.typeNames) (grown : (c.synthesized hint s kind r).Extends r') :
    Resolution.answer (c.synthesize hint s kind) r'
        = Resolution.answer (c.synthesize hint s kind) r
      ∧ c.synthesized hint s kind r' = r' := by
  rw [synthesized] at grown ⊢
  rcases c.synthesize_cases hint s kind with unnamed | ⟨base, synthesizes⟩
  · rw [unnamed]
    exact ⟨rfl, rfl⟩
  · rw [synthesizes] at grown ⊢
    have again := Registry.register_repeats c.typeNames base s kind r r' reflexive named grown
    have sameName : (Registry.register c.typeNames base s kind r').1
        = (Registry.register c.typeNames base s kind r).1 := by rw [again]
    exact ⟨congrArg (Except.ok ∘ some) sameName, congrArg Prod.snd again⟩

end Catalog

-- A registry grows by types that are synthesized one after another, whose schemas are among those
-- of `J`.
inductive Registers (c : Catalog) (J : Schema → Prop) (r : Registry) : Registry → Prop
  | none : Registers c J r r
  | next (r' : Registry) (hint : Option String) (s : Schema) (kind : ComponentKind)
      (earlier : Registers c J r r') (allowed : J s) (named : kind.isNamed = true) :
      Registers c J r (c.synthesized hint s kind r')

section Registers

variable (c : Catalog) (J : Schema → Prop) (r r' r'' : Registry)

theorem registers_trans (first : Registers c J r r') (second : Registers c J r' r'') :
    Registers c J r r'' := by
  induction second with
  | none => exact first
  | next r'' hint s kind _ allowed named ih => exact .next r'' hint s kind ih allowed named

theorem registers_extends (grown : Registers c J r r') : r.Extends r' := by
  induction grown with
  | none => exact r.extends_refl
  | next r' hint s kind _ _ _ ih =>
      exact r.extends_trans r' _ ih (c.synthesized_extends hint s kind r')

theorem registers_taken (grown : Registers c J r r') : r'.taken = r.taken := by
  induction grown with
  | none => rfl
  | next r' hint s kind _ _ _ ih => rw [c.synthesized_taken, ih]

theorem registers_well_named (grown : Registers c J r r') (named : r.WellNamed c.typeNames) :
    r'.WellNamed c.typeNames := by
  induction grown with
  | none => exact named
  | next r' hint s kind _ _ _ ih => exact c.synthesized_well_named hint s kind r' ih

theorem registers_mem (grown : Registers c J r r') (t : SynthesizedType) (member : t ∈ r'.types) :
    t ∈ r.types ∨ J t.schema ∧ t.kind.isNamed = true := by
  induction grown with
  | none => exact .inl member
  | next r' hint s kind _ allowed named ih =>
      rcases c.synthesized_mem hint s kind r' t member with old | ⟨rfl, rfl⟩
      · exact ih old
      · exact .inr ⟨allowed, named⟩

end Registers

namespace Resolution

variable {α β : Type}

theorem pending_taken_types (r : Registry) : (after takePending r).types = r.types :=
  List.append_nil r.types

theorem pending_taken_named (reserved : List String) (r : Registry) (named : r.WellNamed reserved) :
    (after takePending r).WellNamed reserved := by
  have same : (after takePending r).names = r.names :=
    congrArg (List.map SynthesizedType.name) (pending_taken_types r)
  exact ⟨same ▸ named.distinct, same ▸ named.free⟩

def Lasting (P : Registry → Prop) : Prop := ∀ r r' : Registry, r.Extends r' → P r → P r'

structure Lawful (c : Catalog) (J : Schema → Prop) (m : Resolution α)
    (post : Registry → α → Prop) : Prop where
  registers : ∀ r, Registers c J r (after m r)
  repeats : (∀ s, J s → s.same s = true) → ∀ r r', r'.WellNamed c.typeNames →
    (after m r).Extends r' → answer m r' = answer m r ∧ after m r' = r'
  yields : ∀ r a, answer m r = .ok a → post (after m r) a

variable (c : Catalog) (J : Schema → Prop) (P : Registry → α → Prop) (Q : Registry → β → Prop)

theorem lawful_pure (a : α) (holds : ∀ r, P r a) : Lawful c J (pure a) P where
  registers _ := .none
  repeats _ _ _ _ _ := ⟨rfl, rfl⟩
  yields r _ found := Except.ok.inj found ▸ holds r

theorem lawful_lift (x : Except Error α) (holds : ∀ r a, x = .ok a → P r a) :
    Lawful c J (liftM x) P where
  registers _ := .none
  repeats _ _ _ _ _ := ⟨rfl, rfl⟩
  yields := holds

theorem lawful_throw (e : Error) : Lawful c J (throw e) P where
  registers _ := .none
  repeats _ _ _ _ _ := ⟨rfl, rfl⟩
  yields _ _ found := by cases found

theorem lawful_weaken (m : Resolution α) (R : Registry → α → Prop) (lawful : Lawful c J m P)
    (weaker : ∀ r a, P r a → R r a) : Lawful c J m R where
  registers := lawful.registers
  repeats := lawful.repeats
  yields r a found := weaker _ a (lawful.yields r a found)

-- The second computation may use what is known of the first answer, since that is still true of
-- the registry that is left in the end.
theorem lawful_bind (m : Resolution α) (f : α → Resolution β) (lasting : ∀ a, Lasting (P · a))
    (first : Lawful c J m P) (second : ∀ a, Lawful c J (f a) fun r b => P r a → Q r b) :
    Lawful c J (m >>= f) Q where
  registers r := by
    rw [after_bind]
    cases answer m r with
    | error e => exact first.registers r
    | ok a => exact registers_trans c J r _ _ (first.registers r) ((second a).registers _)
  repeats reflexive r r' named grown := by
    rw [after_bind] at grown
    rw [answer_bind, answer_bind, after_bind]
    cases found : answer m r with
    | error e =>
        rw [found] at grown
        obtain ⟨sameAnswer, sameState⟩ := first.repeats reflexive r r' named grown
        rw [sameAnswer, found]
        exact ⟨rfl, sameState⟩
    | ok a =>
        rw [found] at grown
        have within := registers_extends c J _ _ ((second a).registers (after m r))
        obtain ⟨sameAnswer, sameState⟩ := first.repeats reflexive r r' named
          (Registry.extends_trans _ _ _ within grown)
        rw [sameAnswer, found, sameState]
        exact (second a).repeats reflexive (after m r) r' named grown
  yields r b found := by
    rw [answer_bind] at found
    rw [after_bind]
    cases firstFound : answer m r with
    | error e =>
        rw [firstFound] at found
        cases found
    | ok a =>
        rw [firstFound] at found
        have within := registers_extends c J _ _ ((second a).registers (after m r))
        exact (second a).yields _ b found (lasting a _ _ within (first.yields r a firstFound))

theorem lawful_bind_lift (x : Except Error α) (f : α → Resolution β)
    (second : ∀ a, x = .ok a → Lawful c J (f a) Q) : Lawful c J (liftM x >>= f) Q := by
  cases x with
  | error e => exact lawful_throw c J Q e
  | ok a => exact second a rfl

theorem lawful_map (m : Resolution α) (f : α → β) (lasting : ∀ a, Lasting (P · a))
    (lawful : Lawful c J m P) (holds : ∀ r a, P r a → Q r (f a)) : Lawful c J (f <$> m) Q := by
  rw [map_eq_pure_bind]
  exact lawful_bind c J P Q m _ lasting lawful fun a => lawful_pure c J _ (f a) fun r => holds r a

theorem lasting_all (xs : List α) (lasting : ∀ a, Lasting (P · a)) :
    Lasting fun r => ∀ x ∈ xs, P r x :=
  fun r r' grown holds x member => lasting x r r' grown (holds x member)

theorem lawful_cons_map (m : Resolution α) (f : α → β) (ms : Resolution (List β))
    (lasting : ∀ a, Lasting (P · a)) (lasting' : ∀ b, Lasting (Q · b))
    (holds : ∀ r a, P r a → Q r (f a)) (first : Lawful c J m P)
    (rest : Lawful c J ms fun r ys => ∀ y ∈ ys, Q r y) :
    Lawful c J (do let x ← m; let ys ← ms; pure (f x :: ys)) fun r ys => ∀ y ∈ ys, Q r y := by
  refine lawful_bind c J P _ m _ lasting first fun x => ?_
  refine lawful_bind c J _ _ ms _ (fun ys => lasting_all Q ys lasting') rest fun ys => ?_
  exact lawful_pure c J _ (f x :: ys) fun r others here =>
    List.forall_mem_cons.mpr ⟨holds r x here, others⟩

theorem lawful_cons (m : Resolution α) (ms : Resolution (List α)) (lasting : ∀ a, Lasting (P · a))
    (first : Lawful c J m P) (rest : Lawful c J ms fun r xs => ∀ x ∈ xs, P r x) :
    Lawful c J (do let x ← m; let xs ← ms; pure (x :: xs)) fun r xs => ∀ x ∈ xs, P r x :=
  lawful_cons_map c J P P m id ms lasting lasting (fun _ _ here => here) first rest

theorem lawful_map_list (f : β → Resolution α) (items : List β) (lasting : ∀ a, Lasting (P · a))
    (each : ∀ item ∈ items, Lawful c J (f item) P) :
    Lawful c J (items.mapM f) fun r xs => ∀ x ∈ xs, P r x := by
  induction items with
  | nil =>
      rw [List.mapM_nil]
      exact lawful_pure c J _ [] fun _ _ member => by cases member
  | cons item rest ih =>
      rw [List.mapM_cons]
      rw [List.forall_mem_cons] at each
      exact lawful_cons c J P (f item) _ lasting each.1 (ih each.2)

theorem lawful_synthesize (hint : Option String) (s : Schema) (kind : ComponentKind) (allowed : J s)
    (named : kind.isNamed = true) :
    Lawful c J (c.synthesize hint s kind) fun r name => ∀ n ∈ name, n ∈ r.names where
  registers r := .next r hint s kind .none allowed named
  repeats reflexive r r' := c.synthesize_repeats hint s kind r r' (reflexive s allowed)
  yields r name found n present := by
    obtain rfl := Option.mem_def.mp present
    obtain ⟨t, stored, _⟩ := c.synthesized_stored hint s kind r n found
    rw [← Registry.stored_name _ n t stored]
    exact List.mem_map_of_mem (Registry.stored_mem _ n t stored)

def Ensures (pre : Registry → Prop) (m : Resolution α) (post : Registry → α → Prop) : Prop :=
  ∀ r a, pre r → answer m r = .ok a → post (after m r) a

theorem ensures_pure (pre : Registry → Prop) (a : α) (holds : ∀ r, pre r → P r a) :
    Ensures pre (pure a) P := by
  intro r a' before found
  obtain rfl := Except.ok.inj found
  exact holds r before

theorem ensures_bind (pre : Registry → Prop) (m : Resolution α) (f : α → Resolution β)
    (first : Ensures pre m P) (second : ∀ a, Ensures (P · a) (f a) Q) :
    Ensures pre (m >>= f) Q := by
  intro r b before found
  rw [answer_bind] at found
  rw [after_bind]
  cases firstFound : answer m r with
  | error e =>
      rw [firstFound] at found
      cases found
  | ok a =>
      rw [firstFound] at found
      exact second a (after m r) b (first r a before firstFound) found

theorem ensures_later (pre : Registry → Prop) (m : Resolution α) (f : α → Resolution β)
    (later : ∀ a, Ensures (fun _ => True) (f a) Q) : Ensures pre (m >>= f) Q := by
  apply ensures_bind (fun _ _ => True) Q pre m f
  · exact fun _ _ _ _ => trivial
  · exact later

theorem ensures_known (K : α → Prop) (pre : Registry → Prop) (m : Resolution α) (f : α → Resolution β)
    (first : Ensures pre m fun _ a => K a)
    (later : ∀ a, K a → Ensures (fun _ => True) (f a) Q) : Ensures pre (m >>= f) Q := by
  refine ensures_bind _ _ _ _ _ first fun a r b known found => ?_
  exact later a known r b trivial found

theorem ensures_bind_lift (pre : Registry → Prop) (x : Except Error α) (f : α → Resolution β)
    (second : ∀ a, x = .ok a → Ensures pre (f a) Q) : Ensures pre (liftM x >>= f) Q := by
  cases x with
  | error e => exact fun r b _ found => by cases found
  | ok a => exact second a rfl

theorem ensures_lawful (pre : Registry → Prop) (m : Resolution α) (lawful : Lawful c J m P)
    (kept : ∀ r r', Registers c J r r' → pre r → pre r') :
    Ensures pre m fun r a => pre r ∧ P r a := fun r a before found =>
  ⟨kept r _ (lawful.registers r) before, lawful.yields r a found⟩

end Resolution

end OpenApi
