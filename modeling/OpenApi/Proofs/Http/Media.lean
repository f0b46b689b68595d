import OpenApi.Http.Media
import OpenApi.Proofs.Text.Camel

set_option autoImplicit false

namespace OpenApi

namespace Text

section Lower

variable (s : List Char)

theorem lower_keeps (p : Char → Bool)
    (letters : ∀ n < 128, p (Char.ofNat n).toLower = p (Char.ofNat n)) (c : Char) :
    p c.toLower = p c := by
  by_cases upper : c.isUpper = true
  · have plain : c.isAlphanum = true := by simp [Char.isAlphanum, Char.isAlpha, upper]
    exact small_forall (fun c => p c.toLower = p c) letters c (small_of_alphanum c plain)
  · rw [Char.toLower_eq_of_not_isUpper upper]

theorem lower_blank (c : Char) : isBlank c.toLower = isBlank c :=
  lower_keeps isBlank (by decide +kernel) c

theorem trim_lower : trim (asciiLower s) = asciiLower (trim s) := by
  have blank : isBlank ∘ Char.toLower = isBlank := funext lower_blank
  simp only [trim, trimBy, asciiLower, List.dropWhile_map, ← List.map_reverse, blank]

end Lower

theorem trim_blanks (before s after : List Char) (blank : ∀ c ∈ before, isBlank c = true)
    (blankAfter : ∀ c ∈ after, isBlank c = true) : trim (before ++ (s ++ after)) = trim s := by
  rw [trim, trimBy, trim, trimBy, List.dropWhile_append_of_pos blank, List.dropWhile_append]
  cases rest : s.dropWhile isBlank with
  | nil =>
      rw [List.isEmpty_nil, if_pos rfl, List.dropWhile_eq_nil_iff.mpr blankAfter]
  | cons c others =>
      rw [List.isEmpty_cons, if_neg Bool.false_ne_true, List.reverse_append,
        List.dropWhile_append_of_pos fun c member => blankAfter c (List.mem_reverse.mp member)]

end Text

namespace Media

section Spelling

-- The text is the media type, in any case, with blanks around it and parameters.
def Spells (text media : String) : Prop :=
  ∃ before word after parameters, text.toList = before ++ (word ++ (after ++ parameters))
    ∧ (∀ c ∈ before, Text.isBlank c = true) ∧ (∀ c ∈ after, Text.isBlank c = true)
    ∧ Text.asciiLower word = Text.asciiLower media.toList ∧ ∀ c ∈ parameters.head?, c = ';'

def beforeParameters (s : List Char) : List Char := s.takeWhile (· != ';')

theorem before_parameters_lower (s : List Char) :
    beforeParameters (Text.asciiLower s) = Text.asciiLower (beforeParameters s) := by
  have kept : (· != ';') ∘ Char.toLower = (· != ';') :=
    funext (Text.lower_keeps (· != ';') (by decide +kernel))
  rw [beforeParameters, Text.asciiLower, List.takeWhile_map, kept]
  rfl

theorem before_parameters_spelled (before word after parameters : List Char)
    (blank : ∀ c ∈ before, Text.isBlank c = true) (blankAfter : ∀ c ∈ after, Text.isBlank c = true)
    (apart : ∀ c ∈ parameters.head?, c = ';') : ∃ after', (∀ c ∈ after', Text.isBlank c = true)
      ∧ beforeParameters (before ++ (word ++ (after ++ parameters)))
        = before ++ (beforeParameters word ++ after') := by
  have noParameter (c : Char) (isBlank : Text.isBlank c = true) : (c != ';') = true := by
    refine bne_iff_ne.mpr ?_
    rintro rfl
    exact absurd isBlank (by decide)
  have cut : beforeParameters parameters = [] := by
    cases parameters with
    | nil => rfl
    | cons c rest =>
        obtain rfl := apart c rfl
        rfl
  rw [beforeParameters,
    List.takeWhile_append_of_pos fun c member => noParameter c (blank c member),
    List.takeWhile_append]
  split
  · rename_i whole
    refine ⟨after, blankAfter, ?_⟩
    have all : beforeParameters word = word :=
      (List.takeWhile_prefix (· != ';')).eq_of_length whole
    rw [all, List.takeWhile_append_of_pos fun c member => noParameter c (blankAfter c member),
      ← beforeParameters, cut, List.append_nil]
  · exact ⟨[], List.forall_mem_nil _, by rw [List.append_nil, beforeParameters]⟩

theorem essence_spelled (text media : String) (spells : Spells text media) :
    essence text = essence media := by
  obtain ⟨before, word, after, parameters, isText, blank, blankAfter, same, apart⟩ := spells
  obtain ⟨after', blankAfter', cut⟩ :=
    before_parameters_spelled before word after parameters blank blankAfter apart
  calc essence text
    _ = Text.asciiLower (Text.trim (beforeParameters text.toList)) := rfl
    _ = Text.asciiLower (Text.trim (beforeParameters word)) := by
      rw [isText, cut, Text.trim_blanks before _ after' blank blankAfter']
    _ = Text.trim (beforeParameters (Text.asciiLower media.toList)) := by
      rw [← Text.trim_lower, ← before_parameters_lower, same]
    _ = essence media := by
      rw [before_parameters_lower, Text.trim_lower]
      rfl

end Spelling

section Classes

inductive Class where
  | applicationJson
  | otherJson
  | form
  | multipart
  | octetStream
  | text
  | other
deriving DecidableEq, Repr

namespace Class

def rank : Class → Nat
  | applicationJson => 0
  | otherJson => 1
  | form => 2
  | multipart => 3
  | octetStream => 4
  | text => 5
  | other => 6

-- What a media type of the class is, without parameters, blanks around it and capitals.
def Has : Class → List Char → Prop
  | applicationJson, plain => plain = "application/json".toList
  | otherJson, plain => "+json".toList <:+ plain ∨ "/json".toList <:+ plain
  | form, plain => plain = "application/x-www-form-urlencoded".toList
  | multipart, plain => "multipart/".toList <+: plain
  | octetStream, plain => plain = "application/octet-stream".toList
  | text, plain => "text/".toList <+: plain
  | other, _ => True

def structured? : Class → Option BodyKind
  | applicationJson => some .json
  | otherJson => some .json
  | form => some .form
  | multipart => some .multipart
  | _ => none

end Class

def classOf (media : String) : Class :=
  let plain := essence media
  if isApplicationJson plain then .applicationJson
  else if isJsonSuffix plain then .otherJson
  else if isForm plain then .form
  else if isMultipart plain then .multipart
  else if isOctetStream plain then .octetStream
  else if isText plain then .text
  else .other

variable (media : String)

theorem rank_of_class :
    (classOf media).rank = preferences.findIdx fun wanted => wanted (essence media) := by
  rw [preferences, classOf]
  split_ifs
  all_goals simp_all [List.findIdx_cons, Class.rank]

theorem has_iff (k : Class) (plain : List Char) :
    k.Has plain ↔ ∀ wanted ∈ preferences[k.rank]?, wanted plain = true := by
  cases k
  all_goals simp [Class.Has, Class.rank, preferences, isApplicationJson, isJsonSuffix, isForm,
    isMultipart, isOctetStream, isText]

theorem rank_injective (k better : Class) (same : k.rank = better.rank) : k = better := by
  cases k <;> cases better <;> simp_all [Class.rank]

theorem class_best : (classOf media).Has (essence media)
    ∧ ∀ better : Class, better.rank < (classOf media).rank → ¬ better.Has (essence media) := by
  simp only [has_iff]
  rw [rank_of_class]
  constructor
  · intro wanted isWanted
    obtain ⟨inside, rfl⟩ := List.getElem?_eq_some_iff.mp isWanted
    exact @List.findIdx_getElem _ (fun wanted => wanted (essence media)) preferences inside
  · intro better earlier has
    have inside := Nat.lt_of_lt_of_le earlier List.findIdx_le_length
    have unwanted := List.not_of_lt_findIdx earlier
    rw [has _ (List.getElem?_eq_getElem inside)] at unwanted
    cases unwanted

theorem class_iff (k : Class) : classOf media = k ↔
    k.Has (essence media) ∧ ∀ better : Class, better.rank < k.rank → ¬ better.Has (essence media) := by
  obtain ⟨has, best⟩ := class_best media
  constructor
  · rintro rfl
    exact ⟨has, best⟩
  · rintro ⟨hasToo, bestToo⟩
    rcases Nat.lt_trichotomy (classOf media).rank k.rank with earlier | same | later
    · exact absurd has (bestToo _ earlier)
    · exact rank_injective _ _ same
    · exact absurd hasToo (best k later)

theorem body_kind_of_class : bodyKind media = (classOf media).structured?.getD
    (if isBinary (String.ofList (essence media)) then .binary else .text) := by
  rw [bodyKind, classOf]
  split_ifs
  all_goals simp_all [Class.structured?]

theorem structured_kinds : (bodyKind media = .json ↔ (classOf media).rank ≤ 1)
    ∧ (bodyKind media = .form ↔ (classOf media).rank = 2)
    ∧ (bodyKind media = .multipart ↔ (classOf media).rank = 3) := by
  rw [body_kind_of_class]
  cases classOf media
  case applicationJson | otherJson | form | multipart => simp [Class.structured?, Class.rank]
  all_goals
    simp only [Class.structured?, Class.rank, Option.getD_none]
    split <;> simp

end Classes

section Choice

variable {α : Type}

theorem first_best {β : Type} (wanted : List (β → Bool)) (entries : List β) (entry : β)
    (found : (wanted.findSome? fun p => entries.find? p).or entries.head? = some entry) :
    ∃ before after, entries = before ++ entry :: after
      ∧ (∀ other ∈ before, wanted.findIdx (· entry) < wanted.findIdx (· other))
      ∧ ∀ other ∈ after, wanted.findIdx (· entry) ≤ wanted.findIdx (· other) := by
  induction wanted with
  | nil =>
      obtain ⟨after, rfl⟩ := List.head?_eq_some_iff.mp found
      exact ⟨[], after, rfl, List.forall_mem_nil _, fun _ _ => Nat.le_refl 0⟩
  | cons p rest ih =>
      rw [List.findSome?_cons] at found
      cases first : entries.find? p with
      | some best =>
          rw [first] at found
          obtain rfl := Option.some.inj found
          obtain ⟨satisfied, before, after, isEntries, others⟩ :=
            List.find?_eq_some_iff_append.mp first
          refine ⟨before, after, isEntries, fun other member => ?_, fun other _ => ?_⟩
          · have unsatisfied : p other = false := by simpa using others other member
            simp [List.findIdx_cons, satisfied, unsatisfied]
          · simp [List.findIdx_cons, satisfied]
      | none =>
          rw [first] at found
          obtain ⟨before, after, isEntries, earlier, later⟩ := ih found
          have unsatisfied : ∀ other ∈ entries, p other = false := by
            simpa using List.find?_eq_none.mp first
          have next : ∀ other ∈ entries,
              (p :: rest).findIdx (· other) = rest.findIdx (· other) + 1 := by
            intro other member
            rw [List.findIdx_cons, unsatisfied other member, cond_false]
          subst isEntries
          rw [next entry (by simp)]
          refine ⟨before, after, rfl, fun other member => ?_, fun other member => ?_⟩
          · rw [next other (List.mem_append_left _ member)]
            exact Nat.succ_lt_succ (earlier other member)
          · rw [next other (by simp [member])]
            exact Nat.succ_le_succ (later other member)

variable (content : List (String × α))

structure IsPreferred (entry : String × α) : Prop where
  best : ∀ other ∈ content, (classOf entry.1).rank ≤ (classOf other.1).rank
  first : ∃ before after, content = before ++ entry :: after
    ∧ ∀ other ∈ before, classOf other.1 ≠ classOf entry.1

def HasBody (kind : BodyKind) : Prop := ∃ entry ∈ content, bodyKind entry.1 = kind

theorem select_or : select content = (preferences.findSome? fun wanted =>
    content.find? fun entry => wanted (essence entry.1)).or content.head? := by
  rw [select]
  split
  · rename_i found
    rw [found, Option.some_or]
  · rename_i none
    rw [none, Option.none_or]

theorem selected_preferred (entry : String × α) (selected : select content = some entry) :
    IsPreferred content entry := by
  let wanted : List (String × α → Bool) :=
    preferences.map fun wanted entry => wanted (essence entry.1)
  have rank (other : String × α) : wanted.findIdx (· other) = (classOf other.1).rank := by
    rw [rank_of_class, List.findIdx_map]
    rfl
  have found : (wanted.findSome? fun p => content.find? p).or content.head? = some entry := by
    rw [← selected, select_or, List.findSome?_map]
    rfl
  obtain ⟨before, after, isContent, earlier, later⟩ := first_best wanted content entry found
  simp only [rank] at earlier later
  constructor
  · rw [isContent]
    intro other member
    rcases List.mem_append.mp member with isBefore | isAfter
    · exact Nat.le_of_lt (earlier other isBefore)
    · rcases List.mem_cons.mp isAfter with rfl | isAfter
      · exact Nat.le_refl _
      · exact later other isAfter
  · refine ⟨before, after, isContent, fun other member same => ?_⟩
    have worse := earlier other member
    rw [same] at worse
    exact Nat.lt_irrefl _ worse

theorem preferred_body (entry : String × α) (preferred : IsPreferred content entry) :
    (HasBody content .json → bodyKind entry.1 = .json)
      ∧ (¬ HasBody content .json → HasBody content .form → bodyKind entry.1 = .form)
      ∧ (¬ HasBody content .json → ¬ HasBody content .form → HasBody content .multipart →
        bodyKind entry.1 = .multipart) := by
  have present : entry ∈ content := by
    obtain ⟨before, after, rfl, _⟩ := preferred.first
    exact List.mem_append_right _ (List.mem_cons_self ..)
  have own (kind : BodyKind) (none : ¬ HasBody content kind) : bodyKind entry.1 ≠ kind :=
    fun isKind => none ⟨entry, present, isKind⟩
  obtain ⟨json, form, multipart⟩ := structured_kinds entry.1
  refine ⟨?_, fun noJson => ?_, fun noJson noForm => ?_⟩
  · rintro ⟨other, member, isJson⟩
    exact json.mpr ((preferred.best other member).trans ((structured_kinds other.1).1.mp isJson))
  · rintro ⟨other, member, isForm⟩
    have atMost := preferred.best other member
    have otherRank := (structured_kinds other.1).2.1.mp isForm
    have notJson := json.not.mp (own .json noJson)
    exact form.mpr (by omega)
  · rintro ⟨other, member, isMultipart⟩
    have atMost := preferred.best other member
    have otherRank := (structured_kinds other.1).2.2.mp isMultipart
    have notJson := json.not.mp (own .json noJson)
    have notForm := form.not.mp (own .form noForm)
    exact multipart.mpr (by omega)

theorem select_none_iff : select content = none ↔ content = [] := by
  rw [select_or, Option.or_eq_none_iff, List.head?_eq_none_iff]
  constructor
  · exact And.right
  · rintro rfl
    exact ⟨rfl, rfl⟩

/-- Of a content map that is not empty, the first entry of the best class that is present is selected.
So its body is encoded as JSON wherever any body is, else as a form wherever any is, else in parts
wherever any is. A media type is of the best class of which it has what there is to have, and bodies
of the first four classes, and only these, are JSON, JSON, forms and in parts. All this is the same
however the media types are spelled. -/
theorem select_preferred : (select content = none ↔ content = [])
    ∧ (∀ entry, select content = some entry → IsPreferred content entry
      ∧ (HasBody content .json → bodyKind entry.1 = .json)
      ∧ (¬ HasBody content .json → HasBody content .form → bodyKind entry.1 = .form)
      ∧ (¬ HasBody content .json → ¬ HasBody content .form → HasBody content .multipart →
        bodyKind entry.1 = .multipart))
    ∧ (∀ media k, classOf media = k ↔ k.Has (essence media)
      ∧ ∀ better : Class, better.rank < k.rank → ¬ better.Has (essence media))
    ∧ (∀ media, (bodyKind media = .json ↔ (classOf media).rank ≤ 1)
      ∧ (bodyKind media = .form ↔ (classOf media).rank = 2)
      ∧ (bodyKind media = .multipart ↔ (classOf media).rank = 3))
    ∧ ∀ text media, Spells text media →
      classOf text = classOf media ∧ bodyKind text = bodyKind media := by
  refine ⟨select_none_iff content, fun entry selected => ?_, class_iff, structured_kinds,
    fun text media spells => ?_⟩
  · have preferred := selected_preferred content entry selected
    exact ⟨preferred, preferred_body content entry preferred⟩
  · have same := essence_spelled text media spells
    simp only [classOf, bodyKind, same, and_self]

-- Two of the media types are JSON, by their endings; one of them would be multipart otherwise.
def uploads : List (String × Nat) :=
  [("text/plain", 1), ("multipart/x+json", 2), (" Text/JSON ; charset=utf-8", 3),
    ("multipart/form-data", 4)]

theorem uploads_selected : select uploads = some ("multipart/x+json", 2)
    ∧ IsPreferred uploads ("multipart/x+json", 2)
    ∧ HasBody uploads .json ∧ bodyKind "multipart/x+json" = .json
    ∧ Spells " Text/JSON ; charset=utf-8" "text/json"
    ∧ bodyKind " Text/JSON ; charset=utf-8" = bodyKind "text/json" := by
  have selected : select uploads = some ("multipart/x+json", 2) := by decide
  have present : HasBody uploads .json := by
    refine ⟨(" Text/JSON ; charset=utf-8", 3), by decide, by decide⟩
  have blank : ∀ c ∈ [' '], Text.isBlank c = true := List.forall_mem_singleton.mpr rfl
  have apart : ∀ c ∈ "; charset=utf-8".toList.head?, c = ';' := by
    rintro _ ⟨⟩
    rfl
  have spells : Spells " Text/JSON ; charset=utf-8" "text/json" :=
    ⟨[' '], "Text/JSON".toList, [' '], "; charset=utf-8".toList, by decide, blank, blank, by decide,
      apart⟩
  obtain ⟨_, preferred, _, _, spelled⟩ := select_preferred uploads
  obtain ⟨isPreferred, json, _⟩ := preferred _ selected
  exact ⟨selected, isPreferred, present, json present, spells, (spelled _ _ spells).2⟩

end Choice

end Media

end OpenApi
