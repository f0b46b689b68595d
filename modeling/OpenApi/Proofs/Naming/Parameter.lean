import OpenApi.Proofs.Naming.Identifier

set_option autoImplicit false

namespace OpenApi.Naming

open Text

def startsNumeral (word : List Char) : Bool := word.head?.any Char.isDigit

-- The words of a text, of which `word` is read already.
def joinWords (word : List Char) : List (List Char) → List (List Char)
  | [] => [word]
  | next :: rest =>
    if startsNumeral next then joinWords (word ++ next) rest else word :: joinWords next rest

def parameterWords (s : List Char) : List (List Char) :=
  match words s with
  | [] => ["param".toList]
  | first :: rest => joinWords (if startsNumeral first then 'p' :: first else first) rest

structure PlainWord (w : List Char) : Prop where
  some : w ≠ []
  plain : Plain w

namespace PlainWord

variable {w : List Char} (word : PlainWord w)

include word

theorem ascii : Ascii w := plain_ascii w word.plain

theorem append {w' : List Char} (word' : PlainWord w') : PlainWord (w ++ w') where
  some := List.append_ne_nil_of_left_ne_nil word.some w'
  plain := List.forall_mem_append.mpr ⟨word.plain, word'.plain⟩

theorem starts_letter (letter : startsNumeral w = false) :
    ∃ c rest, w = c :: rest ∧ c.isAlpha = true := by
  obtain ⟨c, rest, rfl⟩ := List.exists_cons_of_ne_nil word.some
  have first := word.plain c List.mem_cons_self
  rw [Char.isAlphanum, Bool.or_eq_true] at first
  rw [startsNumeral, List.head?_cons, Option.any_some] at letter
  exact ⟨c, rest, rfl, first.resolve_right (ne_true_of_eq_false letter)⟩

end PlainWord

section Joining

theorem lower_word_append (w w' : List Char) (ascii : Ascii w) (ascii' : Ascii w') :
    lowerWord (w ++ w') = lowerWord w ++ lowerWord w' := by
  rw [lower_word_ascii _ ((ascii_append w w').mpr ⟨ascii, ascii'⟩), lower_word_ascii w ascii,
    lower_word_ascii w' ascii', List.map_append]

theorem lower_numeral (c : Char) (small : c.toNat < 128) : c.toLower.isDigit = c.isDigit :=
  small_forall (fun c => c.toLower.isDigit = c.isDigit) (by decide +kernel) c small

theorem capitalized_word_append (w w' : List Char) (word : PlainWord w) (ascii' : Ascii w') :
    capitalizedWord (w ++ w') = capitalizedWord w ++ lowerWord w' := by
  obtain ⟨c, rest, rfl⟩ := List.exists_cons_of_ne_nil word.some
  have ascii := ((ascii_cons c rest).mp word.ascii).2
  rw [List.cons_append, capitalizedWord, capitalizedWord, lower_word_append rest w' ascii ascii',
    List.append_assoc]

theorem capitalized_numeral (w : List Char) (word : PlainWord w) (numeral : startsNumeral w = true) :
    capitalizedWord w = lowerWord w := by
  obtain ⟨c, rest, rfl⟩ := List.exists_cons_of_ne_nil word.some
  rw [startsNumeral, List.head?_cons, Option.any_some] at numeral
  have noLower : ¬ c.isLower = true := by
    have noLetter := digit_not_letter c numeral
    rw [Char.isAlpha, Bool.or_eq_false_iff] at noLetter
    exact ne_true_of_eq_false noLetter.2
  rw [capitalized_word_ascii c rest word.ascii, lower_word_ascii _ word.ascii, List.map_cons,
    lower_digit c numeral, Char.toUpper_eq_of_not_isLower noLower]

variable (word : List Char) (rest : List (List Char)) (first : PlainWord word)
  (others : ∀ w ∈ rest, PlainWord w)

include first others

theorem capitalized_words_joined : (joinWords word rest).flatMap capitalizedWord
    = capitalizedWord word ++ rest.flatMap capitalizedWord := by
  induction rest generalizing word with
  | nil => rw [joinWords, List.flatMap_singleton, List.flatMap_nil, List.append_nil]
  | cons next rest ih =>
      obtain ⟨second, later⟩ := List.forall_mem_cons.mp others
      rw [joinWords, List.flatMap_cons]
      by_cases numeral : startsNumeral next = true
      · rw [if_pos numeral, ih (word ++ next) (first.append second) later,
          capitalized_word_append word next first second.ascii, capitalized_numeral next second numeral,
          List.append_assoc]
      · rw [if_neg numeral, List.flatMap_cons, ih next second later]

theorem camel_words_joined : (camelWords (joinWords word rest)).flatten
    = lowerWord word ++ rest.flatMap capitalizedWord := by
  induction rest generalizing word with
  | nil => rw [joinWords, camelWords, List.map_nil, List.flatten_singleton, List.flatMap_nil,
      List.append_nil]
  | cons next rest ih =>
      obtain ⟨second, later⟩ := List.forall_mem_cons.mp others
      rw [joinWords, List.flatMap_cons]
      by_cases numeral : startsNumeral next = true
      · rw [if_pos numeral, ih (word ++ next) (first.append second) later,
          lower_word_append word next first.ascii second.ascii, capitalized_numeral next second numeral,
          List.append_assoc]
      · rw [if_neg numeral, camelWords, List.flatten_cons, ← List.flatMap_def,
          capitalized_words_joined next rest second later]

theorem joined_words_start (letter : startsNumeral word = false) :
    ∀ w ∈ joinWords word rest, PlainWord w ∧ startsNumeral w = false := by
  induction rest generalizing word with
  | nil => exact List.forall_mem_singleton.mpr ⟨first, letter⟩
  | cons next rest ih =>
      obtain ⟨second, later⟩ := List.forall_mem_cons.mp others
      rw [joinWords]
      by_cases numeral : startsNumeral next = true
      · rw [if_pos numeral]
        refine ih (word ++ next) (first.append second) later ?_
        rw [startsNumeral, List.head?_append_of_ne_nil _ first.some, ← startsNumeral, letter]
      · rw [if_neg numeral]
        refine List.forall_mem_cons.mpr ⟨⟨first, letter⟩, ?_⟩
        exact ih next second later (eq_false_of_ne_true numeral)

end Joining

section Words

variable (s : List Char) (ascii : Ascii s)

include ascii

theorem words_plain_word : ∀ w ∈ words s, PlainWord w := fun w member =>
  ⟨words_nonempty s w member,
    words_class (·.isAlphanum = true) s (ascii_letters s ascii) w member⟩

theorem parameter_words_start : ∀ w ∈ parameterWords s, PlainWord w ∧ startsNumeral w = false := by
  have plain := words_plain_word s ascii
  rw [parameterWords]
  cases isWords : words s with
  | nil => exact List.forall_mem_singleton.mpr ⟨⟨by decide, by decide⟩, by decide⟩
  | cons first rest =>
      rw [isWords] at plain
      obtain ⟨word, others⟩ := List.forall_mem_cons.mp plain
      by_cases numeral : startsNumeral first = true
      · dsimp only
        rw [if_pos numeral]
        refine joined_words_start _ rest ⟨List.cons_ne_nil _ _, ?_⟩ others rfl
        exact List.forall_mem_cons.mpr ⟨by decide, word.plain⟩
      · dsimp only
        rw [if_neg numeral]
        exact joined_words_start first rest word others (eq_false_of_ne_true numeral)

theorem parameter_name_words :
    parameterName (String.ofList s) = String.ofList (camelWords (parameterWords s)).flatten := by
  have plain := words_plain_word s ascii
  unfold parameterName
  rw [String.toList_ofList, lowerCamel, parameterWords]
  cases isWords : words s with
  | nil => decide
  | cons first rest =>
      rw [isWords] at plain
      obtain ⟨word, others⟩ := List.forall_mem_cons.mp plain
      obtain ⟨c, more, rfl⟩ := List.exists_cons_of_ne_nil word.some
      have lowered : lowerWord (c :: more) = c.toLower :: more.map Char.toLower :=
        lower_word_ascii _ word.ascii
      have digit : startsWithDigit (String.ofList (lowerWord (c :: more) ++ rest.flatMap capitalizedWord))
          = startsNumeral (c :: more) := by
        rw [starts_with_digit, String.toList_ofList, lowered, startsNumeral]
        exact lower_numeral c (word.ascii c List.mem_cons_self)
      dsimp only
      rw [if_neg (by simp [lowered]), digit]
      by_cases numeral : startsNumeral (c :: more) = true
      · have guarded : PlainWord ('p' :: c :: more) :=
          ⟨List.cons_ne_nil _ _, List.forall_mem_cons.mpr ⟨by decide, word.plain⟩⟩
        rw [if_pos numeral, if_pos numeral, camel_words_joined _ rest guarded others,
          lower_word_ascii _ guarded.ascii, lowered]
        exact String.ofList_append.symm
      · rw [if_neg numeral, if_neg numeral, camel_words_joined _ rest word others]

theorem parameter_words_camel : ∀ w ∈ camelWords (parameterWords s), CamelWord w := by
  have start := parameter_words_start s ascii
  have lowered (w : List Char) (word : PlainWord w) : CamelWord (lowerWord w) := by
    obtain ⟨c, rest, rfl⟩ := List.exists_cons_of_ne_nil word.some
    exact ⟨c.toLower, rest, lower_word_ascii _ word.ascii⟩
  have capitalized (w : List Char) (word : PlainWord w) : CamelWord (capitalizedWord w) := by
    obtain ⟨c, rest, rfl⟩ := List.exists_cons_of_ne_nil word.some
    exact ⟨c.toUpper, rest, capitalized_word_ascii c rest word.ascii⟩
  cases isWords : parameterWords s with
  | nil => exact List.forall_mem_nil _
  | cons first rest =>
      rw [isWords] at start
      obtain ⟨startFirst, startRest⟩ := List.forall_mem_cons.mp start
      refine List.forall_mem_cons.mpr ⟨lowered first startFirst.1, ?_⟩
      exact List.forall_mem_map.mpr fun w member => capitalized w (startRest w member).1

theorem parameter_name_split :
    (parameterName (String.ofList s)).toList.splitBy continues = camelWords (parameterWords s) := by
  have start := parameter_words_start s ascii
  rw [parameter_name_words s ascii, String.toList_ofList]
  refine camel_words_split _ (parameter_words_camel s ascii) ?_
  rw [camel_words_tail, ← List.map_tail]
  refine List.forall_mem_map.mpr fun w member => ?_
  obtain ⟨word, letter⟩ := start w (List.mem_of_mem_tail member)
  obtain ⟨c, rest, rfl, isLetter⟩ := word.starts_letter letter
  rw [capitalized_word_ascii c rest word.ascii]
  exact ⟨List.cons_ne_nil _ _, by simpa using isLetter⟩

end Words

def parameterSpelling (name : String) : List (List Char) :=
  (parameterWords name.toList).map lowerWord

theorem parameter_name_eq_iff (name name' : String) (ascii : Ascii name.toList)
    (ascii' : Ascii name'.toList) :
    parameterName name = parameterName name' ↔ parameterSpelling name = parameterSpelling name' := by
  have words := fun w member => (parameter_words_start name.toList ascii w member).1.ascii
  have words' := fun w member => (parameter_words_start name'.toList ascii' w member).1.ascii
  have split := parameter_name_split name.toList ascii
  have split' := parameter_name_split name'.toList ascii'
  have made := parameter_name_words name.toList ascii
  have made' := parameter_name_words name'.toList ascii'
  rw [String.ofList_toList] at split split' made made'
  rw [parameterSpelling, parameterSpelling]
  constructor
  · intro same
    rw [same] at split
    rw [← camel_words_lowered _ words, ← camel_words_lowered _ words', ← split, split']
  · intro same
    rw [made, made', ← camel_words_lower _ words, ← camel_words_lower _ words', same]

theorem parameter_names_distinct_iff (names : List String) (ascii : ∀ name ∈ names, Ascii name.toList) :
    (names.map parameterName).Nodup ↔ (names.map parameterSpelling).Nodup := by
  rw [List.Nodup, List.Nodup, List.pairwise_map, List.pairwise_map]
  refine List.Pairwise.iff_of_mem fun {name name'} member member' => not_congr ?_
  exact parameter_name_eq_iff name name' (ascii name member) (ascii name' member')

end OpenApi.Naming
