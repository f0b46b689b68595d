import OpenApi.Proofs.Render.Token

set_option autoImplicit false

namespace OpenApi.TypeScript

section Grammar

inductive Expression where
  | name (word : String)
  | generic (name : String) (arguments : List Expression)
  | array (item : Expression)
  | member (object index : Expression)
  | tuple (elements : List Expression)
  | spread (item : Expression)
  | union (members : List Expression)

-- What stands between bars. A single expression is no union.
def oneOf : List Expression → Expression
  | [e] => e
  | members => .union members

inductive Listing where
  | alternatives
  | arguments
  | elements

inductive Category where
  | primary
  | after (e : Expression)
  | operand
  | type
  | element
  | list (l : Listing)

namespace Listing

def separator : Listing → Char
  | .alternatives => '|'
  | .arguments => ','
  | .elements => ','

def item : Listing → Category
  | .alternatives => .operand
  | .arguments => .type
  | .elements => .element

end Listing

-- The tokens are read as the expressions: one but for a list, which has one for each item.
inductive Reads : Category → List Token → List Expression → Prop
  | name (word : String) (isType : isTypeWord word = true) :
      Reads .primary [.word word] [.name word]
  | generic (word : String) (ts : List Token) (es : List Expression)
      (isName : isIdentifier word = true) (arguments : Reads (.list .arguments) ts es) :
      Reads .primary (.word word :: .mark '<' :: (ts ++ [.mark '>'])) [.generic word es]
  -- Parentheses group and leave no trace.
  | parens (ts : List Token) (e : Expression) (type : Reads .type ts [e]) :
      Reads .primary (.mark '(' :: (ts ++ [.mark ')'])) [e]
  | emptyTuple : Reads .primary [.mark '[', .mark ']'] [.tuple []]
  | tuple (ts : List Token) (es : List Expression) (elements : Reads (.list .elements) ts es) :
      Reads .primary (.mark '[' :: (ts ++ [.mark ']'])) [.tuple es]
  | done (e : Expression) : Reads (.after e) [] [e]
  | array (e whole : Expression) (ts : List Token) (more : Reads (.after (.array e)) ts [whole]) :
      Reads (.after e) (.mark '[' :: .mark ']' :: ts) [whole]
  | member (e index whole : Expression) (ts ts' : List Token) (type : Reads .type ts [index])
      (more : Reads (.after (.member e index)) ts' [whole]) :
      Reads (.after e) (.mark '[' :: (ts ++ .mark ']' :: ts')) [whole]
  | operand (e whole : Expression) (ts ts' : List Token) (first : Reads .primary ts [e])
      (brackets : Reads (.after e) ts' [whole]) : Reads .operand (ts ++ ts') [whole]
  | type (ts : List Token) (es : List Expression) (list : Reads (.list .alternatives) ts es) :
      Reads .type ts [oneOf es]
  -- A bar may stand before the first alternative, and a comma after the last element.
  | barred (ts : List Token) (es : List Expression) (list : Reads (.list .alternatives) ts es) :
      Reads .type (.mark '|' :: ts) [oneOf es]
  | plain (ts : List Token) (e : Expression) (type : Reads .type ts [e]) : Reads .element ts [e]
  | spread (ts : List Token) (e : Expression) (type : Reads .type ts [e]) :
      Reads .element (.spread :: ts) [.spread e]
  | last (l : Listing) (ts : List Token) (e : Expression) (item : Reads l.item ts [e]) :
      Reads (.list l) ts [e]
  | more (l : Listing) (ts ts' : List Token) (e : Expression) (es : List Expression)
      (item : Reads l.item ts [e]) (others : Reads (.list l) ts' es) :
      Reads (.list l) (ts ++ .mark l.separator :: ts') (e :: es)
  | trailing (ts : List Token) (e : Expression) (item : Reads .element ts [e]) :
      Reads (.list .elements) (ts ++ [.mark ',']) [e]

def Parses (text : String) (e : Expression) : Prop := Reads .type (tokens text) [e]

end Grammar

section Reading

theorem alternatives_append {k : Category} (ts ts' : List Token) (es es' : List Expression)
    (reads : Reads k ts es) (alternatives : k = .list .alternatives)
    (reads' : Reads (.list .alternatives) ts' es') :
    Reads (.list .alternatives) (ts ++ .mark '|' :: ts') (es ++ es') := by
  induction reads with
  | last l ts e item =>
      cases alternatives
      exact .more .alternatives ts ts' e es' item reads'
  | more l us us' e es item _ _ ih =>
      cases alternatives
      rw [List.append_assoc]
      exact .more .alternatives us _ e _ item (ih rfl)
  | name | generic | parens | emptyTuple | tuple | done | array | member | operand | type | barred
  | plain | spread | trailing => cases alternatives

theorem single_operand (ts : List Token) (e : Expression)
    (reads : Reads (.list .alternatives) ts [e]) : Reads .operand ts [e] := by
  cases reads with
  | last _ _ _ item => exact item
  | more _ _ _ _ _ _ others => cases others

theorem brackets_array {k : Category} (ts : List Token) (es : List Expression)
    (e whole : Expression) (reads : Reads k ts es) (isAfter : k = .after e) (result : es = [whole]) :
    Reads (.after e) (ts ++ [.mark '[', .mark ']']) [.array whole] := by
  induction reads generalizing e with
  | done =>
      cases isAfter
      cases result
      exact .array _ _ [] (.done _)
  | array e _ ts _ ih =>
      cases isAfter
      cases result
      exact .array e _ _ (ih _ rfl rfl)
  | member e index _ ts ts' type _ _ ih =>
      cases isAfter
      cases result
      rw [List.cons_append, List.append_assoc]
      exact .member e index _ ts _ type (ih _ rfl rfl)
  | name | generic | parens | emptyTuple | tuple | operand | type | barred | plain | spread | last
  | more | trailing => cases isAfter

theorem primary_operand (ts : List Token) (e : Expression) (reads : Reads .primary ts [e]) :
    Reads .operand ts [e] := by
  rw [← List.append_nil ts]
  exact .operand e e ts [] reads (.done e)

theorem operand_array (ts : List Token) (e : Expression) (reads : Reads .operand ts [e]) :
    Reads .operand (ts ++ [.mark '[', .mark ']']) [.array e] := by
  cases reads with
  | operand first whole us us' primary brackets =>
      rw [List.append_assoc]
      exact .operand first _ us _ primary (brackets_array us' _ first e brackets rfl rfl)

end Reading

section Begin

def Category.takesBar : Category → Bool
  | .type | .element | .list .arguments | .list .elements => true
  | _ => false

def Category.takesSpread : Category → Bool
  | .element | .list .elements => true
  | _ => false

def Category.begins (k : Category) : Token → Bool
  | .word _ => true
  | .mark c => c == '(' || c == '[' || c == '|' && k.takesBar
  | .spread => k.takesSpread

def Begins (k : Category) (ts : List Token) : Prop := ∃ t ∈ ts.head?, k.begins t = true

def Category.isAfter : Category → Bool
  | .after _ => true
  | _ => false

theorem item_begins (l : Listing) (t : Token) : l.item.begins t = (Category.list l).begins t := by
  cases t <;> cases l <;> rfl

variable (k k' : Category) (ts rest : List Token)

theorem begins_wider (wider : ∀ t, k.begins t = true → k'.begins t = true) (begins : Begins k ts) :
    Begins k' ts := by
  obtain ⟨t, first, begins⟩ := begins
  exact ⟨t, first, wider t begins⟩

theorem begins_append (begins : Begins k ts) : Begins k (ts ++ rest) := by
  obtain ⟨t, first, begins⟩ := begins
  refine ⟨t, ?_, begins⟩
  rw [List.head?_append, Option.mem_def.mp first]
  rfl

theorem begins_list (l : Listing) (begins : Begins l.item ts) : Begins (.list l) ts :=
  begins_wider l.item _ ts (fun t begins => item_begins l t ▸ begins) begins

theorem begins_element (begins : Begins .type ts) : Begins .element ts := by
  refine begins_wider .type _ ts (fun t begins => ?_) begins
  cases t with
  | word | mark => exact begins
  | spread => cases begins

theorem begins_type (begins : Begins (.list .alternatives) ts) : Begins .type ts := by
  refine begins_wider (.list .alternatives) _ ts (fun t begins => ?_) begins
  cases t with
  | word => rfl
  | mark c =>
      simp only [Category.begins, Category.takesBar, Bool.and_false, Bool.or_false] at begins
      simp only [Category.begins, begins, Bool.true_or]
  | spread => cases begins

variable {k ts}

theorem reads_begins {es : List Expression} (reads : Reads k ts es) (whole : k.isAfter = false) :
    Begins k ts := by
  induction reads with
  | name word | generic word => exact ⟨.word word, rfl, rfl⟩
  | parens => exact ⟨.mark '(', rfl, rfl⟩
  | emptyTuple | tuple => exact ⟨.mark '[', rfl, rfl⟩
  | done | array | member => cases whole
  | operand _ _ ts ts' _ _ ih => exact begins_append .primary ts ts' (ih rfl)
  | type ts _ _ ih => exact begins_type ts (ih rfl)
  | barred => exact ⟨.mark '|', rfl, rfl⟩
  | plain ts _ _ ih => exact begins_element ts (ih rfl)
  | spread => exact ⟨.spread, rfl, rfl⟩
  | last l ts _ _ ih => exact begins_list ts l (ih (by cases l <;> rfl))
  | more l ts _ _ _ _ _ ih =>
      exact begins_append _ ts _ (begins_list ts l (ih (by cases l <;> rfl)))
  | trailing ts _ _ ih => exact begins_append _ ts _ (begins_list ts .elements (ih rfl))

theorem begins_other (t : Token) (other : k.begins t = false) (rest' : List Token)
    (begins : Begins k ts) : ts ++ rest ≠ t :: rest' := by
  intro same
  obtain ⟨t', first, begins⟩ := begins_append k ts rest begins
  rw [same] at first
  obtain rfl := Option.some.inj first
  exact ne_true_of_eq_false other begins

end Begin

section Unambiguous

-- The marks that can follow what is read as of the category.
def Category.followers : Category → List Char
  | .primary => ['[', '|', '>', ')', ']', ',']
  | .after _ | .operand => ['|', '>', ')', ']', ',']
  | .type | .element | .list .alternatives => ['>', ')', ']', ',']
  | .list .arguments => ['>']
  | .list .elements => [']']

def Ends (k : Category) (rest : List Token) : Prop :=
  ∀ t ∈ rest.head?, ∃ c ∈ k.followers, t = .mark c

-- No other beginning of the same tokens is read as of the category.
def Certain (k : Category) (ts : List Token) (es : List Expression) : Prop :=
  ∀ (ts' rest rest' : List Token) (es' : List Expression), Reads k ts' es' →
    ts ++ rest = ts' ++ rest' → Ends k rest → Ends k rest' → es = es' ∧ rest = rest'

section Ends

variable (k k' : Category) (ts rest : List Token) (c : Char)

theorem ends_mark (follower : c ∈ k.followers) : Ends k (.mark c :: rest) := by
  intro t first
  obtain rfl := Option.some.inj first
  exact ⟨c, follower, rfl⟩

theorem not_ends_mark (other : c ∉ k.followers) : ¬ Ends k (.mark c :: rest) := by
  intro ends
  obtain ⟨c', follower, same⟩ := ends (.mark c) rfl
  obtain rfl := Token.mark.inj same
  exact other follower

theorem ends_wider (wider : ∀ c ∈ k.followers, c ∈ k'.followers) (ends : Ends k rest) :
    Ends k' rest := by
  intro t first
  obtain ⟨c, follower, isMark⟩ := ends t first
  exact ⟨c, wider c follower, isMark⟩

theorem not_ends_begins (begins : Begins (.list .elements) ts) :
    ¬ Ends (.list .elements) (ts ++ rest) := by
  obtain ⟨t, first, begins⟩ := begins
  intro ends
  obtain ⟨c, follower, rfl⟩ := ends t (by rw [List.head?_append, Option.mem_def.mp first]; rfl)
  obtain rfl := List.mem_singleton.mp follower
  cases begins

theorem separator_follows (l : Listing) : l.separator ∈ l.item.followers := by
  cases l <;> decide

theorem separator_ends_not (l : Listing) : l.separator ∉ (Category.list l).followers := by
  cases l <;> decide

theorem list_followers (l : Listing) : ∀ c ∈ (Category.list l).followers, c ∈ l.item.followers := by
  cases l <;> simp [Category.followers, Listing.item]

theorem bracket_continues (e : Expression) : '[' ∉ (Category.after e).followers := by
  simp [Category.followers]

theorem brackets_end (e : Expression) (es : List Expression) (brackets : Reads (.after e) ts es)
    (ends : Ends .operand rest) : Ends .primary (ts ++ rest) := by
  cases brackets with
  | done => exact ends_wider .operand _ rest (by simp [Category.followers]) ends
  | array | member => exact ends_mark .primary _ '[' (by decide)

theorem certain_closed (es es' : List Expression) (ts' rest' : List Token)
    (certain : Certain k ts es) (reads : Reads k ts' es') (closes : c ∈ k.followers)
    (same : ts ++ .mark c :: rest = ts' ++ .mark c :: rest') : es = es' ∧ rest = rest' := by
  obtain ⟨alike, sameRest⟩ :=
    certain ts' _ _ es' reads same (ends_mark k rest c closes) (ends_mark k rest' c closes)
  exact ⟨alike, (List.cons.inj sameRest).2⟩

end Ends

section Rules

theorem certain_name (word : String) : Certain .primary [.word word] [.name word] := by
  intro ts' rest rest' es' reads same ends ends'
  cases reads with
  | name word' =>
      obtain ⟨isWord, sameRest⟩ := List.cons.inj same
      obtain rfl := Token.word.inj isWord
      exact ⟨rfl, sameRest⟩
  | generic word' ts es =>
      obtain ⟨_, rfl⟩ := List.cons.inj same
      exact absurd ends (not_ends_mark .primary _ '<' (by decide))
  | parens | emptyTuple | tuple => cases (List.cons.inj same).1

variable (ts : List Token) (es : List Expression)

theorem certain_generic (word : String) (certain : Certain (.list .arguments) ts es) :
    Certain .primary (.word word :: .mark '<' :: (ts ++ [.mark '>'])) [.generic word es] := by
  intro ts' rest rest' es' reads same ends ends'
  cases reads with
  | name word' =>
      obtain ⟨_, rfl⟩ := List.cons.inj same
      exact absurd ends' (not_ends_mark .primary _ '<' (by decide))
  | generic word' ts' es' isName arguments =>
      simp only [List.cons_append, List.append_assoc, List.cons.injEq, Token.word.injEq,
        List.nil_append, true_and] at same
      obtain ⟨rfl, same⟩ := same
      obtain ⟨rfl, sameRest⟩ := certain_closed _ ts rest '>' es es' ts' rest' certain arguments
        (by decide) same
      exact ⟨rfl, sameRest⟩
  | parens | emptyTuple | tuple => cases (List.cons.inj same).1

theorem certain_parens (e : Expression) (certain : Certain .type ts [e]) :
    Certain .primary (.mark '(' :: (ts ++ [.mark ')'])) [e] := by
  intro ts' rest rest' es' reads same ends ends'
  cases reads with
  | parens ts' e' type =>
      simp only [List.cons_append, List.append_assoc, List.cons.injEq, List.nil_append,
        true_and] at same
      exact certain_closed _ ts rest ')' [e] [e'] ts' rest' certain type (by decide) same
  | name | generic | emptyTuple | tuple => cases (List.cons.inj same).1

theorem certain_empty_tuple : Certain .primary [.mark '[', .mark ']'] [.tuple []] := by
  intro ts' rest rest' es' reads same ends ends'
  cases reads with
  | emptyTuple => exact ⟨rfl, (List.cons.inj (List.cons.inj same).2).2⟩
  | tuple ts' es' elements =>
      have begins := begins_append _ ts' [.mark ']'] (reads_begins elements rfl)
      exact absurd (List.cons.inj same).2.symm (begins_other _ (.mark ']') rfl _ begins)
  | name | generic | parens => cases (List.cons.inj same).1

theorem certain_tuple (elements : Reads (.list .elements) ts es)
    (certain : Certain (.list .elements) ts es) :
    Certain .primary (.mark '[' :: (ts ++ [.mark ']'])) [.tuple es] := by
  intro ts' rest rest' es' reads same ends ends'
  cases reads with
  | emptyTuple =>
      have begins := begins_append _ ts [.mark ']'] (reads_begins elements rfl)
      exact absurd (List.cons.inj same).2 (begins_other _ (.mark ']') rfl _ begins)
  | tuple ts' es' elements' =>
      simp only [List.cons_append, List.append_assoc, List.cons.injEq, List.nil_append,
        true_and] at same
      obtain ⟨rfl, sameRest⟩ :=
        certain_closed _ ts rest ']' es es' ts' rest' certain elements' (by decide) same
      exact ⟨rfl, sameRest⟩
  | name | generic | parens => cases (List.cons.inj same).1

theorem certain_done (e : Expression) : Certain (.after e) [] [e] := by
  intro ts' rest rest' es' reads same ends ends'
  cases reads with
  | done => exact ⟨rfl, same⟩
  | array | member =>
      obtain rfl := same
      exact absurd ends (not_ends_mark _ _ '[' (bracket_continues e))

theorem certain_array (e whole : Expression) (certain : Certain (.after (.array e)) ts [whole]) :
    Certain (.after e) (.mark '[' :: .mark ']' :: ts) [whole] := by
  intro ts' rest rest' es' reads same ends ends'
  cases reads with
  | done =>
      obtain rfl := same
      exact absurd ends' (not_ends_mark _ _ '[' (bracket_continues e))
  | array _ whole' ts' more =>
      exact certain ts' rest rest' _ more (List.cons.inj (List.cons.inj same).2).2 ends ends'
  | member _ index whole' ts' ts'' type more =>
      have begins := begins_append _ ts' (.mark ']' :: ts'') (reads_begins type rfl)
      exact absurd (List.cons.inj same).2.symm (begins_other _ (.mark ']') rfl _ begins)

theorem certain_member (e index whole : Expression) (ts' : List Token)
    (type : Reads .type ts [index]) (certain : Certain .type ts [index])
    (certain' : Certain (.after (.member e index)) ts' [whole]) :
    Certain (.after e) (.mark '[' :: (ts ++ .mark ']' :: ts')) [whole] := by
  intro us rest rest' es' reads same ends ends'
  cases reads with
  | done =>
      obtain rfl := same
      exact absurd ends' (not_ends_mark _ _ '[' (bracket_continues e))
  | array _ whole' us more =>
      have begins := begins_append _ ts (.mark ']' :: ts') (reads_begins type rfl)
      exact absurd (List.cons.inj same).2 (begins_other _ (.mark ']') rfl _ begins)
  | member _ index' whole' us us' type' more =>
      simp only [List.cons_append, List.append_assoc, List.cons.injEq, true_and] at same
      obtain ⟨alike, sameRest⟩ :=
        certain_closed _ ts _ ']' [index] [index'] us _ certain type' (by decide) same
      obtain rfl := (List.cons.inj alike).1
      exact certain' us' rest rest' _ more sameRest ends ends'

theorem certain_operand (e whole : Expression) (ts' : List Token)
    (brackets : Reads (.after e) ts' [whole]) (certain : Certain .primary ts [e])
    (certain' : Certain (.after e) ts' [whole]) : Certain .operand (ts ++ ts') [whole] := by
  intro us rest rest' es' reads same ends ends'
  cases reads with
  | operand e' whole' us us' first brackets' =>
      rw [List.append_assoc, List.append_assoc] at same
      obtain ⟨alike, sameRest⟩ := certain us (ts' ++ rest) (us' ++ rest') [e'] first same
        (brackets_end ts' rest e _ brackets ends) (brackets_end us' rest' e' _ brackets' ends')
      obtain rfl := (List.cons.inj alike).1
      exact certain' us' rest rest' _ brackets' sameRest ends ends'

theorem certain_type (list : Reads (.list .alternatives) ts es)
    (certain : Certain (.list .alternatives) ts es) : Certain .type ts [oneOf es] := by
  intro ts' rest rest' es' reads same ends ends'
  cases reads with
  | type ts' es' list' =>
      obtain ⟨rfl, sameRest⟩ := certain ts' rest rest' es' list' same ends ends'
      exact ⟨rfl, sameRest⟩
  | barred ts' es' list' =>
      exact absurd same (begins_other _ (.mark '|') rfl _ (reads_begins list rfl))

theorem certain_barred (certain : Certain (.list .alternatives) ts es) :
    Certain .type (.mark '|' :: ts) [oneOf es] := by
  intro ts' rest rest' es' reads same ends ends'
  cases reads with
  | type ts' es' list' =>
      exact absurd same.symm (begins_other _ (.mark '|') rfl _ (reads_begins list' rfl))
  | barred ts' es' list' =>
      obtain ⟨rfl, sameRest⟩ :=
        certain ts' rest rest' es' list' (List.cons.inj same).2 ends ends'
      exact ⟨rfl, sameRest⟩

theorem certain_plain (e : Expression) (type : Reads .type ts [e])
    (certain : Certain .type ts [e]) : Certain .element ts [e] := by
  intro ts' rest rest' es' reads same ends ends'
  cases reads with
  | plain ts' e' type' => exact certain ts' rest rest' _ type' same ends ends'
  | spread ts' e' type' =>
      exact absurd same (begins_other _ .spread rfl _ (reads_begins type rfl))

theorem certain_spread (e : Expression) (certain : Certain .type ts [e]) :
    Certain .element (.spread :: ts) [.spread e] := by
  intro ts' rest rest' es' reads same ends ends'
  cases reads with
  | plain ts' e' type' =>
      exact absurd same.symm (begins_other _ .spread rfl _ (reads_begins type' rfl))
  | spread ts' e' type' =>
      obtain ⟨alike, sameRest⟩ :=
        certain ts' rest rest' [e'] type' (List.cons.inj same).2 ends ends'
      obtain rfl := (List.cons.inj alike).1
      exact ⟨rfl, sameRest⟩

section Items

variable (l : Listing) (e e' : Expression) (us rest tail : List Token)
  (certain : Certain l.item ts [e]) (item : Reads l.item us [e']) (ends : Ends (.list l) rest)

include certain item ends

theorem last_not_separated : ts ++ rest ≠ us ++ .mark l.separator :: tail := by
  intro same
  obtain ⟨_, rfl⟩ := certain us rest _ _ item same (ends_wider _ _ rest (list_followers l) ends)
    (ends_mark _ _ l.separator (separator_follows l))
  exact not_ends_mark _ _ l.separator (separator_ends_not l) ends

theorem separated_not_last : ts ++ .mark l.separator :: tail ≠ us ++ rest := by
  intro same
  obtain ⟨_, rfl⟩ := certain us _ rest _ item same
    (ends_mark _ _ l.separator (separator_follows l)) (ends_wider _ _ rest (list_followers l) ends)
  exact not_ends_mark _ _ l.separator (separator_ends_not l) ends

end Items

theorem certain_last (l : Listing) (e : Expression) (certain : Certain l.item ts [e]) :
    Certain (.list l) ts [e] := by
  intro us rest rest' es' reads same ends ends'
  cases reads with
  | last _ us e' item =>
      exact certain us rest rest' _ item same (ends_wider _ _ rest (list_followers l) ends)
        (ends_wider _ _ rest' (list_followers l) ends')
  | more _ us us' e' es' item others =>
      rw [List.append_assoc] at same
      exact absurd same (last_not_separated ts l e e' us rest _ certain item ends)
  | trailing us e' item =>
      rw [List.append_assoc] at same
      exact absurd same (last_not_separated ts .elements e e' us rest _ certain item ends)

theorem certain_more (l : Listing) (ts' : List Token) (e : Expression)
    (others : Reads (.list l) ts' es) (certain : Certain l.item ts [e])
    (certain' : Certain (.list l) ts' es) :
    Certain (.list l) (ts ++ .mark l.separator :: ts') (e :: es) := by
  intro us rest rest' es' reads same ends ends'
  rw [List.append_assoc] at same
  cases reads with
  | last _ us e' item =>
      exact absurd same (separated_not_last ts l e e' us rest' _ certain item ends')
  | more _ us us' e' es' item others' =>
      rw [List.append_assoc] at same
      obtain ⟨alike, sameRest⟩ :=
        certain_closed _ ts _ l.separator [e] [e'] us _ certain item (separator_follows l) same
      obtain rfl := (List.cons.inj alike).1
      obtain ⟨rfl, sameRest⟩ := certain' us' rest rest' es' others' sameRest ends ends'
      exact ⟨rfl, sameRest⟩
  | trailing us e' item =>
      rw [List.append_assoc] at same
      obtain ⟨_, sameRest⟩ :=
        certain_closed _ ts _ ',' [e] [e'] us rest' certain item (separator_follows .elements) same
      subst sameRest
      exact absurd ends' (not_ends_begins ts' rest (reads_begins others rfl))

theorem certain_trailing (e : Expression) (certain : Certain .element ts [e]) :
    Certain (.list .elements) (ts ++ [.mark ',']) [e] := by
  intro us rest rest' es' reads same ends ends'
  rw [List.append_assoc] at same
  cases reads with
  | last _ us e' item =>
      exact absurd same (separated_not_last ts .elements e e' us rest' _ certain item ends')
  | more _ us us' e' es' item others =>
      rw [List.append_assoc] at same
      obtain ⟨_, sameRest⟩ :=
        certain_closed _ ts rest ',' [e] [e'] us _ certain item (separator_follows .elements) same
      subst sameRest
      exact absurd ends (not_ends_begins us' rest' (reads_begins others rfl))
  | trailing us e' item =>
      rw [List.append_assoc] at same
      exact certain_closed _ ts rest ',' [e] [e'] us rest' certain item
        (separator_follows .elements) same

end Rules

theorem reads_certain (k : Category) (ts : List Token) (es : List Expression)
    (reads : Reads k ts es) : Certain k ts es := by
  induction reads with
  | name word => exact certain_name word
  | generic word ts es _ _ ih => exact certain_generic ts es word ih
  | parens ts e _ ih => exact certain_parens ts e ih
  | emptyTuple => exact certain_empty_tuple
  | tuple ts es elements ih => exact certain_tuple ts es elements ih
  | done e => exact certain_done e
  | array e whole ts _ ih => exact certain_array ts e whole ih
  | member e index whole ts ts' type _ ih ih' =>
      exact certain_member ts e index whole ts' type ih ih'
  | operand e whole ts ts' _ brackets ih ih' =>
      exact certain_operand ts e whole ts' brackets ih ih'
  | type ts es list ih => exact certain_type ts es list ih
  | barred ts es _ ih => exact certain_barred ts es ih
  | plain ts e type ih => exact certain_plain ts e type ih
  | spread ts e _ ih => exact certain_spread ts e ih
  | last l ts e _ ih => exact certain_last ts l e ih
  | more l ts ts' e es _ others ih ih' => exact certain_more ts es l ts' e others ih ih'
  | trailing ts e _ ih => exact certain_trailing ts e ih

theorem parses_unique (text : String) (e e' : Expression) (parses : Parses text e)
    (parses' : Parses text e') : e = e' := by
  have noneLeft : Ends .type [] := fun t first => by cases first
  obtain ⟨alike, _⟩ := reads_certain _ _ _ parses _ [] [] _ parses' rfl noneLeft noneLeft
  exact (List.cons.inj alike).1

end Unambiguous

end OpenApi.TypeScript
