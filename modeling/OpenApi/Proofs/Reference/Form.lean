import Mathlib.Data.List.TakeWhile
import OpenApi.Proofs.Reference

set_option autoImplicit false

namespace OpenApi

namespace Naming

variable (separator : Char) (s : List Char)

theorem split_at_some : ∃ piece pieces, splitAt separator s = piece :: pieces := by
  cases s with
  | nil => exact ⟨[], [], rfl⟩
  | cons c rest =>
      rw [splitAt]
      split
      · exact ⟨_, _, rfl⟩
      · split <;> exact ⟨_, _, rfl⟩

theorem split_at_other (c : Char) (other : c ≠ separator) (piece : List Char)
    (pieces : List (List Char)) (split : splitAt separator s = piece :: pieces) :
    splitAt separator (c :: s) = (c :: piece) :: pieces := by
  rw [splitAt, if_neg other, split]

theorem split_at_absent : ∀ piece ∈ splitAt separator s, separator ∉ piece := by
  induction s with
  | nil => exact List.forall_mem_singleton.mpr List.not_mem_nil
  | cons c rest ih =>
      by_cases same : c = separator
      · rw [splitAt, if_pos same]
        exact List.forall_mem_cons.mpr ⟨List.not_mem_nil, ih⟩
      · obtain ⟨piece, pieces, split⟩ := split_at_some separator rest
        rw [split] at ih
        obtain ⟨first, others⟩ := List.forall_mem_cons.mp ih
        rw [split_at_other separator rest c same piece pieces split]
        refine List.forall_mem_cons.mpr ⟨fun member => ?_, others⟩
        exact (List.mem_cons.mp member).elim (Ne.symm same) first

theorem split_at_joined : [separator].intercalate (splitAt separator s) = s := by
  induction s with
  | nil => rfl
  | cons c rest ih =>
      obtain ⟨piece, pieces, split⟩ := split_at_some separator rest
      rw [split] at ih
      by_cases same : c = separator
      · rw [splitAt, if_pos same, split, same]
        rw [List.intercalate_cons_cons, ih]
        rfl
      · rw [split_at_other separator rest c same piece pieces split, ← ih]
        cases pieces <;> simp [List.intercalate_cons_cons]

end Naming

namespace Reference

section Marks

variable (mark : Char) (s : List Char)

theorem marks_split : ∃ count, s = List.replicate count mark ++ s.dropWhile (· == mark) := by
  refine ⟨(s.takeWhile (· == mark)).length, ?_⟩
  have marks : s.takeWhile (· == mark) = List.replicate (s.takeWhile (· == mark)).length mark :=
    List.eq_replicate_iff.mpr ⟨rfl, fun c member => by simpa using List.mem_takeWhile_imp member⟩
  rw [← marks, List.takeWhile_append_dropWhile]

variable (count : Nat) (other : s.head? ≠ some mark)

include other

theorem marks_dropped : (List.replicate count mark ++ s).dropWhile (· == mark) = s := by
  rw [List.dropWhile_append_of_pos fun c member => beq_iff_eq.mpr (List.eq_of_mem_replicate member)]
  cases s with
  | nil => rfl
  | cons c rest => exact List.dropWhile_cons_of_neg (by simpa using other)

theorem marks_taken : (List.replicate count mark ++ s).takeWhile (· == mark)
    = List.replicate count mark := by
  rw [List.takeWhile_append_of_pos fun c member => beq_iff_eq.mpr (List.eq_of_mem_replicate member)]
  cases s with
  | nil => exact List.append_nil _
  | cons c rest => rw [List.takeWhile_cons_of_neg (by simpa using other), List.append_nil]

end Marks

def pointer (hashes slashes : Nat) (wanted : Section) (segment : List Char) : List Char :=
  List.replicate hashes '#' ++ (List.replicate slashes '/'
    ++ ("components".toList ++ '/' :: (wanted.key.toList ++ '/' :: segment)))

structure Encodes (segment : List Char) (name : String) : Prop where
  single : '/' ∉ segment
  decoded : decodeSegment segment = name
  some : name ≠ ""

def Names (hashes slashes : Nat) (wanted : Section) (reference name : String) : Prop :=
  ∃ segment, Encodes segment name ∧ reference.toList = pointer hashes slashes wanted segment

section Pointer

variable (hashes slashes : Nat) (wanted : Section)

theorem slashes_no_hash (s : List Char) (other : s.head? ≠ some '#') :
    (List.replicate slashes '/' ++ s).head? ≠ some '#' := by
  cases slashes with
  | zero => exact other
  | succ n => simp [List.replicate_succ]

theorem pointer_marks (segment : List Char) :
    let text := pointer hashes slashes wanted segment
    text.takeWhile (· == '#') = List.replicate hashes '#'
      ∧ (text.dropWhile (· == '#')).takeWhile (· == '/') = List.replicate slashes '/'
      ∧ (text.dropWhile (· == '#')).dropWhile (· == '/')
        = "components".toList ++ '/' :: (wanted.key.toList ++ '/' :: segment) := by
  intro text
  have noHash := slashes_no_hash slashes
    ("components".toList ++ '/' :: (wanted.key.toList ++ '/' :: segment)) (by simp)
  refine ⟨marks_taken '#' _ _ noHash, ?_⟩
  have dropped : text.dropWhile (· == '#') = _ := marks_dropped '#' _ hashes noHash
  rw [dropped]
  exact ⟨marks_taken '/' _ _ (by simp), marks_dropped '/' _ _ (by simp)⟩

theorem names_segments (reference name : String)
    (names : Names hashes slashes wanted reference name) : ∃ segment, Encodes segment name
      ∧ pointerSegments reference = ["components".toList, wanted.key.toList, segment] := by
  obtain ⟨segment, encodes, text⟩ := names
  have noSlash : '/' ∉ wanted.key.toList := by cases wanted <;> decide
  obtain ⟨_, _, dropped⟩ := pointer_marks hashes slashes wanted segment
  refine ⟨segment, encodes, ?_⟩
  rw [pointerSegments, text, dropped, Naming.split_at_append _ _ _ (by decide),
    Naming.split_at_append _ _ _ noSlash, Naming.split_at_last _ _ encodes.single]

theorem segments_names (reference : String) (segment : List Char)
    (segments : pointerSegments reference = ["components".toList, wanted.key.toList, segment]) :
    '/' ∉ segment ∧ ∃ hashes slashes, reference.toList = pointer hashes slashes wanted segment := by
  obtain ⟨hashes, first⟩ := marks_split '#' reference.toList
  obtain ⟨slashes, second⟩ := marks_split '/' (reference.toList.dropWhile (· == '#'))
  have absent : ∀ piece ∈ pointerSegments reference, '/' ∉ piece := Naming.split_at_absent '/' _
  have joined : ['/'].intercalate (pointerSegments reference) = _ := Naming.split_at_joined '/' _
  rw [segments] at absent joined
  refine ⟨absent segment (by simp), hashes, slashes, ?_⟩
  rw [first, second, ← joined]
  simp [pointer, List.intercalate_cons_cons]

end Pointer

theorem external_iff (reference : String) :
    isExternal reference = true ↔ ∃ c rest, reference.toList = c :: rest ∧ c ≠ '#' := by
  rw [isExternal]
  cases reference.toList <;> simp

theorem component_name_iff (wanted : Section) (reference name : String) :
    componentName? wanted reference = some name
      ↔ ∃ hashes slashes, 0 < hashes ∧ Names hashes slashes wanted reference name := by
  constructor
  · intro found
    rw [componentName?] at found
    split at found
    · cases found
    · rename_i isLocal
      split at found
      · rename_i root group segment segments
        obtain ⟨same, found⟩ := Option.ite_none_right_eq_some.mp found
        obtain ⟨present, decoded⟩ := Option.ite_none_left_eq_some.mp found
        rw [same.1, same.2] at segments
        obtain ⟨single, hashes, slashes, text⟩ := segments_names wanted reference segment segments
        obtain rfl : decodeSegment segment = name := Option.some.inj decoded
        refine ⟨hashes, slashes, Nat.pos_of_ne_zero fun none => isLocal ?_, segment,
          ⟨single, rfl, ?_⟩, text⟩
        · rw [external_iff, text, none]
          cases slashes with
          | zero => exact ⟨'c', _, rfl, by decide⟩
          | succ n => exact ⟨'/', _, rfl, by decide⟩
        · simpa [String.isEmpty_iff] using present
      · cases found
  · rintro ⟨hashes, slashes, positive, names⟩
    obtain ⟨segment, encodes, segments⟩ := names_segments hashes slashes wanted reference name names
    have isLocal : isExternal reference = false := by
      obtain ⟨_, _, text⟩ := names
      obtain ⟨n, rfl⟩ := Nat.exists_eq_succ_of_ne_zero positive.ne'
      rw [isExternal, text]
      rfl
    rw [componentName?, isLocal, segments]
    simp [encodes.decoded, encodes.some]

theorem names_marks (hashes slashes hashes' slashes' : Nat) (wanted : Section)
    (reference name name' : String) (names : Names hashes slashes wanted reference name)
    (names' : Names hashes' slashes' wanted reference name') :
    hashes = hashes' ∧ slashes = slashes' := by
  obtain ⟨segment, _, text⟩ := names
  obtain ⟨segment', _, text'⟩ := names'
  obtain ⟨first, second, _⟩ := pointer_marks hashes slashes wanted segment
  obtain ⟨first', second', _⟩ := pointer_marks hashes' slashes' wanted segment'
  rw [← text] at first second
  rw [← text', first] at first'
  rw [← text', second] at second'
  exact ⟨by simpa using congrArg List.length first', by simpa using congrArg List.length second'⟩

/-- A reference is accepted exactly if it has the documented form up to the number of marks in front
of the name of the section, of which a hash must be one. So what is accepted is what is documented,
unless the marks in front are others than one hash and one slash. -/
theorem accepted_references (wanted : Section) (reference : String) :
    (∀ name, componentName? wanted reference = some name
        ↔ ∃ hashes slashes, 0 < hashes ∧ Names hashes slashes wanted reference name)
      ∧ (((componentName? wanted reference).isSome ↔ ∃ name, Names 1 1 wanted reference name)
        ↔ ∀ hashes slashes name, 0 < hashes → Names hashes slashes wanted reference name →
            hashes = 1 ∧ slashes = 1) := by
  refine ⟨component_name_iff wanted reference, fun documented => ?_, fun usual => ?_⟩
  · intro hashes slashes name positive names
    have accepted := (component_name_iff wanted reference name).mpr
      ⟨hashes, slashes, positive, names⟩
    obtain ⟨_, names'⟩ := documented.mp (accepted ▸ rfl)
    exact names_marks hashes slashes 1 1 wanted reference _ _ names names'
  · rw [Option.isSome_iff_exists]
    refine exists_congr fun name => ?_
    rw [component_name_iff]
    constructor
    · rintro ⟨hashes, slashes, positive, names⟩
      obtain ⟨rfl, rfl⟩ := usual hashes slashes name positive names
      exact names
    · exact fun names => ⟨1, 1, Nat.one_pos, names⟩

-- A slash too few, and marks too many.
theorem misplaced_marks_accepted :
    componentName? .schemas "#components/schemas/Pet" = some "Pet"
      ∧ componentName? .schemas "##//components/schemas/Pet" = some "Pet"
      ∧ ¬ (∃ name, Names 1 1 .schemas "#components/schemas/Pet" name)
      ∧ ¬ ∃ name, Names 1 1 .schemas "##//components/schemas/Pet" name := by
  refine ⟨by decide, by decide, ?_, ?_⟩
  · rintro ⟨name, segment, _, text⟩
    cases (List.cons.inj (List.cons.inj text).2).1
  · rintro ⟨name, segment, _, text⟩
    cases (List.cons.inj (List.cons.inj text).2).1

end Reference

end OpenApi
