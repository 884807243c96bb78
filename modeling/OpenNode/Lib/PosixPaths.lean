import Mathlib

namespace PosixPaths

open List

/-- What stands before the first name: nothing, one slash or exactly two. -/
inductive Anchor where
  | relative
  | single
  | double
deriving DecidableEq, Repr

def Anchor.chars : Anchor → List Char
  | .relative => []
  | .single => ['/']
  | .double => ['/', '/']

/-- A name that stays when a path is parsed. -/
def IsName (part : List Char) : Prop := part ≠ [] ∧ part ≠ ['.'] ∧ '/' ∉ part

/-- The name of the directory above. -/
def parent : List Char := ['.', '.']

@[ext]
structure Path where
  anchor : Anchor
  parts : List (List Char)
  names : ∀ part ∈ parts, IsName part
deriving DecidableEq

theorem not_mem_splitOn {α : Type*} [DecidableEq α] {x : α} {text part : List α} (member : part ∈ text.splitOn x) :
    x ∉ part := by
  induction text generalizing part with
  | nil =>
    obtain rfl := List.mem_singleton.mp member
    exact not_mem_nil
  | cons c text ih =>
    rw [splitOn_cons_eq_if_modifyHead] at member
    split at member
    · rcases List.mem_cons.mp member with rfl | later
      · exact not_mem_nil
      · exact ih later
    · rename_i differs
      cases pieces : text.splitOn x with
      | nil => exact absurd pieces (splitOn_ne_nil x text)
      | cons first rest =>
        rw [pieces, modifyHead_cons] at member
        rcases List.mem_cons.mp member with rfl | later
        · intro inside
          rcases List.mem_cons.mp inside with same | inside
          · exact differs (beq_iff_eq.mpr same.symm)
          · exact ih (pieces ▸ mem_cons_self) inside
        · exact ih (pieces ▸ mem_cons_of_mem _ later)

namespace Path

def anchorOf : List Char → Anchor
  | '/' :: '/' :: '/' :: _ => .single
  | '/' :: '/' :: _ => .double
  | '/' :: _ => .single
  | _ => .relative

def namesOf (text : List Char) : List (List Char) :=
  (text.splitOn '/').filter fun part => part ≠ [] ∧ part ≠ ['.']

/-- `PurePosixPath(text)`. -/
def parse (text : String) : Path where
  anchor := anchorOf text.toList
  parts := namesOf text.toList
  names part member := by
    obtain ⟨piece, kept⟩ := List.mem_filter.mp member
    obtain ⟨nonempty, plain⟩ := of_decide_eq_true kept
    exact ⟨nonempty, plain, not_mem_splitOn piece⟩

def chars (p : Path) : List Char :=
  if p.anchor = .relative ∧ p.parts = [] then ['.'] else p.anchor.chars ++ ['/'].intercalate p.parts

/-- `str(path)`. -/
def str (p : Path) : String := String.ofList p.chars

/-- `path / other`. -/
def join (p other : Path) : Path :=
  if other.anchor = .relative then
    { anchor := p.anchor
      parts := p.parts ++ other.parts
      names := fun part member => (List.mem_append.mp member).elim (p.names part) (other.names part) }
  else other

/-- `path.is_relative_to(root)`. -/
def isRelativeTo (root p : Path) : Prop := p.anchor = root.anchor ∧ root.parts <+: p.parts

instance (root p : Path) : Decidable (isRelativeTo root p) :=
  inferInstanceAs (Decidable (p.anchor = root.anchor ∧ root.parts <+: p.parts))

/-- `path.name`. -/
def name (p : Path) : List Char := p.parts.getLastD []

/-- `path.suffix`: the last dot with what follows, unless it is the first or the last character. -/
def suffix (p : Path) : List Char :=
  let tail := p.name.reverse.takeWhile (· ≠ '.')
  if tail = [] ∨ p.name.length ≤ tail.length + 1 then [] else '.' :: tail.reverse

def take (k : Nat) (p : Path) : Path where
  anchor := p.anchor
  parts := p.parts.take k
  names part member := p.names part (mem_of_mem_take member)

/-- `path.parent`. -/
def above (p : Path) : Path := p.take (p.parts.length - 1)

/-- `path` and `path.parents`. -/
def upward (p : Path) : List Path := (List.range (p.parts.length + 1)).map fun k => p.take k

/-- A path that stays under a directory when every name is followed. -/
def Inside (root p : Path) : Prop := isRelativeTo root p ∧ parent ∉ p.parts

variable {parts : List (List Char)}

theorem namesOf_intercalate (names : ∀ part ∈ parts, IsName part) : namesOf (['/'].intercalate parts) = parts := by
  rw [namesOf]
  cases parts with
  | nil => rfl
  | cons part rest =>
    rw [splitOn_intercalate '/' (fun other member => (names other member).2.2) (cons_ne_nil part rest),
      filter_eq_self]
    exact fun other member => decide_eq_true ⟨(names other member).1, (names other member).2.1⟩

theorem namesOf_slash (text : List Char) : namesOf ('/' :: text) = namesOf text := by
  rw [namesOf, splitOn_cons_eq_if_modifyHead, if_pos (beq_self_eq_true _)]
  exact filter_cons_of_neg (by simp)

theorem intercalate_cases (names : ∀ part ∈ parts, IsName part) :
    parts = [] ∧ ['/'].intercalate parts = [] ∨ ∃ c rest, c ≠ '/' ∧ ['/'].intercalate parts = c :: rest := by
  cases parts with
  | nil => exact .inl ⟨rfl, rfl⟩
  | cons part parts =>
    obtain ⟨nonempty, -, plain⟩ := names part mem_cons_self
    cases part with
    | nil => exact absurd rfl nonempty
    | cons c part =>
      refine .inr ⟨c, ?_⟩
      have differs : c ≠ '/' := fun same => plain (same ▸ mem_cons_self)
      cases parts with
      | nil => exact ⟨part, differs, intercalate_singleton⟩
      | cons next parts => exact ⟨_, differs, intercalate_cons_cons⟩

theorem anchorOf_cons {c : Char} (plain : c ≠ '/') (rest : List Char) (anchor : Anchor) :
    anchorOf (anchor.chars ++ c :: rest) = anchor := by
  cases anchor <;> simp [Anchor.chars, anchorOf, plain]

theorem parts_chars (p : Path) : namesOf p.chars = p.parts := by
  unfold chars
  split
  · rename_i bare
    rw [bare.2]
    rfl
  · cases p.anchor with
    | relative => exact namesOf_intercalate p.names
    | single => exact (namesOf_slash _).trans (namesOf_intercalate p.names)
    | double => exact (namesOf_slash _).trans ((namesOf_slash _).trans (namesOf_intercalate p.names))

theorem anchor_chars (p : Path) : anchorOf p.chars = p.anchor := by
  unfold chars
  split
  · rename_i bare
    rw [bare.1]
    rfl
  · rename_i named
    rcases intercalate_cases p.names with ⟨empty, text⟩ | ⟨c, rest, plain, text⟩
    · rw [text, append_nil]
      cases anchor : p.anchor with
      | relative => exact absurd ⟨anchor, empty⟩ named
      | single => rfl
      | double => rfl
    · rw [text, anchorOf_cons plain]

theorem parse_str (p : Path) : parse p.str = p := by
  have text : p.str.toList = p.chars := String.toList_ofList
  have anchor : anchorOf p.str.toList = p.anchor := text ▸ anchor_chars p
  have parts : namesOf p.str.toList = p.parts := text ▸ parts_chars p
  obtain ⟨anchor', parts', names⟩ := p
  simp only [parse, anchor, parts]

theorem isRelativeTo_self (p : Path) : isRelativeTo p p := ⟨rfl, prefix_refl _⟩

theorem parts_join {p q : Path} (relative : q.anchor = .relative) : (p.join q).parts = p.parts ++ q.parts := by
  rw [join, if_pos relative]

theorem anchor_join {p q : Path} (relative : q.anchor = .relative) : (p.join q).anchor = p.anchor := by
  rw [join, if_pos relative]

theorem upward_join {p q item : Path} (relative : q.anchor = .relative) (above : item ∈ p.upward) :
    item ∈ (p.join q).upward := by
  obtain ⟨k, bound, rfl⟩ := List.mem_map.mp above
  rw [mem_range] at bound
  refine List.mem_map.mpr ⟨k, ?_, ?_⟩
  · rw [mem_range, parts_join relative, length_append]
    omega
  · refine Path.ext (anchor_join relative) ?_
    exact (congrArg (List.take k) (parts_join relative)).trans (take_append_of_le_length (by omega))

theorem parse_name {text : String} (plain : IsName text.toList) :
    (parse text).anchor = .relative ∧ (parse text).parts = [text.toList] := by
  obtain ⟨nonempty, dot, slash⟩ := plain
  refine ⟨?_, ?_⟩
  · change anchorOf text.toList = .relative
    unfold anchorOf
    split <;> simp_all
  · change namesOf text.toList = [text.toList]
    rw [namesOf, splitOn_eq_singleton slash]
    exact filter_cons_of_pos (decide_eq_true ⟨nonempty, dot⟩)

end Path

end PosixPaths
