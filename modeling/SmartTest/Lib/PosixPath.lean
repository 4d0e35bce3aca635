import Mathlib.Data.List.Infix
import Mathlib.Tactic.Common

/-! # `PurePosixPath`

A path is parsed into its root and its parts. Empty parts and single dots are dropped, so a
path without parts is written as a single dot.
-/

namespace SmartTest.Lib

structure PurePosixPath where
  root : String
  tail : List String
  deriving DecidableEq, Repr

namespace PurePosixPath

/-- Exactly two slashes are kept, and any other number is one. -/
def rootOf : List Char → List Char
  | '/' :: '/' :: '/' :: _ => ['/']
  | '/' :: '/' :: _ => ['/', '/']
  | '/' :: _ => ['/']
  | _ => []

def splitTail (rest : List Char) : List (List Char) :=
  (rest.splitOn '/').filter fun part => part ≠ [] && part ≠ ['.']

def parse (value : String) : PurePosixPath :=
  let root := rootOf value.toList
  ⟨.ofList root, (splitTail (value.toList.drop root.length)).map .ofList⟩

def text (p : PurePosixPath) : List Char := p.root.toList ++ ['/'].intercalate (p.tail.map String.toList)

/-- `str(path)`. -/
def str (p : PurePosixPath) : String := if p.text = [] then "." else .ofList p.text

def isAbsolute (p : PurePosixPath) : Bool := p.root ≠ ""

def parts (p : PurePosixPath) : List String := if p.root = "" then p.tail else p.root :: p.tail

def name (p : PurePosixPath) : String := p.tail.getLast?.getD ""

def parent (p : PurePosixPath) : PurePosixPath := { p with tail := p.tail.dropLast }

/-- All proper ancestors, down to the path without parts. -/
def parents (p : PurePosixPath) : List PurePosixPath :=
  (List.range p.tail.length).reverse.map fun n => { p with tail := p.tail.take n }

/-! ## Splitting -/

theorem not_mem_of_mem_splitOn {α : Type} [BEq α] [LawfulBEq α] {a : α} {xs l : List α}
    (h : l ∈ xs.splitOn a) : a ∉ l := by
  induction xs generalizing l with
  | nil =>
    simp only [List.splitOn_nil, List.mem_singleton] at h
    simp [h]
  | cons x rest ih =>
    rw [List.splitOn_cons_eq_if_modifyHead] at h
    split at h
    · rcases List.mem_cons.mp h with rfl | hin
      · simp
      · exact ih hin
    · next hne =>
      cases hsplit : rest.splitOn a with
      | nil => simp [hsplit] at h
      | cons first others =>
        rw [hsplit, List.modifyHead_cons] at h
        rcases List.mem_cons.mp h with rfl | hin
        · have hfirst : a ∉ first := ih (by simp [hsplit])
          have hx : a ≠ x := fun heq => hne (by simp [heq])
          simp [hx, hfirst]
        · exact ih (by simp [hsplit, hin])

/-- What a part of a parsed path is. -/
def GoodPart (part : String) : Prop := part ≠ "" ∧ part ≠ "." ∧ '/' ∉ part.toList

theorem parse_tail (value : String) : ∀ part ∈ (parse value).tail, GoodPart part := by
  intro part hpart
  obtain ⟨chars, hchars, rfl⟩ := List.mem_map.mp hpart
  obtain ⟨hsplit, hkept⟩ := List.mem_filter.mp hchars
  simp only [Bool.and_eq_true, decide_eq_true_eq] at hkept
  have hslash := not_mem_of_mem_splitOn hsplit
  refine ⟨?_, ?_, by simpa using hslash⟩
  · intro h
    exact hkept.1 (by simpa using congrArg String.toList h)
  · intro h
    exact hkept.2 (by simpa using congrArg String.toList h)

/-! ## Relative paths -/

structure Relative (p : PurePosixPath) : Prop where
  root : p.root = ""
  tail : ∀ part ∈ p.tail, GoodPart part

theorem relative_parse {value : String} (h : (parse value).isAbsolute = false) : Relative (parse value) :=
  ⟨by simpa [isAbsolute] using h, parse_tail value⟩

variable {p q : PurePosixPath}

theorem Relative.text_eq (h : Relative p) : p.text = ['/'].intercalate (p.tail.map String.toList) := by
  simp [text, h.root]

theorem Relative.text_eq_nil (h : Relative p) : p.text = [] ↔ p.tail = [] := by
  rw [h.text_eq]
  have htail := h.tail
  generalize p.tail = tail at htail ⊢
  cases tail with
  | nil => simp
  | cons part rest =>
    have hpart : part.toList ≠ [] := by
      intro hnil
      exact (htail part (by simp)).1 (String.toList_eq_nil_iff.mp hnil)
    cases rest with
    | nil => simpa using hpart
    | cons next others => simp [List.intercalate_cons_cons, hpart]

theorem Relative.rootOf_text (h : Relative p) : rootOf p.text = [] := by
  rw [h.text_eq]
  have htail := h.tail
  generalize p.tail = tail at htail ⊢
  cases tail with
  | nil => rfl
  | cons part rest =>
    obtain ⟨hne, -, hslash⟩ := htail part (by simp)
    cases hchars : part.toList with
    | nil => exact absurd (String.toList_eq_nil_iff.mp hchars) hne
    | cons c cs =>
      have hc : c ≠ '/' := by
        rintro rfl
        simp [hchars] at hslash
      have hhead : ∃ more, ['/'].intercalate ((part :: rest).map String.toList) = c :: more := by
        cases rest with
        | nil => exact ⟨cs, by simp [hchars]⟩
        | cons next others => exact ⟨_, by rw [List.map_cons, List.map_cons, List.intercalate_cons_cons, hchars]; rfl⟩
      obtain ⟨more, hmore⟩ := hhead
      rw [hmore]
      unfold rootOf
      split <;> simp_all

theorem Relative.splitTail_text (h : Relative p) : splitTail p.text = p.tail.map String.toList := by
  rw [h.text_eq]
  have htail := h.tail
  unfold splitTail
  by_cases hnil : p.tail = []
  · simp [hnil]
  · rw [List.splitOn_intercalate]
    · rw [List.filter_eq_self]
      intro chars hchars
      obtain ⟨part, hpart, rfl⟩ := List.mem_map.mp hchars
      obtain ⟨hne, hdot, -⟩ := htail part hpart
      have hdot' : part.toList ≠ ['.'] := by
        intro heq
        exact hdot (String.toList_inj.mp heq)
      simp [hne, hdot']
    · intro chars hchars
      obtain ⟨part, hpart, rfl⟩ := List.mem_map.mp hchars
      exact (htail part hpart).2.2
    · simpa using hnil

/-- A relative path is read back from its text. -/
theorem Relative.parse_str (h : Relative p) : parse p.str = p := by
  obtain ⟨root, tail⟩ := p
  have hroot : root = "" := h.root
  subst hroot
  unfold str
  split
  · next hnil =>
    have htail : tail = [] := h.text_eq_nil.mp hnil
    subst htail
    decide
  · simp only [parse, String.toList_ofList, h.rootOf_text, List.length_nil, List.drop_zero, h.splitTail_text,
      List.map_map]
    simp [Function.comp_def]

theorem Relative.str_inj (hp : Relative p) (hq : Relative q) (h : p.str = q.str) : p = q := by
  rw [← hp.parse_str, ← hq.parse_str, h]

theorem Relative.str_eq_dot (h : Relative p) : p.str = "." ↔ p.tail = [] := by
  have hdot : Relative ⟨"", []⟩ := ⟨rfl, by simp⟩
  constructor
  · intro heq
    have := h.str_inj hdot (by rw [heq]; decide)
    rw [this]
  · intro hnil
    unfold str
    rw [if_pos (h.text_eq_nil.mpr hnil)]

theorem Relative.take (h : Relative p) (n : Nat) : Relative { p with tail := p.tail.take n } :=
  ⟨h.root, fun part hpart => h.tail part (List.mem_of_mem_take hpart)⟩

theorem Relative.parent (h : Relative p) : Relative p.parent :=
  ⟨h.root, fun part hpart => h.tail part (List.mem_of_mem_dropLast hpart)⟩

theorem length_parent (p : PurePosixPath) : p.parent.tail.length = p.tail.length - 1 := List.length_dropLast

/-- The ancestors of the parent are ancestors of the path. -/
theorem take_parent {n : Nat} (h : n ≤ p.parent.tail.length) :
    ({ p.parent with tail := p.parent.tail.take n } : PurePosixPath) = { p with tail := p.tail.take n } := by
  rw [length_parent] at h
  simp only [PurePosixPath.parent, List.dropLast_eq_take, List.take_take, Nat.min_eq_left h]

theorem mem_parents : q ∈ p.parents ↔ ∃ n, n < p.tail.length ∧ q = { p with tail := p.tail.take n } := by
  simp [parents, eq_comm]

end PurePosixPath

end SmartTest.Lib
