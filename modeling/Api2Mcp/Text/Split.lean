import Mathlib.Data.List.Basic

namespace text

variable {α : Type} [DecidableEq α]

/-- What stands before the first place where a delimiter stands, and what
stands behind it there. -/
def splitOnce (delimiter : List α) : List α → Option (List α × List α)
  | [] => if delimiter = [] then some ([], []) else none
  | x :: xs =>
    if delimiter <+: x :: xs then some ([], (x :: xs).drop delimiter.length)
    else (splitOnce delimiter xs).map fun (before, after) => (x :: before, after)

/-- A delimiter does not stand where its first character does not. -/
theorem splitOnce_cons {c x : α} (hne : c ≠ x) (delimiter xs : List α) :
    splitOnce (c :: delimiter) (x :: xs) =
      (splitOnce (c :: delimiter) xs).map fun (before, after) => (x :: before, after) := by
  have hno : ¬ c :: delimiter <+: x :: xs := fun hprefix => hne (List.cons_prefix_cons.mp hprefix).1
  rw [splitOnce, if_neg hno]

theorem splitOnce_append {c : α} {before : List α} (hbefore : c ∉ before) (delimiter after : List α) :
    splitOnce (c :: delimiter) (before ++ c :: delimiter ++ after) = some (before, after) := by
  induction before with
  | nil => simp [splitOnce]
  | cons x xs ih =>
    have hne := List.ne_of_not_mem_cons hbefore
    have hrest := ih (List.not_mem_of_not_mem_cons hbefore)
    rw [List.cons_append, List.cons_append, splitOnce_cons hne, hrest]
    rfl

theorem splitOnce_of_notMem {c : α} {xs : List α} (hxs : c ∉ xs) (delimiter : List α) :
    splitOnce (c :: delimiter) xs = none := by
  induction xs with
  | nil => rfl
  | cons x xs ih =>
    rw [splitOnce_cons (List.ne_of_not_mem_cons hxs), ih (List.not_mem_of_not_mem_cons hxs)]
    rfl

/-- `str::split_once`. -/
def split_once (s pattern : String) : Option (String × String) :=
  (splitOnce pattern.toList s.toList).map fun (before, after) => (String.ofList before, String.ofList after)

theorem split_once_append {pattern before : String} {c : Char} {delimiter : List Char}
    (hpattern : pattern.toList = c :: delimiter) (hbefore : c ∉ before.toList) (after : String) :
    split_once (before ++ pattern ++ after) pattern = some (before, after) := by
  have hsplit := splitOnce_append hbefore delimiter after.toList
  rw [split_once, String.toList_append, String.toList_append, hpattern, hsplit, Option.map_some]
  dsimp only
  rw [String.ofList_toList, String.ofList_toList]

theorem split_once_of_notMem {pattern s : String} {c : Char} {delimiter : List Char}
    (hpattern : pattern.toList = c :: delimiter) (hs : c ∉ s.toList) : split_once s pattern = none := by
  rw [split_once, hpattern, splitOnce_of_notMem hs, Option.map_none]

/-- A text from the first place of a character on. -/
def onward (c : Char) (s : String) : String := String.ofList (s.toList.dropWhile (· ≠ c))

theorem dropWhile_append {c : Char} {before : List Char} (hbefore : c ∉ before) (after : List Char) :
    (before ++ after).dropWhile (· ≠ c) = after.dropWhile (· ≠ c) := by
  apply List.dropWhile_append_of_pos
  intro x hx
  rw [decide_eq_true_eq]
  rintro rfl
  exact hbefore hx

theorem onward_of_notMem {c : Char} {s : String} (hmem : c ∉ s.toList) : onward c s = "" := by
  have hnone := dropWhile_append hmem []
  rw [List.append_nil, List.dropWhile_nil] at hnone
  rw [onward, hnone, String.ofList_nil]

section

variable {c : Char} {mark : String} (hmark : mark.toList = [c])

include hmark

theorem toList_marked (before after : String) :
    (before ++ mark ++ after).toList = before.toList ++ c :: after.toList := by
  rw [String.toList_append, String.toList_append, hmark, List.append_assoc, List.singleton_append]

/-- A text with a character in it is cut at the first place of it. -/
theorem exists_cut {s : String} (hmem : c ∈ s.toList) :
    ∃ before after : String, s = before ++ mark ++ after ∧ c ∉ before.toList := by
  obtain ⟨before, after, hchars, hbefore⟩ := List.eq_append_cons_of_mem hmem
  refine ⟨.ofList before, .ofList after, String.toList_injective ?_, ?_⟩
  · rw [toList_marked hmark, String.toList_ofList, String.toList_ofList, hchars]
  · rw [String.toList_ofList]
    exact hbefore

theorem onward_append {before : String} (hbefore : c ∉ before.toList) (after : String) :
    onward c (before ++ mark ++ after) = mark ++ after := by
  have hstop : (c :: after.toList).dropWhile (· ≠ c) = c :: after.toList := List.dropWhile_cons_of_neg (by simp)
  apply String.toList_injective
  rw [onward, toList_marked hmark, dropWhile_append hbefore, hstop, String.toList_ofList, String.toList_append,
    hmark, List.singleton_append]

/-- A mark is kept, also where it is the first one. -/
theorem onward_marked (s tail : String) : onward c (s ++ mark ++ tail) = onward c s ++ mark ++ tail := by
  have hstop : (c :: tail.toList).dropWhile (· ≠ c) = c :: tail.toList := List.dropWhile_cons_of_neg (by simp)
  apply String.toList_injective
  rw [toList_marked hmark, onward, onward, toList_marked hmark, String.toList_ofList, String.toList_ofList,
    List.dropWhile_append]
  split
  · rename_i hempty
    rw [List.isEmpty_iff.mp hempty, hstop, List.nil_append]
  · rfl

end

end text
