import StakeLedger.Text.Blank

namespace StakeLedger.Text

variable {text core : List Char}

structure Trimmed (text core : List Char) : Prop where
  around : ∃ before after, text = before ++ core ++ after ∧ ∀ c ∈ before ++ after, isBlank c
  head : ∀ c ∈ core.head?, isBlank c = false
  last : ∀ c ∈ core.getLast?, isBlank c = false

theorem not_isBlank_head? {c : Char} (h : c ∈ (text.dropWhile isBlank).head?) : isBlank c = false := by
  have hhead := List.head?_dropWhile_not isBlank text
  rwa [Option.mem_def.mp h] at hhead

theorem dropWhile_eq_self (h : ∀ c ∈ text.head?, isBlank c = false) : text.dropWhile isBlank = text := by
  cases text with
  | nil => rfl
  | cons c cs => exact List.dropWhile_cons_of_neg (by rw [h c rfl]; exact Bool.false_ne_true)

theorem trimmed_trimBlanks (text : List Char) : Trimmed text (trimBlanks text) := by
  let rest := text.dropWhile isBlank
  have hfront : text.takeWhile isBlank ++ rest = text := List.takeWhile_append_dropWhile
  have hback : trimBlanks text ++ (rest.reverse.takeWhile isBlank).reverse = rest := by
    rw [trimBlanks, ← List.reverse_append, List.takeWhile_append_dropWhile, List.reverse_reverse]
  refine ⟨⟨text.takeWhile isBlank, (rest.reverse.takeWhile isBlank).reverse, ?_, fun c hc => ?_⟩, fun c hc => ?_, ?_⟩
  · rw [List.append_assoc, hback, hfront]
  · rcases List.mem_append.mp hc with hc | hc
    · exact List.all_eq_true.mp List.all_takeWhile c hc
    · exact List.all_eq_true.mp List.all_takeWhile c (List.mem_reverse.mp hc)
  · have hrest : c ∈ rest.head? := by
      rw [← hback, List.head?_append, Option.mem_def.mp hc]
      rfl
    exact not_isBlank_head? hrest
  · intro c hc
    rw [trimBlanks, List.getLast?_reverse] at hc
    exact not_isBlank_head? hc

theorem Trimmed.trimBlanks_eq (h : Trimmed text core) : trimBlanks text = core := by
  obtain ⟨⟨before, after, rfl, hblank⟩, hhead, hlast⟩ := h
  have hbefore : ∀ c ∈ before, isBlank c = true := fun c hc => hblank c (List.mem_append_left _ hc)
  have hafter : ∀ c ∈ after, isBlank c = true := fun c hc => hblank c (List.mem_append_right _ hc)
  cases core with
  | nil =>
    have hall : (before ++ [] ++ after).dropWhile isBlank = [] := by
      rw [List.append_nil, ← List.append_nil (before ++ after), List.dropWhile_append_of_pos hblank]
      rfl
    rw [trimBlanks, hall]
    rfl
  | cons c cs =>
    have hfront : (before ++ c :: cs ++ after).dropWhile isBlank = c :: cs ++ after := by
      rw [List.append_assoc, List.dropWhile_append_of_pos hbefore]
      exact dropWhile_eq_self hhead
    have hback : ∀ d ∈ (c :: cs).reverse.head?, isBlank d = false := by
      rw [List.head?_reverse]
      exact hlast
    rw [trimBlanks, hfront, List.reverse_append,
      List.dropWhile_append_of_pos fun d hd => hafter d (List.mem_reverse.mp hd), dropWhile_eq_self hback,
      List.reverse_reverse]

theorem trimBlanks_eq_iff : trimBlanks text = core ↔ Trimmed text core :=
  ⟨fun h => h ▸ trimmed_trimBlanks text, Trimmed.trimBlanks_eq⟩

end StakeLedger.Text
