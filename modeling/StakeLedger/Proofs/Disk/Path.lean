import StakeLedger.Disk.Path

namespace StakeLedger.Path

def cut (c : Char) (parts : List (List Char)) : List (List Char) :=
  if c = '/' then [] :: parts
  else match parts with
    | part :: rest => (c :: part) :: rest
    | [] => [[c]]

def split (cs : List Char) : List (List Char) := cs.foldr cut [[]]

theorem names_eq (p : Path) : p.names = (split p.text.toList).map String.ofList := rfl

variable {c : Char} {cs ds part : List Char} {rest : List (List Char)}

theorem cut_slash : cut '/' rest = [] :: rest := if_pos rfl

theorem cut_plain (hc : c ≠ '/') : cut c (part :: rest) = (c :: part) :: rest := if_neg hc

theorem split_parts (cs : List Char) : ∃ init last, split cs = init ++ [last] ∧
    ∀ part rest, cs.foldr cut (part :: rest) = init ++ (last ++ part) :: rest := by
  induction cs with
  | nil => exact ⟨[], [], rfl, fun _ _ => rfl⟩
  | cons c cs ih =>
    obtain ⟨init, last, hsplit, hfoldr⟩ := ih
    have hcons : split (c :: cs) = cut c (split cs) := rfl
    by_cases hc : c = '/'
    · refine ⟨[] :: init, last, ?_, fun part rest => ?_⟩
      · rw [hcons, hc, cut_slash, hsplit]
        rfl
      · rw [List.foldr_cons, hc, cut_slash, hfoldr]
        rfl
    · cases init with
      | nil =>
        refine ⟨[], c :: last, ?_, fun part rest => ?_⟩
        · rw [hcons, hsplit]
          exact cut_plain hc
        · rw [List.foldr_cons, hfoldr]
          exact cut_plain hc
      | cons first init =>
        refine ⟨(c :: first) :: init, last, ?_, fun part rest => ?_⟩
        · rw [hcons, hsplit]
          exact cut_plain hc
        · rw [List.foldr_cons, hfoldr]
          exact cut_plain hc

theorem split_of_plain (h : '/' ∉ cs) : split cs = [cs] := by
  induction cs with
  | nil => rfl
  | cons c cs ih =>
    rw [List.mem_cons, not_or] at h
    change cut c (split cs) = _
    rw [ih h.2, cut_plain (Ne.symm h.1)]

theorem split_append_plain {init : List (List Char)} {last : List Char} (hs : split cs = init ++ [last])
    (h : '/' ∉ ds) : split (cs ++ ds) = init ++ [last ++ ds] := by
  obtain ⟨init', last', hsplit, hfoldr⟩ := split_parts cs
  obtain ⟨rfl, rfl⟩ := List.append_singleton_inj.mp (hs.symm.trans hsplit)
  rw [split, List.foldr_append]
  change cs.foldr cut (split ds) = _
  rw [split_of_plain h, hfoldr]

theorem split_slash (cs ds : List Char) : split (cs ++ '/' :: ds) = split cs ++ split ds := by
  obtain ⟨init, last, hsplit, hfoldr⟩ := split_parts cs
  have hslash : split ('/' :: ds) = [] :: split ds := cut_slash
  rw [split, List.foldr_append]
  change cs.foldr cut (split ('/' :: ds)) = _
  rw [hslash, hfoldr, hsplit, List.append_nil, List.append_assoc]
  rfl

theorem plain_of_mem_split (cs : List Char) : ∀ part ∈ split cs, '/' ∉ part := by
  induction cs with
  | nil =>
    intro part hpart
    rw [List.mem_singleton.mp hpart]
    exact nofun
  | cons c cs ih =>
    change ∀ part ∈ cut c (split cs), _
    by_cases hc : c = '/'
    · rw [hc, cut_slash]
      exact List.forall_mem_cons.mpr ⟨nofun, ih⟩
    · cases hparts : split cs with
      | nil =>
        obtain ⟨init, last, hsplit, -⟩ := split_parts cs
        rw [hparts] at hsplit
        exact absurd hsplit.symm (by simp)
      | cons part rest =>
        rw [hparts] at ih
        obtain ⟨hpart, hrest⟩ := List.forall_mem_cons.mp ih
        rw [cut_plain hc]
        refine List.forall_mem_cons.mpr ⟨fun hm => ?_, hrest⟩
        rcases List.mem_cons.mp hm with hm | hm
        · exact hc hm.symm
        · exact hpart hm

theorem head?_iff (cs : List Char) :
    (cs.head? == some '/') = true ↔ ∃ part rest, split cs = [] :: part :: rest := by
  cases cs with
  | nil => exact ⟨nofun, fun ⟨_, _, h⟩ => by cases h⟩
  | cons c cs =>
    obtain ⟨init, last, hsplit, -⟩ := split_parts cs
    change (some c == some '/') = true ↔ ∃ part rest, cut c (split cs) = [] :: part :: rest
    by_cases hc : c = '/'
    · subst hc
      refine ⟨fun _ => ?_, fun _ => rfl⟩
      rw [cut_slash, hsplit]
      cases init with
      | nil => exact ⟨last, [], rfl⟩
      | cons first init => exact ⟨first, init ++ [last], rfl⟩
    · refine ⟨fun h => absurd (by simpa using h) hc, fun ⟨part, rest, h⟩ => ?_⟩
      rw [hsplit] at h
      cases init with
      | nil =>
        rw [List.nil_append, cut_plain hc] at h
        cases h
      | cons first init =>
        rw [List.cons_append, cut_plain hc] at h
        cases h

theorem eq_nil_of_split (h : split cs = [[]]) : cs = [] := by
  cases cs with
  | nil => rfl
  | cons c cs =>
    obtain ⟨init, last, hsplit, -⟩ := split_parts cs
    change cut c (split cs) = _ at h
    by_cases hc : c = '/'
    · rw [hc, cut_slash, hsplit] at h
      exact absurd (List.cons.inj h).2 (by simp)
    · rw [hsplit] at h
      cases init with
      | nil =>
        rw [List.nil_append, cut_plain hc] at h
        cases h
      | cons first init =>
        rw [List.cons_append, cut_plain hc] at h
        cases h

/-! ### Names -/

variable {p directory : Path} {way names : List String} {name last : String}

theorem plain_of_mem_names (h : name ∈ p.names) : '/' ∉ name.toList := by
  rw [names_eq] at h
  obtain ⟨part, hpart, rfl⟩ := List.mem_map.mp h
  rw [String.toList_ofList]
  exact plain_of_mem_split _ part hpart

theorem names_withSuffix (h : p.names = way ++ [last]) (hname : '/' ∉ name.toList) :
    (p.withSuffix name).names = way ++ [last ++ name] := by
  obtain ⟨init, part, hsplit, -⟩ := split_parts p.text.toList
  rw [names_eq, hsplit, List.map_append] at h
  obtain ⟨rfl, hlast⟩ := List.append_singleton_inj.mp h
  rw [names_eq, withSuffix, String.toList_append, split_append_plain hsplit hname, List.map_append, ← hlast,
    List.map_singleton, String.ofList_append, String.ofList_toList]

theorem names_intercalate (hne : names ≠ []) (hplain : ∀ name ∈ names, '/' ∉ name.toList) :
    (Path.mk ("/".intercalate names)).names = names := by
  induction names with
  | nil => exact absurd rfl hne
  | cons name names ih =>
    obtain ⟨hname, hnames⟩ := List.forall_mem_cons.mp hplain
    cases names with
    | nil =>
      rw [String.intercalate_singleton, names_eq, split_of_plain hname, List.map_singleton, String.ofList_toList]
    | cons next names =>
      have hrest := ih nofun hnames
      rw [names_eq] at hrest ⊢
      rw [String.intercalate_cons_cons, String.toList_append, String.toList_append, List.append_assoc]
      change List.map _ (split (name.toList ++ '/' :: ("/".intercalate (next :: names)).toList)) = _
      rw [split_slash, List.map_append, hrest, split_of_plain hname, List.map_singleton, String.ofList_toList]
      rfl

theorem isAbsolute_of_names (h : p.names = way ++ [last]) :
    p.isAbsolute = true ↔ way.head? = some "" := by
  obtain ⟨init, part, hsplit, -⟩ := split_parts p.text.toList
  rw [names_eq, hsplit, List.map_append] at h
  obtain ⟨rfl, -⟩ := List.append_singleton_inj.mp h
  rw [isAbsolute, head?_iff, hsplit]
  cases init with
  | nil => exact ⟨fun ⟨_, _, he⟩ => (nomatch (List.cons.inj he).2), fun he => nomatch he⟩
  | cons first init =>
    constructor
    · rintro ⟨next, rest, he⟩
      rw [List.cons_append] at he
      rw [(List.cons.inj he).1]
      rfl
    · intro hfirst
      have hnil : first = [] := String.ofList_injective (Option.some.inj hfirst)
      rw [hnil]
      cases init with
      | nil => exact ⟨part, [], rfl⟩
      | cons second init => exact ⟨second, init ++ [part], rfl⟩

theorem isAbsolute_of_ne (h : p.names ≠ [""]) : p.isAbsolute = true ↔ p.names.head? = some "" := by
  obtain ⟨init, part, hsplit, -⟩ := split_parts p.text.toList
  have hnames : p.names = init.map String.ofList ++ [String.ofList part] := by
    rw [names_eq, hsplit, List.map_append]
    rfl
  rw [isAbsolute_of_names hnames, hnames]
  rw [hnames] at h
  cases init with
  | nil => exact ⟨nofun, fun he => absurd (congrArg (· :: []) (Option.some.inj he)) h⟩
  | cons first init => exact Iff.rfl

theorem names_join (directory : Path) : ∃ way,
    (directory.names = way ∨ directory.names = way ++ [""]) ∧
      (directory.isAbsolute = true ↔ way.head? = some "") ∧
      ∀ name : String, '/' ∉ name.toList → (directory.join ⟨name⟩).names = way ++ [name] := by
  have hrelative : ∀ name : String, '/' ∉ name.toList → (Path.mk name).isAbsolute = false := by
    intro name hname
    refine Bool.eq_false_iff.mpr fun h => ?_
    obtain ⟨part, rest, he⟩ := (head?_iff name.toList).mp h
    rw [split_of_plain hname] at he
    exact nomatch (List.cons.inj he).2
  by_cases hend : directory.text.isEmpty = true ∨ directory.text.toList.getLast? = some '/'
  · obtain ⟨way, hway⟩ : ∃ way, directory.names = way ++ [""] := by
      rcases hend with hempty | hslash
      · refine ⟨[], ?_⟩
        rw [names_eq, String.isEmpty_iff.mp hempty]
        rfl
      · obtain ⟨cs, hcs⟩ := List.getLast?_eq_some_iff.mp hslash
        refine ⟨(split cs).map String.ofList, ?_⟩
        rw [names_eq, hcs, split_slash, List.map_append]
        rfl
    refine ⟨way, .inr hway, isAbsolute_of_names hway, fun name hname => ?_⟩
    rw [join, hrelative name hname, if_neg Bool.false_ne_true, if_pos hend]
    exact (names_withSuffix hway hname).trans (by rw [String.empty_append])
  · have hne : directory.names ≠ [""] := by
      intro he
      rw [names_eq] at he
      have hsplit : split directory.text.toList = [[]] :=
        (List.map_inj_right fun _ _ h => String.ofList_injective h).mp he
      exact hend (.inl (String.isEmpty_iff.mpr (String.toList_eq_nil_iff.mp (eq_nil_of_split hsplit))))
    refine ⟨directory.names, .inl rfl, isAbsolute_of_ne hne, fun name hname => ?_⟩
    rw [join, hrelative name hname, if_neg Bool.false_ne_true, if_neg hend, names_eq, String.toList_append,
      String.toList_append, List.append_assoc]
    change List.map _ (split (directory.text.toList ++ '/' :: name.toList)) = _
    rw [split_slash, List.map_append, split_of_plain hname, List.map_singleton, String.ofList_toList]
    rfl

theorem names_parent (h : p.names = way ++ [name]) :
    (p.parent.names = way ∨ p.parent.names = way ++ [""]) ∧
      (p.parent.isAbsolute = true ↔ way.head? = some "") := by
  have hplain : ∀ n ∈ way, '/' ∉ n.toList := fun n hn => plain_of_mem_names (h ▸ List.mem_append_left _ hn)
  have hdrop : p.names.dropLast = way := by rw [h, List.dropLast_concat]
  rw [parent, hdrop]
  by_cases hroot : way = [""]
  · rw [hroot]
    exact ⟨.inr rfl, fun _ => rfl, fun _ => rfl⟩
  · by_cases hnil : way = []
    · rw [hnil]
      exact ⟨.inr rfl, nofun, nofun⟩
    · have hnames := names_intercalate hnil hplain
      have hne : (Path.mk ("/".intercalate way)).names ≠ [""] := fun he => hroot (hnames.symm.trans he)
      have habsolute := isAbsolute_of_ne hne
      rw [hnames] at habsolute
      split
      · exact absurd rfl hroot
      · exact ⟨.inl hnames, habsolute⟩

end StakeLedger.Path
