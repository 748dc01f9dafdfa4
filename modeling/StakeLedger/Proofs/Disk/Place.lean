import Mathlib.Data.List.Induction
import StakeLedger.Disk.Basic
import StakeLedger.Proofs.Outcome

namespace StakeLedger.Disk

variable {d e f : Disk} {here place q : Place} {name : String} {names more : List String} {p : Path}

def next (here : Place) (name : String) : Place :=
  if name = "" ∨ name = "." then here else if name = ".." then here.dropLast else here ++ [name]

def resolve (here : Place) (names : List String) : Place := names.foldl next here

theorem resolve_append : resolve here (names ++ more) = resolve (resolve here names) more :=
  List.foldl_append

theorem next_blank : next here "" = here := if_pos (.inl rfl)

def Leads (d : Disk) : Place → List String → Prop
  | _, [] => True
  | here, name :: names => d.get? here = some .directory ∧ Leads d (next here name) names

theorem walk_eq_ok : d.walk here name = .ok q ↔ d.get? here = some .directory ∧ q = next here name := by
  rw [walk, next]
  cases d.get? here with
  | none => exact ⟨nofun, fun h => nomatch h.1⟩
  | some entry =>
    cases entry with
    | file content => exact ⟨nofun, fun h => nomatch h.1⟩
    | directory =>
      dsimp only
      split
      · exact ⟨fun h => ⟨rfl, (Except.ok.inj h).symm⟩, fun h => congrArg _ h.2.symm⟩
      · split
        · exact ⟨fun h => ⟨rfl, (Except.ok.inj h).symm⟩, fun h => congrArg _ h.2.symm⟩
        · exact ⟨fun h => ⟨rfl, (Except.ok.inj h).symm⟩, fun h => congrArg _ h.2.symm⟩

theorem foldlM_walk_eq_ok :
    names.foldlM d.walk here = .ok q ↔ d.Leads here names ∧ q = resolve here names := by
  induction names generalizing here with
  | nil => exact ⟨fun h => ⟨trivial, (Except.ok.inj h).symm⟩, fun h => congrArg _ h.2.symm⟩
  | cons name names ih =>
    rw [List.foldlM_cons]
    cases hwalk : d.walk here name with
    | error fault =>
      refine ⟨nofun, fun h => ?_⟩
      rw [walk_eq_ok.mpr ⟨h.1.1, rfl⟩] at hwalk
      cases hwalk
    | ok next =>
      obtain ⟨hdirectory, rfl⟩ := walk_eq_ok.mp hwalk
      exact ih.trans ⟨fun h => ⟨⟨hdirectory, h.1⟩, h.2⟩, fun h => ⟨h.1.2, h.2⟩⟩

theorem place_eq_ok : d.place p = .ok q ↔ d.Leads (d.origin p) p.names ∧ q = resolve (d.origin p) p.names :=
  foldlM_walk_eq_ok

theorem find_eq_ok {entry : Entry} : d.find p = .ok entry ↔
    d.Leads (d.origin p) p.names ∧ d.get? (resolve (d.origin p) p.names) = some entry := by
  constructor
  · intro h
    obtain ⟨q, hplace, hentry⟩ := bind_eq_ok.mp h
    obtain ⟨hleads, rfl⟩ := place_eq_ok.mp hplace
    split at hentry
    · next found hfound =>
      obtain rfl := Except.ok.inj hentry
      exact ⟨hleads, hfound⟩
    · cases hentry
  · rintro ⟨hleads, hentry⟩
    rw [find, place_eq_ok.mpr ⟨hleads, rfl⟩]
    dsimp only [bind, Except.bind]
    rw [hentry]

theorem holds_eq_true : d.holds p = true ↔ ∃ entry, d.find p = .ok entry := by
  rw [holds]
  cases d.find p with
  | error fault => exact ⟨nofun, fun ⟨_, h⟩ => nomatch h⟩
  | ok entry => exact ⟨fun _ => ⟨entry, rfl⟩, fun _ => rfl⟩

theorem read_eq_ok {content : Bytes} : d.read p = .ok content ↔ d.find p = .ok (.file content) := by
  rw [read]
  cases d.find p with
  | error fault => exact ⟨nofun, nofun⟩
  | ok entry =>
    cases entry with
    | file content => exact ⟨fun h => congrArg (Except.ok ∘ Entry.file) (Except.ok.inj h), fun h => by cases h; rfl⟩
    | directory => exact ⟨nofun, nofun⟩

structure Keeps (d e : Disk) : Prop where
  workingDirectory : e.workingDirectory = d.workingDirectory
  directory : ∀ q, d.get? q = some .directory → e.get? q = some .directory

theorem Keeps.refl (d : Disk) : Keeps d d := ⟨rfl, fun _ h => h⟩

theorem Keeps.trans (h : Keeps d e) (h' : Keeps e f) : Keeps d f :=
  ⟨h'.workingDirectory.trans h.workingDirectory, fun q hq => h'.directory q (h.directory q hq)⟩

theorem Keeps.origin (h : Keeps d e) (p : Path) : e.origin p = d.origin p := by
  rw [Disk.origin, Disk.origin, h.workingDirectory]

theorem Keeps.leads (h : Keeps d e) (hl : d.Leads here names) : e.Leads here names := by
  induction names generalizing here with
  | nil => trivial
  | cons name names ih => exact ⟨h.directory here hl.1, ih hl.2⟩

theorem Keeps.read (h : Keeps d e) {content : Bytes}
    (hs : e.get? (resolve (d.origin p) p.names) = d.get? (resolve (d.origin p) p.names))
    (hr : d.read p = .ok content) : e.read p = .ok content := by
  obtain ⟨hleads, hget⟩ := find_eq_ok.mp (read_eq_ok.mp hr)
  apply read_eq_ok.mpr
  apply find_eq_ok.mpr
  rw [h.origin]
  exact ⟨h.leads hleads, hs.trans hget⟩

theorem ne_nil_of_get? (h : d.get? q ≠ some .directory) : q ≠ [] := by
  rintro rfl
  exact h rfl

theorem get?_put_self (hq : q ≠ []) {entry : Entry} : (d.put q entry).get? q = some entry := by
  rw [get?_put d q q entry hq, if_pos rfl]

theorem get?_put_ne (hq : q ≠ []) (h : place ≠ q) {entry : Entry} :
    (d.put q entry).get? place = d.get? place := by
  rw [get?_put d q place entry hq, if_neg h]

theorem get?_erase_ne (h : place ≠ q) : (d.erase q).get? place = d.get? place := by
  simp only [get?, erase]
  split
  · rfl
  · exact lookup_filter_ne d.entries h

theorem get?_erase_self (hq : q ≠ []) : (d.erase q).get? q = none := by
  rw [get?, erase]
  rw [if_neg hq, List.lookup_eq_none_iff]
  intro e he
  exact bne_iff_ne.mpr (Ne.symm (of_decide_eq_true (List.mem_filter.mp he).2))

theorem keeps_put (hq : d.get? q ≠ some .directory) (entry : Entry) : Keeps d (d.put q entry) := by
  refine ⟨rfl, fun place hplace => ?_⟩
  have hne : place ≠ q := fun he => hq (he ▸ hplace)
  rwa [get?_put_ne (ne_nil_of_get? hq) hne]

theorem keeps_put_directory (hq : d.get? q = none) : Keeps d (d.put q .directory) :=
  keeps_put (fun h => nomatch hq.symm.trans h) _

theorem keeps_erase (hq : d.get? q ≠ some .directory) : Keeps d (d.erase q) := by
  refine ⟨rfl, fun place hplace => ?_⟩
  have hne : place ≠ q := fun he => hq (he ▸ hplace)
  rwa [get?_erase_ne hne]

def IsTree (d : Disk) : Prop := ∀ q, d.get? q ≠ none → d.get? q.dropLast = some .directory

theorem IsTree.directory_of_prefix (h : d.IsTree) (hq : d.get? q = some .directory) (hp : place <+: q) :
    d.get? place = some .directory := by
  obtain ⟨more, rfl⟩ := hp
  induction more using List.reverseRecOn with
  | nil => rwa [List.append_nil] at hq
  | append_singleton more name ih =>
    refine ih ?_
    have hparent := h _ fun hnone => nomatch hq.symm.trans hnone
    rwa [← List.append_assoc, List.dropLast_concat] at hparent

theorem prefix_resolve (h : ".." ∉ names) : here <+: resolve here names := by
  induction names generalizing here with
  | nil => exact List.prefix_rfl
  | cons name names ih =>
    rw [List.mem_cons, not_or] at h
    have hnext : here <+: next here name := by
      rw [next, if_neg (Ne.symm h.1)]
      split
      · exact List.prefix_rfl
      · exact List.prefix_append _ _
    exact hnext.trans (ih h.2)

def Paved (d : Disk) (here : Place) (names : List String) : Prop :=
  ∀ made, made <+: names → d.get? (resolve here made) = some .directory

theorem paved_of_leads (hl : d.Leads here names) (hd : d.get? (resolve here names) = some .directory) :
    d.Paved here names := by
  induction names generalizing here with
  | nil =>
    intro made hmade
    rw [List.prefix_nil.mp hmade]
    exact hd
  | cons name names ih =>
    intro made hmade
    cases made with
    | nil => exact hl.1
    | cons first made =>
      obtain ⟨rfl, hrest⟩ := List.cons_prefix_cons.mp hmade
      exact ih hl.2 hd made hrest

theorem Paved.leads (h : d.Paved here names) : d.Leads here (names ++ [name]) := by
  induction names generalizing here with
  | nil => exact ⟨h [] List.prefix_rfl, trivial⟩
  | cons first names ih =>
    refine ⟨h [] (List.nil_prefix), ih fun made hmade => ?_⟩
    exact h (first :: made) (List.cons_prefix_cons.mpr ⟨rfl, hmade⟩)

/-! ### Directories -/

theorem createStep_eq_ok {g : Disk × Place} (h : createStep (d, here) name = .ok g) :
    d.get? here = some .directory ∧ g.2 = next here name ∧
      (g.1 = d ∧ d.get? g.2 = some .directory ∨ d.get? g.2 = none ∧ g.1 = d.put g.2 .directory) := by
  obtain ⟨q, hwalk, hq⟩ := bind_eq_ok.mp h
  obtain ⟨hdirectory, rfl⟩ := walk_eq_ok.mp hwalk
  split at hq
  · next hget =>
    cases hq
    exact ⟨hdirectory, rfl, .inl ⟨rfl, hget⟩⟩
  · cases hq
  · next hget =>
    cases hq
    exact ⟨hdirectory, rfl, .inr ⟨hget, rfl⟩⟩

theorem createSteps_eq_ok {g : Disk × Place} (h : names.foldlM createStep (d, here) = .ok g) :
    Keeps d g.1 ∧ ∀ q, g.1.get? q = d.get? q ∨
      d.get? q = none ∧ ∃ made, made <+: names ∧ q = resolve here made := by
  induction names generalizing d here with
  | nil =>
    cases h
    exact ⟨.refl d, fun q => .inl rfl⟩
  | cons name names ih =>
    rw [List.foldlM_cons] at h
    obtain ⟨⟨e, place⟩, hstep, hrest⟩ := bind_eq_ok.mp h
    obtain ⟨-, hplace, hfirst⟩ := createStep_eq_ok hstep
    dsimp only at hplace hfirst
    subst hplace
    obtain ⟨hkeeps, hothers⟩ := ih hrest
    have hlater : ∀ q, g.1.get? q = e.get? q ∨
        e.get? q = none ∧ ∃ made, made <+: name :: names ∧ q = resolve here made := by
      intro q
      rcases hothers q with hq | ⟨hq, made, hmade, rfl⟩
      · exact .inl hq
      · exact .inr ⟨hq, name :: made, List.cons_prefix_cons.mpr ⟨rfl, hmade⟩, rfl⟩
    rcases hfirst with ⟨rfl, -⟩ | ⟨hfree, rfl⟩
    · exact ⟨hkeeps, hlater⟩
    · refine ⟨(keeps_put_directory hfree).trans hkeeps, fun q => ?_⟩
      by_cases hq : q = next here name
      · exact .inr ⟨hq ▸ hfree, [name], ⟨names, rfl⟩, hq⟩
      · have hput : (d.put (next here name) .directory).get? q = d.get? q :=
          get?_put_ne (ne_nil_of_get? fun h => nomatch hfree.symm.trans h) hq
        rw [← hput]
        exact hlater q

end StakeLedger.Disk
