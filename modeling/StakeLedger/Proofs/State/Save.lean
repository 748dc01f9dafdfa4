import StakeLedger.Proofs.Disk.Attempt
import StakeLedger.Proofs.Disk.Path
import StakeLedger.Proofs.State.Store

namespace StakeLedger

open Disk

namespace Store

variable {store : Store} {d e : Disk} {phase other : Phase} {q : Place}

def fileName (phase : Phase) : String := "abci-state-" ++ phase.name ++ ".json"

def way (store : Store) : List String := (store.path .commit).names.dropLast

theorem plain_fileName (phase : Phase) : '/' ∉ (fileName phase).toList := by
  cases phase <;> decide

theorem fileName_injective (h : fileName phase = fileName other) : phase = other := by
  cases phase <;> cases other <;> first | rfl | exact absurd h (by decide)

theorem way_spec (store : Store) :
    (store.directory.names = store.way ∨ store.directory.names = store.way ++ [""]) ∧
      (store.directory.isAbsolute = true ↔ store.way.head? = some "") ∧
      ∀ phase, (store.path phase).names = store.way ++ [fileName phase] := by
  obtain ⟨way, hdirectory, habsolute, hnames⟩ := store.directory.names_join
  have hpath : ∀ phase, (store.path phase).names = way ++ [fileName phase] := fun phase =>
    hnames _ (plain_fileName phase)
  have hway : store.way = way := by rw [Store.way, hpath, List.dropLast_concat]
  rw [hway]
  exact ⟨hdirectory, habsolute, hpath⟩

theorem names_path (store : Store) (phase : Phase) :
    (store.path phase).names = store.way ++ [fileName phase] := store.way_spec.2.2 phase

theorem names_temporaryPath (store : Store) (phase : Phase) :
    (State.temporaryPath (store.path phase)).names = store.way ++ [fileName phase ++ ".tmp"] :=
  Path.names_withSuffix (store.names_path phase) (by decide)

def origin (store : Store) (d : Disk) : Place :=
  if store.way.head? = some "" then [] else d.workingDirectory

theorem origin_eq {p : Path} (h : p.isAbsolute = true ↔ store.way.head? = some "") :
    d.origin p = store.origin d := by
  rw [Disk.origin, origin]
  by_cases hp : p.isAbsolute = true
  · rw [if_pos hp, if_pos (h.mp hp)]
  · rw [if_neg hp, if_neg (hp ∘ h.mpr)]

theorem origin_path (store : Store) (phase : Phase) (d : Disk) :
    d.origin (store.path phase) = store.origin d :=
  origin_eq (Path.isAbsolute_of_names (store.names_path phase))

theorem origin_temporaryPath (store : Store) (phase : Phase) (d : Disk) :
    d.origin (State.temporaryPath (store.path phase)) = store.origin d :=
  origin_eq (Path.isAbsolute_of_names (store.names_temporaryPath phase))

theorem origin_parent (store : Store) (d : Disk) :
    d.origin (store.path .commit).parent = store.origin d :=
  origin_eq (Path.names_parent (store.names_path .commit)).2

theorem origin_directory (store : Store) (d : Disk) : d.origin store.directory = store.origin d :=
  origin_eq store.way_spec.2.1

def directoryPlace (store : Store) (d : Disk) : Place := resolve (store.origin d) store.way

def place (store : Store) (d : Disk) (phase : Phase) : Place := store.directoryPlace d ++ [fileName phase]

def temporaryPlace (store : Store) (d : Disk) : Place :=
  store.directoryPlace d ++ [fileName .commit ++ ".tmp"]

theorem next_of_long {name : String} (h : 2 < name.toList.length) (here : Place) :
    next here name = here ++ [name] := by
  rw [next, if_neg, if_neg]
  · rintro rfl
    exact absurd h (by decide)
  · rintro (rfl | rfl) <;> exact absurd h (by decide)

theorem resolve_path (store : Store) (phase : Phase) (d : Disk) :
    resolve (d.origin (store.path phase)) (store.path phase).names = store.place d phase := by
  have hlong : 2 < (fileName phase).toList.length := by cases phase <;> decide
  rw [origin_path, names_path, resolve_append]
  exact next_of_long hlong _

theorem resolve_temporaryPath (store : Store) (d : Disk) :
    resolve (d.origin (State.temporaryPath (store.path .commit))) (State.temporaryPath (store.path .commit)).names =
      store.temporaryPlace d := by
  have hlong : 2 < (fileName .commit ++ ".tmp").toList.length := by decide
  rw [origin_temporaryPath, names_temporaryPath, resolve_append]
  exact next_of_long hlong _

theorem place_injective (h : store.place d phase = store.place d other) : phase = other :=
  fileName_injective (List.append_singleton_inj.mp h).2

theorem place_ne_temporaryPlace (phase : Phase) : store.place d phase ≠ store.temporaryPlace d := by
  intro h
  have hname := (List.append_singleton_inj.mp h).2
  cases phase <;> exact absurd hname (by decide)

theorem origin_keeps (h : Keeps d e) : store.origin e = store.origin d := by
  rw [← origin_path store .commit, ← origin_path store .commit, h.origin]

theorem place_keeps (h : Keeps d e) (phase : Phase) : store.place e phase = store.place d phase := by
  rw [place, place, directoryPlace, directoryPlace, origin_keeps h]

theorem temporaryPlace_keeps (h : Keeps d e) : store.temporaryPlace e = store.temporaryPlace d := by
  rw [temporaryPlace, temporaryPlace, directoryPlace, directoryPlace, origin_keeps h]

def Clear (store : Store) (d : Disk) : Prop :=
  ∀ made, made <+: (store.path .commit).parent.names → ∀ phase,
    d.get? (resolve (store.origin d) made) = some .directory ∨
      resolve (store.origin d) made ≠ store.place d phase

theorem Clear.keeps (hc : store.Clear d) (h : Keeps d e) : store.Clear e := by
  intro made hmade phase
  rw [origin_keeps h, place_keeps h]
  exact (hc made hmade phase).imp_left (h.directory _)

theorem Clear.createSteps (hc : store.Clear d) {made : List String}
    (hmade : made <+: (store.path .commit).parent.names) {g : Disk × Place}
    (hg : made.foldlM createStep (d, d.origin (store.path .commit).parent) = .ok g) (phase : Phase) :
    g.1.get? (store.place d phase) = d.get? (store.place d phase) := by
  rcases (createSteps_eq_ok hg).2 (store.place d phase) with h | ⟨hfree, names, hnames, hplace⟩
  · exact h
  · rw [origin_parent] at hplace
    rcases hc names (hnames.trans hmade) phase with hdirectory | hne
    · rw [← hplace, hfree] at hdirectory
      cases hdirectory
    · exact absurd hplace.symm hne

theorem write_temporary {content : Bytes}
    (h : d.write (State.temporaryPath (store.path .commit)) content = .ok e) :
    Keeps d e ∧ (∀ phase, e.get? (store.place d phase) = d.get? (store.place d phase)) ∧
      e.get? (store.temporaryPlace d) = some (.file content) := by
  obtain ⟨hkeeps, hplain, hput⟩ := write_eq_ok h
  rw [resolve_temporaryPath] at hplain hput
  subst hput
  exact ⟨hkeeps, fun phase => get?_put_ne (ne_nil_of_get? hplain) (place_ne_temporaryPlace phase),
    get?_put_self (ne_nil_of_get? hplain)⟩

theorem rename_temporary {content : Bytes}
    (hcontent : d.get? (store.temporaryPlace d) = some (.file content))
    (h : d.rename (State.temporaryPath (store.path .commit)) (store.path .commit) = .ok e) :
    Keeps d e ∧ (∀ phase, phase ≠ .commit → e.get? (store.place d phase) = d.get? (store.place d phase)) ∧
      e.read (store.path .commit) = .ok content := by
  obtain ⟨hkeeps, written, hsource, htarget, hothers⟩ := rename_eq_ok h
  rw [resolve_temporaryPath] at hsource hothers
  rw [resolve_path] at hothers
  obtain rfl := Entry.file.inj (Option.some.inj (hcontent.symm.trans hsource))
  refine ⟨hkeeps, fun phase hphase => ?_, read_eq_ok.mpr htarget⟩
  exact hothers _ (place_ne_temporaryPlace phase) fun h => hphase (place_injective h)

/-- A save that comes to its end leaves the new snapshot; one that fails or is cut short leaves what was
there. The snapshots of other phases are not touched. -/
structure Saved (store : Store) (content : Bytes) (d e : Disk) (fault : Option Disk.Fault) : Prop where
  keeps : Keeps d e
  others : ∀ phase, phase ≠ .commit ∨ fault ≠ none →
    e.get? (store.place d phase) = d.get? (store.place d phase)
  snapshot : fault = none → e.read (store.path .commit) = .ok content

variable {content : Bytes} {fault : Option Disk.Fault} {d' : Disk}

theorem saved_of_fault (hk : Keeps d e) (hs : ∀ phase, e.get? (store.place d phase) = d.get? (store.place d phase))
    (reason : Disk.Fault) : store.Saved content d e (some reason) :=
  ⟨hk, fun phase _ => hs phase, nofun⟩

theorem Saved.after (h : store.Saved content d' e fault) (hk : Keeps d d')
    (hs : ∀ phase, d'.get? (store.place d phase) = d.get? (store.place d phase)) :
    store.Saved content d e fault := by
  refine ⟨hk.trans h.keeps, fun phase hphase => ?_, h.snapshot⟩
  have hrest := h.others phase hphase
  rw [place_keeps hk] at hrest
  exact hrest.trans (hs phase)

theorem saved_of_rename (hcontent : d.get? (store.temporaryPlace d) = some (.file content))
    (h : Performs [.rename (State.temporaryPath (store.path .commit)) (store.path .commit)] d e fault) :
    store.Saved content d e fault := by
  cases h with
  | fails hbreaks fault =>
    cases hbreaks
    exact saved_of_fault (.refl d) (fun _ => rfl) fault
  | next hrename hrest =>
    cases hrest
    rw [perform_rename] at hrename
    obtain ⟨hkeeps, hothers, hread⟩ := rename_temporary hcontent hrename
    exact ⟨hkeeps, fun phase hphase => hothers phase (hphase.resolve_right fun hf => hf rfl), fun _ => hread⟩

theorem saved_of_write (h : Performs [.write (State.temporaryPath (store.path .commit)) content,
      .rename (State.temporaryPath (store.path .commit)) (store.path .commit)] d e fault) :
    store.Saved content d e fault := by
  cases h with
  | fails hbreaks fault =>
    refine saved_of_fault hbreaks.keeps (fun phase => ?_) fault
    cases hbreaks with
    | untouched => rfl
    | written _ _ part _ hwrite => exact (write_temporary hwrite).2.1 phase
  | next hwrite hrest =>
    rw [perform_write] at hwrite
    obtain ⟨hkeeps, hothers, htemporary⟩ := write_temporary hwrite
    -- What is renamed next is what has just been written.
    rw [← temporaryPlace_keeps hkeeps] at htemporary
    exact (saved_of_rename htemporary hrest).after hkeeps hothers

theorem Clear.saved (hc : store.Clear d) (h : Performs [.createDirectories (store.path .commit).parent,
      .write (State.temporaryPath (store.path .commit)) content,
      .rename (State.temporaryPath (store.path .commit)) (store.path .commit)] d e fault) :
    store.Saved content d e fault := by
  cases h with
  | fails hbreaks fault =>
    refine saved_of_fault hbreaks.keeps (fun phase => ?_) fault
    cases hbreaks with
    | untouched => rfl
    | directories _ made hmade g hg => exact hc.createSteps hmade hg phase
  | next hmake hrest =>
    rw [perform_createDirectories] at hmake
    obtain ⟨place, hg⟩ := createDirectories_eq_ok hmake
    have hkeeps := (createSteps_eq_ok hg).1
    have hmade := hc.createSteps List.prefix_rfl hg
    exact (saved_of_write hrest).after hkeeps hmade

/-! ### Where saving is safe -/

/-- A data directory that is there, or that can be made where its path leads. -/
def Usable (store : Store) (d : Disk) : Prop :=
  d.find store.directory = .ok .directory ∨ d.IsTree ∧ ".." ∉ store.directory.names

theorem resolve_way {names : List String} (h : names = store.way ∨ names = store.way ++ [""]) :
    resolve q names = resolve q store.way := by
  rcases h with rfl | rfl
  · rfl
  · rw [resolve_append, resolve, List.foldl_cons, List.foldl_nil, next_blank]

theorem prefix_way {names made : List String} (h : names = store.way ∨ names = store.way ++ [""])
    (hm : made <+: names) : ∃ made', made' <+: store.way ∧ resolve q made = resolve q made' := by
  rcases h with rfl | rfl
  · exact ⟨made, hm, rfl⟩
  · rcases List.prefix_concat_iff.mp hm with rfl | hm
    · exact ⟨store.way, List.prefix_rfl, resolve_way (.inr rfl)⟩
    · exact ⟨made, hm, rfl⟩

theorem paved_of_directory (h : d.find store.directory = .ok .directory) : d.Paved (store.origin d) store.way := by
  obtain ⟨hleads, hget⟩ := find_eq_ok.mp h
  rw [origin_directory] at hleads hget
  have hpaved := paved_of_leads hleads hget
  intro made hmade
  rcases store.way_spec.1 with hnames | hnames
  · exact hpaved made (hnames ▸ hmade)
  · exact hpaved made (hnames ▸ hmade.trans (List.prefix_append _ _))

theorem plain_way (h : ".." ∉ store.directory.names) : ".." ∉ store.way := by
  rcases store.way_spec.1 with hnames | hnames
  · exact hnames ▸ h
  · exact fun hmem => h (hnames ▸ List.mem_append_left _ hmem)

theorem prefix_directoryPlace (h : ".." ∉ store.way) {made : List String} (hm : made <+: store.way) :
    resolve (store.origin d) made <+: store.directoryPlace d := by
  obtain ⟨more, hmore⟩ := hm
  rw [directoryPlace, ← hmore, resolve_append]
  exact prefix_resolve fun hmem => h (hmore ▸ List.mem_append_right _ hmem)

theorem Usable.clear (h : store.Usable d) : store.Clear d := by
  intro made hmade phase
  obtain ⟨made', hmade', hresolve⟩ := prefix_way (Path.names_parent (store.names_path .commit)).1 hmade
  rw [hresolve]
  rcases h with hdirectory | ⟨-, hplain⟩
  · exact .inl (paved_of_directory hdirectory made' hmade')
  · refine .inr fun he => ?_
    have hlength := (prefix_directoryPlace (d := d) (plain_way hplain) hmade').length_le
    rw [he, place, List.length_append, List.length_singleton] at hlength
    omega

theorem paved_of_get? (h : store.Usable d) (hg : d.get? (store.place d phase) ≠ none) :
    d.Paved (store.origin d) store.way := by
  rcases h with hdirectory | ⟨htree, hplain⟩
  · exact paved_of_directory hdirectory
  · intro made hmade
    have hparent := htree _ hg
    rw [place, List.dropLast_concat] at hparent
    exact htree.directory_of_prefix hparent (prefix_directoryPlace (plain_way hplain) hmade)

theorem Usable.find_eq_ok {entry : Entry} (h : store.Usable d)
    (hg : d.get? (store.place d phase) = some entry) : d.find (store.path phase) = .ok entry := by
  have hpaved : d.Paved (store.origin d) store.way := paved_of_get? h (hg ▸ Option.some_ne_none entry)
  refine Disk.find_eq_ok.mpr ⟨?_, ?_⟩
  · rw [origin_path, names_path]
    exact hpaved.leads
  · rw [resolve_path]
    exact hg

theorem Usable.absent (h : store.Usable d) (hh : d.holds (store.path phase) = false) :
    d.get? (store.place d phase) = none := by
  cases hg : d.get? (store.place d phase) with
  | none => rfl
  | some entry =>
    rw [holds_eq_true.mpr ⟨entry, h.find_eq_ok hg⟩] at hh
    cases hh

theorem holds_eq_false (h : d.get? (store.place d phase) = none) : d.holds (store.path phase) = false := by
  refine Bool.eq_false_iff.mpr fun hh => ?_
  obtain ⟨entry, hentry⟩ := holds_eq_true.mp hh
  have hget := (find_eq_ok.mp hentry).2
  rw [resolve_path, h] at hget
  cases hget

theorem read_of_keeps {content : Bytes} (hk : Keeps d e)
    (hs : e.get? (store.place d phase) = d.get? (store.place d phase))
    (hr : d.read (store.path phase) = .ok content) : e.read (store.path phase) = .ok content := by
  rw [← resolve_path] at hs
  exact hk.read hs hr

theorem Usable.toOption_read (h : store.Usable d) (hk : Keeps d e)
    (hs : e.get? (store.place d phase) = d.get? (store.place d phase)) :
    (e.read (store.path phase)).toOption = (d.read (store.path phase)).toOption := by
  cases hr : d.read (store.path phase) with
  | ok content => rw [read_of_keeps hk hs hr]
  | error fault =>
    cases he : e.read (store.path phase) with
    | error fault => rfl
    | ok content =>
      have hget := (Disk.find_eq_ok.mp (read_eq_ok.mp he)).2
      rw [resolve_path, place_keeps hk, hs] at hget
      rw [read_eq_ok.mpr (h.find_eq_ok hget)] at hr
      cases hr

theorem Usable.load_of_keeps (h : store.Usable d) (hk : Keeps d e)
    (hs : e.get? (store.place d phase) = d.get? (store.place d phase)) {g : Genesis} {s : State}
    (hl : store.load d phase g = .ok s) : store.load e phase g = .ok s := by
  rcases load_cases hl with ⟨hholds, rfl⟩ | ⟨content, decoded, hread, hdecode, rfl⟩
  · apply load_of_absent
    apply holds_eq_false
    rw [place_keeps hk, hs]
    exact h.absent hholds
  · exact load_of_read (read_of_keeps hk hs hread) hdecode g

end Store

end StakeLedger
