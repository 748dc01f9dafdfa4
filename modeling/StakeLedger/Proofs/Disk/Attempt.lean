import StakeLedger.Proofs.Disk.Place

/-! Actions on a disk that may fail or be cut short by a crash. A rename takes effect or does not, writing
touches nothing but the file that is written, and of directories some may have been made. -/

namespace StakeLedger.Disk

inductive Breaks (d : Disk) : Action → Disk → Prop
  | untouched (a : Action) : Breaks d a d
  | directories (p : Path) (made : List String) (h : made <+: p.names) (g : Disk × Place)
      (hg : made.foldlM createStep (d, d.origin p) = .ok g) : Breaks d (.createDirectories p) g.1
  | written (p : Path) (content part : Bytes) (e : Disk) (h : d.write p part = .ok e) :
    Breaks d (.write p content) e

inductive Performs : List Action → Disk → Disk → Option Fault → Prop
  | done (d : Disk) : Performs [] d d none
  | next {a : Action} {rest : List Action} {d e f : Disk} {fault : Option Fault} (h : d.perform a = .ok e)
      (hrest : Performs rest e f fault) : Performs (a :: rest) d f fault
  | fails {a : Action} {rest : List Action} {d e : Disk} (h : d.Breaks a e) (fault : Fault) :
    Performs (a :: rest) d e (some fault)

variable {d e : Disk} {p source target : Path} {content : Bytes} {a : Action} {rest : List Action}
  {fault : Option Fault}

theorem performs_performAll (actions : List Action) (d : Disk) :
    Performs actions d (d.performAll actions).1 (d.performAll actions).2 := by
  induction actions generalizing d with
  | nil => exact .done d
  | cons a rest ih =>
    rw [performAll]
    cases h : d.perform a with
    | error fault => exact .fails (.untouched a) fault
    | ok e => exact .next h (ih e)

/-! ### Single actions -/

theorem perform_createDirectories : d.perform (.createDirectories p) = d.createDirectories p := rfl

theorem perform_write : d.perform (.write p content) = d.write p content := rfl

theorem perform_rename : d.perform (.rename source target) = d.rename source target := rfl

theorem createDirectories_eq_ok (h : d.createDirectories p = .ok e) :
    ∃ place, p.names.foldlM createStep (d, d.origin p) = .ok (e, place) := by
  rw [createDirectories] at h
  split at h
  · next e' place he =>
    cases h
    exact ⟨place, he⟩
  · cases h
  · cases h

theorem write_eq_ok (h : d.write p content = .ok e) : Keeps d e ∧
    d.get? (resolve (d.origin p) p.names) ≠ some .directory ∧
      e = d.put (resolve (d.origin p) p.names) (.file content) := by
  obtain ⟨place, hplace, hwrite⟩ := bind_eq_ok.mp h
  obtain ⟨-, rfl⟩ := place_eq_ok.mp hplace
  have hput : d.get? (resolve (d.origin p) p.names) ≠ some .directory ∧
      e = d.put (resolve (d.origin p) p.names) (.file content) := by
    split at hwrite
    · cases hwrite
    · next hget =>
      cases hwrite
      exact ⟨fun hd => (nomatch hget.symm.trans hd), rfl⟩
    · next hget =>
      split at hwrite
      · cases hwrite
        exact ⟨fun hd => (nomatch hget.symm.trans hd), rfl⟩
      · cases hwrite
  obtain ⟨hfree, rfl⟩ := hput
  exact ⟨keeps_put hfree _, hfree, rfl⟩

theorem rename_eq_ok (h : d.rename source target = .ok e) : Keeps d e ∧
    ∃ content, d.get? (resolve (d.origin source) source.names) = some (.file content) ∧
      e.find target = .ok (.file content) ∧
      ∀ q, q ≠ resolve (d.origin source) source.names → q ≠ resolve (d.origin target) target.names →
        e.get? q = d.get? q := by
  obtain ⟨start, hstart, hrest⟩ := bind_eq_ok.mp h
  obtain ⟨goal, hgoal, hrename⟩ := bind_eq_ok.mp hrest
  obtain ⟨-, rfl⟩ := place_eq_ok.mp hstart
  obtain ⟨hleads, rfl⟩ := place_eq_ok.mp hgoal
  split at hrename
  · cases hrename
  · cases hrename
  · next content hsource =>
    split at hrename
    · cases hrename
    · next hfree =>
      cases hrename
      have herase := keeps_erase fun hd => nomatch hsource.symm.trans hd
      have hplain : (d.erase (resolve (d.origin source) source.names)).get?
          (resolve (d.origin target) target.names) ≠ some .directory := by
        by_cases hsame : resolve (d.origin target) target.names = resolve (d.origin source) source.names
        · rw [hsame, get?_erase_self (ne_nil_of_get? fun hd => nomatch hsource.symm.trans hd)]
          exact nofun
        · rw [get?_erase_ne hsame]
          exact hfree
      have hkeeps := herase.trans (keeps_put hplain (.file content))
      refine ⟨hkeeps, content, hsource, find_eq_ok.mpr ⟨?_, ?_⟩, fun q hq hq' => ?_⟩
      · exact hkeeps.leads hleads
      · exact get?_put_self (ne_nil_of_get? hplain)
      · rw [get?_put_ne (ne_nil_of_get? hplain) hq', get?_erase_ne hq]

theorem Breaks.keeps (h : d.Breaks a e) : Keeps d e := by
  cases h with
  | untouched a => exact .refl d
  | directories p made _ g hg => exact (createSteps_eq_ok hg).1
  | written p content part _ h => exact (write_eq_ok h).1

/-! ### Files -/

def SameFiles (d e : Disk) : Prop := ∀ q content, e.get? q = some (.file content) ↔ d.get? q = some (.file content)

theorem SameFiles.refl (d : Disk) : SameFiles d d := fun _ _ => Iff.rfl

theorem SameFiles.trans {f : Disk} (h : SameFiles d e) (h' : SameFiles e f) : SameFiles d f :=
  fun q content => (h' q content).trans (h q content)

theorem sameFiles_put_directory {q : Place} (hq : d.get? q = none) : SameFiles d (d.put q .directory) := by
  have hne : q ≠ [] := ne_nil_of_get? fun h => nomatch hq.symm.trans h
  intro place content
  by_cases h : place = q
  · rw [h, get?_put_self hne, hq]
    exact ⟨nofun, nofun⟩
  · rw [get?_put_ne hne h]

theorem sameFiles_createSteps {here : Place} {names : List String} {g : Disk × Place}
    (h : names.foldlM createStep (d, here) = .ok g) : SameFiles d g.1 := by
  induction names generalizing d here with
  | nil =>
    cases h
    exact .refl d
  | cons name names ih =>
    rw [List.foldlM_cons] at h
    obtain ⟨⟨e, place⟩, hstep, hrest⟩ := bind_eq_ok.mp h
    obtain ⟨-, -, ⟨heq, -⟩ | ⟨hfree, heq⟩⟩ := createStep_eq_ok hstep
    · exact heq ▸ ih hrest
    · exact (heq ▸ sameFiles_put_directory hfree).trans (ih hrest)

theorem sameFiles_of_performs (h : Performs [.createDirectories p] d e fault) : SameFiles d e := by
  cases h with
  | next hmade hrest =>
    cases hrest
    obtain ⟨place, hsteps⟩ := createDirectories_eq_ok hmade
    exact sameFiles_createSteps hsteps
  | fails hbreaks fault =>
    cases hbreaks with
    | untouched a => exact .refl d
    | directories p made _ g hg => exact sameFiles_createSteps hg

end StakeLedger.Disk
