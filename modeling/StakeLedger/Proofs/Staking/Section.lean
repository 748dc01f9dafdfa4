import Mathlib.Data.List.Nodup
import StakeLedger.Proofs.Json.Agreement
import StakeLedger.Proofs.State.Store

/-!
Where the application state of a genesis document has its staking parameters, and what becomes of it when it
has none. Main statement: `Store.staking_fresh`.
-/

namespace StakeLedger

open Json Codec

namespace Json

mutual

theorem keysDistinct_toTree {j : Json} (h : j.isCanonical = true) : j.toTree.keysDistinct = true := by
  cases j with
  | list items => exact itemsDistinct_itemTrees h
  | record ms =>
    rw [isCanonical, Bool.and_eq_true] at h
    rw [toTree, Tree.keysDistinct, Bool.and_eq_true, decide_eq_true_eq, map_fst_memberTrees]
    exact ⟨(nodup_of_ascending h.1).map (Option.some_injective String), membersDistinct_memberTrees h.2⟩
  | _ => rfl

theorem itemsDistinct_itemTrees {items : List Json} (h : itemsCanonical items = true) :
    itemsDistinct (itemTrees items) = true := by
  cases items with
  | nil => rfl
  | cons x xs =>
    rw [itemsCanonical, Bool.and_eq_true] at h
    rw [itemTrees, itemsDistinct, keysDistinct_toTree h.1, itemsDistinct_itemTrees h.2]
    rfl

theorem membersDistinct_memberTrees {ms : List (String × Json)} (h : membersCanonical ms = true) :
    membersDistinct (memberTrees ms) = true := by
  cases ms with
  | nil => rfl
  | cons m ms =>
    rw [membersCanonical, Bool.and_eq_true] at h
    rw [memberTrees, membersDistinct, keysDistinct_toTree h.1, membersDistinct_memberTrees h.2]
    rfl

end

end Json

theorem Codec.Agrees.read_toTree {α : Type} {c : Codec α} (hc : c.Agrees) {room : Nat} {j : Json} {x : α}
    (hj : j.isCanonical = true) (hd : j.depth ≤ room) : c.read room j.toTree = .ok x ↔ c.ofJson j = .ok x :=
  (hc.read (value_toTree room j hj hd) (keysDistinct_toTree hj) (Nat.le_refl _)).symm

namespace Staking

theorem Deployment.agrees : Deployment.codec.Agrees :=
  .record (by decide) ⟨agrees_text.optional, agrees_opaqueValue.list, trivial⟩

theorem Networks.agrees : Networks.codec.Agrees := .record (by decide) ⟨Deployment.agrees.optional, trivial⟩

theorem Params.agrees : Params.codec.Agrees :=
  .record (by decide) ⟨agrees_opaqueValue.optional, Networks.agrees.optional, trivial⟩

def section? : Json → Option Json
  | .record members => members.lookup "staking"
  | .list [x] => some x
  | _ => none

variable {room : Nat} {j : Json} {p : Params}

theorem read_optional_iff {t : Tree} :
    (optional Params.codec).read room t = .ok (some p) ↔ Params.codec.read room t = .ok p := by
  by_cases ht : t = .null
  · subst ht
    exact ⟨nofun, nofun⟩
  · rw [read_optional ht, map_eq_ok]
    simp

theorem read_section {x : Json} (hx : x.isCanonical = true) (hd : x.depth ≤ room) :
    (optional Params.codec).read room x.toTree = .ok (some p) ↔ Params.codec.ofJson x = .ok p :=
  read_optional_iff.trans (Params.agrees.read_toTree hx hd)

def applicationFields : Fields [Option Params] := .cons (.orElse "staking" (.optional Params.codec) none) .nil

theorem ofJson_iff {staking : Option Params} :
    ApplicationParams.codec.ofJson j = .ok ⟨staking⟩ ↔ applicationFields.read j.depth j.toTree = .ok (staking, ()) := by
  change (applicationFields.read j.depth j.toTree).map _ = _ ↔ _
  rw [map_eq_ok]
  constructor
  · rintro ⟨⟨staking, _⟩, hread, he⟩
    cases he
    exact hread
  · exact fun hread => ⟨_, hread, rfl⟩

theorem readItems_section {items : List Json} (hitems : itemsCanonical items = true) (hd : depthItems items ≤ room) :
    applicationFields.readItems room (itemTrees items) true = .ok (some p, ()) ↔
      ∃ x, section? (.list items) = some x ∧ Params.codec.ofJson x = .ok p := by
  cases items with
  | nil =>
    refine ⟨nofun, ?_⟩
    rintro ⟨_, hx, -⟩
    cases hx
  | cons x items =>
    rw [itemsCanonical, Bool.and_eq_true] at hitems
    rw [depthItems, Nat.max_le] at hd
    rw [itemTrees, applicationFields, Fields.readItems, bind_eq_ok]
    cases items with
    | nil =>
      constructor
      · rintro ⟨staking, hread, he⟩
        cases he
        exact ⟨x, rfl, (read_section hitems.1 hd.1).mp hread⟩
      · rintro ⟨x', hx, hread⟩
        cases hx
        exact ⟨some p, (read_section hitems.1 hd.1).mpr hread, rfl⟩
    | cons y items =>
      constructor
      · rintro ⟨_, -, he⟩
        cases he
      · rintro ⟨_, hx, -⟩
        cases hx

theorem readMembers_section {ms : List (String × Json)} (ha : ascending ms = true) (hms : membersCanonical ms = true)
    (hd : depthMembers ms ≤ room) :
    applicationFields.readMembers room (memberTrees ms) true = .ok (some p, ()) ↔
      ∃ x, section? (.record ms) = some x ∧ Params.codec.ofJson x = .ok p := by
  have hnames : applicationFields.names.Nodup := by decide
  rw [Fields.readMembers_iff hnames (told_memberTrees (nodup_of_ascending ha)), section?]
  change Field.Picks _ _ (.orElse "staking" (optional Params.codec) none) _ ∧ True ↔ _
  have hlookup : (memberTrees ms).lookup (some (Field.orElse "staking" (optional Params.codec) none).name) =
      (ms.lookup "staking").map toTree := lookup_memberTrees ms "staking"
  rw [and_true]
  cases hl : ms.lookup "staking" with
  | none =>
    rw [hl] at hlookup
    rw [Field.picks_of_lookup_eq_none hlookup]
    refine ⟨nofun, ?_⟩
    rintro ⟨_, hx, -⟩
    cases hx
  | some x =>
    have hmem := mem_of_lookup hl
    have hdepth : x.depth ≤ room := Nat.le_trans (depth_le_of_mem hmem) hd
    rw [hl] at hlookup
    rw [Field.picks_of_lookup_eq_some hlookup]
    refine (read_section (canonical_of_mem hms hmem) hdepth).trans ⟨fun h => ⟨x, rfl, h⟩, ?_⟩
    rintro ⟨x', hx, h⟩
    exact Option.some.inj hx ▸ h

theorem ofJson_staking (hj : j.isCanonical = true) :
    ApplicationParams.codec.ofJson j = .ok ⟨some p⟩ ↔ ∃ x, section? j = some x ∧ Params.codec.ofJson x = .ok p := by
  rw [ofJson_iff]
  cases j with
  | list items =>
    rw [depth, toTree, Fields.read, if_neg (Nat.succ_ne_zero _)]
    exact readItems_section hj (Nat.le_refl _)
  | record ms =>
    rw [isCanonical, Bool.and_eq_true] at hj
    rw [depth, toTree, Fields.read, if_neg (Nat.succ_ne_zero _)]
    exact readMembers_section hj.1 hj.2 (Nat.le_refl _)
  | _ =>
    constructor
    · intro h
      cases h
    · rintro ⟨_, hx, -⟩
      cases hx

end Staking

namespace Store

theorem staking_fresh (store : Store) (phase : Phase) (g : Genesis) : (store.fresh phase g).staking =
    (Staking.section? g.appState.value).bind fun x => (Staking.Params.codec.ofJson x).toOption := by
  have hfresh : ∀ p, (store.fresh phase g).staking = some p ↔ g.applicationParams = .ok ⟨some p⟩ := by
    intro p
    rw [fresh]
    cases g.applicationParams with
    | error e =>
      constructor
      · intro h
        cases h
      · intro h
        cases h
    | ok params =>
      obtain ⟨staking⟩ := params
      exact ⟨fun h => congrArg (Except.ok ∘ Staking.ApplicationParams.mk) h, fun h => by cases h; rfl⟩
  have hparams : ∀ p, g.applicationParams = .ok ⟨some p⟩ ↔
      ∃ x, Staking.section? g.appState.value = some x ∧ Staking.Params.codec.ofJson x = .ok p := by
    intro p
    rw [Genesis.applicationParams]
    cases hvalue : g.appState.value with
    | null =>
      constructor
      · intro h
        cases h
      · rintro ⟨_, hx, -⟩
        cases hx
    | _ => exact Staking.ofJson_staking (hvalue ▸ g.appState.canonical)
  ext p
  rw [hfresh, hparams, Option.bind_eq_some_iff]
  refine exists_congr fun x => and_congr_right fun _ => ?_
  cases Staking.Params.codec.ofJson x with
  | error e =>
    constructor
    · intro h
      cases h
    · intro h
      cases h
  | ok params => exact ⟨fun h => congrArg some (Except.ok.inj h), fun h => congrArg Except.ok (Option.some.inj h)⟩

end Store

end StakeLedger
