import Mathlib.Data.List.Nodup

/-!
# One chosen item for each owner

Items stand in the order of their keys, each belongs to an owner, and at most one of an owner's
items is the one chosen for it. Choosing releases what was chosen before; settling chooses an
owner's first item where it has items and none is chosen. Nothing here names an application.
-/

namespace CFactory.Base

universe u

/-- An item, and the owner it is chosen for. -/
structure Item (ω : Type u) where
  key : Nat
  owner : ω
  chosenFor : Option ω
  deriving DecidableEq

namespace Item

variable {ω : Type u} [DecidableEq ω]

/-- Nothing is chosen for the owner any more. -/
def release (items : List (Item ω)) (o : ω) : List (Item ω) :=
  items.map fun i ↦ if i.chosenFor = some o then { i with chosenFor := none } else i

/-- The item of this key is chosen for the owner, and no other. -/
def choose (items : List (Item ω)) (o : ω) (key : Nat) : List (Item ω) :=
  (release items o).map fun i ↦ if i.key = key then { i with chosenFor := some o } else i

/-- The owner's first item is chosen where none of its items is. -/
def settle (items : List (Item ω)) (o : ω) : List (Item ω) :=
  match items.filter fun i ↦ i.owner = o with
  | [] => items
  | first :: rest =>
    if (first :: rest).any (·.chosenFor.isSome) then items else choose items o first.key

/-- The keys ascend, an item is chosen for no owner but its own, and at most one for each. -/
structure Orderly (items : List (Item ω)) : Prop where
  sorted : (items.map key).Pairwise (· < ·)
  own : ∀ i ∈ items, ∀ o, i.chosenFor = some o → i.owner = o
  single : ∀ i ∈ items, ∀ j ∈ items, ∀ o, i.chosenFor = some o → j.chosenFor = some o →
    i.key = j.key

/-- The owner has no items, or one of them is chosen. -/
def Settled (items : List (Item ω)) (o : ω) : Prop :=
  (∀ i ∈ items, i.owner ≠ o) ∨ ∃ i ∈ items, i.chosenFor = some o

variable {items : List (Item ω)} {o o' : ω}

omit [DecidableEq ω] in
theorem orderly_nil : Orderly ([] : List (Item ω)) where
  sorted := List.Pairwise.nil
  own := by simp
  single := by simp

omit [DecidableEq ω] in
/-- An item is known by its key. -/
theorem Orderly.eq_of_key (h : Orderly items) {i j : Item ω} (hi : i ∈ items) (hj : j ∈ items)
    (hkey : i.key = j.key) : i = j := by
  have hnodup : (items.map key).Nodup := h.sorted.imp Nat.ne_of_lt
  exact List.inj_on_of_nodup_map hnodup hi hj hkey

omit [DecidableEq ω] in
/-- Items that go leave the rest orderly. -/
theorem Orderly.sublist (h : Orderly items) {kept : List (Item ω)} (hkept : kept.Sublist items) :
    Orderly kept where
  sorted := h.sorted.sublist (hkept.map key)
  own := fun i hi ↦ h.own i (hkept.subset hi)
  single := fun i hi j hj ↦ h.single i (hkept.subset hi) j (hkept.subset hj)

omit [DecidableEq ω] in
/-- A new item above all others that is not chosen. -/
theorem Orderly.add (h : Orderly items) {i : Item ω} (habove : ∀ j ∈ items, j.key < i.key)
    (hnone : i.chosenFor = none) : Orderly (items ++ [i]) where
  sorted := by
    rw [List.map_append, List.pairwise_append]
    refine ⟨h.sorted, List.pairwise_singleton _ _, ?_⟩
    intro a ha b hb
    obtain ⟨j, hj, rfl⟩ := List.mem_map.mp ha
    rw [List.map_singleton, List.mem_singleton] at hb
    exact hb ▸ habove j hj
  own := by
    intro j hj o ho
    cases List.mem_append.mp hj with
    | inl hold => exact h.own j hold o ho
    | inr hnew =>
      rw [List.mem_singleton.mp hnew, hnone] at ho
      cases ho
  single := by
    have hold : ∀ j ∈ items ++ [i], ∀ o, j.chosenFor = some o → j ∈ items := by
      intro j hj o ho
      cases List.mem_append.mp hj with
      | inl hold => exact hold
      | inr hnew =>
        rw [List.mem_singleton.mp hnew, hnone] at ho
        cases ho
    intro j hj k hk o hjo hko
    exact h.single j (hold j hj o hjo) k (hold k hk o hko) o hjo hko

/-- A released item. -/
private theorem mem_release {j : Item ω} (hj : j ∈ release items o) :
    ∃ i ∈ items, j.key = i.key ∧ j.owner = i.owner ∧ j.chosenFor ≠ some o ∧
      (∀ p, p ≠ o → (j.chosenFor = some p ↔ i.chosenFor = some p)) := by
  obtain ⟨i, hi, rfl⟩ := List.mem_map.mp hj
  refine ⟨i, hi, ?_⟩
  by_cases ho : i.chosenFor = some o
  · rw [if_pos ho]
    refine ⟨rfl, rfl, by simp, fun p hp ↦ ?_⟩
    rw [ho]
    simp [hp.symm]
  · rw [if_neg ho]
    exact ⟨rfl, rfl, ho, fun _ _ ↦ Iff.rfl⟩

omit [DecidableEq ω] in
private theorem map_key {f : Item ω → Item ω} (hf : ∀ i, (f i).key = i.key) :
    (items.map f).map key = items.map key := by
  rw [List.map_map]
  exact List.map_congr_left fun i _ ↦ hf i

@[simp] theorem map_key_release : (release items o).map key = items.map key := by
  apply map_key
  intro i
  split <;> rfl

@[simp] theorem map_key_choose {k : Nat} : (choose items o k).map key = items.map key := by
  rw [choose, map_key, map_key_release]
  intro i
  split <;> rfl

/-- Releasing keeps the items orderly. -/
theorem Orderly.release (h : Orderly items) (o : ω) : Orderly (release items o) where
  sorted := by rw [map_key_release]; exact h.sorted
  own := by
    intro j hj p hp
    obtain ⟨i, hi, -, howner, hne, hiff⟩ := mem_release hj
    have hpo : p ≠ o := fun heq ↦ hne (heq ▸ hp)
    rw [howner]
    exact h.own i hi p ((hiff p hpo).mp hp)
  single := by
    intro j hj k hk p hjp hkp
    obtain ⟨i, hi, hikey, -, hne, hiff⟩ := mem_release hj
    obtain ⟨l, hl, hlkey, -, -, hiff'⟩ := mem_release hk
    have hpo : p ≠ o := fun heq ↦ hne (heq ▸ hjp)
    rw [hikey, hlkey]
    exact h.single i hi l hl p ((hiff p hpo).mp hjp) ((hiff' p hpo).mp hkp)

/-- After releasing, nothing is chosen for the owner. -/
theorem not_chosen_release {j : Item ω} (hj : j ∈ release items o) : j.chosenFor ≠ some o := by
  obtain ⟨-, -, -, -, hne, -⟩ := mem_release hj
  exact hne

/-- Choosing one of the owner's items keeps the items orderly. -/
theorem Orderly.choose (h : Orderly items) {k : Nat} (hk : ∀ i ∈ items, i.key = k → i.owner = o) :
    Orderly (choose items o k) := by
  have hreleased := h.release o
  have howned : ∀ j ∈ Item.release items o, j.key = k → j.owner = o := by
    intro j hj hkey
    obtain ⟨i, hi, hikey, howner, -⟩ := mem_release hj
    rw [howner]
    exact hk i hi (hikey ▸ hkey)
  constructor
  · rw [map_key_choose]
    exact h.sorted
  · intro j hj p hp
    obtain ⟨i, hi, rfl⟩ := List.mem_map.mp hj
    by_cases hkey : i.key = k
    · rw [if_pos hkey] at hp ⊢
      cases hp
      exact howned i hi hkey
    · rw [if_neg hkey] at hp ⊢
      exact hreleased.own i hi p hp
  · intro j hj l hl p hjp hlp
    obtain ⟨i, hi, rfl⟩ := List.mem_map.mp hj
    obtain ⟨m, hm, rfl⟩ := List.mem_map.mp hl
    by_cases hikey : i.key = k
    · by_cases hmkey : m.key = k
      · rw [if_pos hikey, if_pos hmkey]
        exact hikey.trans hmkey.symm
      · rw [if_pos hikey] at hjp
        rw [if_neg hmkey] at hlp
        cases hjp
        exact absurd hlp (not_chosen_release hm)
    · by_cases hmkey : m.key = k
      · rw [if_neg hikey] at hjp
        rw [if_pos hmkey] at hlp
        cases hlp
        exact absurd hjp (not_chosen_release hi)
      · rw [if_neg hikey] at hjp ⊢
        rw [if_neg hmkey] at hlp ⊢
        exact hreleased.single i hi m hm p hjp hlp

/-- Choosing an item settles the owner. -/
theorem settled_choose {k : Nat} (hk : ∃ i ∈ items, i.key = k) : Settled (choose items o k) o := by
  obtain ⟨i, hi, hkey⟩ := hk
  right
  have hreleased : ∃ j ∈ release items o, j.key = k := by
    have hmem : k ∈ (release items o).map key := by
      rw [map_key_release]
      exact List.mem_map.mpr ⟨i, hi, hkey⟩
    exact List.mem_map.mp hmem
  obtain ⟨j, hj, hjkey⟩ := hreleased
  exact ⟨_, List.mem_map_of_mem hj, by rw [if_pos hjkey]⟩

/-- Releasing for one owner leaves another as it was. -/
theorem settled_release_other (h : o' ≠ o) : Settled (release items o) o' ↔ Settled items o' := by
  have hforward : ∀ j ∈ release items o, ∃ i ∈ items, j.owner = i.owner ∧
      (j.chosenFor = some o' ↔ i.chosenFor = some o') := by
    intro j hj
    obtain ⟨i, hi, -, howner, -, hiff⟩ := mem_release hj
    exact ⟨i, hi, howner, hiff o' h⟩
  have hback : ∀ i ∈ items, ∃ j ∈ release items o, j.owner = i.owner ∧
      (i.chosenFor = some o' → j.chosenFor = some o') := by
    intro i hi
    refine ⟨_, List.mem_map_of_mem hi, ?_, ?_⟩
    · split <;> rfl
    · intro hchosen
      rw [if_neg]
      · exact hchosen
      · rw [hchosen]
        exact fun heq ↦ h (Option.some.inj heq)
  constructor
  · rintro (hnone | ⟨j, hj, hchosen⟩)
    · left
      intro i hi
      obtain ⟨j, hj, howner, -⟩ := hback i hi
      rw [← howner]
      exact hnone j hj
    · obtain ⟨i, hi, -, hiff⟩ := hforward j hj
      exact .inr ⟨i, hi, hiff.mp hchosen⟩
  · rintro (hnone | ⟨i, hi, hchosen⟩)
    · left
      intro j hj
      obtain ⟨i, hi, howner, -⟩ := hforward j hj
      rw [howner]
      exact hnone i hi
    · obtain ⟨j, hj, -, himp⟩ := hback i hi
      exact .inr ⟨j, hj, himp hchosen⟩

/-- Choosing one of an owner's items leaves another owner as it was. -/
theorem settled_choose_other (h : o' ≠ o) {k : Nat} (horderly : Orderly items)
    (hk : ∀ i ∈ items, i.key = k → i.owner = o) (hsettled : Settled items o') :
    Settled (choose items o k) o' := by
  rcases (settled_release_other h).mpr hsettled with hnone | ⟨j, hj, hchosen⟩
  · left
    intro l hl
    obtain ⟨j, hj, rfl⟩ := List.mem_map.mp hl
    have hj' := hnone j hj
    split <;> exact hj'
  · right
    refine ⟨_, List.mem_map_of_mem hj, ?_⟩
    rw [if_neg]
    · exact hchosen
    · intro hkey
      obtain ⟨i, hi, hikey, howner, -⟩ := mem_release hj
      have hjo' := (horderly.release o).own j hj o' hchosen
      exact h (hjo'.symm.trans (howner.trans (hk i hi (hikey ▸ hkey))))

/-- Settling keeps the items orderly. -/
theorem Orderly.settle (h : Orderly items) (o : ω) : Orderly (settle items o) := by
  rw [Item.settle]
  split
  · exact h
  · next first rest howned =>
    split
    · exact h
    · have hfirst : first ∈ items.filter fun i ↦ i.owner = o := howned ▸ List.mem_cons_self
      obtain ⟨hmem, howner⟩ := List.mem_filter.mp hfirst
      apply h.choose
      intro i hi hkey
      rw [h.eq_of_key hi hmem hkey]
      exact of_decide_eq_true howner

/-- Settling an owner settles it. -/
theorem settled_settle (h : Orderly items) : Settled (settle items o) o := by
  rw [settle]
  split
  · next howned =>
    left
    intro i hi howner
    have hmem : i ∈ items.filter fun i ↦ i.owner = o :=
      List.mem_filter.mpr ⟨hi, decide_eq_true howner⟩
    rw [howned] at hmem
    cases hmem
  · next first rest howned =>
    split
    · next hany =>
      right
      obtain ⟨i, hi, hchosen⟩ := List.any_eq_true.mp hany
      rw [← howned] at hi
      obtain ⟨hmem, howner⟩ := List.mem_filter.mp hi
      obtain ⟨p, hp⟩ := Option.isSome_iff_exists.mp hchosen
      have hpo : p = o := (h.own i hmem p hp).symm.trans (of_decide_eq_true howner)
      exact ⟨i, hmem, hpo ▸ hp⟩
    · have hfirst : first ∈ items.filter fun i ↦ i.owner = o := howned ▸ List.mem_cons_self
      exact settled_choose ⟨first, List.mem_of_mem_filter hfirst, rfl⟩

/-- Settling one owner leaves another as it was. -/
theorem settled_settle_other (h : o' ≠ o) (horderly : Orderly items) (hsettled : Settled items o') :
    Settled (settle items o) o' := by
  rw [settle]
  split
  · exact hsettled
  · next first rest howned =>
    split
    · exact hsettled
    · have hfirst : first ∈ items.filter fun i ↦ i.owner = o := howned ▸ List.mem_cons_self
      obtain ⟨hmem, howner⟩ := List.mem_filter.mp hfirst
      apply settled_choose_other h horderly _ hsettled
      intro i hi hkey
      rw [horderly.eq_of_key hi hmem hkey]
      exact of_decide_eq_true howner

omit [DecidableEq ω] in
/-- An owner whose items all stay is as settled as before. -/
theorem settled_sublist {kept : List (Item ω)} (hkept : kept.Sublist items)
    (hstay : ∀ i ∈ items, i.owner = o → i ∈ kept) (h : Orderly items)
    (hsettled : Settled items o) : Settled kept o := by
  rcases hsettled with hnone | ⟨i, hi, hchosen⟩
  · exact .inl fun i hi ↦ hnone i (hkept.subset hi)
  · exact .inr ⟨i, hstay i hi (h.own i hi o hchosen), hchosen⟩

omit [DecidableEq ω] in
/-- A new item of one owner leaves another as it was. -/
theorem settled_add_other {i : Item ω} (hi : i.owner ≠ o) (hsettled : Settled items o) :
    Settled (items ++ [i]) o := by
  rcases hsettled with hnone | ⟨j, hj, hchosen⟩
  · left
    intro j hj
    cases List.mem_append.mp hj with
    | inl hold => exact hnone j hold
    | inr hnew => exact List.mem_singleton.mp hnew ▸ hi
  · exact .inr ⟨j, List.mem_append_left _ hj, hchosen⟩

end Item

end CFactory.Base
