import CFactory.Base.Extremes
import CFactory.Cards.Store

/-!
# The unique indexes of the card table

`cards.py:250–258,841–908`. What the three unique indexes keep true of every table: one row
per primary key, per card key of a tenant and per issue of a tenant. A created card takes a
key that no row of the scope carries, so only a body that fails its validation, an unreadable
key or an issue already held refuses it.
-/

namespace CFactory.Cards

open CFactory.Base
open CFactory.Model

/-- The unique indexes hold. -/
structure Indexed (t : CardTable) : Prop where
  ids : Keyed t
  keys : ∀ a ∈ t, ∀ b ∈ t, a.card.tenantId = b.card.tenantId →
    a.card.cardKey = b.card.cardKey → a.id = b.id
  refs : ∀ a ∈ t, ∀ b ∈ t, a.card.tenantId = b.card.tenantId → a.card.issueRef.isSome = true →
    a.card.issueRef = b.card.issueRef → a.id = b.id

/-- The scope sees the rows of one tenant: a scoped store, or an unscoped one over a table
that holds the default tenant alone. -/
def OneTenant (scope : Option String) (t : CardTable) : Prop :=
  ∀ r ∈ t, inScope scope r = true → r.card.tenantId = tenantOf scope

theorem oneTenant_scoped (tenant : String) (t : CardTable) : OneTenant (some tenant) t := by
  intro r _ hr
  exact (beq_iff_eq.mp hr).symm

/-- The rows a store writes to are in its scope. -/
theorem inScope_of_tenantOf {scope : Option String} {r : CardRow}
    (h : r.card.tenantId = tenantOf scope) : inScope scope r = true := by
  cases scope with
  | none => rfl
  | some tenant => exact beq_iff_eq.mpr h.symm

/-- A visible row is one in scope that is not deleted. -/
theorem visible_iff {scope : Option String} {r : CardRow} :
    visible scope r = true ↔ inScope scope r = true ∧ r.card.deletedAt = none := by
  rw [visible, Bool.and_eq_true, Option.isNone_iff_eq_none, inScope]

/-! ## Primary keys -/

theorem Indexed.eq_of_id {t : CardTable} (h : Indexed t) {a b : CardRow} (ha : a ∈ t)
    (hb : b ∈ t) (hid : a.id = b.id) : a = b :=
  List.inj_on_of_nodup_map h.ids ha hb hid

/-- A key names one row of the tenant a scope sees. -/
theorem Indexed.eq_of_key {t : CardTable} {scope : Option String} (h : Indexed t)
    (hone : OneTenant scope t) {a b : CardRow} (ha : a ∈ t) (hb : b ∈ t)
    (hsa : inScope scope a = true) (hsb : inScope scope b = true)
    (hkey : a.card.cardKey = b.card.cardKey) : a = b :=
  h.eq_of_id ha hb (h.keys a ha b hb ((hone a ha hsa).trans (hone b hb hsb).symm) hkey)

/-- An issue names one row of the tenant a scope sees. -/
theorem Indexed.eq_of_ref {t : CardTable} {scope : Option String} (h : Indexed t)
    (hone : OneTenant scope t) {a b : CardRow} {ref : String} (ha : a ∈ t) (hb : b ∈ t)
    (hsa : inScope scope a = true) (hsb : inScope scope b = true)
    (hra : a.card.issueRef = some ref) (hrb : b.card.issueRef = some ref) : a = b :=
  h.eq_of_id ha hb
    (h.refs a ha b hb ((hone a ha hsa).trans (hone b hb hsb).symm) (by rw [hra]; rfl)
      (hra.trans hrb.symm))

/-- A fresh primary key is none of those in use. -/
theorem id_ne_freshId {t : CardTable} {r : CardRow} (h : r ∈ t) : r.id ≠ freshId t := by
  have hle := (le_foldl_max (t.map CardRow.id) 0 r.id).mpr
    (.inr ⟨r.id, List.mem_map_of_mem h, le_refl _⟩)
  rw [freshId]
  omega

/-! ## Rows changed in place -/

/-- A row of a modified table is an old row, changed where its key is the one named. -/
theorem mem_modifyRow {t : CardTable} {id : Nat} {f : Card → Card} {q : CardRow} :
    q ∈ modifyRow t id f ↔
      ∃ r ∈ t, q = if r.id = id then { r with card := f r.card } else r := by
  rw [modifyRow, List.mem_map]
  constructor
  · rintro ⟨r, hr, rfl⟩
    exact ⟨r, hr, rfl⟩
  · rintro ⟨r, hr, rfl⟩
    exact ⟨r, hr, rfl⟩

/-- The columns of the unique indexes are left alone. -/
def KeepsKeys (f : Card → Card) : Prop :=
  ∀ c, (f c).tenantId = c.tenantId ∧ (f c).cardKey = c.cardKey ∧ (f c).issueRef = c.issueRef

theorem keepsKeys_apply {ch : CardChanges} {now : Time} (h : ch.issueRef = none) :
    KeepsKeys (ch.apply now) := by
  intro c
  refine ⟨rfl, rfl, ?_⟩
  rw [CardChanges.apply, h]
  rfl

theorem modifyRow_ids (t : CardTable) (id : Nat) (f : Card → Card) :
    (modifyRow t id f).map CardRow.id = t.map CardRow.id := by
  rw [modifyRow, List.map_map]
  apply List.map_congr_left
  intro r _
  by_cases hr : r.id = id
  · simp [hr]
  · simp [hr]

/-- What a change that leaves the indexed columns alone does to one row. -/
private theorem modified_keys {f : Card → Card} (hf : KeepsKeys f) (r : CardRow) (id : Nat) :
    ∃ q : CardRow, (if r.id = id then { r with card := f r.card } else r) = q ∧ q.id = r.id ∧
      q.card.tenantId = r.card.tenantId ∧ q.card.cardKey = r.card.cardKey ∧
        q.card.issueRef = r.card.issueRef := by
  by_cases hr : r.id = id
  · exact ⟨_, if_pos hr, rfl, hf r.card⟩
  · exact ⟨r, if_neg hr, rfl, rfl, rfl, rfl⟩

/-- Such a change keeps the indexes. -/
theorem Indexed.modifyRow {t : CardTable} (h : Indexed t) (id : Nat) {f : Card → Card}
    (hf : KeepsKeys f) : Indexed (modifyRow t id f) where
  ids := by
    rw [Keyed, modifyRow_ids]
    exact h.ids
  keys := by
    intro a ha b hb htenant hkey
    obtain ⟨r, hr, rfl⟩ := mem_modifyRow.mp ha
    obtain ⟨s, hs, rfl⟩ := mem_modifyRow.mp hb
    obtain ⟨a, ha, haid, hat, hak, -⟩ := modified_keys hf r id
    obtain ⟨b, hb, hbid, hbt, hbk, -⟩ := modified_keys hf s id
    rw [ha, hb] at htenant hkey ⊢
    rw [haid, hbid]
    exact h.keys r hr s hs (by rw [← hat, htenant, hbt]) (by rw [← hak, hkey, hbk])
  refs := by
    intro a ha b hb htenant hsome href
    obtain ⟨r, hr, rfl⟩ := mem_modifyRow.mp ha
    obtain ⟨s, hs, rfl⟩ := mem_modifyRow.mp hb
    obtain ⟨a, ha, haid, hat, -, har⟩ := modified_keys hf r id
    obtain ⟨b, hb, hbid, hbt, -, hbr⟩ := modified_keys hf s id
    rw [ha, hb] at htenant href ⊢
    rw [ha] at hsome
    rw [haid, hbid]
    exact h.refs r hr s hs (by rw [← hat, htenant, hbt]) (by rw [← har, hsome])
      (by rw [← har, href, hbr])

/-- No other row holds the issue of a row. -/
theorem Indexed.holdsIssue_self {t : CardTable} (h : Indexed t) {r : CardRow} (hr : r ∈ t) :
    holdsIssue t r.id r.card.tenantId r.card.issueRef = false := by
  cases href : r.card.issueRef with
  | none => rfl
  | some ref =>
    rw [holdsIssue, List.any_eq_false]
    intro q hq
    rw [Bool.not_eq_true, Bool.and_eq_false_iff, Bool.and_eq_false_iff]
    by_cases htenant : q.card.tenantId = r.card.tenantId
    · by_cases hsame : q.card.issueRef = some ref
      · have hid := h.refs q hq r hr htenant (by rw [hsame]; rfl) (by rw [hsame, href])
        exact .inl (.inl (by simp [hid]))
      · exact .inr (by simpa using hsame)
    · exact .inl (.inr (by simpa using htenant))

/-- A row is added whose keys no row of its tenant carries. -/
theorem Indexed.append {t : CardTable} (h : Indexed t) {r : CardRow} (hid : r.id = freshId t)
    (hkey : ∀ q ∈ t, q.card.tenantId = r.card.tenantId → q.card.cardKey ≠ r.card.cardKey)
    (href : ∀ q ∈ t, q.card.tenantId = r.card.tenantId → r.card.issueRef.isSome = true →
      q.card.issueRef ≠ r.card.issueRef) : Indexed (t ++ [r]) where
  ids := by
    rw [Keyed, List.map_append, List.map_singleton, ← List.concat_eq_append]
    apply List.Nodup.concat _ h.ids
    intro hmem
    obtain ⟨q, hq, hqid⟩ := List.mem_map.mp hmem
    exact id_ne_freshId hq (hqid.trans hid)
  keys := by
    intro a ha b hb htenant hsame
    rcases List.mem_append.mp ha with ha | ha
    · rcases List.mem_append.mp hb with hb | hb
      · exact h.keys a ha b hb htenant hsame
      · cases List.mem_singleton.mp hb
        exact absurd hsame (hkey a ha htenant)
    · cases List.mem_singleton.mp ha
      rcases List.mem_append.mp hb with hb | hb
      · exact absurd hsame.symm (hkey b hb htenant.symm)
      · cases List.mem_singleton.mp hb
        rfl
  refs := by
    intro a ha b hb htenant hsome hsame
    rcases List.mem_append.mp ha with ha | ha
    · rcases List.mem_append.mp hb with hb | hb
      · exact h.refs a ha b hb htenant hsome hsame
      · cases List.mem_singleton.mp hb
        exact absurd hsame (href a ha htenant (by rw [← hsame, hsome]))
    · cases List.mem_singleton.mp ha
      rcases List.mem_append.mp hb with hb | hb
      · exact absurd hsame.symm (href b hb htenant.symm hsome)
      · cases List.mem_singleton.mp hb
        rfl

/-- What an update assigns no other row of the tenant holds. -/
theorem updateCard_free {t t' : CardTable} {scope : Option String} {key : String}
    {ch : CardChanges} {now : Time} {r : CardRow} {c : Option Card}
    (hr : getRow t scope key = some r) (h : updateCard t scope key ch now = .ok (c, t')) :
    holdsIssue t r.id r.card.tenantId (ch.apply now r.card).issueRef = false := by
  cases hfree : holdsIssue t r.id r.card.tenantId (ch.apply now r.card).issueRef with
  | false => rfl
  | true =>
    have herror : updateCard t scope key ch now = .error .duplicateIssueRef := by
      rw [updateCard, hr]
      exact if_pos hfree
    rw [herror] at h
    cases h

/-- The unique indexes hold after an update they admitted. -/
theorem indexed_updateCard {t : CardTable} {scope : Option String} {key : String}
    {ch : CardChanges} {now : Time} {r : CardRow} (h : Indexed t)
    (hr : getRow t scope key = some r)
    (hfree : holdsIssue t r.id r.card.tenantId (ch.apply now r.card).issueRef = false) :
    Indexed (modifyRow t r.id (ch.apply now)) where
  ids := by
    rw [Keyed, modifyRow_ids]
    exact h.ids
  keys := by
    intro a ha b hb htenant hkey
    obtain ⟨q, hq, rfl⟩ := mem_modifyRow.mp ha
    obtain ⟨s, hs, rfl⟩ := mem_modifyRow.mp hb
    have hcolumns : ∀ q : CardRow,
        (if q.id = r.id then { q with card := ch.apply now q.card } else q).id = q.id ∧
        (if q.id = r.id then { q with card := ch.apply now q.card } else q).card.tenantId =
          q.card.tenantId ∧
        (if q.id = r.id then { q with card := ch.apply now q.card } else q).card.cardKey =
          q.card.cardKey := by
      intro q
      split <;> exact ⟨rfl, rfl, rfl⟩
    rw [(hcolumns q).1, (hcolumns s).1]
    rw [(hcolumns q).2.1, (hcolumns s).2.1] at htenant
    rw [(hcolumns q).2.2, (hcolumns s).2.2] at hkey
    exact h.keys q hq s hs htenant hkey
  refs := by
    have hother : ∀ q ∈ t, q.id ≠ r.id → q.card.tenantId = r.card.tenantId →
        q.card.issueRef.isSome = true → q.card.issueRef ≠ (ch.apply now r.card).issueRef := by
      intro q hq hid htenant hsome hsame
      obtain ⟨ref, href⟩ := Option.isSome_iff_exists.mp hsome
      rw [← hsame, href, holdsIssue, List.any_eq_false] at hfree
      exact hfree q hq (by simp [hid, htenant, href])
    have hmem := (getRow_spec hr).1
    intro a ha b hb htenant hsome hsame
    obtain ⟨q, hq, rfl⟩ := mem_modifyRow.mp ha
    obtain ⟨s, hs, rfl⟩ := mem_modifyRow.mp hb
    by_cases hqr : q.id = r.id
    · have hq' : q = r := h.eq_of_id hq hmem hqr
      subst hq'
      by_cases hsr : s.id = q.id
      · rw [if_pos rfl, if_pos hsr]
        exact hsr.symm
      · rw [if_pos rfl, if_neg hsr] at htenant hsame
        rw [if_pos rfl] at hsome
        exact absurd hsame.symm (hother s hs hsr htenant.symm (by rw [← hsame]; exact hsome))
    · by_cases hsr : s.id = r.id
      · have hs' : s = r := h.eq_of_id hs hmem hsr
        subst hs'
        rw [if_neg hqr, if_pos rfl] at htenant hsame
        rw [if_neg hqr] at hsome
        exact absurd hsame (hother q hq hqr htenant hsome)
      · rw [if_neg hqr, if_neg hsr] at htenant hsame ⊢
        rw [if_neg hqr] at hsome
        exact h.refs q hq s hs htenant hsome hsame

/-- They hold after every update that did not raise. -/
theorem indexed_updateCard_ok {t t' : CardTable} {scope : Option String} {key : String}
    {ch : CardChanges} {now : Time} {c : Option Card} (h : Indexed t)
    (hupdate : updateCard t scope key ch now = .ok (c, t')) : Indexed t' := by
  rcases updateCard_cases t scope key ch now with ⟨-, hnone⟩ | ⟨r, hr, hrefused | hdone⟩
  · rw [hnone] at hupdate
    cases hupdate
    exact h
  · rw [hrefused] at hupdate
    cases hupdate
  · have hfree := updateCard_free hr hupdate
    rw [hdone] at hupdate
    cases hupdate
    exact indexed_updateCard h hr hfree

/-- A create adds one row, under a key and for an issue that no row of the tenant holds. -/
theorem create_ok_iff {t t' : CardTable} {scope : Option String} {d : CardCreate} {now : Time}
    {c : Card} :
    create t scope d now = .ok (c, t') ↔
      d.valid = true ∧ ∃ key, keyFor t scope d = some key ∧
        holdsKey t (tenantOf scope) key = false ∧
        holdsIssue t (freshId t) (tenantOf scope) d.issueRef = false ∧
        c = d.card (tenantOf scope) key now ∧ t' = t ++ [⟨freshId t, c⟩] := by
  rw [create]
  cases hvalid : d.valid with
  | false => simp
  | true =>
    rw [Bool.not_true, if_neg Bool.false_ne_true]
    cases hfor : keyFor t scope d with
    | none => simp
    | some key =>
      dsimp only
      by_cases htaken : (holdsKey t (tenantOf scope) key ||
          holdsIssue t (freshId t) (tenantOf scope) d.issueRef) = true
      · rw [if_pos htaken]
        apply iff_of_false
        · intro h
          split at h
          · split at h <;> cases h
          · cases h
        · rintro ⟨-, key', hkey', hkey, hissue, -⟩
          cases hkey'
          rw [hkey, hissue] at htaken
          cases htaken
      · rw [if_neg htaken]
        rw [Bool.or_eq_true, not_or, Bool.not_eq_true, Bool.not_eq_true] at htaken
        constructor
        · intro h
          cases h
          exact ⟨rfl, key, rfl, htaken.1, htaken.2, rfl, rfl⟩
        · rintro ⟨-, key', hkey', -, -, rfl, rfl⟩
          cases hkey'
          rfl

/-- So they do after a create. -/
theorem indexed_create {t t' : CardTable} {scope : Option String} {d : CardCreate} {now : Time}
    {c : Card} (h : Indexed t) (hcreate : create t scope d now = .ok (c, t')) : Indexed t' := by
  obtain ⟨-, key, -, hkeys, hissues, rfl, rfl⟩ := create_ok_iff.mp hcreate
  rw [holdsKey, List.any_eq_false] at hkeys
  apply h.append rfl
  · intro q hq htenant hsame
    exact hkeys q hq (by simp [htenant, hsame, CardCreate.card])
  · intro q hq htenant hsome hsame
    have href : (d.card (tenantOf scope) key now).issueRef = d.issueRef := rfl
    rw [href] at hsome hsame
    obtain ⟨ref, hd⟩ := Option.isSome_iff_exists.mp hsome
    rw [hd, holdsIssue, List.any_eq_false] at hissues
    exact hissues q hq (by simp [id_ne_freshId hq, htenant, hsame, hd, CardCreate.card])

/-- And after a write of columns outside the indexes. -/
theorem indexed_update {t : CardTable} {scope : Option String} {key : String} {ch : StageChanges}
    {now : Time} (h : Indexed t) : Indexed (update t scope key ch now).2 := by
  rw [update]
  cases getRow t scope key with
  | none => exact h
  | some r => exact h.modifyRow r.id fun _ ↦ ⟨rfl, rfl, rfl⟩

theorem indexed_deleteCard {t : CardTable} {scope : Option String} {key : String} {now : Time}
    (h : Indexed t) : Indexed (deleteCard t scope key now).2 := by
  rw [deleteCard]
  cases getRow t scope key with
  | none => exact h
  | some r =>
    have hkeeps : KeepsKeys (tombstoned now) := fun _ ↦ ⟨rfl, rfl, rfl⟩
    exact h.modifyRow r.id hkeeps

/-! ## Reading by issue -/

theorem rowByIssueRef_spec {t : CardTable} {scope : Option String} {ref : String} {r : CardRow}
    (h : rowByIssueRef t scope ref = some r) :
    r ∈ t ∧ inScope scope r = true ∧ r.card.issueRef = some ref := by
  have hfound := List.find?_some h
  rw [Bool.and_eq_true, beq_iff_eq] at hfound
  exact ⟨List.mem_of_find?_eq_some h, hfound⟩

/-- The scope holds a card for the issue, a deleted one included. -/
def Holds (t : CardTable) (scope : Option String) (ref : String) : Prop :=
  ∃ r ∈ t, inScope scope r = true ∧ r.card.issueRef = some ref

theorem getByIssueRef_isSome {t : CardTable} {scope : Option String} {ref : String} :
    (getByIssueRef t scope ref).isSome = true ↔ Holds t scope ref := by
  rw [getByIssueRef, Option.isSome_map, rowByIssueRef, List.find?_isSome]
  simp only [Bool.and_eq_true, beq_iff_eq, Holds]

/-- The card read for an issue is the only one. -/
theorem getByIssueRef_eq {t : CardTable} {scope : Option String} (h : Indexed t)
    (hone : OneTenant scope t) {r : CardRow} {ref : String} (hr : r ∈ t)
    (hscope : inScope scope r = true) (href : r.card.issueRef = some ref) :
    getByIssueRef t scope ref = some r.card := by
  obtain ⟨c, hc⟩ := Option.isSome_iff_exists.mp
    (getByIssueRef_isSome.mpr ⟨r, hr, hscope, href⟩)
  rw [hc]
  rw [getByIssueRef, Option.map_eq_some_iff] at hc
  obtain ⟨q, hq, rfl⟩ := hc
  obtain ⟨hqt, hqs, hqr⟩ := rowByIssueRef_spec hq
  rw [h.eq_of_ref hone hqt hr hqs hscope hqr href]

/-- The row a visible card's key finds is its own. -/
theorem Indexed.getRow_self {t : CardTable} {scope : Option String} (h : Indexed t)
    (hone : OneTenant scope t) {r : CardRow} (hr : r ∈ t) (hvisible : visible scope r = true) :
    getRow t scope r.card.cardKey = some r := by
  have hsome : (getRow t scope r.card.cardKey).isSome = true := by
    rw [getRow, List.find?_isSome]
    exact ⟨r, hr, by rw [hvisible, beq_self_eq_true]; rfl⟩
  obtain ⟨q, hq⟩ := Option.isSome_iff_exists.mp hsome
  obtain ⟨hqt, hqvisible, hkey⟩ := getRow_spec hq
  rw [hq, h.eq_of_key hone hqt hr (visible_iff.mp hqvisible).1 (visible_iff.mp hvisible).1 hkey]

/-! ## Assigned keys -/

/-- The decimal digits of the basic alphabet have the values they stand for. -/
theorem digit_spec {c : Char} (h : c.isDigit = true) :
    isDigitChar c = true ∧ decimalValue c = some (c.toNat - 48) := by
  have hc : 48 ≤ c.toNat ∧ c.toNat ≤ 57 := by
    simp only [Char.isDigit, Bool.and_eq_true, decide_eq_true_eq, UInt32.le_iff_toNat_le,
      ge_iff_le] at h
    exact h
  have hvalue : decimalValue c = some (c.toNat - 48) := by
    have hfind : digitZeros.find? (fun z ↦ decide (z ≤ c.toNat) && decide (c.toNat < z + 10)) =
        some 0x30 := by
      rw [digitZeros, List.find?_cons_of_pos]
      simp only [Bool.and_eq_true, decide_eq_true_eq]
      omega
    rw [decimalValue, hfind]
    rfl
  exact ⟨by rw [isDigitChar, hvalue]; rfl, hvalue⟩

/-- A text of such digits is read as the number it spells. -/
theorem intOf_digits (ds : List Char) (h : ∀ c ∈ ds, c.isDigit = true) (n : Nat) :
    ds.foldl (fun acc c ↦ acc.bind fun n ↦ (decimalValue c).map fun d ↦ 10 * n + d) (some n) =
      some (Nat.ofDigitChars 10 ds n) := by
  induction ds generalizing n with
  | nil => rfl
  | cons c rest ih =>
    rw [List.foldl_cons, Option.bind_some, (digit_spec (h c List.mem_cons_self)).2,
      Option.map_some, ih (fun c hc ↦ h c (List.mem_cons_of_mem _ hc))]
    rfl

/-- `int` of a text of digits raises where one of them is no decimal digit. -/
theorem intOf_eq_none_iff (digits : List Char) :
    intOf digits = none ↔ ∃ c ∈ digits, decimalValue c = none := by
  have hfold : ∀ n : Nat, digits.foldl (fun acc c ↦
      acc.bind fun n ↦ (decimalValue c).map fun d ↦ 10 * n + d) (some n) = none ↔
        ∃ c ∈ digits, decimalValue c = none := by
    induction digits with
    | nil => simp
    | cons c rest ih =>
      intro n
      rw [List.foldl_cons, Option.bind_some]
      cases hc : decimalValue c with
      | none =>
        have hraised : rest.foldl (fun acc c ↦
            acc.bind fun n ↦ (decimalValue c).map fun d ↦ 10 * n + d) none = none := by
          clear ih
          induction rest with
          | nil => rfl
          | cons c rest ih => exact ih
        rw [Option.map_none, hraised]
        exact iff_of_true rfl ⟨c, List.mem_cons_self, hc⟩
      | some value =>
        rw [Option.map_some, ih]
        simp [hc]
  exact hfold 0

/-- An assigned key carries its number. -/
theorem keySuffix_assigned (n : Nat) : keySuffix (keyPrefix ++ Nat.repr n) = some (some n) := by
  have hdigit : ∀ c ∈ Nat.toDigits 10 n, c.isDigit = true :=
    fun c hc ↦ Nat.isDigit_of_mem_toDigits (by omega) (by omega) hc
  have htext : (keyPrefix ++ Nat.repr n).toList = keyPrefix.toList ++ Nat.toDigits 10 n := by
    rw [String.toList_append, Nat.toList_repr]
  have hprefix : keyPrefix.toList.isPrefixOf (keyPrefix.toList ++ Nat.toDigits 10 n) = true :=
    List.isPrefixOf_iff_prefix.mpr (List.prefix_append _ _)
  have hdrop : (keyPrefix.toList ++ Nat.toDigits 10 n).drop 4 = Nat.toDigits 10 n :=
    @List.drop_left _ keyPrefix.toList (Nat.toDigits 10 n)
  have hall : (Nat.toDigits 10 n).all isDigitChar = true :=
    List.all_eq_true.mpr fun c hc ↦ (digit_spec (hdigit c hc)).1
  rw [keySuffix, htext, if_pos hprefix]
  show (if _ then _ else _) = _
  rw [hdrop, if_pos ⟨Nat.toDigits_ne_nil, hall⟩, intOf, intOf_digits _ hdigit,
    Nat.ofDigitChars_ten_toDigits]

/-- One key, folded into the highest suffix; `cards.py:881–884`. -/
private abbrev raise (acc : Option Nat) (r : CardRow) : Option Nat :=
  match keySuffix r.card.cardKey with
  | none => acc
  | some n => acc.bind fun h ↦ n.map fun k ↦ max h k

private theorem foldl_raise_none (rs : List CardRow) : rs.foldl raise none = none := by
  induction rs with
  | nil => rfl
  | cons r rest ih =>
    rw [List.foldl_cons]
    have hr : raise none r = none := by
      unfold raise
      split <;> rfl
    rw [hr, ih]

private theorem foldl_raise_le {rs : List CardRow} {n h : Nat}
    (hfold : rs.foldl raise (some n) = some h) :
    n ≤ h ∧ ∀ r ∈ rs, ∀ k, keySuffix r.card.cardKey = some (some k) → k ≤ h := by
  induction rs generalizing n with
  | nil =>
    cases hfold
    simp
  | cons r rest ih =>
    rw [List.foldl_cons] at hfold
    cases hr : raise (some n) r with
    | none =>
      rw [hr, foldl_raise_none] at hfold
      exact absurd hfold (by simp)
    | some m =>
      rw [hr] at hfold
      obtain ⟨hm, hrest⟩ := ih hfold
      have hstep : n ≤ m ∧ ∀ k, keySuffix r.card.cardKey = some (some k) → k ≤ m := by
        cases hs : keySuffix r.card.cardKey with
        | none =>
          have : some n = some m := by simpa [raise, hs] using hr
          cases this
          simp
        | some j =>
          cases j with
          | none => simp [raise, hs] at hr
          | some k =>
            have : max n k = m := by simpa [raise, hs] using hr
            subst this
            simp
      refine ⟨le_trans hstep.1 hm, ?_⟩
      intro q hq k hk
      rcases List.mem_cons.mp hq with rfl | hq
      · exact le_trans (hstep.2 k hk) hm
      · exact hrest q hq k hk

/-- An assigned key carries a number above those of all keys of the scope. -/
theorem nextCardKey_number {t : CardTable} {scope : Option String} {key : String}
    (h : nextCardKey t scope = some key) :
    ∃ n, key = keyPrefix ++ Nat.repr n ∧ ∀ r ∈ t, inScope scope r = true →
      ∀ k, keySuffix r.card.cardKey = some (some k) → k < n := by
  rw [nextCardKey, Option.map_eq_some_iff] at h
  obtain ⟨n, hfold, rfl⟩ := h
  refine ⟨n + 1, rfl, ?_⟩
  intro r hr hscope k hk
  have hle := (foldl_raise_le hfold).2 r (List.mem_filter.mpr ⟨hr, hscope⟩) k hk
  omega

/-- An assigned key is one that no row of the scope carries. -/
theorem nextCardKey_fresh {t : CardTable} {scope : Option String} {key : String}
    (h : nextCardKey t scope = some key) {r : CardRow} (hr : r ∈ t)
    (hscope : inScope scope r = true) : r.card.cardKey ≠ key := by
  obtain ⟨n, rfl, habove⟩ := nextCardKey_number h
  intro hkey
  have hsuffix := keySuffix_assigned n
  rw [← hkey] at hsuffix
  exact absurd (habove r hr hscope n hsuffix) (lt_irrefl n)

/-- So the unique index takes it. -/
theorem holdsKey_next {t : CardTable} {scope : Option String} {key : String}
    (h : nextCardKey t scope = some key) : holdsKey t (tenantOf scope) key = false := by
  rw [holdsKey, List.any_eq_false]
  intro q hq hboth
  rw [Bool.and_eq_true, beq_iff_eq, beq_iff_eq] at hboth
  exact nextCardKey_fresh h hq (inScope_of_tenantOf hboth.1) hboth.2

/-- The keys of a scope are readable where every digit suffix is a number. -/
theorem nextCardKey_isSome {t : CardTable} {scope : Option String} :
    (nextCardKey t scope).isSome = true ↔
      ∀ r ∈ t, inScope scope r = true → keySuffix r.card.cardKey ≠ some none := by
  have hfold : ∀ (rs : List CardRow) (n : Nat), (rs.foldl raise (some n)).isSome = true ↔
      ∀ r ∈ rs, keySuffix r.card.cardKey ≠ some none := by
    intro rs
    induction rs with
    | nil => simp
    | cons r rest ih =>
      intro n
      rw [List.foldl_cons, List.forall_mem_cons]
      cases hs : keySuffix r.card.cardKey with
      | none =>
        have hr : raise (some n) r = some n := by simp [raise, hs]
        rw [hr, ih]
        simp
      | some j =>
        cases j with
        | none =>
          have hr : raise (some n) r = none := by simp [raise, hs]
          rw [hr, foldl_raise_none]
          simp
        | some k =>
          have hr : raise (some n) r = some (max n k) := by simp [raise, hs]
          rw [hr, ih]
          simp
  rw [nextCardKey, Option.isSome_map]
  refine (hfold (t.filter (inScope scope)) 0).trans ?_
  simp only [List.mem_filter, and_imp]

/-- A change that leaves the indexed columns alone leaves the keys as readable as they were. -/
theorem nextCardKey_modifyRow {t : CardTable} {scope : Option String} {id : Nat}
    {f : Card → Card} (hf : KeepsKeys f) :
    (nextCardKey (modifyRow t id f) scope).isSome = true ↔
      (nextCardKey t scope).isSome = true := by
  rw [nextCardKey_isSome, nextCardKey_isSome]
  constructor
  · intro h r hr hscope
    obtain ⟨q, hq, -, htenant, hkey, -⟩ := modified_keys hf r id
    rw [← hkey]
    apply h q (mem_modifyRow.mpr ⟨r, hr, hq.symm⟩)
    rw [inScope, htenant]
    exact hscope
  · intro h q hq hscope
    obtain ⟨r, hr, rfl⟩ := mem_modifyRow.mp hq
    obtain ⟨q, hq, -, htenant, hkey, -⟩ := modified_keys hf r id
    rw [hq] at hscope ⊢
    rw [hkey]
    apply h r hr
    rw [inScope, ← htenant]
    exact hscope

/-- A row under an assigned key leaves the keys readable. -/
theorem nextCardKey_append {t : CardTable} {scope : Option String} {key : String} {r : CardRow}
    (h : nextCardKey t scope = some key) (hr : r.card.cardKey = key) :
    (nextCardKey (t ++ [r]) scope).isSome = true := by
  have hreadable : ∀ q ∈ t, inScope scope q = true → keySuffix q.card.cardKey ≠ some none :=
    nextCardKey_isSome.mp (by rw [h]; rfl)
  rw [nextCardKey, Option.map_eq_some_iff] at h
  obtain ⟨n, -, rfl⟩ := h
  rw [nextCardKey_isSome]
  intro q hq hscope
  rcases List.mem_append.mp hq with hq | hq
  · exact hreadable q hq hscope
  · cases List.mem_singleton.mp hq
    rw [hr, keySuffix_assigned]
    simp

/-! ## Creating a card for an issue -/

/-- An issue no card of the scope holds gets one, where its body validates and the keys of
the scope are readable. -/
theorem create_ok {t : CardTable} {scope : Option String} {d : CardCreate} {now : Time}
    {key : String} (hkey : d.cardKey = none) (hvalid : d.valid = true)
    (hnext : nextCardKey t scope = some key)
    (hfree : ∀ ref, d.issueRef = some ref → ¬Holds t scope ref) :
    create t scope d now = .ok (d.card (tenantOf scope) key now,
      t ++ [⟨freshId t, d.card (tenantOf scope) key now⟩]) := by
  have hfor : keyFor t scope d = some key := by rw [keyFor, hkey]; exact hnext
  have hnoissue : holdsIssue t (freshId t) (tenantOf scope) d.issueRef = false := by
    cases href : d.issueRef with
    | none => rfl
    | some ref =>
      rw [holdsIssue, List.any_eq_false]
      intro q hq hall
      rw [Bool.and_eq_true, Bool.and_eq_true, beq_iff_eq, beq_iff_eq] at hall
      exact hfree ref href ⟨q, hq, inScope_of_tenantOf hall.1.2, hall.2⟩
  exact create_ok_iff.mpr ⟨hvalid, key, hfor, holdsKey_next hnext, hnoissue, rfl, rfl⟩

/-- Any other such issue is refused. -/
theorem create_refused {t : CardTable} {scope : Option String} {d : CardCreate} {now : Time}
    (hkey : d.cardKey = none) (h : d.valid = false ∨ nextCardKey t scope = none) :
    ∃ e, create t scope d now = .error e ∧ e ≠ .duplicateIssueRef := by
  cases hvalid : d.valid with
  | false => exact ⟨.invalid, by rw [create, hvalid]; rfl, by simp⟩
  | true =>
    have hnext : nextCardKey t scope = none := by
      cases h with
      | inl hinvalid => rw [hvalid] at hinvalid; cases hinvalid
      | inr hnone => exact hnone
    have hfor : keyFor t scope d = none := by rw [keyFor, hkey]; exact hnext
    exact ⟨.unreadableKey, by rw [create, hvalid, hfor]; rfl, by simp⟩

end CFactory.Cards
