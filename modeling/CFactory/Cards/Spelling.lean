import CFactory.Cards.Index

/-!
# How a reference is spelled

`cards.py:208,250–258,416,448,829–926`, `github_sync.py:83–107`. The unique index compares the
stored texts, and two texts may name one issue: white space and leading zeros do not survive
the parse. Where every stored reference is spelled as it renders, the index keeps one card for
each issue.
-/

namespace CFactory.Cards

open CFactory.Base
open CFactory.Model
open CFactory.Status

/-- If the text names an issue, it is the rendering of it. -/
def Canonical (ref : String) : Prop := ∀ r, IssueRef.parse (some ref) = some r → r.text = ref

/-- Every stored reference is spelled as it renders. -/
def CanonicalRefs (t : CardTable) : Prop :=
  ∀ r ∈ t, ∀ ref, r.card.issueRef = some ref → Canonical ref

/-- No two cards of a tenant, tombstones included, name one issue. -/
def OneCardPerIssue (t : CardTable) : Prop :=
  ∀ a ∈ t, ∀ b ∈ t, a.card.tenantId = b.card.tenantId →
    ∀ r, IssueRef.parse a.card.issueRef = some r →
    IssueRef.parse b.card.issueRef = some r → a = b

/-! ## Spellings -/

/-- Only a stored text names an issue. -/
theorem issueRef_of_parse {text : Option String} {r : IssueRef}
    (h : IssueRef.parse text = some r) : ∃ ref, text = some ref := by
  cases text with
  | none => cases h
  | some ref => exact ⟨ref, rfl⟩

/-- The first character left by `strip` is not white space. -/
theorem head_strip (s : List Char) : ∀ c ∈ (strip s).head?, isSpace c = false := by
  intro c hc
  rw [strip] at hc
  obtain ⟨rest, hrest⟩ := List.rdropWhile_prefix isSpace (l := s.dropWhile isSpace)
  cases hs : (s.dropWhile isSpace).rdropWhile isSpace with
  | nil =>
    rw [hs] at hc
    cases hc
  | cons d tail =>
    rw [hs] at hc hrest
    cases hc
    cases hd : isSpace c with
    | false => rfl
    | true =>
      have hhead := List.head?_dropWhile_not isSpace s
      rw [← hrest, List.cons_append, List.head?_cons] at hhead
      simp [hd] at hhead

/-- A text whose ends are not white space is what `strip` leaves. -/
private theorem strip_ends {s : List Char} (hhead : ∀ c ∈ s.head?, isSpace c = false)
    (hlast : ∀ c ∈ s.getLast?, isSpace c = false) : strip s = s := by
  have hdrop : s.dropWhile isSpace = s := by
    cases s with
    | nil => rfl
    | cons c rest =>
      exact List.dropWhile_cons_of_neg (by rw [hhead c rfl]; exact Bool.false_ne_true)
  rw [strip, hdrop, List.rdropWhile_eq_self_iff]
  intro hne
  rw [hlast _ (List.getLast?_eq_some_getLast hne)]
  exact Bool.false_ne_true

/-- A number that renders to digits is read back from them. -/
private theorem ofDigitChars_repr {n : Int} (h : (Int.repr n).toList.all Char.isDigit = true) :
    (Nat.ofDigitChars 10 (Int.repr n).toList 0 : Int) = n := by
  cases n with
  | ofNat k =>
    have hdigits : (Int.repr (Int.ofNat k)).toList = Nat.toDigits 10 k := Nat.toList_repr
    rw [hdigits, Nat.ofDigitChars_ten_toDigits]
    rfl
  | negSucc k =>
    have hsign : '-' ∈ (Int.repr (Int.negSucc k)).toList := by
      show '-' ∈ ("-" ++ Nat.repr (k + 1)).toList
      rw [String.toList_append]
      exact List.mem_append_left _ (List.mem_singleton.mpr rfl)
    exact absurd (List.all_eq_true.mp h '-' hsign) (by decide)

/-- A reference to a project that starts with no white space is spelled as it renders. -/
theorem canonical_text {p : String} (n : Int) (hp : ∀ c ∈ p.toList.head?, isSpace c = false) :
    Canonical (IssueRef.text ⟨p, n⟩) := by
  intro r hr
  have hchars : (IssueRef.text ⟨p, n⟩).toList = p.toList ++ '#' :: (Int.repr n).toList :=
    text_toList ⟨p, n⟩
  have hstrip : strip (p.toList ++ '#' :: (Int.repr n).toList) =
      p.toList ++ '#' :: (Int.repr n).toList := by
    apply strip_ends
    · cases hlist : p.toList with
      | nil =>
        intro c hc
        cases hc
        decide
      | cons d rest =>
        rw [hlist] at hp
        exact hp
    · intro c hc
      rw [List.getLast?_append_cons] at hc
      cases List.mem_cons.mp (List.mem_of_getLast? hc) with
      | inl hhash => rw [hhash]; decide
      | inr hnumber =>
        cases mem_intRepr hnumber with
        | inl hdigit => exact (plainChar_spec (by simp [plainChar, hdigit])).1
        | inr hsign => rw [hsign.1]; decide
  rw [IssueRef.parse, Option.getD_some, hchars, hstrip] at hr
  split at hr
  · next project digits hsplit =>
    split at hr
    · next hvalid =>
      cases hr
      rw [Bool.and_eq_true, Bool.and_eq_true] at hvalid
      have hall := List.all_eq_true.mp hvalid.2
      have hjoin : join '#' ((p.toList ++ '#' :: (Int.repr n).toList).splitOn '#') =
          p.toList ++ '#' :: (Int.repr n).toList := List.intercalate_splitOn '#'
      rw [hsplit, join_cons_cons, join, List.intercalate_singleton] at hjoin
      obtain ⟨hproject, hdigits⟩ := split_last
        (fun hmem ↦ absurd (hall '#' hmem) (by decide)) (hash_not_mem_repr n) hjoin
      subst hdigits
      rw [ofDigitChars_repr hvalid.2, hproject, String.ofList_toList]
    · cases hr
  · cases hr

/-- What a text is read as renders to a text that is read as the same. -/
theorem canonical_of_parse {text : Option String} {r : IssueRef}
    (h : IssueRef.parse text = some r) : Canonical r.text := by
  rw [IssueRef.parse] at h
  split at h
  · next project digits _ =>
    split at h
    · next hvalid =>
      cases h
      rw [Bool.and_eq_true, Bool.and_eq_true] at hvalid
      apply canonical_text
      intro c hc
      have hhead := head_strip project c
      rw [strip_project hvalid.1.1] at hhead
      rw [String.toList_ofList] at hc
      exact hhead hc
    · cases h
  · cases h

/-- A project path starts with no white space. -/
theorem head_project {p : List Char} (h : isProject p = true) :
    ∀ c ∈ p.head?, isSpace c = false := by
  have hhead := head_strip p
  rw [strip_project h] at hhead
  exact hhead

/-! ## Tables of canonical references -/

/-- Where every reference is canonical, the index keeps one card for each issue. -/
theorem oneCardPerIssue_of_canonical {t : CardTable} (h : Indexed t) (hrefs : CanonicalRefs t) :
    OneCardPerIssue t := by
  intro a ha b hb htenant r hra hrb
  obtain ⟨refA, hrefA⟩ := issueRef_of_parse hra
  obtain ⟨refB, hrefB⟩ := issueRef_of_parse hrb
  have hsameA : r.text = refA := hrefs a ha refA hrefA r (hrefA ▸ hra)
  have hsameB : r.text = refB := hrefs b hb refB hrefB r (hrefB ▸ hrb)
  apply h.eq_of_id ha hb
  apply h.refs a ha b hb htenant
  · rw [hrefA]
    rfl
  · rw [hrefA, hrefB, ← hsameA, ← hsameB]

/-- A change of one card that writes a canonical reference, or none. -/
theorem CanonicalRefs.modifyRow {t : CardTable} (h : CanonicalRefs t) (id : Nat) {f : Card → Card}
    (hf : ∀ c ref, (f c).issueRef = some ref → c.issueRef = some ref ∨ Canonical ref) :
    CanonicalRefs (modifyRow t id f) := by
  intro q hq ref href
  obtain ⟨r, hr, rfl⟩ := mem_modifyRow.mp hq
  split at href
  · cases hf r.card ref href with
    | inl hold => exact h r hr ref hold
    | inr hnew => exact hnew
  · exact h r hr ref href

/-- A row more. -/
theorem CanonicalRefs.append {t : CardTable} (h : CanonicalRefs t) {r : CardRow}
    (hr : ∀ ref, r.card.issueRef = some ref → Canonical ref) : CanonicalRefs (t ++ [r]) := by
  intro q hq
  cases List.mem_append.mp hq with
  | inl hold => exact h q hold
  | inr hnew =>
    cases List.mem_singleton.mp hnew
    exact hr

/-- A create with a canonical reference, or none. -/
theorem CanonicalRefs.create {t t' : CardTable} {scope : Option String} {d : CardCreate}
    {now : Time} {c : Card} (h : CanonicalRefs t)
    (hd : ∀ ref, d.issueRef = some ref → Canonical ref)
    (hcreate : Cards.create t scope d now = .ok (c, t')) : CanonicalRefs t' := by
  obtain ⟨-, key, -, -, -, rfl, rfl⟩ := create_ok_iff.mp hcreate
  exact h.append hd

/-- An update with a canonical reference, or none. -/
theorem CanonicalRefs.updateCard {t t' : CardTable} {scope : Option String} {key : String}
    {ch : CardChanges} {now : Time} {o : Option Card} (h : CanonicalRefs t)
    (hch : ∀ ref, ch.issueRef = some (some ref) → Canonical ref)
    (hupdate : Cards.updateCard t scope key ch now = .ok (o, t')) : CanonicalRefs t' := by
  rcases updateCard_cases t scope key ch now with ⟨-, hnone⟩ | ⟨r, -, hrefused | hdone⟩
  · rw [hnone] at hupdate
    cases hupdate
    exact h
  · rw [hrefused] at hupdate
    cases hupdate
  · rw [hdone] at hupdate
    cases hupdate
    apply h.modifyRow
    intro c ref href
    cases hassigned : ch.issueRef with
    | none =>
      have hkept : (ch.apply now c).issueRef = ch.issueRef.getD c.issueRef := rfl
      rw [hkept, hassigned] at href
      exact .inl href
    | some assigned =>
      have hnew : (ch.apply now c).issueRef = ch.issueRef.getD c.issueRef := rfl
      rw [hnew, hassigned] at href
      cases href
      exact .inr (hch ref hassigned)

end CFactory.Cards
