import CFactory.Access.Gate
import CFactory.Audit.Chain

/-!
# Redacted actors

`auth.py:51–67`, `audit.py:59–88,227–242,449–461`. What the trail stores and shows for an actor
under the keys of the moment. Looking an actor up among the keys raises for a text that cannot be
compared with one of them; no configured key and nothing shaped like one gets through.
-/

namespace CFactory.Audit

open CFactory.Access
open CFactory.Base
open CFactory.Status

/-- The configured keys, as texts. -/
def keyNames (ks : KeyStore) : List String := ks.keys.entries.map Prod.fst

/-- The audit store while these keys are configured. -/
def AuditStore.under (s : AuditStore) (ks : KeyStore) : AuditStore :=
  { s with apiKeys := keyNames ks }

/-- `redact_actor`, which raises where looking the actor up does; `audit.py:59–88`. -/
def redact (s : AuditStore) (ks : KeyStore) (actor : String) : Except Denial String :=
  match ks.scopesFor (some actor) with
  | .error d => .error d
  | .ok scopes =>
    if scopes.isSome || keyShaped actor then .ok (keyActor s actor) else .ok actor

/-- Looking the actor up among the keys does not raise. -/
def Redactable (ks : KeyStore) (actor : String) : Prop := actor = "" ∨ Comparable ks actor

instance (ks : KeyStore) (actor : String) : Decidable (Redactable ks actor) :=
  inferInstanceAs (Decidable (actor = "" ∨ Comparable ks actor))

theorem mem_keyNames {ks : KeyStore} {key : String} :
    key ∈ keyNames ks ↔ (ks.keys.get? key).isSome := by
  rw [Option.isSome_iff_exists]
  simp only [Dict.get?_eq_some_iff, keyNames, List.mem_map, Prod.exists, exists_and_right,
    exists_eq_right]

theorem empty_not_mem_keyNames (ks : KeyStore) : "" ∉ keyNames ks := by
  intro h
  obtain ⟨e, he, hempty⟩ := List.mem_map.mp h
  apply (ks.spelled e he).key.nonempty
  rw [hempty]
  rfl

theorem matchKey_empty (matched : Option (List String)) (entries : List (String × List String)) :
    matchKey "" matched entries = .ok matched := by
  induction entries with
  | nil => rfl
  | cons e rest ih => exact ih

/-- An actor is redacted as the pure function redacts it, or the look-up raises. -/
theorem redact_eq (s : AuditStore) (ks : KeyStore) (actor : String) :
    redact s ks actor =
      if Redactable ks actor then .ok (redactActor (s.under ks) actor) else .error .typeError := by
  by_cases hempty : actor = ""
  · subst hempty
    have hshape : keyShaped "" = false := by decide
    have hplain : redactActor (s.under ks) "" = "" := by
      rw [redactActor, if_neg (by rw [hshape]; simp)]
    rw [if_pos (.inl rfl), hplain, redact, KeyStore.scopesFor, matchKey_empty]
    simp only [hshape, Option.isSome_none, Bool.or_false, Bool.false_eq_true, if_false]
  · by_cases hcomp : Comparable ks actor
    · have hmem : actor ∈ (s.under ks).apiKeys ↔ (ks.keys.get? actor).isSome := mem_keyNames
      rw [if_pos (.inr hcomp), redact, scopesFor_eq ks hempty, if_pos hcomp]
      simp only [redactActor, hempty, ne_eq, not_false_eq_true, true_and, hmem, Bool.or_eq_true]
      split <;> rfl
    · have hnot : ¬ Redactable ks actor := by simp [Redactable, hempty, hcomp]
      rw [if_neg hnot, redact, scopesFor_eq ks hempty, if_neg hcomp]

/-! ## No key gets through -/

/-- A text that no key can be: it holds a colon and does not begin like a key. -/
theorem keyActor_toList (s : AuditStore) (key : String) :
    ∃ rest, (keyActor s key).toList = 'u' :: 'n' :: rest ∧ ':' ∈ rest := by
  refine ⟨"attributed:key-".toList ++ (s.sha256 key).toList.take 12, ?_, ?_⟩
  · have hword : "unattributed:key-".toList = 'u' :: 'n' :: "attributed:key-".toList := by decide
    have hjoin : (keyActor s key).toList =
        "unattributed:key-".toList ++ (s.sha256 key).toList.take 12 := by simp [keyActor]
    rw [hjoin, hword, List.cons_append, List.cons_append]
  · exact List.mem_append_left _ (by decide)

theorem not_keyShaped_of_head {text : String} {c d : Char} {rest : List Char}
    (h : text.toList = c :: d :: rest) (hc : c ≠ 'a' ∧ c ≠ 'c') : keyShaped text = false := by
  have hbody : ∀ body : List Char, body.head? = some c →
      (body.take 4 == ['a', 'c', 'w', '_'] || body.take 4 == ['c', 'f', 'k', '_']) = false := by
    intro body hhead
    cases body with
    | nil => cases hhead
    | cons b body =>
      obtain rfl : b = c := by simpa using hhead
      simp [hc.1, hc.2]
  have htake : ∀ body : List Char, body.head? = some c →
      ((body.take 4 == ['a', 'c', 'w', '_'] || body.take 4 == ['c', 'f', 'k', '_']) &&
        decide (16 ≤ (body.drop 4).length) && (body.drop 4).all Char.isAlphanum) = false := by
    intro body hhead
    rw [hbody body hhead]
    rfl
  unfold keyShaped
  rw [h]
  by_cases hline : (c :: d :: rest).getLast? = some '\n'
  · simp only [hline, if_true]
    exact htake _ rfl
  · simp only [hline, if_false]
    exact htake _ rfl

/-- What an actor is redacted to is no configured key and not shaped like one. -/
theorem redactActor_no_key (s : AuditStore) (ks : KeyStore) (actor : String) :
    redactActor (s.under ks) actor ∉ keyNames ks ∧
      keyShaped (redactActor (s.under ks) actor) = false := by
  rw [redactActor]
  split
  · obtain ⟨rest, htext, hcolon⟩ := keyActor_toList (s.under ks) actor
    refine ⟨fun hmem ↦ ?_, not_keyShaped_of_head htext (by decide)⟩
    obtain ⟨e, he, hkey⟩ := List.mem_map.mp hmem
    apply (ks.spelled e he).key.plain
    rw [hkey, htext]
    simp [hcolon]
  · next hplain =>
    rw [not_or] at hplain
    refine ⟨fun hmem ↦ hplain.1 ⟨?_, hmem⟩, by simpa using hplain.2⟩
    rintro rfl
    exact empty_not_mem_keyNames ks hmem

/-- What was redacted once is redacted to itself, until it is configured as a key. -/
theorem redactActor_of_plain {s : AuditStore} {actor : String} (hshape : keyShaped actor = false)
    (hkey : actor ∉ s.apiKeys) : redactActor s actor = actor := by
  rw [redactActor, if_neg]
  simp [hshape, hkey]

/-! ## Reading the trail -/

/-- A row as it is shown while these keys are configured. -/
def AuditEntry.shown (s : AuditStore) (ks : KeyStore) (r : AuditEntry) : AuditEntry :=
  { r with values := { r.values with actor := redactActor (s.under ks) r.values.actor } }

/-- `AuditEntry.to_model`; `audit.py:227–242`. -/
def AuditEntry.toModel (s : AuditStore) (ks : KeyStore) (r : AuditEntry) :
    Except Denial AuditEntry :=
  match redact s ks r.values.actor with
  | .error d => .error d
  | .ok actor => .ok { r with values := { r.values with actor := actor } }

/-- The rows one after the other, up to one that raises; `audit.py:459,461`. -/
def toModels (s : AuditStore) (ks : KeyStore) : List AuditEntry → Except Denial (List AuditEntry)
  | [] => .ok []
  | r :: rest =>
    match r.toModel s ks with
    | .error d => .error d
    | .ok entry => (toModels s ks rest).map (entry :: ·)

/-- The rows that `list` selects: the oldest above an id, or the newest; `audit.py:452–460`. -/
def page (t : AuditTable) (limit : Nat) (afterId : Option Int) : List AuditEntry :=
  match afterId with
  | some i => (t.rows.filter (i < ·.id)).take limit
  | none => t.rows.reverse.take limit

/-- `AuditStore.list`; `audit.py:449–461`. -/
def list (s : AuditStore) (ks : KeyStore) (t : AuditTable) (limit : Nat) (afterId : Option Int) :
    Except Denial (List AuditEntry) :=
  toModels s ks (page t limit afterId)

theorem mem_of_mem_page {t : AuditTable} {limit : Nat} {afterId : Option Int} {r : AuditEntry}
    (h : r ∈ page t limit afterId) : r ∈ t.rows := by
  cases afterId with
  | none => exact List.mem_reverse.mp (List.mem_of_mem_take h)
  | some i => exact (List.mem_filter.mp (List.mem_of_mem_take h)).1

/-- Rows are shown with redacted actors, unless one of them raises. -/
theorem toModels_eq (s : AuditStore) (ks : KeyStore) (rows : List AuditEntry) :
    toModels s ks rows =
      if rows.all fun r ↦ Redactable ks r.values.actor then .ok (rows.map (AuditEntry.shown s ks))
      else .error .typeError := by
  induction rows with
  | nil => simp [toModels]
  | cons r rest ih =>
    rw [toModels, AuditEntry.toModel, redact_eq]
    rw [List.all_cons]
    by_cases hr : Redactable ks r.values.actor
    · rw [if_pos hr, decide_eq_true hr, Bool.true_and]
      simp only [ih]
      split <;> rfl
    · rw [if_neg hr, decide_eq_false hr]
      simp

/-- A page is refused exactly for a row whose actor cannot be compared with the keys. -/
theorem list_error {s : AuditStore} {ks : KeyStore} {t : AuditTable} {limit : Nat}
    {afterId : Option Int} {d : Denial} (herr : list s ks t limit afterId = .error d) :
    d = .typeError ∧ ∃ r ∈ t.rows, ¬ Redactable ks r.values.actor := by
  rw [list, toModels_eq] at herr
  split at herr
  · cases herr
  · next hraise =>
    rw [Bool.not_eq_true, List.all_eq_false] at hraise
    obtain ⟨r, hr, hraise⟩ := hraise
    exact ⟨(Except.error.inj herr).symm, r, mem_of_mem_page hr, by simpa using hraise⟩

end CFactory.Audit
