import CFactory.Base.Runs
import CFactory.Cards.Patch

/-!
# The keys that the store assigns

`cards.py:841–885,910–926`. A create that leaves the key out is given the number after the highest
one that a key of the tenant carries, whoever chose that key. Deleted cards keep theirs.
-/

namespace CFactory.Cards

open CFactory.Base CFactory.Model

/-- The driver binds the integers of the body. -/
def CardCreate.bound (binds : Int → Bool) (body : CardCreate) : Bool :=
  binds body.priority && body.repositoryId.all fun (id : Nat) ↦ binds id

/-- The body leaves the key out; an empty one is as good as none. `cards.py:850`. -/
def CardCreate.OmitsKey (body : CardCreate) : Prop :=
  body.cardKey = none ∨ body.cardKey = some ""

instance (body : CardCreate) : Decidable body.OmitsKey := inferInstanceAs (Decidable (_ ∨ _))

/-- What a create raises on a database that need not bind every value. -/
inductive CreateError where
  | card (e : CardError)
  /-- The driver's error for an integer that no column of its database holds. -/
  | unbindable
  deriving DecidableEq

/-- `create`, by a driver: a key is assigned before the row is bound; `cards.py:841–866`. -/
def createRow (binds : Int → Bool) (scope : Option String) (t : CardTable) (body : CardCreate)
    (now : Time) : Except CreateError (Card × CardTable) :=
  if !body.valid then .error (.card .invalid)
  else
    match keyFor t scope body with
    | none => .error (.card .unreadableKey)
    | some _ =>
      if body.bound binds then (create t scope body now).mapError .card
      else .error .unbindable

/-- A create or a delete of the tenant. -/
inductive BoardWrite where
  | create (body : CardCreate) (now : Time)
  | delete (key : String) (now : Time)

/-- The table after a write, which a create that raises leaves as it is. -/
def writeStep (binds : Int → Bool) (scope : Option String) (t : CardTable) :
    BoardWrite → CardTable
  | .create body now =>
    match createRow binds scope t body now with
    | .ok (_, t') => t'
    | .error _ => t
  | .delete key now => (deleteCard t scope key now).2

/-- The key that a write assigned. -/
def assignedKey (binds : Int → Bool) (scope : Option String) (t : CardTable) :
    BoardWrite → Option String
  | .create body now =>
    match createRow binds scope t body now with
    | .ok (card, _) => if body.OmitsKey then some card.cardKey else none
    | .error _ => none
  | .delete _ _ => none

/-- The keys that a run of writes assigned, in order. -/
def assignedKeys (binds : Int → Bool) (scope : Option String) (t : CardTable) :
    List BoardWrite → List String
  | [] => []
  | w :: rest =>
    (assignedKey binds scope t w).toList ++
      assignedKeys binds scope (writeStep binds scope t w) rest

/-- A create that leaves the key and the issue out returns, under a key that no card of the tenant
holds, deleted ones included. -/
def Assigns (binds : Int → Bool) (scope : Option String) (t : CardTable) : Prop :=
  ∀ (body : CardCreate) (now : Time), body.valid = true → body.bound binds = true →
    body.OmitsKey → body.issueRef = none →
    ∃ card t', createRow binds scope t body now = .ok (card, t') ∧
      ∀ r ∈ t, r.card.tenantId = tenantOf scope → r.card.cardKey ≠ card.cardKey

/-- The keys are assigned numbers, each above the one before. -/
def Increasing (keys : List String) : Prop :=
  ∃ numbers : List Nat, keys = numbers.map (fun n ↦ keyPrefix ++ Nat.repr n) ∧
    numbers.Pairwise (· < ·)

/-! ## Keys that are no number -/

/-- The key is the prefix and digits, of which one is no decimal digit. -/
def Unreadable (key : String) : Prop :=
  ∃ suffix, key.toList = keyPrefix.toList ++ suffix ∧ suffix.all isDigitChar = true ∧
    ∃ c ∈ suffix, decimalValue c = none

/-- A create stores a card under a chosen key that is unreadable. -/
def Spoils (binds : Int → Bool) (scope : Option String) (t : CardTable) : BoardWrite → Prop
  | .create body _ =>
    (∃ key, body.cardKey = some key ∧ Unreadable key ∧ holdsKey t (tenantOf scope) key = false) ∧
      body.valid = true ∧ body.bound binds = true ∧
      holdsIssue t (freshId t) (tenantOf scope) body.issueRef = false
  | .delete _ _ => False

/-- The suffix of an unreadable key is no number, and only that of one. -/
theorem keySuffix_unreadable (key : String) : keySuffix key = some none ↔ Unreadable key := by
  rw [keySuffix]
  constructor
  · intro h
    split at h
    swap
    · cases h
    · next hprefix =>
      obtain ⟨suffix, hsuffix⟩ := List.isPrefixOf_iff_prefix.mp hprefix
      have hdrop : key.toList.drop 4 = suffix := by
        rw [← hsuffix]
        exact @List.drop_left _ keyPrefix.toList suffix
      rw [hdrop] at h
      dsimp only at h
      split at h
      swap
      · cases h
      · next hdigits =>
        exact ⟨suffix, hsuffix.symm, hdigits.2, (intOf_eq_none_iff suffix).mp (Option.some.inj h)⟩
  · rintro ⟨suffix, hkey, hdigits, c, hc, hvalue⟩
    have hdrop : key.toList.drop 4 = suffix := by
      rw [hkey]
      exact @List.drop_left _ keyPrefix.toList suffix
    have hprefix : keyPrefix.toList.isPrefixOf key.toList = true :=
      List.isPrefixOf_iff_prefix.mpr ⟨suffix, hkey.symm⟩
    have hne : suffix ≠ [] := List.ne_nil_of_mem hc
    rw [if_pos hprefix, hdrop]
    dsimp only
    rw [if_pos ⟨hne, hdigits⟩, (intOf_eq_none_iff suffix).mpr ⟨c, hc, hvalue⟩]

/-! ## One write -/

variable {binds : Int → Bool} {scope : Option String} {t : CardTable}

/-- A create by a driver is a create whose integers the driver binds. -/
theorem createRow_ok_iff {body : CardCreate} {now : Time} {card : Card} {t' : CardTable} :
    createRow binds scope t body now = .ok (card, t') ↔
      body.bound binds = true ∧ create t scope body now = .ok (card, t') := by
  rw [createRow]
  cases hvalid : body.valid with
  | false => simp [create, hvalid]
  | true =>
    rw [Bool.not_true, if_neg Bool.false_ne_true]
    cases hkey : keyFor t scope body with
    | none => simp [create, hvalid, hkey]
    | some key =>
      cases hbound : body.bound binds with
      | false => simp
      | true =>
        cases create t scope body now with
        | error e => simp [Except.mapError]
        | ok done => simp [Except.mapError]

/-- The key of a body that leaves it out is the assigned one. -/
private theorem keyFor_omitted {body : CardCreate} (h : body.OmitsKey) :
    keyFor t scope body = nextCardKey t scope := by
  rcases h with h | h
  · rw [keyFor, h]
  · rw [keyFor, h]
    rfl

/-- That of any other body is its own. -/
private theorem keyFor_chosen {body : CardCreate} (h : ¬ body.OmitsKey) :
    ∃ key, body.cardKey = some key ∧ keyFor t scope body = some key := by
  rw [CardCreate.OmitsKey, not_or] at h
  cases hkey : body.cardKey with
  | none => exact absurd hkey h.1
  | some key =>
    refine ⟨key, rfl, ?_⟩
    rw [hkey] at h
    rw [keyFor, hkey]
    exact if_neg fun hempty ↦ h.2 (congrArg some hempty)

/-- Keys are assigned where those of the scope are readable, and, on a driver that binds a zero,
nowhere else. -/
theorem assigns_iff (hzero : binds 0 = true) :
    Assigns binds scope t ↔ (nextCardKey t scope).isSome = true := by
  constructor
  · intro h
    obtain ⟨card, t', hcreate, -⟩ := h { title := "x" } 0 (by decide)
      (by rw [CardCreate.bound, hzero]; rfl) (.inl rfl) rfl
    obtain ⟨-, key, hkey, -⟩ := create_ok_iff.mp (createRow_ok_iff.mp hcreate).2
    have homitted : keyFor t scope { title := "x" } = nextCardKey t scope :=
      keyFor_omitted (.inl rfl)
    rw [← homitted, hkey]
    rfl
  · intro h body now hvalid hbound homits hissue
    obtain ⟨key, hnext⟩ := Option.isSome_iff_exists.mp h
    refine ⟨body.card (tenantOf scope) key now, _, createRow_ok_iff.mpr ⟨hbound,
      create_ok_iff.mpr ⟨hvalid, key, ?_, holdsKey_next hnext, ?_, rfl, rfl⟩⟩, ?_⟩
    · rw [keyFor_omitted homits, hnext]
    · rw [hissue]
      rfl
    · exact fun r hr htenant ↦ nextCardKey_fresh hnext hr (inScope_of_tenantOf htenant)

/-- A row that is added leaves the keys readable where its own is. -/
private theorem readable_append (hreadable : (nextCardKey t scope).isSome = true) {r : CardRow}
    (hscope : inScope scope r = true) :
    (nextCardKey (t ++ [r]) scope).isSome = true ↔ ¬ Unreadable r.card.cardKey := by
  rw [nextCardKey_isSome, ← keySuffix_unreadable]
  rw [nextCardKey_isSome] at hreadable
  constructor
  · exact fun h ↦ h r (List.mem_append_right _ (List.mem_singleton_self r)) hscope
  · intro h q hq hq'
    rcases List.mem_append.mp hq with hold | hnew
    · exact hreadable q hold hq'
    · cases List.mem_singleton.mp hnew
      exact h

/-- An unreadable key is not empty. -/
private theorem Unreadable.filled {key : String} (h : Unreadable key) : key ≠ "" := by
  rintro rfl
  obtain ⟨suffix, hkey, -⟩ := h
  cases hkey

/-- A create that stores a card under a chosen unreadable key is one that returns, under it. -/
private theorem spoils_iff (body : CardCreate) (now : Time) :
    Spoils binds scope t (.create body now) ↔
      ∃ key card t', body.cardKey = some key ∧ Unreadable key ∧
        createRow binds scope t body now = .ok (card, t') := by
  constructor
  · rintro ⟨⟨key, hkey, hunreadable, hfree⟩, hvalid, hbound, hissue⟩
    have hfor : keyFor t scope body = some key := by
      rw [keyFor, hkey]
      exact if_neg hunreadable.filled
    exact ⟨key, _, _, hkey, hunreadable,
      createRow_ok_iff.mpr ⟨hbound, create_ok_iff.mpr ⟨hvalid, key, hfor, hfree, hissue, rfl, rfl⟩⟩⟩
  · rintro ⟨key, card, t', hkey, hunreadable, hcreate⟩
    obtain ⟨hbound, hstored⟩ := createRow_ok_iff.mp hcreate
    obtain ⟨hvalid, key', hfor, hfree, hissue, -⟩ := create_ok_iff.mp hstored
    have hsame : keyFor t scope body = some key := by
      rw [keyFor, hkey]
      exact if_neg hunreadable.filled
    rw [hsame] at hfor
    cases hfor
    exact ⟨⟨key, hkey, hunreadable, hfree⟩, hvalid, hbound, hissue⟩

/-- A create that returns leaves its table, and assigns the key that its body leaves out. -/
private theorem writeStep_ok {body : CardCreate} {now : Time} {card : Card} {t' : CardTable}
    (h : createRow binds scope t body now = .ok (card, t')) :
    writeStep binds scope t (.create body now) = t' ∧
      assignedKey binds scope t (.create body now) =
        if body.OmitsKey then some card.cardKey else none := by
  delta writeStep assignedKey
  dsimp only
  rw [h]
  exact ⟨rfl, rfl⟩

/-- A create that raises leaves the table, and assigns nothing. -/
private theorem writeStep_error {body : CardCreate} {now : Time} {e : CreateError}
    (h : createRow binds scope t body now = .error e) :
    writeStep binds scope t (.create body now) = t ∧
      assignedKey binds scope t (.create body now) = none := by
  delta writeStep assignedKey
  dsimp only
  rw [h]
  exact ⟨rfl, rfl⟩

/-- A delete leaves the table of its own. -/
private theorem writeStep_delete (key : String) (now : Time) :
    writeStep binds scope t (.delete key now) = (deleteCard t scope key now).2 := rfl

/-- A write leaves the keys readable unless it stores a card under a chosen key that is not. -/
theorem readable_writeStep (hreadable : (nextCardKey t scope).isSome = true) (w : BoardWrite) :
    (nextCardKey (writeStep binds scope t w) scope).isSome = true ↔ ¬ Spoils binds scope t w := by
  cases w with
  | delete key now =>
    refine iff_of_true ?_ id
    rw [writeStep_delete, deleteCard]
    cases getRow t scope key with
    | none => exact hreadable
    | some r =>
      have hkeeps : KeepsKeys (tombstoned now) := fun _ ↦ ⟨rfl, rfl, rfl⟩
      exact (nextCardKey_modifyRow hkeeps).mpr hreadable
  | create body now =>
    rw [spoils_iff]
    cases hcreate : createRow binds scope t body now with
    | error e =>
      rw [(writeStep_error hcreate).1]
      refine iff_of_true hreadable ?_
      rintro ⟨key, card, t', -, -, hreturned⟩
      cases hreturned
    | ok done =>
      obtain ⟨card, t'⟩ := done
      rw [(writeStep_ok hcreate).1]
      obtain ⟨-, key, hfor, -, -, rfl, rfl⟩ := create_ok_iff.mp (createRow_ok_iff.mp hcreate).2
      by_cases homits : body.OmitsKey
      · rw [keyFor_omitted homits] at hfor
        refine iff_of_true (nextCardKey_append hfor rfl) ?_
        rintro ⟨chosen, -, -, hchosen, hunreadable, -⟩
        rcases homits with hnone | hempty
        · rw [hnone] at hchosen
          cases hchosen
        · rw [hempty] at hchosen
          cases hchosen
          exact hunreadable.filled rfl
      · obtain ⟨chosen, hchosen, hsame⟩ := @keyFor_chosen scope t body homits
        rw [hsame] at hfor
        cases hfor
        have hown : inScope scope ⟨freshId t, body.card (tenantOf scope) key now⟩ = true :=
          inScope_of_tenantOf rfl
        rw [readable_append hreadable hown, not_iff_not]
        constructor
        · exact fun hunreadable ↦ ⟨key, _, _, hchosen, hunreadable, rfl⟩
        · rintro ⟨other, -, -, hother, hunreadable, -⟩
          rw [hchosen] at hother
          cases hother
          exact hunreadable

/-! ## Runs -/

/-- A write takes no key from a row of the scope. -/
private theorem key_kept {r : CardRow} (hr : r ∈ t) (hscope : inScope scope r = true)
    (w : BoardWrite) :
    ∃ q ∈ writeStep binds scope t w, inScope scope q = true ∧ q.card.cardKey = r.card.cardKey := by
  cases w with
  | delete key now =>
    rw [writeStep_delete, deleteCard]
    cases getRow t scope key with
    | none => exact ⟨r, hr, hscope, rfl⟩
    | some q =>
      refine ⟨_, mem_modifyRow.mpr ⟨r, hr, rfl⟩, ?_⟩
      split
      · exact ⟨hscope, rfl⟩
      · exact ⟨hscope, rfl⟩
  | create body now =>
    cases hcreate : createRow binds scope t body now with
    | error e =>
      rw [(writeStep_error hcreate).1]
      exact ⟨r, hr, hscope, rfl⟩
    | ok done =>
      obtain ⟨card, t'⟩ := done
      rw [(writeStep_ok hcreate).1]
      obtain ⟨-, key, -, -, -, -, rfl⟩ := create_ok_iff.mp (createRow_ok_iff.mp hcreate).2
      exact ⟨r, List.mem_append_left _ hr, hscope, rfl⟩

/-- A key that a write assigns carries a number above those of all keys of the scope, and the row
under it is one of them afterwards. -/
private theorem assignedKey_number {w : BoardWrite} {key : String}
    (h : assignedKey binds scope t w = some key) :
    ∃ n, key = keyPrefix ++ Nat.repr n ∧
      (∀ r ∈ t, inScope scope r = true → ∀ k, keySuffix r.card.cardKey = some (some k) → k < n) ∧
      ∃ r ∈ writeStep binds scope t w, inScope scope r = true ∧ r.card.cardKey = key := by
  cases w with
  | delete key now => cases h
  | create body now =>
    cases hcreate : createRow binds scope t body now with
    | error e =>
      rw [(writeStep_error hcreate).2] at h
      cases h
    | ok done =>
      obtain ⟨card, t'⟩ := done
      rw [(writeStep_ok hcreate).2] at h
      rw [(writeStep_ok hcreate).1]
      by_cases homits : body.OmitsKey
      · rw [if_pos homits] at h
        cases h
        obtain ⟨-, key, hfor, -, -, rfl, rfl⟩ := create_ok_iff.mp (createRow_ok_iff.mp hcreate).2
        rw [keyFor_omitted homits] at hfor
        obtain ⟨n, hn, habove⟩ := nextCardKey_number hfor
        exact ⟨n, hn, habove, _, List.mem_append_right _ (List.mem_singleton_self _),
          inScope_of_tenantOf rfl, rfl⟩
      · rw [if_neg homits] at h
        cases h

/-- The keys that a run assigns are numbers, each above the one before and above those of all keys
that the scope held. -/
theorem assignedKeys_number (binds : Int → Bool) (scope : Option String) (t : CardTable)
    (writes : List BoardWrite) :
    ∃ numbers : List Nat,
      assignedKeys binds scope t writes = numbers.map (fun n ↦ keyPrefix ++ Nat.repr n) ∧
        numbers.Pairwise (· < ·) ∧ ∀ n ∈ numbers, ∀ r ∈ t, inScope scope r = true →
          ∀ k, keySuffix r.card.cardKey = some (some k) → k < n := by
  induction writes generalizing t with
  | nil => exact ⟨[], rfl, .nil, by simp⟩
  | cons w rest ih =>
    obtain ⟨numbers, hkeys, hsorted, habove⟩ := ih (writeStep binds scope t w)
    have hlater : ∀ n ∈ numbers, ∀ r ∈ t, inScope scope r = true →
        ∀ k, keySuffix r.card.cardKey = some (some k) → k < n := by
      intro n hn r hr hscope k hk
      obtain ⟨q, hq, hqscope, hqkey⟩ := @key_kept binds scope t r hr hscope w
      exact habove n hn q hq hqscope k (by rw [hqkey, hk])
    rw [assignedKeys, hkeys]
    cases hassigned : assignedKey binds scope t w with
    | none => exact ⟨numbers, rfl, hsorted, hlater⟩
    | some key =>
      obtain ⟨n, rfl, hfirst, r, hr, hscope, hkey⟩ := assignedKey_number hassigned
      refine ⟨n :: numbers, rfl, List.pairwise_cons.mpr ⟨?_, hsorted⟩, ?_⟩
      · intro m hm
        exact habove m hm r hr hscope n (by rw [hkey, keySuffix_assigned])
      · intro m hm
        rcases List.mem_cons.mp hm with rfl | hm
        · exact hfirst
        · exact hlater m hm

/-- In every state of a run from a board without cards a create that leaves the key out succeeds
under a fresh key, and the assigned numbers increase, exactly where no create of the run stores a
card under a chosen key that is no number. -/
theorem keys_assigned_iff (hzero : binds 0 = true)
    (hempty : ∀ r ∈ t, inScope scope r = false) (writes : List BoardWrite) :
    Throughout (writeStep binds scope) (Assigns binds scope) t writes ∧
        Increasing (assignedKeys binds scope t writes) ↔
      EachStep (writeStep binds scope) (fun t w ↦ ¬ Spoils binds scope t w) t writes := by
  have hincreasing : Increasing (assignedKeys binds scope t writes) := by
    obtain ⟨numbers, hkeys, hsorted, -⟩ := assignedKeys_number binds scope t writes
    exact ⟨numbers, hkeys, hsorted⟩
  have hstart : (nextCardKey t scope).isSome = true := by
    rw [nextCardKey_isSome]
    intro r hr hscope
    rw [hempty r hr] at hscope
    cases hscope
  have hassigns : Assigns binds scope = fun t ↦ (nextCardKey t scope).isSome = true := by
    funext t
    exact propext (assigns_iff hzero)
  rw [and_iff_left hincreasing, hassigns]
  exact throughout_iff_of_step (fun t w hreadable ↦ readable_writeStep hreadable w) hstart

/-- A run that chooses a key, leaves it to the store, deletes a card and leaves it to the store
again. -/
def choosingRun (key : String) : List BoardWrite :=
  [.create { cardKey := some key, title := "Add a health check" } 1,
    .create { title := "Add a metric" } 2, .delete key 3, .create { title := "Add a trace" } 4]

/-- Such a run goes well with a numbered key. -/
theorem keys_assigned_choosingRun :
    Throughout (writeStep sqliteInt (some "default")) (Assigns sqliteInt (some "default")) []
        (choosingRun "FCT-7") ∧
      Increasing (assignedKeys sqliteInt (some "default") [] (choosingRun "FCT-7")) := by
  apply (keys_assigned_iff (by decide) (by simp) _).mpr
  have hreadable : ¬ Unreadable "FCT-7" := by
    rw [← keySuffix_unreadable]
    decide +kernel
  have homitted : ∀ (t : CardTable) (title : String) (now : Time),
      ¬ Spoils sqliteInt (some "default") t (.create { title := title } now) := by
    rintro t title now ⟨⟨key, hkey, -⟩, -⟩
    cases hkey
  refine ⟨?_, homitted _ _ _, id, homitted _ _ _, trivial⟩
  rintro ⟨⟨key, hkey, hunreadable, -⟩, -⟩
  cases hkey
  exact hreadable hunreadable

/-- With a superscript in the chosen key no later create is assigned one. -/
theorem keys_unassigned_choosingRun :
    ¬ (Throughout (writeStep sqliteInt (some "default")) (Assigns sqliteInt (some "default")) []
        (choosingRun "FCT-²") ∧
      Increasing (assignedKeys sqliteInt (some "default") [] (choosingRun "FCT-²"))) := by
  rintro ⟨hassigns, -⟩
  have hlast := hassigns.last
  rw [assigns_iff (by decide)] at hlast
  revert hlast
  decide +kernel

end CFactory.Cards
