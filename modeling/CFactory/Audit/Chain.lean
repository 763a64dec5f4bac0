import CFactory.Audit.Canonical
import Mathlib.Data.List.Sort

/-!
# The audit chain

`audit.py:59–85,210–591`. Rows in id order, the serial append, the classification of every
row against the row before it, the alarm and the report built on that classification.
-/

namespace CFactory.Audit

open CFactory.Base
open CFactory.Model

/-! ## Actors -/

/-- `KEY_SHAPED`, a full match but for one final newline; `auth.py:51`. -/
def keyShaped (actor : String) : Bool :=
  let chars := actor.toList
  let body := if chars.getLast? = some '\n' then chars.dropLast else chars
  (body.take 4 == ['a', 'c', 'w', '_'] || body.take 4 == ['c', 'f', 'k', '_']) &&
    decide (16 ≤ (body.drop 4).length) && (body.drop 4).all Char.isAlphanum

/-- The configuration an audit store is built with, and the hashes it uses;
`audit.py:380–410`, `auth.py:128–165`. -/
structure AuditStore where
  hmac : Hmac
  secret : String
  acknowledged : List Int
  /-- The configured API keys. -/
  apiKeys : List String
  /-- SHA-256 as a lowercase hexadecimal text. -/
  sha256 : String → String

/-- `key_actor`; `auth.py:54–67`. -/
def keyActor (s : AuditStore) (key : String) : String :=
  "unattributed:key-" ++ String.ofList ((s.sha256 key).toList.take 12)

/-- `redact_actor`; `audit.py:59–88`. The empty text is no configured key. -/
def redactActor (s : AuditStore) (actor : String) : String :=
  if (actor ≠ "" ∧ actor ∈ s.apiKeys) ∨ keyShaped actor then keyActor s actor else actor

/-! ## Rows -/

/-- A row of `audit_entries`; `audit.py:210–225`. -/
structure AuditEntry where
  id : Int
  values : Fields
  prevHash : Option String
  entryHash : String
  deriving DecidableEq, Repr

/-- The rows in the order of their primary key. -/
structure AuditTable where
  rows : List AuditEntry
  ordered : rows.Pairwise (fun r q ↦ r.id < q.id)

/-- The table without rows. -/
def AuditTable.empty : AuditTable := ⟨[], .nil⟩

/-- The rows whose ids are not removed. -/
def AuditTable.delete (t : AuditTable) (ids : List Int) : AuditTable :=
  ⟨t.rows.filter (·.id ∉ ids), t.ordered.filter _⟩

/-- The hash of the newest row. -/
def chainTail (rows : List AuditEntry) : Option String := rows.getLast?.map AuditEntry.entryHash

/-- An id above every row; `gap` counts the ids the database skipped. -/
def nextId (rows : List AuditEntry) (gap : Nat) : Int :=
  (match rows.getLast? with
  | none => 0
  | some r => r.id) + 1 + gap

theorem lt_nextId {t : AuditTable} {r : AuditEntry} (hr : r ∈ t.rows) (gap : Nat) :
    r.id < nextId t.rows gap := by
  rcases List.eq_nil_or_concat t.rows with h | ⟨front, last, h⟩
  · rw [h] at hr
    exact absurd hr List.not_mem_nil
  · have hle : r.id ≤ last.id := by
      have hord := t.ordered
      rw [h, List.concat_eq_append, List.pairwise_append] at hord
      rw [h, List.concat_eq_append] at hr
      cases List.mem_append.mp hr with
      | inl hf => exact Int.le_of_lt (hord.2.2 r hf last List.mem_cons_self)
      | inr hl => rw [List.mem_singleton.mp hl]
    rw [nextId, h, List.concat_eq_append, List.getLast?_concat]
    simp only
    omega

/-- A row after all others. -/
def AuditTable.append (t : AuditTable) (gap : Nat) (row : Int → AuditEntry)
    (hid : ∀ i, (row i).id = i) : AuditTable where
  rows := t.rows ++ [row (nextId t.rows gap)]
  ordered := by
    rw [List.pairwise_append]
    refine ⟨t.ordered, List.pairwise_singleton _ _, fun r hr q hq ↦ ?_⟩
    rw [List.mem_singleton.mp hq, hid]
    exact lt_nextId hr gap

/-- A call of `record`, with the instant and the id gap it meets; `audit.py:412–422`. -/
structure RecordCall where
  now : Time
  actor : String
  kind : String
  correlationKey : String
  targetService : String
  endpoint : String
  statusCode : Int
  ok : Bool
  gap : Nat
  deriving DecidableEq, Repr

/-- The chained columns a call writes; `audit.py:433–442`. -/
def RecordCall.values (s : AuditStore) (c : RecordCall) : Fields where
  ts := c.now
  actor := redactActor s c.actor
  kind := c.kind
  correlationKey := c.correlationKey
  targetService := c.targetService
  endpoint := c.endpoint
  statusCode := c.statusCode
  ok := c.ok

/-- The row a call writes behind a given tail; `audit.py:433–444`. -/
def newEntry (s : AuditStore) (c : RecordCall) (prevHash : Option String) (id : Int) :
    AuditEntry where
  id := id
  values := c.values s
  prevHash := prevHash
  entryHash := computeEntryHash s.hmac s.secret (c.values s) prevHash

/-- Insert the row of a call behind a tail read earlier; `audit.py:433–446`. -/
def insertEntry (s : AuditStore) (c : RecordCall) (prevHash : Option String) (t : AuditTable) :
    AuditTable :=
  t.append c.gap (newEntry s c prevHash) fun _ ↦ rfl

/-- `AuditStore.record`: the tail is read and the row inserted in one critical section;
`audit.py:412–447`. -/
def record (s : AuditStore) (t : AuditTable) (c : RecordCall) : AuditTable :=
  insertEntry s c (chainTail t.rows) t

/-- A serial sequence of `record` calls on an empty table. -/
def recordAll (s : AuditStore) (calls : List RecordCall) : AuditTable :=
  calls.foldl (record s) .empty

/-! ## Classification -/

/-- The kinds of an anomaly; `audit.py:261–270`. -/
inductive BreakKind where
  | mutated
  | duplicate
  | forked
  | dangling
  deriving DecidableEq, Repr

/-- `ChainBreak`; `audit.py:266–276`. -/
structure ChainBreak where
  id : Int
  kind : BreakKind
  detail : String
  deriving DecidableEq, Repr

/-- `_short`; `audit.py:261–263`. -/
def short (digest : Option String) : String :=
  match digest with
  | none => "the genesis marker"
  | some d => String.ofList (d.toList.take 10) ++ "..."

/-- A list of ids as the language prints it. -/
def showIds (ids : List Int) : String := "[" ++ ", ".intercalate (ids.map Int.repr) ++ "]"

/-- The ids under one hash, in row order; `by_hash`, `audit.py:508–511`. -/
def byHash (rows : List AuditEntry) (hash : String) : List Int :=
  (rows.filter (·.entryHash = hash)).map AuditEntry.id

/-- The ids chained to one parent, in row order; `by_parent`, `audit.py:509–512`. -/
def byParent (rows : List AuditEntry) (parent : Option String) : List Int :=
  (rows.filter (·.prevHash = parent)).map AuditEntry.id

/-- Whether a row can have this parent: the genesis marker or the hash of some row;
`audit.py:361`. -/
def parentExists (rows : List AuditEntry) (parent : Option String) : Bool :=
  match parent with
  | none => true
  | some hash => rows.any (·.entryHash = hash)

/-- `_classify`; `audit.py:338–376`. -/
def classify (row : AuditEntry) (recomputed : String) (expectedPrev : Option String)
    (rows : List AuditEntry) : Option ChainBreak :=
  let twins := (byHash rows row.entryHash).filter (· ≠ row.id)
  let siblings := (byParent rows row.prevHash).filter (· ≠ row.id)
  if row.entryHash ≠ recomputed then
    some ⟨row.id, .mutated, "entry_hash is not the HMAC of this row's fields"⟩
  else if twins ≠ [] then
    some ⟨row.id, .duplicate, "entry_hash is shared with " ++ showIds twins⟩
  else if row.prevHash = expectedPrev then
    none
  else if siblings ≠ [] ∧ parentExists rows row.prevHash then
    some ⟨row.id, .forked, "shares parent " ++ short row.prevHash ++ " with " ++
      showIds siblings ++ "; every HMAC involved is valid, so this is a concurrent append (#306)"⟩
  else
    some ⟨row.id, .dangling, "prev_hash " ++ short row.prevHash ++ " is not the preceding entry"⟩

/-- The anomalies of the rows still to walk, after a row with the hash `expectedPrev`;
`audit.py:514–519`. -/
def scanFrom (s : AuditStore) (rows : List AuditEntry) :
    Option String → List AuditEntry → List ChainBreak
  | _, [] => []
  | expectedPrev, row :: rest =>
    (classify row (computeEntryHash s.hmac s.secret row.values row.prevHash) expectedPrev
      rows).toList ++ scanFrom s rows (some row.entryHash) rest

/-- `_scan`; `audit.py:495–520`. -/
def scan (s : AuditStore) (t : AuditTable) : Nat × List ChainBreak :=
  (t.rows.length, scanFrom s t.rows none t.rows)

/-- `AuditStore.check`; `audit.py:463–493`. -/
def check (s : AuditStore) (t : AuditTable) : List ChainBreak := (scan s t).2

/-- `AuditStore.verify`; `audit.py:581–591`. -/
def verify (s : AuditStore) (t : AuditTable) : List Int :=
  ((check s t).filter (·.kind ≠ .forked)).map ChainBreak.id

/-! ## Report -/

/-- The verdicts, worst first; `audit.py:280–285`. -/
inductive Verdict where
  | tampered
  | forked
  | ok
  deriving DecidableEq, Repr

/-- `ChainReport`; `audit.py:300–313`. -/
structure ChainReport where
  verdict : Verdict
  rows : Nat
  checkedAt : Time
  findings : List ChainBreak
  acknowledgedForks : List Int
  deriving DecidableEq, Repr

/-- How long a report is served again; `_REPORT_TTL`, `audit.py:291`. -/
def reportTtl : Time := 30000000

/-- A fork whose id the deployment has declared; `audit.py:560–562`. -/
def AuditStore.forgives (s : AuditStore) (b : ChainBreak) : Bool :=
  decide (b.kind = .forked ∧ b.id ∈ s.acknowledged)

/-- The report over a fresh walk of the table; `audit.py:558–578`. -/
def computeReport (s : AuditStore) (t : AuditTable) (checkedAt : Time) : ChainReport :=
  let (rows, breaks) := scan s t
  let acknowledged := ((breaks.filter s.forgives).map ChainBreak.id).mergeSort (· ≤ ·)
  let findings := breaks.filter fun b ↦ !s.forgives b
  let verdict :=
    if findings.any fun b ↦ b.kind ≠ .forked then .tampered
    else if findings ≠ [] then .forked
    else .ok
  ⟨verdict, rows, checkedAt, findings, acknowledged⟩

/-- `AuditStore.report`, with the report it served last and the two clock readings it makes;
`audit.py:522–579`. -/
def report (s : AuditStore) (t : AuditTable) (cached : Option ChainReport)
    (now checkedAt : Time) : ChainReport :=
  match cached with
  | none => computeReport s t checkedAt
  | some last =>
    if now - last.checkedAt < reportTtl then last else computeReport s t checkedAt

end CFactory.Audit
