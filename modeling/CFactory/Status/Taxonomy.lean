/-!
# Status taxonomy

`_contracts/factory_contracts/__init__.py:133–259` and `status_taxonomy.py:91–109`.
A status is free text. It is lowered, split on whitespace, `_` and `-`, and classified by
whole tokens. Every vocabulary is ASCII, so lowering is spelled out for ASCII letters and
for KELVIN SIGN, the one other character whose lower case is an ASCII letter.
-/

namespace CFactory.Status

/-- `str.isspace` for one character, which is also what the pattern class `\s` accepts. -/
def isSpace (c : Char) : Bool :=
  (9 ≤ c.val && c.val ≤ 13) || (0x1c ≤ c.val && c.val ≤ 0x20) || c.val == 0x85 ||
    c.val == 0xa0 || c.val == 0x1680 || (0x2000 ≤ c.val && c.val ≤ 0x200a) ||
    c.val == 0x2028 || c.val == 0x2029 || c.val == 0x202f || c.val == 0x205f ||
    c.val == 0x3000

/-- `str.lower` for one character, as far as an ASCII vocabulary can tell. -/
def lower (c : Char) : Char := if c.val == 0x212a then 'k' else c.toLower

/-- A character of `_SPLIT_RE`; `factory_contracts/__init__.py:213`. -/
def isSplit (c : Char) : Bool := isSpace c || c == '_' || c == '-'

/-- `_tokens`; `factory_contracts/__init__.py:216–220`. Stripping first is no step of its
own here, since the characters it removes are split characters. -/
def tokens (status : Option String) : List (List Char) :=
  match status with
  | none => []
  | some s => ((s.toList.map lower).splitOnP isSplit).filter (· ≠ [])

/-- `_matches`; `factory_contracts/__init__.py:223–224`. -/
def statusMatches (status : Option String) (vocabulary : List String) : Bool :=
  (tokens status).any fun t ↦ vocabulary.any fun w ↦ w.toList == t

/-- `_FAILED_TOKENS`. -/
def failedTokens : List String :=
  ["abort", "aborted", "block", "blocked", "cancel", "canceled", "cancelled", "discard",
    "discarded", "error", "errored", "fail", "failed", "failure", "reject", "rejected"]

/-- `_DONE_TOKENS`. -/
def doneTokens : List String :=
  ["accept", "accepted", "approved", "closed", "complete", "completed", "done", "emitted",
    "merged", "passed", "ready", "shipped", "skip", "skipped", "succeeded", "success",
    "triaged"]

/-- `_STUCK_TOKENS`. -/
def stuckTokens : List String := ["stuck"]

/-- `is_failed`; `factory_contracts/__init__.py:227–229`. -/
def isFailed (status : Option String) : Bool := statusMatches status failedTokens

/-- `is_done`; `factory_contracts/__init__.py:232–234`. -/
def isDone (status : Option String) : Bool := statusMatches status doneTokens

/-- `is_stuck`; `factory_contracts/__init__.py:247–249`. -/
def isStuck (status : Option String) : Bool := statusMatches status stuckTokens

/-- `is_terminal`; `factory_contracts/__init__.py:252–254`. -/
def isTerminal (status : Option String) : Bool := isDone status || isFailed status

/-- `is_failure_or_stuck`; `factory_contracts/__init__.py:257–259`. -/
def isFailureOrStuck (status : Option String) : Bool := isFailed status || isStuck status

/-- `is_dead_stage`; `status_taxonomy.py:94–109`. -/
def isDeadStage (status : Option String) : Bool :=
  isStuck status || (tokens status).any fun t ↦ "stalled".toList == t

/-- A lowered letter is one of the ASCII letters. -/
theorem toLower_val (c : Char) :
    c.toLower = c ∨ (97 ≤ c.toLower.val.toNat ∧ c.toLower.val.toNat ≤ 122) := by
  delta Char.toLower
  split
  · next hupper =>
    have hlow : 65 ≤ c.val.toNat := hupper.1
    have hhigh : c.val.toNat ≤ 90 := hupper.2
    have hval : (c.val + ('a'.val - 'A'.val)).toNat = c.val.toNat + 32 := by
      have hdiff : ('a'.val - 'A'.val).toNat = 32 := by decide
      rw [UInt32.toNat_add, hdiff]
      omega
    right
    dsimp only
    omega
  · exact .inl rfl

/-- A small letter is lowered to itself. -/
theorem lower_eq_self {c : Char} (h : 97 ≤ c.val.toNat ∧ c.val.toNat ≤ 122) : lower c = c := by
  have hkelvin : ¬ (c.val == 0x212a) = true := by
    rw [beq_iff_eq, ← UInt32.toNat_inj]
    simp only [UInt32.reduceToNat]
    omega
  rw [lower, if_neg hkelvin]
  delta Char.toLower
  split
  · next hupper =>
    have hhigh : c.val.toNat ≤ 90 := hupper.2
    omega
  · rfl

/-- What is lowered stays as it is. -/
theorem lower_lower (c : Char) : lower (lower c) = lower c := by
  by_cases hkelvin : (c.val == 0x212a) = true
  · have hk : lower c = 'k' := if_pos hkelvin
    rw [hk]
    decide
  · have hc : lower c = c.toLower := if_neg hkelvin
    rcases toLower_val c with hsame | hrange
    · rw [hc, hsame, hc, hsame]
    · rw [hc, lower_eq_self hrange]

/-- A missing status has no tokens. -/
@[simp] theorem tokens_none : tokens none = [] := rfl

/-- An empty status has no tokens. -/
@[simp] theorem tokens_empty : tokens (some "") = [] := by decide

/-- A missing status matches no vocabulary. -/
@[simp] theorem statusMatches_none (v : List String) : statusMatches none v = false := rfl

/-- An empty status matches no vocabulary. -/
@[simp] theorem statusMatches_empty (v : List String) : statusMatches (some "") v = false := by
  simp [statusMatches]

@[simp] theorem isDone_none : isDone none = false := rfl

@[simp] theorem isFailureOrStuck_none : isFailureOrStuck none = false := rfl

@[simp] theorem isDone_empty : isDone (some "") = false := statusMatches_empty _

@[simp] theorem isFailureOrStuck_empty : isFailureOrStuck (some "") = false := by
  simp [isFailureOrStuck, isFailed, isStuck]

@[simp] theorem isTerminal_none : isTerminal none = false := rfl

@[simp] theorem isDeadStage_none : isDeadStage none = false := rfl

/-- Matching is by whole token: a status that merely contains the letters is not stalled. -/
example : isDeadStage (some "deps_installed_done") = false ∧
    isDeadStage (some "watchdog_stalled") = true := by decide

end CFactory.Status
