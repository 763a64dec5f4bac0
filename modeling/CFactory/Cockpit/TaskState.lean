import CFactory.Base.Pattern
import CFactory.Status.Taxonomy

/-!
# Statuses as the cockpit classifies them

`apps/frontend-web/src/taskState.ts:1–34` against `status_taxonomy.py:25–109`. The cockpit
searches a status for stems and for words between underscores and hyphens; the backend compares
whole tokens. The patterns ignore case for ASCII letters only, so they are searched for in the
text with its ASCII letters lowered.
-/

namespace CFactory.Cockpit

open CFactory.Base CFactory.Status

/-- `TaskState`; `taskState.ts:7`. -/
inductive TaskState where
  | running
  | review
  | queued
  | done
  | failed
  | idle
  deriving DecidableEq, Repr

/-! ## The patterns -/

/-- The class `[_-]`. -/
def bars : List Char := ['_', '-']

/-- A literal of a pattern. -/
def literal (w : String) : Pattern Char := .word w.toList

/-- Two literals with `[_-]?` between them. -/
def joined (v w : String) : Pattern Char :=
  .seq (literal v) (.seq (.optional (.oneOf bars)) (literal w))

/-- The stems of `FAIL`. -/
def failStems : List String := ["fail", "reject", "error", "abort", "cancel", "block", "discard"]

/-- `FAIL`; `taskState.ts:9`. -/
def FAIL : Pattern Char := .anyOf (failStems.map literal)

/-- The words of `STALLED`. -/
def stalledWords : List String := ["stalled", "stuck"]

/-- `STALLED`; `taskState.ts:12`. -/
def STALLED : Pattern Char := .bounded bars (.anyOf (stalledWords.map literal))

/-- The words of `DONE` other than `qa[_-]?approved`. -/
def doneWords : List String :=
  ["merged", "done", "complete", "completed", "passed", "approved", "shipped", "succeeded",
    "success", "ready", "emitted", "triaged", "closed", "accepted"]

/-- `DONE`; `taskState.ts:18–19`. -/
def DONE : Pattern Char :=
  .bounded bars (.anyOf (doneWords.map literal ++ [joined "qa" "approved"]))

/-- `REVIEW`; `taskState.ts:20`. -/
def REVIEW : Pattern Char :=
  .anyOf [joined "human" "review", joined "ai" "review", joined "needs" "review",
    joined "in" "review", literal "awaiting", literal "review"]

/-- `QUEUED`; `taskState.ts:21`. -/
def QUEUED : Pattern Char :=
  .anyOf [literal "backlog", literal "pending", literal "queued", literal "todo",
    literal "icebox", literal "draft", joined "not" "started"]

/-- `RUNNING`; `taskState.ts:22–23`. -/
def RUNNING : Pattern Char :=
  .anyOf [joined "in" "progress", literal "running", literal "executing", literal "working",
    literal "coding", literal "planning", literal "generating", literal "building",
    literal "act"]

/-! ## The classifier -/

/-- What the patterns are searched for in. -/
def cockpitText (status : String) : List Char := status.toList.map Char.toLower

/-- `isStalledStatus`; `taskState.ts:14–17`. -/
def isStalledStatus (status : Option String) : Bool :=
  status.any fun s ↦ s ≠ "" && STALLED.test (cockpitText s)

/-- `stageState`; `taskState.ts:25–34`. -/
def stageState (status : Option String) : TaskState :=
  match status with
  | none => .idle
  | some s =>
    if s = "" then .idle
    else if FAIL.test (cockpitText s) || isStalledStatus (some s) then .failed
    else if DONE.test (cockpitText s) then .done
    else if REVIEW.test (cockpitText s) then .review
    else if QUEUED.test (cockpitText s) then .queued
    else if RUNNING.test (cockpitText s) then .running
    else .running

/-! ## What the patterns find -/

/-- One of the stems occurs in the status, whatever stands around it. -/
def HoldsStem (s : String) : Prop := ∃ w ∈ failStems, w.toList <:+: cockpitText s

/-- A word stands in the status between underscores, hyphens and the ends. -/
def HasSegment (words : List String) (s : String) : Prop :=
  ∃ w ∈ words, w.toList ∈ (cockpitText s).splitOnP (· ∈ bars)

/-- A word is a token of the status. -/
def HasToken (words : List String) (s : String) : Prop :=
  ∃ w ∈ words, w.toList ∈ tokens (some s)

instance (s : String) : Decidable (HoldsStem s) :=
  inferInstanceAs (Decidable (∃ w ∈ failStems, w.toList <:+: cockpitText s))

instance (words : List String) (s : String) : Decidable (HasSegment words s) :=
  inferInstanceAs (Decidable (∃ w ∈ words, _))

instance (words : List String) (s : String) : Decidable (HasToken words s) :=
  inferInstanceAs (Decidable (∃ w ∈ words, _))

private theorem map_literal (ws : List String) :
    ws.map literal = (ws.map String.toList).map .word := by
  rw [List.map_map]
  rfl

/-- `FAIL` finds a stem anywhere. -/
theorem fail_iff (s : String) : FAIL.test (cockpitText s) = true ↔ HoldsStem s := by
  rw [Pattern.test_iff, FAIL, map_literal, Pattern.foundIn_words, HoldsStem]
  simp only [List.mem_map, exists_exists_and_eq_and]

/-- What holds of all characters of the words of a list holds of each of them. -/
private theorem of_all_words {words : List String} {p : Char → Prop} [DecidablePred p]
    (h : (words.all fun w ↦ w.toList.all fun c ↦ decide (p c)) = true) :
    ∀ w ∈ words, ∀ c ∈ w.toList, p c := by
  intro w hw c hc
  exact of_decide_eq_true (List.all_eq_true.mp (List.all_eq_true.mp h w hw) c hc)

/-- A bounded word is found where it is a segment. -/
private theorem bounded_word_iff {w text : List Char} (hw : ∀ c ∈ w, c ∉ bars) :
    (∃ before after, text = before ++ w ++ after ∧ Pattern.Between (· ∈ bars) before after) ↔
      w ∈ text.splitOnP (· ∈ bars) := by
  rw [mem_splitOnP_iff]
  simp only [decide_eq_true_eq, decide_eq_false_iff_not]
  exact (and_iff_right hw).symm

/-- Bounded words without underscores and hyphens are found where one is a segment. -/
theorem bounded_words_iff {ws : List String} (hws : ∀ w ∈ ws, ∀ c ∈ w.toList, c ∉ bars)
    (s : String) : (Pattern.bounded bars (.anyOf (ws.map literal))).test (cockpitText s) = true ↔
      HasSegment ws s := by
  rw [Pattern.test_iff, Pattern.foundIn_bounded, HasSegment]
  constructor
  · rintro ⟨before, m, after, htext, hbetween, hm⟩
    obtain ⟨p, hp, hm⟩ := Pattern.matches_anyOf.mp hm
    obtain ⟨w, hw, rfl⟩ := List.mem_map.mp hp
    cases hm
    exact ⟨w, hw, (bounded_word_iff (hws w hw)).mp ⟨before, after, htext, hbetween⟩⟩
  · rintro ⟨w, hw, hsegment⟩
    obtain ⟨before, after, htext, hbetween⟩ := (bounded_word_iff (hws w hw)).mpr hsegment
    exact ⟨before, w.toList, after, htext, hbetween,
      Pattern.matches_anyOf.mpr ⟨literal w, List.mem_map_of_mem hw, rfl⟩⟩

/-- The cockpit's words for a finished stage, the joined spelling included. -/
def finishedWords : List String := "qaapproved" :: doneWords

/-- `DONE` finds a segment: the joined alternative adds one spelling to the words, and where it
is spelled with a bar its second word is a segment by itself. -/
theorem done_iff (s : String) :
    DONE.test (cockpitText s) = true ↔ HasSegment finishedWords s := by
  have hclean : ∀ w ∈ finishedWords, ∀ c ∈ w.toList, c ∉ bars := of_all_words (by decide)
  rw [Pattern.test_iff, DONE, Pattern.foundIn_bounded]
  constructor
  · rintro ⟨before, m, after, htext, hbetween, hm⟩
    obtain ⟨p, hp, hm⟩ := Pattern.matches_anyOf.mp hm
    cases List.mem_append.mp hp with
    | inl hword =>
      obtain ⟨w, hw, rfl⟩ := List.mem_map.mp hword
      cases hm
      have hfinished : w ∈ finishedWords := List.mem_cons_of_mem _ hw
      exact ⟨w, hfinished, (bounded_word_iff (hclean w hfinished)).mp
        ⟨before, after, htext, hbetween⟩⟩
    | inr hjoined =>
      cases List.mem_singleton.mp hjoined
      obtain ⟨_, _, rfl, rfl, bar, _, rfl, hbar, rfl⟩ := hm
      cases hbar with
      | inl hnone =>
        subst hnone
        exact ⟨"qaapproved", List.mem_cons_self,
          (bounded_word_iff (hclean "qaapproved" List.mem_cons_self)).mp
            ⟨before, after, htext, hbetween⟩⟩
      | inr hbar =>
        obtain ⟨c, hc, rfl⟩ := hbar
        have happroved : "approved" ∈ finishedWords := by decide
        refine ⟨"approved", happroved, (bounded_word_iff (hclean "approved" happroved)).mp
          ⟨before ++ "qa".toList ++ [c], after, ?_, .inr ⟨_, c, hc, rfl⟩, hbetween.right⟩⟩
        rw [htext]
        simp only [List.append_assoc]
  · rintro ⟨w, hw, hsegment⟩
    obtain ⟨before, after, htext, hbetween⟩ := (bounded_word_iff (hclean w hw)).mpr hsegment
    refine ⟨before, w.toList, after, htext, hbetween, Pattern.matches_anyOf.mpr ?_⟩
    cases List.mem_cons.mp hw with
    | inl hqa =>
      subst hqa
      exact ⟨joined "qa" "approved", List.mem_append_right _ (List.mem_singleton_self _),
        "qa".toList, "approved".toList, rfl, rfl, [], "approved".toList, rfl, .inl rfl, rfl⟩
    | inr hword =>
      exact ⟨literal w, List.mem_append_left _ (List.mem_map_of_mem hword), rfl⟩

/-! ## Agreement -/

/-- A status matches a vocabulary where a word of it is a token. -/
theorem statusMatches_iff (vocabulary : List String) (s : String) :
    statusMatches (some s) vocabulary = true ↔ HasToken vocabulary s := by
  rw [statusMatches, HasToken, List.any_eq_true]
  constructor
  · rintro ⟨t, ht, hany⟩
    obtain ⟨w, hw, heq⟩ := List.any_eq_true.mp hany
    rw [beq_iff_eq] at heq
    exact ⟨w, hw, heq ▸ ht⟩
  · rintro ⟨w, hw, ht⟩
    exact ⟨_, ht, List.any_eq_true.mpr ⟨w, hw, beq_self_eq_true _⟩⟩

/-- KELVIN SIGN, which the backend lowers to a letter of its vocabulary and the cockpit does not. -/
def kelvinSign : Char := Char.ofNat 0x212a

/-- The two ways of lowering agree on what the cockpit does not lower to KELVIN SIGN. -/
private theorem lower_eq {c : Char} (h : c.toLower ≠ kelvinSign) : lower c = c.toLower := by
  have hc : c ≠ kelvinSign := by
    rintro rfl
    exact h (by decide)
  rw [lower, if_neg]
  rw [beq_iff_eq]
  exact fun hval ↦ hc (Char.ext hval)

/-- A bar of the cockpit's text splits the backend's. -/
private theorem isSplit_of_bar {c : Char} (h : c.toLower ∈ bars) : isSplit (lower c) = true := by
  have hkelvin : c.toLower ≠ kelvinSign := by
    intro hc
    rw [hc] at h
    exact absurd h (by decide)
  rw [lower_eq hkelvin]
  cases List.mem_cons.mp h with
  | inl hunder => rw [hunder]; decide
  | inr hhyphen => rw [List.mem_singleton.mp hhyphen]; decide

/-- A segment that no whitespace splits is a token. -/
theorem token_of_segment {w : List Char} {s : String} (hne : w ≠ [])
    (hw : ∀ c ∈ w, isSplit c = false ∧ c ≠ kelvinSign)
    (h : w ∈ (cockpitText s).splitOnP (· ∈ bars)) : w ∈ tokens (some s) := by
  obtain ⟨-, before, after, htext, hleft, hright⟩ := mem_splitOnP_iff.mp h
  obtain ⟨front, back, hs, hfront, hback⟩ := List.map_eq_append_iff.mp htext
  obtain ⟨first, mid, rfl, hfirst, hmid⟩ := List.map_eq_append_iff.mp hfront
  have hlower : mid.map lower = w := by
    rw [← hmid]
    apply List.map_congr_left
    intro c hc
    exact lower_eq (hw _ (hmid ▸ List.mem_map_of_mem hc)).2
  refine List.mem_filter.mpr ⟨mem_splitOnP_iff.mpr ⟨fun c hc ↦ (hw c hc).1, first.map lower,
    back.map lower, ?_, ?_, ?_⟩, decide_eq_true hne⟩
  · rw [hs, List.map_append, List.map_append, hlower]
  · cases hleft with
    | inl hnil =>
      rw [hnil, List.map_eq_nil_iff] at hfirst
      exact .inl (by rw [hfirst]; rfl)
    | inr hbar =>
      obtain ⟨b, c, hc, hb⟩ := hbar
      rw [hb] at hfirst
      obtain ⟨front, last, rfl, -, hlast⟩ := List.map_eq_append_iff.mp hfirst
      obtain ⟨d, rfl, hd⟩ := List.map_eq_singleton_iff.mp hlast
      rw [← hd, decide_eq_true_eq] at hc
      exact .inr ⟨front.map lower, lower d, isSplit_of_bar hc, by rw [List.map_append]; rfl⟩
  · cases hright with
    | inl hnil =>
      rw [hnil, List.map_eq_nil_iff] at hback
      exact .inl (by rw [hback]; rfl)
    | inr hbar =>
      obtain ⟨c, a, hc, ha⟩ := hbar
      rw [ha] at hback
      obtain ⟨d, rest, rfl, hd, -⟩ := List.map_eq_cons_iff.mp hback
      rw [← hd, decide_eq_true_eq] at hc
      exact .inr ⟨lower d, rest.map lower, isSplit_of_bar hc, rfl⟩

/-- The vocabulary of a failed or dead stage. -/
def failureTokens : List String := failedTokens ++ "stalled" :: stuckTokens

/-- The backend's test of a failed or dead stage is one vocabulary. -/
theorem failed_or_dead_iff (s : String) :
    isFailed (some s) = true ∨ isDeadStage (some s) = true ↔ HasToken failureTokens s := by
  have hstalled : ((tokens (some s)).any fun t ↦ "stalled".toList == t) = true ↔
      HasToken ["stalled"] s := by
    rw [← statusMatches_iff, statusMatches]
    simp only [List.any_cons, List.any_nil, Bool.or_false]
  rw [isFailed, isDeadStage, isStuck, Bool.or_eq_true, hstalled, statusMatches_iff,
    statusMatches_iff]
  simp only [HasToken, failureTokens, List.mem_append, List.mem_cons, or_and_right, exists_or]
  simp only [List.not_mem_nil, false_and, exists_false, or_false, exists_eq_left]
  exact or_congr_right or_comm

/-- The cockpit shows a stage failed where a stem occurs or a stalled word is a segment. -/
theorem stageState_failed_iff (s : String) :
    stageState (some s) = .failed ↔ HoldsStem s ∨ HasSegment stalledWords s := by
  have hplain : ∀ w ∈ stalledWords, ∀ c ∈ w.toList, c ∉ bars := of_all_words (by decide)
  have hstalled := bounded_words_iff hplain s
  by_cases hempty : s = ""
  · subst hempty
    decide
  · rw [stageState, if_neg hempty, ← fail_iff, ← hstalled]
    have htest : isStalledStatus (some s) = STALLED.test (cockpitText s) := by
      rw [isStalledStatus, Option.any_some, decide_eq_true hempty, Bool.true_and]
    rw [htest, ← Bool.or_eq_true]
    split
    · next h => exact iff_of_true rfl h
    · next h =>
      refine iff_of_false ?_ h
      split
      · simp
      · split
        · simp
        · split
          · simp
          · split <;> simp

/-- The cockpit shows a stage done where it is not failed and a finished word is a segment. -/
theorem stageState_done_iff (s : String) :
    stageState (some s) = .done ↔
      ¬(HoldsStem s ∨ HasSegment stalledWords s) ∧ HasSegment finishedWords s := by
  rw [← stageState_failed_iff, ← done_iff]
  by_cases hempty : s = ""
  · subst hempty
    decide
  · rw [stageState, if_neg hempty]
    split
    · simp
    · split
      · next h => exact iff_of_true rfl ⟨by simp, h⟩
      · next h =>
        refine iff_of_false ?_ fun hdone ↦ h hdone.2
        split
        · simp
        · split
          · simp
          · split <;> simp

/-- A stem occurs in a status without a failure token: `unblocked`, `errors`. -/
def StrayStem (s : String) : Prop := HoldsStem s ∧ ¬HasToken failureTokens s

/-- A failure token without a stem, and without a stalled word between underscores, hyphens and
the ends: `agent stuck`. -/
def HiddenFailure (s : String) : Prop :=
  HasToken failureTokens s ∧ ¬HoldsStem s ∧ ¬HasSegment stalledWords s

/-- Without a failure, a done token without a finished word between underscores, hyphens and
the ends: `all done`, `skipped`. -/
def HiddenDone (s : String) : Prop :=
  ¬HasToken failureTokens s ∧ ¬HoldsStem s ∧ HasToken doneTokens s ∧ ¬HasSegment finishedWords s

/-- Without a failure and without a done token, the segment `qaapproved`. -/
def StrayDone (s : String) : Prop :=
  ¬HasToken failureTokens s ∧ ¬HoldsStem s ∧ HasSegment ["qaapproved"] s ∧ ¬HasToken doneTokens s

/-- The two classifiers agree on what has failed and on what is done. -/
def ClassifiedAlike (s : String) : Prop :=
  (stageState (some s) = .failed ↔ isFailed (some s) = true ∨ isDeadStage (some s) = true) ∧
    (stageState (some s) = .done ↔
      ¬(isFailed (some s) = true ∨ isDeadStage (some s) = true) ∧ isDone (some s) = true)

/-- Where the words are tokens without split characters, a segment among them is a token. -/
private theorem token_of_words {words toks : List String} {s : String}
    (hlisted : ∀ v ∈ words, v.toList ≠ [] ∧ v ∈ toks)
    (hplain : ∀ v ∈ words, ∀ c ∈ v.toList, isSplit c = false ∧ c ≠ kelvinSign) :
    HasSegment words s → HasToken toks s := by
  rintro ⟨w, hw, hsegment⟩
  obtain ⟨hne, hmem⟩ := hlisted w hw
  exact ⟨w, hmem, token_of_segment hne (hplain w hw) hsegment⟩

/-- The classifiers agree on a status exactly if it is of none of four kinds. -/
theorem classified_alike_iff (s : String) :
    ClassifiedAlike s ↔
      ¬StrayStem s ∧ ¬HiddenFailure s ∧ ¬HiddenDone s ∧ ¬StrayDone s := by
  have hdone : isDone (some s) = true ↔ HasToken doneTokens s := statusMatches_iff _ s
  unfold ClassifiedAlike StrayStem HiddenFailure HiddenDone StrayDone
  rw [stageState_failed_iff, stageState_done_iff, failed_or_dead_iff, hdone]
  have hdead : HasSegment stalledWords s → HasToken failureTokens s :=
    token_of_words (by decide) (of_all_words (by decide))
  have hfinished : HasSegment finishedWords s ↔
      HasSegment ["qaapproved"] s ∨ HasSegment doneWords s := by
    simp only [HasSegment, finishedWords, List.mem_cons, or_and_right, exists_or]
    simp only [List.not_mem_nil, false_and, exists_false, or_false, exists_eq_left]
  have hword : HasSegment doneWords s → HasToken doneTokens s :=
    token_of_words (by decide) (of_all_words (by decide))
  by_cases hstem : HoldsStem s
  · by_cases hfail : HasToken failureTokens s
    · simp [hstem, hfail]
    · simp [hstem, hfail]
  · by_cases hsegment : HasSegment stalledWords s
    · simp [hstem, hsegment, hdead hsegment]
    · by_cases hfail : HasToken failureTokens s
      · simp [hstem, hsegment, hfail]
      · simp only [hstem, hsegment, hfail, hfinished]
        by_cases hqa : HasSegment ["qaapproved"] s
        · simp [hqa]
        · by_cases hdoneWord : HasSegment doneWords s
          · simp [hqa, hdoneWord, hword hdoneWord]
          · simp [hqa, hdoneWord]

/-- An unblocked stage is shown failed. -/
theorem unblocked_shown_failed : ¬ClassifiedAlike "unblocked" := by
  rintro ⟨hfailed, -⟩
  exact absurd (hfailed.mp (by decide)) (by decide)

/-! ## Statuses without white space -/

/-- A status without white space and without KELVIN SIGN. -/
def Plain (s : String) : Prop := ∀ c ∈ s.toList, isSpace c = false ∧ c ≠ kelvinSign

/-- Lowering makes no white space. -/
private theorem isSpace_toLower {c : Char} (h : isSpace c = false) : isSpace c.toLower = false := by
  cases toLower_val c with
  | inl heq => rw [heq, h]
  | inr hrange =>
    simp only [isSpace, Bool.or_eq_false_iff, Bool.and_eq_false_iff, decide_eq_false_iff_not,
      UInt32.le_iff_toNat_le, beq_eq_false_iff_ne, ne_eq, ← UInt32.toNat_inj, UInt32.reduceToNat]
    omega

private theorem toLower_ne_kelvinSign {c : Char} (h : c ≠ kelvinSign) :
    c.toLower ≠ kelvinSign := by
  cases toLower_val c with
  | inl heq => rwa [heq]
  | inr hrange =>
    intro heq
    have hval : kelvinSign.val.toNat = 0x212a := by decide
    rw [heq, hval] at hrange
    omega

/-- In a plain status every token is a segment. -/
theorem segment_of_token_plain {w : List Char} {s : String} (hs : Plain s)
    (h : w ∈ tokens (some s)) :
    w ∈ (cockpitText s).splitOnP (· ∈ bars) := by
  have hlower : ∀ c ∈ s.toList, lower c = c.toLower := fun c hc ↦
    lower_eq (toLower_ne_kelvinSign (hs c hc).2)
  have htext : s.toList.map lower = cockpitText s := List.map_congr_left hlower
  have hsplit : ∀ c ∈ cockpitText s, isSplit c = decide (c ∈ bars) := by
    intro c hc
    obtain ⟨d, hd, rfl⟩ := List.mem_map.mp hc
    rw [isSplit, isSpace_toLower (hs d hd).1]
    simp [bars, beq_eq_decide]
  have hmem := (List.mem_filter.mp h).1
  rw [htext] at hmem
  obtain ⟨hw, before, after, heq, hleft, hright⟩ := mem_splitOnP_iff.mp hmem
  have hbar : ∀ c ∈ cockpitText s, isSplit c = true → decide (c ∈ bars) = true :=
    fun c hc hsp ↦ hsplit c hc ▸ hsp
  refine mem_splitOnP_iff.mpr ⟨fun c hc ↦ ?_, before, after, heq, ?_, ?_⟩
  · rw [← hsplit c (by simp [heq, hc]), hw c hc]
  · cases hleft with
    | inl hnil => exact .inl hnil
    | inr hclass =>
      obtain ⟨b, c, hc, rfl⟩ := hclass
      exact .inr ⟨b, c, hbar c (by simp [heq]) hc, rfl⟩
  · cases hright with
    | inl hnil => exact .inl hnil
    | inr hclass =>
      obtain ⟨c, a, hc, rfl⟩ := hclass
      exact .inr ⟨c, a, hbar c (by simp [heq]) hc, rfl⟩

/-- In a plain status no failure is hidden: a failure token other than a stalled word holds a
stem. -/
theorem not_hiddenFailure {s : String} (hs : Plain s) : ¬HiddenFailure s := by
  rintro ⟨⟨w, hw, htoken⟩, hstem, hstalled⟩
  have hkinds : ∀ v ∈ failureTokens,
      v ∈ stalledWords ∨ ∃ stem ∈ failStems, stem.toList <:+: v.toList := by decide
  have hsegment := segment_of_token_plain hs htoken
  cases hkinds w hw with
  | inl hword => exact hstalled ⟨w, hword, hsegment⟩
  | inr hholds =>
    obtain ⟨stem, hmem, hinfix⟩ := hholds
    obtain ⟨-, before, after, htext, -⟩ := mem_splitOnP_iff.mp hsegment
    exact hstem ⟨stem, hmem, hinfix.trans ⟨before, after, htext.symm⟩⟩

end CFactory.Cockpit
