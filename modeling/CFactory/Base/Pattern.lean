import Mathlib.Data.List.Infix

/-!
# Search patterns

Words, classes, anchors, optional parts, alternatives and sequences, searched for anywhere in a
text. The matcher is executable; what it finds is stated over the text before, of and after a
match. Nothing here names an application.
-/

namespace CFactory.Base

universe u

/-- A pattern over the characters of a text. -/
inductive Pattern (α : Type u) where
  | word (w : List α)
  | oneOf (cs : List α)
  /-- The start of the text. -/
  | start
  /-- The end of the text. -/
  | stop
  | optional (p : Pattern α)
  | alt (p q : Pattern α)
  | seq (p q : Pattern α)

namespace Pattern

variable {α : Type u}

/-- One of several patterns. -/
def anyOf (ps : List (Pattern α)) : Pattern α := ps.foldr alt (oneOf [])

/-- The pattern between the ends of the text or characters of a class. -/
def bounded (cs : List α) (p : Pattern α) : Pattern α :=
  seq (alt start (oneOf cs)) (seq p (alt (oneOf cs) stop))

/-- A match of the pattern between two texts. -/
def Matches : Pattern α → List α → List α → List α → Prop
  | word w, _, m, _ => m = w
  | oneOf cs, _, m, _ => ∃ c ∈ cs, m = [c]
  | start, before, m, _ => m = [] ∧ before = []
  | stop, _, m, after => m = [] ∧ after = []
  | optional p, before, m, after => m = [] ∨ p.Matches before m after
  | alt p q, before, m, after => p.Matches before m after ∨ q.Matches before m after
  | seq p q, before, m, after => ∃ m₁ m₂, m = m₁ ++ m₂ ∧ p.Matches before m₁ (m₂ ++ after) ∧
      q.Matches (before ++ m₁) m₂ after

/-- The pattern matches somewhere in the text. -/
def FoundIn (p : Pattern α) (text : List α) : Prop :=
  ∃ before m after, text = before ++ m ++ after ∧ p.Matches before m after

/-! ## The matcher -/

section

variable [DecidableEq α]

/-- The positions that matches from this one on may end at; a position is the text before it and
the text after it. -/
def ends : Pattern α → List α → List α → List (List α × List α)
  | word w, before, text =>
    if w <+: text then [(before ++ w, text.drop w.length)] else []
  | oneOf _, _, [] => []
  | oneOf cs, before, c :: rest => if c ∈ cs then [(before ++ [c], rest)] else []
  | start, before, text => if before = [] then [(before, text)] else []
  | stop, before, text => if text = [] then [(before, text)] else []
  | optional p, before, text => (before, text) :: p.ends before text
  | alt p q, before, text => p.ends before text ++ q.ends before text
  | seq p q, before, text => (p.ends before text).flatMap fun x ↦ q.ends x.1 x.2

/-- Search for the pattern from a position on. -/
def search (p : Pattern α) (before : List α) : List α → Bool
  | [] => !(p.ends before []).isEmpty
  | c :: rest => !(p.ends before (c :: rest)).isEmpty || p.search (before ++ [c]) rest

/-- Search for the pattern in a text. -/
def test (p : Pattern α) (text : List α) : Bool := p.search [] text

/-- The matcher ends where matches do. -/
theorem mem_ends {p : Pattern α} {before text : List α} {x : List α × List α} :
    x ∈ p.ends before text ↔
      ∃ m, text = m ++ x.2 ∧ x.1 = before ++ m ∧ p.Matches before m x.2 := by
  induction p generalizing before text x with
  | word w =>
    rw [ends, List.mem_ite_nil_right, List.mem_singleton]
    constructor
    · rintro ⟨⟨rest, rfl⟩, rfl⟩
      exact ⟨w, by rw [List.drop_left], rfl, rfl⟩
    · rintro ⟨m, rfl, hbefore, rfl⟩
      exact ⟨List.prefix_append m x.2, Prod.ext hbefore (List.drop_left ..).symm⟩
  | oneOf cs =>
    cases text with
    | nil =>
      constructor
      · exact fun h ↦ absurd h List.not_mem_nil
      · rintro ⟨m, htext, -, c, -, rfl⟩
        cases htext
    | cons c rest =>
      rw [ends, List.mem_ite_nil_right, List.mem_singleton]
      constructor
      · rintro ⟨hc, rfl⟩
        exact ⟨[c], rfl, rfl, c, hc, rfl⟩
      · rintro ⟨m, htext, hbefore, d, hd, rfl⟩
        obtain ⟨rfl, rfl⟩ := List.cons.inj htext
        exact ⟨hd, Prod.ext hbefore rfl⟩
  | start =>
    rw [ends, List.mem_ite_nil_right, List.mem_singleton]
    constructor
    · rintro ⟨hstart, rfl⟩
      exact ⟨[], rfl, (List.append_nil _).symm, rfl, hstart⟩
    · rintro ⟨m, htext, hbefore, rfl, hstart⟩
      exact ⟨hstart, Prod.ext (hbefore.trans (List.append_nil _)) htext.symm⟩
  | stop =>
    rw [ends, List.mem_ite_nil_right, List.mem_singleton]
    constructor
    · rintro ⟨hstop, rfl⟩
      exact ⟨[], rfl, (List.append_nil _).symm, rfl, hstop⟩
    · rintro ⟨m, htext, hbefore, rfl, hstop⟩
      exact ⟨htext.trans hstop, Prod.ext (hbefore.trans (List.append_nil _)) htext.symm⟩
  | optional p ih =>
    rw [ends, List.mem_cons, ih]
    constructor
    · rintro (rfl | ⟨m, htext, hbefore, hm⟩)
      · exact ⟨[], rfl, (List.append_nil _).symm, .inl rfl⟩
      · exact ⟨m, htext, hbefore, .inr hm⟩
    · rintro ⟨m, htext, hbefore, rfl | hm⟩
      · exact .inl (Prod.ext (hbefore.trans (List.append_nil _)) htext.symm)
      · exact .inr ⟨m, htext, hbefore, hm⟩
  | alt p q ihp ihq =>
    rw [ends, List.mem_append, ihp, ihq]
    constructor
    · rintro (⟨m, htext, hbefore, hm⟩ | ⟨m, htext, hbefore, hm⟩)
      · exact ⟨m, htext, hbefore, .inl hm⟩
      · exact ⟨m, htext, hbefore, .inr hm⟩
    · rintro ⟨m, htext, hbefore, hm | hm⟩
      · exact .inl ⟨m, htext, hbefore, hm⟩
      · exact .inr ⟨m, htext, hbefore, hm⟩
  | seq p q ihp ihq =>
    rw [ends, List.mem_flatMap]
    constructor
    · rintro ⟨y, hy, hx⟩
      obtain ⟨m₁, htext, hbefore, hp⟩ := ihp.mp hy
      obtain ⟨m₂, htext', hbefore', hq⟩ := ihq.mp hx
      refine ⟨m₁ ++ m₂, ?_, ?_, m₁, m₂, rfl, htext' ▸ hp, hbefore ▸ hq⟩
      · rw [htext, htext', List.append_assoc]
      · rw [hbefore', hbefore, List.append_assoc]
    · rintro ⟨m, htext, hbefore, m₁, m₂, rfl, hp, hq⟩
      refine ⟨(before ++ m₁, m₂ ++ x.2), ihp.mpr ⟨m₁, ?_, rfl, hp⟩, ihq.mpr ⟨m₂, rfl, ?_, hq⟩⟩
      · rw [htext, List.append_assoc]
      · rw [hbefore, List.append_assoc]

/-- A match from a position on, somewhere after it. -/
private theorem search_iff {p : Pattern α} {before text : List α} :
    p.search before text = true ↔ ∃ skipped m after, text = skipped ++ m ++ after ∧
      p.Matches (before ++ skipped) m after := by
  have hhere : ∀ before text, (!(p.ends before text).isEmpty) = true ↔
      ∃ m after, text = m ++ after ∧ p.Matches before m after := by
    intro before text
    rw [Bool.not_eq_true', List.isEmpty_eq_false_iff_exists_mem]
    constructor
    · rintro ⟨x, hx⟩
      obtain ⟨m, htext, -, hm⟩ := mem_ends.mp hx
      exact ⟨m, x.2, htext, hm⟩
    · rintro ⟨m, after, htext, hm⟩
      exact ⟨(before ++ m, after), mem_ends.mpr ⟨m, htext, rfl, hm⟩⟩
  induction text generalizing before with
  | nil =>
    rw [search, hhere]
    constructor
    · rintro ⟨m, after, htext, hm⟩
      exact ⟨[], m, after, htext, by rwa [List.append_nil]⟩
    · rintro ⟨skipped, m, after, htext, hm⟩
      have hnil : skipped = [] := by
        cases skipped with
        | nil => rfl
        | cons c rest => cases htext
      subst hnil
      rw [List.append_nil] at hm
      exact ⟨m, after, htext, hm⟩
  | cons c rest ih =>
    rw [search, Bool.or_eq_true, hhere]
    constructor
    · rintro (⟨m, after, htext, hm⟩ | hlater)
      · exact ⟨[], m, after, htext, by rwa [List.append_nil]⟩
      · obtain ⟨skipped, m, after, htext, hm⟩ := ih.mp hlater
        rw [List.append_assoc] at hm
        exact ⟨c :: skipped, m, after, by rw [htext]; rfl, hm⟩
    · rintro ⟨skipped, m, after, htext, hm⟩
      cases skipped with
      | nil =>
        rw [List.append_nil] at hm
        exact .inl ⟨m, after, htext, hm⟩
      | cons d skipped =>
        obtain ⟨rfl, hrest⟩ := List.cons.inj htext
        exact .inr (ih.mpr ⟨skipped, m, after, hrest, by rwa [List.append_assoc]⟩)

/-- A search succeeds where the pattern matches somewhere. -/
theorem test_iff {p : Pattern α} {text : List α} : p.test text = true ↔ p.FoundIn text := by
  rw [test, search_iff]
  rfl

end

/-! ## What is found -/

theorem matches_anyOf {ps : List (Pattern α)} {before m after : List α} :
    (anyOf ps).Matches before m after ↔ ∃ p ∈ ps, p.Matches before m after := by
  induction ps with
  | nil => simp [anyOf, Matches]
  | cons p rest ih =>
    rw [List.exists_mem_cons_iff, ← ih]
    rfl

/-- One of several words is found where one of them occurs. -/
theorem foundIn_words {ws : List (List α)} {text : List α} :
    (anyOf (ws.map word)).FoundIn text ↔ ∃ w ∈ ws, w <:+: text := by
  constructor
  · rintro ⟨before, m, after, htext, hm⟩
    obtain ⟨p, hp, hm⟩ := matches_anyOf.mp hm
    obtain ⟨w, hw, rfl⟩ := List.mem_map.mp hp
    cases hm
    exact ⟨m, hw, before, after, htext.symm⟩
  · rintro ⟨w, hw, before, after, htext⟩
    exact ⟨before, w, after, htext.symm, matches_anyOf.mpr ⟨word w, List.mem_map_of_mem hw, rfl⟩⟩

/-- Each side of a match is empty or has a character of the class next to the match. -/
structure Between (p : α → Prop) (before after : List α) : Prop where
  left : before = [] ∨ ∃ b c, p c ∧ before = b ++ [c]
  right : after = [] ∨ ∃ c a, p c ∧ after = c :: a

/-- A bounded pattern is found where the pattern matches between ends or characters of the
class. -/
theorem foundIn_bounded {cs : List α} {p : Pattern α} {text : List α} :
    (bounded cs p).FoundIn text ↔ ∃ before m after, text = before ++ m ++ after ∧
      Between (· ∈ cs) before after ∧ p.Matches before m after := by
  constructor
  · rintro ⟨before, m, after, htext, left, rest, rfl, hleft, mid, right, rfl, hmid, hright⟩
    refine ⟨before ++ left, mid, right ++ after, ?_, ⟨?_, ?_⟩, hmid⟩
    · rw [htext]
      simp only [List.append_assoc]
    · cases hleft with
      | inl hstart => exact .inl (by rw [hstart.1, hstart.2]; rfl)
      | inr hclass =>
        obtain ⟨c, hc, rfl⟩ := hclass
        exact .inr ⟨before, c, hc, rfl⟩
    · cases hright with
      | inl hclass =>
        obtain ⟨c, hc, rfl⟩ := hclass
        exact .inr ⟨c, after, hc, rfl⟩
      | inr hstop => exact .inl (by rw [hstop.1, hstop.2]; rfl)
  · rintro ⟨before, mid, after, htext, hbetween, hmid⟩
    obtain ⟨outer, left, hbefore, hleft⟩ : ∃ outer left, before = outer ++ left ∧
        (alt start (oneOf cs)).Matches outer left (mid ++ after) := by
      cases hbetween.left with
      | inl hnil => exact ⟨[], [], hnil, .inl ⟨rfl, rfl⟩⟩
      | inr hclass =>
        obtain ⟨b, c, hc, hb⟩ := hclass
        exact ⟨b, [c], hb, .inr ⟨c, hc, rfl⟩⟩
    obtain ⟨right, rest, hafter, hright⟩ : ∃ right rest, after = right ++ rest ∧
        (alt (oneOf cs) stop).Matches (before ++ mid) right rest := by
      cases hbetween.right with
      | inl hnil => exact ⟨[], [], hnil, .inr ⟨rfl, rfl⟩⟩
      | inr hclass =>
        obtain ⟨c, a, hc, ha⟩ := hclass
        exact ⟨[c], a, ha, .inl ⟨c, hc, rfl⟩⟩
    subst hbefore hafter
    refine ⟨outer, left ++ (mid ++ right), rest, ?_, left, mid ++ right, rfl, ?_, mid, right, rfl,
      ?_, ?_⟩
    · rw [htext]
      simp only [List.append_assoc]
    · rwa [List.append_assoc]
    · exact hmid
    · exact hright

end Pattern

/-! ## Segments -/

variable {α : Type u}

/-- The parts of a split text stand between ends or characters that split it. -/
theorem mem_splitOnP_iff {p : α → Bool} {w text : List α} :
    w ∈ text.splitOnP p ↔ (∀ c ∈ w, p c = false) ∧ ∃ before after,
      text = before ++ w ++ after ∧ Pattern.Between (p · = true) before after := by
  constructor
  · intro hmem
    induction hlen : text.length using Nat.strongRecOn generalizing text with
    | ind n ih =>
      by_cases hsplit : ∃ c ∈ text, p c = true
      · obtain ⟨c, hc, hpc⟩ := hsplit
        obtain ⟨front, back, rfl⟩ := List.append_of_mem hc
        rw [List.length_append, List.length_cons] at hlen
        rw [List.splitOnP_append_cons front back hpc, List.mem_append] at hmem
        cases hmem with
        | inl hfront =>
          obtain ⟨hw, before, after, htext, hleft, hright⟩ :=
            ih front.length (by omega) hfront rfl
          refine ⟨hw, before, after ++ c :: back, ?_, hleft, ?_⟩
          · rw [htext]
            simp only [List.append_assoc]
          · cases hright with
            | inl hnil => exact .inr ⟨c, back, hpc, by rw [hnil]; rfl⟩
            | inr hclass =>
              obtain ⟨d, a, hd, ha⟩ := hclass
              exact .inr ⟨d, a ++ c :: back, hd, by rw [ha]; rfl⟩
        | inr hback =>
          obtain ⟨hw, before, after, htext, hleft, hright⟩ := ih back.length (by omega) hback rfl
          refine ⟨hw, front ++ c :: before, after, ?_, ?_, hright⟩
          · rw [htext]
            simp only [List.append_assoc, List.cons_append]
          · cases hleft with
            | inl hnil => exact .inr ⟨front, c, hpc, by rw [hnil]⟩
            | inr hclass =>
              obtain ⟨b, d, hd, hb⟩ := hclass
              exact .inr ⟨front ++ c :: b, d, hd, by rw [hb]; simp⟩
      · have hclean : ∀ c ∈ text, p c = false := by
          intro c hc
          rw [← Bool.not_eq_true]
          exact fun hpc ↦ hsplit ⟨c, hc, hpc⟩
        rw [List.splitOnP_eq_singleton hclean, List.mem_singleton] at hmem
        exact ⟨hmem ▸ hclean, [], [], by simp [hmem], .inl rfl, .inl rfl⟩
  · rintro ⟨hw, before, after, rfl, hbetween⟩
    have hafter : w ∈ (w ++ after).splitOnP p := by
      cases hbetween.right with
      | inl hnil =>
        rw [hnil, List.append_nil, List.splitOnP_eq_singleton hw]
        exact List.mem_singleton_self w
      | inr hclass =>
        obtain ⟨c, a, hc, ha⟩ := hclass
        rw [ha, List.splitOnP_append_cons_of_forall_mem hw c hc]
        exact List.mem_cons_self
    cases hbetween.left with
    | inl hnil => rwa [hnil]
    | inr hclass =>
      obtain ⟨b, c, hc, hb⟩ := hclass
      rw [hb, List.append_assoc, List.append_assoc, List.singleton_append,
        List.splitOnP_append_cons b _ hc]
      exact List.mem_append_right _ hafter

end CFactory.Base
