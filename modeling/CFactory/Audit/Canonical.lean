import CFactory.Base.Calendar
import CFactory.Base.Delimited
import CFactory.Model.Types
import Std.Data.String.ToInt

/-!
# Canonical form of an audit entry

`audit.py:88–144`. The eight chained columns, the text they are rendered to, and the keyed
hash over that text and the previous entry's hash. The rendering joins its parts with the
unit separator; what that text determines, and what it does not, is stated here.
-/

namespace CFactory.Audit

open CFactory.Base
open CFactory.Model

/-- The unit separator between the canonical parts; `audit.py:133`. -/
def separator : Char := '\x1f'

/-- The values of the chained columns; `_CANONICAL_FIELDS`, `audit.py:91–100`. -/
structure Fields where
  ts : Time
  actor : String
  kind : String
  correlationKey : String
  targetService : String
  endpoint : String
  statusCode : Int
  ok : Bool
  deriving DecidableEq, Repr

/-- `_canonical_ts`; `audit.py:106–116`. Instants are UTC already. -/
def canonicalTs (value : Time) : String := String.ofList (strftime value)

/-- The rendered columns in the order of `_CANONICAL_FIELDS`; `audit.py:125–132`. -/
def canonicalParts (values : Fields) : List String :=
  [canonicalTs values.ts, values.actor, values.kind, values.correlationKey,
    values.targetService, values.endpoint, Int.repr values.statusCode,
    if values.ok then "1" else "0"]

/-- `_canonical`; `audit.py:119–133`. -/
def canonical (values : Fields) : String := "\x1f".intercalate (canonicalParts values)

/-- The text under the keyed hash; `audit.py:143`. -/
def message (values : Fields) (prevHash : Option String) : String :=
  canonical values ++ "\x1f" ++ prevHash.getD ""

/-- A keyed hash, idealised: under one secret it tells any two messages apart, and its
digests are non-empty lowercase hexadecimal. -/
structure Hmac where
  hexdigest : String → String → String
  injective : ∀ secret m n, hexdigest secret m = hexdigest secret n → m = n
  hex : ∀ secret m, ∀ c ∈ (hexdigest secret m).toList,
    c.isDigit ∨ c ∈ ['a', 'b', 'c', 'd', 'e', 'f']
  nonempty : ∀ secret m, hexdigest secret m ≠ ""

/-- `compute_entry_hash`; `audit.py:136–144`. -/
def computeEntryHash (hmac : Hmac) (secret : String) (values : Fields)
    (prevHash : Option String) : String :=
  hmac.hexdigest secret (message values prevHash)

/-- A hash an entry can be chained to: a digest, thus non-empty and hexadecimal. -/
@[ext]
structure Digest where
  text : String
  hex : ∀ c ∈ text.toList, c.isDigit ∨ c ∈ ['a', 'b', 'c', 'd', 'e', 'f']
  nonempty : text ≠ ""

/-- The caller's texts among the chained columns. -/
def Fields.texts (values : Fields) : List String :=
  [values.actor, values.kind, values.correlationKey, values.targetService, values.endpoint]

/-- A text that does not hold the separator. -/
def Plain (s : String) : Prop := separator ∉ s.toList

instance (s : String) : Decidable (Plain s) := inferInstanceAs (Decidable (_ ∉ _))

/-! ## The parts of a message -/

theorem plain_of_hex {s : String}
    (h : ∀ c ∈ s.toList, c.isDigit ∨ c ∈ ['a', 'b', 'c', 'd', 'e', 'f']) : Plain s :=
  fun hmem ↦ absurd (h separator hmem) (by decide)

theorem plain_canonicalTs (t : Time) : Plain (canonicalTs t) := by
  intro hmem
  rw [canonicalTs, String.toList_ofList] at hmem
  exact absurd (mem_strftime hmem) (by decide)

theorem plain_repr (i : Int) : Plain (Int.repr i) := by
  intro hmem
  cases mem_intRepr hmem with
  | inl hdigit => exact absurd hdigit (by decide)
  | inr hsign => exact absurd hsign.1 (by decide)

theorem plain_flag (b : Bool) : Plain (if b then "1" else "0") := by
  cases b <;> decide

theorem flag_injective {a b : Bool} (h : (if a then "1" else "0") = if b then "1" else "0") :
    a = b := by
  cases a <;> cases b
  · rfl
  · exact absurd h (by decide)
  · exact absurd h (by decide)
  · rfl

/-- The nine parts of a message: the canonical columns and the previous hash. -/
def messageParts (values : Fields) (prevHash : Option String) : List String :=
  canonicalParts values ++ [prevHash.getD ""]

theorem toList_message (values : Fields) (prevHash : Option String) :
    (message values prevHash).toList =
      join separator ((messageParts values prevHash).map String.toList) := by
  have hone : message values prevHash = "\x1f".intercalate (messageParts values prevHash) := by
    rw [messageParts, String.intercalate_append_of_ne_nil (by simp [canonicalParts]) (by simp),
      String.intercalate_singleton]
    rfl
  rw [hone, String.toList_intercalate]
  rfl

theorem length_messageParts (values : Fields) (prevHash : Option String) :
    (messageParts values prevHash).length = 9 := rfl

/-- A message whose parts are free of the separator has those parts only. -/
theorem messageParts_of_message_eq {v w : Fields} {p q : Option String}
    (h : message v p = message w q) (hplain : ∀ s ∈ messageParts v p, Plain s) :
    messageParts v p = messageParts w q := by
  have hjoin : join separator ((messageParts v p).map String.toList) =
      join separator ((messageParts w q).map String.toList) := by
    rw [← toList_message, ← toList_message, h]
  have hlists := join_injective (by simp only [List.length_map, length_messageParts]) hjoin (by
    intro part hpart
    obtain ⟨s, hs, rfl⟩ := List.mem_map.mp hpart
    exact hplain s hs)
  exact List.map_injective_iff.mpr (fun _ _ ↦ String.toList_injective) hlists

theorem fields_of_canonicalParts_eq {v w : Fields} (h : canonicalParts v = canonicalParts w) :
    v = w := by
  simp only [canonicalParts, List.cons.injEq] at h
  obtain ⟨hts, hactor, hkind, hkey, hservice, hendpoint, hstatus, hok, -⟩ := h
  have htime : v.ts = w.ts := by
    have hchars := congrArg String.toList hts
    rw [canonicalTs, canonicalTs, String.toList_ofList, String.toList_ofList] at hchars
    exact strftime_injective hchars
  have hcode : v.statusCode = w.statusCode := Int.repr_injective hstatus
  have hflag : v.ok = w.ok := flag_injective hok
  cases v
  cases w
  simp only at htime hactor hkind hkey hservice hendpoint hcode hflag
  subst htime hactor hkind hkey hservice hendpoint hcode hflag
  rfl

/-! ## What a message determines -/

/-- Only the five texts can bring a separator into a message part. -/
theorem plain_messageParts {v : Fields} (htexts : ∀ s ∈ v.texts, Plain s) (p : Option Digest) :
    ∀ s ∈ messageParts v (p.map Digest.text), Plain s := by
  have hprev : Plain ((p.map Digest.text).getD "") := by
    cases p with
    | none => decide
    | some d => exact plain_of_hex d.hex
  intro s hs
  simp only [messageParts, canonicalParts, List.cons_append, List.nil_append, List.mem_cons,
    List.not_mem_nil, or_false] at hs
  simp only [Fields.texts, List.mem_cons, List.not_mem_nil, or_false] at htexts
  rcases hs with h | h | h | h | h | h | h | h | h
  · rw [h]; exact plain_canonicalTs v.ts
  · exact htexts s (by simp [h])
  · exact htexts s (by simp [h])
  · exact htexts s (by simp [h])
  · exact htexts s (by simp [h])
  · exact htexts s (by simp [h])
  · rw [h]; exact plain_repr v.statusCode
  · rw [h]; exact plain_flag v.ok
  · rw [h]; exact hprev

/-- A previous hash is read back from its part: digests are never empty. -/
theorem digest_of_getD_eq {p q : Option Digest}
    (h : (p.map Digest.text).getD "" = (q.map Digest.text).getD "") : p = q := by
  cases p with
  | none =>
    cases q with
    | none => rfl
    | some d => exact absurd h.symm d.nonempty
  | some d =>
    cases q with
    | none => exact absurd h d.nonempty
    | some e => exact congrArg some (Digest.ext h)

/-- An entry whose texts are free of the separator is determined by its message, among all
entries with any texts whatever. -/
theorem fields_of_message_eq {v w : Fields} {p q : Option Digest}
    (h : message v (p.map Digest.text) = message w (q.map Digest.text))
    (htexts : ∀ s ∈ v.texts, Plain s) : v = w ∧ p = q := by
  have hparts := messageParts_of_message_eq h (plain_messageParts htexts p)
  obtain ⟨hfields, hprev⟩ := List.append_inj' hparts rfl
  exact ⟨fields_of_canonicalParts_eq hfields, digest_of_getD_eq (List.cons.inj hprev).1⟩

private theorem toList_message_first (v : Fields) (p : Option String) :
    ∃ rest, (message v p).toList = (canonicalTs v.ts).toList ++ separator :: rest := by
  have hparts : (messageParts v p).map String.toList =
      (canonicalTs v.ts).toList :: v.actor.toList ::
        (messageParts v p).tail.tail.map String.toList := rfl
  rw [toList_message, hparts, join_cons_cons]
  exact ⟨_, rfl⟩

private theorem toList_message_last (v : Fields) (p : Option String) :
    (message v p).toList = (canonical v).toList ++ separator :: (p.getD "").toList := by
  rw [message, String.toList_append, String.toList_append, List.append_assoc]
  rfl

/-- Entries with the same message were recorded at the same instant. -/
theorem ts_of_message_eq {v w : Fields} {p q : Option String} (h : message v p = message w q) :
    v.ts = w.ts := by
  obtain ⟨restV, hv⟩ := toList_message_first v p
  obtain ⟨restW, hw⟩ := toList_message_first w q
  have hsplit := split_first (plain_canonicalTs v.ts) (plain_canonicalTs w.ts)
    (hv.symm.trans ((congrArg String.toList h).trans hw))
  have hchars := hsplit.1
  rw [canonicalTs, canonicalTs, String.toList_ofList, String.toList_ofList] at hchars
  exact strftime_injective hchars

/-- Entries with the same message are chained to the same hash, whatever their texts hold. -/
theorem prev_of_message_eq {v w : Fields} {p q : Option Digest}
    (h : message v (p.map Digest.text) = message w (q.map Digest.text)) : p = q := by
  have hplain : ∀ d : Option Digest, Plain ((d.map Digest.text).getD "") := by
    intro d
    cases d with
    | none => decide
    | some d => exact plain_of_hex d.hex
  have hchars := congrArg String.toList h
  rw [toList_message_last, toList_message_last] at hchars
  have hsplit := split_last (hplain p) (hplain q) hchars
  exact digest_of_getD_eq (String.toList_injective hsplit.2)

/-- Moving what follows a separator into the next part leaves the message as it was. -/
private theorem message_shift {v w : Fields} {p : Option String} (front back : List String)
    (a b c : List Char)
    (hv : messageParts v p =
      front ++ String.ofList (a ++ separator :: b) :: String.ofList c :: back)
    (hw : messageParts w p =
      front ++ String.ofList a :: String.ofList (b ++ separator :: c) :: back) :
    message w p = message v p := by
  apply String.toList_injective
  rw [toList_message, toList_message, hv, hw]
  simp only [List.map_append, List.map_cons, String.toList_ofList]
  exact (join_shift separator _ a b c _).symm

private theorem split_at_separator {s : String} (h : ¬ Plain s) :
    ∃ a b : List Char, s = String.ofList (a ++ separator :: b) := by
  obtain ⟨a, b, hab⟩ := List.append_of_mem (Decidable.not_not.mp h)
  exact ⟨a, b, by rw [← hab, String.ofList_toList]⟩

/-- A text with a separator is neither its front nor its back. -/
private theorem ofList_ne (a b : List Char) :
    String.ofList a ≠ String.ofList (a ++ separator :: b) ∧
      String.ofList b ≠ String.ofList (a ++ separator :: b) := by
  constructor
  all_goals
    intro h
    have hlen := congrArg (fun s : String ↦ s.toList.length) h
    simp only [String.toList_ofList, List.length_append, List.length_cons] at hlen
    omega

/-- A separator inside one of the five texts lets another entry have the same message. -/
theorem exists_fields_of_separator {v : Fields} (p : Option String)
    (h : ∃ s ∈ v.texts, ¬ Plain s) : ∃ w, message w p = message v p ∧ w ≠ v := by
  obtain ⟨s, hs, hsep⟩ := h
  obtain ⟨a, b, rfl⟩ := split_at_separator hsep
  obtain ⟨hfront, hback⟩ := ofList_ne a b
  obtain ⟨ts, actor, kind, key, service, endpoint, code, ok⟩ := v
  simp only [Fields.texts, List.mem_cons, List.not_mem_nil, or_false] at hs
  have hself : ∀ t : String, t = String.ofList t.toList := fun t ↦ String.ofList_toList.symm
  rcases hs with hs | hs | hs | hs | hs
  · subst hs
    refine ⟨⟨ts, .ofList a, .ofList (b ++ separator :: kind.toList), key, service, endpoint, code,
      ok⟩, ?_, fun he ↦ hfront (congrArg Fields.actor he)⟩
    refine message_shift [canonicalTs ts] _ a b kind.toList ?_ rfl
    rw [← hself kind]
    rfl
  · subst hs
    refine ⟨⟨ts, actor, .ofList a, .ofList (b ++ separator :: key.toList), service, endpoint, code,
      ok⟩, ?_, fun he ↦ hfront (congrArg Fields.kind he)⟩
    refine message_shift [canonicalTs ts, actor] _ a b key.toList ?_ rfl
    rw [← hself key]
    rfl
  · subst hs
    refine ⟨⟨ts, actor, kind, .ofList a, .ofList (b ++ separator :: service.toList), endpoint, code,
      ok⟩, ?_, fun he ↦ hfront (congrArg Fields.correlationKey he)⟩
    refine message_shift [canonicalTs ts, actor, kind] _ a b service.toList ?_ rfl
    rw [← hself service]
    rfl
  · subst hs
    refine ⟨⟨ts, actor, kind, key, .ofList a, .ofList (b ++ separator :: endpoint.toList), code,
      ok⟩, ?_, fun he ↦ hfront (congrArg Fields.targetService he)⟩
    refine message_shift [canonicalTs ts, actor, kind, key] _ a b endpoint.toList ?_ rfl
    rw [← hself endpoint]
    rfl
  · subst hs
    -- The endpoint has no text after it, so the text before the separator moves back.
    refine ⟨⟨ts, actor, kind, key, .ofList (service.toList ++ separator :: a), .ofList b, code,
      ok⟩, ?_, fun he ↦ hback (congrArg Fields.endpoint he)⟩
    have hparts : messageParts ⟨ts, actor, kind, key, service, .ofList (a ++ separator :: b), code,
        ok⟩ p = [canonicalTs ts, actor, kind, key] ++ .ofList service.toList ::
          .ofList (a ++ separator :: b) ::
            [Int.repr code, if ok then "1" else "0", p.getD ""] := by
      rw [← hself service]
      rfl
    exact (message_shift _ _ service.toList a b rfl hparts).symm

/-- An entry's message is its alone exactly when none of its five texts holds the unit
separator. -/
theorem message_unambiguous_iff (v : Fields) (p : Option Digest) :
    (∀ (w : Fields) (q : Option Digest),
      message w (q.map Digest.text) = message v (p.map Digest.text) → w = v ∧ q = p) ↔
      ∀ s ∈ v.texts, Plain s := by
  constructor
  · intro h
    by_contra hsep
    obtain ⟨w, hw, hne⟩ := exists_fields_of_separator (p.map Digest.text) (by simpa using hsep)
    exact hne (h w p hw).1
  · intro htexts w q hmsg
    obtain ⟨hv, hp⟩ := fields_of_message_eq hmsg.symm htexts
    exact ⟨hv.symm, hp.symm⟩

/-- Text moved across a separator, from the kind into the actor, hashes as before. -/
theorem message_ambiguous :
    ¬ ∀ (v w : Fields) (p q : Option Digest),
      message v (p.map Digest.text) = message w (q.map Digest.text) → v = w ∧ p = q := by
  intro h
  have hsame := (h ⟨0, "mallory", "approve\x1fmerge", "k", "aifactory", "/api", 200, true⟩
    ⟨0, "mallory\x1fapprove", "merge", "k", "aifactory", "/api", 200, true⟩ none none
    (by decide +kernel)).1
  exact absurd (congrArg Fields.actor hsame) (by decide)

end CFactory.Audit
