import CFactory.Audit.Chain

/-!
# A keyed hash with listed digests

The idealised keyed hash can be met by a function that gives the real digests on finitely
many messages: elsewhere the message is spelled out, in more characters than a digest has.
The store over it is the one the closed runs of this development use.
-/

namespace CFactory.Audit

open CFactory.Base
open CFactory.Model

/-- A message as decimal code points, behind more zeros than a digest has characters. -/
def spelled (m : String) : String :=
  String.ofList (List.replicate 65 '0' ++ m.toList.flatMap fun c ↦ zfill 7 c.toNat)

private theorem toNat_lt (c : Char) : c.toNat < 10 ^ 7 := by
  have hvalid := c.valid
  simp only [UInt32.isValidChar, Nat.isValidChar] at hvalid
  show c.val.toNat < _
  omega

private theorem codePoints_injective {xs ys : List Char}
    (h : xs.flatMap (fun c ↦ zfill 7 c.toNat) = ys.flatMap fun c ↦ zfill 7 c.toNat) : xs = ys := by
  have hlen : ∀ c : Char, (zfill 7 c.toNat).length = 7 :=
    fun c ↦ length_zfill (by omega) (toNat_lt c)
  induction xs generalizing ys with
  | nil =>
    cases ys with
    | nil => rfl
    | cons y ys =>
      have hzero := congrArg List.length h
      simp only [List.flatMap_nil, List.flatMap_cons, List.length_append, hlen y,
        List.length_nil] at hzero
      omega
  | cons x xs ih =>
    cases ys with
    | nil =>
      have hzero := congrArg List.length h
      simp only [List.flatMap_nil, List.flatMap_cons, List.length_append, hlen x,
        List.length_nil] at hzero
      omega
    | cons y ys =>
      simp only [List.flatMap_cons] at h
      obtain ⟨hxy, hrest⟩ := List.append_inj h ((hlen x).trans (hlen y).symm)
      rw [ih hrest, Char.toNat_inj.mp (zfill_injective hxy)]

private theorem spelled_injective {m n : String} (h : spelled m = spelled n) : m = n := by
  have hchars := String.ofList_injective h
  exact String.toList_injective (codePoints_injective (List.append_cancel_left hchars))

private theorem length_spelled (m : String) : 64 < (spelled m).toList.length := by
  rw [spelled, String.toList_ofList, List.length_append, List.length_replicate]
  omega

/-- The characters of a digest. -/
def hexDigit (c : Char) : Bool := c.isDigit || c ∈ ['a', 'b', 'c', 'd', 'e', 'f']

/-- Listed messages with their digests, of 64 hexadecimal characters each. -/
structure Listed where
  entries : List (String × String)
  digests : (entries.map Prod.snd).Nodup
  hex : ∀ e ∈ entries, e.2.toList.length = 64 ∧ e.2.toList.all hexDigit

/-- The listed digest of a message, or the message spelled out. -/
def Listed.digest (l : Listed) (m : String) : String :=
  match l.entries.find? (·.1 = m) with
  | some e => e.2
  | none => spelled m

private theorem Listed.digest_spec (l : Listed) (m : String) :
    (∃ e ∈ l.entries, e.1 = m ∧ l.digest m = e.2) ∨ l.digest m = spelled m := by
  rw [digest]
  cases hf : l.entries.find? (·.1 = m) with
  | none => exact .inr rfl
  | some e =>
    exact .inl ⟨e, List.mem_of_find?_eq_some hf, by simpa using List.find?_some hf, rfl⟩

private theorem Listed.digest_injective (l : Listed) {m n : String} (h : l.digest m = l.digest n) :
    m = n := by
  have hlong : ∀ e ∈ l.entries, ∀ k, e.2 ≠ spelled k := by
    intro e he k heq
    have hlen := length_spelled k
    rw [← heq, (l.hex e he).1] at hlen
    omega
  rcases l.digest_spec m with ⟨e, he, hem, hm⟩ | hm
  · rcases l.digest_spec n with ⟨f, hf, hfn, hn⟩ | hn
    · have hef : e = f := List.inj_on_of_nodup_map l.digests he hf (by rw [← hm, ← hn, h])
      rw [← hem, ← hfn, hef]
    · exact absurd (hm.symm.trans (h.trans hn)) (hlong e he n)
  · rcases l.digest_spec n with ⟨f, hf, -, hn⟩ | hn
    · exact absurd (hn.symm.trans (h.symm.trans hm)) (hlong f hf m)
    · exact spelled_injective (hm.symm.trans (h.trans hn))

private theorem Listed.digest_hex (l : Listed) (m : String) :
    l.digest m ≠ "" ∧
      ∀ c ∈ (l.digest m).toList, c.isDigit ∨ c ∈ ['a', 'b', 'c', 'd', 'e', 'f'] := by
  have hne : ∀ s : String, 0 < s.toList.length → s ≠ "" := by
    rintro s hs rfl
    exact absurd hs (by decide)
  rcases l.digest_spec m with ⟨e, he, -, hm⟩ | hm
  · obtain ⟨hlen, hhex⟩ := l.hex e he
    rw [hm]
    refine ⟨hne _ (by omega), fun c hc ↦ ?_⟩
    have hdigit := List.all_eq_true.mp hhex c hc
    simpa [hexDigit] using hdigit
  · rw [hm]
    refine ⟨hne _ (by have := length_spelled m; omega), fun c hc ↦ .inl ?_⟩
    rw [spelled, String.toList_ofList, List.mem_append] at hc
    cases hc with
    | inl hc => rw [List.eq_of_mem_replicate hc]; rfl
    | inr hc =>
      obtain ⟨d, -, hd⟩ := List.mem_flatMap.mp hc
      exact isDigit_of_mem_zfill hd

/-- A keyed hash that gives the listed digests, whatever the secret. -/
def Hmac.listed (l : Listed) : Hmac where
  hexdigest _ m := l.digest m
  injective _ _ _ h := l.digest_injective h
  hex _ m := (l.digest_hex m).2
  nonempty _ m := (l.digest_hex m).1

/-- What follows the actor in the sample messages, for one key. -/
private def sampleRest (key : String) : String :=
  "\x1ftester\x1frecover\x1f" ++ key ++
    "\x1faifactory\x1f/api/tasks/ai-7/recover\x1f200\x1f1\x1f"

/-- HMAC-SHA256 under `test-secret` of three messages: two at the head of a chain and one
chained to the first of them. -/
def sampleDigests : Listed where
  entries := [
    ("2026-07-30T09:00:00.000000" ++ sampleRest "1",
      "12c1dd50eca713509dae2c29cb692a0b2167b058f6fbcefb103c8f6fb30c1228"),
    ("2026-07-30T09:00:00.001000" ++ sampleRest "2",
      "f75af0f3ee8f2fb9d6b2a9148b52162c676b28cbca3775a293118b8a7b6463cb"),
    ("2026-07-30T09:00:00.002000" ++ sampleRest "3" ++
        "12c1dd50eca713509dae2c29cb692a0b2167b058f6fbcefb103c8f6fb30c1228",
      "8f333f067c4095e83f58a493c4c5b791fa91478ec2c86d412d204b1e2c1adfbb")]
  digests := by decide +kernel
  hex := by decide +kernel

/-- A store over the listed digests that has acknowledged no fork. -/
def sampleStore : AuditStore where
  hmac := .listed sampleDigests
  secret := "test-secret"
  acknowledged := []
  apiKeys := []
  sha256 := spelled

/-- The call on the task with the given key, some milliseconds into the morning. -/
def sampleCall (key : String) (millis : Int) : RecordCall where
  now := 1785402000000000 + 1000 * millis
  actor := "tester"
  kind := "recover"
  correlationKey := key
  targetService := "aifactory"
  endpoint := "/api/tasks/ai-7/recover"
  statusCode := 200
  ok := true
  gap := 0

end CFactory.Audit
