import CFactory.Audit.Digests
import CFactory.Audit.Redaction

/-!
# Who acted

`enterprise.py:41–201`. The audit actor of a request: a person whom a verified ID token names,
else a reference to the presented key, else the local user. Verifying a token is the identity
library's, and whatever it raises means that nobody is named.
-/

namespace CFactory.Access

open CFactory.Audit
open CFactory.Base
open CFactory.Status

/-- `LOCAL_IDENTITY`; `enterprise.py:45`. -/
def localIdentity : String := "local"

/-- `_ACTOR_MAX_LEN`; `enterprise.py:61`. -/
def actorMaxLen : Nat := 120

/-- The claims of a verified token that are texts. -/
abbrev Claims := String → Option String

/-- `_jwks_client`, the signing key and `jwt.decode` together: the claims of a token that verifies
under the settings, or nothing for whatever is raised; `enterprise.py:143–173`. -/
abbrev Verifier := String → Option Claims

/-- The claims that name a person, best first; `enterprise.py:113`. -/
def nameClaims : List String := ["email", "preferred_username", "sub"]

/-- A character that must not stand in an actor; `enterprise.py:118`. -/
def isHostile (c : Char) : Bool := isSpace c || c.val < 32

/-- The actor of one claim. -/
def actorOf (value : String) : Option String :=
  let name := trim isSpace value.toList
  if name = [] || name.any isHostile then none
  else some (String.ofList (("user:".toList ++ name).take actorMaxLen))

/-- `_claim_actor`; `enterprise.py:103–121`. -/
def claimActor (claims : Claims) : Option String :=
  nameClaims.findSome? fun name ↦ (claims name).bind actorOf

/-- `str.removeprefix`. -/
def withoutStart (start text : List Char) : List Char :=
  if start.isPrefixOf text then text.drop start.length else text

/-- `oidc_actor`; `enterprise.py:124–174`. -/
def oidcActor (oidcIssuer : String) (verify : Verifier) (idToken : Option String) :
    Option String :=
  if idToken.getD "" = "" ∨ oidcIssuer = "" then none
  else
    let token := trim isSpace
      (withoutStart "bearer ".toList (withoutStart "Bearer ".toList (idToken.getD "").toList))
    if token = [] then none else (verify (String.ofList token)).bind claimActor

/-- `identity_dep`; `enterprise.py:177–201`. -/
def identityDep (s : AuditStore) (ks : KeyStore) (oidcIssuer : String) (verify : Verifier)
    (h : Headers) (idToken : Option String) : Except Denial String :=
  match oidcActor oidcIssuer verify idToken with
  | some user => .ok user
  | none =>
    match extractKey h with
    | none => .ok localIdentity
    | some key =>
      if ks.configured then
        match ks.scopesFor (some key) with
        | .error d => .error d
        | .ok none => .ok localIdentity
        | .ok (some _) => .ok (keyActor s key)
      else .ok localIdentity

/-- A text that no configured key can be and that is not shaped like one. -/
structure Attributed (actor : String) : Prop where
  head : ∃ rest, actor.toList = 'u' :: rest ∧ rest ≠ []
  colon : ':' ∈ actor.toList

theorem Attributed.not_keyShaped {actor : String} (h : Attributed actor) :
    keyShaped actor = false := by
  obtain ⟨rest, htext, hne⟩ := h.head
  cases rest with
  | nil => exact absurd rfl hne
  | cons c rest => exact not_keyShaped_of_head htext (by decide)

theorem Attributed.not_mem_keyNames {actor : String} (h : Attributed actor) (ks : KeyStore) :
    actor ∉ keyNames ks := by
  intro hmem
  obtain ⟨e, he, rfl⟩ := List.mem_map.mp hmem
  exact (ks.spelled e he).key.plain h.colon

/-- An attributed actor is stored and shown as it is, whatever keys are configured. -/
theorem Attributed.redactActor_eq {actor : String} (h : Attributed actor) (s : AuditStore)
    (ks : KeyStore) : redactActor (s.under ks) actor = actor :=
  redactActor_of_plain h.not_keyShaped (h.not_mem_keyNames ks)

theorem attributed_keyActor (s : AuditStore) (key : String) : Attributed (keyActor s key) := by
  obtain ⟨rest, htext, hcolon⟩ := keyActor_toList s key
  exact ⟨⟨'n' :: rest, htext, by simp⟩, by rw [htext]; simp [hcolon]⟩

theorem attributed_actorOf {value actor : String} (h : actorOf value = some actor) :
    Attributed actor ∧ actor.toList.length ≤ actorMaxLen := by
  simp only [actorOf] at h
  split at h
  · cases h
  · have hword : "user:".toList = ['u', 's', 'e', 'r', ':'] := by decide
    rw [← Option.some.inj h, hword]
    refine ⟨⟨⟨('s' :: 'e' :: 'r' :: ':' :: trim isSpace value.toList).take 119, ?_, by simp⟩, ?_⟩,
      ?_⟩
    · rw [String.toList_ofList]
      rfl
    · rw [String.toList_ofList, actorMaxLen]
      simp
    · rw [String.toList_ofList]
      exact List.length_take_le _ _

theorem attributed_oidcActor {oidcIssuer : String} {verify : Verifier} {idToken : Option String}
    {actor : String} (h : oidcActor oidcIssuer verify idToken = some actor) :
    Attributed actor ∧ actor.toList.length ≤ actorMaxLen := by
  simp only [oidcActor] at h
  split at h
  · cases h
  · split at h
    · cases h
    · rw [Option.bind_eq_some_iff] at h
      obtain ⟨claims, -, hclaim⟩ := h
      obtain ⟨name, -, hactor⟩ := List.exists_of_findSome?_eq_some hclaim
      obtain ⟨value, -, hvalue⟩ := Option.bind_eq_some_iff.mp hactor
      exact attributed_actorOf hvalue

/-- Whoever acts, is named by whatever token and presents whatever key: what the trail stores of
the actor is no key configured when it is stored, and what it shows of it is no key configured when
it is shown, nor shaped like one. The local user apart, the actor is stored and shown as it was
named, whatever keys come and go. -/
theorem identity_is_no_key (s : AuditStore) (ks stored shown : KeyStore) (oidcIssuer : String)
    (verify : Verifier) (h : Headers) (idToken : Option String) {actor : String}
    (hactor : identityDep s ks oidcIssuer verify h idToken = .ok actor) :
    (∀ a, redact s stored actor = .ok a → a ∉ keyNames stored ∧ keyShaped a = false ∧
        ∀ b, redact s shown a = .ok b → b ∉ keyNames shown ∧ keyShaped b = false) ∧
      (actor = localIdentity ∨
        ((∀ a, redact s stored actor = .ok a → a = actor) ∧
          ∀ key, key ∈ keyNames stored → actor ≠ key)) := by
  have hredact : ∀ (keys : KeyStore) (a b : String), redact s keys a = .ok b →
      b = redactActor (s.under keys) a := by
    intro keys a b hok
    rw [redact_eq] at hok
    split at hok
    · exact (Except.ok.inj hok).symm
    · cases hok
  refine ⟨fun a ha ↦ ?_, ?_⟩
  · obtain ⟨hkey, hshape⟩ := redactActor_no_key s stored actor
    rw [← hredact stored actor a ha] at hkey hshape
    refine ⟨hkey, hshape, fun b hb ↦ ?_⟩
    rw [hredact shown a b hb]
    exact redactActor_no_key s shown a
  · have hattributed : actor = localIdentity ∨ Attributed actor := by
      rw [identityDep] at hactor
      split at hactor
      · next user huser =>
        rw [← Except.ok.inj hactor]
        exact .inr (attributed_oidcActor huser).1
      · split at hactor
        · exact .inl (Except.ok.inj hactor).symm
        · next key _ =>
          split at hactor
          · split at hactor
            · cases hactor
            · exact .inl (Except.ok.inj hactor).symm
            · rw [← Except.ok.inj hactor]
              exact .inr (attributed_keyActor s key)
          · exact .inl (Except.ok.inj hactor).symm
    refine hattributed.imp_right fun hatt ↦ ⟨fun a ha ↦ ?_, fun key hkey heq ↦ ?_⟩
    · rw [hredact stored actor a ha, hatt.redactActor_eq]
    · exact hatt.not_mem_keyNames stored (heq ▸ hkey)

/-- A caller known by its key alone is stored under a reference to the key, which is no key. -/
theorem identity_is_no_key_of_key :
    redact ⟨.listed ⟨[], by simp, by simp⟩, "", [], [],
        fun _ ↦ "6ab9f1eb8f7d3388f4f9d586f66e99fd54080df2c446f0e58668b09c08a16dd0"⟩
      (KeyStore.ofSettings (some "k1:read") false) "unattributed:key-6ab9f1eb8f7d" =
        .ok "unattributed:key-6ab9f1eb8f7d" ∧
      "unattributed:key-6ab9f1eb8f7d" ∉ keyNames (KeyStore.ofSettings (some "k1:read") false) := by
  have h := (identity_is_no_key
    ⟨.listed ⟨[], by simp, by simp⟩, "", [], [],
      fun _ ↦ "6ab9f1eb8f7d3388f4f9d586f66e99fd54080df2c446f0e58668b09c08a16dd0"⟩
    (KeyStore.ofSettings (some "k1:read") false) (KeyStore.ofSettings (some "k1:read") false)
    (KeyStore.ofSettings (some "k1:read") false) "" (fun _ ↦ none) ⟨none, some "k1"⟩ none
    (by decide +kernel : _ = Except.ok "unattributed:key-6ab9f1eb8f7d")).2
  exact ⟨by decide +kernel, fun hmem ↦ (h.resolve_left (by decide)).2 _ hmem rfl⟩

end CFactory.Access
