import CFactory.Base.Callers
import CFactory.Git.Config

/-!
# Tokens of an installed connection

`git_install.py:573–590,661–744,747–845`. Calls of `InstallTokenSource.token` on one
connection, in any number of processes: each looks into the cache of its process, reads the
stored refresh token, exchanges it at the provider, writes the rotated one back and fills the
cache. The answers of the provider and the clock are inputs of the steps.
-/

namespace CFactory.Git

open CFactory.Base CFactory.Model

/-! ## What a call works with -/

/-- `MintedToken`; `git_install.py:524–537`. -/
structure MintedToken where
  token : String
  expiresAt : Time
  deriving DecidableEq, Repr

/-- `OAuthTokens`; `git_install.py:576–593`. -/
structure OAuthTokens where
  access : String
  refresh : Option String
  expiresAt : Time
  deriving DecidableEq, Repr

/-- `InstallTokenSource` and the settings it reads; `git_install.py:758–783`. -/
structure TokenSource where
  provider : Provider
  installationId : Option String
  /-- What `safe_git_base_url` raises for the connection's host, if anything. -/
  refusedUrl : Option String
  clientId : Option String
  clientSecret : Option String
  deriving DecidableEq, Repr

/-- `_RENEW_MARGIN_SECONDS`; `git_install.py:99`. -/
def renewMargin : Time := 300000000

/-- `_fresh`; `git_install.py:752–755`. -/
def freshToken (minted : Option MintedToken) (now : Time) : Option String :=
  minted.bind fun m ↦ if now + renewMargin < m.expiresAt then some m.token else none

/-- Why a mint fails. -/
inductive MintFailure where
  | refusedUrl (message : String)
  /-- `this install carries no installation id`. -/
  | noInstallation
  /-- `no refresh token is stored for this connection, so no access token can be obtained — …`. -/
  | nothingStored
  /-- `this deployment has no GitLab OAuth application configured, so the stored refresh token
  cannot be exchanged`. -/
  | notConfigured
  /-- `credential must not be empty`. -/
  | emptySecret
  /-- `{provider} has no install flow`. -/
  | noInstallFlow
  /-- What the provider's answer raised. -/
  | answered (message : String)
  deriving DecidableEq, Repr

/-- What the outside supplies to a step: the clock, and the answer if the step asks. -/
structure Outside where
  clock : Time
  installation : Except MintFailure MintedToken
  tokens : Except MintFailure OAuthTokens

/-- What the calls share: the stored refresh token, the cache of every process, the install's
degradation, and the refresh tokens presented to the provider so far. -/
structure TokenStore (π : Type) where
  stored : Option String
  cache : π → Option MintedToken
  degraded : Option MintFailure
  presented : List String

/-- Where a call of `token` stands. -/
inductive TokenCall where
  | called
  | missed
  | read (stored : String)
  | exchanged (stored : String) (tokens : OAuthTokens)
  | minted (m : MintedToken)
  | failed (why : MintFailure)
  | returned (token : String)
  | raised (why : MintFailure)
  deriving DecidableEq, Repr

/-! ## The steps -/

section

variable {ι π : Type} [DecidableEq π] (process : ι → π) (source : TokenSource)

/-- `_mint` up to its first access outside; `git_install.py:817–844`. -/
def mintStart (stored : Option String) (o : Outside) : TokenCall :=
  match source.refusedUrl with
  | some message => .failed (.refusedUrl message)
  | none =>
    match source.provider with
    | .github =>
      if source.installationId.getD "" = "" then .failed .noInstallation
      else match o.installation with
        | .ok m => .minted m
        | .error why => .failed why
    | .gitlab => if stored.getD "" = "" then .failed .nothingStored else .read (stored.getD "")
    | .azureDevops => .failed .noInstallFlow

/-- The next step of a call of `token`; `git_install.py:661–690,785–844`. -/
def tokenNext (i : ι) (o : Outside) : TokenCall → TokenStore π → TokenCall × TokenStore π
  | .called, s =>
    match freshToken (s.cache (process i)) o.clock with
    | some token => (.returned token, s)
    | none => (.missed, s)
  | .missed, s => (mintStart source s.stored o, s)
  | .read stored, s =>
    if stripped source.clientId = "" ∨ stripped source.clientSecret = "" then
      (.failed .notConfigured, s)
    else
      let s' := { s with presented := stored :: s.presented }
      match o.tokens with
      | .ok tokens => (.exchanged stored tokens, s')
      | .error why => (.failed why, s')
  | .exchanged stored tokens, s =>
    match tokens.refresh with
    | none => (.minted ⟨tokens.access, tokens.expiresAt⟩, s)
    | some refresh =>
      if refresh = stored then (.minted ⟨tokens.access, tokens.expiresAt⟩, s)
      -- the store drops outer blanks and refuses what is then empty
      else if stripped (some refresh) = "" then (.failed .emptySecret, s)
      else (.minted ⟨tokens.access, tokens.expiresAt⟩,
        { s with stored := some (stripped (some refresh)) })
  | .minted m, s =>
    (.returned m.token,
      { s with cache := Function.update s.cache (process i) (some m), degraded := none })
  | .failed why, s =>
    (.raised why,
      { s with cache := Function.update s.cache (process i) none, degraded := some why })
  | .returned token, s => (.returned token, s)
  | .raised why, s => (.raised why, s)

/-- No call has taken a step, and nothing has been presented. -/
def Unspent (c : Callers ι TokenCall (TokenStore π)) : Prop :=
  (∀ i, c.pc i = .called) ∧ c.shared.presented = []

/-- No refresh token has been presented twice. -/
def SpentOnce (c : Callers ι TokenCall (TokenStore π)) : Prop := c.shared.presented.Nodup

/-- The provider answers an exchange with a refresh token that is new: not blank, not the one
it was given and none presented before. -/
def FreshAnswer (c : Callers ι TokenCall (TokenStore π)) (e : ι × Outside) : Prop :=
  ∀ stored, c.pc e.1 = .read stored → ∃ tokens refresh, e.2.tokens = .ok tokens ∧
    tokens.refresh = some refresh ∧ refresh ≠ stored ∧ stripped (some refresh) ≠ "" ∧
      stripped (some refresh) ∉ stored :: c.shared.presented

/-- The call has read the stored token and has not written its successor back. -/
def TokenCall.Spending : TokenCall → Prop
  | .read _ => True
  | .exchanged _ _ => True
  | _ => False

/-- The step does not read the stored token while another call that has read it has not
written its successor back. -/
def ReadsAlone (c : Callers ι TokenCall (TokenStore π)) (e : ι × Outside) : Prop :=
  c.pc e.1 = .missed → ∀ j, j ≠ e.1 → ¬(c.pc j).Spending

end

/-! ## Calls that spend one after the other -/

section

variable {ι π : Type} [DecidableEq π] {process : ι → π} {source : TokenSource}

/-- What a spending call knows: what it has read is still stored, and the successor it was
given has not been presented. -/
def Spends : TokenCall → TokenStore π → Prop
  | .read stored, s => s.stored = some stored
  | .exchanged stored tokens, s => ∃ refresh, tokens.refresh = some refresh ∧
      refresh ≠ stored ∧ stripped (some refresh) ≠ "" ∧ stripped (some refresh) ∉ s.presented
  | _, _ => True

/-- Nothing is presented twice, and a stored token that has been presented is in the hands of
the call that is about to replace it. -/
structure Spendable (c : Callers ι TokenCall (TokenStore π)) : Prop where
  once : c.shared.presented.Nodup
  held : ∀ stored, c.shared.stored = some stored → stored ∈ c.shared.presented →
    ∃ i tokens, c.pc i = .exchanged stored tokens

/-- A step before the read leaves what is stored and what was presented. -/
theorem mintStart_cases (stored : Option String) (o : Outside) :
    (∃ t, stored = some t ∧ mintStart source stored o = .read t) ∨
      ¬(mintStart source stored o).Spending := by
  unfold mintStart
  split
  · exact .inr id
  · split
    · split
      · exact .inr id
      · split <;> exact .inr id
    · split
      · exact .inr id
      · next hstored =>
        cases stored with
        | none => exact absurd rfl hstored
        | some t => exact .inl ⟨t, rfl, rfl⟩
    · exact .inr id

omit [DecidableEq π] in
/-- What a call that is not spending knows is nothing. -/
theorem spends_of_not_spending {k : TokenCall} (h : ¬k.Spending) (s : TokenStore π) :
    Spends k s := by
  cases k with
  | read stored => exact absurd trivial h
  | exchanged stored tokens => exact absurd trivial h
  | called => trivial
  | missed => trivial
  | minted m => trivial
  | failed why => trivial
  | returned token => trivial
  | raised why => trivial

omit [DecidableEq π] in
/-- What a call knows depends on the stored token and the presented ones. -/
theorem Spends.congr {k : TokenCall} {s s' : TokenStore π} (h : Spends k s)
    (hstored : s'.stored = s.stored) (hpresented : s'.presented = s.presented) :
    Spends k s' := by
  cases k with
  | read stored => exact hstored.trans h
  | exchanged stored tokens =>
    rw [Spends, hpresented]
    exact h
  | called => trivial
  | missed => trivial
  | minted m => trivial
  | failed why => trivial
  | returned token => trivial
  | raised why => trivial

/-- No two calls are spending at once. -/
def Alone (k k' : TokenCall) (_ : TokenStore π) : Prop := ¬(k.Spending ∧ k'.Spending)

variable [DecidableEq ι] {c : Callers ι TokenCall (TokenStore π)} {i : ι} {o : Outside}

/-- A step that ends a call's part in the spending, or has none, and leaves what is stored and
presented. -/
theorem spendable_calm (h : c.Holds Spends Alone) (hspend : Spendable c)
    (hk : ¬(tokenNext process source i o (c.pc i) c.shared).1.Spending)
    (hstored : (tokenNext process source i o (c.pc i) c.shared).2.stored = c.shared.stored)
    (hpresented :
      (tokenNext process source i o (c.pc i) c.shared).2.presented = c.shared.presented)
    (hfree : ∀ stored tokens, c.pc i ≠ .exchanged stored tokens) :
    (c.step (tokenNext process source) (i, o)).Holds Spends Alone ∧
      Spendable (c.step (tokenNext process source) (i, o)) := by
  refine ⟨Callers.Holds.step (spends_of_not_spending hk _)
    (fun j _ ↦ (h.each j).congr hstored hpresented) (fun j _ hboth ↦ hk hboth.1)
    (fun j _ hboth ↦ hk hboth.2) (fun j k _ _ hjk ↦ h.pairs j k hjk), ?_, ?_⟩
  · rw [Callers.shared_step, hpresented]
    exact hspend.once
  · intro stored hs hmem
    rw [Callers.shared_step, hstored] at hs
    rw [Callers.shared_step, hpresented] at hmem
    obtain ⟨j, tokens, hj⟩ := hspend.held stored hs hmem
    have hji : j ≠ i := fun hji ↦ hfree stored tokens (hji ▸ hj)
    exact ⟨j, tokens, by rw [Callers.pc_step_other _ _ _ hji]; exact hj⟩

/-- A call that reads the stored token while no other is spending. -/
theorem spendable_read (h : c.Holds Spends Alone) (hspend : Spendable c)
    (hmissed : c.pc i = .missed) (halone : ∀ j, j ≠ i → ¬(c.pc j).Spending) {t : String}
    (ht : c.shared.stored = some t) (hread : mintStart source c.shared.stored o = .read t) :
    (c.step (tokenNext process source) (i, o)).Holds Spends Alone ∧
      Spendable (c.step (tokenNext process source) (i, o)) := by
  have hnext : tokenNext process source i o (c.pc i) c.shared = (.read t, c.shared) := by
    rw [hmissed, tokenNext, hread]
  refine ⟨Callers.Holds.step ?_ ?_ (fun j hj hboth ↦ halone j hj hboth.2)
    (fun j hj hboth ↦ halone j hj hboth.1) (fun j k _ _ hjk ↦ h.pairs j k hjk), ?_, ?_⟩
  · rw [hnext]
    exact ht
  · intro j _
    rw [hnext]
    exact h.each j
  · rw [Callers.shared_step, hnext]
    exact hspend.once
  · intro stored hs hmem
    rw [Callers.shared_step, hnext] at hs hmem
    obtain ⟨j, tokens, hj⟩ := hspend.held stored hs hmem
    have hji : j ≠ i := by
      rintro rfl
      exact nomatch hmissed.symm.trans hj
    exact ⟨j, tokens, by rw [Callers.pc_step_other _ _ _ hji]; exact hj⟩

/-- A call that presents the token it has read, and is answered with a fresh one. -/
theorem spendable_exchange (h : c.Holds Spends Alone) (hspend : Spendable c) {t : String}
    (hread : c.pc i = .read t) {tokens : OAuthTokens} {refresh : String}
    (hnext : tokenNext process source i o (c.pc i) c.shared =
      (.exchanged t tokens, { c.shared with presented := t :: c.shared.presented }))
    (hrefresh : tokens.refresh = some refresh) (hne : refresh ≠ t)
    (hblank : stripped (some refresh) ≠ "")
    (hfresh : stripped (some refresh) ∉ t :: c.shared.presented) :
    (c.step (tokenNext process source) (i, o)).Holds Spends Alone ∧
      Spendable (c.step (tokenNext process source) (i, o)) := by
  have hspending : (c.pc i).Spending := by rw [hread]; trivial
  have hothers : ∀ j, j ≠ i → ¬(c.pc j).Spending := fun j hj hbusy ↦
    h.pairs i j (Ne.symm hj) ⟨hspending, hbusy⟩
  have hstored : c.shared.stored = some t := by
    have hseen := h.each i
    rwa [hread] at hseen
  have hunspent : t ∉ c.shared.presented := by
    intro hmem
    obtain ⟨j, tokens', hj⟩ := hspend.held t hstored hmem
    have hji : j ≠ i := by
      rintro rfl
      exact nomatch hread.symm.trans hj
    exact hothers j hji (by rw [hj]; trivial)
  refine ⟨Callers.Holds.step ?_ (fun j hj ↦ spends_of_not_spending (hothers j hj) _)
    (fun j hj hboth ↦ hothers j hj hboth.2) (fun j hj hboth ↦ hothers j hj hboth.1)
    (fun j k _ _ hjk ↦ h.pairs j k hjk), ?_, ?_⟩
  · rw [hnext]
    exact ⟨refresh, hrefresh, hne, hblank, hfresh⟩
  · rw [Callers.shared_step, hnext]
    exact List.nodup_cons.mpr ⟨hunspent, hspend.once⟩
  · intro stored hs _
    rw [Callers.shared_step, hnext] at hs
    have hsame : t = stored := Option.some.inj (hstored.symm.trans hs)
    exact ⟨i, tokens, by rw [Callers.pc_step_self, hnext, hsame]⟩

/-- A call that writes the successor back. -/
theorem spendable_write (h : c.Holds Spends Alone) (hspend : Spendable c) {t : String}
    {tokens : OAuthTokens} (hexchanged : c.pc i = .exchanged t tokens) :
    (c.step (tokenNext process source) (i, o)).Holds Spends Alone ∧
      Spendable (c.step (tokenNext process source) (i, o)) := by
  have hspending : (c.pc i).Spending := by rw [hexchanged]; trivial
  have hothers : ∀ j, j ≠ i → ¬(c.pc j).Spending := fun j hj hbusy ↦
    h.pairs i j (Ne.symm hj) ⟨hspending, hbusy⟩
  have hknown := h.each i
  rw [hexchanged] at hknown
  obtain ⟨refresh, hrefresh, hne, hblank, hfresh⟩ := hknown
  have hnext : tokenNext process source i o (c.pc i) c.shared =
      (.minted ⟨tokens.access, tokens.expiresAt⟩,
        { c.shared with stored := some (stripped (some refresh)) }) := by
    rw [hexchanged, tokenNext, hrefresh]
    simp only [if_neg hne, if_neg hblank]
  refine ⟨Callers.Holds.step ?_ (fun j hj ↦ spends_of_not_spending (hothers j hj) _)
    (fun j hj hboth ↦ hothers j hj hboth.2) (fun j hj hboth ↦ hothers j hj hboth.1)
    (fun j k _ _ hjk ↦ h.pairs j k hjk), ?_, ?_⟩
  · rw [hnext]
    trivial
  · rw [Callers.shared_step, hnext]
    exact hspend.once
  · intro stored hs hmem
    rw [Callers.shared_step, hnext] at hs hmem
    cases hs
    exact absurd hmem hfresh

/-- Every step of a fresh provider that reads alone spends nothing twice. -/
theorem spendable_step (h : c.Holds Spends Alone) (hspend : Spendable c)
    (hfresh : FreshAnswer c (i, o)) (halone : ReadsAlone c (i, o)) :
    (c.step (tokenNext process source) (i, o)).Holds Spends Alone ∧
      Spendable (c.step (tokenNext process source) (i, o)) := by
  cases hk : c.pc i with
  | called =>
    have hnext : (∃ token, tokenNext process source i o (c.pc i) c.shared =
        (.returned token, c.shared)) ∨
          tokenNext process source i o (c.pc i) c.shared = (.missed, c.shared) := by
      rw [hk, tokenNext]
      split
      · exact .inl ⟨_, rfl⟩
      · exact .inr rfl
    cases hnext with
    | inl hreturned =>
      obtain ⟨token, hreturned⟩ := hreturned
      exact spendable_calm h hspend (by rw [hreturned]; exact id) (by rw [hreturned])
        (by rw [hreturned]) (by rw [hk]; exact nofun)
    | inr hmissed =>
      exact spendable_calm h hspend (by rw [hmissed]; exact id) (by rw [hmissed])
        (by rw [hmissed]) (by rw [hk]; exact nofun)
  | missed =>
    cases @mintStart_cases source c.shared.stored o with
    | inl hread =>
      obtain ⟨t, ht, hread⟩ := hread
      exact spendable_read h hspend hk (halone hk) ht hread
    | inr hcalm =>
      exact spendable_calm h hspend (by rw [hk]; exact hcalm) (by rw [hk]; rfl) (by rw [hk]; rfl)
        (by rw [hk]; exact nofun)
  | read t =>
    obtain ⟨tokens, refresh, hanswer, hrefresh, hne, hblank, hnew⟩ := hfresh t hk
    by_cases hconfigured : stripped source.clientId = "" ∨ stripped source.clientSecret = ""
    · have hnext : tokenNext process source i o (c.pc i) c.shared =
          (.failed .notConfigured, c.shared) := by
        rw [hk, tokenNext, if_pos hconfigured]
      exact spendable_calm h hspend (by rw [hnext]; exact id) (by rw [hnext]) (by rw [hnext])
        (by rw [hk]; exact nofun)
    · have hnext : tokenNext process source i o (c.pc i) c.shared =
          (.exchanged t tokens, { c.shared with presented := t :: c.shared.presented }) := by
        rw [hk, tokenNext, if_neg hconfigured, show o.tokens = .ok tokens from hanswer]
      exact spendable_exchange h hspend hk hnext hrefresh hne hblank hnew
  | exchanged t tokens => exact spendable_write h hspend hk
  | minted m =>
    exact spendable_calm h hspend (by rw [hk]; exact id) (by rw [hk]; rfl) (by rw [hk]; rfl)
      (by rw [hk]; exact nofun)
  | failed why =>
    exact spendable_calm h hspend (by rw [hk]; exact id) (by rw [hk]; rfl) (by rw [hk]; rfl)
      (by rw [hk]; exact nofun)
  | returned token =>
    exact spendable_calm h hspend (by rw [hk]; exact id) (by rw [hk]; rfl) (by rw [hk]; rfl)
      (by rw [hk]; exact nofun)
  | raised why =>
    exact spendable_calm h hspend (by rw [hk]; exact id) (by rw [hk]; rfl) (by rw [hk]; rfl)
      (by rw [hk]; exact nofun)

end

/-- With a provider that answers every exchange with a fresh refresh token, no refresh token is
presented twice in any run in which no call reads the stored one while another call that has
read it has not written its successor back, whatever the caches of the processes hold. -/
theorem spent_once_of_reads_alone {ι π : Type} [DecidableEq ι] [DecidableEq π]
    (process : ι → π) (source : TokenSource) (c : Callers ι TokenCall (TokenStore π))
    (hstart : Unspent c) (steps : List (ι × Outside))
    (hfresh : EachStep (Callers.step (tokenNext process source)) FreshAnswer c steps)
    (halone : EachStep (Callers.step (tokenNext process source)) ReadsAlone c steps) :
    Throughout (Callers.step (tokenNext process source)) SpentOnce c steps := by
  obtain ⟨hcalled, hnothing⟩ := hstart
  have hholds : c.Holds Spends Alone := by
    constructor
    · intro i
      rw [hcalled i]
      trivial
    · intro i j _ hboth
      rw [hcalled i] at hboth
      exact hboth.1
  have hspend : Spendable c := by
    constructor
    · rw [hnothing]
      exact List.nodup_nil
    · intro stored _ hmem
      rw [hnothing] at hmem
      cases hmem
  have hrun := throughout_of_step (P := fun d ↦ d.Holds Spends Alone ∧ Spendable d)
    (fun d e hd hcond ↦ spendable_step hd.1 hd.2 hcond.1 hcond.2) ⟨hholds, hspend⟩
    (hfresh.and halone)
  exact hrun.imp fun d hd ↦ hd.2.once

/-- A GitLab install of one connection, with a refresh token stored and two replicas. -/
def gitlabSource : TokenSource := ⟨.gitlab, none, none, some "client", some "secret"⟩

/-- Two calls, each in a replica of its own with an empty cache. -/
def twoReplicas : Callers Bool TokenCall (TokenStore Bool) where
  pc _ := .called
  shared := ⟨some "r0", fun _ ↦ none, none, []⟩

/-- The provider answers with a new refresh token. -/
def rotates (refresh : String) : Outside :=
  ⟨0, .error .noInstallFlow, .ok ⟨"access", some refresh, 7200000000⟩⟩

/-- One replica spends the stored token and the other, reading after the write, its successor. -/
theorem replicas_in_turn :
    SpentOnce (twoReplicas.run (tokenNext id gitlabSource)
      [(true, rotates "r1"), (true, rotates "r1"), (true, rotates "r1"), (true, rotates "r1"),
        (false, rotates "r2"), (false, rotates "r2"), (false, rotates "r2")]) := by
  refine (spent_once_of_reads_alone id gitlabSource twoReplicas ⟨fun _ ↦ rfl, rfl⟩ _ ?_ ?_).last
  · refine ⟨nofun, nofun, ?_, nofun, nofun, nofun, ?_, trivial⟩
    · intro stored hread
      cases hread
      exact ⟨_, "r1", rfl, rfl, by decide, by decide, by decide⟩
    · intro stored hread
      cases hread
      exact ⟨_, "r2", rfl, rfl, by decide, by decide, by decide⟩
  · refine ⟨nofun, ?_, nofun, nofun, nofun, ?_, nofun, trivial⟩
    · intro _ j hj
      cases j with
      | true => exact absurd rfl hj
      | false => exact id
    · intro _ j hj
      cases j with
      | true => exact id
      | false => exact absurd rfl hj

/-- Two replicas that both miss their caches read the same stored token, and both present it. -/
theorem both_replicas_spend :
    ¬ ∀ steps : List (Bool × Outside),
      EachStep (Callers.step (tokenNext id gitlabSource)) FreshAnswer twoReplicas steps →
        SpentOnce (twoReplicas.run (tokenNext id gitlabSource) steps) := by
  intro hall
  have hspent : ["r0", "r0"].Nodup := hall
    [(true, rotates "r1"), (true, rotates "r1"), (false, rotates "r2"), (false, rotates "r2"),
      (true, rotates "r1"), (false, rotates "r2")] (by
    refine ⟨nofun, nofun, nofun, nofun, ?_, ?_, trivial⟩
    · intro stored hread
      cases hread
      exact ⟨_, "r1", rfl, rfl, by decide, by decide, by decide⟩
    · intro stored hread
      cases hread
      exact ⟨_, "r2", rfl, rfl, by decide, by decide, by decide⟩)
  exact absurd hspent (by decide)

end CFactory.Git
